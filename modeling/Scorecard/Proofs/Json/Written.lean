import Scorecard.Json.Pretty
import Scorecard.Json.Value
import Scorecard.Proofs.Json.Numeral

/-!
# Written JSON is read as it was meant

`Json.document` is the document that the text of a value should have, and it has it
(`parse_text`): quoted texts with their escapes, numerals, and containers of any depth.

Tokens are cut and stacked in one go.  `run` is the stack of open containers after a text, and
`ReadsAs` says of a piece of text that it takes any stack that waits for a value to the same stack
with a document on it, whatever follows.  Pieces are put together by `readsAs_array` and
`readsAs_object`, so the induction on the value has one short case for each kind of value.
-/

namespace Scorecard.Json

open Number

/-! ## Documents of values -/

/-- What a character is between quotes: a control without an escape of its own is a code. -/
def unitOf (c : Char) : StringUnit :=
  if c.toNat < 0x20 ∧ c ∉ ['\x08', '\x0c', '\n', '\r', '\t'] then .code c.toNat else .char c

/-- What a text is between quotes. -/
def units (s : String) : List StringUnit := s.toList.map unitOf

mutual

/-- The document of a value. -/
def document : Json → Document
  | null => .null
  | bool b => .bool b
  | int n => .number (n < 0) ⟨natDigits n.natAbs, none, none⟩
  | float x => .number (isNegative x) (numeral ((magnitude x).shortest .toEven))
  | string s => .string (units s)
  | array items => .array (itemDocuments items)
  | object members => .object (memberDocuments members)

/-- The documents of the items of an array. -/
def itemDocuments : List Json → List Document
  | [] => []
  | v :: vs => document v :: itemDocuments vs

/-- The keys and documents of the members of an object. -/
def memberDocuments : List (String × Json) → List (List StringUnit × Document)
  | [] => []
  | (k, v) :: ms => (units k, document v) :: memberDocuments ms

end

@[simp] theorem itemDocuments_eq (vs : List Json) : itemDocuments vs = vs.map document := by
  induction vs with
  | nil => rfl
  | cons v vs ih => rw [itemDocuments, ih, List.map_cons]

@[simp] theorem memberDocuments_eq (ms : List (String × Json)) :
    memberDocuments ms = ms.map fun m => (units m.1, document m.2) := by
  induction ms with
  | nil => rfl
  | cons m ms ih => rw [memberDocuments, ih, List.map_cons]

mutual

/-- All numbers in the value are finite. -/
def IsFinite : Json → Prop
  | float x => x.isFinite = true
  | array items => AreFinite items
  | object members => MembersAreFinite members
  | null | bool _ | int _ | string _ => True

/-- All numbers in the values are finite. -/
def AreFinite : List Json → Prop
  | [] => True
  | v :: vs => IsFinite v ∧ AreFinite vs

/-- All numbers in the members are finite. -/
def MembersAreFinite : List (String × Json) → Prop
  | [] => True
  | (_, v) :: ms => IsFinite v ∧ MembersAreFinite ms

end

/-! ## Quoted texts -/

/-- The escape of a control is four digits that are read as its code. -/
theorem scanString_code {n : Nat} (h : n < 0x20) (cs : List Char) :
    scanString (['\\', 'u'] ++ List.replicate (4 - (Text.hexDigits n).length) '0' ++
      Text.hexDigits n ++ cs) = (scanString cs).map fun (us, rest) => (.code n :: us, rest) := by
  have hlength : (Text.hexDigits n).length ≤ 2 :=
    (Nat.length_toDigits_le_iff (by decide) (by decide)).mpr (by omega)
  obtain ⟨digits, hdigits⟩ : ∃ digits, digits =
    List.replicate (4 - (Text.hexDigits n).length) '0' ++ Text.hexDigits n := ⟨_, rfl⟩
  have hfour : digits.length = 4 := by
    rw [hdigits, List.length_append, List.length_replicate]
    omega
  have hcode : ofHexDigits? digits = some n := by
    rw [hdigits, ofHexDigits?_zeros_append, ofHexDigits?_hexDigits]
  rw [List.append_assoc ['\\', 'u'], ← hdigits]
  match digits, hfour with
  | [a, b, c, d], _ =>
    simp only [List.cons_append, List.nil_append, scanString, hcode]
    cases scanString cs <;> rfl

/-- A written character is read as its unit. -/
theorem scanString_escapedChar (c : Char) (cs : List Char) : scanString (escapedChar c ++ cs) =
    (scanString cs).map fun (us, rest) => (unitOf c :: us, rest) := by
  have hletter : ∀ e d : Char, e ≠ 'u' → escaped? e = some d → unitOf d = .char d →
      scanString ('\\' :: e :: cs) =
        (scanString cs).map fun (us, rest) => (unitOf d :: us, rest) := by
    intro e d he hd hunit
    rw [scanString, hd, hunit]
    · cases scanString cs <;> rfl
    · rintro _ _ _ _ _ rfl
      exact absurd rfl he
  unfold escapedChar
  split_ifs with hquote hbackslash hb hf hn hr ht hcontrol
  -- Seven characters have an escape of two characters.
  any_goals subst_vars; exact hletter _ _ (by decide) rfl rfl
  · rw [unitOf, if_pos ⟨hcontrol, by simp [hb, hf, hn, hr, ht]⟩]
    exact scanString_code hcontrol cs
  · rw [unitOf, if_neg fun h => hcontrol h.1, List.singleton_append]
    rw [scanString, if_neg (by simp [hcontrol, hbackslash])]
    · cases scanString cs <;> rfl
    · exact hquote
    · exact fun _ _ _ _ _ hc _ => hbackslash hc
    · exact fun _ _ hc _ => hbackslash hc

theorem scanString_units (s rest : List Char) :
    scanString (s.flatMap escapedChar ++ '"' :: rest) = some (s.map unitOf, rest) := by
  induction s with
  | nil => simp [scanString]
  | cons c cs ih =>
    rw [List.flatMap_cons, List.append_assoc, scanString_escapedChar, ih]
    rfl

/-- A code below the surrogates stands for its character. -/
theorem decodeUnits_code {n : Nat} (h : n < 0xD800) (us : List StringUnit) :
    decodeUnits (.code n :: us) = (decodeUnits us).map (Char.ofNat n :: ·) := by
  have hlow : ¬(0xD800 ≤ n ∧ n < 0xDC00) := by omega
  have hhigh : ¬(0xDC00 ≤ n ∧ n < 0xE000) := by omega
  have hany : ¬(0xD800 ≤ n ∧ n < 0xE000) := by omega
  rcases us with _ | ⟨_ | _, us⟩
  · simp [decodeUnits, hany]
  · simp [decodeUnits, hany]
  · simp [decodeUnits, hlow, hhigh]

@[simp] theorem textOf?_units (s : String) : textOf? (units s) = some s := by
  have hall : ∀ cs : List Char, decodeUnits (cs.map unitOf) = some cs := by
    intro cs
    induction cs with
    | nil => rfl
    | cons c cs ih =>
      rw [List.map_cons, unitOf]
      split
      · next hc => rw [decodeUnits_code (by omega), ih, Option.map_some, Char.ofNat_toNat]
      · rw [decodeUnits, ih, Option.map_some]
  rw [textOf?, units, hall, Option.map_some, String.ofList_toList]

/-! ## The stack after a text -/

/-- The stack and state after the tokens of a text, unless some part of it is no token or some token
is out of place. -/
def run (σ : List Document.Frame × Document.State) (cs : List Char) :
    Option (List Document.Frame × Document.State) :=
  (tokens? cs).bind (·.foldlM Document.step σ)

section

variable {σ σ' : List Document.Frame × Document.State}

theorem run_nil : run σ [] = some σ := by
  rw [run, tokens?]
  rfl

theorem run_separator {c : Char} (h : isSeparator c = true) (cs : List Char) :
    run σ (c :: cs) = run σ cs := by
  rw [run, tokens?, if_pos h, run]

theorem run_token {c : Char} {cs rest : List Char} {t : Token} (hc : isSeparator c = false)
    (hnext : next? c cs = some (t, rest)) (hstep : Document.step σ t = some σ') :
    run σ (c :: cs) = run σ' rest := by
  have htokens : tokens? (c :: cs) = (tokens? rest).map (t :: ·) := by
    rw [tokens?, if_neg (by simp [hc])]
    split
    · next h => rw [hnext] at h; simp at h
    · next h =>
      obtain ⟨rfl, rfl⟩ : t = _ ∧ rest = _ := by simpa using hnext.symm.trans h
      rfl
  rw [run, htokens, run, Option.bind_map]
  congr 1
  funext ts
  rw [Function.comp_apply, List.foldlM_cons, hstep]
  rfl

theorem run_newLine (depth : Nat) (cs : List Char) : run σ (newLine depth ++ cs) = run σ cs := by
  have hblanks : ∀ k, run σ (List.replicate k ' ' ++ cs) = run σ cs := by
    intro k
    induction k with
    | zero => rfl
    | succ k ih => rw [List.replicate_succ, List.cons_append, run_separator (by decide), ih]
  rw [newLine, List.cons_append, run_separator (by decide), hblanks]

end

/-! ## Pieces of text -/

/-- The text that follows does not carry a number on. -/
def EndsNumber (after : List Char) : Prop :=
  ∀ c ∈ after.head?, isDigit c = false ∧ c ≠ '.' ∧ c ≠ 'e' ∧ c ≠ 'E'

theorem endsNumber_nil : EndsNumber [] := by
  intro c hc
  simp at hc

theorem endsNumber_cons {c : Char} (h : isDigit c = false ∧ c ≠ '.' ∧ c ≠ 'e' ∧ c ≠ 'E')
    (cs : List Char) : EndsNumber (c :: cs) := by
  intro d hd
  obtain rfl : c = d := by simpa using hd
  exact h

/-- The text takes a stack that waits for a value to the same stack with a document on it. -/
def ReadsAs (cs : List Char) (d : Document) : Prop :=
  ∀ (stack : List Document.Frame) (s : Document.State) (after : List Char),
    s = .value ∨ s = .first → EndsNumber after → run (stack, s) (cs ++ after) =
      run (stack, .done d) after

/-- The text takes a stack that waits for the key of a member to the same stack with the member on
it. -/
def ReadsAsMember (cs : List Char) (m : List StringUnit × Document) : Prop :=
  ∀ (stack : List Document.Frame) (before : List (List StringUnit × Document)) (after : List Char),
    EndsNumber after → run (stack, .key before) (cs ++ after) =
      run (.object before m.1 :: stack, .done m.2) after

/-- A text that is one token. -/
theorem readsAs_token {c : Char} {body : List Char} {t : Token} {d : Document}
    (hc : isSeparator c = false)
    (hnext : ∀ after, EndsNumber after → next? c (body ++ after) = some (t, after))
    (hstart : ∀ stack, Document.start stack t = some (stack, .done d)) : ReadsAs (c :: body) d := by
  intro stack s after hs hafter
  refine run_token hc (hnext after hafter) ?_
  have ht : t ≠ .ends .array := by
    rintro rfl
    exact absurd (hstart []) (by simp [Document.start])
  rcases hs with rfl | rfl
  · exact hstart stack
  · rw [Document.step]
    · exact hstart stack
    · exact fun _ h _ => ht h

/-! ### Words, numbers and quoted texts -/

theorem scanWord_append (word : String) (t : Token) (after : List Char) :
    scanWord word t (word.toList ++ after) = some (t, after) := by
  have hprefix : word.toList.isPrefixOf (word.toList ++ after) = true :=
    List.isPrefixOf_iff_prefix.mpr (List.prefix_append _ _)
  rw [scanWord, if_pos hprefix, ← String.length_toList, List.drop_left]

theorem readsAs_null : ReadsAs "null".toList .null :=
  readsAs_token (by decide) (fun after _ => scanWord_append "ull" .null after) fun _ => rfl

theorem readsAs_bool (b : Bool) : ReadsAs (if b then "true" else "false").toList (.bool b) := by
  cases b
  · exact readsAs_token (by decide) (fun after _ => scanWord_append "alse" (.bool false) after)
      fun _ => rfl
  · exact readsAs_token (by decide) (fun after _ => scanWord_append "rue" (.bool true) after)
      fun _ => rfl

theorem scanNumber_append (negative : Bool) {n : Numeral} (hn : IsNumber n) (after : List Char)
    (hafter : EndsNumber after) :
    scanNumber negative (n.text ++ after) = some (.number negative n, after) := by
  have hscan : Numeral.scan (n.text ++ after) = (n, after) := by
    refine Numeral.scan_text_append hn.toHasParts fun c hc => ?_
    obtain ⟨hdigit, hpoint, he, hE⟩ := hafter c hc
    exact ⟨hdigit, fun h => absurd h (by simp [he, hE]), fun h => absurd h hpoint⟩
  rw [scanNumber, hscan]
  exact if_pos hn.wellWritten

theorem next?_digit {c : Char} (h : isDigit c = true) (cs : List Char) :
    next? c cs = scanNumber false (c :: cs) := by
  unfold next?
  split
  case h_12 => rfl
  all_goals exact absurd h (by decide)

theorem isSeparator_digit {c : Char} (h : isDigit c = true) : isSeparator c = false := by
  by_contra hsep
  simp only [isSeparator, Bool.not_eq_false, Bool.or_eq_true, decide_eq_true_eq] at hsep
  rcases hsep with ((rfl | rfl) | rfl) | rfl <;> exact absurd h (by decide)

theorem readsAs_number (negative : Bool) {n : Numeral} (hn : IsNumber n) :
    ReadsAs ((if negative then ['-'] else []) ++ n.text) (.number negative n) := by
  cases negative with
  | true =>
    exact readsAs_token (by decide) (fun after hafter => scanNumber_append true hn after hafter)
      fun _ => rfl
  | false =>
    have hwhole : n.whole ≠ [] := by
      have h := hn.wellWritten
      simp only [wellWritten, Bool.and_eq_true, decide_eq_true_eq] at h
      exact h.1.1
    obtain ⟨c, cs, hcs⟩ := List.exists_cons_of_ne_nil hwhole
    have hdigit : isDigit c = true := hn.whole c (by simp [hcs])
    obtain ⟨body, hbody⟩ : ∃ body, n.text = c :: body := by
      rw [Numeral.text, hcs]
      exact ⟨_, rfl⟩
    have hscan := scanNumber_append false hn
    rw [hbody] at hscan
    simp only [Bool.false_eq_true, if_false, List.nil_append, hbody]
    exact readsAs_token (isSeparator_digit hdigit)
      (fun after hafter => (next?_digit hdigit _).trans (hscan after hafter)) fun _ => rfl

theorem next?_quote (s : String) (after : List Char) :
    next? '"' (s.toList.flatMap escapedChar ++ '"' :: after) = some (.string (units s), after) := by
  show (scanString _).map _ = _
  rw [scanString_units]
  rfl

theorem readsAs_string (s : String) : ReadsAs (quotedText s) (.string (units s)) := by
  refine readsAs_token (t := .string (units s)) (by decide) (fun after _ => ?_) fun _ => rfl
  show next? '"' (s.toList.flatMap escapedChar ++ ['"'] ++ after) = _
  rw [List.append_assoc]
  exact next?_quote s after

/-! ### Containers -/

/-- How the machine takes the items of a container, `before` being those it has, last first. -/
structure Container (α : Type) where
  bracket : Bracket
  opening : Char
  closing : Char
  /-- The container has just begun. -/
  opened : List Document.Frame × Document.State
  /-- The next item may come. -/
  waits : List α → List Document.Frame × Document.State
  /-- An item has just ended. -/
  holds : List α → α → List Document.Frame × Document.State
  /-- The container with these items has ended. -/
  closed : List α → List Document.Frame × Document.State
  next?_opening : isSeparator opening = false ∧
    ∀ cs, next? opening cs = some (.begins bracket, cs)
  next?_closing : isSeparator closing = false ∧ ∀ cs, next? closing cs = some (.ends bracket, cs)
  step_comma : ∀ before a, Document.step (holds before a) .comma = some (waits (a :: before))
  step_ends : ∀ before a, Document.step (holds before a) (.ends bracket) =
    some (closed (a :: before).reverse)
  step_ends_nil : Document.step opened (.ends bracket) = some (closed [])

namespace Container

/-- An array on a stack. -/
def array (stack : List Document.Frame) : Container Document where
  bracket := .array
  opening := '['
  closing := ']'
  opened := (.array [] :: stack, .first)
  waits before := (.array before :: stack, .value)
  holds before v := (.array before :: stack, .done v)
  closed vs := (stack, .done (.array vs))
  next?_opening := ⟨by decide, fun _ => rfl⟩
  next?_closing := ⟨by decide, fun _ => rfl⟩
  step_comma _ _ := rfl
  step_ends _ _ := rfl
  step_ends_nil := rfl

/-- An object on a stack. -/
def object (stack : List Document.Frame) : Container (List StringUnit × Document) where
  bracket := .object
  opening := '\x7b'
  closing := '\x7d'
  opened := (stack, .key [])
  waits before := (stack, .key before)
  holds before m := (.object before m.1 :: stack, .done m.2)
  closed ms := (stack, .done (.object ms))
  next?_opening := ⟨by decide, fun _ => rfl⟩
  next?_closing := ⟨by decide, fun _ => rfl⟩
  step_comma _ _ := rfl
  step_ends _ _ := rfl
  step_ends_nil := rfl

variable {α : Type} (k : Container α)

/-- The text is taken as an item, wherever an item may stand. -/
def Takes (item : List Char) (a : α) : Prop :=
  ∀ σ before after, σ = k.waits before ∨ σ = k.opened ∧ before = [] → EndsNumber after →
    run σ (item ++ after) = run (k.holds before a) after

theorem endsNumber_items (items : List (List Char)) (depth : Nat) (after : List Char) :
    EndsNumber (items.flatMap (fun i => ',' :: newLine (depth + 1) ++ i) ++
      (newLine depth ++ after)) := by
  cases items with
  | nil => exact endsNumber_cons (by decide) _
  | cons item items => exact endsNumber_cons (by decide) _

variable {k}

/-- The items that follow an item, up to the end of the container. -/
theorem run_items {items : List (List Char)} {as : List α} (h : List.Forall₂ k.Takes items as)
    (depth : Nat) (before : List α) (a : α) (after : List Char) :
    run (k.holds before a) (items.flatMap (fun i => ',' :: newLine (depth + 1) ++ i) ++
        (newLine depth ++ k.closing :: after)) =
      run (k.closed (before.reverse ++ a :: as)) after := by
  induction h generalizing before a with
  | nil =>
    rw [List.flatMap_nil, List.nil_append, run_newLine,
      run_token k.next?_closing.1 (k.next?_closing.2 after) (k.step_ends before a),
      List.reverse_cons]
  | @cons item v items as hitem hitems ih =>
    have hseparated : ∀ rest, run (k.holds before a)
        (',' :: newLine (depth + 1) ++ item ++ rest) =
          run (k.waits (a :: before)) (item ++ rest) := by
      intro rest
      rw [List.cons_append, List.cons_append, run_token (by decide) rfl (k.step_comma before a),
        List.append_assoc, run_newLine]
    rw [List.flatMap_cons, List.append_assoc, hseparated,
      hitem _ _ _ (.inl rfl) (endsNumber_items items depth _), ih, List.reverse_cons,
      List.append_assoc, List.singleton_append]

/-- A container takes its items from its beginning to its end. -/
theorem run_enclosed {items : List (List Char)} {as : List α} (h : List.Forall₂ k.Takes items as)
    {σ : List Document.Frame × Document.State}
    (hopens : Document.step σ (.begins k.bracket) = some k.opened) (depth : Nat)
    (after : List Char) :
    run σ (enclosed k.opening k.closing depth items ++ after) = run (k.closed as) after := by
  have hopening : ∀ rest, run σ (k.opening :: rest) = run k.opened rest := fun rest =>
    run_token k.next?_opening.1 (k.next?_opening.2 rest) hopens
  cases h with
  | nil =>
    show run σ (k.opening :: k.closing :: after) = _
    rw [hopening]
    exact run_token k.next?_closing.1 (k.next?_closing.2 after) k.step_ends_nil
  | @cons item a items as hitem hitems =>
    have hassoc : enclosed k.opening k.closing depth (item :: items) ++ after =
        k.opening :: (newLine (depth + 1) ++ (item ++
          (items.flatMap (fun i => ',' :: newLine (depth + 1) ++ i) ++
            (newLine depth ++ k.closing :: after)))) := by
      simp [enclosed]
    rw [hassoc, hopening, run_newLine,
      hitem _ [] _ (.inr ⟨rfl, rfl⟩) (endsNumber_items items depth _), run_items hitems]
    rfl

end Container

theorem readsAs_array {items : List (List Char)} {ds : List Document}
    (h : List.Forall₂ ReadsAs items ds) (depth : Nat) :
    ReadsAs (enclosed '[' ']' depth items) (.array ds) := by
  intro stack s after hs _
  refine Container.run_enclosed (k := .array stack) (h.imp ?_) ?_ depth after
  · rintro item d hitem σ before after (rfl | ⟨rfl, rfl⟩) hafter
    · exact hitem _ .value after (.inl rfl) hafter
    · exact hitem _ .first after (.inr rfl) hafter
  · rcases hs with rfl | rfl <;> simp [Container.array, Document.step, Document.start]

theorem readsAs_object {items : List (List Char)} {ms : List (List StringUnit × Document)}
    (h : List.Forall₂ ReadsAsMember items ms) (depth : Nat) :
    ReadsAs (enclosed '\x7b' '\x7d' depth items) (.object ms) := by
  intro stack s after hs _
  refine Container.run_enclosed (k := .object stack) (h.imp ?_) ?_ depth after
  · rintro item m hitem σ before after (rfl | ⟨rfl, rfl⟩) hafter
    · exact hitem stack before after hafter
    · exact hitem stack [] after hafter
  · rcases hs with rfl | rfl <;> simp [Container.object, Document.step, Document.start]

/-- A member is its key and a value. -/
theorem readsAsMember (key : String) {cs : List Char} {d : Document} (h : ReadsAs cs d) :
    ReadsAsMember (quotedText key ++ ':' :: ' ' :: cs) (units key, d) := by
  intro stack before after hafter
  have hassoc : quotedText key ++ ':' :: ' ' :: cs ++ after =
      '"' :: (key.toList.flatMap escapedChar ++ '"' :: ':' :: ' ' :: (cs ++ after)) := by
    simp [quotedText]
  have hkey : Document.step (stack, .key before) (.string (units key)) =
      some (stack, .colon before (units key)) := by
    cases before <;> rfl
  rw [hassoc, run_token (by decide) (next?_quote key _) hkey,
    run_token (t := .colon) (by decide) rfl rfl, run_separator (by decide),
    h _ .value after (.inl rfl) hafter]

/-! ## Values -/

theorem readsAs_int (n : Int) :
    ReadsAs (intText n) (.number (n < 0) ⟨natDigits n.natAbs, none, none⟩) := by
  have h := readsAs_number (decide (n < 0)) (isNumber_natDigits n.natAbs)
  simpa [intText, Numeral.text] using h

theorem readsAs_float {x : Float} (h : x.isFinite = true) : ReadsAs (Style.json.text x)
    (.number (isNegative x) (numeral ((magnitude x).shortest .toEven))) := by
  rw [Style.text, isNaN_of_isFinite h, if_neg (by decide), if_pos h, layout_eq]
  exact readsAs_number (isNegative x) (isNumber_shortest .toEven (magnitude x))

mutual

/-- The text of a value is read as its document. -/
theorem readsAs_pretty : ∀ (v : Json) (depth : Nat), IsFinite v →
    ReadsAs (pretty depth v) (document v)
  | null, _, _ => readsAs_null
  | bool b, _, _ => readsAs_bool b
  | int n, _, _ => readsAs_int n
  | float _, _, h => readsAs_float h
  | string s, _, _ => readsAs_string s
  | array items, depth, h => readsAs_array (readsAs_prettyItems items (depth + 1) h) depth
  | object members, depth, h =>
      readsAs_object (readsAsMember_prettyMembers members (depth + 1) h) depth

theorem readsAs_prettyItems : ∀ (vs : List Json) (depth : Nat), AreFinite vs →
    List.Forall₂ ReadsAs (prettyItems depth vs) (itemDocuments vs)
  | [], _, _ => .nil
  | v :: vs, depth, h => .cons (readsAs_pretty v depth h.1) (readsAs_prettyItems vs depth h.2)

theorem readsAsMember_prettyMembers : ∀ (ms : List (String × Json)) (depth : Nat),
    MembersAreFinite ms →
    List.Forall₂ ReadsAsMember (prettyMembers depth ms) (memberDocuments ms)
  | [], _, _ => .nil
  | (k, v) :: ms, depth, h =>
      .cons (readsAsMember k (readsAs_pretty v depth h.1))
        (readsAsMember_prettyMembers ms depth h.2)

end

/-- A text that is read as a document is parsed as it. -/
theorem parse_of_readsAs {cs : List Char} {d : Document} (h : ReadsAs cs d) :
    Document.parse cs = some d := by
  have hrun : run ([], .value) cs = some ([], .done d) := by
    rw [← List.append_nil cs, h [] .value [] (.inl rfl) endsNumber_nil, run_nil]
  rw [run] at hrun
  obtain ⟨ts, hts, hfold⟩ := Option.bind_eq_some_iff.mp hrun
  rw [Document.parse, hts, Option.bind_some, Document.ofTokens?, hfold]

/-- The text of a value without infinite numbers is parsed as the document of the value. -/
theorem parse_text {v : Json} (h : IsFinite v) :
    Document.parse v.text.toList = some v.document := by
  rw [text, String.toList_ofList]
  exact parse_of_readsAs (readsAs_pretty v 0 h)

end Scorecard.Json
