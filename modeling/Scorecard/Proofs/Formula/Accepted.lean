import Scorecard.Proofs.Formula.Following
import Scorecard.Proofs.Formula.Opening
import Scorecard.Proofs.Formula.Runs

/-!
# Which formulas the evaluator accepts

The formulas here are made of digits, points, the letters `e` and `E`, the marks of arithmetic,
parentheses and spaces.  `evaluate_grammar` says which of them evaluate, and that the others are
invalid.

* `Spelled` are the tokens that spell a row of symbols: literals that no text touches, marks and
  spaces.  Where words may join literals, any other tokens leave a name that is no function
  (`spelledOrNamed`).
* `Accepted` are the tokens that spell a phrase of the evaluator's grammar outside comments, and
  `WellFormed` are the texts that write one of the strict grammar.
* A formula evaluates exactly if its tokens are accepted where words may join literals
  (`evaluates_iff_accepted`).
* `wellFormed_iff`: a text is well-formed if it is accepted and has nothing of what the evaluator
  adds to the strict grammar (`Ordinary`).
* Two slashes begin a comment, so not only well-formed texts evaluate
  (`not_invalid_of_not_wellFormed`).
-/

namespace Scorecard.Formula

open Number (Numeral isDigit)

/-! ## Tokens that spell symbols -/

/-- The symbol of a mark. -/
def markSymbol? : Char → Option Symbol
  | '(' => some .opening
  | ')' => some .closing
  | '+' => some .plus
  | '-' => some .minus
  | '*' | '/' => some .times
  | _ => none

/-- The tokens are literals that no text touches, marks and spaces, and these are the symbols they
spell.  The flag says whether a word may join a literal. -/
inductive Spelled (joining : Bool) : List Token → List Symbol → Prop
  | nil : Spelled joining [] []
  | space {ts : List Token} {ss : List Symbol} (h : Spelled joining ts ss) :
      Spelled joining (.other ' ' :: ts) ss
  | literal (n : Numeral) {ts : List Token} {ss : List Symbol}
      (hnext : ∀ t ∈ ts.head?, t.isText = false) (h : Spelled joining ts ss) :
      Spelled joining (.number n :: ts) (.literal :: ss)
  | joined (hjoining : joining = true) {n : Numeral} {w : List Char} {ts : List Token}
      {ss : List Symbol} (hjoins : (Token.number n).Joins (.word w))
      (hnext : ∀ t ∈ ts.head?, t.isText = false) (h : Spelled joining ts ss) :
      Spelled joining (.number n :: .word w :: ts) (.literal :: ss)
  | mark {c : Char} {s : Symbol} {ts : List Token} {ss : List Symbol} (hs : markSymbol? c = some s)
      (h : Spelled joining ts ss) : Spelled joining (.other c :: ts) (s :: ss)

/-- What tokens spell without joins they spell where words may join literals. -/
theorem Spelled.joining {ts : List Token} {ss : List Symbol} (h : Spelled false ts ss) :
    Spelled true ts ss := by
  induction h with
  | nil => exact .nil
  | space _ ih => exact .space ih
  | literal n hnext _ ih => exact .literal n hnext ih
  | joined hjoining => exact absurd hjoining (by decide)
  | mark hs _ ih => exact .mark hs ih

/-- The lexeme of a mark is shown as its symbol. -/
theorem rowOf_markSymbol {c : Char} {s : Symbol} (hs : markSymbol? c = some s) :
    ∃ l : Lexeme, l.Shows s ∧ ∀ ts, rowOf (.other c :: ts) = l :: rowOf ts := by
  unfold markSymbol? at hs
  split at hs
  · exact ⟨.opening, Option.some.inj hs ▸ .opening, fun _ => rfl⟩
  · exact ⟨.closing, Option.some.inj hs ▸ .closing, fun _ => rfl⟩
  · exact ⟨.operation .add, Option.some.inj hs ▸ .plus, fun _ => rfl⟩
  · exact ⟨.operation .sub, Option.some.inj hs ▸ .minus, fun _ => rfl⟩
  · exact ⟨.operation .mul, Option.some.inj hs ▸ .mul, fun _ => rfl⟩
  · exact ⟨.operation .div, Option.some.inj hs ▸ .div, fun _ => rfl⟩
  · cases hs

theorem rowAfter_run {ts rest : List Token} (hts : ∀ t ∈ ts, t.isText = true)
    (hrest : ∀ t ∈ rest, t.IsArithmetic) (hnext : ∀ t ∈ rest.head?, t.isText = false) :
    ∀ cs, rowAfter cs (ts ++ rest) = .ofText (cs ++ ts.flatMap withPoint) :: rowOf rest := by
  induction ts with
  | nil => exact fun cs => by simpa using rowAfter_eq_cons hrest hnext cs
  | cons t ts ih =>
    intro cs
    rw [List.cons_append, rowAfter_text (hts t (by simp)), ih fun u hu => hts u (by simp [hu])]
    simp

/-- A run of text is one lexeme. -/
theorem rowOf_run {ts rest : List Token} (hne : ts ≠ []) (hts : ∀ t ∈ ts, t.isText = true)
    (hrest : ∀ t ∈ rest, t.IsArithmetic) (hnext : ∀ t ∈ rest.head?, t.isText = false) :
    rowOf (ts ++ rest) = .ofText (ts.flatMap withPoint) :: rowOf rest := by
  obtain ⟨t, ts, rfl⟩ := List.exists_cons_of_ne_nil hne
  rw [List.cons_append, rowOf_text (hts t (by simp)),
    rowAfter_run (fun u hu => hts u (by simp [hu])) hrest hnext]
  rfl

/-- The lexemes of tokens that spell symbols are shown as these. -/
theorem Spelled.shows {joining : Bool} {ts : List Token} {ss : List Symbol}
    (h : Spelled joining ts ss) (hts : ∀ t ∈ ts, t.IsArithmetic) : List.Forall₂ Lexeme.Shows (rowOf ts) ss := by
  induction h with
  | nil => exact .nil
  | space _ ih => exact ih fun t ht => hts t (by simp [ht])
  | @literal n ts ss hnext _ ih =>
    have hrest : ∀ t ∈ ts, t.IsArithmetic := fun t ht => hts t (by simp [ht])
    obtain ⟨x, hx⟩ := exists_ofText_withPoint_number n
    rw [rowOf_number n hrest hnext, hx]
    exact .cons (.literal x) (ih hrest)
  | @joined _ n w ts ss hjoins hnext _ ih =>
    have hrest : ∀ t ∈ ts, t.IsArithmetic := fun t ht => hts t (by simp [ht])
    obtain ⟨x, hx⟩ := exists_ofText_of_joins hjoins
    have hrow := @rowOf_run [.number n, .word w] ts (by simp) (by simp [Token.isText]) hrest hnext
    rw [List.flatMap_cons, List.flatMap_singleton, hx] at hrow
    exact hrow ▸ .cons (.literal x) (ih hrest)
  | mark hs _ ih =>
    obtain ⟨l, hl, hrow⟩ := rowOf_markSymbol hs
    rw [hrow]
    exact .cons hl (ih fun t ht => hts t (by simp [ht]))

theorem exists_markSymbol {c : Char} (hc : c ∈ "+-*/()".toList) : ∃ s, markSymbol? c = some s := by
  have hmarks : ∀ d ∈ "+-*/()".toList, (markSymbol? d).isSome = true :=
    forall_mem_of_all (by decide)
  exact Option.isSome_iff_exists.mp (hmarks c hc)

/-- A run of text spells a literal, or it is a name that is no function. -/
theorem run_cases {ts : List Token} (hts : ∀ t ∈ ts, t.IsPlain ∧ t.isText = true) (hne : ts ≠ []) :
    (∀ {rest : List Token} {ss : List Symbol}, (∀ t ∈ rest.head?, t.isText = false) →
        Spelled true rest ss → Spelled true (ts ++ rest) (.literal :: ss)) ∨
      ∃ name, Lexeme.ofText (ts.flatMap withPoint) = .identifier name ∧ function? name = none := by
  have hrun := isRun_flatMap hts hne
  cases hread : Number.readFloat (ts.flatMap withPoint) with
  | some x =>
    rcases number_or_joins_of_readFloat hts hne (by simp [hread]) with ⟨n, rfl⟩ | ⟨t, u, rfl, hjoins⟩
    · exact .inl fun hnext h => .literal n hnext h
    · obtain ⟨n, y, rfl, -, rfl, -⟩ := id hjoins
      exact .inl fun hnext h => .joined rfl hjoins hnext h
  | none =>
    refine .inr ⟨_, ?_, function?_of_isRun hrun⟩
    rw [Lexeme.ofText, ofText?_of_isRun hrun, hread]
    rfl

/-- The tokens spell symbols, where words may join literals, or a name that is no function is left
among their lexemes. -/
def SpelledOrNamed (ts : List Token) : Prop :=
  (∃ ss, Spelled true ts ss) ∨ ∃ name, .identifier name ∈ rowOf ts ∧ function? name = none

/-- A run of text in front of tokens. -/
theorem SpelledOrNamed.run_append {run rest : List Token} (h : SpelledOrNamed rest)
    (hrun : ∀ t ∈ run, t.IsPlain ∧ t.isText = true) (hne : run ≠ [])
    (hrest : ∀ t ∈ rest, t.IsPlain) (hnext : ∀ t ∈ rest.head?, t.isText = false) :
    SpelledOrNamed (run ++ rest) := by
  have hrow := rowOf_run hne (fun t ht => (hrun t ht).2) (fun t ht => (hrest t ht).isArithmetic)
    hnext
  rcases h with ⟨ss, hss⟩ | ⟨name, hname, hnone⟩
  · rcases run_cases hrun hne with hspells | ⟨name, hname, hnone⟩
    · exact .inl ⟨_, hspells hnext hss⟩
    · exact .inr ⟨name, by rw [hrow, hname]; exact List.mem_cons_self, hnone⟩
  · exact .inr ⟨name, by rw [hrow]; exact List.mem_cons_of_mem _ hname, hnone⟩

/-- A space or a mark in front of tokens. -/
theorem SpelledOrNamed.cons {t : Token} {ts : List Token} (h : SpelledOrNamed ts)
    (ht : t.IsArithmetic) (htext : t.isText = false) : SpelledOrNamed (t :: ts) := by
  rcases ht.cases with h' | rfl | ⟨c, hc, rfl⟩
  · rw [htext] at h'
    cases h'
  · exact h.imp (fun ⟨ss, hss⟩ => ⟨ss, .space hss⟩) id
  · rcases h with ⟨ss, hss⟩ | ⟨name, hname, hnone⟩
    · obtain ⟨s, hs⟩ := exists_markSymbol hc
      exact .inl ⟨s :: ss, .mark hs hss⟩
    · obtain ⟨l, hrow, -⟩ := rowOf_mark hc
      exact .inr ⟨name, by rw [hrow]; exact List.mem_cons_of_mem _ hname, hnone⟩

/-- Tokens spell symbols, or a name that is no function is left among their lexemes. -/
theorem spelledOrNamed : ∀ ts : List Token, (∀ t ∈ ts, t.IsPlain) → SpelledOrNamed ts
  | [], _ => .inl ⟨[], .nil⟩
  | t :: ts, hts => by
    obtain ⟨ht, hts⟩ := List.forall_mem_cons.mp hts
    cases htext : t.isText with
    | false => exact (spelledOrNamed ts hts).cons ht.isArithmetic htext
    | true =>
      -- The token begins a run of text, and the rest of the tokens comes behind that.
      have hsplit : t :: ts.takeWhile Token.isText ++ ts.dropWhile Token.isText = t :: ts := by
        rw [List.cons_append, List.takeWhile_append_dropWhile]
      have hlength : (ts.dropWhile Token.isText).length ≤ ts.length :=
        (List.dropWhile_sublist _).length_le
      have hrest : ∀ u ∈ ts.dropWhile Token.isText, u.IsPlain := fun u hu =>
        hts u ((List.dropWhile_sublist _).subset hu)
      have hrun : ∀ u ∈ t :: ts.takeWhile Token.isText, u.IsPlain ∧ u.isText = true :=
        List.forall_mem_cons.mpr ⟨⟨ht, htext⟩, fun u hu =>
          ⟨hts u ((List.takeWhile_sublist _).subset hu), List.mem_takeWhile_imp hu⟩⟩
      have hnext : ∀ u ∈ (ts.dropWhile Token.isText).head?, u.isText = false := by
        intro u hu
        have h := List.head?_dropWhile_not Token.isText ts
        rw [hu] at h
        simpa using h
      rw [← hsplit]
      exact (spelledOrNamed _ hrest).run_append hrun (by simp) hrest hnext
  termination_by ts => ts.length
  decreasing_by
    · simp
    · simp only [List.length_cons]
      omega

/-- Tokens that spell a phrase yield a number. -/
theorem Spelled.isNumber_iff {joining : Bool} {ts : List Token} {ss : List Symbol}
    (h : Spelled joining ts ss) (hts : ∀ t ∈ ts, t.IsArithmetic) :
    (∃ x, numberOf (rowOf ts) = .ok x) ↔ Phrase true .sum ss :=
  isNumber_iff_phrase (h.shows hts)

/-- Tokens that yield a number spell a phrase. -/
theorem exists_phrase_of_isNumber {ts : List Token} (hts : ∀ t ∈ ts, t.IsPlain)
    (h : ∃ x, numberOf (rowOf ts) = .ok x) : ∃ ss, Spelled true ts ss ∧ Phrase true .sum ss := by
  have harith : ∀ t ∈ ts, t.IsArithmetic := fun t ht => (hts t ht).isArithmetic
  rcases spelledOrNamed ts hts with ⟨ss, hss⟩ | ⟨name, hname, hnone⟩
  · exact ⟨ss, hss, (hss.isNumber_iff harith).mp h⟩
  · obtain ⟨x, hx⟩ := h
    obtain ⟨e, he⟩ := numberOf_of_name (isArithmetic_of_mem_rowOf harith) hname hnone
    rw [he] at hx
    cases hx

/-! ## Well-formed expressions -/

/-- The text writes the symbols: literals, with a digit behind their point if they have one, marks,
and spaces between them. -/
inductive Writes : List Char → List Symbol → Prop
  | nil : Writes [] []
  | space {cs : List Char} {ss : List Symbol} (h : Writes cs ss) : Writes (' ' :: cs) ss
  | literal {n : Numeral} (hn : n.IsLiteral) (hpoint : n.fraction ≠ some []) {cs : List Char}
      {ss : List Symbol} (h : Writes cs ss) : Writes (n.text ++ cs) (.literal :: ss)
  | mark {c : Char} {s : Symbol} (hs : markSymbol? c = some s) {cs : List Char} {ss : List Symbol}
      (h : Writes cs ss) : Writes (c :: cs) (s :: ss)

/-- The text is a well-formed arithmetic expression. -/
def WellFormed (cs : List Char) : Prop := ∃ ss, Writes cs ss ∧ Phrase false .sum ss

/-- Outside comments, the tokens spell a phrase of the evaluator's grammar.  The flag says whether a
word may join a literal. -/
def Accepted (joining : Bool) (ts : List Token) : Prop :=
  ∃ vs ss, visible false ts = some vs ∧ Spelled joining vs ss ∧ Phrase true .sum ss

theorem Accepted.joining {ts : List Token} (h : Accepted false ts) : Accepted true ts := by
  obtain ⟨vs, ss, hvisible, hspelled, hphrase⟩ := h
  exact ⟨vs, ss, hvisible, hspelled.joining, hphrase⟩

/-- The tokens hold no comment and no literal that ends with a point, and every `+`, `*`, `/` and
`)` stands behind an operand. -/
structure Ordinary (ts : List Token) : Prop where
  comments : visible false ts = some ts
  points : ∀ n, .number n ∈ ts → n.fraction ≠ some []
  operands : ∀ ss, Spelled false ts ss → Plain false ss

theorem markSymbol_cases {c : Char} {s : Symbol} (h : markSymbol? c = some s) :
    separates c = true ∧ c ≠ ' ' ∧ (c = '/' ∨ c = '*' → s = .times) := by
  unfold markSymbol? at h
  split at h <;> cases h <;> exact ⟨by decide, by decide, by decide⟩

/-- The symbols of tokens are determined. -/
theorem Spelled.unique {joining : Bool} {ts : List Token} {ss : List Symbol}
    (h : Spelled joining ts ss) : ∀ {ss' : List Symbol}, Spelled joining ts ss' → ss = ss' := by
  induction h with
  | nil =>
    rintro _ ⟨⟩
    rfl
  | space _ ih =>
    intro ss' h'
    cases h' with
    | space h' => exact ih h'
    | mark hs => exact absurd rfl (markSymbol_cases hs).2.1
  | literal n hnext _ ih =>
    intro ss' h'
    cases h' with
    | literal _ _ h' => exact congrArg _ (ih h')
    | @joined _ _ w => exact absurd (hnext (.word w) rfl) (by simp [Token.isText])
  | @joined _ n w ts ss _ _ _ ih =>
    intro ss' h'
    cases h' with
    | literal _ hnext => exact absurd (hnext (.word w) rfl) (by simp [Token.isText])
    | joined _ _ _ h' => exact congrArg _ (ih h')
  | mark hs _ ih =>
    intro ss' h'
    cases h' with
    | space => exact absurd rfl (markSymbol_cases hs).2.1
    | mark hs' h' => exact congrArg₂ _ (Option.some.inj (hs.symm.trans hs')) (ih h')

/-- Where no two signs `*` or `/` stand in a row there is no comment. -/
theorem Spelled.visible_eq {joining : Bool} {ts : List Token} {ss : List Symbol}
    (h : Spelled joining ts ss) : ∀ {held : Bool}, Plain held ss → visible false ts = some ts := by
  induction h with
  | nil => exact fun _ => rfl
  | space _ ih =>
    intro held hplain
    rw [visible_false_cons (by simp), ih hplain]
    rfl
  | literal n _ _ ih =>
    intro held hplain
    rw [visible_false_cons (by simp), ih hplain.2]
    rfl
  | joined _ _ _ _ ih =>
    intro held hplain
    rw [visible_false_cons (by simp), visible_false_cons (by simp), ih hplain.2]
    rfl
  | @mark c s ts ss hs h ih =>
    intro held hplain
    rw [visible_false_cons, ih hplain.2]
    · rfl
    · rintro ⟨⟩ d hd hhead
      obtain ⟨us, rfl⟩ := List.head?_eq_some_iff.mp hhead
      obtain rfl := (markSymbol_cases hs).2.2 (.inl rfl)
      cases h with
      | space => rcases hd with hd | hd <;> cases hd
      | mark hs' =>
        obtain rfl := (markSymbol_cases hs').2.2 hd
        exact absurd (hplain.2.1 rfl) (by decide)

/-- Behind an operand no literal begins. -/
theorem Writes.beginsApart {cs : List Char} {ss : List Symbol} (h : Writes cs ss)
    (halternates : Alternates true ss) : BeginsApart cs := by
  cases h with
  | nil => exact beginsApart_nil
  | space => exact (beginsApart_cons _ _).mpr (by decide)
  | literal => exact absurd (halternates.2.1 rfl) (by decide)
  | mark hs => exact (beginsApart_cons _ _).mpr (markSymbol_cases hs).1

theorem isText_of_beginsApart {cs : List Char} (h : BeginsApart cs) :
    ∀ t ∈ (tokens cs).head?, t.isText = false := by
  cases cs with
  | nil => simp
  | cons c cs =>
    have hc := (beginsApart_cons _ _).mp h
    rw [tokens_separator hc]
    rintro t ⟨⟩
    simp [Token.isText, isTextChar, isWordChar_of_separates hc, ne_point_of_separates hc]

/-- The tokens of a text that writes symbols spell them, if operands and operations alternate. -/
theorem Writes.spelled {cs : List Char} {ss : List Symbol} (h : Writes cs ss) :
    ∀ {held : Bool}, Alternates held ss → Spelled false (tokens cs) ss ∧
      ∀ n, .number n ∈ tokens cs → n.fraction ≠ some [] := by
  induction h with
  | nil => exact fun _ => by simpa using Spelled.nil
  | space _ ih =>
    intro held halternates
    obtain ⟨hspelled, hpoints⟩ := ih halternates
    rw [tokens_separator (by decide)]
    exact ⟨.space hspelled, by simpa using hpoints⟩
  | @literal n hn hpoint cs ss h ih =>
    intro held halternates
    have hafter := h.beginsApart halternates.2.2
    obtain ⟨hspelled, hpoints⟩ := ih halternates.2.2
    rw [tokens_number_append hn (endsLiteral_of_beginsApart n hafter)]
    refine ⟨.literal n (isText_of_beginsApart hafter) hspelled, fun m hm => ?_⟩
    rcases List.mem_cons.mp hm with hm | hm
    · obtain rfl := Token.number.inj hm
      exact hpoint
    · exact hpoints m hm
  | mark hs _ ih =>
    intro held halternates
    obtain ⟨hspelled, hpoints⟩ := ih halternates.2.2
    rw [tokens_separator (markSymbol_cases hs).1]
    exact ⟨.mark hs hspelled, by simpa using hpoints⟩

/-- The text of tokens that spell symbols writes them. -/
theorem Spelled.writes {ts : List Token} {ss : List Symbol} (h : Spelled false ts ss)
    (hts : ∀ t ∈ ts, t.IsCut) (hpoints : ∀ n, .number n ∈ ts → n.fraction ≠ some []) :
    Writes (ts.flatMap Token.text) ss := by
  induction h with
  | nil => exact .nil
  | space _ ih =>
    exact .space (ih (fun t ht => hts t (by simp [ht])) fun n hn => hpoints n (by simp [hn]))
  | literal n _ _ ih =>
    exact .literal (hts (.number n) (by simp)) (hpoints n (by simp))
      (ih (fun t ht => hts t (by simp [ht])) fun n hn => hpoints n (by simp [hn]))
  | joined hjoining => exact absurd hjoining (by decide)
  | mark hs _ ih =>
    exact .mark hs (ih (fun t ht => hts t (by simp [ht])) fun n hn => hpoints n (by simp [hn]))

/-- The well-formed expressions are those of the texts that the evaluator accepts that make no use
of what it accepts beyond them. -/
theorem wellFormed_iff (cs : List Char) :
    WellFormed cs ↔ Accepted false (tokens cs) ∧ Ordinary (tokens cs) := by
  constructor
  · rintro ⟨ss, hwrites, hphrase⟩
    obtain ⟨hspelled, hpoints⟩ := hwrites.spelled hphrase.alternates
    have hplain := hphrase.alternates.plain
    refine ⟨⟨_, ss, hspelled.visible_eq hplain, hspelled, hphrase.lenient⟩,
      hspelled.visible_eq hplain, hpoints, fun ss' h => ?_⟩
    obtain rfl := hspelled.unique h
    exact hplain
  · rintro ⟨⟨vs, ss, hvisible, hspelled, hphrase⟩, hordinary⟩
    obtain rfl : tokens cs = vs := Option.some.inj (hordinary.comments.symm.trans hvisible)
    have hwrites := hspelled.writes (fun t => isCut_of_mem_tokens) hordinary.points
    rw [tokens_text] at hwrites
    exact ⟨ss, hwrites, hphrase.strict (hordinary.operands ss hspelled)⟩

/-! ## Formulas -/

/-- The characters of arithmetic formulas without names: digits, points, the letters of exponents,
marks and spaces. -/
def isFormulaChar (c : Char) : Bool := isDigit c || ".eE+-*/() ".toList.contains c

/-- The formula has a value, though that may be no finite number. -/
def Evaluates (formula : String) : Prop :=
  (∃ x, evaluate formula = .ok x) ∨ evaluate formula = .error (.notFinite formula)

theorem isArithmeticChar_of_isFormulaChar {c : Char} (h : isFormulaChar c = true) :
    isArithmeticChar c = true := by
  have hmarks : ∀ d ∈ ".eE+-*/() ".toList, isArithmeticChar d = true :=
    forall_mem_of_all (by decide)
  rw [isFormulaChar, Bool.or_eq_true] at h
  rcases h with h | h
  · exact isArithmeticChar_of_isTextChar (isTextChar_of_isDigit h)
  · exact hmarks c (by simpa using h)

theorem isPlain_of_mem_tokens {cs : List Char} (h : ∀ c ∈ cs, isFormulaChar c = true) {t : Token}
    (ht : t ∈ tokens cs) : t.IsPlain where
  isArithmetic :=
    isArithmetic_of_mem_tokens (fun c hc => isArithmeticChar_of_isFormulaChar (h c hc)) t ht
  letters := by
    rintro w rfl c hc
    have hletters : ∀ d ∈ ".eE+-*/() ".toList, isWordChar d = true → d = 'e' ∨ d = 'E' :=
      forall_mem_of_all (by decide)
    have hword : isWordChar c = true := (isCut_of_mem_tokens ht).2.1 c hc
    have hmem : c ∈ cs := by
      rw [← tokens_text cs]
      exact List.mem_flatMap.mpr ⟨_, ht, hc⟩
    have hc := h c hmem
    rw [isFormulaChar, Bool.or_eq_true] at hc
    exact hc.imp id fun hc => hletters c (by simpa using hc) hword
  noLiteral := by
    rintro w rfl n hn rfl
    obtain ⟨after, hopens⟩ := exists_opens_of_mem_tokens ht
    exact absurd (hopens.2.2 n hn (List.prefix_append _ _)) (Nat.lt_irrefl _)

/-- A formula evaluates, or it is invalid. -/
theorem evaluate_cases (formula : String) :
    (Evaluates formula ∧ ∃ x, evaluateNumber (fractional formula) = .ok x) ∨
      ¬ Evaluates formula ∧ ∃ cause, evaluateNumber (fractional formula) = .error cause ∧
        evaluate formula = .error (.invalid formula cause) := by
  unfold Evaluates evaluate
  cases evaluateNumber (fractional formula) with
  | error e => exact .inr ⟨by simp, e, rfl, rfl⟩
  | ok x =>
    refine .inl ⟨?_, x, rfl⟩
    by_cases hx : x.isFinite = true
    · exact .inl ⟨x, if_pos hx⟩
    · exact .inr (if_neg hx)

theorem evaluates_iff (formula : String) :
    Evaluates formula ↔ ∃ x, evaluateNumber (fractional formula) = .ok x := by
  rcases evaluate_cases formula with ⟨h, hx⟩ | ⟨h, e, he, -⟩
  · exact iff_of_true h hx
  · exact iff_of_false h (by simp [he])

theorem not_evaluates_iff (formula : String) :
    ¬ Evaluates formula ↔ ∃ cause, evaluate formula = .error (.invalid formula cause) := by
  rcases evaluate_cases formula with ⟨h, hx⟩ | ⟨h, e, -, he⟩
  · refine iff_of_false (not_not.mpr h) ?_
    rintro ⟨e, he⟩
    rcases h with ⟨x, hx⟩ | hx <;> rw [he] at hx <;> cases hx
  · exact iff_of_true h ⟨e, he⟩

/-- A formula evaluates if its tokens outside comments yield a number. -/
theorem evaluates_iff_visible {formula : String}
    (h : ∀ c ∈ formula.toList, isFormulaChar c = true) :
    Evaluates formula ↔ ∃ vs, visible false (tokens formula.toList) = some vs ∧
      ∃ x, numberOf (rowOf vs) = .ok x := by
  rw [evaluates_iff,
    evaluateNumber_fractional fun c hc => isArithmeticChar_of_isFormulaChar (h c hc)]
  cases visible false (tokens formula.toList) <;> simp

/-- A formula evaluates exactly if its tokens outside comments spell a phrase, where words may join
literals. -/
theorem evaluates_iff_accepted {formula : String}
    (h : ∀ c ∈ formula.toList, isFormulaChar c = true) :
    Evaluates formula ↔ Accepted true (tokens formula.toList) := by
  have hplain : ∀ {vs}, visible false (tokens formula.toList) = some vs → ∀ t ∈ vs, t.IsPlain :=
    fun hvisible t ht => isPlain_of_mem_tokens h (mem_of_mem_visible hvisible ht)
  rw [evaluates_iff_visible h]
  constructor
  · rintro ⟨vs, hvisible, hnumber⟩
    obtain ⟨ss, hspelled, hphrase⟩ := exists_phrase_of_isNumber (hplain hvisible) hnumber
    exact ⟨vs, ss, hvisible, hspelled, hphrase⟩
  · rintro ⟨vs, ss, hvisible, hspelled, hphrase⟩
    have harith : ∀ t ∈ vs, t.IsArithmetic := fun t ht => (hplain hvisible t ht).isArithmetic
    exact ⟨vs, hvisible, (hspelled.isNumber_iff harith).mpr hphrase⟩

/-- What the evaluator accepts: the formulas whose tokens, outside comments, spell a phrase of its
grammar.  These are the well-formed expressions, and those that make use of what the evaluator
allows beyond them.  Only where a word may join a literal can another formula evaluate. -/
theorem evaluate_grammar {formula : String} (h : ∀ c ∈ formula.toList, isFormulaChar c = true) :
    ∃ ts, (∀ us, Cut formula.toList us ↔ us = ts) ∧
      (Accepted false ts → Evaluates formula) ∧
      (Evaluates formula → Accepted true ts) ∧
      (¬ Evaluates formula ↔ ∃ cause, evaluate formula = .error (.invalid formula cause)) ∧
      (WellFormed formula.toList ↔ Accepted false ts ∧ Ordinary ts) :=
  ⟨tokens formula.toList, fun _ => cut_iff,
    fun haccepted => (evaluates_iff_accepted h).mpr haccepted.joining,
    (evaluates_iff_accepted h).mp, not_evaluates_iff formula, wellFormed_iff _⟩

/-- A product with a group is a well-formed expression and evaluates; two literals in a row are
refused. -/
theorem evaluate_grammar_product :
    (WellFormed "-2e1 * (.5)".toList ∧ Evaluates "-2e1 * (.5)") ∧
      ∃ cause, evaluate "2 3" = .error (.invalid "2 3" cause) := by
  constructor
  · obtain ⟨ts, hcut, hevaluates, -, -, hwellFormed⟩ :=
      @evaluate_grammar "-2e1 * (.5)" (forall_mem_of_all (by decide +kernel))
    obtain rfl : [.other '-', .number ⟨['2'], none, some ⟨'e', none, ['1']⟩⟩, .other ' ',
        .other '*', .other ' ', .other '(', .number ⟨[], some ['5'], none⟩, .other ')'] = ts :=
      (hcut _).mp (cut_iff.mpr (by decide +kernel))
    have hspelled : Spelled false _ _ := .mark (c := '-') rfl <|
      .literal ⟨['2'], none, some ⟨'e', none, ['1']⟩⟩ (by decide) <| .space <|
      .mark (c := '*') rfl <| .space <| .mark (c := '(') rfl <|
      .literal ⟨[], some ['5'], none⟩ (by decide) <| .mark (c := ')') rfl .nil
    have hplain : Plain false [.minus, .literal, .times, .opening, .literal, .closing] := by decide
    have hvisible := hspelled.visible_eq hplain
    have haccepted : Accepted false _ :=
      ⟨_, _, hvisible, hspelled, phrase_iff_advance.mpr ⟨.group, rfl⟩⟩
    refine ⟨hwellFormed.mpr ⟨haccepted, hvisible, by simp, fun ss h => ?_⟩, hevaluates haccepted⟩
    rw [← hspelled.unique h]
    exact hplain
  · obtain ⟨ts, hcut, -, haccepted, hinvalid, -⟩ :=
      @evaluate_grammar "2 3" (forall_mem_of_all (by decide +kernel))
    obtain rfl : [.number ⟨['2'], none, none⟩, .other ' ', .number ⟨['3'], none, none⟩] = ts :=
      (hcut _).mp (cut_iff.mpr (by decide +kernel))
    refine hinvalid.mp fun hevaluates => ?_
    obtain ⟨vs, ss, ⟨⟩, hspelled, hphrase⟩ := haccepted hevaluates
    have hsymbols : [.literal, .literal] = ss :=
      Spelled.unique (.literal _ (by decide) <| .space <| .literal _ (by decide) .nil) hspelled
    rw [← hsymbols, phrase_iff_advance] at hphrase
    exact hphrase.elim nofun

/-- What stands behind two slashes is a comment to the evaluator, so it accepts formulas that are no
well-formed expressions. -/
theorem not_invalid_of_not_wellFormed :
    ¬ ∀ formula : String, (∀ c ∈ formula.toList, isFormulaChar c = true) →
      ¬ WellFormed formula.toList →
        ∃ cause, evaluate formula = .error (.invalid formula cause) := by
  intro h
  have hchars : ∀ c ∈ "2 // 1".toList, isFormulaChar c = true :=
    forall_mem_of_all (by decide +kernel)
  have htokens : tokens "2 // 1".toList = [.number ⟨['2'], none, none⟩, .other ' ', .other '/',
      .other '/', .other ' ', .number ⟨['1'], none, none⟩] := by decide +kernel
  have haccepted : Accepted true (tokens "2 // 1".toList) := by
    rw [htokens]
    exact ⟨_, _, rfl, .literal _ (by decide) (.space .nil), .ofProduct (.ofOperand .literal)⟩
  have hill : ¬ WellFormed "2 // 1".toList := fun hwell => by
    have hcomments := ((wellFormed_iff _).mp hwell).2.comments
    rw [htokens] at hcomments
    exact absurd (congrArg (Option.map List.length) hcomments) (by decide)
  exact (not_evaluates_iff _).mpr (h _ hchars hill) ((evaluates_iff_accepted hchars).mpr haccepted)

end Scorecard.Formula
