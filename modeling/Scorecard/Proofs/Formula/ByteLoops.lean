import Mathlib.Logic.Relation
import Scorecard.Proofs.Formula.ByteTokens
import Scorecard.Proofs.Formula.Numeric

/-!
# The loops over the bytes of a formula

The search for words and the rewriting of literals go through a formula by offsets.

* `Stands` is what holds at every offset that they come to: some tokens lie behind it, and what is
  left is cut into tokens apart from them.  Behind a character that is not ASCII the offset lags for
  some turns, in which nothing is found.  `Stands.step` is one turn.
* `WordSearch.Inv` and `Rewriting.Inv` add what the loops have gathered, and every turn keeps them
  (`WordSearch.Inv.step`, `Rewriting.Inv.step`).
* So both loops come to their ends, through the same offsets, and never ask for a byte or a slice
  that is not there (`scans_bytes`).
-/

namespace Scorecard.Formula

open Text
open Number (Numeral isDigit)

/-! ## Loops -/

section

variable {σ τ : Type}

/-- One turn of a loop that runs while its offset is below a bound. -/
def Turns (turn : σ → Option σ) (offset : σ → Nat) (bound : Nat) (l l' : σ) : Prop :=
  offset l < bound ∧ turn l = some l'

/-- The states that a loop comes to. -/
def Reaches (turn : σ → Option σ) (offset : σ → Nat) (bound : Nat) : σ → σ → Prop :=
  Relation.ReflTransGen (Turns turn offset bound)

/-- As long as the loop runs, every turn succeeds, keeps a property of the states, and moves the
offset on to the next one. -/
def Advances (turn : σ → Option σ) (offset : σ → Nat) (bound : Nat) (next : Nat → Option Nat)
    (p : σ → Prop) : Prop :=
  ∀ l, p l → offset l < bound → ∃ l', turn l = some l' ∧ p l' ∧
    next (offset l) = some (offset l') ∧ offset l < offset l'

variable {turn : σ → Option σ} {offset : σ → Nat} {bound : Nat} {next : Nat → Option Nat}
  {p : σ → Prop} {l₀ l : σ}

/-- What every turn keeps holds of every state that the loop comes to. -/
theorem Reaches.keeps (h : Reaches turn offset bound l₀ l)
    (hturn : Advances turn offset bound next p) (hstart : p l₀) : p l := by
  induction h with
  | refl => exact hstart
  | tail _ hlast ih =>
    obtain ⟨l', hl', hp, -⟩ := hturn _ ih hlast.1
    rw [hlast.2] at hl'
    rwa [Option.some.inj hl']

/-- A loop that advances comes to its end. -/
theorem Advances.exists_end (hturn : Advances turn offset bound next p) (l₀ : σ) (hstart : p l₀) :
    ∃ l, Reaches turn offset bound l₀ l ∧ p l ∧ bound ≤ offset l := by
  by_cases hgoing : offset l₀ < bound
  · obtain ⟨l', hl', hp, -, hlt⟩ := hturn l₀ hstart hgoing
    obtain ⟨l, hreaches, hend⟩ := exists_end hturn l' hp
    exact ⟨l, Relation.ReflTransGen.head ⟨hgoing, hl'⟩ hreaches, hend⟩
  · exact ⟨l₀, Relation.ReflTransGen.refl, hstart, Nat.le_of_not_lt hgoing⟩
termination_by bound - offset l₀

/-- A loop comes to every offset that another one comes to which moves in the same way. -/
theorem Reaches.follows {turn' : τ → Option τ} {offset' : τ → Nat} {p' : τ → Prop} {m₀ : τ}
    (h : Reaches turn offset bound l₀ l) (hturn : Advances turn offset bound next p)
    (hturn' : Advances turn' offset' bound next p') (hstart : p l₀) (hstart' : p' m₀)
    (hsame : offset' m₀ = offset l₀) :
    ∃ m, Reaches turn' offset' bound m₀ m ∧ offset' m = offset l := by
  suffices hpair : p l ∧ ∃ m, Reaches turn' offset' bound m₀ m ∧ p' m ∧ offset' m = offset l by
    obtain ⟨-, m, hreaches, -, heq⟩ := hpair
    exact ⟨m, hreaches, heq⟩
  induction h with
  | refl => exact ⟨hstart, m₀, .refl, hstart', hsame⟩
  | @tail l l' _ hlast ih =>
    obtain ⟨hp, m, hreaches, hp', heq⟩ := ih
    have hgoing : offset' m < bound := by
      rw [heq]
      exact hlast.1
    obtain ⟨l'', hl'', hp'', hnext, -⟩ := hturn l hp hlast.1
    obtain ⟨m', hm', hq, hnext', -⟩ := hturn' m hp' hgoing
    rw [hlast.2] at hl''
    obtain rfl := Option.some.inj hl''
    rw [heq, hnext] at hnext'
    exact ⟨hp'', m', .tail hreaches ⟨hgoing, hm'⟩, hq, (Option.some.inj hnext').symm⟩

end

/-! ## Offsets -/

/-- The offset that a loop goes to from where something was found. -/
def Found.after (start : Nat) : Found → Nat
  | .number stop => stop
  | .word stop => stop
  | .other => start + 1

/-- The text of some tokens. -/
def texts (ts : List Token) : List Char := ts.flatMap Token.text

theorem texts_append_singleton (ts : List Token) (t : Token) :
    texts (ts ++ [t]) = texts ts ++ t.text := by
  simp [texts]

/-- An offset into a formula, behind some tokens.  It may lag behind a last character that is not
ASCII. -/
structure Stands (cs : List Char) (ts : List Token) (rest : List Char) (i : Nat) : Prop where
  tokens : tokens cs = ts ++ Formula.tokens rest
  text : texts ts ++ rest = cs
  le : i ≤ (utf8 (texts ts)).length
  high : ∀ j, i ≤ j → j < (utf8 (texts ts)).length → ∀ b ∈ (utf8 cs)[j]?, 128 ≤ b.toNat

variable {cs rest : List Char} {ts : List Token} {i : Nat}

theorem stands_zero (cs : List Char) : Stands cs [] cs 0 where
  tokens := rfl
  text := rfl
  le := Nat.zero_le _
  high _ _ hj := absurd hj (Nat.not_lt_zero _)

theorem Stands.le_length (h : Stands cs ts rest i) : i ≤ (utf8 cs).length := by
  have hle := h.le
  rw [← h.text, utf8_append, List.length_append]
  omega

/-- At the end of the formula all its tokens lie behind the offset. -/
theorem Stands.eq_tokens (h : Stands cs ts rest i) (hend : (utf8 cs).length ≤ i) :
    ts = Formula.tokens cs ∧ texts ts = cs ∧ i = (utf8 cs).length := by
  have hle := h.le
  have hlength := congrArg (fun cs => (utf8 cs).length) h.text
  simp only [utf8_append, List.length_append] at hlength
  have hrest : rest = [] := by
    rw [← utf8_eq_nil_iff, ← List.length_eq_zero_iff]
    omega
  have htokens := h.tokens
  have htext := h.text
  rw [hrest, tokens_nil, List.append_nil] at htokens
  rw [hrest, List.append_nil] at htext
  exact ⟨htokens.symm, htext, Nat.le_antisymm h.le_length hend⟩

/-- A lagging offset moves on by one byte. -/
theorem Stands.step_within (h : Stands cs ts rest i) (hlag : i < (utf8 (texts ts)).length) :
    literalAt (utf8 cs) i = some .other ∧ Stands cs ts rest (i + 1) := by
  have hi : i < (utf8 cs).length := by
    rw [← h.text, utf8_append, List.length_append]
    omega
  have hb := List.getElem?_eq_getElem hi
  refine ⟨literalAt_of_le hb (h.high i (Nat.le_refl i) hlag _ hb), h.tokens, h.text, hlag, ?_⟩
  intro j hj
  exact h.high j (by omega)

/-- Behind the first byte of a character there are only bytes that are not ASCII. -/
theorem le_of_mem_within {done after : List Char} {c : Char} {j : Nat} {b : UInt8}
    (hlt : (utf8 done).length < j) (hle : j < (utf8 done).length + c.utf8Size)
    (hb : b ∈ (utf8 (done ++ c :: after))[j]?) : 128 ≤ b.toNat := by
  have hlength := String.length_utf8EncodeChar c
  rw [utf8_append, utf8_cons, List.getElem?_append_right (Nat.le_of_lt hlt),
    List.getElem?_append_left (by omega)] at hb
  rcases Nat.lt_or_ge c.toNat 128 with hascii | hwide
  · rw [utf8EncodeChar_of_ascii hascii, List.length_singleton] at hlength
    omega
  · exact le_of_mem_utf8EncodeChar hwide (List.mem_of_getElem? hb)

/-- The offset behind a token that has been found at a cut. -/
theorem stands_after {t : Token} {after : List Char}
    (htokens : Formula.tokens cs = ts ++ t :: Formula.tokens after)
    (htext : texts ts ++ (t.text ++ after) = cs) :
    Stands cs (ts ++ [t]) after ((t.found (utf8 (texts ts)).length).after
      (utf8 (texts ts)).length) := by
  have htokens' : Formula.tokens cs = (ts ++ [t]) ++ Formula.tokens after := by
    rw [htokens, List.append_assoc, List.singleton_append]
  have htext' : texts (ts ++ [t]) ++ after = cs := by
    rw [texts_append_singleton, List.append_assoc, htext]
  have hlength : (utf8 (texts (ts ++ [t]))).length =
      (utf8 (texts ts)).length + (utf8 t.text).length := by
    rw [texts_append_singleton, utf8_append, List.length_append]
  refine ⟨htokens', htext', ?_, ?_⟩
  · rw [hlength]
    cases t with
    | number n => exact Nat.le_refl _
    | word w => exact Nat.le_refl _
    | other c =>
      have hsize : (utf8 (Token.other c).text).length = c.utf8Size := length_utf8_cons c []
      have hpos := c.utf8Size_pos
      rw [hsize]
      exact Nat.add_le_add_left hpos _
  · rw [hlength]
    intro j hle hlt b hb
    cases t with
    | number n => exact absurd hlt (Nat.not_lt.mpr hle)
    | word w => exact absurd hlt (Nat.not_lt.mpr hle)
    | other c =>
      have hsize : (utf8 (Token.other c).text).length = c.utf8Size := length_utf8_cons c []
      rw [hsize] at hlt
      rw [← htext] at hb
      exact le_of_mem_within hle hlt hb

/-- One turn from an offset: nothing is found at a lagging offset, and the next token at a cut. -/
theorem Stands.step (h : Stands cs ts rest i) (hi : i < (utf8 cs).length) :
    (literalAt (utf8 cs) i = some .other ∧ Stands cs ts rest (i + 1)) ∨
    ∃ t after, t.Opens after ∧ i = (utf8 (texts ts)).length ∧
      texts ts ++ (t.text ++ after) = cs ∧ literalAt (utf8 cs) i = some (t.found i) ∧
      Stands cs (ts ++ [t]) after ((t.found i).after i) := by
  rcases Nat.lt_or_eq_of_le h.le with hlag | rfl
  · exact .inl (h.step_within hlag)
  · right
    cases rest with
    | nil =>
      have htext := h.text
      rw [List.append_nil] at htext
      rw [htext] at hi
      exact absurd hi (Nat.lt_irrefl _)
    | cons c rest =>
      have htokens := h.tokens
      have htext := h.text
      rw [tokens_cons] at htokens
      rw [← next_text c rest] at htext
      exact ⟨(next c rest).1, (next c rest).2, next_opens c rest, rfl, htext,
        literalAt_utf8 h.text, stands_after htokens htext⟩

/-! ## What is found -/

/-- Two offsets that stand in order at cuts of a string. -/
structure IsSpan (s : String) (start stop : Nat) : Prop where
  lt : start < stop
  le : stop ≤ s.utf8ByteSize
  start_isValid : (⟨start⟩ : String.Pos.Raw).IsValid s
  stop_isValid : (⟨stop⟩ : String.Pos.Raw).IsValid s

/-- What is found at an offset is what it should be.  A number can be read.  A word is a run of word
characters that cannot be carried on, and it is no literal. -/
def Found.IsSound (s : String) (start : Nat) : Found → Prop
  | .number stop => IsSpan s start stop ∧
      ∃ text, slice? start stop s.toList = some text ∧ (Number.readFloat text).isSome = true
  | .word stop => IsSpan s start stop ∧
      (∀ i, start ≤ i → i < stop → byteAt isWordByte (utf8 s.toList) i = true) ∧
      byteAt isWordByte (utf8 s.toList) stop = false ∧
      ∃ text, slice? start stop s.toList = some text ∧ ∀ n : Numeral, n.IsLiteral → n.text ≠ text
  | .other => True

theorem Found.IsSound.lt_after {s : String} {start : Nat} {found : Found}
    (h : found.IsSound s start) : start < found.after start := by
  cases found with
  | number stop => exact h.1.lt
  | word stop => exact h.1.lt
  | other => exact Nat.lt_succ_self start

section

variable {s : String} {done middle after : List Char}

theorem isSpan_utf8 (hs : done ++ (middle ++ after) = s.toList) (hne : middle ≠ []) :
    IsSpan s (utf8 done).length ((utf8 done).length + (utf8 middle).length) where
  lt := by
    have hpos : (utf8 middle).length ≠ 0 := by
      rw [Ne, List.length_eq_zero_iff, utf8_eq_nil_iff]
      exact hne
    omega
  le := by
    rw [← length_utf8_toList, ← hs, utf8_append, utf8_append, List.length_append,
      List.length_append]
    omega
  start_isValid := isValid_iff.mpr ⟨done, middle ++ after, hs.symm, rfl⟩
  stop_isValid := by
    refine isValid_iff.mpr ⟨done ++ middle, after, ?_, ?_⟩
    · rw [← hs, List.append_assoc]
    · rw [utf8_append, List.length_append]

theorem slice?_utf8 (hcs : done ++ (middle ++ after) = cs) :
    slice? (utf8 done).length ((utf8 done).length + (utf8 middle).length) cs = some middle := by
  have hslice := slice?_append done middle after
  rwa [utf8_append, List.length_append, List.append_assoc, hcs] at hslice

/-- Every byte of a run of word characters passes the test. -/
theorem byteAt_of_run (hs : done ++ (middle ++ after) = cs)
    (hrun : ∀ c ∈ middle, isWordChar c = true) {i : Nat} (hle : (utf8 done).length ≤ i)
    (hlt : i < (utf8 done).length + (utf8 middle).length) :
    byteAt isWordByte (utf8 cs) i = true := by
  induction middle generalizing done with
  | nil => exact absurd hlt (Nat.not_lt.mpr hle)
  | cons c middle ih =>
    have hc : isWordChar c = true := hrun c List.mem_cons_self
    rcases Nat.eq_or_lt_of_le hle with rfl | hbehind
    · rw [byteAt_utf8 mirrors_word hs]
      exact hc
    · have hone : (utf8 (done ++ [c])).length = (utf8 done).length + 1 :=
        length_utf8_concat mirrors_word hc
      rw [length_utf8_cons, mirrors_word.utf8Size_eq_one hc] at hlt
      refine ih ((List.append_assoc done [c] _).trans hs)
        (fun d hd => hrun d (List.mem_cons_of_mem c hd)) ?_ ?_
      · rw [hone]
        exact hbehind
      · rw [hone]
        omega

/-- The token at a cut is what it should be. -/
theorem Token.Opens.isSound {t : Token} (ht : t.Opens after)
    (hs : done ++ (t.text ++ after) = s.toList) :
    (t.found (utf8 done).length).IsSound s (utf8 done).length := by
  have hspan := isSpan_utf8 hs ht.text_ne_nil
  have hslice := slice?_utf8 hs
  cases t with
  | number n => exact ⟨hspan, n.text, hslice, by rw [readFloat_text ht.1]; rfl⟩
  | word w =>
    obtain ⟨-, hrun, hlonger⟩ := ht
    have hword : ∀ c ∈ w, isWordChar c = true := by
      intro c hc
      rw [← hrun] at hc
      exact mem_takeWhile_isWordChar hc
    refine ⟨hspan, fun i hle hlt => byteAt_of_run hs hword hle hlt, ?_, w, hslice, ?_⟩
    · have hstop := byteAt_utf8 mirrors_word ((List.append_assoc done w after).trans hs)
      rw [utf8_append, List.length_append] at hstop
      have hnone : after.takeWhile isWordChar = [] := by
        rwa [List.takeWhile_append_of_pos hword, List.append_right_eq_self] at hrun
      rw [hstop, ← Bool.not_eq_true, ← takeWhile_ne_nil_iff, not_not]
      exact hnone
    · intro n hn htext
      have hlt := hlonger n hn (by rw [htext]; exact List.prefix_append w after)
      rw [htext] at hlt
      exact absurd hlt (Nat.lt_irrefl _)
  | other c => trivial

end

/-- What one turn of a loop finds where the loop stands, and where it goes. -/
theorem Stands.step_isSound {s : String} (h : Stands s.toList ts rest i)
    (hi : i < (utf8 s.toList).length) : ∃ found, literalAt (utf8 s.toList) i = some found ∧
      found.IsSound s i ∧ ∃ ts' rest', Stands s.toList ts' rest' (found.after i) := by
  rcases h.step hi with ⟨hfound, hstands⟩ | ⟨t, after, ht, rfl, htext, hfound, hstands⟩
  · exact ⟨.other, hfound, trivial, ts, rest, hstands⟩
  · exact ⟨_, hfound, ht.isSound htext, _, after, hstands⟩

/-! ## The search for words -/

/-- Where the words among some tokens begin and end, if the first token begins at `start`. -/
def wordSpans (start : Nat) : List Token → List (Nat × Nat)
  | [] => []
  | .word w :: ts =>
      (start, start + (utf8 w).length) :: wordSpans (start + (utf8 w).length) ts
  | t :: ts => wordSpans (start + (utf8 t.text).length) ts

theorem wordSpans_append_singleton (start : Nat) (ts : List Token) (t : Token) :
    wordSpans start (ts ++ [t]) =
      wordSpans start ts ++ wordSpans (start + (utf8 (texts ts)).length) [t] := by
  induction ts generalizing start with
  | nil => rfl
  | cons u ts ih =>
    have htexts : start + (utf8 (texts (u :: ts))).length =
        start + (utf8 u.text).length + (utf8 (texts ts)).length := by
      simp [texts]
      omega
    cases u <;> simp [wordSpans, ih, htexts, Token.text]

/-- What the search has gathered: the spans of the words that lie behind it. -/
def WordSearch.Inv (cs : List Char) (l : WordSearch) : Prop :=
  ∃ ts rest, Stands cs ts rest l.offset ∧ l.spans = wordSpans 0 ts

/-- The span of what is found, if it is a word. -/
def Found.spans (start : Nat) : Found → List (Nat × Nat)
  | .word stop => [(start, stop)]
  | _ => []

theorem Token.spans_found (t : Token) (start : Nat) :
    (t.found start).spans start = wordSpans start [t] := by
  cases t <;> rfl

theorem WordSearch.turn_eq {l : WordSearch} {found : Found}
    (h : literalAt (utf8 cs) l.offset = some found) :
    l.turn cs = some ⟨found.after l.offset, l.spans ++ found.spans l.offset⟩ := by
  unfold WordSearch.turn
  rw [h]
  cases found <;> simp [Found.after, Found.spans]

theorem WordSearch.Inv.step {l : WordSearch} (h : l.Inv cs) (hi : l.offset < (utf8 cs).length) :
    ∃ l', l.turn cs = some l' ∧ l'.Inv cs := by
  obtain ⟨ts, rest, hstands, hspans⟩ := h
  rcases hstands.step hi with ⟨hfound, hnext⟩ | ⟨t, after, -, hoffset, -, hfound, hnext⟩
  · refine ⟨_, turn_eq hfound, ts, rest, hnext, ?_⟩
    rw [hspans]
    exact List.append_nil _
  · refine ⟨_, turn_eq hfound, ts ++ [t], after, hnext, ?_⟩
    rw [wordSpans_append_singleton, Nat.zero_add, ← hoffset, ← hspans, Token.spans_found]

/-! ## The rewriting of literals -/

/-- What the rewriting has gathered.  Of the text behind it, some is kept between the last literal
and the offset; together with this, what has been written is what the tokens become. -/
def Rewriting.Inv (cs : List Char) (l : Rewriting) : Prop :=
  ∃ ts rest kept between, Stands cs ts rest l.offset ∧ kept ++ between = texts ts ∧
    l.last = (utf8 kept).length ∧ l.written ++ between = ts.flatMap withPoint

theorem Rewriting.turn_of_number {l : Rewriting} {stop : Nat} {text between : List Char} {x : Float}
    (hfound : literalAt (utf8 cs) l.offset = some (.number stop))
    (htext : slice? l.offset stop cs = some text) (hx : Number.readFloat text = some x)
    (hbetween : slice? l.last l.offset cs = some between) :
    l.turn cs = some ⟨stop, stop, l.written ++ between ++ literalStyle.text x⟩ := by
  simp [turn, hfound, htext, hx, hbetween]

theorem Rewriting.turn_of_ne_number {l : Rewriting} {found : Found}
    (hfound : literalAt (utf8 cs) l.offset = some found) (h : ∀ stop, found ≠ .number stop) :
    l.turn cs = some ⟨found.after l.offset, l.last, l.written⟩ := by
  unfold turn
  rw [hfound]
  cases found with
  | number stop => exact absurd rfl (h stop)
  | word stop => rfl
  | other => rfl

theorem withPoint_of_ne_number {t : Token} (h : ∀ n, t ≠ .number n) : withPoint t = t.text := by
  cases t with
  | number n => exact absurd rfl (h n)
  | word w => rfl
  | other c => rfl

theorem Token.found_ne_number {t : Token} (h : ∀ n, t ≠ .number n) (start stop : Nat) :
    t.found start ≠ .number stop := by
  cases t with
  | number n => exact absurd rfl (h n)
  | word w => exact Found.noConfusion
  | other c => exact Found.noConfusion

/-- A turn behind which a literal lies. -/
theorem Rewriting.Inv.step_number {l : Rewriting} {kept between after : List Char} {n : Numeral}
    (hn : n.IsLiteral) (htexts : kept ++ between = texts ts) (hlast : l.last = (utf8 kept).length)
    (hwritten : l.written ++ between = ts.flatMap withPoint)
    (hoffset : l.offset = (utf8 (texts ts)).length) (htext : texts ts ++ (n.text ++ after) = cs)
    (hfound : literalAt (utf8 cs) l.offset = some ((Token.number n).found l.offset))
    (hnext : Stands cs (ts ++ [.number n]) after
      (((Token.number n).found l.offset).after l.offset)) :
    ∃ l', l.turn cs = some l' ∧ l'.Inv cs ∧
      l'.offset = ((Token.number n).found l.offset).after l.offset ∧ l'.last = l'.offset := by
  have hslice := slice?_utf8 htext
  have hbetween : slice? l.last l.offset cs = some between := by
    rw [← htexts, List.append_assoc] at htext
    have hslice' := slice?_utf8 htext
    rwa [← List.length_append, ← utf8_append, htexts, ← hoffset, ← hlast] at hslice'
  rw [← hoffset] at hslice
  refine ⟨_, turn_of_number hfound hslice (readFloat_text hn) hbetween, ?_, rfl, rfl⟩
  refine ⟨ts ++ [.number n], after, texts (ts ++ [.number n]), [], hnext, List.append_nil _, ?_, ?_⟩
  · rw [texts_append_singleton, utf8_append, List.length_append, ← hoffset]
    rfl
  · rw [List.append_nil, hwritten, List.flatMap_append, List.flatMap_singleton]
    rfl

/-- Every turn of the rewriting succeeds, and no literal is passed over. -/
theorem Rewriting.Inv.step {l : Rewriting} (h : l.Inv cs) (hi : l.offset < (utf8 cs).length) :
    ∃ found l', literalAt (utf8 cs) l.offset = some found ∧ l.turn cs = some l' ∧ l'.Inv cs ∧
      l'.offset = found.after l.offset ∧ ∀ stop, found = .number stop → l'.last = stop := by
  obtain ⟨ts, rest, kept, between, hstands, htexts, hlast, hwritten⟩ := h
  rcases hstands.step hi with ⟨hfound, hnext⟩ | ⟨t, after, ht, hoffset, htext, hfound, hnext⟩
  · refine ⟨.other, _, hfound, turn_of_ne_number hfound (by simp), ?_, rfl, by simp⟩
    exact ⟨ts, rest, kept, between, hnext, htexts, hlast, hwritten⟩
  · by_cases hnumber : ∃ n, t = .number n
    · obtain ⟨n, rfl⟩ := hnumber
      obtain ⟨l', hturn, hinv, hafter, hkept⟩ :=
        step_number ht.1 htexts hlast hwritten hoffset htext hfound hnext
      refine ⟨_, l', hfound, hturn, hinv, hafter, fun stop hstop => ?_⟩
      rw [hkept, hafter, hstop]
      rfl
    · rw [not_exists] at hnumber
      have hne := Token.found_ne_number hnumber l.offset
      refine ⟨_, _, hfound, turn_of_ne_number hfound hne, ?_, rfl,
        fun stop h => absurd h (hne stop)⟩
      refine ⟨ts ++ [t], after, kept, between ++ t.text, hnext, ?_, hlast, ?_⟩
      · rw [texts_append_singleton, ← htexts, List.append_assoc]
      · rw [← List.append_assoc, hwritten, List.flatMap_append, List.flatMap_singleton,
          withPoint_of_ne_number hnumber]

/-! ## The ends of the loops -/

/-- The slices of the words among some tokens. -/
theorem mapM_wordSpans {done after : List Char} (h : done ++ (texts ts ++ after) = cs) :
    ((wordSpans (utf8 done).length ts).mapM fun (start, stop) =>
      (slice? start stop cs).map String.ofList) = some (ts.filterMap fun
        | .word text => some (String.ofList text)
        | _ => none) := by
  induction ts generalizing done with
  | nil => rfl
  | cons t ts ih =>
    have htext : done ++ (t.text ++ (texts ts ++ after)) = cs := by
      rw [← h]
      simp [texts]
    have hrest := ih ((List.append_assoc done t.text _).trans htext)
    rw [utf8_append, List.length_append] at hrest
    cases t with
    | number n => exact hrest
    | other c => exact hrest
    | word w =>
      have hslice := slice?_utf8 htext
      simp only [Token.text] at hslice hrest
      rw [wordSpans, List.mapM_cons]
      simp [hslice, hrest]

/-- Spans that are not empty, each of which begins at the end of the one before it or later. -/
def IsAscending (spans : List (Nat × Nat)) : Prop :=
  (∀ span ∈ spans, span.1 < span.2) ∧ spans.Pairwise fun a b => a.2 ≤ b.1

theorem isAscending_wordSpans (hcut : ∀ t ∈ ts, t.IsCut) (start : Nat) :
    IsAscending (wordSpans start ts) ∧ ∀ span ∈ wordSpans start ts, start ≤ span.1 := by
  induction ts generalizing start with
  | nil => simp [wordSpans, IsAscending]
  | cons t ts ih =>
    obtain ⟨⟨hlt, hpairwise⟩, hle⟩ := ih (fun u hu => hcut u (List.mem_cons_of_mem t hu))
      (start + (utf8 t.text).length)
    have hle' : ∀ span ∈ wordSpans (start + (utf8 t.text).length) ts, start ≤ span.1 :=
      fun span hspan => Nat.le_trans (Nat.le_add_right _ _) (hle span hspan)
    cases t with
    | number n => exact ⟨⟨hlt, hpairwise⟩, hle'⟩
    | other c => exact ⟨⟨hlt, hpairwise⟩, hle'⟩
    | word w =>
      have hne : w ≠ [] := (hcut (.word w) List.mem_cons_self).1
      have hpos : (utf8 w).length ≠ 0 := by
        rw [Ne, List.length_eq_zero_iff, utf8_eq_nil_iff]
        exact hne
      have hfirst : start < start + (utf8 w).length := by omega
      rw [wordSpans]
      refine ⟨⟨?_, List.pairwise_cons.mpr ⟨hle, hpairwise⟩⟩, ?_⟩
      · exact List.forall_mem_cons.mpr ⟨hfirst, hlt⟩
      · exact List.forall_mem_cons.mpr ⟨Nat.le_refl start, hle'⟩

/-- The spans that the search has gathered when it has come to its end. -/
theorem WordSearch.Inv.spans_at_end {l : WordSearch} (h : l.Inv cs)
    (hend : (utf8 cs).length ≤ l.offset) :
    l.offset = (utf8 cs).length ∧ l.spans = wordSpans 0 (Formula.tokens cs) := by
  obtain ⟨ts, rest, hstands, hspans⟩ := h
  obtain ⟨rfl, -, hoffset⟩ := hstands.eq_tokens hend
  exact ⟨hoffset, hspans⟩

/-- What the search has gathered when it has come to its end. -/
theorem WordSearch.Inv.at_end {s : String} {l : WordSearch} (h : l.Inv s.toList)
    (hend : (utf8 s.toList).length ≤ l.offset) : l.offset = (utf8 s.toList).length ∧
      IsAscending l.spans ∧ l.words? s.toList = some (identifiers s) := by
  obtain ⟨hoffset, hspans⟩ := h.spans_at_end hend
  refine ⟨hoffset, ?_, ?_⟩
  · rw [hspans]
    exact (isAscending_wordSpans (fun t ht => isCut_of_mem_tokens ht) 0).1
  · rw [WordSearch.words?, hspans]
    have hcs : [] ++ (texts (Formula.tokens s.toList) ++ []) = s.toList := by
      simp [texts, tokens_text]
    exact mapM_wordSpans hcs

/-- What the rewriting has gathered when it has come to its end. -/
theorem Rewriting.Inv.at_end {s : String} {l : Rewriting} (h : l.Inv s.toList)
    (hend : (utf8 s.toList).length ≤ l.offset) : l.offset = (utf8 s.toList).length ∧
      l.text? s.toList = some (fractional s).toList := by
  obtain ⟨ts, rest, kept, between, hstands, htexts, hlast, hwritten⟩ := h
  obtain ⟨rfl, hall, hoffset⟩ := hstands.eq_tokens hend
  have hcs : kept ++ (between ++ []) = s.toList := by simp [htexts, hall]
  have hslice := slice?_utf8 hcs
  rw [← List.length_append, ← utf8_append, htexts, hall, ← hlast] at hslice
  refine ⟨hoffset, ?_⟩
  rw [Rewriting.text?, hslice, Option.map_some, hwritten, fractional, rewriteTokens,
    String.toList_ofList]

/-! ## Both loops -/

/-- A turn of a loop in a string.  What is found is what it should be, all bytes and slices that the
turn asks for are there, and the offset goes on to the end of what is found, within the string. -/
def TurnsSafely {σ : Type} (s : String) (turn : σ → Option σ) (offset : σ → Nat) (l : σ) : Prop :=
  ∃ found l', literalAt (utf8 s.toList) (offset l) = some found ∧ found.IsSound s (offset l) ∧
    turn l = some l' ∧ offset l' = found.after (offset l) ∧ offset l < offset l' ∧
    offset l' ≤ s.utf8ByteSize

/-- The offset behind what is found at an offset. -/
def nextOffset (s : String) (i : Nat) : Option Nat :=
  (literalAt (utf8 s.toList) i).map fun found => found.after i

section

variable {s : String} {σ : Type} {turn : σ → Option σ} {offset : σ → Nat}

theorem Stands.turnsSafely {l l' : σ} {found : Found} (h : Stands s.toList ts rest (offset l))
    (hi : offset l < s.utf8ByteSize)
    (hfound : literalAt (utf8 s.toList) (offset l) = some found) (hturn : turn l = some l')
    (hoffset : offset l' = found.after (offset l)) : TurnsSafely s turn offset l := by
  rw [← length_utf8_toList] at hi
  obtain ⟨found', hfound', hsound, ts', rest', hnext⟩ := h.step_isSound hi
  rw [hfound] at hfound'
  obtain rfl := Option.some.inj hfound'
  refine ⟨found, l', hfound, hsound, hturn, hoffset, ?_, ?_⟩
  · rw [hoffset]
    exact hsound.lt_after
  · rw [hoffset, ← length_utf8_toList]
    exact hnext.le_length

/-- A loop whose turns are safe and keep a property of the states advances. -/
theorem advances_of_turnsSafely {p : σ → Prop}
    (hsafe : ∀ l, p l → offset l < s.utf8ByteSize → TurnsSafely s turn offset l)
    (hkeeps : ∀ l, p l → offset l < s.utf8ByteSize → ∃ l', turn l = some l' ∧ p l') :
    Advances turn offset s.utf8ByteSize (nextOffset s) p := by
  intro l hp hi
  obtain ⟨found, l', hfound, -, hturn, hoffset, hlt, -⟩ := hsafe l hp hi
  obtain ⟨l'', hturn', hp'⟩ := hkeeps l hp hi
  rw [hturn] at hturn'
  obtain rfl := Option.some.inj hturn'
  refine ⟨l', hturn, hp', ?_, hlt⟩
  rw [nextOffset, hfound, Option.map_some, hoffset]

end

section

variable {s : String}

theorem WordSearch.inv_start (cs : List Char) : WordSearch.Inv cs {} :=
  ⟨[], cs, stands_zero cs, rfl⟩

theorem WordSearch.Inv.turnsSafely {l : WordSearch} (h : l.Inv s.toList)
    (hi : l.offset < s.utf8ByteSize) :
    TurnsSafely s (WordSearch.turn s.toList) WordSearch.offset l := by
  obtain ⟨ts, rest, hstands, -⟩ := h
  have hlt : l.offset < (utf8 s.toList).length := by rwa [length_utf8_toList]
  obtain ⟨found, hfound, -⟩ := hstands.step_isSound hlt
  exact hstands.turnsSafely hi hfound (turn_eq hfound) rfl

theorem WordSearch.advances (s : String) : Advances (WordSearch.turn s.toList) WordSearch.offset
    s.utf8ByteSize (nextOffset s) (WordSearch.Inv s.toList) := by
  refine advances_of_turnsSafely (fun l h hi => h.turnsSafely hi) fun l h hi => h.step ?_
  rwa [length_utf8_toList]

theorem Rewriting.inv_start (cs : List Char) : Rewriting.Inv cs {} :=
  ⟨[], cs, [], [], stands_zero cs, rfl, rfl, rfl⟩

theorem Rewriting.Inv.turnsSafely {l : Rewriting} (h : l.Inv s.toList)
    (hi : l.offset < s.utf8ByteSize) :
    TurnsSafely s (Rewriting.turn s.toList) Rewriting.offset l := by
  have hlt : l.offset < (utf8 s.toList).length := by rwa [length_utf8_toList]
  obtain ⟨found, l', hfound, hturn, -, hoffset, -⟩ := h.step hlt
  obtain ⟨ts, rest, -, -, hstands, -⟩ := h
  exact hstands.turnsSafely hi hfound hturn hoffset

theorem Rewriting.advances (s : String) : Advances (Rewriting.turn s.toList) Rewriting.offset
    s.utf8ByteSize (nextOffset s) (Rewriting.Inv s.toList) := by
  refine advances_of_turnsSafely (fun l h hi => h.turnsSafely hi) fun l h hi => ?_
  obtain ⟨-, l', -, hturn, hinv, -⟩ := h.step (by rwa [length_utf8_toList])
  exact ⟨l', hturn, hinv⟩

/-- No number is passed over. -/
theorem Rewriting.Inv.last_eq {l l' : Rewriting} {stop : Nat} (h : l.Inv s.toList)
    (hi : l.offset < s.utf8ByteSize)
    (hfound : literalAt (utf8 s.toList) l.offset = some (.number stop))
    (hturn : l.turn s.toList = some l') : l'.last = stop := by
  obtain ⟨found, l'', hfound', hturn', -, -, hlast⟩ := h.step (by rwa [length_utf8_toList])
  rw [hfound] at hfound'
  rw [hturn] at hturn'
  obtain rfl := Option.some.inj hturn'
  exact hlast stop (Option.some.inj hfound').symm

end

/-- The states that the search for words comes to in a string. -/
def WordSearch.Reached (s : String) (l : WordSearch) : Prop :=
  Reaches (WordSearch.turn s.toList) WordSearch.offset s.utf8ByteSize {} l

/-- The states that the rewriting of literals comes to in a string. -/
def Rewriting.Reached (s : String) (l : Rewriting) : Prop :=
  Reaches (Rewriting.turn s.toList) Rewriting.offset s.utf8ByteSize {} l

/-- The search for words and the rewriting of literals go through the bytes of a formula.  At every
offset that they come to before the end, what is found is what it should be, and the turn asks for
no byte and no slice that is not there.  Every number is rewritten, so none is passed over.  Both
loops come to the same offsets, and to the end.  There the search has found the identifiers, in
ascending spans, and the rewriting yields the formula with its literals written with a point. -/
theorem scans_bytes (s : String) :
    utf8 s.toList = s.toUTF8.data.toList ∧
    (∀ l, WordSearch.Reached s l → l.offset < s.utf8ByteSize →
      TurnsSafely s (WordSearch.turn s.toList) WordSearch.offset l) ∧
    (∀ l, Rewriting.Reached s l → l.offset < s.utf8ByteSize →
      TurnsSafely s (Rewriting.turn s.toList) Rewriting.offset l ∧
      ∀ stop l', literalAt (utf8 s.toList) l.offset = some (.number stop) →
        l.turn s.toList = some l' → l'.last = stop) ∧
    (∀ i, (∃ l, WordSearch.Reached s l ∧ l.offset = i) ↔
      ∃ l, Rewriting.Reached s l ∧ l.offset = i) ∧
    (∃ l, WordSearch.Reached s l ∧ l.offset = s.utf8ByteSize ∧ IsAscending l.spans ∧
      l.words? s.toList = some (identifiers s)) ∧
    ∃ l, Rewriting.Reached s l ∧ l.offset = s.utf8ByteSize ∧
      l.text? s.toList = some (fractional s).toList := by
  have hsearch := WordSearch.advances s
  have hrewrite := Rewriting.advances s
  have hstart := WordSearch.inv_start s.toList
  have hstart' := Rewriting.inv_start s.toList
  refine ⟨utf8_toList s, ?_, ?_, ?_, ?_, ?_⟩
  · intro l hl hi
    exact (hl.keeps hsearch hstart).turnsSafely hi
  · intro l hl hi
    have hinv : l.Inv s.toList := hl.keeps hrewrite hstart'
    exact ⟨hinv.turnsSafely hi, fun stop l' hfound hturn => hinv.last_eq hi hfound hturn⟩
  · intro i
    constructor
    · rintro ⟨l, hl, rfl⟩
      exact hl.follows hsearch hrewrite hstart hstart' rfl
    · rintro ⟨l, hl, rfl⟩
      exact hl.follows hrewrite hsearch hstart' hstart rfl
  · obtain ⟨l, hl, hinv, hend⟩ := hsearch.exists_end {} hstart
    rw [← length_utf8_toList] at hend
    obtain ⟨hoffset, hascending, hwords⟩ := hinv.at_end hend
    exact ⟨l, hl, hoffset.trans (length_utf8_toList s), hascending, hwords⟩
  · obtain ⟨l, hl, hinv, hend⟩ := hrewrite.exists_end {} hstart'
    rw [← length_utf8_toList] at hend
    obtain ⟨hoffset, htext⟩ := hinv.at_end hend
    exact ⟨l, hl, hoffset.trans (length_utf8_toList s), htext⟩

/-- Neither a letter beyond ASCII before a literal nor a word right behind its exponent keeps the
loops from the end. -/
theorem scans_bytes_gears :
    (∃ l, WordSearch.Reached "é1.5e-3x+2nd" l ∧ l.offset = 13 ∧ IsAscending l.spans ∧
      l.words? "é1.5e-3x+2nd".toList = some ["x", "2nd"]) ∧
    ∃ l, Rewriting.Reached "é1.5e-3x+2nd" l ∧ l.offset = 13 ∧
      l.text? "é1.5e-3x+2nd".toList = some "é0.0015x+2nd".toList := by
  have hsize : "é1.5e-3x+2nd".utf8ByteSize = 13 := by decide +kernel
  have hwords : identifiers "é1.5e-3x+2nd" = ["x", "2nd"] := by decide +kernel
  have htext : fractional "é1.5e-3x+2nd" = "é0.0015x+2nd" := by decide +kernel
  obtain ⟨-, -, -, -, hsearches, hrewrites⟩ := scans_bytes "é1.5e-3x+2nd"
  rw [hsize, hwords] at hsearches
  rw [hsize, htext] at hrewrites
  exact ⟨hsearches, hrewrites⟩

end Scorecard.Formula
