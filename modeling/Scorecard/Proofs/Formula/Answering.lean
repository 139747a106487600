import Scorecard.Proofs.Formula.Matching
import Scorecard.Proofs.Formula.Numeric

/-!
# A formula with different answers

Two texts that a formula becomes when its words are answered differ only in the answers: where one
has a literal the other may have a negated literal in parentheses.  This module carries that through
the evaluator.  It compares every text with one that has a zero for each word (`zeroed`), which is
the same whatever the answers are.

* `evaluateNumber_fractional` says which number a formula yields: that of its row of lexemes
  (`rowOf`).
* `Answered` relates the tokens of a formula to those with an answer in place of each word.
* `NoEmptyCall` excludes words before an empty pair of parentheses.  To the evaluator such a pair is
  an operand in one place and none in another, and whether it is can depend on the answer before it.
* `Comparable` rows of lexemes match, unless the same name stands in both and is no function.  The
  rows of a zeroed and of an answered formula are comparable (`comparable_of_answered`), so one of
  them yields a number exactly if the other does (`agree_of_answered`).
-/

namespace Scorecard.Formula

open Number (Numeral isDigit)

/-- An empty pair of parentheses comes first, blanks aside. -/
def StartsEmpty (ts : List Token) : Prop :=
  (ts.filter (· ≠ .other ' ')).take 2 = [.other '(', .other ')']

instance (ts : List Token) : Decidable (StartsEmpty ts) :=
  inferInstanceAs (Decidable (_ = _))

/-- No word stands before an empty pair of parentheses. -/
def NoEmptyCall : List Token → Prop
  | [] => True
  | t :: ts => (t.isWord = true → ¬ StartsEmpty ts) ∧ NoEmptyCall ts

/-- The tokens of an answer: a literal, or a negated literal in parentheses. -/
inductive IsAnswer : List Token → Prop
  | number {n : Numeral} (hn : n.IsLiteral) : IsAnswer [.number n]
  | negated {n : Numeral} (hn : n.IsLiteral) :
      IsAnswer [.other '(', .other '-', .number n, .other ')']

/-- The second row of tokens is the first with an answer in place of each word. -/
inductive Answered : List Token → List Token → Prop
  | nil : Answered [] []
  | kept {t : Token} {vs us : List Token} (ht : t.isWord = false) (h : Answered vs us) :
      Answered (t :: vs) (t :: us)
  | word (w : List Char) {ts vs us : List Token} (hts : IsAnswer ts) (h : Answered vs us) :
      Answered (.word w :: vs) (ts ++ us)

/-- A zero in place of a word. -/
def Token.zeroed : Token → Token
  | .word _ => .number ⟨['0'], none, none⟩
  | t => t

/-- The lexemes of a row of tokens. -/
def rowOf (ts : List Token) : List Lexeme := (gather ts).filterMap Glyph.lexeme?

/-- The lexemes of a row of tokens that continues a run of text. -/
def rowAfter (cs : List Char) (ts : List Token) : List Lexeme :=
  ((Glyph.text cs).joinFront (gather ts)).filterMap Glyph.lexeme?

/-- The rows match, or the same name that is no function stands in both. -/
def Comparable (as bs : List Lexeme) : Prop :=
  (∃ name, function? name = none ∧ .identifier name ∈ as ∧ .identifier name ∈ bs) ∨ Matches as bs

/-! ## Rows of lexemes -/

theorem isArithmetic_number {n : Numeral} (hn : n.IsLiteral) : (Token.number n).IsArithmetic :=
  ⟨hn, fun _ h => by cases h⟩

theorem isArithmetic_mark {c : Char} (hc : c ∈ "+-*/()".toList) : (Token.other c).IsArithmetic := by
  have hmarks : ∀ d ∈ "+-*/()".toList, isWordChar d = false ∧ isArithmeticChar d = true :=
    forall_mem_of_all (by decide)
  refine ⟨(hmarks c hc).1, ?_⟩
  rintro d h
  obtain rfl := Token.other.inj h
  exact (hmarks c hc).2

theorem isArithmetic_of_mem_rowOf {ts : List Token} (hts : ∀ t ∈ ts, t.IsArithmetic) :
    ∀ l ∈ rowOf ts, l.IsArithmetic :=
  isArithmetic_of_mem_filterMap (isArithmetic_of_mem_gather hts)

/-- The number that an arithmetic formula yields: that of its tokens outside comments. -/
theorem evaluateNumber_fractional {formula : String}
    (h : ∀ c ∈ formula.toList, isArithmeticChar c = true) :
    evaluateNumber (fractional formula) =
      (visible false (tokens formula.toList)).elim (.error .unmatchedComment)
        (numberOf ∘ rowOf) := by
  have hglyphs := glyphs_fractional h
  cases hvs : visible false (tokens formula.toList) with
  | none =>
    rw [hvs] at hglyphs
    unfold evaluateNumber
    rw [hglyphs]
    rfl
  | some vs =>
    rw [hvs] at hglyphs
    have hcut := fun t ht => isArithmetic_of_mem_tokens h t (mem_of_mem_visible hvs ht)
    exact evaluateNumber_eq hglyphs (isArithmetic_of_mem_gather hcut)

/-- A run of text before a token that is no text is one lexeme. -/
theorem rowAfter_eq_cons {ts : List Token} (hts : ∀ t ∈ ts, t.IsArithmetic)
    (h : ∀ t ∈ ts.head?, t.isText = false) (cs : List Char) :
    rowAfter cs ts = .ofText cs :: rowOf ts := by
  rw [rowAfter, joinFront_gather hts h]
  rfl

theorem rowOf_text {t : Token} (ht : t.isText = true) (ts : List Token) :
    rowOf (t :: ts) = rowAfter (withPoint t) ts := by
  rw [rowOf, gather, glyph_of_isText ht]
  rfl

theorem rowAfter_text {t : Token} (ht : t.isText = true) (cs : List Char) (ts : List Token) :
    rowAfter cs (t :: ts) = rowAfter (cs ++ withPoint t) ts := by
  rw [rowAfter, gather, glyph_of_isText ht, joinFront_joinFront]
  rfl

theorem rowOf_blank (ts : List Token) : rowOf (.other ' ' :: ts) = rowOf ts := rfl

/-- A mark is a lexeme of its own: a parenthesis or an operation. -/
theorem rowOf_mark {c : Char} (hc : c ∈ "+-*/()".toList) : ∃ l : Lexeme,
    (∀ ts, rowOf (.other c :: ts) = l :: rowOf ts) ∧
      (c = '(' ∧ l = .opening ∨ c = ')' ∧ l = .closing ∨
        ∃ operation : Binary, operation.IsArithmetic ∧ l = .operation operation) := by
  have hcases : c = '+' ∨ c = '-' ∨ c = '*' ∨ c = '/' ∨ c = '(' ∨ c = ')' := by simpa using hc
  rcases hcases with rfl | rfl | rfl | rfl | rfl | rfl
  · exact ⟨_, fun _ => rfl, .inr (.inr ⟨.add, .inl rfl, rfl⟩)⟩
  · exact ⟨_, fun _ => rfl, .inr (.inr ⟨.sub, .inr (.inl rfl), rfl⟩)⟩
  · exact ⟨_, fun _ => rfl, .inr (.inr ⟨.mul, .inr (.inr (.inl rfl)), rfl⟩)⟩
  · exact ⟨_, fun _ => rfl, .inr (.inr ⟨.div, .inr (.inr (.inr rfl)), rfl⟩)⟩
  · exact ⟨_, fun _ => rfl, .inl ⟨rfl, rfl⟩⟩
  · exact ⟨_, fun _ => rfl, .inr (.inl ⟨rfl, rfl⟩)⟩

/-- A literal is a constant. -/
theorem exists_ofText_withPoint_number (n : Numeral) :
    ∃ x, Lexeme.ofText (withPoint (.number n)) = .constant (.float x) := by
  obtain ⟨x, hx⟩ := exists_ofText?_withPoint_number n
  exact ⟨x, by simp [Lexeme.ofText, hx]⟩

/-! ## Empty pairs of parentheses -/

/-- A run of text is a constant or an identifier. -/
theorem exists_rowAfter_eq_cons (cs : List Char) (ts : List Token) :
    ∃ ds ls, rowAfter cs ts = .ofText ds :: ls := by
  unfold rowAfter
  cases gather ts with
  | nil => exact ⟨cs, [], rfl⟩
  | cons g gs =>
    cases g with
    | text ds => exact ⟨cs ++ ds, _, rfl⟩
    | _ => exact ⟨cs, _, rfl⟩

theorem ofText_ne_parenthesis (cs : List Char) :
    Lexeme.ofText cs ≠ .opening ∧ Lexeme.ofText cs ≠ .closing := by
  unfold Lexeme.ofText
  cases Value.ofText? cs <;> constructor <;> intro h <;> cases h

/-- A parenthesis is the first lexeme only where it is the first token, blanks aside. -/
theorem filter_of_rowOf_eq_cons {c : Char} {l : Lexeme}
    (hl : c = '(' ∧ l = .opening ∨ c = ')' ∧ l = .closing) {ts : List Token}
    (hts : ∀ t ∈ ts, t.IsArithmetic) {ls : List Lexeme} (h : rowOf ts = l :: ls) :
    ∃ rest, (∀ t ∈ rest, t.IsArithmetic) ∧ rowOf rest = ls ∧
      ts.filter (· ≠ .other ' ') = .other c :: rest.filter (· ≠ .other ' ') := by
  induction ts with
  | nil => cases h
  | cons t ts ih =>
    have hrest : ∀ u ∈ ts, u.IsArithmetic := fun u hu => hts u (by simp [hu])
    rcases (hts t (by simp)).cases with htext | rfl | ⟨d, hd, rfl⟩
    · obtain ⟨ds, ms, hrow⟩ := exists_rowAfter_eq_cons (withPoint t) ts
      rw [rowOf_text htext, hrow] at h
      obtain ⟨hopening, hclosing⟩ := ofText_ne_parenthesis ds
      have hfirst := (List.cons.inj h).1
      rcases hl with ⟨-, rfl⟩ | ⟨-, rfl⟩
      · exact absurd hfirst hopening
      · exact absurd hfirst hclosing
    · obtain ⟨rest, harith, hrow, hfilter⟩ := ih hrest (by rwa [rowOf_blank] at h)
      exact ⟨rest, harith, hrow, by simpa using hfilter⟩
    · obtain ⟨m, hrow, hm⟩ := rowOf_mark hd
      rw [hrow] at h
      obtain ⟨rfl, rfl⟩ := List.cons.inj h
      have hsame : d = c := by
        rcases hl with ⟨rfl, rfl⟩ | ⟨rfl, rfl⟩ <;>
          rcases hm with ⟨rfl, hm⟩ | ⟨rfl, hm⟩ | ⟨op, -, hm⟩ <;> first | rfl | cases hm
      subst hsame
      have hkept : Token.other d ≠ .other ' ' := by
        rintro heq
        obtain rfl := Token.other.inj heq
        exact absurd hd (by decide)
      exact ⟨ts, hrest, rfl, by simp [hkept]⟩

/-- An empty pair of parentheses comes first in a row only where it comes first in the formula. -/
theorem startsEmpty_of_opensEmpty {ts : List Token} (hts : ∀ t ∈ ts, t.IsArithmetic)
    (h : OpensEmpty (rowOf ts)) : StartsEmpty ts := by
  generalize hrow : rowOf ts = row at h
  unfold OpensEmpty at h
  split at h
  · next rest =>
    obtain ⟨us, hus, hrest, hfilter⟩ := filter_of_rowOf_eq_cons (.inl ⟨rfl, rfl⟩) hts hrow
    obtain ⟨ws, -, -, hfilter'⟩ := filter_of_rowOf_eq_cons (.inr ⟨rfl, rfl⟩) hus hrest
    rw [StartsEmpty, hfilter, hfilter']
    rfl
  · exact absurd h id

theorem zeroed_eq_other_iff (t : Token) (c : Char) : t.zeroed = .other c ↔ t = .other c := by
  cases t <;> simp [Token.zeroed]

/-- A zero in place of a word begins no parentheses. -/
theorem startsEmpty_zeroed {ts : List Token} (h : StartsEmpty (ts.map Token.zeroed)) :
    StartsEmpty ts := by
  have hsame : (fun t : Token => decide (t ≠ .other ' ')) ∘ Token.zeroed =
      fun t : Token => decide (t ≠ .other ' ') := by
    funext t
    simp [zeroed_eq_other_iff]
  rw [StartsEmpty, List.filter_map, hsame, ← List.map_take] at h
  rw [StartsEmpty]
  generalize (ts.filter fun t : Token => decide (t ≠ .other ' ')).take 2 = front at h
  obtain ⟨a, as, rfl, ha, has⟩ := List.map_eq_cons_iff.mp h
  obtain ⟨b, bs, rfl, hb, hbs⟩ := List.map_eq_cons_iff.mp has
  rw [(zeroed_eq_other_iff a '(').mp ha, (zeroed_eq_other_iff b ')').mp hb,
    List.map_eq_nil_iff.mp hbs]

/-! ## Comparable rows -/

namespace Comparable

variable {as bs : List Lexeme}

/-- Longer rows are comparable if they are wherever the shorter ones match. -/
theorem extend (h : Comparable as bs) {as' bs' : List Lexeme} (ha : as ⊆ as') (hb : bs ⊆ bs')
    (hmatch : Matches as bs → Comparable as' bs') : Comparable as' bs' := by
  rcases h with ⟨name, hnone, hname, hname'⟩ | h
  · exact .inl ⟨name, hnone, ha hname, hb hname'⟩
  · exact hmatch h

/-- The same parenthesis or operation in front of both rows. -/
theorem mark (h : Comparable as bs) {c : Char} {l : Lexeme}
    (hl : c = '(' ∧ l = .opening ∨ c = ')' ∧ l = .closing ∨
      ∃ operation : Binary, operation.IsArithmetic ∧ l = .operation operation) :
    Comparable (l :: as) (l :: bs) := by
  refine h.extend (by simp) (by simp) fun h => .inr ?_
  rcases hl with ⟨-, rfl⟩ | ⟨-, rfl⟩ | ⟨operation, hop, rfl⟩
  · exact .opening h
  · exact .closing h
  · exact .operation hop h

/-- The same run of literals and points in front of both rows. -/
theorem numeric (h : Comparable as bs) {cs : List Char} (hcs : IsNumeric cs) :
    Comparable (.ofText cs :: as) (.ofText cs :: bs) := by
  refine h.extend (by simp) (by simp) fun h => ?_
  rw [Lexeme.ofText, ofText?_of_isNumeric hcs]
  cases Number.readFloat cs with
  | some x => exact .inr (.constant x x h)
  | none => exact .inl ⟨_, function?_of_isNumeric hcs, by simp, by simp⟩

/-- A literal in front of each row. -/
theorem number (h : Comparable as bs) (m n : Numeral) :
    Comparable (.ofText (withPoint (.number m)) :: as)
      (.ofText (withPoint (.number n)) :: bs) := by
  obtain ⟨x, hx⟩ := exists_ofText_withPoint_number m
  obtain ⟨y, hy⟩ := exists_ofText_withPoint_number n
  rw [hx, hy]
  exact h.extend (by simp) (by simp) fun h => .inr (.constant x y h)

/-- A literal in front of one row, and a negated literal in parentheses in front of the other. -/
theorem negated (h : Comparable as bs) (hempty : ¬ OpensEmpty as) (m n : Numeral) :
    Comparable (.ofText (withPoint (.number m)) :: as)
      (.opening :: .operation .sub :: .ofText (withPoint (.number n)) :: .closing :: bs) := by
  obtain ⟨x, hx⟩ := exists_ofText_withPoint_number m
  obtain ⟨y, hy⟩ := exists_ofText_withPoint_number n
  rw [hx, hy]
  refine h.extend (by simp) ?_ fun h => .inr (.negated x y hempty h)
  intro l hl
  simp [hl]

end Comparable

/-! ## Answered formulas -/

theorem IsAnswer.isArithmetic {ts : List Token} (h : IsAnswer ts) : ∀ t ∈ ts, t.IsArithmetic := by
  cases h with
  | number hn =>
    intro t ht
    obtain rfl := List.mem_singleton.mp ht
    exact isArithmetic_number hn
  | negated hn =>
    intro t ht
    simp only [List.mem_cons, List.not_mem_nil, or_false] at ht
    rcases ht with rfl | rfl | rfl | rfl
    · exact isArithmetic_mark (by decide)
    · exact isArithmetic_mark (by decide)
    · exact isArithmetic_number hn
    · exact isArithmetic_mark (by decide)

/-- The tokens of an answered formula are arithmetic. -/
theorem Answered.isArithmetic {vs us : List Token} (h : Answered vs us)
    (hvs : ∀ t ∈ vs, t.IsArithmetic) : ∀ t ∈ us, t.IsArithmetic := by
  induction h with
  | nil => exact hvs
  | kept ht h ih =>
    intro u hu
    rcases List.mem_cons.mp hu with rfl | hu
    · exact hvs u (by simp)
    · exact ih (fun t ht => hvs t (by simp [ht])) u hu
  | word w hts h ih =>
    intro u hu
    rcases List.mem_append.mp hu with hu | hu
    · exact hts.isArithmetic u hu
    · exact ih (fun t ht => hvs t (by simp [ht])) u hu

/-- A formula that begins with no text does not begin with any once it is answered. -/
theorem Answered.head?_isText {vs us : List Token} (h : Answered vs us)
    (hvs : ∀ t ∈ vs.head?, t.isText = false) : ∀ t ∈ us.head?, t.isText = false := by
  cases h with
  | nil => exact hvs
  | kept => exact hvs
  | word w => exact absurd (hvs (.word w) rfl) (by simp [Token.isText])

/-- Zero is an answer. -/
theorem answered_zeroed (vs : List Token) : Answered vs (vs.map Token.zeroed) := by
  have hzero : Numeral.IsLiteral ⟨['0'], none, none⟩ :=
    ⟨⟨forall_mem_of_all (by decide), by simp, by simp⟩, by decide⟩
  induction vs with
  | nil => exact .nil
  | cons t vs ih =>
    cases t with
    | word w => exact .word w (.number hzero) ih
    | _ => exact .kept rfl ih

theorem zeroed_of_not_isWord {t : Token} (ht : t.isWord = false) : t.zeroed = t := by
  cases t with
  | word w => exact absurd ht (by simp [Token.isWord])
  | _ => rfl

/-- An answer that is a literal is a lexeme of its own where no text follows. -/
theorem rowOf_number (n : Numeral) {ts : List Token} (hts : ∀ t ∈ ts, t.IsArithmetic)
    (h : ∀ t ∈ ts.head?, t.isText = false) :
    rowOf (.number n :: ts) = .ofText (withPoint (.number n)) :: rowOf ts := by
  rw [rowOf_text rfl, rowAfter_eq_cons hts h]

/-- An answer that is a negated literal is put in parentheses. -/
theorem rowOf_negated (n : Numeral) {ts : List Token} (hts : ∀ t ∈ ts, t.IsArithmetic) :
    rowOf (.other '(' :: .other '-' :: .number n :: .other ')' :: ts) =
      .opening :: .operation .sub :: .ofText (withPoint (.number n)) :: .closing :: rowOf ts := by
  have harith : ∀ t ∈ Token.other ')' :: ts, t.IsArithmetic := by
    intro t ht
    rcases List.mem_cons.mp ht with rfl | ht
    · exact isArithmetic_mark (by decide)
    · exact hts t ht
  have hnumber := rowOf_number n harith (by simp [Token.isText, isTextChar, isWordChar])
  show .opening :: .operation .sub :: rowOf (.number n :: .other ')' :: ts) = _
  rw [hnumber]
  rfl

/-- Whatever the answers are, the row of an answered formula is comparable to the row with zeros,
and so it is behind a run of literals and points that does not touch a word. -/
theorem comparable_of_answered {vs us : List Token} (h : Answered vs us)
    (hvs : ∀ t ∈ vs, t.IsArithmetic) (hapart : vs.IsChain Token.Apart) (hcalls : NoEmptyCall vs) :
    Comparable (rowOf (vs.map Token.zeroed)) (rowOf us) ∧
      ∀ cs, IsNumeric cs → (∀ t ∈ vs.head?, t.isWord = false) →
        Comparable (rowAfter cs (vs.map Token.zeroed)) (rowAfter cs us) := by
  have hzeroed := (answered_zeroed vs).isArithmetic hvs
  have hanswered := h.isArithmetic hvs
  induction h with
  | nil =>
    refine ⟨.inr .nil, fun cs hcs _ => ?_⟩
    exact Comparable.numeric (.inr .nil) hcs
  | @kept t vs us hword h ih =>
    have ht := hvs t (by simp)
    rw [List.map_cons, zeroed_of_not_isWord hword] at hzeroed ⊢
    obtain ⟨hrow, hafter⟩ := ih (fun u hu => hvs u (by simp [hu])) hapart.tail hcalls.2
      (fun u hu => hzeroed u (by simp [hu])) (fun u hu => hanswered u (by simp [hu]))
    by_cases htext : t.isText = true
    · -- The token goes on with the run in front of it, and the run does not end here.
      have hnumeric := isNumeric_withPoint htext hword ht.1
      have hnext : ∀ u ∈ vs.head?, u.isWord = false := by
        intro u hu
        by_contra hother
        rw [(hapart.rel_head? hu).2 (by simpa using hother)] at htext
        exact absurd htext (by decide)
      refine ⟨?_, fun cs hcs _ => ?_⟩
      · rw [rowOf_text htext, rowOf_text htext]
        exact hafter _ hnumeric hnext
      · rw [rowAfter_text htext, rowAfter_text htext]
        exact hafter _ (hcs.append hnumeric) hnext
    · have hfront : Comparable (rowOf (t :: vs.map Token.zeroed)) (rowOf (t :: us)) := by
        rcases ht.cases with htext' | rfl | ⟨c, hc, rfl⟩
        · exact absurd htext' htext
        · exact hrow
        · obtain ⟨l, hl, hcases⟩ := rowOf_mark hc
          rw [hl, hl]
          exact hrow.mark hcases
      refine ⟨hfront, fun cs hcs _ => ?_⟩
      rw [rowAfter_eq_cons hzeroed (by simpa using htext),
        rowAfter_eq_cons hanswered (by simpa using htext)]
      exact hfront.numeric hcs
  | @word w ts vs us hts h ih =>
    have hnext : ∀ u ∈ vs.head?, u.isText = false := fun u hu => (hapart.rel_head? hu).1 rfl
    rw [List.map_cons] at hzeroed ⊢
    have hzeroed' : ∀ u ∈ vs.map Token.zeroed, u.IsArithmetic := fun u hu =>
      hzeroed u (List.mem_cons_of_mem _ hu)
    have hanswered' : ∀ u ∈ us, u.IsArithmetic := fun u hu => hanswered u (by simp [hu])
    obtain ⟨hrow, -⟩ := ih (fun u hu => hvs u (by simp [hu])) hapart.tail hcalls.2 hzeroed'
      hanswered'
    refine ⟨?_, fun cs _ hhead => absurd (hhead (.word w) rfl) (by simp [Token.isWord])⟩
    rw [Token.zeroed, rowOf_number _ hzeroed' ((answered_zeroed vs).head?_isText hnext)]
    cases hts with
    | @number n hn =>
      rw [List.singleton_append, rowOf_number _ hanswered' (h.head?_isText hnext)]
      exact hrow.number _ n
    | @negated n hn =>
      have hempty : ¬ OpensEmpty (rowOf (vs.map Token.zeroed)) := fun hopens =>
        hcalls.1 rfl (startsEmpty_zeroed (startsEmpty_of_opensEmpty hzeroed' hopens))
      have hparts := rowOf_negated n hanswered'
      simp only [List.cons_append, List.nil_append]
      rw [hparts]
      exact hrow.negated hempty _ n

/-- Whatever the answers are, a formula yields a number exactly if it does with zeros. -/
theorem agree_of_answered {vs us : List Token} (h : Answered vs us)
    (hvs : ∀ t ∈ vs, t.IsArithmetic) (hapart : vs.IsChain Token.Apart) (hcalls : NoEmptyCall vs) :
    Agree (fun _ _ => True) (numberOf (rowOf (vs.map Token.zeroed))) (numberOf (rowOf us)) := by
  rcases (comparable_of_answered h hvs hapart hcalls).1 with ⟨name, hnone, hzeroed, hanswered⟩ | h'
  · obtain ⟨e, he⟩ := numberOf_of_name
      (isArithmetic_of_mem_rowOf ((answered_zeroed vs).isArithmetic hvs)) hzeroed hnone
    obtain ⟨f, hf⟩ := numberOf_of_name
      (isArithmetic_of_mem_rowOf (h.isArithmetic hvs)) hanswered hnone
    rw [he, hf]
    exact .error e f
  · exact numberOf_alike h'

end Scorecard.Formula
