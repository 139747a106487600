import Scorecard.Formula.Lexeme
import Scorecard.Formula.Token
import Scorecard.Proofs.Formula.Cutting
import Scorecard.Proofs.Number.Layout

/-!
# What the evaluator sees of a formula

The evaluator groups the characters of a formula anew, after every literal has been written with a
point.  For the tokens of a formula of one line without quotes, this module says what comes out:
comments are dropped (`visible`), and the tokens that are left become glyphs, where numbers, words
and points that stand together make one run of text (`gather`).

* `withPoint_number` is the shape of a literal that has been written with a point.
* `glyphsFrom_text`, `glyphsFrom_other` and `glyphsFrom_comment` say what the evaluator does with
  the text of one token, in and outside a comment.
* `glyphsFrom_flatMap_withPoint` puts them together, and `glyphs_fractional` is the result for a
  formula.
* `Glyph.IsArithmetic` is the shape of the glyphs of arithmetic formulas: runs of text are not all
  digits.
* `gather_append`: rows of tokens that text does not connect are gathered one by one.
-/

namespace Scorecard.Formula

open Number (Numeral isDigit)

/-! ## Characters -/

/-- The characters that make runs of text. -/
def isTextChar (c : Char) : Bool := isWordChar c || c == '.'

/-- The characters of arithmetic formulas: those of words and literals, the marks of arithmetic,
parentheses and spaces. -/
def isArithmeticChar (c : Char) : Bool := isTextChar c || "+-*/() ".toList.contains c

/-- A property of the characters of a text, checked one by one.  Deciding the conclusion itself may
go through all characters there are. -/
theorem forall_mem_of_all {p : Char → Prop} [DecidablePred p] {cs : List Char}
    (h : cs.all (fun c => decide (p c)) = true) : ∀ c ∈ cs, p c := fun c hc =>
  of_decide_eq_true (List.all_eq_true.mp h c hc)

theorem ne_of_isTextChar {c d : Char} (h : isTextChar c = true) (hd : isTextChar d = false) :
    c ≠ d := by
  rintro rfl
  rw [h] at hd
  exact absurd hd (by decide)

theorem isMark_of_isTextChar {c : Char} (h : isTextChar c = true) : isMark c = false := by
  have hmarks : ∀ d ∈ "+-*/%^(),;=!><&|".toList, isTextChar d = false :=
    forall_mem_of_all (by decide)
  cases hc : isMark c with
  | false => rfl
  | true =>
    have hmem : c ∈ "+-*/%^(),;=!><&|".toList := by simpa [isMark] using hc
    exact absurd rfl (ne_of_isTextChar h (hmarks c hmem))

theorem isBlank_of_isTextChar {c : Char} (h : isTextChar c = true) : Text.isBlank c = false := by
  simp only [isTextChar, Bool.or_eq_true, beq_iff_eq] at h
  rcases h with h | rfl
  · rw [isWordChar_iff] at h
    simp only [Text.isBlank, Text.inRanges, Text.blankRanges, List.any_cons, List.any_nil,
      Bool.or_false, Bool.or_eq_false_iff, Bool.and_eq_false_iff, decide_eq_false_iff_not]
    omega
  · decide

theorem ofChar_of_isTextChar {c : Char} (h : isTextChar c = true) : Glyph.ofChar c = .text [c] := by
  simp [Glyph.ofChar, isMark_of_isTextChar h, isBlank_of_isTextChar h]

/-! ## Literals with a point -/

/-- The text of the value of a literal, which has no sign. -/
theorem withPoint_number_eq (n : Numeral) : withPoint (.number n) =
    if (n.toFloat false).isFinite then
      Number.inPlaces true ((Number.magnitude (n.toFloat false)).shortest .up)
    else "inf".toList := by
  obtain ⟨bits, hbits, hvalue⟩ := Number.toFloat_eq_withSign false n
  have hpositive : Number.isNegative (n.toFloat false) = false := by
    rw [hvalue, Number.isNegative_withSign false hbits]
  have hnumber : (n.toFloat false).isNaN = false := by
    rw [hvalue, Number.isNaN_withSign false hbits]
  simp only [withPoint, Number.Style.text]
  rw [hpositive, hnumber, if_neg (by decide), if_neg (by decide)]
  rfl

/-- A literal with a finite value that has been written with a point is a numeral with a fraction. -/
theorem withPoint_number_of_isFinite {n : Numeral} (h : (n.toFloat false).isFinite = true) :
    ∃ m : Numeral, m.IsPlain ∧ m.fraction.isSome = true ∧ withPoint (.number n) = m.text := by
  obtain ⟨m, hm, htext, hpoint⟩ := Number.inPlaces_isPlain true
    ((Number.magnitude (n.toFloat false)).shortest .up)
  exact ⟨m, hm, hpoint rfl, by rw [withPoint_number_eq, if_pos h, htext]⟩

/-- A literal that has been written with a point is a numeral with a fraction, or the word for
infinity. -/
theorem withPoint_number (n : Numeral) :
    (∃ m : Numeral, m.IsPlain ∧ m.fraction.isSome = true ∧ withPoint (.number n) = m.text) ∨
      withPoint (.number n) = "inf".toList := by
  by_cases h : (n.toFloat false).isFinite = true
  · exact .inl (withPoint_number_of_isFinite h)
  · exact .inr (by rw [withPoint_number_eq, if_neg h])

/-- The parts of a numeral that has a fraction and no exponent. -/
theorem text_of_isPlain {m : Numeral} (hm : m.IsPlain) (hpoint : m.fraction.isSome = true) :
    ∃ ds, m.text = m.whole ++ '.' :: ds ∧ (∀ c ∈ m.whole, isDigit c = true) ∧
      ∀ c ∈ ds, isDigit c = true := by
  obtain ⟨ds, hds⟩ := Option.isSome_iff_exists.mp hpoint
  exact ⟨ds, by simp [Numeral.text, hds, hm.exponent_eq], hm.whole, hm.fraction ds hds⟩

/-- The token is a run of text, or a part of one. -/
def Token.isText : Token → Bool
  | .other c => isTextChar c
  | _ => true

theorem isTextChar_of_isDigit {c : Char} (h : isDigit c = true) : isTextChar c = true := by
  simp [isTextChar, isWordChar_of_isDigit h]

/-- The text of a token that belongs to runs of text consists of their characters, and one of these
is no digit. -/
theorem withPoint_of_isText {t : Token} (ht : t.IsCut) (htext : t.isText = true) :
    (∀ c ∈ withPoint t, isTextChar c = true) ∧ ∃ c ∈ withPoint t, isDigit c = false := by
  cases t with
  | number n =>
    rcases withPoint_number n with ⟨m, hm, hpoint, htext⟩ | hinf
    · obtain ⟨ds, hparts, hwhole, hds⟩ := text_of_isPlain hm hpoint
      rw [htext, hparts]
      refine ⟨fun c hc => ?_, '.', by simp, by decide⟩
      rcases List.mem_append.mp hc with h | h
      · exact isTextChar_of_isDigit (hwhole c h)
      · rcases List.mem_cons.mp h with rfl | h
        · decide
        · exact isTextChar_of_isDigit (hds c h)
    · rw [hinf]
      exact ⟨forall_mem_of_all (by decide), 'i', by simp, by decide⟩
  | word w =>
    refine ⟨fun c hc => ?_, ht.2.2⟩
    simp [isTextChar, ht.2.1 c hc]
  | other c =>
    have hpoint : isTextChar c = true := htext
    have hc : isWordChar c = false := ht
    refine ⟨fun d hd => ?_, c, by simp [withPoint, Token.text], isDigit_of_not_isWordChar hc⟩
    obtain rfl : d = c := by simpa [withPoint, Token.text] using hd
    exact hpoint

/-! ## Comments and runs -/

/-- The tokens outside comments, for a formula of one line.  The flag says whether the tokens begin
inside a comment; there is no result if a comment does not end. -/
def visible : Bool → List Token → Option (List Token)
  | false, [] => some []
  | false, .other '/' :: .other '/' :: _ => some []
  | false, .other '/' :: .other '*' :: ts => visible true ts
  | false, t :: ts => (visible false ts).map (t :: ·)
  | true, [] => none
  | true, .other '*' :: .other '/' :: ts => visible false ts
  | true, _ :: ts => visible true ts

/-- The glyph of a token outside comments. -/
def Token.glyph : Token → Glyph
  | .other c => .ofChar c
  | t => .text (withPoint t)

/-- The glyphs of a row of tokens outside comments. -/
def gather : List Token → List Glyph
  | [] => []
  | t :: ts => t.glyph.joinFront (gather ts)

/-- The token occurs in arithmetic formulas. -/
def Token.IsArithmetic (t : Token) : Prop :=
  t.IsCut ∧ ∀ c, t = .other c → isArithmeticChar c = true

theorem glyph_of_isText {t : Token} (h : t.isText = true) : t.glyph = .text (withPoint t) := by
  cases t with
  | other c => exact ofChar_of_isTextChar h
  | _ => rfl

theorem joinFront_joinFront (cs ds : List Char) (gs : List Glyph) :
    (Glyph.text cs).joinFront ((Glyph.text ds).joinFront gs) =
      (Glyph.text (cs ++ ds)).joinFront gs := by
  cases gs with
  | nil => rfl
  | cons g gs => cases g <;> simp [Glyph.joinFront]

/-- One character of a run of text outside comments. -/
theorem glyphsFrom_textChar {c : Char} (h : isTextChar c = true) (rest : List Char) :
    glyphsFrom .plain (c :: rest) = (glyphsFrom .plain rest).map (Glyph.text [c]).joinFront := by
  rw [← ofChar_of_isTextChar h]
  have hquote : c ≠ '"' := ne_of_isTextChar h (by decide)
  have hslash : c ≠ '/' := ne_of_isTextChar h (by decide)
  exact glyphsFrom.eq_5 c rest hquote (fun _ hc _ => hslash hc) (fun _ hc _ => hslash hc)

/-- A run of text outside comments. -/
theorem glyphsFrom_text {cs : List Char} (h : ∀ c ∈ cs, isTextChar c = true) (hne : cs ≠ [])
    (rest : List Char) :
    glyphsFrom .plain (cs ++ rest) = (glyphsFrom .plain rest).map (Glyph.text cs).joinFront := by
  induction cs with
  | nil => exact absurd rfl hne
  | cons c cs ih =>
    rw [List.cons_append, glyphsFrom_textChar (h c (by simp))]
    by_cases hcs : cs = []
    · rw [hcs]
      rfl
    · rw [ih (fun d hd => h d (by simp [hd])) hcs]
      cases glyphsFrom .plain rest with
      | error _ => rfl
      | ok gs => exact congrArg Except.ok (joinFront_joinFront [c] cs gs)

/-- A character outside comments that begins none. -/
theorem glyphsFrom_other {c : Char} {rest : List Char} (hquote : c ≠ '"')
    (hslash : c = '/' → ∀ d ∈ rest.head?, d ≠ '/' ∧ d ≠ '*') :
    glyphsFrom .plain (c :: rest) = (glyphsFrom .plain rest).map (Glyph.ofChar c).joinFront := by
  refine glyphsFrom.eq_5 c rest hquote ?_ ?_
  · rintro cs rfl rfl
    exact (hslash rfl '/' (by simp)).1 rfl
  · rintro cs rfl rfl
    exact (hslash rfl '*' (by simp)).2 rfl

/-- A character that belongs to no run of text is a token wherever it occurs. -/
theorem head?_flatMap_withPoint {ts : List Token} (h : ∀ t ∈ ts, t.IsCut) {c : Char}
    (hc : isTextChar c = false) (hhead : (ts.flatMap withPoint).head? = some c) :
    ∃ rest, ts = .other c :: rest := by
  cases ts with
  | nil => simp at hhead
  | cons t ts =>
    have hcut := h t (by simp)
    by_cases htext : t.isText = true
    · obtain ⟨hall, d, hd, _⟩ := withPoint_of_isText hcut htext
      obtain ⟨a, as, ha⟩ := List.exists_cons_of_ne_nil (List.ne_nil_of_mem hd)
      obtain rfl : a = c := by simpa [ha] using hhead
      rw [hall a (by simp [ha])] at hc
      exact absurd hc (by decide)
    · cases t with
      | other d =>
        obtain rfl : d = c := by simpa [withPoint, Token.text] using hhead
        exact ⟨ts, rfl⟩
      | number n => exact absurd rfl htext
      | word w => exact absurd rfl htext

/-- The characters of arithmetic formulas are neither quotes nor line breaks. -/
theorem ne_of_isArithmeticChar {c : Char} (h : isArithmeticChar c = true) : c ≠ '"' ∧ c ≠ '\n' := by
  constructor <;> rintro rfl <;> exact absurd h (by decide)

theorem isArithmeticChar_of_isTextChar {c : Char} (h : isTextChar c = true) :
    isArithmeticChar c = true := by
  simp [isArithmeticChar, h]

/-- A formula that has been written with points still is arithmetic. -/
theorem isArithmeticChar_of_mem_withPoint {t : Token} (ht : t.IsArithmetic) {c : Char}
    (hc : c ∈ withPoint t) : isArithmeticChar c = true := by
  by_cases htext : t.isText = true
  · exact isArithmeticChar_of_isTextChar ((withPoint_of_isText ht.1 htext).1 c hc)
  · cases t with
    | other d =>
      obtain rfl : c = d := by simpa [withPoint, Token.text] using hc
      exact ht.2 c rfl
    | number n => exact absurd rfl htext
    | word w => exact absurd rfl htext

/-- What the evaluator makes of tokens, inside a comment or outside. -/
theorem glyphsFrom_flatMap_withPoint (inside : Bool) {ts : List Token}
    (h : ∀ t ∈ ts, t.IsArithmetic) :
    glyphsFrom (if inside then .blockComment else .plain) (ts.flatMap withPoint) =
      ((visible inside ts).map gather).elim (.error .unmatchedComment) .ok := by
  fun_induction visible inside ts with
  | case1 => rw [List.flatMap_nil]; simp [glyphsFrom, gather]
  | case2 ts =>
    have hline : ∀ c ∈ ts.flatMap withPoint, c ≠ '\n' := by
      intro c hc
      obtain ⟨t, ht, hc⟩ := List.mem_flatMap.mp hc
      exact (ne_of_isArithmeticChar
        (isArithmeticChar_of_mem_withPoint (h t (by simp [ht])) hc)).2
    simpa [withPoint, Token.text, glyphsFrom, gather] using glyphsFrom_lineComment hline
  | case3 ts ih =>
    simpa [withPoint, Token.text, glyphsFrom] using ih fun t ht => h t (by simp [ht])
  | case4 t ts hline hblock ih =>
    have ht := h t (by simp)
    have hcuts : ∀ u ∈ ts, u.IsCut := fun u hu => (h u (by simp [hu])).1
    have hglyph : glyphsFrom .plain ((t :: ts).flatMap withPoint) =
        (glyphsFrom .plain (ts.flatMap withPoint)).map t.glyph.joinFront := by
      rw [List.flatMap_cons]
      by_cases htext : t.isText = true
      · obtain ⟨hall, d, hd, _⟩ := withPoint_of_isText ht.1 htext
        rw [glyph_of_isText htext]
        exact glyphsFrom_text hall (List.ne_nil_of_mem hd) _
      · cases t with
        | other c =>
          refine glyphsFrom_other (ne_of_isArithmeticChar (ht.2 c rfl)).1 ?_
          rintro rfl d hd
          constructor
          · rintro rfl
            obtain ⟨rest, hrest⟩ := head?_flatMap_withPoint hcuts (by decide) hd
            exact hline rest rfl hrest
          · rintro rfl
            obtain ⟨rest, hrest⟩ := head?_flatMap_withPoint hcuts (by decide) hd
            exact hblock rest rfl hrest
        | number n => exact absurd rfl htext
        | word w => exact absurd rfl htext
    have hrest := ih fun u hu => h u (by simp [hu])
    simp only [Bool.false_eq_true, if_false] at hrest ⊢
    rw [hglyph, hrest]
    cases visible false ts <;> rfl
  | case5 => rw [List.flatMap_nil]; simp [glyphsFrom]
  | case6 ts ih =>
    simpa [withPoint, Token.text, glyphsFrom] using ih fun t ht => h t (by simp [ht])
  | case7 t ts hend ih =>
    have hrest := ih fun u hu => h u (by simp [hu])
    have hcuts : ∀ u ∈ ts, u.IsCut := fun u hu => (h u (by simp [hu])).1
    simp only [if_true] at hrest ⊢
    rw [List.flatMap_cons, ← hrest]
    by_cases hstar : t = .other '*'
    · subst hstar
      refine glyphsFrom_star fun d hd => ?_
      rintro rfl
      obtain ⟨rest, hrest⟩ := head?_flatMap_withPoint hcuts (by decide) hd
      exact hend rest rfl hrest
    · refine glyphsFrom_comment (fun c hc => ?_) _
      rintro rfl
      by_cases htext : t.isText = true
      · have hc := (withPoint_of_isText (h t (by simp)).1 htext).1 '*' hc
        exact absurd hc (by decide)
      · cases t with
        | other d =>
          obtain rfl : '*' = d := by simpa [withPoint, Token.text] using hc
          exact hstar rfl
        | number n => exact absurd rfl htext
        | word w => exact absurd rfl htext

/-! ## Formulas -/

theorem isArithmetic_of_mem_tokens {cs : List Char} (h : ∀ c ∈ cs, isArithmeticChar c = true) :
    ∀ t ∈ tokens cs, t.IsArithmetic := by
  refine fun t ht => ⟨isCut_of_mem_tokens ht, ?_⟩
  rintro c rfl
  exact h c (mem_of_other_mem_tokens ht)

/-- The glyphs of an arithmetic formula that has been written with points: those of its tokens
outside comments. -/
theorem glyphs_fractional {formula : String}
    (h : ∀ c ∈ formula.toList, isArithmeticChar c = true) :
    glyphs (fractional formula).toList =
      ((visible false (tokens formula.toList)).map gather).elim (.error .unmatchedComment) .ok := by
  have hglyphs := glyphsFrom_flatMap_withPoint false (isArithmetic_of_mem_tokens h)
  simpa [glyphs, fractional, rewriteTokens] using hglyphs

/-- The tokens outside comments are among all tokens. -/
theorem mem_of_mem_visible {inside : Bool} {ts vs : List Token} (h : visible inside ts = some vs)
    {t : Token} (ht : t ∈ vs) : t ∈ ts := by
  fun_induction visible inside ts generalizing vs with
  | case1 | case2 =>
    obtain rfl := Option.some.inj h
    simp at ht
  | case3 ts ih | case6 ts ih => simp [ih h ht]
  | case4 u ts _ _ ih =>
    obtain ⟨rest, hrest, rfl⟩ := Option.map_eq_some_iff.mp h
    rcases List.mem_cons.mp ht with rfl | ht
    · simp
    · simp [ih hrest ht]
  | case5 => simp at h
  | case7 u ts _ ih => simp [ih h ht]

/-! ## The glyphs that are gathered -/

/-- What holds of the glyphs of all tokens, and of two runs of text together when it holds of each,
holds of the glyphs that are gathered. -/
theorem forall_mem_gather {P : Glyph → Prop} {ts : List Token}
    (happend : ∀ cs ds, P (.text cs) → P (.text ds) → P (.text (cs ++ ds)))
    (h : ∀ t ∈ ts, P t.glyph) : ∀ g ∈ gather ts, P g := by
  induction ts with
  | nil => simp [gather]
  | cons t ts ih =>
    have hrest := ih fun u hu => h u (by simp [hu])
    have hfirst := h t (by simp)
    rw [gather]
    generalize t.glyph = first at hfirst
    generalize gather ts = gs at hrest
    intro g hg
    unfold Glyph.joinFront at hg
    split at hg
    · rcases List.mem_cons.mp hg with rfl | hg
      · exact happend _ _ hfirst (hrest _ (by simp))
      · exact hrest g (by simp [hg])
    · rcases List.mem_cons.mp hg with rfl | hg
      · exact hfirst
      · exact hrest g hg

/-- The glyphs of arithmetic formulas: runs of text that are not all digits, blanks, and the marks
of arithmetic. -/
inductive Glyph.IsArithmetic : Glyph → Prop
  | text {cs : List Char} (hall : ∀ c ∈ cs, isTextChar c = true)
      (h : ∃ c ∈ cs, isDigit c = false) : IsArithmetic (.text cs)
  | blank : IsArithmetic .blank
  | mark {c : Char} (h : c ∈ "+-*/()".toList) : IsArithmetic (.mark c)

/-- The tokens of arithmetic formulas are text, spaces and marks. -/
theorem Token.IsArithmetic.cases {t : Token} (ht : t.IsArithmetic) :
    t.isText = true ∨ t = .other ' ' ∨ ∃ c ∈ "+-*/()".toList, t = .other c := by
  cases t with
  | number n => exact .inl rfl
  | word w => exact .inl rfl
  | other c =>
    have hc := ht.2 c rfl
    simp only [isArithmeticChar, Bool.or_eq_true] at hc
    rcases hc with htext | hmark
    · exact .inl htext
    · have hmarks : ∀ d ∈ "+-*/() ".toList, d = ' ' ∨ d ∈ "+-*/()".toList :=
        forall_mem_of_all (by decide)
      rcases hmarks c (by simpa using hmark) with rfl | hmark
      · exact .inr (.inl rfl)
      · exact .inr (.inr ⟨c, hmark, rfl⟩)

theorem glyph_mark {c : Char} (hc : c ∈ "+-*/()".toList) : (Token.other c).glyph = .mark c := by
  have hismark : ∀ d ∈ "+-*/()".toList, isMark d = true := forall_mem_of_all (by decide)
  simp [Token.glyph, Glyph.ofChar, hismark c hc]

theorem Token.IsArithmetic.glyph {t : Token} (ht : t.IsArithmetic) : t.glyph.IsArithmetic := by
  rcases ht.cases with htext | rfl | ⟨c, hc, rfl⟩
  · rw [glyph_of_isText htext]
    exact .text (withPoint_of_isText ht.1 htext).1 (withPoint_of_isText ht.1 htext).2
  · exact .blank
  · rw [glyph_mark hc]
    exact .mark hc

theorem isArithmetic_of_mem_gather {ts : List Token} (h : ∀ t ∈ ts, t.IsArithmetic) :
    ∀ g ∈ gather ts, g.IsArithmetic := by
  refine forall_mem_gather ?_ fun t ht => (h t ht).glyph
  rintro cs ds ⟨hcs, c, hc, hdigit⟩ ⟨hds, _⟩
  refine .text (fun d hd => ?_) ⟨c, by simp [hc], hdigit⟩
  exact (List.mem_append.mp hd).elim (hcs d) (hds d)

/-- Every glyph is shown with a character that is no digit. -/
theorem Glyph.IsArithmetic.exists_not_isDigit {g : Glyph} (h : g.IsArithmetic) :
    ∃ c ∈ g.shown, isDigit c = false := by
  cases h with
  | text _ h => exact h
  | blank => exact ⟨' ', by simp [Glyph.shown], by decide⟩
  | @mark c h =>
    have hmarks : ∀ d ∈ "+-*/()".toList, isDigit d = false := forall_mem_of_all (by decide)
    exact ⟨c, by simp [Glyph.shown], hmarks c h⟩

/-! ## Where runs of text end -/

/-- A run of text ends before a token that is no text. -/
theorem joinFront_gather {ts : List Token} (hts : ∀ t ∈ ts, t.IsArithmetic)
    (h : ∀ t ∈ ts.head?, t.isText = false) (cs : List Char) :
    (Glyph.text cs).joinFront (gather ts) = .text cs :: gather ts := by
  cases ts with
  | nil => rfl
  | cons t ts =>
    have hno := h t rfl
    rcases (hts t (by simp)).cases with htext | rfl | ⟨c, hc, rfl⟩
    · rw [htext] at hno
      exact absurd hno (by decide)
    · rfl
    · rw [gather, glyph_mark hc]
      rfl

/-- A token begins a row of its own if no text connects it to the next one. -/
theorem joinFront_gather_token {t : Token} {ts : List Token} (ht : t.IsArithmetic)
    (hts : ∀ u ∈ ts, u.IsArithmetic)
    (h : ∀ u ∈ ts.head?, t.isText = true → u.isText = false) :
    t.glyph.joinFront (gather ts) = t.glyph :: gather ts := by
  rcases ht.cases with htext | rfl | ⟨c, hc, rfl⟩
  · rw [glyph_of_isText htext]
    exact joinFront_gather hts (fun u hu => h u hu htext) _
  · rfl
  · rw [glyph_mark hc]
    rfl

theorem joinFront_append {gs : List Glyph} (hgs : gs ≠ []) (g : Glyph) (hs : List Glyph) :
    g.joinFront (gs ++ hs) = g.joinFront gs ++ hs := by
  cases gs with
  | nil => exact absurd rfl hgs
  | cons a as => cases g <;> cases a <;> rfl

theorem joinFront_nil (g : Glyph) : g.joinFront [] = [g] := by
  cases g <;> rfl

theorem joinFront_ne_nil (g : Glyph) (gs : List Glyph) : g.joinFront gs ≠ [] := by
  cases gs with
  | nil => simp [joinFront_nil]
  | cons a as => cases g <;> cases a <;> simp [Glyph.joinFront]

/-- The glyphs of two rows of tokens that text does not connect. -/
theorem gather_append {as bs : List Token} (has : ∀ t ∈ as, t.IsArithmetic)
    (hbs : ∀ t ∈ bs, t.IsArithmetic)
    (h : ∀ t ∈ as.getLast?, ∀ u ∈ bs.head?, t.isText = true → u.isText = false) :
    gather (as ++ bs) = gather as ++ gather bs := by
  induction as with
  | nil => rfl
  | cons t as ih =>
    cases as with
    | nil =>
      rw [List.singleton_append, gather,
        joinFront_gather_token (has t (by simp)) hbs (h t (by simp)),
        gather, gather, joinFront_nil]
      rfl
    | cons u us =>
      have hrest := ih (fun a ha => has a (by simp [ha])) (by simpa using h)
      have hne : gather (u :: us) ≠ [] := joinFront_ne_nil _ _
      rw [List.cons_append, gather, hrest, joinFront_append hne]
      rfl

end Scorecard.Formula
