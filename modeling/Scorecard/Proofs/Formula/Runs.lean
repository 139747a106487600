import Scorecard.Proofs.Formula.Answering
import Scorecard.Proofs.Formula.Opening

/-!
# Runs of text that are numbers

In a formula of digits, points, the letters `e` and `E` and the marks of arithmetic, numbers, words
and points that stand together make one run of text for the evaluator.  This module says which runs
it reads as a number.

* `marks` are the characters of a run that are no digits: a literal has a point and the letter of an
  exponent at most (`marks_text`), and each token of a run has one (`length_le_marks`).
* So a run that is read as a number is one literal, or a literal and a word that the evaluator takes
  for its exponent (`Token.Joins`), and no other (`number_or_joins_of_readFloat`).
* Where a word joins a literal, the two are one constant (`exists_ofText_of_joins`).
-/

namespace Scorecard.Formula

open Number (Numeral isDigit)

/-- A token of formulas whose words are digits and letters of exponents.  No word is a literal. -/
structure Token.IsPlain (t : Token) : Prop where
  isArithmetic : t.IsArithmetic
  letters : ∀ w, t = .word w → ∀ c ∈ w, isDigit c = true ∨ c = 'e' ∨ c = 'E'
  noLiteral : ∀ w, t = .word w → ∀ n : Numeral, n.IsLiteral → n.text ≠ w

/-- The characters that are no digits. -/
def marks (cs : List Char) : List Char := cs.filter fun c => !isDigit c

theorem marks_append (cs ds : List Char) : marks (cs ++ ds) = marks cs ++ marks ds :=
  List.filter_append cs ds

theorem marks_digits {ds : List Char} (h : ∀ c ∈ ds, isDigit c = true) : marks ds = [] :=
  List.filter_eq_nil_iff.mpr fun c hc => by simp [h c hc]

/-- One character that is no digit stands between digits. -/
theorem eq_append_cons_of_marks {cs : List Char} {c : Char} (h : marks cs = [c]) :
    ∃ ds es, cs = ds ++ c :: es ∧ (∀ d ∈ ds, isDigit d = true) ∧ ∀ e ∈ es, isDigit e = true := by
  obtain ⟨ds, es, rfl, hds, hc, hes⟩ := List.filter_eq_cons_iff.mp h
  refine ⟨ds, es, rfl, fun d hd => by simpa using hds d hd, fun e he => ?_⟩
  simpa using List.filter_eq_nil_iff.mp hes e he

/-- A literal without a sign has a point or none, and then the letter of an exponent or none. -/
theorem marks_text {n : Numeral} (hn : n.HasParts) :
    marks n.text = (n.fraction.elim [] fun _ => ['.']) ++
      n.exponent.elim [] fun x => x.mark :: x.sign.toList := by
  obtain ⟨whole, fraction, exponent⟩ := n
  have hwhole : marks whole = [] := marks_digits hn.whole
  have hfraction : marks (fraction.elim [] ('.' :: ·)) = fraction.elim [] fun _ => ['.'] := by
    cases fraction with
    | none => rfl
    | some ds => exact congrArg ('.' :: ·) (marks_digits (hn.fraction ds rfl))
  have hexponent : marks (exponent.elim [] Number.Exponent.text) =
      exponent.elim [] fun x => x.mark :: x.sign.toList := by
    cases exponent with
    | none => rfl
    | some x =>
      have hx := hn.exponent x rfl
      have hmark : marks [x.mark] = [x.mark] := by simp [marks, Numeral.not_isDigit_of_mark hx]
      have hsign : marks x.sign.toList = x.sign.toList := by
        cases hs : x.sign with
        | none => rfl
        | some s => rcases hx.sign s hs with rfl | rfl <;> rfl
      calc marks (x.mark :: x.sign.toList ++ x.digits)
          = marks [x.mark] ++ (marks x.sign.toList ++ marks x.digits) := by
            rw [← marks_append, ← marks_append]
            rfl
        _ = x.mark :: x.sign.toList := by rw [hmark, hsign, marks_digits hx.digits]; simp
  simp [Numeral.text, marks_append, hwhole, hfraction, hexponent]

/-! ## What is read as a number -/

theorem IsRun.lower {cs : List Char} (h : IsRun cs) {c : Char} (hc : c ∈ cs) :
    Text.asciiLowerChar c = c ∨ c = 'E' := by
  have hletters : ∀ d ∈ ".infeE".toList, Text.asciiLowerChar d = d ∨ d = 'E' :=
    forall_mem_of_all (by decide)
  exact (h.all c hc).elim (fun hdigit => .inl (asciiLowerChar_of_isDigit hdigit)) (hletters c)

/-- No word but that for infinity is made of the letters of a run. -/
theorem IsRun.asciiLowered_ne {cs w : List Char} (h : IsRun cs)
    (hw : ∃ c ∈ w, isDigit c = false ∧ c ∉ ".infeE".toList) : Text.asciiLowered cs ≠ w := by
  obtain ⟨d, hd, hdigit, hno⟩ := hw
  rintro rfl
  obtain ⟨c, hc, rfl⟩ := List.mem_map.mp hd
  rcases h.lower hc with hlower | rfl
  · rw [hlower] at hdigit hno
    rcases h.all c hc with hc | hc
    · rw [hdigit] at hc
      exact absurd hc (by decide)
    · exact hno hc
  · exact hno (by decide)

theorem IsRun.eq_inf {cs : List Char} (h : IsRun cs)
    (hlower : Text.asciiLowered cs = "inf".toList) :
    cs = "inf".toList := by
  have hkept : ∀ c ∈ cs, Text.asciiLowerChar c = c := by
    intro c hc
    rcases h.lower hc with hc | rfl
    · exact hc
    · have hmem : Text.asciiLowerChar 'E' ∈ Text.asciiLowered cs := List.mem_map_of_mem hc
      rw [hlower] at hmem
      exact absurd hmem (by decide)
  rw [← hlower, Text.asciiLowered, List.map_congr_left hkept, List.map_id']

/-- A run that is read as a number is the word for infinity or a literal. -/
theorem IsRun.eq_text_of_readFloat {cs : List Char} (h : IsRun cs)
    (hread : (Number.readFloat cs).isSome = true) :
    cs = "inf".toList ∨ ∃ n : Numeral, n.IsLiteral ∧ n.text = cs := by
  obtain ⟨c, ds, rfl⟩ : ∃ c ds, cs = c :: ds := by
    obtain ⟨c, hc, -⟩ := h.marked
    exact List.exists_cons_of_ne_nil (List.ne_nil_of_mem hc)
  unfold Number.readFloat at hread
  rw [takeSign_of_isTextChar (h.isTextChar c (by simp))] at hread
  simp only at hread
  split at hread
  · next hinf =>
    refine .inl (h.eq_inf (hinf.resolve_right ?_))
    exact h.asciiLowered_ne ⟨'t', by decide, by decide, by decide⟩
  · split at hread
    · next hnan =>
      exact absurd hnan (h.asciiLowered_ne ⟨'a', by decide, by decide, by decide⟩)
    · split at hread
      · next hscan =>
        have htext := Numeral.scan_text (c :: ds)
        rw [hscan.1, List.append_nil] at htext
        exact .inr ⟨_, ⟨Numeral.scan_hasParts _, hscan.2⟩, htext⟩
      · cases hread

/-! ## The tokens of a run -/

theorem IsRun.append {cs ds : List Char} (hcs : IsRun cs) (hds : IsRun ds) : IsRun (cs ++ ds) where
  all c hc := (List.mem_append.mp hc).elim (hcs.all c) (hds.all c)
  marked := by
    obtain ⟨c, hc, hmark⟩ := hcs.marked
    exact ⟨c, by simp [hc], hmark⟩

theorem IsRun.marks_ne_nil {cs : List Char} (h : IsRun cs) : marks cs ≠ [] := by
  obtain ⟨c, hc, hdigit⟩ := h.exists_not_isDigit
  exact List.ne_nil_of_mem (List.mem_filter.mpr ⟨hc, by simp [hdigit]⟩)

theorem isRun_of_isPlain {t : Token} (ht : t.IsPlain) (htext : t.isText = true) :
    IsRun (withPoint t) := by
  cases t with
  | word w =>
    have hletters := ht.letters w rfl
    have hmark : ∃ c ∈ w, isDigit c = false := ht.isArithmetic.1.2.2
    obtain ⟨c, hc, hdigit⟩ := hmark
    refine ⟨fun d hd => (hletters d hd).imp id ?_, c, hc, ?_⟩
    · rintro (rfl | rfl) <;> decide
    · rcases hletters c hc with h | rfl | rfl
      · rw [hdigit] at h
        exact absurd h (by decide)
      · decide
      · decide
  | number n | other c => exact (isNumeric_withPoint htext rfl ht.isArithmetic.1).isRun

/-- The only single character in a run is a point. -/
theorem eq_point_of_isText {c : Char} (htext : (Token.other c).isText = true)
    (hcut : (Token.other c).IsCut) : c = '.' := by
  have hword : isWordChar c = false := hcut
  simpa [Token.isText, isTextChar, hword] using htext

/-- The first token is a literal with a finite value, and the second one is a word that the evaluator
takes for its exponent.  The literal may have an exponent of its own: that is gone when the literal
has been written with a point. -/
def Token.Joins (t u : Token) : Prop := ∃ (n : Numeral) (x : Number.Exponent), t = .number n ∧
  (n.toFloat false).isFinite = true ∧ u = .word x.text ∧ x.IsWritten ∧ x.sign = none

/-- A run has a mark for each of its tokens. -/
theorem length_le_marks {ts : List Token} (hts : ∀ t ∈ ts, t.IsPlain ∧ t.isText = true) :
    ts.length ≤ (marks (ts.flatMap withPoint)).length := by
  induction ts with
  | nil => simp
  | cons t ts ih =>
    obtain ⟨⟨ht, htext⟩, hts⟩ := List.forall_mem_cons.mp hts
    have hpos := List.length_pos_iff.mpr ((isRun_of_isPlain ht htext).marks_ne_nil)
    have hrest := ih hts
    rw [List.flatMap_cons, marks_append, List.length_append, List.length_cons]
    omega

theorem isRun_flatMap {ts : List Token} (hts : ∀ t ∈ ts, t.IsPlain ∧ t.isText = true)
    (hne : ts ≠ []) : IsRun (ts.flatMap withPoint) := by
  induction ts with
  | nil => exact absurd rfl hne
  | cons t ts ih =>
    obtain ⟨⟨ht, htext⟩, hts⟩ := List.forall_mem_cons.mp hts
    have hrun := isRun_of_isPlain ht htext
    cases ts with
    | nil => simpa using hrun
    | cons u us => exact hrun.append (ih hts (by simp))

/-- A literal within a run has no sign. -/
theorem sign_eq_none_of_isRun {n : Numeral} (hn : n.HasParts) (h : IsRun n.text) :
    ∀ x ∈ n.exponent, x.sign = none := by
  intro x hx
  by_contra hsign
  obtain ⟨s, hs⟩ := Option.ne_none_iff_exists'.mp hsign
  have hmem : s ∈ n.text := by
    obtain ⟨whole, fraction, exponent⟩ := n
    obtain rfl : exponent = some x := hx
    simp [Numeral.text, Number.Exponent.text, hs]
  have hno := ne_sign_of_isTextChar (h.isTextChar s hmem)
  exact ((hn.exponent x hx).sign s hs).elim hno.1 hno.2

/-- The digits of a literal stand in its text. -/
theorem mem_text_of_mem_digits {n : Numeral} {c : Char} (hc : c ∈ n.digits) : c ∈ n.text := by
  obtain ⟨whole, fraction, exponent⟩ := n
  cases fraction with
  | none =>
    have hc : c ∈ whole := by simpa [Numeral.digits] using hc
    simp [Numeral.text, hc]
  | some ds =>
    have hc : c ∈ whole ∨ c ∈ ds := by simpa [Numeral.digits] using hc
    rcases hc with hc | hc <;> simp [Numeral.text, hc]

theorem isDigit_of_mem_digits {n : Numeral} (hn : n.HasParts) {c : Char} (hc : c ∈ n.digits) :
    isDigit c = true := by
  rcases List.mem_append.mp hc with hc | hc
  · exact hn.whole c hc
  · cases hfraction : n.fraction with
    | none => simp [hfraction] at hc
    | some ds => exact hn.fraction ds hfraction c (by simpa [hfraction] using hc)

/-- A point is no literal. -/
theorem text_ne_point {n : Numeral} (hn : n.IsLiteral) : n.text ≠ ['.'] := by
  intro htext
  obtain ⟨c, cs, hc⟩ := List.exists_cons_of_ne_nil hn.digits_ne
  have hmem : c ∈ n.digits := by simp [hc]
  have htextmem := mem_text_of_mem_digits hmem
  obtain rfl : c = '.' := by simpa [htext] using htextmem
  exact absurd (isDigit_of_mem_digits hn.toHasParts hmem) (by decide)

/-- A literal in a run has two marks at most. -/
theorem length_marks_le {n : Numeral} (hn : n.HasParts) (hrun : IsRun n.text) :
    (marks n.text).length ≤ 2 := by
  have hsign := sign_eq_none_of_isRun hn hrun
  rw [marks_text hn]
  cases hexponent : n.exponent with
  | none => cases n.fraction <;> simp
  | some x => cases n.fraction <;> simp [hsign x hexponent]

/-- The marks of a literal in a run, if there are two. -/
theorem marks_eq_pair {n : Numeral} (hn : n.IsLiteral) (hrun : IsRun n.text) {as bs : List Char}
    (has : as ≠ []) (hbs : bs ≠ []) (hmarks : marks n.text = as ++ bs) :
    ∃ ds x, n.fraction = some ds ∧ n.exponent = some x ∧ x.sign = none ∧ as = ['.'] ∧
      bs = [x.mark] := by
  have hsign := sign_eq_none_of_isRun hn.toHasParts hrun
  rw [marks_text hn.toHasParts] at hmarks
  have hlength := congrArg List.length hmarks
  have has' := List.length_pos_iff.mpr has
  have hbs' := List.length_pos_iff.mpr hbs
  rw [List.length_append, List.length_append] at hlength
  cases hfraction : n.fraction with
  | none =>
    cases hexponent : n.exponent with
    | none =>
      simp only [hfraction, hexponent, Option.elim_none, List.length_nil] at hlength
      omega
    | some x =>
      simp only [hfraction, hexponent, hsign x hexponent, Option.elim_none, Option.elim_some,
        List.length_nil, List.length_cons, Option.toList_none] at hlength
      omega
  | some ds =>
    cases hexponent : n.exponent with
    | none =>
      simp only [hfraction, hexponent, Option.elim_none, Option.elim_some, List.length_nil,
        List.length_cons] at hlength
      omega
    | some x =>
      simp only [hfraction, hexponent, hsign x hexponent, Option.elim_some, Option.toList_none,
        List.singleton_append] at hmarks
      obtain ⟨a, as, rfl⟩ := List.exists_cons_of_ne_nil has
      obtain ⟨rfl, hrest⟩ := List.cons.inj hmarks
      obtain ⟨rfl, rfl⟩ | ⟨rfl, h⟩ := List.append_eq_singleton_iff.mp hrest.symm
      · exact ⟨ds, x, rfl, rfl, hsign x hexponent, rfl, rfl⟩
      · exact absurd h hbs

/-- The token with the mark of an exponent is a word. -/
theorem exists_word_of_withPoint {u : Token} (hu : u.IsPlain) (hutext : u.isText = true)
    {cs ds : List Char} {e : Char} (he : e = 'e' ∨ e = 'E') (hcs : ∀ c ∈ cs, isDigit c = true)
    (hds : ∀ d ∈ ds, isDigit d = true) (h : withPoint u = cs ++ e :: ds) :
    u = .word (cs ++ e :: ds) := by
  cases u with
  | word w => exact congrArg Token.word h
  | number n | other c =>
    obtain ⟨c, hc, hmark⟩ := (isNumeric_withPoint hutext rfl hu.isArithmetic.1).marked
    have hmarks : ∀ d ∈ ".n".toList, isDigit d = false ∧ d ≠ 'e' ∧ d ≠ 'E' :=
      forall_mem_of_all (by decide)
    obtain ⟨hdigit, hlower, hupper⟩ := hmarks c hmark
    rw [h] at hc
    rcases List.mem_append.mp hc with hc | hc
    · rw [hcs c hc] at hdigit
      cases hdigit
    · rcases List.mem_cons.mp hc with rfl | hc
      · exact absurd he (not_or.mpr ⟨hlower, hupper⟩)
      · rw [hds c hc] at hdigit
        cases hdigit

/-- Where the text of a literal is two runs, it is cut between its point and its exponent. -/
theorem exists_cut_of_text {n : Numeral} (hn : n.IsLiteral) {first second : List Char}
    (hfirst : IsRun first) (hsecond : IsRun second) (htext : n.text = first ++ second) :
    ∃ bs cs x, n.fraction = some (bs ++ cs) ∧ n.exponent = some x ∧ x.sign = none ∧
      first = n.whole ++ '.' :: bs ∧ second = cs ++ x.mark :: x.digits := by
  obtain ⟨fs, x, hfraction, hexponent, hsign, hmarks, hmarks'⟩ := marks_eq_pair hn
    (htext ▸ hfirst.append hsecond) hfirst.marks_ne_nil hsecond.marks_ne_nil
    (by rw [htext, marks_append])
  obtain ⟨as, bs, rfl, has, hbs⟩ := eq_append_cons_of_marks hmarks
  obtain ⟨cs, ds, rfl, hcs, hds⟩ := eq_append_cons_of_marks hmarks'
  have hx := hn.exponent x hexponent
  have hfs := hn.fraction fs hfraction
  have hnotmem {c : Char} {es : List Char} (hc : isDigit c = false)
      (hes : ∀ e ∈ es, isDigit e = true) : c ∉ es := fun h => by
    rw [hes c h] at hc
    cases hc
  have hmark := Numeral.not_isDigit_of_mark hx
  have hpoint : '.' ∉ fs ++ x.mark :: x.digits := by
    have hne : '.' ≠ x.mark := by rcases hx.mark with h | h <;> rw [h] <;> decide
    simp [hne, hnotmem (c := '.') (by decide) hfs, hnotmem (c := '.') (by decide) hx.digits]
  have hcut : n.whole ++ '.' :: (fs ++ x.mark :: x.digits) =
      as ++ '.' :: (bs ++ cs ++ x.mark :: ds) := by
    rw [Numeral.text, hfraction, hexponent, Option.elim_some, Option.elim_some,
      Number.Exponent.text, hsign] at htext
    simpa using htext
  obtain ⟨rfl, -, hrest⟩ := (List.append_cons_inj_of_notMem
    (hnotmem (by decide) hn.whole) hpoint).mp hcut
  obtain ⟨rfl, -, rfl⟩ := (List.append_cons_inj_of_notMem (hnotmem hmark hfs)
    (hnotmem hmark hx.digits)).mp hrest
  exact ⟨bs, cs, x, hfraction, hexponent, hsign, rfl, rfl⟩

/-- Two tokens that are read as one number are a literal and a word that joins it. -/
theorem joins_of_text {n : Numeral} (hn : n.IsLiteral) {t u : Token} (ht : t.IsPlain)
    (hu : u.IsPlain) (httext : t.isText = true) (hutext : u.isText = true)
    (htext : n.text = withPoint t ++ withPoint u) : t.Joins u := by
  obtain ⟨bs, cs, x, hfraction, hexponent, hsign, hfirst, hsecond⟩ := exists_cut_of_text hn
    (isRun_of_isPlain ht httext) (isRun_of_isPlain hu hutext) htext
  have hx := hn.exponent x hexponent
  have hcs : ∀ c ∈ cs, isDigit c = true := fun c hc =>
    hn.fraction _ hfraction c (List.mem_append_right _ hc)
  obtain rfl := exists_word_of_withPoint hu hutext hx.mark hcs hx.digits hsecond
  obtain rfl : cs = [] := by
    -- Otherwise the word would be a literal itself.
    by_contra hne
    have hparts : Numeral.HasParts ⟨cs, none, some x⟩ :=
      ⟨hcs, nofun, fun y hy => Option.some.inj hy ▸ hx⟩
    refine hu.noLiteral _ rfl ⟨cs, none, some x⟩ ⟨hparts, by simpa [Numeral.digits] using hne⟩ ?_
    simp [Numeral.text, Number.Exponent.text, hsign]
  have hpoint : '.' ∈ withPoint t := by simp [hfirst]
  cases t with
  | number m =>
    refine ⟨m, x, rfl, ?_, by simp [Number.Exponent.text, hsign], hx, hsign⟩
    -- Otherwise the literal would be written as the word for infinity, which has no point.
    by_contra hinfinite
    rw [withPoint_number_eq, if_neg hinfinite] at hpoint
    exact absurd hpoint (by decide)
  | word w => exact absurd (ht.letters w rfl '.' hpoint) (by decide)
  | other c =>
    obtain ⟨hwhole, hbs⟩ : n.whole = [] ∧ bs = [] := by
      have hlength := congrArg List.length hfirst
      simp only [withPoint, Token.text, List.length_append, List.length_cons,
        List.length_nil] at hlength
      exact ⟨List.eq_nil_of_length_eq_zero (by omega), List.eq_nil_of_length_eq_zero (by omega)⟩
    exact absurd (by simp [Numeral.digits, hwhole, hfraction, hbs]) hn.digits_ne

theorem isRun_exponent {x : Number.Exponent} (hx : x.IsWritten) (hsign : x.sign = none) :
    IsRun x.text where
  all c hc := by
    have hcases : c = x.mark ∨ c ∈ x.digits := by simpa [Number.Exponent.text, hsign] using hc
    rcases hcases with rfl | hdigit
    · rcases hx.mark with h | h <;> rw [h] <;> decide
    · exact .inl (hx.digits c hdigit)
  marked := by
    refine ⟨x.mark, by simp [Number.Exponent.text], ?_⟩
    rcases hx.mark with h | h <;> rw [h] <;> decide

/-- A literal and a word that joins it are read as one number. -/
theorem exists_readFloat_of_joins {t u : Token} (h : t.Joins u) :
    ∃ x, Number.readFloat (withPoint t ++ withPoint u) = some x := by
  obtain ⟨n, x, rfl, hfinite, rfl, hx, -⟩ := h
  obtain ⟨m, hm, -, htext⟩ := withPoint_number_of_isFinite hfinite
  have hliteral : Numeral.IsLiteral { m with exponent := some x } :=
    { hm with exponent := fun y hy => Option.some.inj hy ▸ hx }
  have hjoined : withPoint (.number n) ++ withPoint (.word x.text) =
      Numeral.text { m with exponent := some x } := by
    rw [htext]
    simp [Numeral.text, hm.exponent_eq, withPoint, Token.text]
  exact ⟨_, by rw [hjoined, readFloat_text hliteral]⟩

/-- A literal and a word that joins it are one constant. -/
theorem exists_ofText_of_joins {t u : Token} (h : t.Joins u) :
    ∃ x, Lexeme.ofText (withPoint t ++ withPoint u) = .constant (.float x) := by
  obtain ⟨x, hread⟩ := exists_readFloat_of_joins h
  have hrun : IsRun (withPoint t ++ withPoint u) := by
    obtain ⟨n, y, rfl, -, rfl, hy, hsign⟩ := h
    exact (isNumeric_withPoint_number n).isRun.append (isRun_exponent hy hsign)
  exact ⟨x, by simp [Lexeme.ofText, ofText?_of_isRun hrun, hread]⟩

/-- The word for infinity is one literal. -/
theorem eq_number_of_eq_inf {ts : List Token} (hts : ∀ t ∈ ts, t.IsPlain ∧ t.isText = true)
    (h : ts.flatMap withPoint = "inf".toList) : ∃ n, ts = [.number n] := by
  cases ts with
  | nil => cases h
  | cons t ts =>
    obtain ⟨⟨ht, htext⟩, hrest⟩ := List.forall_mem_cons.mp hts
    rw [List.flatMap_cons] at h
    have hletters : ∀ c ∈ withPoint t, c ∈ "inf".toList := fun c hc => by
      rw [← h]
      exact List.mem_append_left _ hc
    cases t with
    | number n =>
      rcases withPoint_number n with ⟨m, hm, hpoint, hm'⟩ | hinf
      · obtain ⟨ds, hparts, -⟩ := text_of_isPlain hm hpoint
        exact absurd (hletters '.' (by simp [hm', hparts])) (by decide)
      · rw [hinf] at h
        have hnil : ts.flatMap withPoint = [] := List.append_right_eq_self.mp h
        have hlength := length_le_marks hrest
        rw [hnil] at hlength
        exact ⟨n, by rw [List.eq_nil_of_length_eq_zero (Nat.le_zero.mp hlength)]⟩
    | word w =>
      obtain ⟨c, hc, hdigit⟩ : ∃ c ∈ w, isDigit c = false := ht.isArithmetic.1.2.2
      have hno : ∀ d ∈ "inf".toList, d ≠ 'e' ∧ d ≠ 'E' := forall_mem_of_all (by decide)
      obtain ⟨hlower, hupper⟩ := hno c (hletters c hc)
      rcases ht.letters w rfl c hc with hc | rfl | rfl
      · rw [hdigit] at hc
        cases hc
      · exact absurd rfl hlower
      · exact absurd rfl hupper
    | other c =>
      obtain rfl := eq_point_of_isText htext ht.isArithmetic.1
      exact absurd (hletters '.' (by simp [withPoint, Token.text])) (by decide)

/-- A run that is read as a number is one literal, or a literal and a word that joins it. -/
theorem number_or_joins_of_readFloat {ts : List Token}
    (hts : ∀ t ∈ ts, t.IsPlain ∧ t.isText = true) (hne : ts ≠ [])
    (hread : (Number.readFloat (ts.flatMap withPoint)).isSome = true) :
    (∃ n, ts = [.number n]) ∨ ∃ t u, ts = [t, u] ∧ t.Joins u := by
  have hrun := isRun_flatMap hts hne
  rcases hrun.eq_text_of_readFloat hread with hinf | ⟨n, hn, htext⟩
  · exact .inl (eq_number_of_eq_inf hts hinf)
  have hlength := length_le_marks hts
  rw [← htext] at hrun hlength
  have hlength' := hlength.trans (length_marks_le hn.toHasParts hrun)
  rcases ts with _ | ⟨t, _ | ⟨u, _ | ⟨v, ts⟩⟩⟩
  · exact absurd rfl hne
  · obtain ⟨ht, httext⟩ := hts t (by simp)
    rw [List.flatMap_singleton] at htext
    cases t with
    | number m => exact .inl ⟨m, rfl⟩
    | word w => exact absurd htext (ht.noLiteral w rfl n hn)
    | other c =>
      obtain rfl := eq_point_of_isText httext ht.isArithmetic.1
      exact absurd htext (text_ne_point hn)
  · obtain ⟨ht, httext⟩ := hts t (by simp)
    obtain ⟨hu, hutext⟩ := hts u (by simp)
    exact .inr ⟨t, u, rfl, joins_of_text hn ht hu httext hutext (by simpa using htext)⟩
  · simp only [List.length_cons] at hlength'
    omega

end Scorecard.Formula
