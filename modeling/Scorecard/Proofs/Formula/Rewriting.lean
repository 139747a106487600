import Mathlib.Data.List.Chain
import Scorecard.Proofs.Formula.Visible

/-!
# Cutting a formula whose words have been replaced

When words are replaced by other texts and the formula is cut again, the tokens need not be those
of the parts: a digit that takes the place of `x` in `x.5` becomes part of a literal.  They are
those of the parts where no word stands beside other text.  Only the tokens outside comments have to
stand apart like this, because nothing that replaces a word begins or ends a comment.

* `Token.Apart` relates two neighbours none of which is a word beside text.
* `StaysWhole` is the condition on the text that replaces a word.
* `tokens_rewritten_cons` cuts the part of one token, `visible_rewritten` the whole formula.
-/

namespace Scorecard.Formula

open Number (Numeral isDigit)

/-- The token is a word. -/
def Token.isWord : Token → Bool
  | .word _ => true
  | _ => false

/-- Of two neighbours, neither is a word beside text. -/
def Token.Apart (t u : Token) : Prop :=
  (t.isWord = true → u.isText = false) ∧ (u.isWord = true → t.isText = false)

instance (t u : Token) : Decidable (t.Apart u) := inferInstanceAs (Decidable (_ ∧ _))

/-- The text is cut in the same way in front of any separator, and no comment begins or ends
in it. -/
structure StaysWhole (cs : List Char) : Prop where
  ne_nil : cs ≠ []
  no_comment : ∀ c ∈ cs, c ≠ '/' ∧ c ≠ '*'
  tokens_append : ∀ after, BeginsApart after → tokens (cs ++ after) = tokens cs ++ tokens after

/-! ## Where tokens end -/

/-- The first token and the text behind it. -/
theorem exists_of_tokens_eq_cons {cs : List Char} {t : Token} {ts : List Token}
    (h : tokens cs = t :: ts) :
    ∃ c ds rest, cs = c :: ds ∧ next c ds = (t, rest) ∧ tokens rest = ts := by
  cases cs with
  | nil => simp at h
  | cons c ds =>
    rw [tokens_cons] at h
    obtain ⟨rfl, rfl⟩ := List.cons.inj h
    exact ⟨c, ds, _, rfl, rfl, rfl⟩

theorem next_eq_other {c d : Char} {cs rest : List Char} (h : next c cs = (.other d, rest)) :
    d = c ∧ rest = cs := by
  have htext := next_text c cs
  rw [h] at htext
  simpa [Token.text] using htext

/-- A single character is the first token only where the text begins with it. -/
theorem eq_cons_of_tokens_eq_other {cs : List Char} {d : Char} {ts : List Token}
    (h : tokens cs = .other d :: ts) : ∃ rest, cs = d :: rest ∧ tokens rest = ts := by
  obtain ⟨c, ds, rest, rfl, hnext, hrest⟩ := exists_of_tokens_eq_cons h
  obtain ⟨rfl, rfl⟩ := next_eq_other hnext
  exact ⟨rest, rfl, hrest⟩

/-- The first token begins with the first character. -/
theorem exists_next_text_eq_cons (c : Char) (cs : List Char) :
    ∃ us, (next c cs).1.text = c :: us ∧ us ++ (next c cs).2 = cs := by
  have htext := next_text c cs
  cases hparts : (next c cs).1.text with
  | nil =>
    have hlength := next_length c cs
    rw [hparts, List.nil_append] at htext
    rw [htext, List.length_cons] at hlength
    omega
  | cons d us =>
    rw [hparts] at htext
    obtain ⟨rfl, hrest⟩ := List.cons.inj htext
    exact ⟨us, rfl, hrest⟩

/-- A text that begins with a letter begins with a word. -/
theorem next_word_of_letter {c : Char} (hword : isWordChar c = true) (hdigit : isDigit c = false)
    (cs : List Char) :
    next c cs = (.word (c :: cs.takeWhile isWordChar), cs.dropWhile isWordChar) := by
  have hpoint : c ≠ '.' := by
    rintro rfl
    exact absurd hword (by decide)
  simp [next, hpoint, hword, hdigit]

/-- A number is what the scanner finds. -/
theorem scan_of_next {c : Char} {cs rest : List Char} {n : Numeral}
    (h : next c cs = (.number n, rest)) : Numeral.scan (c :: cs) = (n, rest) := by
  unfold next at h
  grind

/-- A literal ends where no word follows. -/
theorem endsLiteral_of_next {c : Char} {cs rest : List Char} {n : Numeral}
    (h : next c cs = (.number n, rest)) (hrest : ∀ u ∈ (tokens rest).head?, u.isWord = false) :
    EndsLiteral n rest := by
  have hscan := scan_of_next h
  intro d hd
  have hstop := Numeral.scan_rest (c :: cs)
  rw [hscan] at hstop
  refine ⟨?_, (hstop d hd).2⟩
  cases hword : isWordChar d with
  | false => rfl
  | true =>
    obtain ⟨ds, rfl⟩ := List.head?_eq_some_iff.mp hd
    have hnext := next_word_of_letter hword (hstop d hd).1 ds
    have hnot := hrest _ (by rw [tokens_cons, hnext]; rfl)
    exact absurd hnot (by simp [Token.isWord])

/-- A point alone is followed by no digit. -/
theorem head?_of_next_point {cs : List Char} (h : (next '.' cs).1 = .other '.') :
    cs.head?.any isDigit = false := by
  unfold next at h
  grind

theorem tokens_point_append {cs : List Char} (h : cs.head?.any isDigit = false) :
    tokens ('.' :: cs) = .other '.' :: tokens cs := by
  have hnext : next '.' cs = (.other '.', cs) := by simp [next, h]
  rw [tokens_cons, hnext]

theorem separates_of_isText {d : Char} (h : (Token.other d).isText = false) :
    separates d = true := by
  simp only [Token.isText, isTextChar, Bool.or_eq_false_iff, beq_eq_false_iff_ne] at h
  simp [separates, h.1, h.2]

/-! ## The text of one token -/

section

variable {f : Token → List Char}

/-- In front of a token that is no word, the replaced text begins as the text did. -/
theorem head?_rewritten (hf : ∀ t : Token, t.isWord = false → f t = t.text) {cs : List Char}
    (hcs : ∀ u ∈ (tokens cs).head?, u.isWord = false) :
    ((tokens cs).flatMap f).head? = cs.head? := by
  cases cs with
  | nil => simp
  | cons c ds =>
    have hword := hcs (next c ds).1 (by rw [tokens_cons]; rfl)
    obtain ⟨us, htext, -⟩ := exists_next_text_eq_cons c ds
    rw [tokens_cons, List.flatMap_cons, hf _ hword, htext]
    rfl

/-- Behind a word, the replaced text begins with a separator. -/
theorem beginsApart_rewritten (hf : ∀ t : Token, t.isWord = false → f t = t.text) {cs : List Char}
    (hcs : ∀ u ∈ (tokens cs).head?, u.isText = false) : BeginsApart ((tokens cs).flatMap f) := by
  cases hts : tokens cs with
  | nil => simp
  | cons u us =>
    have htext := hcs u (by simp [hts])
    cases u with
    | other d =>
      rw [List.flatMap_cons, hf _ rfl]
      simpa [Token.text] using separates_of_isText htext
    | number n => exact absurd htext (by simp [Token.isText])
    | word w => exact absurd htext (by simp [Token.isText])

/-- A replaced text is cut at the end of the first token, if this stands apart from the second. -/
theorem tokens_rewritten_cons (hf : ∀ t : Token, t.isWord = false → f t = t.text) {c : Char}
    {cs rest : List Char} {t : Token} (h : next c cs = (t, rest))
    (hwhole : ∀ w, t = .word w → StaysWhole (f t))
    (hapart : ∀ u ∈ (tokens rest).head?, t.Apart u) :
    tokens (f t ++ (tokens rest).flatMap f) =
      tokens (f t) ++ tokens ((tokens rest).flatMap f) := by
  cases t with
  | word w =>
    exact (hwhole w rfl).tokens_append _ (beginsApart_rewritten hf fun u hu => (hapart u hu).1 rfl)
  | number n =>
    have hnone : ∀ u ∈ (tokens rest).head?, u.isWord = false := by
      intro u hu
      by_contra hword
      exact absurd ((hapart u hu).2 (by simpa using hword)) (by simp [Token.isText])
    have hcut : n.IsLiteral := by
      have hcut := next_isCut c cs
      rwa [h] at hcut
    have hends := endsLiteral_of_next h hnone
    have hends' : EndsLiteral n ((tokens rest).flatMap f) := by
      intro d hd
      rw [head?_rewritten hf hnone] at hd
      exact hends d hd
    have hself := tokens_number_append hcut (endsLiteral_of_beginsApart n beginsApart_nil)
    rw [List.append_nil, tokens_nil] at hself
    rw [hf _ rfl, Token.text, tokens_number_append hcut hends', hself]
    rfl
  | other d =>
    obtain ⟨rfl, rfl⟩ := next_eq_other h
    rw [hf _ rfl, Token.text]
    by_cases hpoint : d = '.'
    · subst hpoint
      have hnone : ∀ u ∈ (tokens rest).head?, u.isWord = false := by
        intro u hu
        by_contra hword
        exact absurd ((hapart u hu).2 (by simpa using hword)) (by decide)
      have hdigit : rest.head?.any isDigit = false := head?_of_next_point (by rw [h])
      have hdigit' : ((tokens rest).flatMap f).head?.any isDigit = false := by
        rwa [head?_rewritten hf hnone]
      rw [List.singleton_append, tokens_point_append hdigit', tokens_point_append rfl, tokens_nil]
      rfl
    · have hcut : isWordChar d = false := by
        have hcut := next_isCut d rest
        rwa [h] at hcut
      have hsep : separates d = true := by simp [separates, hcut, hpoint]
      rw [List.singleton_append, tokens_separator hsep, tokens_separator hsep, tokens_nil]
      rfl

/-- The replaced text begins with a comment mark only where the text did. -/
theorem head?_tokens_rewritten (hf : ∀ t : Token, t.isWord = false → f t = t.text)
    {cs : List Char} (hwhole : ∀ w, .word w ∈ tokens cs → StaysWhole (f (.word w))) {d : Char}
    (hd : d = '/' ∨ d = '*')
    (h : (tokens ((tokens cs).flatMap f)).head? = some (.other d)) :
    (tokens cs).head? = some (.other d) := by
  obtain ⟨ts, hts⟩ := List.head?_eq_some_iff.mp h
  obtain ⟨rest, hrest, -⟩ := eq_cons_of_tokens_eq_other hts
  have hsep : separates d = true := by rcases hd with rfl | rfl <;> decide
  have hhead : (tokens cs).head?.any Token.isWord = false := by
    cases hcs : tokens cs with
    | nil => rfl
    | cons u us =>
      cases u with
      | word w =>
        have hw := hwhole w (by simp [hcs])
        obtain ⟨a, as, ha⟩ := List.exists_cons_of_ne_nil hw.ne_nil
        rw [hcs, List.flatMap_cons, ha, List.cons_append] at hrest
        obtain ⟨rfl, -⟩ := List.cons.inj hrest
        have hno := hw.no_comment a (by simp [ha])
        exact (hd.elim hno.1 hno.2).elim
      | _ => rfl
  have hnone : ∀ u ∈ (tokens cs).head?, u.isWord = false := by
    intro u hu
    simpa [Option.mem_def.mp hu] using hhead
  have hcs := head?_rewritten hf hnone
  rw [hrest] at hcs
  obtain ⟨es, rfl⟩ := List.head?_eq_some_iff.mp hcs.symm
  rw [tokens_separator hsep]
  rfl

end

/-! ## Comments -/

/-- The characters of a numeral. -/
theorem mem_text_cases {n : Numeral} (hn : n.HasParts) {c : Char} (hc : c ∈ n.text) :
    isDigit c = true ∨ c ∈ ".eE+-".toList := by
  simp only [Numeral.text, List.mem_append, or_assoc] at hc
  rcases hc with hc | hc | hc
  · exact .inl (hn.whole c hc)
  · cases hfraction : n.fraction with
    | none => simp [hfraction] at hc
    | some ds =>
      rw [hfraction, Option.elim_some] at hc
      rcases List.mem_cons.mp hc with rfl | hc
      · exact .inr (by decide)
      · exact .inl (hn.fraction ds hfraction c hc)
  · cases hexponent : n.exponent with
    | none => simp [hexponent] at hc
    | some x =>
      have hx := hn.exponent x hexponent
      simp only [hexponent, Option.elim_some, Number.Exponent.text, List.mem_append,
        List.mem_cons, Option.mem_toList] at hc
      rcases hc with (rfl | hc) | hc
      · rcases hx.mark with h | h <;> rw [h] <;> exact .inr (by decide)
      · rcases hx.sign c hc with rfl | rfl <;> exact .inr (by decide)
      · exact .inl (hx.digits c hc)

/-- No comment mark stands in a numeral. -/
theorem ne_of_mem_text {n : Numeral} (hn : n.HasParts) {c : Char} (hc : c ∈ n.text) :
    c ≠ '/' ∧ c ≠ '*' := by
  rcases mem_text_cases hn hc with h | h
  · constructor <;> rintro rfl <;> exact absurd h (by decide)
  · have hmarks : ∀ d ∈ ".eE+-".toList, d ≠ '/' ∧ d ≠ '*' :=
      forall_mem_of_all (by decide)
    exact hmarks c h

/-- Only the first character of a token can be a comment mark. -/
theorem ne_of_mem_tail {t : Token} (ht : t.IsCut) {c d : Char} {cs : List Char}
    (htext : t.text = c :: cs) (hd : d ∈ cs) : d ≠ '/' ∧ d ≠ '*' := by
  have hmem : d ∈ t.text := by simp [htext, hd]
  cases t with
  | number n => exact ne_of_mem_text ht.toHasParts hmem
  | word w =>
    have hword : isWordChar d = true := ht.2.1 d hmem
    constructor <;> rintro rfl <;> exact absurd hword (by decide)
  | other e =>
    obtain ⟨-, rfl⟩ := List.cons.inj htext
    simp at hd

/-- What depends only on where a comment mark stands passes over a text without that mark. -/
theorem passes_over {α : Type} {mark : Char} (hmark : mark = '/' ∨ mark = '*')
    {read : List Token → α} (hread : ∀ t ts, t ≠ .other mark → read (t :: ts) = read ts)
    {cs : List Char} (h : ∀ c ∈ cs, c ≠ mark) (after : List Char) :
    read (tokens (cs ++ after)) = read (tokens after) := by
  induction hlength : (cs ++ after).length using Nat.strongRecOn generalizing cs after with
  | ind k ih =>
    cases cs with
    | nil => rfl
    | cons c cs =>
      obtain ⟨us, htext, hrest⟩ := exists_next_text_eq_cons c (cs ++ after)
      have hother : (next c (cs ++ after)).1 ≠ .other mark := by
        intro hother
        rw [hother] at htext
        exact h c (by simp) (List.cons.inj htext).1.symm
      have htail : ∀ d ∈ us, d ≠ mark := by
        intro d hd
        have hne := ne_of_mem_tail (next_isCut _ _) htext hd
        rcases hmark with rfl | rfl
        · exact hne.1
        · exact hne.2
      rw [List.cons_append, tokens_cons, hread _ _ hother]
      rw [List.cons_append, List.length_cons] at hlength
      generalize (next c (cs ++ after)).2 = rest at hrest
      -- The token ends within the text, or behind its end.
      rcases List.append_eq_append_iff.mp hrest with ⟨vs, rfl, rfl⟩ | ⟨vs, rfl, rfl⟩
      · have hlt : (vs ++ after).length < k := by
          simp only [List.length_append] at hlength ⊢
          omega
        exact ih _ hlt (fun d hd => h d (by simp [hd])) after rfl
      · have hlt : (vs ++ rest).length < k := by
          simp only [List.length_append] at hlength ⊢
          omega
        exact (ih _ hlt (fun d hd => htail d (by simp [hd])) rest rfl).symm

theorem visible_true_cons {t : Token} {ts : List Token}
    (h : t = .other '*' → ts.head? ≠ some (.other '/')) :
    visible true (t :: ts) = visible true ts := by
  rw [visible]
  rintro rest rfl rfl
  exact h rfl rfl

theorem visible_false_cons {t : Token} {ts : List Token}
    (h : t = .other '/' → ∀ d, d = '/' ∨ d = '*' → ts.head? ≠ some (.other d)) :
    visible false (t :: ts) = (visible false ts).map (t :: ·) := by
  rw [visible]
  · rintro rest rfl rfl
    exact h rfl '/' (.inl rfl) rfl
  · rintro rest rfl rfl
    exact h rfl '*' (.inr rfl) rfl

/-- Tokens that begin no comment are all outside comments. -/
theorem visible_append {ts : List Token} (h : ∀ t ∈ ts, t ≠ .other '/') (us : List Token) :
    visible false (ts ++ us) = (visible false us).map (ts ++ ·) := by
  induction ts with
  | nil => simp
  | cons t ts ih =>
    rw [List.cons_append, visible_false_cons fun hslash => absurd hslash (h t (by simp)),
      ih fun u hu => h u (by simp [hu])]
    cases visible false us <;> rfl

/-- A token stands apart from the next one if it does from the next one outside comments. -/
theorem apart_of_visible {t : Token} {ts vs : List Token} (h : visible false ts = some vs)
    (hapart : (t :: vs).IsChain Token.Apart) : ∀ u ∈ ts.head?, t.Apart u := by
  intro u hu
  obtain ⟨us, rfl⟩ := List.head?_eq_some_iff.mp hu
  by_cases hslash : u = .other '/'
  · subst hslash
    exact ⟨fun _ => rfl, fun hword => absurd hword (by decide)⟩
  · rw [visible_false_cons fun h => absurd h hslash] at h
    obtain ⟨rest, -, rfl⟩ := Option.map_eq_some_iff.mp h
    exact (List.isChain_cons_cons.mp hapart).1

/-! ## Formulas -/

section

variable {f : Token → List Char} (hf : ∀ t : Token, t.isWord = false → f t = t.text)

include hf

/-- The text of a token holds no comment mark, unless it is one. -/
theorem ne_of_mem_rewritten {t : Token} (ht : t.IsCut)
    (hwhole : ∀ w, t = .word w → StaysWhole (f t)) {mark : Char} (hmark : mark = '/' ∨ mark = '*')
    (hne : t ≠ .other mark) {c : Char} (hc : c ∈ f t) : c ≠ mark := by
  have hboth : c ≠ '/' ∧ c ≠ '*' → c ≠ mark := by
    rintro ⟨hslash, hstar⟩
    rcases hmark with rfl | rfl
    · exact hslash
    · exact hstar
  cases t with
  | number n =>
    rw [hf _ rfl] at hc
    exact hboth (ne_of_mem_text ht.toHasParts hc)
  | word w => exact hboth ((hwhole w rfl).no_comment c hc)
  | other d =>
    rw [hf _ rfl] at hc
    obtain rfl : c = d := by simpa [Token.text] using hc
    rintro rfl
    exact hne rfl

/-- A separator is never replaced. -/
theorem tokens_separator_rewritten {c : Char} (hc : separates c = true) (after : List Char) :
    tokens (f (.other c) ++ after) = .other c :: tokens after := by
  rw [hf _ rfl, Token.text, List.singleton_append, tokens_separator hc]

/-- In a comment, the text that replaces a token is passed over. -/
theorem visible_true_rewritten_cons {cs : List Char} {t : Token} (ht : t.IsCut)
    (hwhole : ∀ w, .word w ∈ t :: tokens cs → StaysWhole (f (.word w)))
    (hend : t = .other '*' → (tokens cs).head? ≠ some (.other '/')) :
    visible true (tokens (f t ++ (tokens cs).flatMap f)) =
      visible true (tokens ((tokens cs).flatMap f)) := by
  by_cases hstar : t = .other '*'
  · subst hstar
    rw [tokens_separator_rewritten hf (by decide)]
    refine visible_true_cons fun _ hhead => hend rfl ?_
    exact head?_tokens_rewritten hf (fun w hw => hwhole w (by simp [hw])) (.inl rfl) hhead
  · have hfirst : ∀ w, t = .word w → StaysWhole (f t) := by
      rintro w rfl
      exact hwhole w (by simp)
    refine passes_over (.inr rfl) (fun u us hu => visible_true_cons fun h => absurd h hu) ?_ _
    exact fun c hc => ne_of_mem_rewritten hf ht hfirst (.inr rfl) hstar hc

/-- A slash that begins no comment does not begin one when words are replaced. -/
theorem visible_slash_rewritten {cs : List Char}
    (hwhole : ∀ w, .word w ∈ tokens cs → StaysWhole (f (.word w)))
    (hcomment : ∀ d, d = '/' ∨ d = '*' → (tokens cs).head? ≠ some (.other d)) :
    visible false (tokens (f (.other '/') ++ (tokens cs).flatMap f)) =
      (visible false (tokens ((tokens cs).flatMap f))).map (.other '/' :: ·) := by
  rw [tokens_separator_rewritten hf (by decide)]
  refine visible_false_cons fun _ d hd hhead => hcomment d hd ?_
  exact head?_tokens_rewritten hf hwhole hd hhead

/-- The part of one token outside comments. -/
theorem visible_false_rewritten_cons {c : Char} {cs rest : List Char} {t : Token}
    (h : next c cs = (t, rest))
    (hwhole : ∀ w, .word w ∈ t :: tokens rest → StaysWhole (f (.word w)))
    (hcomment : t = .other '/' → ∀ d, d = '/' ∨ d = '*' →
      (tokens rest).head? ≠ some (.other d))
    (hapart : ∀ u ∈ (tokens rest).head?, t.Apart u) :
    visible false (tokens (f t ++ (tokens rest).flatMap f)) =
      (visible false (tokens ((tokens rest).flatMap f))).map (tokens (f t) ++ ·) := by
  have hfirst : ∀ w, t = .word w → StaysWhole (f t) := by
    rintro w rfl
    exact hwhole w (by simp)
  by_cases hslash : t = .other '/'
  · subst hslash
    rw [visible_slash_rewritten hf (fun w hw => hwhole w (by simp [hw])) (hcomment rfl),
      hf _ rfl, Token.text, tokens_separator (by decide), tokens_nil]
    rfl
  · have hcut : t.IsCut := by
      have hcut := next_isCut c cs
      rwa [h] at hcut
    rw [tokens_rewritten_cons hf h hfirst hapart]
    refine visible_append (fun u hu => ?_) _
    rintro rfl
    exact ne_of_mem_rewritten hf hcut hfirst (.inl rfl) hslash (mem_of_other_mem_tokens hu) rfl

/-- A token outside comments does not hide that a comment is left open. -/
theorem visible_false_rewritten_none {cs : List Char} {t : Token} (ht : t.IsCut)
    (hwhole : ∀ w, .word w ∈ t :: tokens cs → StaysWhole (f (.word w)))
    (hcomment : t = .other '/' → ∀ d, d = '/' ∨ d = '*' → (tokens cs).head? ≠ some (.other d))
    (h : visible false (tokens ((tokens cs).flatMap f)) = none) :
    visible false (tokens (f t ++ (tokens cs).flatMap f)) = none := by
  by_cases hslash : t = .other '/'
  · subst hslash
    rw [visible_slash_rewritten hf (fun w hw => hwhole w (by simp [hw])) (hcomment rfl), h]
    rfl
  · have hfirst : ∀ w, t = .word w → StaysWhole (f t) := by
      rintro w rfl
      exact hwhole w (by simp)
    have hread : ∀ (u : Token) us, u ≠ .other '/' →
        (visible false (u :: us)).isNone = (visible false us).isNone := by
      intro u us hu
      rw [visible_false_cons fun h => absurd h hu, Option.isNone_map]
    have hno : ∀ c ∈ f t, c ≠ '/' := fun c hc =>
      ne_of_mem_rewritten hf ht hfirst (.inl rfl) hslash hc
    have hpass := @passes_over Bool '/' (.inl rfl) (fun ts => (visible false ts).isNone) hread _ hno
      ((tokens cs).flatMap f)
    simpa [h] using hpass

/-- Of a formula whose words have been replaced, the tokens outside comments are those of the parts,
if its words stand apart there. -/
theorem visible_rewritten {inside : Bool} {cs : List Char}
    (hwhole : ∀ w, .word w ∈ tokens cs → StaysWhole (f (.word w)))
    (hapart : ∀ vs, visible inside (tokens cs) = some vs → vs.IsChain Token.Apart) :
    visible inside (tokens ((tokens cs).flatMap f)) =
      (visible inside (tokens cs)).map (·.flatMap fun t => tokens (f t)) := by
  generalize hts : tokens cs = ts at hapart hwhole ⊢
  fun_induction visible inside ts generalizing cs with
  | case1 => simp [visible]
  | case2 ts =>
    rw [List.flatMap_cons, List.flatMap_cons, tokens_separator_rewritten hf (by decide),
      tokens_separator_rewritten hf (by decide)]
    rfl
  | case3 ts ih | case6 ts ih =>
    obtain ⟨cs, -, hts⟩ := eq_cons_of_tokens_eq_other hts
    obtain ⟨cs, -, rfl⟩ := eq_cons_of_tokens_eq_other hts
    have hrest := ih rfl hapart fun w hw => hwhole w (by simp [hw])
    rw [List.flatMap_cons, List.flatMap_cons, tokens_separator_rewritten hf (by decide),
      tokens_separator_rewritten hf (by decide)]
    exact hrest
  | case4 t ts hline hblock ih =>
    obtain ⟨c, ds, cs, -, hnext, rfl⟩ := exists_of_tokens_eq_cons hts
    have hcomment : t = .other '/' → ∀ d, d = '/' ∨ d = '*' →
        (tokens cs).head? ≠ some (.other d) := by
      rintro rfl d hd hhead
      obtain ⟨rest, hrest⟩ := List.head?_eq_some_iff.mp hhead
      rcases hd with rfl | rfl
      · exact hline rest rfl hrest
      · exact hblock rest rfl hrest
    rw [List.flatMap_cons]
    cases hvs : visible false (tokens cs) with
    | none =>
      have hcut : t.IsCut := isCut_of_mem_tokens (hts ▸ List.mem_cons_self)
      have hrest := ih rfl (by simp [hvs]) fun w hw => hwhole w (by simp [hw])
      exact visible_false_rewritten_none hf hcut hwhole hcomment (by rw [hrest, hvs]; rfl)
    | some vs =>
      have hchain := hapart (t :: vs) (by rw [hvs]; rfl)
      have htail : ∀ us, visible false (tokens cs) = some us → us.IsChain Token.Apart := by
        intro us hus
        obtain rfl : vs = us := by simpa [hvs] using hus
        exact hchain.tail
      have hrest := ih rfl htail fun w hw => hwhole w (by simp [hw])
      have hfront : next c ds = (t, cs) := hnext
      rw [visible_false_rewritten_cons hf hfront hwhole hcomment (apart_of_visible hvs hchain),
        hrest, hvs]
      simp
  | case5 => simp [visible]
  | case7 t ts hend ih =>
    obtain ⟨c, ds, cs, -, hnext, rfl⟩ := exists_of_tokens_eq_cons hts
    have hcut : t.IsCut := isCut_of_mem_tokens (hts ▸ List.mem_cons_self)
    rw [List.flatMap_cons, visible_true_rewritten_cons hf hcut hwhole fun hstar hhead => ?_]
    · exact ih rfl hapart fun w hw => hwhole w (by simp [hw])
    · obtain ⟨rest, hrest⟩ := List.head?_eq_some_iff.mp hhead
      exact hend rest hstar hrest

end

end Scorecard.Formula
