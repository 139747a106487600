import Mathlib.Data.List.Basic
import Scorecard.Equation
import Scorecard.Proofs.Text.LowerCase

/-!
# Title case

A title is its text with the case of every character changed by where the character stands: at the
start of a word to upper case, elsewhere to lower case (`toList_titleCase`).

* `KeepsCase` says of a text that this changes the case of ASCII letters only, and
  `asciiLowered_titledFrom_iff` that such texts, and no others, are their titles when the case of
  ASCII letters does not matter.
* Upper case makes capitals of ASCII only at the start of a word, unless a letter such as `ß` grows
  (`growsCapital`).  Without such letters a title is known by its letters, ASCII case aside
  (`titledFrom_eq_of_asciiLowered_eq`).
-/

namespace Scorecard.Text

/-- A character in the case that it has in a title. -/
def cased (start : Bool) (c : Char) : List Char := if start then upperChar c else lowerChar c

/-- A text in title case that begins at the start of a word or inside one. -/
def titledFrom (start : Bool) : List Char → List Char
  | [] => []
  | c :: cs => cased start c ++ titledFrom (c = ' ') cs

theorem cased_space (start : Bool) : cased start ' ' = [' '] := by cases start <;> decide +kernel

/-- A word in title case, or what is left of it behind its first character. -/
def titledWord (start : Bool) : List Char → List Char
  | [] => []
  | c :: cs => cased start c ++ cs.flatMap lowerChar

theorem titledFrom_eq_titledWord (start : Bool) {cs word : List Char} {words : List (List Char)}
    (h : splitAt ' ' cs = word :: words) : titledFrom start cs =
      titledWord start word ++ words.flatMap fun w => ' ' :: titledWord true w := by
  induction cs generalizing start word words with
  | nil =>
    obtain ⟨rfl, rfl⟩ : [] = word ∧ [] = words := by simpa [splitAt] using h
    rfl
  | cons c cs ih =>
    obtain ⟨next, rest, hsplit⟩ := List.exists_cons_of_ne_nil (splitAt_ne_nil ' ' cs)
    by_cases hc : c = ' '
    · subst hc
      obtain ⟨rfl, rfl⟩ : [] = word ∧ next :: rest = words := by simpa [splitAt, hsplit] using h
      rw [titledFrom, cased_space, decide_eq_true rfl, ih true hsplit]
      rfl
    · obtain ⟨rfl, rfl⟩ : c :: next = word ∧ rest = words := by
        simpa [splitAt, hc, hsplit] using h
      rw [titledFrom, decide_eq_false hc, ih false hsplit, titledWord, List.append_assoc]
      cases next <;> rfl

theorem toList_join_cons (mark s : String) (ss : List String) :
    (join mark (s :: ss)).toList = s.toList ++ ss.flatMap fun t => mark.toList ++ t.toList := by
  induction ss generalizing s with
  | nil => simp [join]
  | cons t ss ih =>
    rw [List.flatMap_cons, List.append_assoc, ← ih t]
    simp [join, String.intercalate_cons_cons, List.append_assoc]

/-- A title is made word by word. -/
theorem titleCase_eq (name : String) : titleCase name =
    join " " ((splitAt ' ' name.toList).map fun word => String.ofList (titledWord true word)) := by
  unfold titleCase
  congr 2
  funext word
  cases word <;> rfl

/-- A title in terms of its characters. -/
theorem toList_titleCase (name : String) :
    (titleCase name).toList = titledFrom true name.toList := by
  obtain ⟨word, words, hsplit⟩ := List.exists_cons_of_ne_nil (splitAt_ne_nil ' ' name.toList)
  rw [titleCase_eq, titledFrom_eq_titledWord true hsplit, hsplit, List.map_cons, toList_join_cons,
    List.flatMap_map]
  simp

/-! ## Single characters -/

/-- No upper case in the table is among the letters a to z or a space. -/
theorem target_of_mem_upperRuns : ∀ run ∈ upperRuns, 32 < run.target ∧
    (run.target + (run.last - run.first) < 97 ∨ 122 < run.target) := by decide +kernel

theorem codes_of_mem_upperExpansions : ∀ expansion ∈ upperExpansions,
    128 ≤ expansion.1 ∧ expansion.2 ≠ [] ∧ expansion.2.head? ≠ some expansion.1 ∧
      ∀ code ∈ expansion.2, code.isValidChar ∧ code ≠ 32 ∧ (code < 97 ∨ 122 < code) := by
  decide +kernel

theorem mapRuns_upperRuns_of_ascii {code : Nat} (h : code < 128) :
    mapRuns upperRuns code = CaseRun.map? ⟨0x61, 0x7A, 1, 0x41⟩ code := by
  have hlater : ∀ run ∈ upperRuns.tail, 128 ≤ run.first := by decide +kernel
  exact mapRuns_of_ascii hlater h

/-- The letters a to z have an upper case. -/
theorem isSome_mapRuns_upperRuns (n : Nat) (hfirst : 97 ≤ n) (hlast : n ≤ 122) :
    (mapRuns upperRuns n).isSome := by
  rw [mapRuns_upperRuns_of_ascii (by omega), CaseRun.map?, if_pos ⟨hfirst, hlast, Nat.mod_one _⟩]
  rfl

theorem toNat_ofNat_of_isValidChar {n : Nat} (h : n.isValidChar) : (Char.ofNat n).toNat = n := by
  rw [Char.ofNat, dif_pos h]
  rfl

/-- The upper case of a character: several characters from the table, one from the table, or the
character itself. -/
theorem upperChar_cases (c : Char) :
    (∃ codes, (c.toNat, codes) ∈ upperExpansions ∧ upperChar c = codes.map Char.ofNat) ∨
      (∃ code, mapRuns upperRuns c.toNat = some code ∧ upperChar c = [Char.ofNat code]) ∨
      (mapRuns upperRuns c.toNat = none ∧ upperChar c = [c]) := by
  unfold upperChar
  cases hlookup : upperExpansions.lookup c.toNat with
  | some codes =>
    obtain ⟨before, after, htable, -⟩ := List.lookup_eq_some_iff.mp hlookup
    exact .inl ⟨codes, by simp [htable], rfl⟩
  | none =>
    cases hrun : mapRuns upperRuns c.toNat with
    | some code => exact .inr (.inl ⟨code, rfl, rfl⟩)
    | none => exact .inr (.inr ⟨rfl, rfl⟩)

theorem of_mapRuns_upperRuns {code image : Nat} (h : mapRuns upperRuns code = some image) :
    32 < image ∧ (image < 97 ∨ 122 < image) := by
  obtain ⟨run, hrun, himage⟩ := List.exists_of_findSome?_eq_some h
  have htarget := target_of_mem_upperRuns run hrun
  unfold CaseRun.map? at himage
  split at himage
  · next hcode =>
    have hsum : run.target + (code - run.first) = image := by simpa using himage
    omega
  · simp at himage

/-- Upper case leaves none of the letters a to z, and makes no space. -/
theorem of_mem_upperChar {c d : Char} (h : d ∈ upperChar c) :
    (d = ' ' → c = ' ') ∧ ¬ (97 ≤ d.toNat ∧ d.toNat ≤ 122) := by
  rcases upperChar_cases c with ⟨codes, hmem, heq⟩ | ⟨code, hcode, heq⟩ | ⟨hnone, heq⟩
  · rw [heq] at h
    obtain ⟨code, hcode, rfl⟩ := List.mem_map.mp h
    obtain ⟨hvalid, hspace, hletter⟩ := (codes_of_mem_upperExpansions _ hmem).2.2.2 code hcode
    have htoNat := toNat_ofNat_of_isValidChar hvalid
    refine ⟨fun hd => ?_, by omega⟩
    rw [hd] at htoNat
    exact absurd htoNat.symm hspace
  · rw [heq, List.mem_singleton] at h
    have himage := of_mapRuns_upperRuns hcode
    rcases toNat_ofNat_eq code with htoNat | hzero
    · rw [← h] at htoNat
      refine ⟨fun hd => ?_, by omega⟩
      have hspace : d.toNat = 32 := by rw [hd]; rfl
      omega
    · rw [h, hzero]
      exact ⟨fun hd => absurd hd (by decide), by decide⟩
  · rw [heq, List.mem_singleton] at h
    subst h
    refine ⟨id, fun ⟨hfirst, hlast⟩ => ?_⟩
    have hsome := isSome_mapRuns_upperRuns d.toNat hfirst hlast
    rw [hnone] at hsome
    exact absurd hsome (by decide)

/-- Lower case leaves none of the letters A to Z, and makes no space. -/
theorem of_mem_lowerChar {c d : Char} (h : d ∈ lowerChar c) :
    (d = ' ' → c = ' ') ∧ ¬ (65 ≤ d.toNat ∧ d.toNat ≤ 90) := by
  rcases mem_lowerChar_cases h with ⟨rfl, hnone⟩ | hlater | rfl
  · refine ⟨id, fun ⟨hfirst, hlast⟩ => ?_⟩
    have hsome := isSome_mapRuns_lowerRuns d.toNat hfirst hlast
    rw [hnone] at hsome
    exact absurd hsome (by decide)
  · refine ⟨fun hd => ?_, by omega⟩
    rw [hd] at hlater
    exact absurd hlater (by decide)
  · exact ⟨fun hd => absurd hd (by decide), by decide⟩

/-- A character whose ASCII lower case is not ASCII is that lower case. -/
theorem eq_of_asciiLowerChar_eq {c d : Char} (hd : 128 ≤ d.toNat) (h : asciiLowerChar c = d) :
    c = d := by
  by_cases hc : 65 ≤ c.toNat ∧ c.toNat ≤ 90
  · have hcode := toNat_asciiLowerChar c
    rw [if_pos hc, h] at hcode
    omega
  · rwa [asciiLowerChar_of_not_isCapital hc] at h

/-- The upper case of an ASCII character is an ASCII character. -/
theorem upperChar_ofNat : ∀ n < 128, upperChar (Char.ofNat n) =
    [Char.ofNat (if 97 ≤ n ∧ n ≤ 122 then n - 32 else n)] := by
  intro n hn
  have htoNat : (Char.ofNat n).toNat = n := toNat_ofNat_of_isValidChar (.inl (by omega))
  have hgrows : upperExpansions.lookup n = none := by
    refine List.lookup_eq_none_iff.mpr fun expansion hexpansion => ?_
    have := (codes_of_mem_upperExpansions expansion hexpansion).1
    rw [bne_iff_ne]
    omega
  rw [upperChar, htoNat, hgrows, mapRuns_upperRuns_of_ascii hn, CaseRun.map?]
  by_cases hletter : 97 ≤ n ∧ n ≤ 122
  · have hcode : 65 + (n - 97) = n - 32 := by omega
    simp [hletter, Nat.mod_one, hcode]
  · have hnone : ¬ (97 ≤ n ∧ n ≤ 122 ∧ (n - 97) % 1 = 0) := fun h => hletter ⟨h.1, h.2.1⟩
    simp [hletter, hnone]

/-- Case changes an ASCII character to one that is the same but for the case of ASCII letters. -/
theorem asciiLowered_cased (start : Bool) {c : Char} (h : c.toNat < 128) :
    asciiLowered (cased start c) = [asciiLowerChar c] := by
  cases start with
  | false =>
    have hall : ∀ n < 128, asciiLowered [asciiLowerChar (Char.ofNat n)] =
        [asciiLowerChar (Char.ofNat n)] := by decide +kernel
    have hlower := lowerChar_ofNat c.toNat h
    rw [Char.ofNat_toNat] at hlower
    rw [cased, if_neg Bool.false_ne_true, hlower]
    simpa using hall c.toNat h
  | true =>
    have hall : ∀ n < 128,
        asciiLowered [Char.ofNat (if 97 ≤ n ∧ n ≤ 122 then n - 32 else n)] =
          [asciiLowerChar (Char.ofNat n)] := by decide +kernel
    have hupper := upperChar_ofNat c.toNat h
    rw [Char.ofNat_toNat] at hupper
    rw [cased, if_pos rfl, hupper]
    simpa using hall c.toNat h

/-- The case of a character has a first character, and that is not the character itself unless case
leaves the character alone. -/
theorem cased_cases (start : Bool) (c : Char) :
    cased start c = [c] ∨ ∃ d ds, cased start c = d :: ds ∧ d ≠ c := by
  cases start with
  | false =>
    show lowerChar c = [c] ∨ ∃ d ds, lowerChar c = d :: ds ∧ d ≠ c
    unfold lowerChar
    split
    · next hc => exact .inr ⟨'i', ['\u0307'], rfl, by rw [hc]; decide⟩
    · split
      · next code _ =>
        by_cases hcode : Char.ofNat code = c
        · exact .inl (by rw [hcode])
        · exact .inr ⟨_, [], rfl, hcode⟩
      · exact .inl rfl
  | true =>
    show upperChar c = [c] ∨ ∃ d ds, upperChar c = d :: ds ∧ d ≠ c
    rcases upperChar_cases c with ⟨codes, hmem, heq⟩ | ⟨code, -, heq⟩ | ⟨-, heq⟩
    · obtain ⟨-, hne, hhead, hcodes⟩ := codes_of_mem_upperExpansions _ hmem
      obtain ⟨code, rest, rfl⟩ := List.exists_cons_of_ne_nil hne
      refine .inr ⟨Char.ofNat code, rest.map Char.ofNat, heq, ?_⟩
      rintro rfl
      have htoNat := toNat_ofNat_of_isValidChar (hcodes code (by simp)).1
      exact hhead (by simp [htoNat])
    · by_cases hcode : Char.ofNat code = c
      · exact .inl (by rw [heq, hcode])
      · exact .inr ⟨_, [], heq, hcode⟩
    · exact .inl heq

/-! ## Titles that are their texts but for the case of ASCII letters -/

/-- Title case changes the case of ASCII letters only, in a text that begins at the start of a word
or inside one: a character beyond ASCII is its own upper case if it starts a word, and else its own
lower case. -/
def KeepsCase (start : Bool) : List Char → Prop
  | [] => True
  | c :: cs => (c.toNat < 128 ∨ cased start c = [c]) ∧ KeepsCase (c = ' ') cs

instance KeepsCase.decidable : (start : Bool) → (cs : List Char) → Decidable (KeepsCase start cs)
  | _, [] => .isTrue trivial
  | _, c :: cs =>
      have := KeepsCase.decidable (c = ' ') cs
      inferInstanceAs (Decidable (_ ∧ _))

theorem keepsCase_of_ascii (start : Bool) {cs : List Char} (h : ∀ c ∈ cs, c.toNat < 128) :
    KeepsCase start cs := by
  induction cs generalizing start with
  | nil => trivial
  | cons c cs ih => exact ⟨.inl (h c (by simp)), ih _ fun d hd => h d (by simp [hd])⟩

/-- A text is its title but for the case of ASCII letters exactly if title case changes the case of
ASCII letters only. -/
theorem asciiLowered_titledFrom_iff (start : Bool) (cs : List Char) :
    asciiLowered (titledFrom start cs) = asciiLowered cs ↔ KeepsCase start cs := by
  induction cs generalizing start with
  | nil => exact ⟨fun _ => trivial, fun _ => rfl⟩
  | cons c cs ih =>
    have hcons : asciiLowered (c :: cs) = asciiLowerChar c :: asciiLowered cs := rfl
    have happend : asciiLowered (titledFrom start (c :: cs)) =
        asciiLowered (cased start c) ++ asciiLowered (titledFrom (c = ' ') cs) :=
      List.map_append
    rw [happend, hcons, KeepsCase]
    by_cases hascii : c.toNat < 128
    · rw [asciiLowered_cased start hascii, List.singleton_append, List.cons_inj_right, ih]
      exact ⟨fun h => ⟨.inl hascii, h⟩, fun h => h.2⟩
    · have hself : asciiLowerChar c = c :=
        asciiLowerChar_of_not_isCapital (by omega)
      rcases cased_cases start c with hkept | ⟨d, ds, hcased, hne⟩
      · have hlowered : asciiLowered (cased start c) = [asciiLowerChar c] := by rw [hkept]; rfl
        rw [hlowered, List.singleton_append, List.cons_inj_right, ih]
        exact ⟨fun h => ⟨.inr hkept, h⟩, fun h => h.2⟩
      · refine ⟨fun h => ?_, fun ⟨h, _⟩ => ?_⟩
        · rw [hcased] at h
          have hd : asciiLowerChar d = asciiLowerChar c := (List.cons.inj h).1
          rw [hself] at hd
          exact absurd (eq_of_asciiLowerChar_eq (by omega) hd) hne
        · rcases h with h | h
          · exact absurd h hascii
          · rw [hcased] at h
            exact absurd (List.cons.inj h).1 hne

/-! ## Titles that are the same but for the case of ASCII letters -/

/-- Whether the upper case of a character has one of the letters A to Z behind its first
character. -/
def growsCapital (c : Char) : Bool :=
  (upperChar c).tail.any fun d => 65 ≤ d.toNat && d.toNat ≤ 90

/-- No word of a text that begins at the start of a word or inside one starts with a character whose
upper case has one of the letters A to Z behind its first character. -/
def StartsPlainly (start : Bool) : List Char → Prop
  | [] => True
  | c :: cs => (start = true → growsCapital c = false) ∧ StartsPlainly (c = ' ') cs

theorem startsPlainly_of_ascii (start : Bool) {cs : List Char} (h : ∀ c ∈ cs, c.toNat < 128) :
    StartsPlainly start cs := by
  induction cs generalizing start with
  | nil => trivial
  | cons c cs ih =>
    refine ⟨fun _ => ?_, ih _ fun d hd => h d (by simp [hd])⟩
    have hupper := upperChar_ofNat c.toNat (h c (by simp))
    rw [Char.ofNat_toNat] at hupper
    rw [growsCapital, hupper]
    rfl

/-- The ASCII letters at the starts of words are capitals, and the others are not. -/
def IsTitled (start : Bool) : List Char → Prop
  | [] => True
  | c :: cs =>
      (if start then ¬ (97 ≤ c.toNat ∧ c.toNat ≤ 122) else ¬ (65 ≤ c.toNat ∧ c.toNat ≤ 90)) ∧
        IsTitled (c = ' ') cs

theorem IsTitled.append {cs ds : List Char} (hds : IsTitled false ds)
    (hcs : ∀ c ∈ cs, c ≠ ' ' ∧ ¬ (65 ≤ c.toNat ∧ c.toNat ≤ 90)) : IsTitled false (cs ++ ds) := by
  induction cs with
  | nil => exact hds
  | cons c cs ih =>
    obtain ⟨hspace, hcapital⟩ := hcs c (by simp)
    refine ⟨hcapital, ?_⟩
    rw [decide_eq_false hspace]
    exact ih fun d hd => hcs d (by simp [hd])

/-- Two characters that are the same but for the case of ASCII letters, and both no small letter or
both no capital, are the same. -/
theorem eq_of_asciiLowerChar_eq_asciiLowerChar {start : Bool} {c d : Char}
    (h : asciiLowerChar c = asciiLowerChar d)
    (hc : if start then ¬ (97 ≤ c.toNat ∧ c.toNat ≤ 122) else ¬ (65 ≤ c.toNat ∧ c.toNat ≤ 90))
    (hd : if start then ¬ (97 ≤ d.toNat ∧ d.toNat ≤ 122) else ¬ (65 ≤ d.toNat ∧ d.toNat ≤ 90)) :
    c = d := by
  have hcodes := congrArg Char.toNat h
  rw [toNat_asciiLowerChar, toNat_asciiLowerChar] at hcodes
  apply Char.toNat_inj.mp
  cases start <;> simp only [if_true, Bool.false_eq_true, if_false] at hc hd <;> grind

theorem isTitled_titledFrom {start : Bool} {cs : List Char} (h : StartsPlainly start cs) :
    IsTitled start (titledFrom start cs) := by
  induction cs generalizing start with
  | nil => trivial
  | cons c cs ih =>
    have hrest := ih h.2
    rw [titledFrom]
    by_cases hspace : c = ' '
    · subst hspace
      rw [cased_space]
      rw [decide_eq_true rfl] at hrest ⊢
      refine ⟨?_, hrest⟩
      split <;> decide
    · rw [decide_eq_false hspace] at hrest ⊢
      cases start with
      | false =>
        refine hrest.append fun d hd => ?_
        obtain ⟨hd, hcapital⟩ := of_mem_lowerChar hd
        exact ⟨fun heq => hspace (hd heq), hcapital⟩
      | true =>
        have hplain := h.1 rfl
        have hall : ∀ d ∈ upperChar c, d ≠ ' ' ∧ ¬ (97 ≤ d.toNat ∧ d.toNat ≤ 122) := by
          intro d hd
          obtain ⟨hd, hletter⟩ := of_mem_upperChar hd
          exact ⟨fun heq => hspace (hd heq), hletter⟩
        obtain ⟨d, ds, hcased⟩ : ∃ d ds, upperChar c = d :: ds := by
          rcases cased_cases true c with heq | ⟨d, ds, heq, -⟩
          · exact ⟨c, [], heq⟩
          · exact ⟨d, ds, heq⟩
        have hmem : ∀ e ∈ upperChar c, e ≠ ' ' ∧ ¬ (97 ≤ e.toNat ∧ e.toNat ≤ 122) := by
          intro e he
          obtain ⟨hblank, hletter⟩ := of_mem_upperChar he
          exact ⟨fun heq => hspace (hblank heq), hletter⟩
        rw [growsCapital, hcased, List.tail_cons, List.any_eq_false] at hplain
        rw [cased, if_pos rfl, hcased, List.cons_append]
        rw [hcased] at hmem
        obtain ⟨hblank, hletter⟩ := hmem d (by simp)
        refine ⟨hletter, ?_⟩
        rw [decide_eq_false hblank]
        refine hrest.append fun e he => ⟨(hmem e (by simp [he])).1, ?_⟩
        simpa using hplain e he

/-- A text in which the case of ASCII letters is that of a title is known by its letters. -/
theorem IsTitled.eq_of_asciiLowered_eq {start : Bool} {cs ds : List Char} (hcs : IsTitled start cs)
    (hds : IsTitled start ds) (h : asciiLowered cs = asciiLowered ds) : cs = ds := by
  induction cs generalizing start ds with
  | nil => exact (List.map_eq_nil_iff.mp h.symm).symm
  | cons c cs ih =>
    cases ds with
    | nil => cases h
    | cons d ds =>
      obtain ⟨hhead, htail⟩ := List.cons.inj h
      obtain rfl : c = d := eq_of_asciiLowerChar_eq_asciiLowerChar hhead hcs.1 hds.1
      rw [ih hcs.2 hds.2 htail]

/-- Titles of texts in which no word starts with a character that grows by a capital are the same
when the case of ASCII letters does not matter only if they are the same. -/
theorem titledFrom_eq_of_asciiLowered_eq {start : Bool} {cs ds : List Char}
    (hcs : StartsPlainly start cs) (hds : StartsPlainly start ds)
    (h : asciiLowered (titledFrom start cs) = asciiLowered (titledFrom start ds)) :
    titledFrom start cs = titledFrom start ds :=
  (isTitled_titledFrom hcs).eq_of_asciiLowered_eq (isTitled_titledFrom hds) h

end Scorecard.Text
