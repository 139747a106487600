import Scorecard.Text.Case

/-!
# Lower case

What lower-casing puts into a text, and what it leaves alone.

* A character of a lower-cased text is one of the text's characters, with no lower case of its own,
  or it is not before `a` (`mem_lowered_cases`).  So lower case makes no separator and leaves no
  capital letter (`not_isCapital_of_mem_lowered`).
* On ASCII texts lower case touches the letters A to Z only (`lowered_of_ascii`).
-/

namespace Scorecard.Text

/-- No lower-case letter in the table lies before `a`. -/
theorem le_target_of_mem_lowerRuns : ∀ run ∈ lowerRuns, 97 ≤ run.target := by decide +kernel

theorem le_of_mapRuns_lowerRuns {code image : Nat} (h : mapRuns lowerRuns code = some image) :
    97 ≤ image := by
  obtain ⟨run, hrun, himage⟩ := List.exists_of_findSome?_eq_some h
  have htarget := le_target_of_mem_lowerRuns run hrun
  unfold CaseRun.map? at himage
  split at himage
  · have hsum : run.target + (code - run.first) = image := by simpa using himage
    omega
  · simp at himage

/-- A code point is that of its character, unless it has none. -/
theorem toNat_ofNat_eq (n : Nat) : (Char.ofNat n).toNat = n ∨ Char.ofNat n = '\x00' := by
  by_cases h : n.isValidChar
  · exact .inl (by rw [Char.ofNat, dif_pos h]; rfl)
  · exact .inr (by rw [Char.ofNat, dif_neg h]; rfl)

/-- A character of a character's lower case is that character, if it has no lower case, or it is not
before `a`. -/
theorem mem_lowerChar_cases {c d : Char} (h : d ∈ lowerChar c) :
    (d = c ∧ mapRuns lowerRuns c.toNat = none) ∨ 97 ≤ d.toNat ∨ d = '\x00' := by
  unfold lowerChar at h
  split at h
  · have hd : d = 'i' ∨ d = '\u0307' := by simpa using h
    rcases hd with rfl | rfl <;> exact .inr (.inl (by decide))
  · split at h
    · next image himage =>
      obtain rfl : d = Char.ofNat image := by simpa using h
      have hle := le_of_mapRuns_lowerRuns himage
      rcases toNat_ofNat_eq image with hcode | hzero
      · exact .inr (.inl (by omega))
      · exact .inr (.inr hzero)
    · next hnone =>
      obtain rfl : d = c := by simpa using h
      exact .inl ⟨rfl, hnone⟩

theorem mem_loweredAfter_cases {before cs : List Char} {d : Char}
    (h : d ∈ loweredAfter before cs) :
    (d ∈ cs ∧ mapRuns lowerRuns d.toNat = none) ∨ 97 ≤ d.toNat ∨ d = '\x00' := by
  induction cs generalizing before with
  | nil => simp [loweredAfter] at h
  | cons c cs ih =>
    rw [loweredAfter, List.mem_append] at h
    rcases h with h | h
    · split at h
      · have hd : d = 'ς' ∨ d = 'σ' := by
          split at h
          · exact .inl (by simpa using h)
          · exact .inr (by simpa using h)
        rcases hd with rfl | rfl <;> exact .inr (.inl (by decide))
      · rcases mem_lowerChar_cases h with ⟨rfl, hnone⟩ | hlater
        · exact .inl ⟨by simp, hnone⟩
        · exact .inr hlater
    · rcases ih h with ⟨hmem, hnone⟩ | hlater
      · exact .inl ⟨by simp [hmem], hnone⟩
      · exact .inr hlater

/-- A character of a lower-cased text is one of the text's, or it is not before `a`. -/
theorem mem_lowered_cases {cs : List Char} {d : Char} (h : d ∈ lowered cs) :
    (d ∈ cs ∧ mapRuns lowerRuns d.toNat = none) ∨ 97 ≤ d.toNat ∨ d = '\x00' :=
  mem_loweredAfter_cases h

/-! ## ASCII -/

/-- An ASCII character is looked up in the first run only, if the others begin behind ASCII. -/
theorem mapRuns_of_ascii {run : CaseRun} {runs : List CaseRun}
    (h : ∀ other ∈ runs, 128 ≤ other.first) {code : Nat} (hcode : code < 128) :
    mapRuns (run :: runs) code = run.map? code := by
  have hnone : mapRuns runs code = none := by
    refine List.findSome?_eq_none_iff.mpr fun other hother => if_neg fun hrun => ?_
    have := h other hother
    omega
  rw [mapRuns, List.findSome?_cons]
  cases run.map? code with
  | none => exact hnone
  | some _ => rfl

theorem mapRuns_lowerRuns_of_ascii {code : Nat} (h : code < 128) :
    mapRuns lowerRuns code = CaseRun.map? ⟨0x41, 0x5A, 1, 0x61⟩ code := by
  have hlater : ∀ run ∈ lowerRuns.tail, 128 ≤ run.first := by decide +kernel
  exact mapRuns_of_ascii hlater h

/-- The letters A to Z have a lower case. -/
theorem isSome_mapRuns_lowerRuns (n : Nat) (hfirst : 65 ≤ n) (hlast : n ≤ 90) :
    (mapRuns lowerRuns n).isSome := by
  rw [mapRuns_lowerRuns_of_ascii (by omega), CaseRun.map?, if_pos ⟨hfirst, hlast, Nat.mod_one _⟩]
  rfl

/-- No capital letter is left in a lower-cased text. -/
theorem not_isCapital_of_mem_lowered {cs : List Char} {d : Char} (h : d ∈ lowered cs) :
    ¬ (65 ≤ d.toNat ∧ d.toNat ≤ 90) := by
  rintro ⟨hfirst, hlast⟩
  rcases mem_lowered_cases h with ⟨-, hnone⟩ | hlater | rfl
  · have hsome := isSome_mapRuns_lowerRuns d.toNat hfirst hlast
    rw [hnone] at hsome
    exact absurd hsome (by decide)
  · omega
  · exact absurd hfirst (by decide)

theorem lowerChar_ofNat : ∀ n < 128,
    lowerChar (Char.ofNat n) = [asciiLowerChar (Char.ofNat n)] := by
  intro n hn
  have hall : ∀ n < 128, Char.ofNat n ≠ 'İ' ∧ (Char.ofNat n).toNat = n ∧
      ((CaseRun.map? ⟨0x41, 0x5A, 1, 0x61⟩ n).elim [Char.ofNat n] fun code => [Char.ofNat code]) =
        [asciiLowerChar (Char.ofNat n)] := by decide +kernel
  obtain ⟨hne, htoNat, hlower⟩ := hall n hn
  rw [← hlower, lowerChar, if_neg hne, htoNat, mapRuns_lowerRuns_of_ascii hn]
  cases CaseRun.map? ⟨0x41, 0x5A, 1, 0x61⟩ n <;> rfl

theorem loweredAfter_of_ascii {cs : List Char} (h : ∀ c ∈ cs, c.toNat < 128)
    (before : List Char) : loweredAfter before cs = asciiLowered cs := by
  induction cs generalizing before with
  | nil => rfl
  | cons c cs ih =>
    have hc : c.toNat < 128 := h c (by simp)
    have hsigma : c ≠ 'Σ' := by
      rintro rfl
      exact absurd hc (by decide)
    have hlower : lowerChar c = [asciiLowerChar c] := by
      simpa using lowerChar_ofNat c.toNat hc
    rw [loweredAfter, if_neg hsigma, hlower, ih fun d hd => h d (by simp [hd])]
    rfl

/-- The lower case of an ASCII text differs from it in the letters A to Z only. -/
theorem lowered_of_ascii {cs : List Char} (h : ∀ c ∈ cs, c.toNat < 128) :
    lowered cs = asciiLowered cs :=
  loweredAfter_of_ascii h []

theorem asciiLowerChar_of_not_isCapital {c : Char} (h : ¬ (65 ≤ c.toNat ∧ c.toNat ≤ 90)) :
    asciiLowerChar c = c := by
  refine if_neg fun hc => h ?_
  simpa [Char.le_def, UInt32.le_iff_toNat_le] using hc

/-- The code of the ASCII lower case of a character. -/
theorem toNat_asciiLowerChar (c : Char) : (asciiLowerChar c).toNat =
    if 65 ≤ c.toNat ∧ c.toNat ≤ 90 then c.toNat + 32 else c.toNat := by
  split
  · next hcapital =>
    have hall : ∀ n < 91, 65 ≤ n → (asciiLowerChar (Char.ofNat n)).toNat = n + 32 := by
      decide +kernel
    simpa using hall c.toNat (by omega) hcapital.1
  · next hcapital => rw [asciiLowerChar_of_not_isCapital hcapital]

/-- Lower case changes no ASCII text that is lower case already. -/
theorem lowered_eq_self_of_ascii {cs ds : List Char} (hcs : ∀ c ∈ cs, c.toNat < 128)
    (hds : ∀ c ∈ cs, c ∈ lowered ds) : lowered cs = cs := by
  rw [lowered_of_ascii hcs, asciiLowered]
  refine (List.map_congr_left fun c hc => ?_).trans (List.map_id _)
  exact asciiLowerChar_of_not_isCapital (not_isCapital_of_mem_lowered (hds c hc))

end Scorecard.Text
