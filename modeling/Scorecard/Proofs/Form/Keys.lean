import Scorecard.Proofs.Form.Claims
import Scorecard.Proofs.Text.LowerCase
import Scorecard.Proofs.Text.Padding

/-!
# Normal forms of keys

A schema is asked about an identifier in two ways: formulas look its lower case up, and the
validator its normal form.  The two agree on what is bound, for every text
(`Schema.knows_of_binds`).

* Lower case never makes or removes a backslash, a slash or a space
  (`mem_of_mem_lowered_of_isJoined`, `mem_lowered_of_isJoined`), so a text whose lower case is a
  normal form has none of them.
* Trimming a trimmed text changes nothing, so a text whose lower case is a normal form has this
  normal form (`normalizeKey_of_lower_eq`).
* A normal form that is an ASCII text is its own lower case (`lower_normalizeKey_of_ascii`).
-/

namespace Scorecard

open Text

/-! ## Lower case and the characters that are joined -/

/-- The characters that a normal form has underscores for. -/
def IsJoined (c : Char) : Prop := c = '\\' ∨ c = '/' ∨ c = ' '

instance (c : Char) : Decidable (IsJoined c) := inferInstanceAs (Decidable (_ ∨ _ ∨ _))

theorem not_isJoined_joiner (c : Char) : ¬ IsJoined (joiner c) := by
  unfold joiner
  split
  · decide
  · assumption

/-- The characters that are joined lie before every lower-case letter. -/
theorem not_isJoined_of_le {d : Char} (h : 97 ≤ d.toNat) : ¬ IsJoined d := by
  rintro (rfl | rfl | rfl) <;> exact absurd h (by decide)

theorem lowerChar_of_isJoined {c : Char} (h : IsJoined c) : lowerChar c = [c] := by
  rcases h with rfl | rfl | rfl <;> decide

/-- Lower case makes no character that is joined. -/
theorem mem_of_mem_lowered_of_isJoined {cs : List Char} {d : Char} (h : d ∈ lowered cs)
    (hd : IsJoined d) : d ∈ cs := by
  rcases mem_lowered_cases h with ⟨hmem, -⟩ | hlater | rfl
  · exact hmem
  · exact absurd hd (not_isJoined_of_le hlater)
  · exact absurd hd (by decide)

/-- Lower case removes no character that is joined. -/
theorem mem_loweredAfter_of_isJoined {before cs : List Char} {c : Char} (h : c ∈ cs)
    (hc : IsJoined c) : c ∈ loweredAfter before cs := by
  induction cs generalizing before with
  | nil => simp at h
  | cons d cs ih =>
    rw [loweredAfter, List.mem_append]
    rcases List.mem_cons.mp h with rfl | h
    · left
      have hne : c ≠ 'Σ' := by
        rintro rfl
        exact absurd hc (by decide)
      simp [hne, lowerChar_of_isJoined hc]
    · exact .inr (ih h)

theorem mem_lowered_of_isJoined {cs : List Char} {c : Char} (h : c ∈ cs) (hc : IsJoined c) :
    c ∈ lowered cs :=
  mem_loweredAfter_of_isJoined h hc

/-! ## Normal forms -/

theorem toList_normalizeKey (raw : String) :
    (normalizeKey raw).toList = trimmed (lowered (raw.toList.map joiner)) := by
  simp [normalizeKey]

theorem mem_lowered_of_mem_normalizeKey {raw : String} {d : Char}
    (h : d ∈ (normalizeKey raw).toList) : d ∈ lowered (raw.toList.map joiner) := by
  rw [toList_normalizeKey] at h
  exact mem_of_mem_trimmed h

/-- A normal form has no character that is joined. -/
theorem not_isJoined_of_mem_normalizeKey {raw : String} {d : Char}
    (h : d ∈ (normalizeKey raw).toList) : ¬ IsJoined d := by
  intro hd
  obtain ⟨c, _, rfl⟩ := List.mem_map.mp
    (mem_of_mem_lowered_of_isJoined (mem_lowered_of_mem_normalizeKey h) hd)
  exact not_isJoined_joiner c hd

/-- A text whose lower case is a normal form has this normal form. -/
theorem normalizeKey_of_lower_eq {s raw : String} (h : lower s = normalizeKey raw) :
    normalizeKey s = lower s := by
  have hnone : ∀ c ∈ s.toList, ¬ IsJoined c := by
    intro c hc hjoined
    refine @not_isJoined_of_mem_normalizeKey raw c ?_ hjoined
    rw [← h, toList_lower]
    exact mem_lowered_of_isJoined hc hjoined
  have hmap : s.toList.map joiner = s.toList :=
    (List.map_congr_left fun c hc => if_neg (hnone c hc)).trans (List.map_id _)
  have htrim : trimmed (lowered s.toList) = lowered s.toList := by
    rw [← toList_lower, h, toList_normalizeKey, trimmed_trimmed]
  rw [normalizeKey, hmap, htrim, lower]

/-- A normal form that is an ASCII text is its own lower case. -/
theorem lower_normalizeKey_of_ascii {raw : String}
    (h : ∀ c ∈ (normalizeKey raw).toList, c.toNat < 128) :
    lower (normalizeKey raw) = normalizeKey raw := by
  rw [lower, lowered_eq_self_of_ascii h fun _ => mem_lowered_of_mem_normalizeKey,
    String.ofList_toList]

/-! ## Claimed identifiers -/

/-- Every identifier that a field offers is a normal form. -/
theorem exists_raw_of_mem_claims {f : Field} {claim : String × Binding} (h : claim ∈ f.claims) :
    ∃ raw, claim.1 = normalizeKey raw := by
  cases f with
  | label _ | space | slider _ => simp [Field.claims] at h
  | textField _ inputs | stepper inputs =>
    obtain ⟨key, _, rfl⟩ := List.mem_map.mp h
    exact ⟨key, rfl⟩
  | switch inputs =>
    obtain ⟨key, _, hclaim⟩ := List.mem_flatMap.mp h
    simp only [List.mem_cons, List.not_mem_nil, or_false] at hclaim
    rcases hclaim with rfl | rfl | rfl
    · exact ⟨key, rfl⟩
    · exact ⟨key ++ "_yes", rfl⟩
    · exact ⟨key ++ "_no", rfl⟩
  | segmented inputs =>
    rcases List.mem_append.mp h with h | h
    · obtain ⟨key, _, rfl⟩ := List.mem_map.mp h
      exact ⟨key, rfl⟩
    · obtain ⟨key, _, h⟩ := List.mem_flatMap.mp h
      obtain ⟨segment, _, rfl⟩ := List.mem_map.mp h
      exact ⟨_, rfl⟩

/-- Every identifier that a schema binds is a normal form. -/
theorem Schema.exists_raw_of_binding? {schema : Schema} {identifier : String} {b : Binding}
    (h : schema.binding? identifier = some b) : ∃ raw, identifier = normalizeKey raw := by
  obtain ⟨f, _, hf⟩ := exists_mem_claims_of_binding? h
  exact exists_raw_of_mem_claims hf

/-- What formulas replace is known to the validator. -/
theorem Schema.knows_of_binds {schema : Schema} {identifier : String}
    (h : schema.binds identifier = true) : schema.knows identifier = true := by
  obtain ⟨b, hb⟩ := Option.isSome_iff_exists.mp h
  obtain ⟨raw, hraw⟩ := exists_raw_of_binding? hb
  have hnormal : schema.binding? (normalizeKey identifier) = some b := by
    rw [normalizeKey_of_lower_eq hraw]
    exact hb
  simp [Schema.knows, hnormal]

end Scorecard
