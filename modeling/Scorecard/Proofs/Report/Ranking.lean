import Mathlib
import Scorecard.Proofs.Number.Value
import Scorecard.Proofs.Report.Stamps
import Scorecard.Report

/-!
# Ranking

Rows are ranked by one score, the greatest first.

* Comparing finite scores is comparing the numbers that they stand for, so a ranking is a merge sort
  by a key from a linear order (`Report.rankedBy_eq`).
* A merge sort by a key, the greatest first, puts no greater key after a smaller one
  (`pairwise_mergeSort_key`) and keeps the order of elements whose keys are equal
  (`filter_mergeSort_key`).
* `Report.rankedBy_isStableRanking` puts these together.
-/

namespace Scorecard

open Number

/-! ## Sorting by a key, the greatest first -/

section

variable {α β : Type} [LinearOrder β] (key : α → β)

theorem descending_trans (a b c : α) (hab : decide (key b ≤ key a) = true)
    (hbc : decide (key c ≤ key b) = true) : decide (key c ≤ key a) = true := by
  rw [decide_eq_true_eq] at hab hbc ⊢
  exact hbc.trans hab

theorem descending_total (a b : α) :
    (decide (key b ≤ key a) || decide (key a ≤ key b)) = true := by
  simpa using le_total (key b) (key a)

/-- No key is greater than one before it. -/
theorem pairwise_mergeSort_key (as : List α) :
    (as.mergeSort fun a b => decide (key b ≤ key a)).Pairwise fun a b => key b ≤ key a := by
  simpa using List.pairwise_mergeSort (descending_trans key) (descending_total key) as

/-- Elements that are chosen because their keys are equal keep their order. -/
theorem filter_mergeSort_key {as : List α} {p : α → Bool}
    (h : ∀ a ∈ as, ∀ b ∈ as, p a = true → p b = true → key a = key b) :
    (as.mergeSort fun a b => decide (key b ≤ key a)).filter p = as.filter p := by
  have hequal : (as.filter p).Pairwise fun a b => decide (key b ≤ key a) = true := by
    refine List.pairwise_of_forall_mem_list fun a ha b hb => ?_
    obtain ⟨ha, hpa⟩ := List.mem_filter.mp ha
    obtain ⟨hb, hpb⟩ := List.mem_filter.mp hb
    exact decide_eq_true (h a ha b hb hpa hpb).ge
  have hsub : (as.filter p).Sublist
      ((as.mergeSort fun a b => decide (key b ≤ key a)).filter p) := by
    have hkept := (List.sublist_mergeSort (descending_trans key) (descending_total key) hequal
      List.filter_sublist).filter p
    simpa only [List.filter_filter, Bool.and_self] using hkept
  have hlength := ((List.mergeSort_perm as fun a b => decide (key b ≤ key a)).filter p).length_eq
  exact (hsub.eq_of_length hlength.symm).symm

end

/-! ## Rankings -/

/-- Every score of the report is finite. -/
def Report.HasFiniteScores (r : Report) : Prop :=
  ∀ row ∈ r.rows, ∀ x ∈ row.scores, x.isFinite = true

/-- A row has a finite score for every equation, since a missing one counts as zero. -/
theorem Report.HasFiniteScores.isFinite_scoreAt {r : Report} (h : r.HasFiniteScores) {row : Row}
    (hrow : row ∈ r.rows) (i : Nat) : (row.scoreAt i).isFinite = true := by
  unfold Row.scoreAt
  rw [List.getD_eq_getElem?_getD]
  cases hx : row.scores[i]? with
  | none => decide +kernel
  | some x => exact h row hrow x (List.mem_of_getElem? hx)

/-- The ranking by an equation is a sort by the number that its score stands for. -/
theorem Report.rankedBy_eq {r : Report} (h : r.HasFiniteScores) {name : String} {i : Nat}
    (hi : r.equationIndex? name = some i) : r.rankedBy name =
      r.rows.mergeSort fun a b => decide (value (b.scoreAt i) ≤ value (a.scoreAt i)) := by
  unfold Report.rankedBy
  rw [hi]
  have hkeys := List.map_mergeSort (f := fun row : Row => row) (l := r.rows)
    (r := fun a b => !decide (a.scoreAt i < b.scoreAt i))
    (s := fun a b => decide (value (b.scoreAt i) ≤ value (a.scoreAt i))) ?_
  · simpa using hkeys
  · intro a ha b hb
    rw [Bool.eq_iff_iff, Bool.not_eq_true', decide_eq_false_iff_not, decide_eq_true_eq,
      lt_iff_value_lt (h.isFinite_scoreAt ha i) (h.isFinite_scoreAt hb i), not_lt]

/-- A ranking consists of the rows of the report.  If it is by an equation of the report, no row has
a greater score there than a row before it, a missing score being zero, and rows with equal scores
keep their order; otherwise the rows stay as they are. -/
theorem Report.rankedBy_isStableRanking (r : Report) (h : r.HasFiniteScores) (name : String) :
    (r.rankedBy name).Perm r.rows ∧
      (∀ i, r.equationIndex? name = some i →
        ((r.rankedBy name).Pairwise fun a b => b.scoreAt i ≤ a.scoreAt i) ∧
        ∀ row ∈ r.rows, ((r.rankedBy name).filter fun a => a.scoreAt i == row.scoreAt i) =
          r.rows.filter fun a => a.scoreAt i == row.scoreAt i) ∧
      (r.equationIndex? name = none → r.rankedBy name = r.rows) := by
  have hperm : (r.rankedBy name).Perm r.rows := by
    unfold Report.rankedBy
    split
    · exact List.mergeSort_perm _ _
    · exact List.Perm.refl _
  refine ⟨hperm, fun i hi => ⟨?_, fun row hrow => ?_⟩, fun hnone => ?_⟩
  · have hsorted := pairwise_mergeSort_key (fun row : Row => value (row.scoreAt i)) r.rows
    rw [← Report.rankedBy_eq h hi] at hsorted
    refine hsorted.imp_of_mem fun {a b} ha hb hle => ?_
    have hafin := h.isFinite_scoreAt (hperm.mem_iff.mp ha) i
    have hbfin := h.isFinite_scoreAt (hperm.mem_iff.mp hb) i
    exact (le_iff_value_le hbfin hafin).mpr hle
  · rw [Report.rankedBy_eq h hi]
    refine filter_mergeSort_key (fun row : Row => value (row.scoreAt i)) ?_
    intro a ha b hb heqa heqb
    have hafin := h.isFinite_scoreAt ha i
    have hbfin := h.isFinite_scoreAt hb i
    have hfin := h.isFinite_scoreAt hrow i
    rw [beq_iff_value_eq hafin hfin] at heqa
    rw [beq_iff_value_eq hbfin hfin] at heqb
    exact heqa.trans heqb.symm
  · simp only [Report.rankedBy, hnone]

/-- Four rows.  Under the second equation the second has no score, and the third a negative zero. -/
def raggedReport : Report :=
  ⟨⟨0⟩, .leapSecond, [], ["Auto", "Total Score"],
    [⟨"1", [], [2, -3]⟩, ⟨"2", [], [4]⟩, ⟨"3", [], [1, -0]⟩, ⟨"4", [], [0, 7]⟩], [], 0⟩

/-- The row without a score stays before the row with a negative zero. -/
theorem rankedBy_isStableRanking_raggedReport :
    raggedReport.HasFiniteScores ∧ raggedReport.equationIndex? " total score" = some 1 ∧
      (raggedReport.rankedBy " total score").Perm raggedReport.rows ∧
      (raggedReport.rankedBy " total score").Pairwise (fun a b => b.scoreAt 1 ≤ a.scoreAt 1) ∧
      (((raggedReport.rankedBy " total score").filter fun a => a.scoreAt 1 == -0).map Row.team) =
        ["2", "3"] ∧
      raggedReport.rankedBy "climb" = raggedReport.rows := by
  have hfinite : raggedReport.HasFiniteScores := by
    unfold Report.HasFiniteScores
    decide +kernel
  have hindex : raggedReport.equationIndex? " total score" = some 1 := by decide +kernel
  obtain ⟨hperm, hranked, -⟩ :=
    Report.rankedBy_isStableRanking raggedReport hfinite " total score"
  obtain ⟨hsorted, hstable⟩ := hranked 1 hindex
  obtain ⟨-, -, hkept⟩ := Report.rankedBy_isStableRanking raggedReport hfinite "climb"
  have hzeros := congrArg (List.map Row.team) (hstable ⟨"3", [], [1, -0]⟩ (by simp [raggedReport]))
  exact ⟨hfinite, hindex, hperm, hsorted, hzeros.trans (by decide +kernel),
    hkept (by decide +kernel)⟩

end Scorecard
