import Scorecard.Equation

/-!
# The problems of an evaluation

An evaluation lists every answer that is not the number it should be, each once and in the order in
which the formula asks for them, and then the reason why there is no score, if there is none
(`Equation.problems_evaluate`).

* `Binding.LacksNumber` says when an answer is not the number that it should be, and
  `Binding.resolve_snd_eq_some_iff` that exactly these answers are reported.
* `Equation.ListsBadAnswers` says which answers are listed and in which order, without saying how
  repeats are left out; substitution lists them so (`Equation.listsBadAnswers_substitute`).
* The score is the value of the formula or `0`, and both are finite (`Formula.isFinite_of_evaluate`).
-/

namespace Scorecard

open Formula

/-! ## Lists without repeats -/

section

variable {α : Type} [BEq α] [LawfulBEq α]

/-- What stands first without repeats occurs first: of two elements the earlier one occurs in front
of every occurrence of the later one. -/
theorem pairwise_eraseDups : ∀ as : List α, as.eraseDups.Pairwise fun a b =>
    ∀ before after, as = before ++ b :: after → a ∈ before
  | [] => .nil
  | a :: as => by
    rw [List.eraseDups_cons, List.pairwise_cons]
    constructor
    · intro b hb before after heq
      have hne : b ≠ a := by
        have hmem := List.mem_eraseDups.mp hb
        simpa using (List.mem_filter.mp hmem).2
      rcases List.cons_eq_append_iff.mp heq with ⟨-, h⟩ | ⟨rest, rfl, -⟩
      · exact absurd (List.cons.inj h).1 hne
      · exact List.mem_cons_self
    · refine (pairwise_eraseDups _).imp_of_mem fun {b c} _ hc hearlier before after heq => ?_
      have hkept : (!c == a) = true := (List.mem_filter.mp (List.mem_eraseDups.mp hc)).2
      have hne : c ≠ a := by simpa using hkept
      rcases List.cons_eq_append_iff.mp heq with ⟨-, h⟩ | ⟨rest, rfl, has⟩
      · exact absurd (List.cons.inj h).1 hne
      · have hfilter := congrArg (List.filter fun d => !d == a) has
        rw [List.filter_append, @List.filter_cons_of_pos _ _ c _ hkept] at hfilter
        exact List.mem_cons_of_mem _ (List.mem_filter.mp (hearlier _ _ hfilter)).1
termination_by as => as.length
decreasing_by exact Nat.lt_succ_of_le (List.length_filter_le _ _)

theorem nodup_eraseDups (as : List α) : as.eraseDups.Nodup := by
  refine (pairwise_eraseDups as).imp_of_mem fun {a b} _ hb hearlier => ?_
  rintro rfl
  obtain ⟨before, after, has, hfirst⟩ := List.eq_append_cons_of_mem (List.mem_eraseDups.mp hb)
  exact hfirst (hearlier before after has)

end

/-! ## Answers that are no numbers -/

/-- The binding asks for a number, and the answer, without the blanks around it, is none: a decimal
that is finite, or a whole number of 64 bits. -/
inductive Binding.LacksNumber (b : Binding) (team : Team) : Prop
  | decimal (hreading : b.reading = .decimal)
      (hnone : ∀ x, Number.readFloat (Text.trimmed (team.answer b.key).toList) = some x →
        x.isFinite = false)
  | integer (hreading : b.reading = .integer)
      (hnone : Number.readInt64 (Text.trimmed (team.answer b.key).toList) = none)

theorem Binding.operand?_eq_none_iff {b : Binding} {team : Team} :
    b.reading.operand? (team.answer b.key) = none ↔ b.LacksNumber team := by
  constructor
  · intro h
    cases hreading : b.reading with
    | decimal =>
      refine .decimal hreading fun x hx => ?_
      simpa [hreading, Reading.operand?, hx] using h
    | integer => exact .integer hreading (by simpa [hreading, Reading.operand?] using h)
    | yes | no | position _ | selected _ => simp [hreading, Reading.operand?] at h
  · rintro (⟨hreading, hnone⟩ | ⟨hreading, hnone⟩)
    · simpa [hreading, Reading.operand?, Option.filter_eq_none_iff] using hnone
    · simp [hreading, Reading.operand?, hnone]

/-- A binding reports the answer to its key exactly if it lacks a number. -/
theorem Binding.resolve_snd_eq_some_iff {b : Binding} {team : Team} {answer : BadAnswer} :
    (b.resolve team).2 = some answer ↔
      b.LacksNumber team ∧ answer = ⟨b.key, team.answer b.key⟩ := by
  rw [← operand?_eq_none_iff, resolve]
  cases b.reading.operand? (team.answer b.key) with
  | none => simp [eq_comm]
  | some text => simp

/-- The answer is one that an identifier asks for and that lacks a number. -/
def Schema.Reports (schema : Schema) (team : Team) (name : String) (answer : BadAnswer) : Prop :=
  ∃ b, schema.wordBinding? name = some b ∧ b.LacksNumber team ∧
    answer = ⟨b.key, team.answer b.key⟩

/-- The answers are those that the identifiers of the formula ask for and that lack a number.  Each
key occurs once, and an answer stands behind another one only if its key is asked for later. -/
structure Equation.ListsBadAnswers (e : Equation) (schema : Schema) (team : Team)
    (bad : List BadAnswer) : Prop where
  mem_iff : ∀ answer, answer ∈ bad ↔ ∃ name ∈ e.identifiers, schema.Reports team name answer
  nodup : (bad.map BadAnswer.key).Nodup
  ordered : bad.Pairwise fun answer later =>
    ∀ before name after, e.identifiers = before ++ name :: after →
      schema.Reports team name later → ∃ earlier ∈ before, schema.Reports team earlier answer

section

variable {e : Equation} {schema : Schema} {team : Team}

theorem badAnswer?_eq_some_iff {name : String} {answer : BadAnswer} :
    Equation.badAnswer? schema team name = some answer ↔ schema.Reports team name answer := by
  simp only [Equation.badAnswer?, Schema.Reports, ← Binding.resolve_snd_eq_some_iff]
  exact Option.bind_eq_some_iff

theorem mem_badAnswers_substitute {answer : BadAnswer} :
    answer ∈ (e.substitute schema team).badAnswers ↔
      ∃ name ∈ e.identifiers, schema.Reports team name answer := by
  simp [Equation.substitute, badAnswer?_eq_some_iff]

/-- Substitution lists the answers that lack a number. -/
theorem Equation.listsBadAnswers_substitute :
    e.ListsBadAnswers schema team (e.substitute schema team).badAnswers where
  mem_iff _ := mem_badAnswers_substitute
  nodup := by
    -- an answer is what the team answered to its key, so the key determines it
    have hraw : ∀ answer ∈ (e.substitute schema team).badAnswers,
        answer = ⟨answer.key, team.answer answer.key⟩ := by
      intro answer hanswer
      obtain ⟨_, _, _, _, _, rfl⟩ := mem_badAnswers_substitute.mp hanswer
      rfl
    refine List.pairwise_map.mpr ((nodup_eraseDups _).imp_of_mem fun ha hb hne hkey => hne ?_)
    rw [hraw _ ha, hraw _ hb, hkey]
  ordered := by
    refine (pairwise_eraseDups _).imp fun {answer later} hearlier before name after hnames hlater => ?_
    have hsplit : e.identifiers.filterMap (badAnswer? schema team) =
        before.filterMap (badAnswer? schema team) ++
          later :: after.filterMap (badAnswer? schema team) := by
      rw [hnames, List.filterMap_append, List.filterMap_cons_some (badAnswer?_eq_some_iff.mpr hlater)]
    obtain ⟨earlier, hmem, hreports⟩ := List.mem_filterMap.mp (hearlier _ _ hsplit)
    exact ⟨earlier, hmem, badAnswer?_eq_some_iff.mp hreports⟩

/-! ## The score -/

/-- A formula yields a finite number or none. -/
theorem Formula.isFinite_of_evaluate {formula : String} {x : Float}
    (h : Formula.evaluate formula = .ok x) : x.isFinite = true := by
  unfold Formula.evaluate at h
  split at h
  · cases h
  · split at h
    · next hfinite =>
      cases h
      exact hfinite
    · cases h

/-- What an evaluation consists of if the formula has a value. -/
theorem Equation.evaluate_of_ok {x : Float}
    (h : Formula.evaluate (e.substitute schema team).expression = .ok x) :
    e.evaluate schema team = ⟨x, (e.substitute schema team).expression,
      (e.substitute schema team).badAnswers.map .notNumeric⟩ := by
  simp only [evaluate, h]

/-- What an evaluation consists of if the formula has none. -/
theorem Equation.evaluate_of_failure {failure : Failure}
    (h : Formula.evaluate (e.substitute schema team).expression = .error failure) :
    e.evaluate schema team = ⟨0, (e.substitute schema team).expression,
      (e.substitute schema team).badAnswers.map .notNumeric ++ [.formula failure]⟩ := by
  simp only [evaluate, h]

/-- A score is finite. -/
theorem Equation.isFinite_score_evaluate : (e.evaluate schema team).score.isFinite = true := by
  cases hvalue : Formula.evaluate (e.substitute schema team).expression with
  | ok x =>
    rw [evaluate_of_ok hvalue]
    exact Formula.isFinite_of_evaluate hvalue
  | error failure =>
    rw [evaluate_of_failure hvalue]
    show (0 : Float).isFinite = true
    decide +kernel

end

/-- The problems of an evaluation are the answers that lack a number, each once in the order in which
they are asked for, and then the failure of the substituted formula, if it has no value.  None of
them concerns the form.  The score is the value of the formula, is `0` if it has none, and is finite
in any case. -/
theorem Equation.problems_evaluate (e : Equation) (schema : Schema) (team : Team) :
    ∃ (bad : List BadAnswer) (failure : Option Failure),
      (e.evaluate schema team).problems =
        bad.map .notNumeric ++ (failure.map .formula).toList ∧
      e.ListsBadAnswers schema team bad ∧
      Formula.evaluate (e.substitute schema team).expression =
        failure.elim (.ok (e.evaluate schema team).score) .error ∧
      (failure.isSome = true → (e.evaluate schema team).score = 0) ∧
      (e.evaluate schema team).score.isFinite = true ∧
      ∀ problem ∈ (e.evaluate schema team).problems, problem.concernsForm = false := by
  have hbad : ∀ problem ∈ (e.substitute schema team).badAnswers.map Problem.notNumeric,
      problem.concernsForm = false := by
    intro problem hproblem
    obtain ⟨_, _, rfl⟩ := List.mem_map.mp hproblem
    rfl
  refine ⟨(e.substitute schema team).badAnswers, ?_⟩
  cases hvalue : Formula.evaluate (e.substitute schema team).expression with
  | ok x =>
    rw [evaluate_of_ok hvalue]
    exact ⟨none, by simp, listsBadAnswers_substitute, rfl, by simp,
      Formula.isFinite_of_evaluate hvalue, hbad⟩
  | error failure =>
    rw [evaluate_of_failure hvalue]
    have hzero : (0 : Float).isFinite = true := by decide +kernel
    refine ⟨some failure, rfl, listsBadAnswers_substitute, rfl, fun _ => rfl, hzero, ?_⟩
    intro problem hproblem
    rcases List.mem_append.mp hproblem with hproblem | hproblem
    · exact hbad problem hproblem
    · obtain rfl := List.mem_singleton.mp hproblem
      rfl

/-- Answers that are asked for twice or under two names are listed once, and before the answer that
is asked for after them. -/
example :
    ((⟨"total", "Gears + gears*points + height"⟩ : Equation).substitute
      (.ofFields [.stepper ⟨[], ["Gears"], ["gears"]⟩,
        .textField .number ⟨["number"], ["Points", "Height"], ["points", "height"]⟩])
      ⟨"254", [("gears", "many"), ("points", "12"), ("height", "inf")]⟩).badAnswers =
    [⟨"gears", "many"⟩, ⟨"height", "inf"⟩] := by
  decide +kernel

end Scorecard
