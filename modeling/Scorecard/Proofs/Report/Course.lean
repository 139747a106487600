import Mathlib.Data.List.Forall2
import Scorecard.Proofs.Form.Cells
import Scorecard.Proofs.Report.Stamps
import Scorecard.Report.Scoring
import Scorecard.Workspace.World

/-!
# The course of a run

Teams are scored one after the other.  An observer is told of every step, while rows and remarks are
gathered for the report.

* `forIn_gather`: what a loop has done and gathered after some of its rounds.
* `Form.scoreTeam_eq`: a round of the loop makes the row of its team and the remarks on it.
* `Form.scoreTeams_eq`: the observer is told of the events of the run, in their order and of nothing
  else, and the loop yields the report.

`Form.IsCourse` says how events and a report match, and `Form.isCourse_scoreTeams` that those of the
loop do.
-/

namespace Scorecard

/-! ## Observers -/

/-- Tells an observer of a step.  A run that is complete has taken the time. -/
def Observer.tell {m : Type → Type} (observer : Observer m) (milliseconds : Nat) : Event → m PUnit
  | .remark r => observer.remark r
  | .scored row => observer.scored row
  | .complete teams equations remarks => observer.complete teams equations remarks milliseconds

/-- The remark that an observer is told of. -/
def Event.remark? : Event → Option Remark
  | .remark r => some r
  | _ => none

/-- The row that an observer is told of. -/
def Event.row? : Event → Option Row
  | .scored row => some row
  | _ => none

/-! ## Gathering -/

section

variable {m : Type → Type} [Monad m] [LawfulMonad m] {α β γ : Type}

theorem forIn_eq_forM (act : α → m PUnit) (as : List α) :
    (forIn as PUnit.unit fun a _ => do
      act a
      pure (.yield PUnit.unit)) = forM as act := by
  induction as with
  | nil => simp
  | cons a as ih => simp only [List.forIn_cons, bind_assoc, pure_bind, ih, List.forM_cons]

theorem forM_flatMap (act : β → m PUnit) (f : α → List β) (as : List α) :
    forM (as.flatMap f) act = forM as fun a => forM (f a) act := by
  induction as with
  | nil => simp
  | cons a as ih => simp [ih]

/-- A loop that gathers two lists while it acts: it acts on one element after the other, and the
lists grow by what each element gives. -/
theorem forIn_gather (act : α → m PUnit) (f : α → List β) (g : α → List γ) (as : List α)
    (xs : List β) (ys : List γ) :
    (forIn as (xs, ys) fun a gathered => do
      act a
      pure (.yield (gathered.1 ++ f a, gathered.2 ++ g a))) =
      (do
        forM as act
        pure (xs ++ as.flatMap f, ys ++ as.flatMap g)) := by
  induction as generalizing xs ys with
  | nil => simp
  | cons a as ih =>
    simp only [List.forIn_cons, bind_assoc, pure_bind, ih, List.forM_cons, List.flatMap_cons,
      List.append_assoc]

end

namespace Form

/-! ## Runs -/

/-- A round of the loop makes the row of its team and the remarks on it. -/
theorem scoreTeam_eq (form : Form) (team : Team) :
    form.scoreTeam team = (form.row team, form.remarks team) := by
  have hgather := forIn_gather (m := Id) (fun _ => pure PUnit.unit)
    (fun e : Equation => [(e.evaluate form.schema team).score])
    (fun e => remarksOn team e (e.evaluate form.schema team)) form.equations [] []
  simp only [pure_bind, List.nil_append, ← List.map_eq_flatMap] at hgather
  unfold scoreTeam
  dsimp only
  rw [hgather]
  simp [row, remarks]

/-- The observer is told of the events of the run, and the loop yields the report.  Only the last
event comes with the time that the run has taken. -/
theorem scoreTeams_eq {m : Type → Type} [Monad m] [LawfulMonad m] [Workspace m] (form : Form)
    (observer : Observer m) (teams : List Team) :
    form.scoreTeams observer teams =
      (do
        let start ← Workspace.milliseconds
        forM (teams.flatMap form.teamEvents) (observer.tell 0)
        let elapsed := (← Workspace.milliseconds) - start
        observer.tell elapsed (form.completion teams)
        let id ← Workspace.freshIdentifier
        let createdAt ← Workspace.now
        pure (form.report teams id createdAt elapsed.toUInt64)) := by
  have hround (team : Team) :
      (do
        forIn (form.remarks team) PUnit.unit fun r _ => do
          observer.remark r
          pure (.yield PUnit.unit)
        observer.scored (form.row team)) = forM (form.teamEvents team) (observer.tell 0) := by
    rw [forIn_eq_forM, teamEvents, List.forM_append, List.forM_map]
    simp [Observer.tell]
  have hgather := forIn_gather (fun team => forM (form.teamEvents team) (observer.tell 0))
    (fun team => [form.row team]) form.remarks teams [] []
  simp only [← hround, bind_assoc, List.nil_append] at hgather
  unfold scoreTeams
  simp only [scoreTeam_eq]
  rw [hgather]
  simp only [hround, bind_assoc, pure_bind, ← List.map_eq_flatMap, List.length_map, forM_flatMap,
    Observer.tell, completion, report]

/-! ## Courses -/

/-- What an observer is told in the course of a run matches a report.  `report` makes the report on
any teams, so the report on a team alone is the one on a list of one. -/
structure IsCourse (form : Form) (report : List Team → Report) (teams : List Team)
    (events : List Event) : Prop where
  /-- Team by team the observer is told of the remarks on it and of its row, as they are in the
  report on the team alone, and at the end of the counts. -/
  told : events = (teams.flatMap fun team =>
      (report [team]).remarks.map .remark ++ (report [team]).rows.map .scored) ++
    [.complete teams.length form.equations.length (report teams).remarks.length]
  /-- What the observer is told of the remarks is what the report holds. -/
  remarks : events.filterMap Event.remark? = (report teams).remarks
  /-- What the observer is told of the rows is what the report holds. -/
  rows : events.filterMap Event.row? = (report teams).rows
  /-- A team alone has one row, with its number, and in the report on all teams it has the same. -/
  alone : List.Forall₂ (fun team row => (report [team]).rows = [row] ∧ row.team = team.number)
    teams (report teams).rows
  /-- Teams in another order have their rows in that order. -/
  reordered : ∀ others : List Team, others.Perm teams →
    (others.zip (report others).rows).Perm (teams.zip (report teams).rows)
  /-- A row has a cell for each column and a score for each equation. -/
  full : ∀ row ∈ (report teams).rows, row.cells.length = (report teams).columns.length ∧
    row.scores.length = form.equations.length

theorem filterMap_remark? (form : Form) (teams : List Team) :
    (form.events teams).filterMap Event.remark? = teams.flatMap form.remarks := by
  rw [events, List.filterMap_append, List.filterMap_flatMap]
  simp [teamEvents, completion, List.filterMap_map, List.filterMap_cons, Function.comp_def,
    Event.remark?]

theorem filterMap_row? (form : Form) (teams : List Team) :
    (form.events teams).filterMap Event.row? = teams.map form.row := by
  rw [events, List.filterMap_append, List.filterMap_flatMap, List.map_eq_flatMap]
  simp [teamEvents, completion, List.filterMap_map, Function.comp_def, Event.row?]

theorem zip_rows (form : Form) (teams : List Team) :
    teams.zip (teams.map form.row) = teams.map fun team => (team, form.row team) := by
  simpa using @List.zip_map' _ _ _ id form.row teams

theorem isCourse_events (form : Form) (teams : List Team) (id : Identifier)
    (createdAt : Timestamp) (milliseconds : UInt64) :
    form.IsCourse (fun ts => form.report ts id createdAt milliseconds) teams
      (form.events teams) where
  told := by
    have hteam (team : Team) : (form.report [team] id createdAt milliseconds).remarks.map .remark ++
        (form.report [team] id createdAt milliseconds).rows.map .scored =
          form.teamEvents team := by
      simp [report, teamEvents]
    simp only [hteam]
    rfl
  remarks := filterMap_remark? form teams
  rows := filterMap_row? form teams
  alone := by
    rw [report, List.forall₂_map_right_iff, List.forall₂_same]
    intro team _
    exact ⟨rfl, rfl⟩
  reordered others h := by
    show (others.zip (others.map form.row)).Perm (teams.zip (teams.map form.row))
    rw [zip_rows, zip_rows]
    exact h.map _
  full row hrow := by
    obtain ⟨team, -, rfl⟩ := List.mem_map.mp hrow
    exact ⟨Schema.length_cells form.schema team, List.length_map _⟩

/-- A run of the loop over teams, for any observer, in any workspace: the observer is told of the
events of the run, in their order and of nothing else, and the loop yields the report.  The time
that comes with the last event is the one in the report; no other event comes with a time.  Events
and report match, the counts at the end are right, and each team has the row and the remarks that it
has alone, in whichever order the teams are scored. -/
theorem isCourse_scoreTeams (form : Form) :
    (∀ {m : Type → Type} [Monad m] [LawfulMonad m] [Workspace m] (observer : Observer m)
        (teams : List Team),
      form.scoreTeams observer teams =
        (do
          let start ← Workspace.milliseconds
          forM (teams.flatMap form.teamEvents) (observer.tell 0)
          let elapsed := (← Workspace.milliseconds) - start
          observer.tell elapsed (form.completion teams)
          let id ← Workspace.freshIdentifier
          let createdAt ← Workspace.now
          pure (form.report teams id createdAt elapsed.toUInt64))) ∧
      ∀ (teams : List Team) (id : Identifier) (createdAt : Timestamp) (milliseconds : UInt64),
        form.IsCourse (fun ts => form.report ts id createdAt milliseconds) teams
          (form.events teams) :=
  ⟨fun observer teams => scoreTeams_eq form observer teams,
    fun teams id createdAt milliseconds => isCourse_events form teams id createdAt milliseconds⟩

end Form

/-- A form with a formula that ends too early. -/
def hastyForm : Form :=
  ⟨.ofFields [.textField .number ⟨["number"], ["Auto"], ["auto"]⟩,
    .switch ⟨[], ["Climbed"], ["climbed"]⟩],
    [⟨"total", "auto+climbed_yes*5"⟩, ⟨"bad", "auto+"⟩], []⟩

/-- A number that two records have, the first of them without a numeric answer, and another one. -/
def hastyTeams : List Team :=
  [⟨"254", [("auto", "N/A")]⟩, ⟨"1114", [("auto", "12"), ("climbed", "yes")]⟩, ⟨"254", []⟩]

/-- A world without files, in which nothing has been said. -/
def stillWorld : World := ⟨.empty, [], .leapSecond, ⟨0⟩, "", ""⟩

/-- An observer that notes the team and the equation of a remark, the cells and scores of a row, and
the counts. -/
def noting : Observer (StateM World) where
  remark r := Workspace.printMessageLine (r.team ++ " " ++ r.equation.getD "")
  scored row := Workspace.printMessageLine
    (row.team ++ ": " ++ Text.join ", " (row.cells ++ row.scores.map Number.scoreText))
  complete teams equations remarks _ :=
    Workspace.printMessageLine (Text.join " " (([teams, equations, remarks]).map toString))

/-- What an observer notes who is told of three records, two of them of one team. -/
theorem isCourse_scoreTeams_hastyTeams :
    (((hastyForm.scoreTeams noting hastyTeams).run stillWorld).2.messages =
      Text.join "\n" ["254 Total", "254 Bad", "254 Bad", "254: N/A, 0, 0, 0, 0", "1114 Bad",
        "1114: 12, 1, 0, 17, 0", "254 Total", "254 Bad", "254 Bad", "254: , 0, 0, 0, 0", "3 2 7",
        ""]) ∧
    hastyTeams.reverse.Perm hastyTeams ∧
    (hastyTeams.reverse.zip (hastyForm.report hastyTeams.reverse ⟨0⟩ .leapSecond 0).rows).Perm
      (hastyTeams.zip (hastyForm.report hastyTeams ⟨0⟩ .leapSecond 0).rows) := by
  obtain ⟨hrun, hcourse⟩ := Form.isCourse_scoreTeams hastyForm
  have hperm : hastyTeams.reverse.Perm hastyTeams := List.reverse_perm hastyTeams
  refine ⟨?_, hperm, (hcourse hastyTeams ⟨0⟩ .leapSecond 0).reordered _ hperm⟩
  rw [hrun]
  decide +kernel

end Scorecard
