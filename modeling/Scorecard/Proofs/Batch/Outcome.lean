import Scorecard.Proofs.Batch.Reading
import Scorecard.Proofs.Report.Course
import Scorecard.Proofs.Report.Markup
import Scorecard.Proofs.Report.Stamps

/-!
# How a batch ends

A run reads a batch, presents it and publishes its report.

* Presenting it, which is scoring it and showing the summary, never fails and leaves the disk as it
  is (`Batch.present_run`).
* Publishing fails exactly if the report is `Batch.Unwritable` (`Batch.fails_publish_iff`).
* So a run fails only because of a place, and an obstacle to reading shows before anything is
  written or printed (`Batch.run_fails_iff`).
-/

namespace Scorecard

/-! ## What keeps a report from being written -/

theorem Format.name_of_ofName? {name : String} {f : Format} (h : ofName? name = some f) :
    f.name = name := by
  simpa using List.find?_some h

theorem Format.name_injective : Function.Injective Format.name := by
  intro f g h
  have hsome := congrArg ofName? h
  rw [ofName?_name, ofName?_name] at hsome
  exact Option.some.inj hsome

namespace Batch

section

variable {σ : Type} [Workspace (StateM σ)]

/-- Scores a batch and shows the summary. -/
def present (b : Batch) : Attempt σ Report := do
  let r ← b.score
  (b.rankingCautions r).forM Workspace.printMessageLine
  Workspace.printLine (r.summary (r.ordered b.sortBy)).text
  return r

theorem run_eq (o : BatchOptions) : (run o : Attempt σ PUnit) =
    prepare o >>= fun b => b.present >>= fun r => b.publish r := by
  simp [run, present]

theorem publish_eq (b : Batch) (r : Report) : (b.publish r : Attempt σ PUnit) =
    Workspace.makeDirectories b.outputDir >>= fun made =>
      match made with
      | .error cause => throw (.unwritable cause)
      | .ok _ => Workspace.now >>= fun time => b.formats.forM (b.writeReport r time) := by
  unfold publish
  congr 1
  funext made
  cases made <;> rfl

/-- A run that comes as far as publishing: the batch that it has read, its report, and the state
after the summary was shown. -/
def Presents (o : BatchOptions) (s : σ) (b : Batch) (r : Report) (s' : σ) : Prop :=
  ∃ s₀, (prepare o : Attempt σ Batch).run.run s = (.ok b, s₀) ∧
    (b.present : Attempt σ Report).run.run s₀ = (.ok r, s')

theorem Presents.run_eq {o : BatchOptions} {s s' : σ} {b : Batch} {r : Report}
    (h : Presents o s b r s') : (run o : Attempt σ PUnit).run.run s =
      (b.publish r : Attempt σ PUnit).run.run s' := by
  obtain ⟨s₀, hprepare, hpresent⟩ := h
  rw [Batch.run_eq, Attempt.run_bind_ok hprepare, Attempt.run_bind_ok hpresent]

theorem Presents.unique {o : BatchOptions} {s s₁ s₂ : σ} {b₁ b₂ : Batch} {r₁ r₂ : Report}
    (h₁ : Presents o s b₁ r₁ s₁) (h₂ : Presents o s b₂ r₂ s₂) : b₁ = b₂ ∧ r₁ = r₂ ∧ s₁ = s₂ := by
  obtain ⟨t₁, hprepare₁, hpresent₁⟩ := h₁
  obtain ⟨t₂, hprepare₂, hpresent₂⟩ := h₂
  rw [hprepare₁] at hprepare₂
  cases hprepare₂
  rw [hpresent₁] at hpresent₂
  cases hpresent₂
  exact ⟨rfl, rfl, rfl⟩

/-- Something that keeps a report from being written in a state: its directory cannot be made, or,
when the directory is there and some formats have been written, the file of the next one cannot be
written. -/
inductive Unwritable (b : Batch) (r : Report) (s : σ) : Prop where
  | directory (cause : FileError) (s' : σ) :
      (Workspace.makeDirectories b.outputDir : Attempt σ _).run.run s = (.ok (.error cause), s') →
        Unwritable b r s
  | file (s₁ s₂ s₃ s₄ : σ) (time : Timestamp) (before after : List String) (f : Format)
      (cause : FileError) :
      (Workspace.makeDirectories b.outputDir : Attempt σ _).run.run s = (.ok (.ok ⟨⟩), s₁) →
        (Workspace.now : Attempt σ _).run.run s₁ = (.ok time, s₂) →
        b.formats = before ++ f.name :: after →
        (before.forM (b.writeReport r time) : Attempt σ PUnit).run.run s₂ = (.ok ⟨⟩, s₃) →
        (Workspace.writeText (joinPath b.outputDir (f.fileName time))
          (f.render r (r.ordered b.sortBy)) : Attempt σ _).run.run s₃ = (.ok (.error cause), s₄) →
        Unwritable b r s

end

section

variable {σ : Type} [Workspace (StateM σ)] [Observed σ]

/-- What is said about a step is no more than a message. -/
theorem reads_tell_console (milliseconds : Nat) (e : Event) :
    Reads (console.tell milliseconds e : Attempt σ PUnit) fun _ => .ok ⟨⟩ := by
  cases e with
  | remark r => exact .printMessage _
  | scored row => exact .printMessage _
  | complete teams equations remarks => exact .printMessage _

/-- Scoring never fails, and changes nothing that can be seen. -/
theorem score_passes (b : Batch) : Passes (b.score : Attempt σ Report) fun r =>
    ∃ id createdAt milliseconds, r = b.form.report b.teams id createdAt milliseconds := by
  unfold score
  rw [Form.scoreTeams_eq]
  refine (Passes.of_reads (.printMessageLines _)).bind fun _ _ => ?_
  refine Passes.milliseconds.bind fun start _ => ?_
  refine (Passes.of_reads (.forM (reads_tell_console 0) _)).bind fun _ _ => ?_
  refine Passes.milliseconds.bind fun now _ => ?_
  refine (Passes.of_reads (reads_tell_console _ _)).bind fun _ _ => ?_
  refine Passes.freshIdentifier.bind fun id _ => Passes.now.bind fun createdAt _ => ?_
  exact Passes.pure ⟨id, createdAt, _, rfl⟩

theorem keepsOutput_writeReport (b : Batch) (r : Report) (time : Timestamp) (name : String) :
    KeepsOutput (b.writeReport r time name : Attempt σ PUnit) := by
  unfold writeReport
  split
  · exact .of_reads (.printMessage _)
  · refine (KeepsOutput.of_completes (.writeText _ _)).bind fun written => ?_
    cases written with
    | ok _ => exact .of_reads (.printMessage _)
    | error cause => exact .throw _

theorem keepsOutput_publish (b : Batch) (r : Report) :
    KeepsOutput (b.publish r : Attempt σ PUnit) := by
  rw [publish_eq]
  refine (KeepsOutput.of_completes (.makeDirectories _)).bind fun made => ?_
  cases made with
  | error cause => exact .throw _
  | ok _ =>
    exact (KeepsOutput.of_passes .now).bind fun time => .forM (keepsOutput_writeReport b r time) _

/-- Only a format that is known can fail, and only when its file cannot be written. -/
theorem fails_writeReport_iff (b : Batch) (r : Report) (time : Timestamp) (name : String) (s : σ) :
    Attempt.Fails (b.writeReport r time name) s ↔ ∃ f cause s', name = Format.name f ∧
      (Workspace.writeText (joinPath b.outputDir (f.fileName time))
        (f.render r (r.ordered b.sortBy)) : Attempt σ _).run.run s = (.ok (.error cause), s') := by
  unfold writeReport
  cases hformat : Format.ofName? name with
  | none =>
    obtain ⟨_, s', hrun, -⟩ := Passes.of_reads
      (Reads.printMessage ("Unknown format: " ++ name ++ "\n")) s
    refine iff_of_false (Attempt.not_fails_of_run hrun) ?_
    rintro ⟨f, cause, s'', rfl, -⟩
    rw [Format.ofName?_name] at hformat
    cases hformat
  | some f =>
    obtain rfl := Format.name_of_ofName? hformat
    obtain ⟨written, s', hrun, -⟩ := Completes.writeText (joinPath b.outputDir (f.fileName time))
      (f.render r (r.ordered b.sortBy)) s
    rw [Attempt.fails_bind_of_run hrun]
    cases written with
    | error cause =>
      exact iff_of_true ⟨f.failure _ cause, rfl⟩ ⟨f, cause, s', rfl, hrun⟩
    | ok _ =>
      obtain ⟨_, s'', hrun', -⟩ := Passes.of_reads
        (Reads.printMessage (f.announcement (joinPath b.outputDir (f.fileName time)) ++ "\n")) s'
      refine iff_of_false (Attempt.not_fails_of_run hrun') ?_
      rintro ⟨f', cause, s'', hname, hrun''⟩
      obtain rfl : f = f' := Format.name_injective hname
      rw [hrun] at hrun''
      cases hrun''

/-- A report fails to be published exactly if something keeps it from being written. -/
theorem fails_publish_iff (b : Batch) (r : Report) (s : σ) :
    Attempt.Fails (b.publish r) s ↔ b.Unwritable r s := by
  rw [publish_eq]
  obtain ⟨made, s₁, hmade, -⟩ := Completes.makeDirectories b.outputDir s
  rw [Attempt.fails_bind_of_run hmade]
  cases made with
  | error cause => exact iff_of_true ⟨.unwritable cause, rfl⟩ (.directory cause s₁ hmade)
  | ok _ =>
    obtain ⟨time, s₂, htime, -⟩ := Passes.now s₁
    rw [Attempt.fails_bind_of_run htime, Attempt.fails_forM_iff]
    constructor
    · rintro ⟨before, name, after, s₃, hsplit, hbefore, hfails⟩
      obtain ⟨f, cause, s₄, rfl, hwrite⟩ := (fails_writeReport_iff b r time name s₃).mp hfails
      exact .file s₁ s₂ s₃ s₄ time before after f cause hmade htime hsplit hbefore hwrite
    · rintro (⟨cause, s', hnot⟩ |
        ⟨s₁', s₂', s₃, s₄, time', before, after, f, cause, hmade', htime', hsplit, hbefore, hwrite⟩)
      · rw [hmade] at hnot
        cases hnot
      · rw [hmade] at hmade'
        cases hmade'
        rw [htime] at htime'
        cases htime'
        exact ⟨before, f.name, after, s₃, hsplit, hbefore,
          (fails_writeReport_iff b r time _ s₃).mpr ⟨f, cause, s₄, rfl, hwrite⟩⟩

/-- Presenting a batch never fails.  It adds the summary to the output and changes nothing else that
can be seen. -/
theorem present_run (b : Batch) (s : σ) : ∃ r s',
    (∃ id createdAt milliseconds, r = b.form.report b.teams id createdAt milliseconds) ∧
      (b.present : Attempt σ Report).run.run s = (.ok r, s') ∧
      Observed.disk s' = Observed.disk s ∧ Observed.output s' =
        Observed.output s ++ ((r.summary (r.ordered b.sortBy)).text ++ "\n") := by
  obtain ⟨r, s₁, hscore, hr, hdisk₁, houtput₁⟩ := score_passes b s
  obtain ⟨_, s₂, hcautions, -, hdisk₂, houtput₂⟩ :=
    Passes.of_reads (.printMessageLines (b.rankingCautions r)) s₁
  obtain ⟨hdisk₃, houtput₃⟩ := Observed.print ((r.summary (r.ordered b.sortBy)).text ++ "\n") s₂
  refine ⟨r, _, hr, ?_, hdisk₃.trans (hdisk₂.trans hdisk₁), ?_⟩
  · unfold present
    rw [Attempt.run_bind_ok hscore, Attempt.run_bind_ok hcautions]
    rfl
  · rw [houtput₃, houtput₂, houtput₁]

/-- The summary of a report has one row for each team, in whatever order they are ranked. -/
theorem teams_summary (b : Batch) (id : Identifier) (createdAt : Timestamp)
    (milliseconds : UInt64) :
    let r := b.form.report b.teams id createdAt milliseconds
    ((r.summary (r.ordered b.sortBy)).rows.map fun cells => cells.getD 1 "").Perm
      (b.teams.map Team.number) := by
  intro r
  have hrows : (r.summary (r.ordered b.sortBy)).rows.map (fun cells => cells.getD 1 "") =
      (r.ordered b.sortBy).map Row.team := by
    have hteams := congrArg (List.map Row.team) (List.zipIdx_map_fst 1 (r.ordered b.sortBy))
    rw [List.map_map] at hteams
    rw [Report.summary, List.map_map]
    exact hteams
  rw [hrows]
  have hteams : r.rows.map Row.team = b.teams.map Team.number := by
    show (b.teams.map b.form.row).map Row.team = _
    rw [List.map_map]
    rfl
  rw [← hteams]
  exact (ordered_perm r b.sortBy).map Row.team

/-- An obstacle ends a run before anything is written or printed. -/
theorem run_of_obstacle {o : BatchOptions} {s : σ} (h : Obstacle (viewOf s) o) :
    Attempt.Fails (run o) s ∧
      Observed.disk ((run o : Attempt σ PUnit).run.run s).2 = Observed.disk s ∧
      Observed.output ((run o : Attempt σ PUnit).run.run s).2 = Observed.output s := by
  obtain ⟨failure, herror⟩ := View.exists_prepare_eq_error h
  obtain ⟨hvalue, hdisk, houtput⟩ := Reads.prepare o s
  have hprepare : (prepare o : Attempt σ Batch).run.run s =
      (.error failure, ((prepare o : Attempt σ Batch).run.run s).2) :=
    Prod.ext (hvalue.trans herror) rfl
  have hrun : (run o : Attempt σ PUnit).run.run s =
      (.error failure, ((prepare o : Attempt σ Batch).run.run s).2) := by
    rw [Batch.run_eq, Attempt.run_bind_error hprepare]
  rw [hrun]
  exact ⟨⟨failure, by rw [hrun]⟩, hdisk, houtput⟩

/-- Without an obstacle a run comes as far as publishing, and has then only printed the summary. -/
theorem presents_of_not_obstacle {o : BatchOptions} {s : σ} (h : ¬ Obstacle (viewOf s) o) :
    ∃ settings text names id createdAt milliseconds s',
      (viewOf s).settings o.settings = .ok settings ∧
      (viewOf s).readText (o.config.getD settings.formConfig) = .ok text ∧
      (viewOf s).names o.teams = .ok names ∧
      let b := View.batch o settings (Form.parse text)
        ((viewOf s).teams o.teams settings.teamNumberKey names)
      let r := b.form.report b.teams id createdAt milliseconds
      Presents o s b r s' ∧ Observed.output s' =
        Observed.output s ++ ((r.summary (r.ordered b.sortBy)).text ++ "\n") := by
  obtain ⟨settings, text, names, hsettings, htext, hthere, hnames⟩ :=
    View.exists_of_not_obstacle h
  obtain ⟨hvalue, -, houtput₀⟩ := Reads.prepare o s
  have hbatch := hvalue.trans (View.prepare_eq_ok hsettings htext hthere hnames)
  obtain ⟨_, s', ⟨id, createdAt, milliseconds, rfl⟩, hpresent, -, houtput⟩ :=
    present_run (View.batch o settings (Form.parse text)
      ((viewOf s).teams o.teams settings.teamNumberKey names))
      ((prepare o : Attempt σ Batch).run.run s).2
  rw [houtput₀] at houtput
  exact ⟨settings, text, names, id, createdAt, milliseconds, s', hsettings, htext, hnames,
    ⟨_, Prod.ext hbatch rfl, hpresent⟩, houtput⟩

/-- A run fails exactly if there is an obstacle to reading settings, form and teams, or something
keeps the report from being written.  An obstacle shows before anything is written or printed.
Without one, whatever the form and the files of the teams hold, the summary is printed with one row
for each team that was read. -/
theorem run_fails_iff (o : BatchOptions) (s : σ) :
    let outcome := (run o : Attempt σ PUnit).run.run s
    ((∃ failure, outcome.1 = .error failure) ↔
      Obstacle (viewOf s) o ∨ ∃ b r s', Presents o s b r s' ∧ b.Unwritable r s') ∧
    (Obstacle (viewOf s) o → Observed.disk outcome.2 = Observed.disk s ∧
      Observed.output outcome.2 = Observed.output s) ∧
    (¬ Obstacle (viewOf s) o → ∃ settings text names id createdAt milliseconds,
      (viewOf s).settings o.settings = .ok settings ∧
      (viewOf s).readText (o.config.getD settings.formConfig) = .ok text ∧
      (viewOf s).names o.teams = .ok names ∧
      let b := View.batch o settings (Form.parse text)
        ((viewOf s).teams o.teams settings.teamNumberKey names)
      let r := b.form.report b.teams id createdAt milliseconds
      let table := r.summary (r.ordered b.sortBy)
      (∃ s', Presents o s b r s') ∧
        Observed.output outcome.2 = Observed.output s ++ (table.text ++ "\n") ∧
        (table.rows.map fun cells => cells.getD 1 "").Perm (b.teams.map Team.number)) := by
  intro outcome
  by_cases hobstacle : Obstacle (viewOf s) o
  · obtain ⟨hfails, hunchanged⟩ := run_of_obstacle hobstacle
    exact ⟨iff_of_true hfails (.inl hobstacle), fun _ => hunchanged,
      fun hnone => absurd hobstacle hnone⟩
  · obtain ⟨settings, text, names, id, createdAt, milliseconds, s', hsettings, htext, hnames,
      hpresents, houtput⟩ := presents_of_not_obstacle hobstacle
    refine ⟨?_, fun h => absurd h hobstacle, fun _ => ⟨settings, text, names, id, createdAt,
      milliseconds, hsettings, htext, hnames, ⟨s', hpresents⟩, ?_, teams_summary _ _ _ _⟩⟩
    · show Attempt.Fails (run o) s ↔ _
      rw [Attempt.Fails, hpresents.run_eq]
      refine (fails_publish_iff _ _ s').trans ⟨fun hunwritable =>
        .inr ⟨_, _, s', hpresents, hunwritable⟩, ?_⟩
      rintro (h | ⟨b, r, s'', hpresents', hunwritable⟩)
      · exact absurd h hobstacle
      · obtain ⟨rfl, rfl, rfl⟩ := hpresents.unique hpresents'
        exact hunwritable
    · show Observed.output ((run o : Attempt σ PUnit).run.run s).2 = _
      rw [hpresents.run_eq, keepsOutput_publish _ _ s', houtput]

end

end Batch

/-- A world with a form, one line of which cannot be read, and a directory with the record of a
team. -/
def pitWorld : World where
  files := ((FileTree.empty.withFile ["config.txt"]
      "DIAL ;; Dial ;; dial\nTotal = 2".toUTF8).withFile
    ["teams", "pit.json"] "\x7b\"team_num\": 254\x7d".toUTF8)
  environment := []
  time := .leapSecond
  identifier := ⟨0⟩
  output := ""
  messages := ""

theorem settings_pitWorld :
    (viewOf pitWorld).settings none = .ok ((viewOf pitWorld).complete {}) := by
  have hpath : (viewOf pitWorld).settingsPath none = .ok none := by decide +kernel
  unfold View.settings
  rw [hpath]
  rfl

theorem formConfig_pitWorld : ((viewOf pitWorld).complete {}).formConfig = "config.txt" :=
  View.expandPath_of_plain _ (by decide +kernel)

theorem not_obstacle_pitWorld : ¬ Obstacle (viewOf pitWorld) { teams := "teams" } := by
  have hpath : (viewOf pitWorld).settingsPath none = .ok none := by decide +kernel
  have hnames : (viewOf pitWorld).names "teams" = .ok ["pit.json"] := by decide +kernel
  have htext : ∃ text, (viewOf pitWorld).readText "config.txt" = .ok text := ⟨_, rfl⟩
  intro h
  cases h with
  | settingsMissing path hchosen => cases hchosen
  | settingsUnreadable path cause hfound =>
    rw [hpath] at hfound
    cases hfound
  | settingsUnparseable path text hfound =>
    rw [hpath] at hfound
    cases hfound
  | formUnreadable settings cause hsettings htext' =>
    rw [settings_pitWorld] at hsettings
    cases hsettings
    obtain ⟨text, htext⟩ := htext
    rw [Option.getD_none, formConfig_pitWorld, htext] at htext'
    cases htext'
  | teamsMissing hmissing => exact absurd hmissing (by decide +kernel)
  | teamsUnlistable cause hunlistable =>
    rw [hnames] at hunlistable
    cases hunlistable

theorem teams_pitWorld :
    ((viewOf pitWorld).teams "teams" "team_num" ["pit.json"]).map Team.number = ["254"] := by
  have hpaths : Roster.recordPaths "teams" ["pit.json"] = ["teams/pit.json"] := by
    rw [Roster.recordPaths, List.filter_eq_self.mpr (by decide +kernel), List.mergeSort_singleton]
    decide +kernel
  rw [View.teams, View.outcomes, hpaths]
  decide +kernel

/-- A run for teams that are not there fails and leaves the files as they are; a run for the teams
that are there prints one row. -/
theorem run_fails_iff_pitWorld :
    (∃ failure, ((Batch.run { teams := "pits" } : Attempt World PUnit).run.run pitWorld).1 =
      .error failure) ∧
    ((Batch.run { teams := "pits" } : Attempt World PUnit).run.run pitWorld).2.files =
      pitWorld.files ∧
    ∃ table : Table, table.rows.map (fun cells => cells.getD 1 "") = ["254"] ∧
      ((Batch.run { teams := "teams" } : Attempt World PUnit).run.run pitWorld).2.output =
        table.text ++ "\n" := by
  have hmissing : Obstacle (viewOf pitWorld) { teams := "pits" } :=
    .teamsMissing (by decide +kernel)
  have hnames : (viewOf pitWorld).names "teams" = .ok ["pit.json"] := by decide +kernel
  obtain ⟨hfails, hunchanged, -⟩ := Batch.run_fails_iff { teams := "pits" } pitWorld
  obtain ⟨-, -, hpresents⟩ := Batch.run_fails_iff { teams := "teams" } pitWorld
  obtain ⟨settings, text, names, id, createdAt, milliseconds, hsettings, -, hnames', -, houtput,
    hrows⟩ := hpresents not_obstacle_pitWorld
  refine ⟨hfails.mpr (.inl hmissing), congrArg Prod.fst (hunchanged hmissing).1, _, ?_,
    houtput.trans (String.empty_append)⟩
  rw [settings_pitWorld] at hsettings
  cases hsettings
  rw [hnames] at hnames'
  cases hnames'
  refine List.perm_singleton.mp ?_
  rw [← teams_pitWorld]
  exact hrows

end Scorecard
