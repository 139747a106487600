import Scorecard.Batch
import Scorecard.Proofs.Workspace.Observed

/-!
# Reading a batch

Settings, form and teams are read before anything else happens.

* `View.prepare` says what this makes of a disk, and `Reads.prepare` that it does nothing else that
  can be seen.
* `Obstacle` lists what can be wrong: it is always a place, except for settings that are not
  understood.  A batch is read exactly if there is no obstacle (`View.exists_prepare_eq_error`,
  `View.exists_of_not_obstacle`, `View.prepare_eq_ok`), whatever the form and the files of the teams
  hold.
-/

namespace Scorecard

/-! ## What is read -/

namespace View

variable (v : View)

/-- The first of the usual settings files that is there. -/
def usualSettings? : Option String :=
  if v.pathExists Settings.localPath then some Settings.localPath
  else match v.environment? "HOME" with
    | none => none
    | some home =>
        if v.pathExists (Settings.userPath home) then some (Settings.userPath home) else none

/-- The settings file that is read: the one that was chosen, else the usual one. -/
def settingsPath (chosen : Option String) : Except Failure (Option String) :=
  match chosen with
  | some path => if v.pathExists path then .ok (some path) else .error (.settingsNotFound path)
  | none => .ok v.usualSettings?

/-- The value of a variable that a path refers to. -/
def valueOf (name : List Char) : Option String :=
  if name = [] ∨ name.contains '=' then none else v.environment? (String.ofList name)

/-- A path with its references replaced. -/
def expandPath (path : String) : String :=
  let values := (references path.toList).map fun name => (name, (v.valueOf name).getD "")
  String.ofList (expand (fun name => values.lookup name) path.toList)

/-- Settings from a file or the defaults, as the environment completes them. -/
def complete (settings : Settings) : Settings :=
  { settings with
    formConfig := v.expandPath settings.formConfig
    teamNumberKey := (v.environment? "SCOUTSHEET_TEAM_NUMBER_KEY").getD settings.teamNumberKey
    outputDir := v.expandPath ((v.environment? "SCOUTSHEET_OUTPUT_DIR").getD settings.outputDir) }

/-- The settings of a file, or the defaults. -/
def settingsIn (path : Option String) : Except Failure Settings :=
  match path with
  | none => .ok {}
  | some path =>
      match v.readText path with
      | .error cause => .error (.settingsUnreadable path cause)
      | .ok text =>
          match Settings.parse text with
          | none => .error (.settingsUnparseable path)
          | some settings => .ok settings

/-- The settings of a run. -/
def settings (chosen : Option String) : Except Failure Settings := do
  return v.complete (← v.settingsIn (← v.settingsPath chosen))

/-- The files with records among the names in a directory, and what their texts lead to. -/
def outcomes (directory numberKey : String) (names : List String) :
    List (String × Roster.Outcome RecordFault (List Team)) :=
  ((Roster.recordPaths directory names).filter v.isFile).map fun path =>
    (path, Roster.ofText path numberKey (v.readText path))

/-- The teams of the files in a directory with these names.  A file that cannot be used has none. -/
def teams (directory numberKey : String) (names : List String) : List Team :=
  (v.outcomes directory numberKey names).flatMap fun (_, outcome) =>
    match outcome.result with
    | .ok teams => teams
    | .error _ => []

/-- What a directory leads to when its names are asked for. -/
def rosterOf (directory numberKey : String) (names : Except FileError (List String)) :
    Roster.Outcome Failure (List Team) :=
  match names with
  | .error cause => ⟨.error (.teamsUnlistable directory cause), []⟩
  | .ok names =>
      let outcomes := v.outcomes directory numberKey names
      let (teams, notices) := Roster.gather outcomes
      ⟨.ok teams, notices ++
        [⟨.info, s!"{teams.length} teams loaded from {outcomes.length} files"⟩]⟩

/-- What a path leads to that should be a directory with teams. -/
def roster (directory numberKey : String) : Roster.Outcome Failure (List Team) :=
  if v.isDirectory directory then v.rosterOf directory numberKey (v.names directory)
  else ⟨.error (.teamsNotFound directory), []⟩

/-- The batch of a form and teams. -/
def batch (o : BatchOptions) (settings : Settings) (form : Form) (teams : List Team) : Batch where
  form := form
  teams := teams
  sortBy := (o.sortBy <|> settings.sortBy) <|> form.equations.head?.map Equation.title
  outputDir := o.output.getD settings.outputDir
  formats := o.format.elim settings.formats Format.requested

/-- The text of a form. -/
def formText (path : String) : Except Failure String :=
  (v.readText path).mapError (Failure.formUnreadable path)

/-- The batch that is asked for. -/
def prepare (o : BatchOptions) : Except Failure Batch := do
  let settings ← v.settings o.settings
  let text ← v.formText (o.config.getD settings.formConfig)
  let teams ← (v.roster o.teams settings.teamNumberKey).result
  return batch o settings (Form.parse text) teams

/-- A path without references stays as it is. -/
theorem expandPath_of_plain (v : View) {path : String} (h : nextReference? path.toList = none) :
    v.expandPath path = path := by
  have hexpand (value? : List Char → Option String) : expand value? path.toList = path.toList := by
    unfold expand
    split
    · next heq =>
      rw [h] at heq
      cases heq
    · rfl
  rw [View.expandPath, hexpand, String.ofList_toList]

end View

section

variable {σ α : Type} [Workspace (StateM σ)] [Observed σ]

namespace Reads

theorem findPath (chosen : Option String) :
    Reads (Settings.findPath chosen : Attempt σ (Option String)) fun v =>
      v.settingsPath chosen := by
  unfold Settings.findPath
  cases chosen with
  | some path => exact (pathExists path).test (pure _) (throw _)
  | none =>
    refine ((pathExists _).test (pure _) ((environment? "HOME").bind_ok
      (h := fun home? v => .ok (match home? with
        | none => none
        | some home => if v.pathExists (Settings.userPath home) then some (Settings.userPath home)
            else none))
      fun home? => ?_)).of_eq ?_
    · cases home? with
      | none => exact pure none
      | some home =>
        refine ((pathExists _).test (pure _) (pure _)).of_eq ?_
        funext v
        dsimp only
        split <;> rfl
    · funext v
      unfold View.settingsPath View.usualSettings?
      dsimp only
      split <;> rfl

theorem readPath (path : Option String) :
    Reads (Settings.readPath path : Attempt σ Settings) fun v => v.settingsIn path := by
  unfold Settings.readPath
  cases path with
  | none => exact pure _
  | some path =>
    refine ((readText path).bind_ok fun text => (?_ : Reads _ fun _ => match text with
        | .error cause => .error (.settingsUnreadable path cause)
        | .ok text => match Settings.parse text with
            | none => .error (.settingsUnparseable path)
            | some settings => .ok settings)).of_eq rfl
    cases text with
    | error cause => exact throw _
    | ok text =>
      dsimp only
      cases Settings.parse text with
      | none => exact throw _
      | some settings => exact pure settings

theorem valueOf (name : List Char) :
    Reads (Settings.valueOf name : Attempt σ (Option String)) fun v => .ok (v.valueOf name) := by
  unfold Settings.valueOf View.valueOf
  split
  · exact pure none
  · exact environment? _

theorem expandPath (path : String) :
    Reads (Settings.expandPath path : Attempt σ String) fun v => .ok (v.expandPath path) := by
  refine (mapM (fun name => ?_) (references path.toList)).bind_ok fun values => pure _
  exact (valueOf name).bind_ok fun value => pure (name, value.getD "")

theorem settings (chosen : Option String) :
    Reads (Settings.load chosen : Attempt σ Settings) fun v => v.settings chosen := by
  unfold Settings.load
  refine ((findPath chosen).bind fun path => (readPath path).bind fun settings =>
    (environment? _).bind_ok fun outputDir => (environment? _).bind_ok fun teamNumberKey =>
      (expandPath _).bind_ok fun formConfig => (expandPath _).bind_ok fun outputDir =>
        pure _).of_eq ?_
  funext v
  rfl

/-- What the text of a file leads to, beside its path. -/
theorem outcome (numberKey path : String) :
    Reads (do return (path, ← Roster.loadFile path numberKey) :
        Attempt σ (String × Roster.Outcome RecordFault (List Team)))
      fun v => .ok (path, Roster.ofText path numberKey (v.readText path)) :=
  ((readText path).bind_ok fun text => pure (Roster.ofText path numberKey text)).bind_ok
    fun outcome => pure (path, outcome)

theorem rosterOf (directory numberKey : String) (names : List String) :
    Reads (do
        let paths ← (Roster.recordPaths directory names).filterM Workspace.isFile
        let outcomes ← paths.mapM fun path => return (path, ← Roster.loadFile path numberKey)
        let (teams, notices) := Roster.gather outcomes
        return ⟨.ok teams, notices ++
          [⟨.info, s!"{teams.length} teams loaded from {paths.length} files"⟩]⟩ :
        Attempt σ (Roster.Outcome Failure (List Team)))
      fun v => .ok (v.rosterOf directory numberKey (.ok names)) := by
  refine ((filterM isFile _).bind_ok fun paths =>
    (mapM (outcome numberKey) paths).bind_ok fun outcomes => pure _).of_eq ?_
  funext v
  simp only [View.rosterOf, View.outcomes, List.length_map]
  rfl

theorem roster (directory numberKey : String) :
    Reads (Roster.loadDirectory directory numberKey :
        Attempt σ (Roster.Outcome Failure (List Team)))
      fun v => .ok (v.roster directory numberKey) := by
  unfold Roster.loadDirectory
  refine ((isDirectory directory).bind_ok fun there => (?_ : Reads _ fun v => .ok (
    if there then v.rosterOf directory numberKey (v.names directory)
    else ⟨.error (.teamsNotFound directory), []⟩))).of_eq rfl
  cases there with
  | false => exact pure _
  | true =>
    refine (names directory).bind_ok
      (h := fun names v => .ok (v.rosterOf directory numberKey names)) fun names => ?_
    cases names with
    | error cause => exact pure _
    | ok names => exact rosterOf directory numberKey names

theorem liftExcept (result : Except Failure α) :
    Reads (Batch.prepare.liftExcept result : Attempt σ α) fun _ => result :=
  fun _ => ⟨rfl, rfl, rfl⟩

theorem formText (path : String) :
    Reads (Form.readText path : Attempt σ String) fun v => v.formText path := by
  unfold Form.readText
  refine ((readText path).bind_ok fun text =>
    (?_ : Reads _ fun _ => text.mapError (Failure.formUnreadable path))).of_eq rfl
  cases text with
  | error cause => exact throw _
  | ok text => exact pure text

/-- Preparing a batch only reads. -/
theorem prepare (o : BatchOptions) :
    Reads (Batch.prepare o : Attempt σ Batch) fun v => v.prepare o := by
  unfold Batch.prepare Form.load
  refine ((settings o.settings).bind fun settings =>
    ((formText _).bind fun text => pure (Form.parse text)).bind fun form =>
    (printMessageLines _).bind_ok fun _ => (roster _ _).bind_ok fun outcome =>
      (liftExcept outcome.result).bind fun teams => pure _).of_eq ?_
  funext v
  simp only [View.prepare]
  cases v.settings o.settings with
  | error failure => rfl
  | ok settings =>
    show (v.formText _ >>= _) >>= _ = v.formText _ >>= _
    cases v.formText (o.config.getD settings.formConfig) with
    | error failure => rfl
    | ok text => rfl

end Reads

end

/-! ## What keeps a batch from being read -/

/-- Something that keeps a batch from being read: settings that are missing, unreadable or not
understood, a form that cannot be read, or teams that are not in a directory that can be listed. -/
inductive Obstacle (v : View) (o : BatchOptions) : Prop where
  | settingsMissing (path : String) :
      o.settings = some path → v.pathExists path = false → Obstacle v o
  | settingsUnreadable (path : String) (cause : FileError) :
      v.settingsPath o.settings = .ok (some path) → v.readText path = .error cause → Obstacle v o
  | settingsUnparseable (path text : String) :
      v.settingsPath o.settings = .ok (some path) → v.readText path = .ok text →
        Settings.parse text = none → Obstacle v o
  | formUnreadable (settings : Settings) (cause : FileError) :
      v.settings o.settings = .ok settings →
        v.readText (o.config.getD settings.formConfig) = .error cause → Obstacle v o
  | teamsMissing : v.isDirectory o.teams = false → Obstacle v o
  | teamsUnlistable (cause : FileError) : v.names o.teams = .error cause → Obstacle v o

namespace View

variable {v : View} {o : BatchOptions}

theorem ok_bind {α β : Type} (a : α) (f : α → Except Failure β) :
    (Except.ok a >>= f) = f a := rfl

theorem result_roster {directory numberKey : String} {names : List String}
    (hthere : v.isDirectory directory = true) (hnames : v.names directory = .ok names) :
    (v.roster directory numberKey).result = .ok (v.teams directory numberKey names) := by
  unfold roster
  rw [if_pos hthere, hnames]
  rfl

theorem exists_result_roster_eq_error {directory numberKey : String}
    (h : v.isDirectory directory = false ∨ ∃ cause, v.names directory = .error cause) :
    ∃ failure, (v.roster directory numberKey).result = .error failure := by
  unfold roster
  split
  · next hthere =>
    obtain ⟨cause, hnames⟩ : ∃ cause, v.names directory = .error cause := by
      simpa [hthere] using h
    rw [hnames]
    exact ⟨_, rfl⟩
  · exact ⟨_, rfl⟩

/-- Without an obstacle there are settings. -/
theorem exists_settings_eq_ok (h : ¬ Obstacle v o) :
    ∃ settings, v.settings o.settings = .ok settings := by
  unfold settings
  cases hpath : v.settingsPath o.settings with
  | error failure =>
    unfold settingsPath at hpath
    split at hpath
    · next path hchosen =>
      split at hpath
      · cases hpath
      · next hmissing => exact absurd (.settingsMissing path hchosen (by simpa using hmissing)) h
    · cases hpath
  | ok path? =>
    cases path? with
    | none => exact ⟨_, rfl⟩
    | some path =>
      cases htext : v.readText path with
      | error cause => exact absurd (.settingsUnreadable path cause hpath htext) h
      | ok text =>
        cases hparse : Settings.parse text with
        | none => exact absurd (.settingsUnparseable path text hpath htext hparse) h
        | some settings =>
          have hread : v.settingsIn (some path) = .ok settings := by
            simp only [settingsIn, htext, hparse]
          refine ⟨v.complete settings, ?_⟩
          rw [ok_bind, hread]
          rfl

/-- Without an obstacle there are settings, a form and a directory of teams. -/
theorem exists_of_not_obstacle (h : ¬ Obstacle v o) : ∃ settings text names,
    v.settings o.settings = .ok settings ∧
      v.readText (o.config.getD settings.formConfig) = .ok text ∧
      v.isDirectory o.teams = true ∧ v.names o.teams = .ok names := by
  obtain ⟨settings, hsettings⟩ := exists_settings_eq_ok h
  cases htext : v.readText (o.config.getD settings.formConfig) with
  | error cause => exact absurd (.formUnreadable settings cause hsettings htext) h
  | ok text =>
    cases hnames : v.names o.teams with
    | error cause => exact absurd (.teamsUnlistable cause hnames) h
    | ok names =>
      cases hthere : v.isDirectory o.teams with
      | false => exact absurd (.teamsMissing hthere) h
      | true => exact ⟨settings, text, names, hsettings, htext, rfl, rfl⟩

theorem formText_eq_ok {path text : String} (h : v.readText path = .ok text) :
    v.formText path = .ok text := by
  rw [formText, h]
  rfl

/-- A batch is prepared in three steps. -/
theorem prepare_eq (v : View) (o : BatchOptions) : v.prepare o =
    v.settings o.settings >>= fun settings =>
      v.formText (o.config.getD settings.formConfig) >>= fun text =>
        (v.roster o.teams settings.teamNumberKey).result >>= fun teams =>
          .ok (batch o settings (Form.parse text) teams) := rfl

theorem prepare_eq_ok {settings : Settings} {text : String} {names : List String}
    (hsettings : v.settings o.settings = .ok settings)
    (htext : v.readText (o.config.getD settings.formConfig) = .ok text)
    (hthere : v.isDirectory o.teams = true) (hnames : v.names o.teams = .ok names) :
    v.prepare o = .ok (batch o settings (Form.parse text)
      (v.teams o.teams settings.teamNumberKey names)) := by
  rw [prepare_eq, hsettings, ok_bind, formText_eq_ok htext, ok_bind,
    result_roster hthere hnames, ok_bind]

theorem prepare_eq_error_of_settings {failure : Failure}
    (h : (v.settingsPath o.settings >>= v.settingsIn) = .error failure) :
    v.prepare o = .error failure := by
  have hsettings : v.settings o.settings = (v.settingsPath o.settings >>= v.settingsIn) >>=
      fun settings => .ok (v.complete settings) := by
    unfold settings
    cases v.settingsPath o.settings <;> rfl
  rw [prepare_eq, hsettings, h]
  rfl

theorem exists_prepare_eq_error_of_roster (h : ∀ numberKey, ∃ failure,
    (v.roster o.teams numberKey).result = .error failure) :
    ∃ failure, v.prepare o = .error failure := by
  rw [prepare_eq]
  cases v.settings o.settings with
  | error failure => exact ⟨failure, rfl⟩
  | ok settings =>
    rw [ok_bind]
    cases v.formText (o.config.getD settings.formConfig) with
    | error failure => exact ⟨failure, rfl⟩
    | ok text =>
      obtain ⟨failure, hroster⟩ := h settings.teamNumberKey
      exact ⟨failure, by rw [ok_bind, hroster]; rfl⟩

/-- An obstacle keeps the batch from being prepared. -/
theorem exists_prepare_eq_error (h : Obstacle v o) : ∃ failure, v.prepare o = .error failure := by
  cases h with
  | settingsMissing path hchosen hmissing =>
    refine ⟨.settingsNotFound path, prepare_eq_error_of_settings ?_⟩
    rw [hchosen, settingsPath, if_neg (by simp [hmissing])]
    rfl
  | settingsUnreadable path cause hpath htext =>
    refine ⟨.settingsUnreadable path cause, prepare_eq_error_of_settings ?_⟩
    rw [hpath, ok_bind]
    simp only [settingsIn, htext]
  | settingsUnparseable path text hpath htext hparse =>
    refine ⟨.settingsUnparseable path, prepare_eq_error_of_settings ?_⟩
    rw [hpath, ok_bind]
    simp only [settingsIn, htext, hparse]
  | formUnreadable settings cause hsettings htext =>
    refine ⟨.formUnreadable (o.config.getD settings.formConfig) cause, ?_⟩
    rw [prepare_eq, hsettings, ok_bind, formText, htext]
    rfl
  | teamsMissing hmissing =>
    exact exists_prepare_eq_error_of_roster fun _ => exists_result_roster_eq_error (.inl hmissing)
  | teamsUnlistable cause hnames =>
    exact exists_prepare_eq_error_of_roster fun _ =>
      exists_result_roster_eq_error (.inr ⟨cause, hnames⟩)

end View

end Scorecard
