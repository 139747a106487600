import Scorecard.Failure
import Scorecard.Workspace.World

/-!
# Workspaces that can be observed

Two things can be seen of the state of a workspace: the disk, which stands for all files and
directories and for the environment, and the output.  In an observed workspace reading is a function
of the disk and changes nothing that can be seen; neither do the clocks, fresh identifiers and
messages.  Nothing is assumed about what writing does to the disk, or about when it fails.

* `Reads x f` says that `x` changes nothing that can be seen, and that `f` is what it makes of the
  disk.  The ways to put computations together preserve it.
* `Passes x p` says that `x` does not fail and changes nothing that can be seen, `Completes x` that
  it does not fail and leaves the output as it is, and `KeepsOutput x` only the latter.
* Worlds are observed workspaces.
-/

namespace Scorecard

/-- What reading finds on a disk. -/
structure View where
  readText : String → Except FileError String
  pathExists : String → Bool
  isFile : String → Bool
  isDirectory : String → Bool
  names : String → Except FileError (List String)
  environment? : String → Option String

section

variable {σ δ α : Type} (disk : σ → δ) (output : σ → String)

/-- A step that changes neither the disk nor the output. -/
def Unseen (x : StateM σ α) : Prop :=
  ∀ s, disk (x.run s).2 = disk s ∧ output (x.run s).2 = output s

/-- A step that changes neither the disk nor the output, and yields a function of the disk. -/
def Finds (x : StateM σ α) (f : δ → α) : Prop :=
  ∀ s, (x.run s).1 = f (disk s) ∧ disk (x.run s).2 = disk s ∧ output (x.run s).2 = output s

end

/-- A workspace whose states have a disk and an output to be seen. -/
class Observed (σ : Type) [Workspace (StateM σ)] where
  /-- The files and directories, and the environment. -/
  Disk : Type
  disk : σ → Disk
  output : σ → String
  view : Disk → View
  readText (path : String) :
    Finds disk output (Workspace.readText path) fun d => (view d).readText path
  pathExists (path : String) :
    Finds disk output (Workspace.pathExists path) fun d => (view d).pathExists path
  isFile (path : String) : Finds disk output (Workspace.isFile path) fun d => (view d).isFile path
  isDirectory (path : String) :
    Finds disk output (Workspace.isDirectory path) fun d => (view d).isDirectory path
  names (path : String) : Finds disk output (Workspace.names path) fun d => (view d).names path
  environment? (name : String) :
    Finds disk output (Workspace.environment? name) fun d => (view d).environment? name
  now : Unseen disk output Workspace.now
  milliseconds : Unseen disk output Workspace.milliseconds
  freshIdentifier : Unseen disk output Workspace.freshIdentifier
  printMessage (text : String) : Unseen disk output (Workspace.printMessage text)
  print (text : String) (s : σ) :
    let step := (Workspace.print text : StateM σ PUnit).run s
    disk step.2 = disk s ∧ output step.2 = output s ++ text
  writeText (path text : String) (s : σ) :
    output ((Workspace.writeText path text : StateM σ _).run s).2 = output s
  makeDirectory (path : String) (s : σ) :
    output ((Workspace.makeDirectory path : StateM σ _).run s).2 = output s

theorem World.output_commit (result : Except FileError FileTree) (w : World) :
    ((World.commit result).run w).2.output = w.output := by
  cases result <;> rfl

instance World.observed : Observed World where
  Disk := FileTree × List (String × String)
  disk w := (w.files, w.environment)
  output := World.output
  view d := {
    readText := d.1.readText
    pathExists := fun path => d.1.find path matches .ok _
    isFile := fun path => d.1.find path matches .ok (.file _)
    isDirectory := fun path => d.1.find path matches .ok .directory
    names := d.1.names
    environment? := fun name => d.2.lookup name }
  readText _ _ := ⟨rfl, rfl, rfl⟩
  pathExists _ _ := ⟨rfl, rfl, rfl⟩
  isFile _ _ := ⟨rfl, rfl, rfl⟩
  isDirectory _ _ := ⟨rfl, rfl, rfl⟩
  names _ _ := ⟨rfl, rfl, rfl⟩
  environment? _ _ := ⟨rfl, rfl, rfl⟩
  now _ := ⟨rfl, rfl⟩
  milliseconds _ := ⟨rfl, rfl⟩
  freshIdentifier _ := ⟨rfl, rfl⟩
  printMessage _ _ := ⟨rfl, rfl⟩
  print _ _ := ⟨rfl, rfl⟩
  writeText _ _ w := World.output_commit _ w
  makeDirectory _ w := World.output_commit _ w

/-! ## Computations that may fail -/

/-- A computation in a workspace that may fail. -/
abbrev Attempt (σ α : Type) : Type := ExceptT Failure (StateM σ) α

namespace Attempt

variable {σ α β : Type} {x : Attempt σ α} {g : α → Attempt σ β} {s s' : σ}

theorem run_bind_ok {a : α} (h : x.run.run s = (.ok a, s')) :
    (x >>= g).run.run s = (g a).run.run s' := by
  rw [ExceptT.run_bind, StateT.run_bind, h]
  rfl

theorem run_bind_error {failure : Failure} (h : x.run.run s = (.error failure, s')) :
    (x >>= g).run.run s = (.error failure, s') := by
  rw [ExceptT.run_bind, StateT.run_bind, h]
  rfl

/-- The computation fails in a state. -/
def Fails (x : Attempt σ α) (s : σ) : Prop := ∃ failure, (x.run.run s).1 = .error failure

theorem not_fails_of_run {a : α} (h : x.run.run s = (.ok a, s')) : ¬ x.Fails s := by
  rintro ⟨failure, herror⟩
  rw [h] at herror
  cases herror

theorem exists_run_of_not_fails (h : ¬ x.Fails s) : ∃ a s', x.run.run s = (.ok a, s') := by
  rcases hrun : x.run.run s with ⟨result, s'⟩
  cases result with
  | error failure => exact absurd ⟨failure, by rw [hrun]⟩ h
  | ok a => exact ⟨a, s', rfl⟩

theorem fails_bind_of_run {a : α} (h : x.run.run s = (.ok a, s')) :
    (x >>= g).Fails s ↔ (g a).Fails s' := by
  rw [Fails, run_bind_ok h, Fails]

theorem fails_bind_of_fails (h : x.Fails s) : (x >>= g).Fails s := by
  obtain ⟨failure, herror⟩ := h
  exact ⟨failure, by rw [run_bind_error (Prod.ext herror rfl)]⟩

/-- A loop fails exactly if some round fails in the state that the rounds before it lead to. -/
theorem fails_forM_iff {act : α → Attempt σ PUnit} {as : List α} : (as.forM act).Fails s ↔
    ∃ before a after s', as = before ++ a :: after ∧
      (before.forM act).run.run s = (.ok ⟨⟩, s') ∧ (act a).Fails s' := by
  induction as generalizing s with
  | nil =>
    have hrun : ([].forM act : Attempt σ PUnit).run.run s = (.ok ⟨⟩, s) := rfl
    refine iff_of_false (not_fails_of_run hrun) ?_
    rintro ⟨before, a, after, -, hsplit, -⟩
    simp at hsplit
  | cons a as ih =>
    by_cases hfirst : (act a).Fails s
    · exact iff_of_true (fails_bind_of_fails hfirst) ⟨[], a, as, s, rfl, rfl, hfirst⟩
    · obtain ⟨_, s', hrun⟩ := exists_run_of_not_fails hfirst
      have hcons : (a :: as).forM act = act a >>= fun _ => as.forM act := rfl
      rw [hcons, fails_bind_of_run hrun, ih]
      constructor
      · rintro ⟨before, b, after, s'', rfl, hbefore, hfails⟩
        exact ⟨a :: before, b, after, s'', rfl, (run_bind_ok hrun).trans hbefore, hfails⟩
      · rintro ⟨before, b, after, s'', hsplit, hbefore, hfails⟩
        cases before with
        | nil =>
          obtain ⟨rfl, rfl⟩ := List.cons.inj hsplit
          obtain rfl : s = s'' := congrArg Prod.snd hbefore
          exact absurd hfails hfirst
        | cons c before =>
          obtain ⟨rfl, rfl⟩ := List.cons.inj hsplit
          exact ⟨before, b, after, s'', rfl, (run_bind_ok hrun).symm.trans hbefore, hfails⟩

end Attempt

section

variable {σ α β : Type} [Workspace (StateM σ)] [Observed σ]

/-- The disk of a state, as reading finds it. -/
def viewOf (s : σ) : View := Observed.view (Observed.disk s)

/-! ### Reading -/

/-- The computation changes nothing that can be seen, and the function says what it makes of the
disk. -/
def Reads (x : Attempt σ α) (f : View → Except Failure α) : Prop :=
  ∀ s, (x.run.run s).1 = f (viewOf s) ∧ Observed.disk (x.run.run s).2 = Observed.disk s ∧
    Observed.output (x.run.run s).2 = Observed.output s

namespace Reads

variable {x : Attempt σ α} {f : View → Except Failure α}

theorem of_eq {g : View → Except Failure α} (h : Reads x f) (heq : f = g) : Reads x g := heq ▸ h

theorem pure (a : α) : Reads (Pure.pure a : Attempt σ α) fun _ => .ok a := fun _ => ⟨rfl, rfl, rfl⟩

theorem throw (failure : Failure) : Reads (MonadExcept.throw failure : Attempt σ α)
    fun _ => .error failure := fun _ => ⟨rfl, rfl, rfl⟩

theorem bind {g : α → Attempt σ β} {h : α → View → Except Failure β} (hx : Reads x f)
    (hg : ∀ a, Reads (g a) (h a)) : Reads (x >>= g) fun v => f v >>= fun a => h a v := by
  intro s
  have hs := hx s
  rcases hrun : x.run.run s with ⟨result, s'⟩
  rw [hrun] at hs
  obtain ⟨hvalue, hdisk, houtput⟩ := hs
  cases result with
  | error failure =>
    rw [Attempt.run_bind_error hrun]
    refine ⟨?_, hdisk, houtput⟩
    show _ = f (viewOf s) >>= fun a => h a (viewOf s)
    rw [← hvalue]
    rfl
  | ok a =>
    rw [Attempt.run_bind_ok hrun]
    obtain ⟨hvalue', hdisk', houtput'⟩ := hg a s'
    have hview : viewOf s' = viewOf s := congrArg Observed.view hdisk
    refine ⟨?_, hdisk'.trans hdisk, houtput'.trans houtput⟩
    show _ = f (viewOf s) >>= fun a => h a (viewOf s)
    rw [hvalue', ← hvalue, hview]
    rfl

/-- A computation that reads, behind one that reads without failing. -/
theorem bind_ok {f : View → α} {g : α → Attempt σ β} {h : α → View → Except Failure β}
    (hx : Reads x fun v => .ok (f v)) (hg : ∀ a, Reads (g a) (h a)) :
    Reads (x >>= g) fun v => h (f v) v := hx.bind hg

/-- A choice between two computations by a test. -/
theorem test {c : Attempt σ Bool} {p : View → Bool} {y z : Attempt σ β}
    {g h : View → Except Failure β} (hc : Reads c fun v => .ok (p v)) (hy : Reads y g)
    (hz : Reads z h) :
    Reads (c >>= fun b => if b = true then y else z) fun v => if p v then g v else h v := by
  refine (hc.bind fun b => (?_ : Reads _ fun v => if b = true then g v else h v)).of_eq rfl
  cases b with
  | true => exact hy
  | false => exact hz

theorem lift {x : StateM σ α} {f : View → α}
    (h : Finds Observed.disk Observed.output x fun d => f (Observed.view d)) :
    Reads (ExceptT.lift x) fun v => .ok (f v) := by
  intro s
  obtain ⟨hvalue, hdisk, houtput⟩ := h s
  exact ⟨congrArg Except.ok hvalue, hdisk, houtput⟩

theorem readText (path : String) :
    Reads (Workspace.readText path : Attempt σ (Except FileError String))
      fun v => .ok (v.readText path) :=
  lift (Observed.readText path)

theorem pathExists (path : String) :
    Reads (Workspace.pathExists path : Attempt σ Bool) fun v => .ok (v.pathExists path) :=
  lift (Observed.pathExists path)

theorem isFile (path : String) :
    Reads (Workspace.isFile path : Attempt σ Bool) fun v => .ok (v.isFile path) :=
  lift (Observed.isFile path)

theorem isDirectory (path : String) :
    Reads (Workspace.isDirectory path : Attempt σ Bool) fun v => .ok (v.isDirectory path) :=
  lift (Observed.isDirectory path)

theorem names (path : String) :
    Reads (Workspace.names path : Attempt σ (Except FileError (List String)))
      fun v => .ok (v.names path) :=
  lift (Observed.names path)

theorem environment? (name : String) :
    Reads (Workspace.environment? name : Attempt σ (Option String))
      fun v => .ok (v.environment? name) :=
  lift (Observed.environment? name)

theorem printMessage (text : String) :
    Reads (Workspace.printMessage text : Attempt σ PUnit) fun _ => .ok ⟨⟩ :=
  lift fun s => ⟨rfl, Observed.printMessage text s⟩

theorem forM {act : α → Attempt σ PUnit} (h : ∀ a, Reads (act a) fun _ => .ok ⟨⟩) (as : List α) :
    Reads (as.forM act) fun _ => .ok ⟨⟩ := by
  induction as with
  | nil => exact pure PUnit.unit
  | cons a as ih => exact (h a).bind_ok fun _ => ih

theorem printMessageLines (lines : List String) :
    Reads (lines.forM Workspace.printMessageLine : Attempt σ PUnit) fun _ => .ok ⟨⟩ :=
  forM (fun line => printMessage (line ++ "\n")) lines

theorem mapM {act : α → Attempt σ β} {f : View → α → β}
    (h : ∀ a, Reads (act a) fun v => .ok (f v a)) (as : List α) :
    Reads (as.mapM act) fun v => .ok (as.map (f v)) := by
  induction as with
  | nil => exact pure []
  | cons a as ih =>
    rw [List.mapM_cons]
    exact (h a).bind_ok fun b => ih.bind_ok fun bs => pure (b :: bs)

theorem filterM {act : α → Attempt σ Bool} {p : View → α → Bool}
    (h : ∀ a, Reads (act a) fun v => .ok (p v a)) (as : List α) :
    Reads (as.filterM act) fun v => .ok (as.filter (p v)) := by
  have hkept (kept : List α) : Reads (as.filterAuxM act kept)
      fun v => .ok ((as.filter (p v)).reverse ++ kept) := by
    induction as generalizing kept with
    | nil => exact pure kept
    | cons a as ih =>
      refine ((h a).bind_ok fun keep => ih (bif keep then a :: kept else kept)).of_eq ?_
      funext v
      cases hp : p v a <;> simp [hp]
  refine ((hkept []).bind_ok fun kept => pure kept.reverse).of_eq ?_
  funext v
  simp

end Reads

/-! ### Passing -/

/-- The computation does not fail and changes nothing that can be seen, and its value has a
property. -/
def Passes (x : Attempt σ α) (p : α → Prop) : Prop :=
  ∀ s, ∃ a s', x.run.run s = (.ok a, s') ∧ p a ∧ Observed.disk s' = Observed.disk s ∧
    Observed.output s' = Observed.output s

namespace Passes

variable {x : Attempt σ α} {p : α → Prop}

theorem pure {a : α} (h : p a) : Passes (Pure.pure a : Attempt σ α) p :=
  fun s => ⟨a, s, rfl, h, rfl, rfl⟩

theorem of_reads {a : α} (h : Reads x fun _ => .ok a) : Passes x (· = a) :=
  fun s => ⟨a, (x.run.run s).2, Prod.ext (h s).1 rfl, rfl, (h s).2⟩

theorem bind {g : α → Attempt σ β} {q : β → Prop} (hx : Passes x p)
    (hg : ∀ a, p a → Passes (g a) q) : Passes (x >>= g) q := by
  intro s
  obtain ⟨a, s', hrun, ha, hdisk, houtput⟩ := hx s
  obtain ⟨b, s'', hrun', hb, hdisk', houtput'⟩ := hg a ha s'
  exact ⟨b, s'', (Attempt.run_bind_ok hrun).trans hrun', hb, hdisk'.trans hdisk,
    houtput'.trans houtput⟩

theorem lift {x : StateM σ α} (h : Unseen Observed.disk Observed.output x) :
    Passes (ExceptT.lift x) fun _ => True :=
  fun s => ⟨(x.run s).1, (x.run s).2, rfl, trivial, h s⟩

theorem now : Passes (Workspace.now : Attempt σ Timestamp) fun _ => True := lift Observed.now

theorem milliseconds : Passes (Workspace.milliseconds : Attempt σ Nat) fun _ => True :=
  lift Observed.milliseconds

theorem freshIdentifier :
    Passes (Workspace.freshIdentifier : Attempt σ Identifier) fun _ => True :=
  lift Observed.freshIdentifier

end Passes

/-! ### Writing -/

/-- The computation leaves the output as it is, even if it fails. -/
def KeepsOutput (x : Attempt σ α) : Prop :=
  ∀ s, Observed.output (x.run.run s).2 = Observed.output s

/-- The computation does not fail, and leaves the output as it is. -/
def Completes (x : Attempt σ α) : Prop :=
  ∀ s, ∃ a s', x.run.run s = (.ok a, s') ∧ Observed.output s' = Observed.output s

namespace KeepsOutput

variable {x : Attempt σ α}

theorem throw (failure : Failure) : KeepsOutput (MonadExcept.throw failure : Attempt σ α) :=
  fun _ => rfl

theorem of_reads {f : View → Except Failure α} (h : Reads x f) : KeepsOutput x := fun s => (h s).2.2

theorem of_passes {p : α → Prop} (h : Passes x p) : KeepsOutput x := by
  intro s
  obtain ⟨a, s', hrun, -, -, houtput⟩ := h s
  rwa [hrun]

theorem of_completes (h : Completes x) : KeepsOutput x := by
  intro s
  obtain ⟨a, s', hrun, houtput⟩ := h s
  rwa [hrun]

theorem bind {g : α → Attempt σ β} (hx : KeepsOutput x) (hg : ∀ a, KeepsOutput (g a)) :
    KeepsOutput (x >>= g) := by
  intro s
  have hs := hx s
  rcases hrun : x.run.run s with ⟨result, s'⟩
  rw [hrun] at hs
  cases result with
  | error failure => rwa [Attempt.run_bind_error hrun]
  | ok a => rw [Attempt.run_bind_ok hrun, hg a s', hs]

theorem forM {act : α → Attempt σ PUnit} (h : ∀ a, KeepsOutput (act a)) (as : List α) :
    KeepsOutput (as.forM act) := by
  induction as with
  | nil => exact fun _ => rfl
  | cons a as ih => exact (h a).bind fun _ => ih

end KeepsOutput

namespace Completes

variable {x : Attempt σ α}

theorem pure (a : α) : Completes (Pure.pure a : Attempt σ α) := fun s => ⟨a, s, rfl, rfl⟩

theorem bind {g : α → Attempt σ β} (hx : Completes x) (hg : ∀ a, Completes (g a)) :
    Completes (x >>= g) := by
  intro s
  obtain ⟨a, s', hrun, houtput⟩ := hx s
  obtain ⟨b, s'', hrun', houtput'⟩ := hg a s'
  exact ⟨b, s'', (Attempt.run_bind_ok hrun).trans hrun', houtput'.trans houtput⟩

theorem writeText (path text : String) :
    Completes (Workspace.writeText path text : Attempt σ (Except FileError PUnit)) :=
  fun s => ⟨_, _, rfl, Observed.writeText path text s⟩

theorem makeDirectory (path : String) :
    Completes (Workspace.makeDirectory path : Attempt σ (Except FileError PUnit)) :=
  fun s => ⟨_, _, rfl, Observed.makeDirectory path s⟩

theorem isDirectory (path : String) : Completes (Workspace.isDirectory path : Attempt σ Bool) :=
  fun s => ⟨_, _, rfl, (Observed.isDirectory path s).2.2⟩

theorem ensureDirectory (path : String) :
    Completes (Workspace.ensureDirectory path : Attempt σ (Except FileError PUnit)) := by
  refine (makeDirectory path).bind fun made => ?_
  cases made with
  | ok _ => exact pure _
  | error cause =>
    refine (isDirectory path).bind fun there => ?_
    cases there <;> exact pure _

theorem ensureDirectories (levels : Nat) (path : String) :
    Completes (Workspace.ensureDirectories levels path : Attempt σ (Except FileError PUnit)) := by
  induction levels generalizing path with
  | zero => exact ensureDirectory path
  | succ levels ih =>
    unfold Workspace.ensureDirectories
    refine (ensureDirectory path).bind fun made => ?_
    split
    · have hagain (above : Except FileError PUnit) : Completes (match above with
          | .error cause => Pure.pure (.error cause)
          | .ok _ => Workspace.ensureDirectory path : Attempt σ (Except FileError PUnit)) := by
        cases above with
        | error cause => exact pure _
        | ok _ => exact ensureDirectory path
      dsimp only
      split
      · exact (pure _).bind hagain
      · exact (ih _).bind hagain
    · exact pure _

theorem makeDirectories (path : String) :
    Completes (Workspace.makeDirectories path : Attempt σ (Except FileError PUnit)) := by
  unfold Workspace.makeDirectories
  split
  · exact pure _
  · exact ensureDirectories _ path

end Completes

end

end Scorecard
