import Scorecard.Proofs.Batch.Outcome
import Scorecard.Proofs.Report.Names
import Scorecard.Proofs.Report.Ranking
import Scorecard.Proofs.Report.Saved
import Scorecard.Proofs.Text.TitleEnds

/-!
# The default ranking

A run without a chosen name to rank by ranks by the title of the first equation.

* A report finds an equation by its own title, since the title of a trimmed name is trimmed
  (`Equation.trim_title`), and no equation stands before the first one
  (`Form.equationIndex?_first_title`).
* So the default ranking is always by the first score, and there is no caution about it
  (`Batch.default_ranking`).
-/

namespace Scorecard

open Text

variable {text : String} {e : Equation}

/-! ## The first title -/

theorem sameIgnoringAsciiCase_self (s : String) : sameIgnoringAsciiCase s s = true := by
  rw [sameIgnoringAsciiCase, beq_self_eq_true]

/-- The title of a name without blanks at its ends has none either. -/
theorem Equation.trim_title (h : trim e.name = e.name) : trim e.title = e.title := by
  have hname : trimmed e.name.toList = e.name.toList := by
    have htrim := congrArg String.toList h
    rwa [trim, String.toList_ofList] at htrim
  rw [← String.toList_inj, trim, String.toList_ofList, Equation.title, toList_titleCase]
  exact trimmed_titledFrom true hname

/-- The title of the first equation leads to the first score. -/
theorem Form.equationIndex?_first_title {rest : List Equation}
    (h : (parse text).equations = e :: rest) (teams : List Team) (id : Identifier)
    (createdAt : Timestamp) (milliseconds : UInt64) :
    ((parse text).report teams id createdAt milliseconds).equationIndex? e.title = some 0 := by
  have hmem : e ∈ (parse text).equations := by
    rw [h]
    exact List.mem_cons_self
  have htitles : ((parse text).report teams id createdAt milliseconds).equations =
      e.title :: rest.map Equation.title := by
    show (parse text).equations.map Equation.title = _
    rw [h, List.map_cons]
  rw [Report.equationIndex?, htitles, Equation.trim_title (trim_name hmem), List.findIdx?_cons,
    if_pos (sameIgnoringAsciiCase_self e.title)]

/-- Every row of a report on a form with equations has a first score. -/
theorem Form.head?_scores {form : Form} {rest : List Equation} (h : form.equations = e :: rest)
    {teams : List Team} {id : Identifier} {createdAt : Timestamp} {milliseconds : UInt64}
    {row : Row} (hrow : row ∈ (form.report teams id createdAt milliseconds).rows) :
    row.scores.head? = some (row.scoreAt 0) := by
  obtain ⟨team, -, rfl⟩ := List.mem_map.mp hrow
  have hscores : (form.row team).scores ≠ [] := by
    show form.equations.map _ ≠ []
    rw [h]
    exact List.cons_ne_nil _ _
  unfold Row.scoreAt
  cases hs : (form.row team).scores with
  | nil => exact absurd hs hscores
  | cons x xs => rfl

/-- In a ranking by an equation of the report no score is greater than one before it. -/
theorem Report.pairwise_rankedBy {r : Report} (h : r.HasFiniteScores) {name : String} {i : Nat}
    (hi : r.equationIndex? name = some i) :
    (r.rankedBy name).Pairwise fun a b => b.scoreAt i ≤ a.scoreAt i := by
  have hsorted := pairwise_mergeSort_key (fun row : Row => Number.value (row.scoreAt i)) r.rows
  have hrows : ∀ row ∈ r.rankedBy name, row ∈ r.rows := by
    intro row hrow
    rw [Report.rankedBy_eq h hi] at hrow
    exact (List.mergeSort_perm _ _).mem_iff.mp hrow
  rw [← Report.rankedBy_eq h hi] at hsorted
  refine hsorted.imp_of_mem fun {a b} ha hb hle => ?_
  exact (Number.le_iff_value_le (h.isFinite_scoreAt (hrows b hb) i)
    (h.isFinite_scoreAt (hrows a ha) i)).mpr hle

/-! ## Runs -/

namespace Batch

variable {σ : Type} [Workspace (StateM σ)] [Observed σ] {o : BatchOptions} {s s' : σ} {b : Batch}
  {r : Report} {settings : Settings}

/-- What a run presents is made of the text of a form, some teams and the settings. -/
theorem Presents.exists_batch (h : Presents o s b r s')
    (hsettings : (viewOf s).settings o.settings = .ok settings) :
    ∃ text teams id createdAt milliseconds,
      b = View.batch o settings (Form.parse text) teams ∧
      r = (Form.parse text).report teams id createdAt milliseconds ∧
      Observed.output s' =
        Observed.output s ++ ((r.summary (r.ordered b.sortBy)).text ++ "\n") := by
  obtain ⟨s₀, hprepare, hpresent⟩ := h
  obtain ⟨hvalue, -, houtput₀⟩ := Reads.prepare o s
  have hbatch : _ = (viewOf s).prepare o := hvalue
  rw [hprepare] at hbatch houtput₀
  obtain ⟨r', s'', ⟨id, createdAt, milliseconds, hr⟩, hpresent', -, houtput⟩ := present_run b s₀
  rw [hpresent] at hpresent'
  cases hpresent'
  rw [houtput₀] at houtput
  rw [View.prepare_eq, hsettings, View.ok_bind] at hbatch
  cases htext : (viewOf s).formText (o.config.getD settings.formConfig) with
  | error failure =>
    rw [htext] at hbatch
    cases hbatch
  | ok text =>
    rw [htext, View.ok_bind] at hbatch
    cases hteams : ((viewOf s).roster o.teams settings.teamNumberKey).result with
    | error failure =>
      rw [hteams] at hbatch
      cases hbatch
    | ok teams =>
      rw [hteams, View.ok_bind] at hbatch
      cases hbatch
      exact ⟨text, teams, id, createdAt, milliseconds, rfl, hr, houtput⟩

/-- In every report on a form, the title of the first equation leads to the first score, whatever
its name is.  So let neither the options nor the settings of a run choose a name to rank by, and let
its form have an equation.  The run ranks by the title of the first equation and finds it.  It says
nothing about keeping an order.  It prints all rows, and no row has a greater first score than a row
before it. -/
theorem default_ranking :
    (∀ (text : String) (e : Equation) (teams : List Team) (id : Identifier)
      (createdAt : Timestamp) (milliseconds : UInt64),
      (Form.parse text).equations.head? = some e →
        ((Form.parse text).report teams id createdAt milliseconds).equationIndex? e.title =
          some 0) ∧
    ∀ (o : BatchOptions) (s s' : σ) (b : Batch) (r : Report) (settings : Settings),
      Presents o s b r s' → (viewOf s).settings o.settings = .ok settings →
      o.sortBy = none → settings.sortBy = none → b.form.equations ≠ [] →
        (∃ e, b.form.equations.head? = some e ∧ b.sortBy = some e.title ∧
          r.equationIndex? e.title = some 0) ∧
        b.rankingCautions r = [] ∧
        Observed.output s' =
          Observed.output s ++ ((r.summary (r.ordered b.sortBy)).text ++ "\n") ∧
        (r.ordered b.sortBy).Perm r.rows ∧
        (∀ row ∈ r.rows, row.scores.head? = some (row.scoreAt 0)) ∧
        (r.ordered b.sortBy).Pairwise fun a b => b.scoreAt 0 ≤ a.scoreAt 0 := by
  have hfirst : ∀ text e teams id createdAt milliseconds,
      (Form.parse text).equations.head? = some e →
        ((Form.parse text).report teams id createdAt milliseconds).equationIndex? e.title =
          some 0 := by
    intro text e teams id createdAt milliseconds hhead
    obtain ⟨rest, hequations⟩ := List.head?_eq_some_iff.mp hhead
    exact Form.equationIndex?_first_title hequations teams id createdAt milliseconds
  refine ⟨hfirst, ?_⟩
  intro o s s' b r settings hpresents hsettings hoption hsetting hequations
  obtain ⟨text, teams, id, createdAt, milliseconds, rfl, rfl, houtput⟩ :=
    hpresents.exists_batch hsettings
  obtain ⟨e, rest, hcons⟩ := List.exists_cons_of_ne_nil hequations
  have hhead : (Form.parse text).equations.head? = some e := by
    rw [show (Form.parse text).equations = e :: rest from hcons, List.head?_cons]
  have hindex := hfirst text e teams id createdAt milliseconds hhead
  have hsortBy : (View.batch o settings (Form.parse text) teams).sortBy = some e.title := by
    simp [View.batch, hoption, hsetting, hhead]
  have hordered : ((Form.parse text).report teams id createdAt milliseconds).ordered
      (View.batch o settings (Form.parse text) teams).sortBy =
        ((Form.parse text).report teams id createdAt milliseconds).rankedBy e.title := by
    rw [hsortBy]
    rfl
  refine ⟨⟨e, hhead, hsortBy, hindex⟩, ?_, houtput, ordered_perm _ _, ?_, ?_⟩
  · rw [rankingCautions, hsortBy]
    simp only [hindex, Option.isSome_some, if_true]
  · exact fun row hrow => Form.head?_scores hcons hrow
  · rw [hordered]
    exact Report.pairwise_rankedBy (Form.hasFiniteScores_report _ _ _ _ _) hindex

end Batch

/-- The first name grows by a letter in its title and still leads to the first score.  The run for
the teams that are there ranks by the only equation of its form. -/
theorem default_ranking_pitWorld :
    (∀ teams id createdAt milliseconds, ((Form.parse "ŉ ǆ = 1\nß = 2").report teams id createdAt
      milliseconds).equationIndex? "ʼN Ǆ" = some 0) ∧
    ∃ b r s', Batch.Presents { teams := "teams" } pitWorld b r s' ∧ b.sortBy = some "Total" ∧
      r.equationIndex? "Total" = some 0 ∧ b.rankingCautions r = [] ∧
      (r.ordered b.sortBy).Pairwise fun a b => b.scoreAt 0 ≤ a.scoreAt 0 := by
  constructor
  · intro teams id createdAt milliseconds
    have htitle : (⟨"ŉ ǆ", "1"⟩ : Equation).title = "ʼN Ǆ" := by decide +kernel
    obtain ⟨hfirst, -⟩ := Batch.default_ranking (σ := World)
    rw [← htitle]
    exact hfirst _ ⟨"ŉ ǆ", "1"⟩ teams id createdAt milliseconds (by decide +kernel)
  · have htext : (viewOf pitWorld).readText "config.txt" =
        .ok "DIAL ;; Dial ;; dial\nTotal = 2" := by decide +kernel
    obtain ⟨settings, text, names, id, createdAt, milliseconds, s', hsettings, htext', -, hpresents,
      -⟩ := Batch.presents_of_not_obstacle not_obstacle_pitWorld
    have hpit := hsettings
    rw [settings_pitWorld] at hpit
    cases hpit
    rw [Option.getD_none, formConfig_pitWorld, htext] at htext'
    cases htext'
    have hequations : (Form.parse "DIAL ;; Dial ;; dial\nTotal = 2").equations =
        [⟨"Total", "2"⟩] := by decide +kernel
    obtain ⟨-, hranking⟩ := Batch.default_ranking (σ := World)
    obtain ⟨⟨e, hhead, hsortBy, hindex⟩, hcautions, -, -, -, hordered⟩ :=
      hranking _ _ _ _ _ _ hpresents hsettings rfl rfl (by simp [View.batch, hequations])
    obtain rfl : ⟨"Total", "2"⟩ = e := by simpa [View.batch, hequations] using hhead
    exact ⟨_, _, s', hpresents, hsortBy, hindex, hcautions, hordered⟩

end Scorecard
