import Mathlib.Data.List.Basic
import Scorecard.Report.Scoring
import Scorecard.Proofs.Form.Cells

/-!
# What a score depends on

A score depends on the form and on the team only through what the identifiers of the formula are
replaced by (`Equation.evaluate_congr`).

So fields may be appended to a form: what was bound stays bound as it was, and only what was not
bound can be claimed by the new fields.  No score of a formula whose identifiers were all bound
changes (`Schema.appended_agrees`).

A team comes in only where its answers are read, and they are read by the keys of the fields.  Two
teams that answer these keys alike have the same cells and scores, whatever else is recorded of them
(`Form.agrees_of_answers`).
-/

namespace Scorecard

open Formula

/-! ## Equal replacements -/

section

variable {e : Equation} {schema schema' : Schema} {team team' : Team}

theorem substituteToken_congr {t : Token}
    (h : ∀ w, t = .word w → (schema.wordBinding? (.ofList w)).map (·.resolve team) =
      (schema'.wordBinding? (.ofList w)).map (·.resolve team')) :
    Equation.substituteToken schema team t = Equation.substituteToken schema' team' t := by
  cases t with
  | number _ | other _ => rfl
  | word w =>
    have hw := h w rfl
    unfold Equation.substituteToken
    cases hb : schema.wordBinding? (.ofList w) <;>
      cases hb' : schema'.wordBinding? (.ofList w) <;> simp_all

theorem badAnswer?_congr {name : String}
    (h : (schema.wordBinding? name).map (·.resolve team) =
      (schema'.wordBinding? name).map (·.resolve team')) :
    Equation.badAnswer? schema team name = Equation.badAnswer? schema' team' name := by
  have hsecond := congrArg (·.bind Prod.snd) h
  simpa [Equation.badAnswer?, Option.bind_map, Function.comp_def] using hsecond

/-- Where the identifiers of a formula are replaced alike, the whole formula is. -/
theorem Equation.substitute_congr
    (h : ∀ name ∈ e.identifiers, (schema.wordBinding? name).map (·.resolve team) =
      (schema'.wordBinding? name).map (·.resolve team')) :
    e.substitute schema team = e.substitute schema' team' := by
  have htokens : (tokens e.formula.toList).flatMap (substituteToken schema team) =
      (tokens e.formula.toList).flatMap (substituteToken schema' team') := by
    refine List.flatMap_congr fun t ht => substituteToken_congr fun w hw => ?_
    exact h _ (mem_identifiers (hw ▸ ht))
  have hbad : e.identifiers.filterMap (badAnswer? schema team) =
      e.identifiers.filterMap (badAnswer? schema' team') :=
    List.filterMap_congr fun name hname => badAnswer?_congr (h name hname)
  rw [substitute, substitute, rewriteTokens, rewriteTokens, htokens, hbad]

/-- Where the identifiers of a formula are replaced alike, its evaluation is the same. -/
theorem Equation.evaluate_congr
    (h : ∀ name ∈ e.identifiers, (schema.wordBinding? name).map (·.resolve team) =
      (schema'.wordBinding? name).map (·.resolve team')) :
    e.evaluate schema team = e.evaluate schema' team' := by
  rw [evaluate, evaluate, substitute_congr h]

end

/-! ## Appended fields -/

namespace Schema

variable {fs : List Field} {identifier : String}

theorem binding?_append_of_some {b : Binding} (h : (ofFields fs).binding? identifier = some b)
    (gs : List Field) : (ofFields (fs ++ gs)).binding? identifier = some b := by
  rw [binding?_append, h, Option.some_or]

theorem binding?_append_of_none (h : (ofFields fs).binding? identifier = none) (gs : List Field) :
    (ofFields (fs ++ gs)).binding? identifier = (ofFields gs).binding? identifier := by
  rw [binding?_append, h, Option.none_or]

/-- Appended fields change no evaluation of a formula whose identifiers are bound. -/
theorem evaluate_append {e : Equation} (h : ∀ name ∈ e.identifiers, (ofFields fs).binds name = true)
    (gs : List Field) (team : Team) :
    e.evaluate (ofFields (fs ++ gs)) team = e.evaluate (ofFields fs) team := by
  refine Equation.evaluate_congr fun name hname => ?_
  obtain ⟨b, hb⟩ := Option.isSome_iff_exists.mp (h name hname)
  have happend : (ofFields (fs ++ gs)).wordBinding? name = some b := binding?_append_of_some hb gs
  rw [happend, hb]

/-- Appended fields do not change what is bound.  An identifier that was not bound is bound as the
appended fields bind it, that is by the first of them that claims it, in a segmented control through
a key before any segment.  So a formula whose identifiers were bound is evaluated as before, for
every team. -/
theorem appended_agrees (fs gs : List Field) :
    (∀ identifier b, (ofFields fs).binding? identifier = some b →
      (ofFields (fs ++ gs)).binding? identifier = some b) ∧
    (∀ identifier, (ofFields fs).binding? identifier = none →
      (ofFields (fs ++ gs)).binding? identifier = gs.findSome? (·.binding? identifier)) ∧
    (∀ inputs identifier,
      (Field.segmented inputs).binding? identifier =
        ((inputs.keys.find? fun key => identifier == normalizeKey key).map fun key =>
            ⟨key, .position inputs.arguments⟩).or
          (inputs.keys.head?.bind fun key =>
            (inputs.arguments.find? fun segment => identifier == segmentColumn key segment).map
              fun segment => ⟨key, .selected segment⟩)) ∧
    ∀ e : Equation, (∀ name ∈ e.identifiers, (ofFields fs).binds name = true) →
      ∀ team, e.evaluate (ofFields (fs ++ gs)) team = e.evaluate (ofFields fs) team := by
  refine ⟨fun identifier b h => binding?_append_of_some h gs, fun identifier h => ?_,
    Field.binding?_segmented, fun e h team => evaluate_append h gs team⟩
  rw [binding?_append_of_none h, binding?_eq_findSome?]
  rfl

/-- A form with one stepper. -/
def gearFields : List Field := [.stepper ⟨[], ["Gears"], ["gears"]⟩]

/-- A text field with the key of the stepper, and a segmented control with a key that is also one of
its columns. -/
def laterFields : List Field :=
  [.textField .number ⟨["number"], ["Gears"], ["Gears"]⟩,
    .segmented ⟨["Low"], ["Goal", "Low"], ["goal", "goal_low"]⟩]

/-- The stepper keeps its identifier, and the new one stands for the key and not for the segment. -/
theorem appended_agrees_laterFields :
    (ofFields gearFields).binding? "gears" = some ⟨"gears", .integer⟩ ∧
      (ofFields (gearFields ++ laterFields)).binding? "gears" = some ⟨"gears", .integer⟩ ∧
      (ofFields gearFields).binding? "goal_low" = none ∧
      (ofFields (gearFields ++ laterFields)).binding? "goal_low" =
        some ⟨"goal_low", .position ["Low"]⟩ ∧
      (∀ name ∈ (⟨"Total", "2*Gears"⟩ : Equation).identifiers,
        (ofFields gearFields).binds name = true) ∧
      ∀ team,
        (⟨"Total", "2*Gears"⟩ : Equation).evaluate (ofFields (gearFields ++ laterFields)) team =
          (⟨"Total", "2*Gears"⟩ : Equation).evaluate (ofFields gearFields) team := by
  obtain ⟨hkept, hnew, -, hevaluate⟩ := appended_agrees gearFields laterFields
  have hgears : (ofFields gearFields).binding? "gears" = some ⟨"gears", .integer⟩ := by
    decide +kernel
  have hgoal : (ofFields gearFields).binding? "goal_low" = none := by decide +kernel
  have hbinds : ∀ name ∈ (⟨"Total", "2*Gears"⟩ : Equation).identifiers,
      (ofFields gearFields).binds name = true := by decide +kernel
  refine ⟨hgears, hkept _ _ hgears, hgoal, ?_, hbinds, hevaluate _ hbinds⟩
  rw [hnew _ hgoal]
  decide +kernel

end Schema

/-! ## Teams that answer alike -/

section

variable {schema : Schema} {team team' : Team}

/-- A binding reads the answer to its key and nothing else of a team. -/
theorem Binding.resolve_congr {b : Binding} (h : team.answer b.key = team'.answer b.key) :
    b.resolve team = b.resolve team' := by
  rw [resolve, resolve, h]

/-- An evaluation reads the answers to the keys that the identifiers stand for. -/
theorem Equation.evaluate_eq_of_answers {e : Equation}
    (h : ∀ name ∈ e.identifiers, ∀ b, schema.wordBinding? name = some b →
      team.answer b.key = team'.answer b.key) :
    e.evaluate schema team = e.evaluate schema team' := by
  refine evaluate_congr fun name hname => ?_
  cases hb : schema.wordBinding? name with
  | none => rfl
  | some b => rw [Option.map_some, Option.map_some, Binding.resolve_congr (h name hname b hb)]

/-- The teams answer every key of every field alike. -/
def Schema.AnswersAgree (schema : Schema) (team team' : Team) : Prop :=
  ∀ f ∈ schema.fields, ∀ key ∈ f.keys, team.answer key = team'.answer key

theorem Schema.AnswersAgree.answer_eq (h : schema.AnswersAgree team team') {identifier : String}
    {b : Binding} (hb : schema.binding? identifier = some b) :
    team.answer b.key = team'.answer b.key := by
  obtain ⟨f, hf, hkey⟩ := exists_key_mem_of_binding? hb
  exact h f hf _ hkey

theorem Schema.AnswersAgree.evaluate_eq (h : schema.AnswersAgree team team') (e : Equation) :
    e.evaluate schema team = e.evaluate schema team' :=
  Equation.evaluate_eq_of_answers fun _ _ _ hb => h.answer_eq hb

theorem Schema.AnswersAgree.boundCell_eq (h : schema.AnswersAgree team team') (column : String) :
    schema.boundCell team column = schema.boundCell team' column := by
  unfold boundCell
  cases hb : schema.binding? column with
  | none => rfl
  | some b => rw [Option.elim_some, Option.elim_some, Binding.resolve_congr (h.answer_eq hb)]

theorem Schema.AnswersAgree.fieldCells_eq (h : schema.AnswersAgree team team') {f : Field}
    (hf : f ∈ schema.fields) : schema.fieldCells team f = schema.fieldCells team' f := by
  by_cases hanswer : f.exportsAnswer = true
  · rw [(columns_and_cells_of_exportsAnswer schema team hanswer).2,
      (columns_and_cells_of_exportsAnswer schema team' hanswer).2]
    refine List.map_congr_left fun key hkey => h f hf key ?_
    exact List.mem_of_mem_head? (Option.mem_toList.mp hkey)
  · by_cases hflags : f.exportsFlags = true
    · rw [cells_of_exportsFlags schema team hflags, cells_of_exportsFlags schema team' hflags]
      exact List.map_congr_left fun column _ => h.boundCell_eq column
    · rw [Bool.not_eq_true] at hanswer hflags
      rw [(columns_and_cells_eq_nil schema team hanswer hflags).2,
        (columns_and_cells_eq_nil schema team' hanswer hflags).2]

theorem Schema.AnswersAgree.cells_eq (h : schema.AnswersAgree team team') :
    schema.cells team = schema.cells team' :=
  List.flatMap_congr fun _ hf => h.fieldCells_eq hf

end

/-- An evaluation is the same for two teams that give the same answers to the keys that the formula's
identifiers stand for.  If they give the same answers to all keys of the form, their cells, their
scores and the remarks on them are the same, but for the team that a remark is on. -/
theorem Form.agrees_of_answers (form : Form) (team team' : Team) :
    (∀ e : Equation,
      (∀ name ∈ e.identifiers, ∀ b, form.schema.wordBinding? name = some b →
        team.answer b.key = team'.answer b.key) →
      e.evaluate form.schema team = e.evaluate form.schema team') ∧
    ((∀ f ∈ form.schema.fields, ∀ key ∈ f.keys, team.answer key = team'.answer key) →
      form.schema.cells team = form.schema.cells team' ∧
      (form.row team).scores = (form.row team').scores ∧
      (form.remarks team).map (fun r => { r with team := team'.number }) =
        form.remarks team') := by
  refine ⟨fun e h => Equation.evaluate_eq_of_answers h, fun h => ?_⟩
  have hagree : form.schema.AnswersAgree team team' := h
  refine ⟨hagree.cells_eq, List.map_congr_left fun e _ => ?_, ?_⟩
  · rw [hagree.evaluate_eq e]
  · rw [Form.remarks, Form.remarks, List.map_flatMap]
    refine List.flatMap_congr fun e _ => ?_
    rw [remarksOn, remarksOn, List.map_map, hagree.evaluate_eq e]
    rfl

/-- A form with a number, a switch and an equation that names both. -/
def autoForm : Form :=
  ⟨.ofFields [.textField .number ⟨["number"], ["Auto"], ["Auto Points"]⟩,
      .switch ⟨[], ["Climbed"], ["climbed"]⟩],
    [⟨"total", "auto_points + 5*climbed_yes"⟩], []⟩

/-- A team that answered the number under the key as written, and something that is not asked. -/
def askedTeam : Team := ⟨"254", [("Auto Points", "12"), ("climbed", "yes"), ("notes", "fast")]⟩

/-- A team that answered the number under the normal form of its key, besides the given answers. -/
def briefTeam (answers : List (String × String)) : Team := ⟨"1114", ("auto_points", "12") :: answers⟩

/-- The number alone settles twice the number; with the switch it settles the whole row. -/
theorem agrees_of_answers_autoForm :
    (⟨"twice", "2*auto_points"⟩ : Equation).evaluate autoForm.schema askedTeam =
        (⟨"twice", "2*auto_points"⟩ : Equation).evaluate autoForm.schema (briefTeam []) ∧
      autoForm.schema.cells askedTeam ≠ autoForm.schema.cells (briefTeam []) ∧
      (∀ f ∈ autoForm.schema.fields, ∀ key ∈ f.keys,
        askedTeam.answer key = (briefTeam [("climbed", "yes")]).answer key) ∧
      autoForm.schema.cells askedTeam = autoForm.schema.cells (briefTeam [("climbed", "yes")]) ∧
      (autoForm.row askedTeam).scores = (autoForm.row (briefTeam [("climbed", "yes")])).scores := by
  obtain ⟨hnumber, -⟩ := autoForm.agrees_of_answers askedTeam (briefTeam [])
  obtain ⟨-, hrow⟩ := autoForm.agrees_of_answers askedTeam (briefTeam [("climbed", "yes")])
  have hanswers : ∀ f ∈ autoForm.schema.fields, ∀ key ∈ f.keys,
      askedTeam.answer key = (briefTeam [("climbed", "yes")]).answer key := by decide +kernel
  refine ⟨hnumber _ fun name hname b hb => ?_, by decide +kernel, hanswers, (hrow hanswers).1,
    (hrow hanswers).2.1⟩
  have hnames : (⟨"twice", "2*auto_points"⟩ : Equation).identifiers = ["auto_points"] := by
    decide +kernel
  have hbinding : autoForm.schema.wordBinding? "auto_points" = some ⟨"Auto Points", .decimal⟩ := by
    decide +kernel
  obtain rfl : name = "auto_points" := by simpa [hnames] using hname
  obtain rfl := Option.some.inj (hbinding.symm.trans hb)
  decide +kernel

end Scorecard
