import Mathlib
import Scorecard.Proofs.Json.Rereading
import Scorecard.Proofs.Problems
import Scorecard.Proofs.Report.Ranking
import Scorecard.Proofs.Report.Stamps
import Scorecard.Report.Scoring

/-!
# Saved reports are loaded

The text of a saved report is read as the document that was written (`Report.parse_save`), and each
part of that document is read as the part of the report that it stands for:
`Row.ofDocument?_toJson`, `Remark.ofDocument?_toJson`, and with the stamps `Report.load_save`.

What comes back is the report that was saved, apart from its scores.  A score is made anew of the
digits and the power of ten in its text (`Row.rescaled?`).  There is a number for each score
(`Row.exists_rescaled?`), and it is the same one if the digits are few; but each of the two steps is
rounded, so in general it is not.
-/

namespace Scorecard

open Number
open Json (Document)

/-! ## Lists read item by item -/

theorem mapM_congr {α β : Type} {f g : α → Option β} {as : List α} (h : ∀ a ∈ as, f a = g a) :
    as.mapM f = as.mapM g := by
  induction as with
  | nil => rfl
  | cons a as ih =>
    rw [List.mapM_cons, List.mapM_cons, h a List.mem_cons_self,
      ih fun b hb => h b (List.mem_cons_of_mem a hb)]

theorem mapM_eq_some_map {α β : Type} {f : α → Option β} {g : α → β} {as : List α}
    (h : ∀ a ∈ as, f a = some (g a)) : as.mapM f = some (as.map g) :=
  (mapM_congr h).trans List.mapM_pure

theorem mapM_eq_some_self_iff {α : Type} {f : α → Option α} {as : List α} :
    as.mapM f = some as ↔ ∀ a ∈ as, f a = some a := by
  induction as with
  | nil => simp
  | cons a as ih =>
    rw [List.forall_mem_cons, ← ih, List.mapM_cons]
    simp only [Option.bind_eq_bind, Option.bind_eq_some_iff, Option.pure_def, Option.some.injEq,
      List.cons.injEq]
    constructor
    · rintro ⟨b, hb, bs, hbs, rfl, rfl⟩
      exact ⟨hb, hbs⟩
    · rintro ⟨ha, has⟩
      exact ⟨a, ha, as, has, rfl, rfl⟩

theorem exists_mapM_eq_some {α β : Type} {f : α → Option β} {as : List α}
    (h : ∀ a ∈ as, ∃ b, f a = some b) : ∃ bs, as.mapM f = some bs := by
  induction as with
  | nil => exact ⟨[], rfl⟩
  | cons a as ih =>
    obtain ⟨b, hb⟩ := h a List.mem_cons_self
    obtain ⟨bs, hbs⟩ := ih fun c hc => h c (List.mem_cons_of_mem a hc)
    refine ⟨b :: bs, ?_⟩
    rw [List.mapM_cons, hb, hbs]
    rfl

/-! ## Parts of a document -/

namespace Json

theorem unique?_of_nodup {members : List (String × Document)} (h : (members.map (·.1)).Nodup)
    {m : String × Document} (hm : m ∈ members) :
    Document.unique? m.1 members = some (some m.2) := by
  have hfilter : members.filter (fun n => n.1 = m.1) = [m] := by
    induction members with
    | nil => simp at hm
    | cons n members ih =>
      rw [List.map_cons, List.nodup_cons] at h
      obtain ⟨hn, hnodup⟩ := h
      rcases List.mem_cons.mp hm with rfl | hm
      · rw [List.filter_cons_of_pos (by simp), List.filter_eq_nil_iff.mpr]
        intro k hk
        have hne : k.1 ≠ m.1 := fun heq => hn (heq ▸ List.mem_map_of_mem hk)
        simpa using hne
      · have hne : n.1 ≠ m.1 := fun heq => hn (heq ▸ List.mem_map_of_mem hm)
        rw [List.filter_cons_of_neg (by simpa using hne), ih hnodup hm]
  rw [Document.unique?, hfilter]

theorem parts?_object (names : List String) (members : List (List StringUnit × Document)) :
    Document.parts? names (.object members) =
      (members.mapM fun m => (textOf? m.1).map fun key => (key, m.2)).bind fun keyed =>
        names.mapM fun name => Document.unique? name keyed := rfl

/-- A record finds its own parts if no two of them have one name. -/
theorem parts?_document (members : List (String × Json)) (h : (members.map (·.1)).Nodup) :
    Document.parts? (members.map (·.1)) (document (.object members)) =
      some (members.map fun m => some (document m.2)) := by
  have hkeyed : (members.map fun m => (units m.1, document m.2)).mapM
      (fun m => (textOf? m.1).map fun key => (key, m.2)) =
        some (members.map fun m => (m.1, document m.2)) := by
    rw [List.mapM_map]
    exact mapM_eq_some_map fun m _ => by simp
  rw [document, memberDocuments_eq, parts?_object, hkeyed, Option.bind_some, List.mapM_map]
  refine mapM_eq_some_map fun m hm => ?_
  exact unique?_of_nodup (m := (m.1, document m.2))
    (by rw [List.map_map]; exact h) (List.mem_map_of_mem hm)

theorem string?_document (s : String) : Document.string? (document (.string s)) = some s :=
  textOf?_units s

theorem list?_document {α β : Type} (write : α → Json) (read : Document → Option β)
    (as : List α) : Document.list? read (document (.array (as.map write))) =
      as.mapM fun a => read (document (write a)) := by
  rw [document, itemDocuments_eq, List.map_map, Document.list?, List.mapM_map]
  rfl

theorem list?_ofStrings (texts : List String) :
    Document.list? Document.string? (document (.ofStrings texts)) = some texts := by
  rw [ofStrings, list?_document]
  exact mapM_eq_some_self_iff.mpr fun s _ => string?_document s

theorem nullable?_document (text : Option String) : Document.nullable? Document.string?
    (some (document (text.elim .null .string))) = some text := by
  cases text with
  | none => rfl
  | some s =>
    show (Document.string? (document (.string s))).map some = some (some s)
    rw [string?_document, Option.map_some]

theorem areFinite_iff (vs : List Json) : AreFinite vs ↔ ∀ v ∈ vs, IsFinite v := by
  induction vs with
  | nil => simp [AreFinite]
  | cons v vs ih => simp [AreFinite, ih]

theorem isFinite_ofStrings (texts : List String) : (ofStrings texts).IsFinite := by
  rw [ofStrings, IsFinite, areFinite_iff]
  simp [IsFinite]

end Json

/-! ## Rows and remarks -/

/-- The row with each score made anew of its digits. -/
def Row.rescaled? (row : Row) : Option Row :=
  (row.scores.mapM Json.rescaled).map fun scores => { row with scores := scores }

theorem Row.ofDocument?_toJson {row : Row} (h : ∀ x ∈ row.scores, x.isFinite = true) :
    Row.ofDocument? row.toJson.document = row.rescaled? := by
  have hparts := Json.parts?_document [("team", .string row.team),
    ("cells", .ofStrings row.cells), ("scores", .array (row.scores.map .float))] (by simp)
  have hlist : Document.list? Document.float? (Json.document (.array (row.scores.map .float))) =
      row.scores.mapM Json.rescaled := by
    rw [Json.list?_document]
    exact mapM_congr fun x hx => Json.float?_document (h x hx)
  simp only [List.map_cons, List.map_nil] at hparts
  simp only [Row.ofDocument?, Row.toJson, hparts, Json.string?_document, Json.list?_ofStrings,
    hlist, Row.rescaled?, Option.bind_eq_bind, Option.bind_some, Option.pure_def, Option.map_eq_bind]
  rfl

theorem Remark.ofDocument?_toJson (remark : Remark) :
    Remark.ofDocument? remark.toJson.document = some remark := by
  have hparts := Json.parts?_document [("team", .string remark.team),
    ("equation", remark.equation.elim .null .string), ("message", .string remark.message)] (by simp)
  simp only [List.map_cons, List.map_nil] at hparts
  simp only [Remark.ofDocument?, Remark.toJson, hparts, Json.string?_document,
    Json.nullable?_document, Option.bind_eq_bind, Option.bind_some, Option.pure_def]

theorem Row.isFinite_toJson {row : Row} (h : ∀ x ∈ row.scores, x.isFinite = true) :
    row.toJson.IsFinite := by
  refine ⟨trivial, Json.isFinite_ofStrings _, ?_, trivial⟩
  rw [Json.IsFinite, Json.areFinite_iff]
  simpa [Json.IsFinite] using h

theorem Remark.isFinite_toJson (remark : Remark) : remark.toJson.IsFinite := by
  refine ⟨trivial, ?_, trivial, trivial⟩
  cases remark.equation <;> exact trivial

theorem Row.rescaled?_eq_some_self_iff {row : Row} :
    row.rescaled? = some row ↔ ∀ x ∈ row.scores, Json.rescaled x = some x := by
  rw [← mapM_eq_some_self_iff, Row.rescaled?, Option.map_eq_some_iff]
  constructor
  · rintro ⟨scores, hscores, hrow⟩
    rw [hscores, ← hrow]
  · exact fun hscores => ⟨row.scores, hscores, rfl⟩

theorem Row.exists_rescaled? {row : Row} (h : ∀ x ∈ row.scores, x.isFinite = true) :
    ∃ row', row.rescaled? = some row' := by
  obtain ⟨scores, hscores⟩ := exists_mapM_eq_some fun x hx => Json.exists_rescaled (h x hx)
  exact ⟨_, by rw [Row.rescaled?, hscores, Option.map_some]⟩

/-! ## Reports -/

/-- The scores of a report on a form are finite. -/
theorem Form.hasFiniteScores_report (form : Form) (teams : List Team) (id : Identifier)
    (createdAt : Timestamp) (milliseconds : UInt64) :
    (form.report teams id createdAt milliseconds).HasFiniteScores := by
  intro row hrow x hx
  obtain ⟨team, -, rfl⟩ := List.mem_map.mp hrow
  obtain ⟨e, -, rfl⟩ := List.mem_map.mp hx
  exact Equation.isFinite_score_evaluate

namespace Report

variable {r : Report}

theorem isFinite_toJson (h : r.HasFiniteScores) : r.toJson.IsFinite := by
  refine ⟨trivial, trivial, Json.isFinite_ofStrings _, Json.isFinite_ofStrings _, ?_, ?_, trivial,
    trivial⟩
  · rw [Json.IsFinite, Json.areFinite_iff]
    simpa using fun row hrow => Row.isFinite_toJson (h row hrow)
  · rw [Json.IsFinite, Json.areFinite_iff]
    simpa using fun remark _ => Remark.isFinite_toJson remark

/-- The text of a saved report is read as the document that was written. -/
theorem parse_save (h : r.HasFiniteScores) :
    Document.parse r.save.toList = some r.toJson.document :=
  Json.parse_text (isFinite_toJson h)

/-- A saved report is loaded with each score made anew of its digits. -/
theorem load_save (h : r.HasFiniteScores) : Report.load r.save =
    (r.rows.mapM Row.rescaled?).map fun rows => { r with rows := rows } := by
  have hparts := Json.parts?_document [("id", .string r.id.text),
    ("created_at", .string r.createdAt.text), ("columns", .ofStrings r.columns),
    ("equations", .ofStrings r.equations), ("rows", .array (r.rows.map Row.toJson)),
    ("diagnostics", .array (r.remarks.map Remark.toJson)),
    ("duration_ms", .int r.milliseconds.toNat)] (by simp)
  have hrows : Document.list? Row.ofDocument? (Json.document (.array (r.rows.map Row.toJson))) =
      r.rows.mapM Row.rescaled? := by
    rw [Json.list?_document]
    exact mapM_congr fun row hrow => Row.ofDocument?_toJson (h row hrow)
  have hremarks : Document.list? Remark.ofDocument?
      (Json.document (.array (r.remarks.map Remark.toJson))) = some r.remarks := by
    rw [Json.list?_document]
    exact mapM_eq_some_self_iff.mpr fun remark _ => Remark.ofDocument?_toJson remark
  simp only [List.map_cons, List.map_nil] at hparts
  rw [Report.load, parse_save h, Option.bind_some]
  simp only [Report.ofDocument?, Report.toJson, hparts, Json.string?_document,
    Json.list?_ofStrings, hrows, hremarks, Json.count?_document, Identifier.parse_text,
    Timestamp.parse_text, Option.elim_some, Option.bind_eq_bind, Option.bind_some, Option.pure_def,
    Option.map_eq_bind]
  rfl

/-- Exactly those reports are loaded unchanged whose scores are made of their digits. -/
theorem load_save_eq_some_self_iff (h : r.HasFiniteScores) : Report.load r.save = some r ↔
    ∀ row ∈ r.rows, ∀ x ∈ row.scores, Json.rescaled x = some x := by
  have hrows : (∀ row ∈ r.rows, ∀ x ∈ row.scores, Json.rescaled x = some x) ↔
      r.rows.mapM Row.rescaled? = some r.rows := by
    rw [mapM_eq_some_self_iff]
    exact forall₂_congr fun _ _ => Row.rescaled?_eq_some_self_iff.symm
  rw [hrows, load_save h, Option.map_eq_some_iff]
  constructor
  · rintro ⟨rows, hmapM, hr⟩
    rw [hmapM, ← hr]
  · exact fun hmapM => ⟨r.rows, hmapM, rfl⟩

/-- A saved report is loaded, and the report that is loaded has the stamps, columns, equations,
remarks and duration of the saved one, and its rows with their teams and cells, all in their order.
Each score is made anew: the digits of its text are rounded to a double, which is multiplied or
divided by a power of ten.  The report is the same exactly if this leaves each score as it was, and
it does if the digits of each make an integer below `2 ^ 53` and none of the powers of ten is
beyond the twenty-second. -/
theorem load_save_rescaled (h : r.HasFiniteScores) :
    (∃ rows, r.rows.mapM Row.rescaled? = some rows ∧
      Report.load r.save = some { r with rows := rows }) ∧
    (Report.load r.save = some r ↔
      ∀ row ∈ r.rows, ∀ x ∈ row.scores, Json.rescaled x = some x) ∧
    ((∀ row ∈ r.rows, ∀ x ∈ row.scores, Json.KeepsDigits x) → Report.load r.save = some r) := by
  have hiff := load_save_eq_some_self_iff h
  obtain ⟨rows, hrows⟩ := exists_mapM_eq_some fun row hrow => Row.exists_rescaled? (h row hrow)
  refine ⟨⟨rows, hrows, by rw [load_save h, hrows, Option.map_some]⟩, hiff, fun hkeeps => ?_⟩
  exact hiff.mpr fun row hrow x hx =>
    Json.rescaled_of_keepsDigits (h row hrow x hx) (hkeeps row hrow x hx)

end Report

/-- A report with texts that need escapes, a remark on no equation, and scores with a point, a sign
and an exponent. -/
def escapedReport : Report :=
  ⟨⟨0x123456789abcdef⟩, .leapSecond, ["climbs \"auto\""], ["Été\n"],
    [⟨"2\\54", ["\t\x01"], [ofInt 7 / ofInt 8, -ofInt 12]⟩, ⟨"𝔽", [], [1e-20]⟩],
    [⟨"2\\54", none, "no \"number\""⟩, ⟨"𝔽", some "Été\n", ""⟩], 18446744073709551615⟩

/-- The report is loaded unchanged. -/
theorem load_save_escapedReport : escapedReport.HasFiniteScores ∧
    (∀ row ∈ escapedReport.rows, ∀ x ∈ row.scores, Json.KeepsDigits x) ∧
      Report.load escapedReport.save = some escapedReport := by
  have hfinite : escapedReport.HasFiniteScores := by
    unfold Report.HasFiniteScores
    decide +kernel
  have hkeeps : ∀ row ∈ escapedReport.rows, ∀ x ∈ row.scores, Json.KeepsDigits x := by
    unfold Json.KeepsDigits
    decide +kernel
  exact ⟨hfinite, hkeeps, (Report.load_save_rescaled hfinite).2.2 hkeeps⟩

/-- A team with an average of 271 / 3 climbs.  The digits 9033333333333333 are above `2 ^ 53`. -/
def averageReport : Report :=
  (Form.parse "STEPPER;;Climbs;;climbs\nAverage = climbs / 3").report [⟨"254", [("climbs", "271")]⟩]
    ⟨0⟩ .leapSecond 0

/-- The average 90.33333333333333 is read as 90.33333333333331. -/
theorem not_load_save : ¬ ∀ r : Report, r.HasFiniteScores → Report.load r.save = some r := by
  intro h
  have hfinite : averageReport.HasFiniteScores := Form.hasFiniteScores_report _ _ _ _ _
  have hsame := (Report.load_save_eq_some_self_iff hfinite).mp (h averageReport hfinite)
  exact absurd hsame (by decide +kernel)

end Scorecard
