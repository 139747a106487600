import Scorecard.Report.Csv
import Scorecard.Report.Scoring
import Scorecard.Proofs.Form.Cells

/-!
# Reading comma-separated values back

`Csv.read` is a reader of comma-separated values after RFC 4180: a carriage return and a line feed
end each record, commas stand between the fields, and in a field that stands in quotes two quotes
are one and all other characters are themselves.  It goes through the text one character at a time
and refuses what it cannot read.

What is written is read back as it was, whatever the fields hold:

* a field is read to its end, and then a comma or a line end is due (`run_field`);
* so fields with commas between them are read one by one (`run_fields`), and a record that has any
  field is read whole (`run_record`);
* the report has a record for the heads of the columns and one for each row, none of them empty
  (`Report.read_csv`).
-/

namespace Scorecard

namespace Csv

/-! ## The reader -/

/-- Where a reader is. -/
inductive Place where
  /-- In front of a field. -/
  | front
  /-- In a field without quotes. -/
  | bare
  /-- Between the quotes of a field. -/
  | quoted
  /-- Behind a quote that ends the field or is the first of two. -/
  | closing
  /-- Behind a carriage return that ends the record. -/
  | ending
  deriving DecidableEq, Repr

/-- A reader and what it has read. -/
structure Reader where
  place : Place
  /-- The field that is being read. -/
  field : List Char
  /-- The fields before it in its record. -/
  fields : List String
  /-- The records before. -/
  records : List (List String)
  deriving DecidableEq, Repr

namespace Reader

/-- In front of a record, with the given records before it. -/
def atRecord (records : List (List String)) : Reader := ⟨.front, [], [], records⟩

/-- The character belongs to the field. -/
def add (r : Reader) (place : Place) (c : Char) : Reader :=
  { r with place := place, field := r.field ++ [c] }

/-- The field is complete. -/
def endField (r : Reader) (place : Place) : Reader :=
  { r with place := place, field := [], fields := r.fields ++ [String.ofList r.field] }

/-- Reads the next character. -/
def step (r : Reader) (c : Char) : Option Reader :=
  match r.place, c with
  | .front, '"' => some { r with place := .quoted }
  | .quoted, '"' => some { r with place := .closing }
  | .quoted, c => some (r.add .quoted c)
  | .closing, '"' => some (r.add .quoted '"')
  | .ending, '\n' => some (atRecord (r.records ++ [r.fields]))
  | .ending, _ => none
  | _, ',' => some (r.endField .front)
  | _, '\r' => some (r.endField .ending)
  | .closing, _ | _, '"' | _, '\n' => none
  | _, c => some (r.add .bare c)

/-- Reads a text. -/
def run (r : Reader) (cs : List Char) : Option Reader := cs.foldlM step r

/-- The records, if the last one has ended. -/
def finish (r : Reader) : Option (List (List String)) :=
  if r = atRecord r.records then some r.records else none

end Reader

/-- The records of a text. -/
def read (cs : List Char) : Option (List (List String)) :=
  ((Reader.atRecord []).run cs).bind Reader.finish

open Reader

theorem run_append (r : Reader) (cs ds : List Char) :
    r.run (cs ++ ds) = (r.run cs).bind (·.run ds) :=
  List.foldlM_append

theorem run_cons (r : Reader) (c : Char) (cs : List Char) :
    r.run (c :: cs) = (r.step c).bind (·.run cs) :=
  List.foldlM_cons

/-! ## Fields -/

section

variable (field : List Char) (fields : List String) (records : List (List String))

/-- Between quotes a text with every quote written twice is read as the text. -/
theorem run_doubled (cs : List Char) :
    (Reader.mk .quoted field fields records).run (doubled cs) =
      some ⟨.quoted, field ++ cs, fields, records⟩ := by
  induction cs generalizing field with
  | nil => simp [doubled, run]
  | cons c cs ih =>
    have hstep : (Reader.mk .quoted field fields records).run
        (if c = '"' then ['"', '"'] else [c]) = some ⟨.quoted, field ++ [c], fields, records⟩ := by
      by_cases hc : c = '"'
      · subst hc
        rfl
      · simp [hc, run, step, add]
    rw [doubled, List.flatMap_cons, run_append, hstep, Option.bind_some, ← doubled, ih,
      List.append_assoc]
    rfl

/-- Without quotes a text that needs none is read as it is. -/
theorem run_plain {place : Place} (hplace : place = .front ∨ place = .bare) {cs : List Char}
    (h : cs.any needsQuotes = false) :
    ∃ place', (place' = .front ∨ place' = .bare) ∧
      (Reader.mk place field fields records).run cs =
        some ⟨place', field ++ cs, fields, records⟩ := by
  induction cs generalizing place field with
  | nil => exact ⟨place, hplace, by simp [run]⟩
  | cons c cs ih =>
    obtain ⟨hc, hcs⟩ : needsQuotes c = false ∧ cs.any needsQuotes = false := by simpa using h
    have hmarks : c ≠ ',' ∧ c ≠ '"' ∧ c ≠ '\n' ∧ c ≠ '\r' := by
      simpa [needsQuotes, and_assoc] using hc
    have hstep : (Reader.mk place field fields records).step c =
        some ⟨.bare, field ++ [c], fields, records⟩ := by
      rcases hplace with rfl | rfl <;> simp [step, add, hmarks]
    obtain ⟨place', hplace', hrun⟩ := ih (field ++ [c]) (.inr rfl) hcs
    refine ⟨place', hplace', ?_⟩
    rw [run_cons, hstep, Option.bind_some, hrun, List.append_assoc]
    rfl

end

/-- A reader behind a whole field: a comma or a line end is due. -/
def Reader.AtEnd (r : Reader) : Prop := r.place ≠ .quoted ∧ r.place ≠ .ending

theorem Reader.AtEnd.step_eq {r : Reader} (h : r.AtEnd) :
    r.step ',' = some (r.endField .front) ∧ r.step '\r' = some (r.endField .ending) := by
  obtain ⟨place, field, fields, records⟩ := r
  cases place with
  | quoted => exact absurd rfl h.1
  | ending => exact absurd rfl h.2
  | front | bare | closing => exact ⟨rfl, rfl⟩

/-- A written field is read to its end as what it was. -/
theorem run_field (s : String) (fields : List String) (records : List (List String)) :
    ∃ place, Reader.AtEnd ⟨place, s.toList, fields, records⟩ ∧
      (Reader.mk .front [] fields records).run (field s).toList =
        some ⟨place, s.toList, fields, records⟩ := by
  by_cases hquotes : s.toList.any needsQuotes = true
  · refine ⟨.closing, by simp [AtEnd], ?_⟩
    have hopening : (Reader.mk .front [] fields records).step '"' =
        some ⟨.quoted, [], fields, records⟩ := rfl
    rw [field, if_pos hquotes, String.toList_ofList, List.cons_append, run_cons, hopening,
      Option.bind_some, run_append, run_doubled, Option.bind_some]
    rfl
  · rw [Bool.not_eq_true] at hquotes
    obtain ⟨place, hplace, hrun⟩ := run_plain [] fields records (.inl rfl) hquotes
    refine ⟨place, by rcases hplace with rfl | rfl <;> simp [AtEnd], ?_⟩
    rw [field, if_neg (by simp [hquotes])]
    exact hrun

/-! ## Records -/

theorem run_fields (s : String) (ss fields : List String) (records : List (List String))
    (rest : List Char) :
    (Reader.mk .front [] fields records).run
        ((Text.join "," ((s :: ss).map field)).toList ++ '\r' :: rest) =
      (Reader.mk .ending [] (fields ++ s :: ss) records).run rest := by
  induction ss generalizing s fields with
  | nil =>
    obtain ⟨place, hend, hfield⟩ := run_field s fields records
    have hjoin : Text.join "," ([s].map field) = field s := by simp [Text.join]
    rw [hjoin, run_append, hfield, Option.bind_some, run_cons, hend.step_eq.2, Option.bind_some]
    simp [endField]
  | cons t ss ih =>
    obtain ⟨place, hend, hfield⟩ := run_field s fields records
    have hjoin : Text.join "," ((s :: t :: ss).map field) =
        field s ++ "," ++ Text.join "," ((t :: ss).map field) := by
      simp [Text.join, String.intercalate_cons_cons]
    have hcomma : (",").toList = [','] := rfl
    rw [hjoin, String.toList_append, String.toList_append, hcomma, List.append_assoc,
      List.append_assoc, run_append, hfield, Option.bind_some, List.singleton_append, run_cons,
      hend.step_eq.1, Option.bind_some]
    simpa [endField] using ih t (fields ++ [s])

/-- A written record that has a field is read as what it was. -/
theorem run_record {ss : List String} (h : ss ≠ []) (records : List (List String))
    (rest : List Char) :
    (atRecord records).run ((record ss).toList ++ rest) = (atRecord (records ++ [ss])).run rest := by
  obtain ⟨s, ss, rfl⟩ := List.exists_cons_of_ne_nil h
  have hend : ("\r\n").toList = ['\r', '\n'] := rfl
  have hstep : (Reader.mk .ending [] (s :: ss) records).step '\n' =
      some (atRecord (records ++ [s :: ss])) := rfl
  rw [record, String.toList_append, hend, List.append_assoc, List.cons_append, atRecord,
    run_fields, List.nil_append, List.singleton_append, run_cons, hstep, Option.bind_some]

/-- Written records that have fields are read as what they were. -/
theorem run_records {rs : List (List String)} (h : ∀ ss ∈ rs, ss ≠ [])
    (records : List (List String)) :
    (atRecord records).run (rs.flatMap fun ss => (record ss).toList) =
      some (atRecord (records ++ rs)) := by
  induction rs generalizing records with
  | nil => simp [run]
  | cons ss rs ih =>
    rw [List.flatMap_cons, run_record (h ss List.mem_cons_self),
      ih (fun ss' hss => h ss' (List.mem_cons_of_mem _ hss)), List.append_assoc]
    rfl

/-- Reading undoes writing. -/
theorem read_records {rs : List (List String)} (h : ∀ ss ∈ rs, ss ≠ []) :
    read (String.join (rs.map record)).toList = some rs := by
  rw [read, String.toList_join, List.flatMap_map, run_records h]
  simp [finish, atRecord]

end Csv

/-! ## Reports -/

/-- The row of a team has a field for each column and each equation, and one for the team. -/
theorem Form.length_fields_row (form : Form) (team : Team) :
    (form.row team).fields.length = 1 + form.schema.columns.length + form.equations.length := by
  simp [Form.row, Row.fields, Schema.length_cells]
  omega

/-- A report that is written with any rows is read back as the heads of the columns and, row by row,
the team, its cells and the texts of its scores.  In the report on a form's teams all records have
the same number of fields. -/
theorem Report.read_csv :
    (∀ (r : Report) (rows : List Row),
      Csv.read (r.csv rows).toList =
        some (r.headers :: rows.map fun row =>
          row.team :: row.cells ++ row.scores.map Number.scoreText)) ∧
    ∀ (form : Form) (teams : List Team) (id : Identifier) (createdAt : Timestamp)
      (milliseconds : UInt64) (rows : List Row),
      (∀ row ∈ rows, row ∈ (form.report teams id createdAt milliseconds).rows) →
      ∃ records, Csv.read ((form.report teams id createdAt milliseconds).csv rows).toList =
          some records ∧
        ∀ fields ∈ records, fields.length = 1 + form.schema.columns.length + form.equations.length := by
  have hread : ∀ (r : Report) (rows : List Row),
      Csv.read (r.csv rows).toList = some (r.headers :: rows.map Row.fields) := by
    intro r rows
    refine Csv.read_records fun ss hss => ?_
    rcases List.mem_cons.mp hss with rfl | hss
    · exact List.cons_ne_nil _ _
    · obtain ⟨row, -, rfl⟩ := List.mem_map.mp hss
      exact List.cons_ne_nil _ _
  refine ⟨hread, fun form teams id createdAt milliseconds rows hrows => ⟨_, hread _ rows, ?_⟩⟩
  intro fields hfields
  rcases List.mem_cons.mp hfields with rfl | hfields
  · simp [Report.headers, Form.report]
    omega
  · obtain ⟨row, hrow, rfl⟩ := List.mem_map.mp hfields
    obtain ⟨team, -, rfl⟩ := List.mem_map.mp (hrows row hrow)
    exact form.length_fields_row team

/-- A form with one number and an equation that has a comma in its name. -/
def commaForm : Form :=
  ⟨.ofFields [.textField .number ⟨["number"], ["Auto"], ["auto"]⟩], [⟨"total, all", "2*auto"⟩], []⟩

/-- The report on two teams whose numbers and answers hold quotes, commas and a line end. -/
def commaReport : Report :=
  commaForm.report [⟨"254 \"A\"", [("auto", "12\r\n")]⟩, ⟨" ", [("auto", ",")]⟩] ⟨0⟩
    ⟨⟨2024, 2, 29, by decide⟩, Fin.last _, Fin.last _, Fin.last _⟩ 0

/-- The rows in reverse order, read back. -/
theorem read_csv_commaReport :
    (∀ row ∈ commaReport.rows.reverse, row ∈ commaReport.rows) ∧
      Csv.read (commaReport.csv commaReport.rows.reverse).toList =
        some [["team", "auto", "Total, All"], [" ", ",", "0"], ["254 \"A\"", "12\r\n", "24"]] ∧
      ∃ records, Csv.read (commaReport.csv commaReport.rows.reverse).toList = some records ∧
        ∀ fields ∈ records, fields.length = 3 := by
  obtain ⟨hread, hlengths⟩ := Report.read_csv
  have hrows : ∀ row ∈ commaReport.rows.reverse, row ∈ commaReport.rows := fun row hrow =>
    List.mem_reverse.mp hrow
  refine ⟨hrows, (hread commaReport commaReport.rows.reverse).trans (by decide +kernel), ?_⟩
  exact hlengths commaForm _ _ _ _ commaReport.rows.reverse hrows

end Scorecard
