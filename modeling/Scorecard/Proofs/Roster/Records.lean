import Mathlib.Data.List.TakeWhile
import Scorecard.Proofs.Json.Keys
import Scorecard.Roster

/-!
# Records of a file

A file is used as a whole or not at all, and no record of a file that is used is lost silently: it
is a team, or a warning names its index (`ofText_accounts`).

* `Json.Lists` says among which values the records of a file are, and `Misshapen` when a file cannot
  be used.
* `IsTeamOf` says what team a record is.  Keys occur once in a record, so the number is the one
  scalar under its key (`number?_eq_some_iff`), and the answers are the scalars
  (`mem_answers_iff`).
* `Accounts` goes through the records of a file: each is a team, or its index is noted.
-/

namespace Scorecard

/-! ## Scalars -/

/-- The text of a scalar: a text itself, a number as it is written, a truth value as yes or no. -/
inductive Json.HasText : Json → String → Prop
  | string (s : String) : HasText (.string s) s
  | int (n : Int) : HasText (.int n) (String.ofList (Number.intText n))
  | float (x : Float) : HasText (.float x) (Json.floatText x)
  | yes : HasText (.bool true) "yes"
  | no : HasText (.bool false) "no"

theorem Json.answer?_eq_some_iff {v : Json} {text : String} :
    v.answer? = some text ↔ v.HasText text := by
  constructor
  · intro h
    cases v with
    | string s => exact Option.some.inj h ▸ .string s
    | int n => exact Option.some.inj h ▸ .int n
    | float x => exact Option.some.inj h ▸ .float x
    | bool b =>
      cases b with
      | true => exact Option.some.inj h ▸ .yes
      | false => exact Option.some.inj h ▸ .no
    | null | array _ | object _ => cases h
  · intro h
    cases h <;> rfl

/-! ## The values that should be records -/

/-- The values among which a file with a value has its records: the items of an array, or of the
array under `teams` of an object; an object without such an array is the only one. -/
inductive Json.Lists : Json → List Json → Prop
  | array (items : List Json) : Lists (.array items) items
  | teams {members : List (String × Json)} {items : List Json}
      (h : ("teams", .array items) ∈ members) : Lists (.object members) items
  | single {members : List (String × Json)} (h : ∀ items, ("teams", .array items) ∉ members) :
      Lists (.object members) [.object members]

namespace Roster

variable {path key : String}

theorem records?_eq_some_iff {v : Json} (h : v.InOrder) {values : List Json} :
    records? v = some values ↔ v.Lists values := by
  cases h with
  | array _ =>
    constructor
    · intro heq
      exact Option.some.inj heq ▸ .array _
    · rintro ⟨⟩
      rfl
  | @object members hkeys _ =>
    have hteams : ∀ items, members.lookup "teams" = some (.array items) ↔
        ("teams", .array items) ∈ members := fun items => hkeys.lookup_eq_some_iff
    constructor
    · intro heq
      rw [records?] at heq
      split at heq
      · next items hitems => exact Option.some.inj heq ▸ .teams ((hteams items).mp hitems)
      · next hother =>
        exact Option.some.inj heq ▸ .single fun items hmem => hother items ((hteams items).mpr hmem)
    · rintro (_ | hmem | hnone)
      · rw [records?, (hteams values).mpr hmem]
      · rw [records?]
        split
        · next items hitems => exact absurd ((hteams items).mp hitems) (hnone items)
        · rfl
  | null | bool _ | int _ | float _ | string _ => exact iff_of_false nofun nofun

/-- The value of a file is of no use: it is neither an array nor an object, or one of the values that
should be records is no object. -/
inductive Misshapen (v : Json) : Prop
  | scalar (harray : ∀ items, v ≠ .array items) (hobject : ∀ members, v ≠ .object members)
  | item {values : List Json} {item : Json} (hvalues : v.Lists values) (hitem : item ∈ values)
      (hobject : ∀ members, item ≠ .object members)

theorem records?_eq_none_iff {v : Json} :
    records? v = none ↔ (∀ items, v ≠ .array items) ∧ ∀ members, v ≠ .object members := by
  cases v with
  | object members =>
    refine iff_of_false (fun h => ?_) fun h => h.2 members rfl
    rw [records?] at h
    split at h <;> cases h
  | array items => exact iff_of_false nofun fun h => h.1 items rfl
  | null | bool _ | int _ | float _ | string _ => exact iff_of_true rfl ⟨nofun, nofun⟩

theorem members?_eq_some_iff {v : Json} {members : Record} :
    v.members? = some members ↔ v = .object members := by
  cases v <;> simp [Json.members?]

theorem mapM_members?_eq_some_iff {values : List Json} {records : List Record} :
    values.mapM Json.members? = some records ↔ values = records.map .object := by
  induction values generalizing records with
  | nil => cases records <;> simp
  | cons v vs ih => cases records <;> simp [Option.bind_eq_some_iff, members?_eq_some_iff, ih]

/-- Values that are not all records hold one that is no object. -/
theorem mapM_members?_eq_none_iff {values : List Json} :
    values.mapM Json.members? = none ↔ ∃ item ∈ values, ∀ members, item ≠ .object members := by
  have hnone : ∀ v : Json, v.members? = none ↔ ∀ members, v ≠ .object members := by
    intro v
    cases v <;> simp [Json.members?]
  induction values with
  | nil => simp
  | cons v vs ih =>
    rw [List.exists_mem_cons_iff, ← hnone]
    cases hv : v.members? with
    | none => simp [hv]
    | some _ => simpa [hv, ← ih] using Option.eq_none_iff_forall_ne_some.symm

/-! ## Teams -/

section

variable {r : Record}

/-- The answers of a record are the texts of its scalars. -/
theorem mem_answers_iff {k text : String} :
    (k, text) ∈ answers r ↔ ∃ v, (k, v) ∈ r ∧ v.HasText text := by
  simp only [answers, List.mem_filterMap, Option.map_eq_some_iff, Json.answer?_eq_some_iff,
    Prod.exists, Prod.mk.injEq]
  constructor
  · rintro ⟨k', v, hmem, text', htext, rfl, rfl⟩
    exact ⟨v, hmem, htext⟩
  · rintro ⟨v, hmem, htext⟩
    exact ⟨k, v, hmem, text, htext, rfl, rfl⟩

theorem keysInOrder_answers (h : KeysInOrder r) : KeysInOrder (answers r) := by
  induction r with
  | nil => exact .nil
  | cons m ms ih =>
    obtain ⟨hfirst, hrest⟩ := List.pairwise_cons.mp h
    rw [answers, List.filterMap_cons]
    split
    · exact ih hrest
    · next answer hanswer =>
      obtain ⟨text, -, rfl⟩ := Option.map_eq_some_iff.mp hanswer
      refine List.pairwise_cons.mpr ⟨fun other hother => ?_, ih hrest⟩
      obtain ⟨⟨k, _⟩, hk, rfl⟩ := List.mem_map.mp hother
      obtain ⟨v, hv, -⟩ := mem_answers_iff.mp hk
      exact hfirst k (List.mem_map.mpr ⟨_, hv, rfl⟩)

/-- The number of a record: the text of the scalar under the key, without the blanks around it,
unless nothing is left. -/
def HasNumber (key : String) (r : Record) (number : String) : Prop :=
  ∃ v text, (key, v) ∈ r ∧ v.HasText text ∧ Text.trim text = number ∧ number ≠ ""

theorem number?_eq_some_iff (h : KeysInOrder r) {number : String} :
    number? key r = some number ↔ HasNumber key r number := by
  simp only [number?, Option.filter_eq_some_iff, Option.map_eq_some_iff,
    (keysInOrder_answers h).lookup_eq_some_iff, mem_answers_iff, decide_eq_true_eq, HasNumber]
  constructor
  · rintro ⟨⟨text, ⟨v, hv, htext⟩, hnumber⟩, hne⟩
    exact ⟨v, text, hv, htext, hnumber, hne⟩
  · rintro ⟨v, text, hv, htext, hnumber, hne⟩
    exact ⟨⟨text, ⟨v, hv, htext⟩, hnumber⟩, hne⟩

/-- The team of a record: its number, and an answer for each scalar. -/
structure IsTeamOf (key : String) (r : Record) (team : Team) : Prop where
  number : HasNumber key r team.number
  mem_answers_iff : ∀ k text, (k, text) ∈ team.answers ↔ ∃ v, (k, v) ∈ r ∧ v.HasText text
  keysInOrder : KeysInOrder team.answers

end

/-! ## Files -/

/-- The warning about a record without a number. -/
def noNumber (path key : String) (index : Nat) : Notice :=
  ⟨.warn, path ++ s!": record {index} has no `" ++ key ++ "` value"⟩

/-- Goes through records, the first of which has an index: each is a team, or it has no number and
its index is noted. -/
inductive Accounts (key : String) : Nat → List Record → List Team → List Nat → Prop
  | nil (index : Nat) : Accounts key index [] [] []
  | team {index : Nat} {r : Record} {team : Team} {records : List Record} {teams : List Team}
      {missing : List Nat} (h : IsTeamOf key r team)
      (rest : Accounts key (index + 1) records teams missing) :
      Accounts key index (r :: records) (team :: teams) missing
  | missing {index : Nat} {r : Record} {records : List Record} {teams : List Team}
      {missing : List Nat} (h : ∀ number, ¬ HasNumber key r number)
      (rest : Accounts key (index + 1) records teams missing) :
      Accounts key index (r :: records) teams (index :: missing)

/-- Each record is accounted for once. -/
theorem Accounts.length_eq {index : Nat} {records : List Record} {teams : List Team}
    {missing : List Nat} (h : Accounts key index records teams missing) :
    teams.length + missing.length = records.length := by
  induction h with
  | nil => rfl
  | team _ _ ih => simp only [List.length_cons]; omega
  | missing _ _ ih => simp only [List.length_cons]; omega

/-- What is said about one record is a warning only if the record has no number. -/
theorem filter_warn_notices (index : Nat) (r : Record) :
    (notices path key index r).filter (·.level = .warn) =
      if (number? key r).isSome then [] else [noNumber path key index] := by
  have hdebug : ((r.filter fun m => m.2.answer?.isNone).map fun m =>
      (⟨.debug, path ++ ": ignoring non-scalar value for `" ++ m.1 ++ "`"⟩ : Notice)).filter
        (·.level = .warn) = [] := by
    refine List.filter_eq_nil_iff.mpr fun notice hnotice => ?_
    obtain ⟨_, -, rfl⟩ := List.mem_map.mp hnotice
    simp
  rw [notices, List.filter_append, hdebug, List.nil_append]
  split <;> rfl

/-- The teams of records and the warnings about them account for the records. -/
theorem exists_accounts (path key : String) {records : List Record}
    (h : ∀ r ∈ records, KeysInOrder r) (index : Nat) :
    ∃ missing, Accounts key index records (records.filterMap (team? key)) missing ∧
      ((records.zipIdx index).flatMap fun (r, i) => notices path key i r).filter
        (·.level = .warn) = missing.map (noNumber path key) := by
  induction records generalizing index with
  | nil => exact ⟨[], .nil index, rfl⟩
  | cons r records ih =>
    obtain ⟨missing, haccounts, hwarnings⟩ := ih (fun r hr => h r (by simp [hr])) (index + 1)
    have hr := h r (by simp)
    rw [List.zipIdx_cons, List.flatMap_cons, List.filter_append, filter_warn_notices, hwarnings]
    cases hnumber : number? key r with
    | some number =>
      have hteam : IsTeamOf key r ⟨number, answers r⟩ :=
        ⟨(number?_eq_some_iff hr).mp hnumber, fun _ _ => mem_answers_iff, keysInOrder_answers hr⟩
      refine ⟨missing, ?_, by simp⟩
      rw [List.filterMap_cons_some (by rw [team?, hnumber, Option.map_some])]
      exact .team hteam haccounts
    | none =>
      have hnone : ∀ number, ¬ HasNumber key r number := by
        intro number hhas
        rw [(number?_eq_some_iff hr).mpr hhas] at hnumber
        cases hnumber
      refine ⟨index :: missing, ?_, by simp⟩
      rw [List.filterMap_cons_none (by rw [team?, hnumber, Option.map_none])]
      exact .missing hnone haccounts

theorem inOrder_parse {text : String} {v : Json} (h : parse path text = some v) : v.InOrder := by
  rw [parse] at h
  split at h
  · exact Toml.inOrder_parse h
  · exact Json.inOrder_parse h

/-- What a file with a value leads to. -/
theorem ofText_of_parse {text : String} {v : Json} (h : parse path text = some v) :
    ofText path key (.ok text) =
      (records? v).elim ⟨.error (.wrongShape path), []⟩ (ofRecords path key) := by
  simp only [ofText, h]
  cases records? v <;> rfl

/-- The list of the records of a value that is read is unique. -/
theorem lists_iff_eq {v : Json} (hv : v.InOrder) {values : List Json} (h : records? v = some values)
    {others : List Json} : v.Lists others ↔ others = values := by
  rw [← records?_eq_some_iff hv, h, Option.some.injEq, eq_comm]

/-- A file is of no use exactly if its value is misshapen. -/
theorem misshapen_iff {v : Json} (hv : v.InOrder) : Misshapen v ↔
    ∀ values, records? v = some values → values.mapM Json.members? = none := by
  constructor
  · rintro (⟨harray, hobject⟩ | ⟨hvalues, hitem, hobject⟩) values h
    · rw [records?_eq_none_iff.mpr ⟨harray, hobject⟩] at h
      cases h
    · obtain rfl := (lists_iff_eq hv h).mp hvalues
      exact mapM_members?_eq_none_iff.mpr ⟨_, hitem, hobject⟩
  · intro h
    cases hvalues : records? v with
    | none =>
      obtain ⟨harray, hobject⟩ := records?_eq_none_iff.mp hvalues
      exact .scalar harray hobject
    | some values =>
      obtain ⟨item, hitem, hobject⟩ := mapM_members?_eq_none_iff.mp (h values hvalues)
      exact .item ((records?_eq_some_iff hv).mp hvalues) hitem hobject

/-- Records that are read have their keys in order. -/
theorem keysInOrder_of_lists {v : Json} (hv : v.InOrder) {records : List Record}
    (h : v.Lists (records.map .object)) : ∀ r ∈ records, KeysInOrder r := by
  have hobject : ∀ {members : Record}, Json.InOrder (.object members) → KeysInOrder members := by
    rintro _ ⟨⟩
    assumption
  have hitems : ∀ {items : List Json}, (∀ item ∈ items, item.InOrder) →
      items = records.map .object → ∀ r ∈ records, KeysInOrder r := by
    rintro _ hitems rfl r hr
    exact hobject (hitems _ (List.mem_map_of_mem hr))
  generalize hvalues : records.map Json.object = values at h
  cases h with
  | array =>
    cases hv with
    | array h => exact hitems h hvalues.symm
  | teams hmem =>
    cases hv with
    | object _ h =>
      cases h _ hmem with
      | array h => exact hitems h hvalues.symm
  | single => exact hitems (by simpa using hv) hvalues.symm

/-- Values that are all records make teams, and what is said about them is about every record. -/
theorem ofRecords_map_object (records : List Record) :
    ofRecords path key (records.map .object) =
      ⟨.ok (records.filterMap (team? key)),
        records.zipIdx.flatMap fun (r, i) => notices path key i r⟩ := by
  have hmembers : (records.map Json.object).map Json.members? = records.map some := by
    rw [List.map_map]
    rfl
  have hwhole : (records.map some).takeWhile Option.isSome = records.map some :=
    List.takeWhile_eq_self_iff.mpr (by simp)
  rw [ofRecords, mapM_members?_eq_some_iff.mpr rfl, hmembers, hwhole]
  simp [List.filterMap_map]

/-- A file with a value is refused exactly if the value is misshapen.  Otherwise its records are one
list, and each of them is a team, in the order of the list, or there is a warning with its index. -/
theorem ofText_accounts {text : String} {v : Json} (h : parse path text = some v) (key : String) :
    ((ofText path key (.ok text)).result = .error (.wrongShape path) ↔ Misshapen v) ∧
      (¬ Misshapen v → ∃ records teams missing,
        (∀ values, v.Lists values ↔ values = records.map .object) ∧
        (ofText path key (.ok text)).result = .ok teams ∧
        Accounts key 0 records teams missing ∧
        (ofText path key (.ok text)).notices.filter (·.level = .warn) =
          missing.map (noNumber path key) ∧
        teams.length + missing.length = records.length) := by
  have hv := inOrder_parse h
  rw [misshapen_iff hv, ofText_of_parse h]
  cases hvalues : records? v with
  | none => exact ⟨iff_of_true rfl nofun, fun hno => absurd nofun hno⟩
  | some values =>
    cases hrecords : values.mapM Json.members? with
    | none =>
      have hall : ∀ others, some values = some others → others.mapM Json.members? = none := by
        rintro _ ⟨⟩
        exact hrecords
      refine ⟨iff_of_true ?_ hall, fun hno => absurd hall hno⟩
      simp [ofRecords, hrecords]
    | some records =>
      obtain rfl := mapM_members?_eq_some_iff.mp hrecords
      have hlists := (records?_eq_some_iff hv).mp hvalues
      obtain ⟨missing, haccounts, hwarnings⟩ :=
        exists_accounts path key (keysInOrder_of_lists hv hlists) 0
      rw [Option.elim_some, ofRecords_map_object]
      refine ⟨iff_of_false nofun fun hno => ?_, fun _ => ⟨records, _, missing,
        fun _ => lists_iff_eq hv hvalues, rfl, haccounts, hwarnings, haccounts.length_eq⟩⟩
      rw [hno _ rfl] at hrecords
      cases hrecords

/-- A list of a record with a number and one without. -/
def twoRecords : String :=
  "\x7b\"teams\": [\x7b\"team_num\": \" 118 \", \"climbed\": true, \"notes\": null\x7d, \x7b\"gears\": 9\x7d]\x7d"

/-- The first record of the list is a team, and there is a warning about the second. -/
theorem ofText_accounts_twoRecords :
    ∃ v, parse "teams.json" twoRecords = some v ∧ ¬ Misshapen v ∧
      ∃ records missing, v.Lists (records.map .object) ∧
        Accounts "team_num" 0 records
          [⟨"118", [("climbed", "yes"), ("team_num", " 118 ")]⟩] missing ∧
        [noNumber "teams.json" "team_num" 1] = missing.map (noNumber "teams.json" "team_num") := by
  obtain ⟨v, hv⟩ : ∃ v, parse "teams.json" twoRecords = some v :=
    Option.isSome_iff_exists.mp (by decide +kernel)
  have hresult : (ofText "teams.json" "team_num" (.ok twoRecords)).result =
      .ok [⟨"118", [("climbed", "yes"), ("team_num", " 118 ")]⟩] := by
    decide +kernel
  have hwarnings : (ofText "teams.json" "team_num" (.ok twoRecords)).notices.filter (·.level = .warn) =
      [noNumber "teams.json" "team_num" 1] := by
    decide +kernel
  obtain ⟨hshape, haccounts⟩ := ofText_accounts hv "team_num"
  rw [hresult] at hshape haccounts
  have hno : ¬ Misshapen v := fun h => by cases hshape.mpr h
  obtain ⟨records, teams, missing, hlists, hteams, haccounts, hmissing, -⟩ := haccounts hno
  obtain rfl := Except.ok.inj hteams
  exact ⟨v, hv, hno, records, missing, (hlists _).mpr rfl, haccounts, hwarnings ▸ hmissing⟩

end Roster

end Scorecard
