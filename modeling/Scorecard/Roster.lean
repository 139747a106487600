import Scorecard.Failure
import Scorecard.Form.Binding
import Scorecard.Notice
import Scorecard.Toml.Document

/-!
# Rosters

Teams are recorded in files, as TOML or JSON.  A file holds one record, an array of records, or a
record whose member `teams` is such an array.  The members of a record that are texts, numbers or
truth values are the answers of a team; the number of the team is one of them, and a record without
it is passed over.  A file is used as a whole or not at all.
-/

namespace Scorecard

/-- The answer that a value stands for. -/
def Json.answer? : Json → Option String
  | .string s => some s
  | .int n => some (String.ofList (Number.intText n))
  | .float x => some (floatText x)
  | .bool b => some (if b then "yes" else "no")
  | .null | .array _ | .object _ => none

/-- The members of an object. -/
def Json.members? : Json → Option (List (String × Json))
  | .object members => some members
  | _ => none

namespace Roster

/-- A record: the members of an object in the order of their keys. -/
abbrev Record := List (String × Json)

/-- The values that should be records, unless the value has not the shape for any. -/
def records? : Json → Option (List Json)
  | .array items => some items
  | .object members =>
      match members.lookup "teams" with
      | some (.array items) => some items
      | _ => some [.object members]
  | _ => none

/-- The answers of a record. -/
def answers (r : Record) : List (String × String) :=
  r.filterMap fun (key, v) => v.answer?.map fun answer => (key, answer)

/-- The number of the team of a record, which is the answer under `numberKey`. -/
def number? (numberKey : String) (r : Record) : Option String :=
  (((answers r).lookup numberKey).map Text.trim).filter (· ≠ "")

/-- The team of a record. -/
def team? (numberKey : String) (r : Record) : Option Team :=
  (number? numberKey r).map fun number => ⟨number, answers r⟩

/-- What is said about a record of a file. -/
def notices (path numberKey : String) (index : Nat) (r : Record) : List Notice :=
  (r.filter fun m => m.2.answer?.isNone).map (fun m =>
      ⟨.debug, path ++ ": ignoring non-scalar value for `" ++ m.1 ++ "`"⟩) ++
    if (number? numberKey r).isSome then []
    else [⟨.warn, path ++ s!": record {index} has no `" ++ numberKey ++ "` value"⟩]

/-- What the reading of files has led to, and what was said on the way. -/
structure Outcome (ε α : Type) where
  result : Except ε α
  notices : List Notice

/-- The teams of the records of a file.  What is said about the records ends at the first value that
is none. -/
def ofRecords (path numberKey : String) (values : List Json) : Outcome RecordFault (List Team) where
  result :=
    match values.mapM Json.members? with
    | some records => .ok (records.filterMap (team? numberKey))
    | none => .error (.wrongShape path)
  notices := (((values.map Json.members?).takeWhile Option.isSome).filterMap id).zipIdx.flatMap
    fun (r, index) => notices path numberKey index r

/-- The value of the text of a file, whose name says how it is written. -/
def parse (path text : String) : Option Json :=
  if extension? (fileName path) = some "toml".toList then Toml.parse text.toList
  else Json.parse text.toList

/-- The teams of a file that was read. -/
def ofText (path numberKey : String) (text : Except FileError String) :
    Outcome RecordFault (List Team) :=
  match text with
  | .error cause => ⟨.error (.unreadable path cause), []⟩
  | .ok text =>
      match parse path text with
      | none => ⟨.error (.unparseable path), []⟩
      | some v =>
          match records? v with
          | none => ⟨.error (.wrongShape path), []⟩
          | some values => ofRecords path numberKey values

/-- Whether a name is one of a file with records. -/
def isRecordFile (name : String) : Bool :=
  let ending := extension? name.toList
  ending = some "json".toList || ending = some "toml".toList

variable {m : Type → Type} [Monad m] [Workspace m]

/-- Reads the teams of a file. -/
def loadFile (path numberKey : String) : m (Outcome RecordFault (List Team)) :=
  return ofText path numberKey (← Workspace.readText path)

/-- The outcomes of files, put together: the files that cannot be used are left out. -/
def gather (outcomes : List (String × Outcome RecordFault (List Team))) :
    List Team × List Notice :=
  (outcomes.flatMap fun o => match o.2.result with
      | .ok teams => teams
      | .error _ => [],
    outcomes.flatMap fun o => o.2.notices ++ match o.2.result with
      | .ok _ => []
      | .error fault => [⟨.warn, "skipping " ++ o.1 ++ ": " ++ fault.message⟩])

/-- The paths of the files with records among the names in a directory, in the order of their
names. -/
def recordPaths (directory : String) (names : List String) : List String :=
  ((names.filter isRecordFile).mergeSort fun a b => a ≤ b).map (joinPath directory)

/-- Reads the teams of all files in a directory. -/
def loadDirectory (directory numberKey : String) : m (Outcome Failure (List Team)) := do
  if !(← Workspace.isDirectory directory) then
    return ⟨.error (.teamsNotFound directory), []⟩
  match ← Workspace.names directory with
  | .error cause => return ⟨.error (.teamsUnlistable directory cause), []⟩
  | .ok names =>
      let paths ← (recordPaths directory names).filterM Workspace.isFile
      let outcomes ← paths.mapM fun path => return (path, ← loadFile path numberKey)
      let (teams, notices) := gather outcomes
      return ⟨.ok teams, notices ++
        [⟨.info, s!"{teams.length} teams loaded from {paths.length} files"⟩]⟩

end Roster

end Scorecard
