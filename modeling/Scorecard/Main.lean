import Scorecard.Command.Execution
import Std.Time.Date.PlainDate
import Std.Time.DateTime.Timestamp

/-!
# The program

The workspace of the program is the computer that it runs on.
-/

namespace Scorecard

/-- The failure of a system call with a code, which some calls report negated, and a text. -/
def FileError.ofCode (code : UInt32) (text : String) : FileError :=
  match min code (-code) with
  | 2 => .notFound
  | 17 => .alreadyExists
  | 20 => .notDirectory
  | 21 => .isDirectory
  | number => .other (text ++ s!" (os error {number})")

/-- The failure of a file operation. -/
def FileError.ofError : IO.Error → FileError
  | .noFileOrDirectory _ code text => ofCode code text
  | .alreadyExists _ code text => ofCode code text
  | .inappropriateType _ code text => ofCode code text
  | .permissionDenied _ code text => ofCode code text
  | .invalidArgument _ code text => ofCode code text
  | .resourceExhausted _ code text => ofCode code text
  | .noSuchThing _ code text => ofCode code text
  | .resourceBusy code text => ofCode code text
  | .unsupportedOperation code text => ofCode code text
  | .otherError code text => ofCode code text
  | e => .other (toString e)

/-- The result of a file operation. -/
def attempt {α : Type} (x : IO α) : IO (Except FileError α) := do
  match ← x.toBaseIO with
  | .ok a => return .ok a
  | .error e => return .error (.ofError e)

/-- The type of what a path leads to. -/
def typeAt? (path : String) : IO (Option IO.FS.FileType) := do
  match ← attempt do (← IO.FS.realPath path).metadata with
  | .ok data => return some data.type
  | .error _ => return none

/-- The text of a file. -/
def readTextFile (path : String) : IO (Except FileError String) := do
  match ← attempt (IO.FS.readBinFile path) with
  | .error e => return .error e
  | .ok bytes =>
      match String.fromUTF8? bytes with
      | some text => return .ok text
      | none => return .error .notText

/-- The time of the computer's clock, which counts from the start of 1970. -/
def currentTime : IO Timestamp := do
  let count := (← Std.Time.Timestamp.now).toNanosecondsSinceUnixEpoch.val
  let second := 1000000000
  let date := Std.Time.PlainDate.ofEpochDay ⟨count / (86400 * second)⟩
  let past := (count % (86400 * second)).toNat
  let seconds := past / second.toNat
  let found := (Date.ofParts? date.year date.month.val.toNat date.day.val.toNat).bind fun d =>
    Timestamp.ofLocal? d (seconds / 3600) (seconds / 60 % 60) (seconds % 60) (past % second.toNat) 0
  match found with
  | some t => return t
  | none => throw (IO.userError "the clock shows a time that cannot be written")

/-- An identifier made of random bits, apart from those that say so: a 4 as the first digit of the
third group, and 8 to B as the first digit of the fourth. -/
def randomIdentifier : IO Identifier := do
  let bytes ← IO.getRandomBytes 16
  let bits := BitVec.ofNat 128 (bytes.toList.foldl (fun n byte => n * 256 + byte.toNat) 0)
  let fixed := 0xF#128 <<< 76 ||| 0x3#128 <<< 62
  return ⟨(bits &&& ~~~fixed) ||| (0x4#128 <<< 76 ||| 0x2#128 <<< 62)⟩

instance : Workspace IO where
  readText := readTextFile
  writeText path text := attempt (IO.FS.writeFile path text)
  pathExists path := return (← typeAt? path).isSome
  isFile path := return (← typeAt? path) == some .file
  isDirectory path := return (← typeAt? path) == some .dir
  names path := attempt do
    return ((← (← IO.FS.realPath path).readDir).map (·.fileName)).toList
  makeDirectory path := attempt (IO.FS.createDir path)
  environment? name := IO.getEnv name
  now := currentTime
  milliseconds := IO.monoMsNow
  freshIdentifier := randomIdentifier
  print text := do (← IO.getStdout).putStr text
  printMessage text := do (← IO.getStderr).putStr text

end Scorecard

/-- Does what the command line asks for. -/
def main (arguments : List String) : IO UInt32 := Scorecard.Command.execute arguments
