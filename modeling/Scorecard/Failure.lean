import Scorecard.Workspace
import Scorecard.Text.Split

/-!
# Failures

What ends a command: a place that is missing, or a file that cannot be read, understood or written.
-/

namespace Scorecard

/-- Why the records of a file cannot be used. -/
inductive RecordFault where
  | unreadable (path : String) (cause : FileError)
  | unparseable (path : String)
  | wrongShape (path : String)
  deriving DecidableEq, Repr

/-- The fault in words. -/
def RecordFault.message : RecordFault → String
  | unreadable path _ => "failed to read " ++ path
  | unparseable path => "failed to parse " ++ path
  | wrongShape path => path ++ ": expected a record or an array of records"

/-- The fault and its causes in words. -/
def RecordFault.chain (f : RecordFault) : List String :=
  f.message :: match f with
    | unreadable _ cause => [cause.message]
    | unparseable _ | wrongShape _ => []

/-- Why a command ends early. -/
inductive Failure where
  | settingsNotFound (path : String)
  | settingsUnreadable (path : String) (cause : FileError)
  | settingsUnparseable (path : String)
  | formUnreadable (path : String) (cause : FileError)
  | teamsNotFound (directory : String)
  | teamsUnlistable (directory : String) (cause : FileError)
  | recordsUnusable (path : String) (fault : RecordFault)
  | noRecords (path : String)
  | csvUnwritable (path : String) (cause : FileError)
  | reportUnwritable (path : String) (cause : FileError)
  | unwritable (cause : FileError)
  deriving DecidableEq, Repr

namespace Failure

/-- The failure and its causes in words, from the outermost to the innermost. -/
def chain : Failure → List String
  | settingsNotFound path => ["settings file not found: " ++ path]
  | settingsUnreadable path cause => ["failed to read settings: " ++ path, cause.message]
  | settingsUnparseable path => ["failed to parse settings: " ++ path]
  | formUnreadable path cause => ["failed to read form config: " ++ path, cause.message]
  | teamsNotFound directory => ["team data directory not found: " ++ directory]
  | teamsUnlistable directory cause => ["failed to read directory: " ++ directory, cause.message]
  | recordsUnusable path fault => ("failed to load team record: " ++ path) :: fault.chain
  | noRecords path => ["no team records in " ++ path]
  | csvUnwritable path cause => ["failed to write CSV report to " ++ path, cause.message]
  | reportUnwritable path cause => ["failed to write report to " ++ path, cause.message]
  | unwritable cause => [cause.message]

/-- The failure and its causes in one line. -/
def message (f : Failure) : String := Text.join ": " f.chain

/-- The failure without its causes. -/
def summary (f : Failure) : String := f.chain.headD ""

end Failure

end Scorecard
