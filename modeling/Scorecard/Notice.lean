/-!
# Notices

What the library says about its own progress: a level and a text.
-/

namespace Scorecard

/-- How much a notice matters. -/
inductive Level where
  | debug
  | info
  | warn
  deriving DecidableEq, Repr

/-- The name of a level. -/
def Level.name : Level → String
  | debug => "DEBUG"
  | info => "INFO"
  | warn => "WARN"

/-- A message about the progress of the work. -/
structure Notice where
  level : Level
  text : String
  deriving DecidableEq, Repr

/-- The notice as a line of a log. -/
def Notice.line (n : Notice) : String := n.level.name ++ " " ++ n.text

end Scorecard
