import Scorecard.Batch

/-!
# Commands

A command line is the name of a command and options, each a name with a value: `--name value` or
`--name=value`.  An option is given at most once.
-/

namespace Scorecard

/-- What is asked for. -/
inductive Command where
  /-- Say which version this is. -/
  | version
  /-- Make starter files. -/
  | init
  /-- Review a form. -/
  | validate (config : String)
  /-- Explain the scores of a team. -/
  | explain (config team teamNumberKey : String)
  /-- Score all teams. -/
  | run (options : BatchOptions)
  deriving DecidableEq, Repr

/-- What is wrong with a command line. -/
inductive UsageFault where
  | noCommand
  | unknownCommand (name : String)
  | unexpected (argument : String)
  | unknownOption (name : String)
  | noValue (name : String)
  | repeated (name : String)
  | missing (name : String)
  deriving DecidableEq, Repr

/-- The fault in words. -/
def UsageFault.message : UsageFault → String
  | noCommand => "no command is given; the commands are run, validate, explain and init"
  | unknownCommand name => "unknown command '" ++ name ++ "'"
  | unexpected argument => "unexpected argument '" ++ argument ++ "'"
  | unknownOption name => "unknown option '--" ++ name ++ "'"
  | noValue name => "option '--" ++ name ++ "' needs a value"
  | repeated name => "option '--" ++ name ++ "' is given more than once"
  | missing name => "option '--" ++ name ++ "' is required"

namespace Command

/-- The options of a command line and their values. -/
def options : List String → Except UsageFault (List (String × String))
  | [] => .ok []
  | argument :: rest =>
      match Text.cut ['-', '-'] argument.toList with
      | some ([], body) =>
          match Text.cut ['='] body with
          | some (name, value) =>
              (options rest).map ((String.ofList name, String.ofList value) :: ·)
          | none =>
              match rest with
              | [] => .error (.noValue (String.ofList body))
              | value :: rest => (options rest).map ((String.ofList body, value) :: ·)
      | _ => .error (.unexpected argument)

/-- Accepts options that are known and given once each. -/
def checked (known : List String) (given : List (String × String)) :
    Except UsageFault (List (String × String)) :=
  let names := given.map Prod.fst
  match names.find? fun name => !known.contains name, names.find? fun name => 1 < names.count name with
  | some name, _ => .error (.unknownOption name)
  | none, some name => .error (.repeated name)
  | none, none => .ok given

/-- The value of an option that must be given. -/
def required (given : List (String × String)) (name : String) : Except UsageFault String :=
  match given.lookup name with
  | some value => .ok value
  | none => .error (.missing name)

/-- The command of a command line. -/
def ofArguments : List String → Except UsageFault Command
  | [] => .error .noCommand
  | name :: rest => do
      match name with
      | "--version" | "-V" => return version
      | "init" =>
          let _ ← checked [] (← options rest)
          return init
      | "validate" =>
          let given ← checked ["config"] (← options rest)
          return validate (← required given "config")
      | "explain" =>
          let given ← checked ["config", "team", "team-number-key"] (← options rest)
          return explain (← required given "config") (← required given "team")
            ((given.lookup "team-number-key").getD "team_num")
      | "run" =>
          let given ← checked ["teams", "config", "settings", "output", "format", "sort-by"]
            (← options rest)
          return run {
            teams := ← required given "teams"
            config := given.lookup "config"
            settings := given.lookup "settings"
            output := given.lookup "output"
            format := given.lookup "format"
            sortBy := given.lookup "sort-by" }
      | _ => .error (.unknownCommand name)

end Command

end Scorecard
