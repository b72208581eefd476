/-
This file runs commands: what each prints, how it fails, and how the program ends.
-/

import LayeredConfig.CommandLine.Answers
import LayeredConfig.CommandLine.Completion
import LayeredConfig.CommandLine.Session

namespace LayeredConfig

open Text

namespace Command

/-- The failure of a question about a property that is not set. -/
def notSet (key : String) : Failure :=
  .unanswered ("Property '" ++ key ++ "' is not set")

/-- A path with the home directory written as a tilde. -/
def shortened (home path : String) : String :=
  match Path.below? home path with
  | some rest => "~/" ++ rest
  | none => path

def runResolve (options : GlobalOptions) (world : World) (format : OutputFormat)
    (withSources : Bool) : Execution Unit := do
  let configuration ← options.resolve world
  let properties := Execution.ofExcept configuration.effective
  match format with
  | .text =>
    Execution.printLine configuration.profilesLine
    Execution.printLines ((← properties).map (·.line))
  | .json =>
    Execution.printLine (configuration.propertiesData (← properties) withSources).json
  | .yaml =>
    Execution.print (configuration.propertiesData (← properties) withSources).yaml

def runGet (options : GlobalOptions) (world : World) (key : String) (asList : Bool)
    (otherwise : Option String) : Execution Unit := do
  let configuration ← options.resolve world
  let values ← Execution.ofExcept <|
    if asList then configuration.getList key
    else (configuration.get key).map fun value => value.map fun value => [value]
  match values.or (otherwise.map fun value => [value]) with
  | some values => Execution.printLines values
  | none => Execution.fail (notSet key)

def runExplain (options : GlobalOptions) (world : World) (key : String) (asJson : Bool) :
    Execution Unit := do
  let configuration ← options.resolve world
  match ← Execution.ofExcept (configuration.explain key) with
  | none => Execution.fail (notSet key)
  | some explanation =>
    Execution.printLines (if asJson then [explanation.data.json] else explanation.lines)

def runTree (options : GlobalOptions) (world : World) (withSources : Bool) : Execution Unit := do
  let configuration ← options.resolve world
  Execution.print configuration.draw
  if withSources then Execution.printLines ("" :: configuration.sourceLines)

def runValidate (options : GlobalOptions) (world : World) (path : String) : Execution Unit := do
  if !world.pathExists path then
    Execution.fail (.badArguments ("File not found: " ++ path))
  else
    match SettingsFile.load world path with
    | .error cause =>
      Execution.complain ("Parse error: " ++ cause.message ++ "\n")
      Execution.fail (.unanswered "Settings file is invalid")
    | .ok settings =>
      match settings.check with
      | .error cause =>
        Execution.complain ("Validation error: " ++ cause.message ++ "\n")
        Execution.fail (.unanswered "Settings validation failed")
      | .ok _ =>
        Execution.note (options.logLevel world) .info
          ("Validated " ++ shortened world.home path)
        Execution.printLine "Settings are valid"

def runCompletions (options : GlobalOptions) (world : World) (shell : Shell) :
    Execution Unit := do
  if options.logLevel world ≠ .quiet then
    Execution.complain (String.join (shell.instructions.map (· ++ "\n")))
  Execution.printLine shell.script

end Command

namespace Invocation

/-- Runs the command. -/
def execute (invocation : Invocation) (world : World) : Execution Unit :=
  let options := invocation.options
  match invocation.command with
  | .resolve format withSources => Command.runResolve options world format withSources
  | .get key asList otherwise => Command.runGet options world key asList otherwise
  | .explain key asJson => Command.runExplain options world key asJson
  | .tree withSources => Command.runTree options world withSources
  | .validate path => Command.runValidate options world path
  | .completions shell => Command.runCompletions options world shell

end Invocation

/-! ### The end of the program -/

/-- What the program leaves behind. -/
structure Ending where
  printed : Printed
  exitCode : Nat
  deriving DecidableEq, Inhabited, Repr

namespace Ending

/-- The end of a command; a failure is told last. -/
def ofExecution (execution : Execution Unit) : Ending :=
  match execution.result with
  | (.ok _, printed) => ⟨printed, 0⟩
  | (.error failure, printed) =>
    ⟨{ printed with errors := printed.errors ++ "Error: " ++ failure.message ++ "\n" },
      failure.exitCode⟩

end Ending

namespace Misuse

def usage : String :=
  "Usage: stratum [OPTIONS] <" ++ String.intercalate "|" ArgumentRules.commandNames ++ ">\n\n" ++
    "Options:\n" ++
    String.join (ArgumentRules.ofProgram.flags.map fun flag => "  --" ++ flag.word ++ "\n")

def reason : Misuse → String
  | helpWanted => ""
  | versionWanted => ""
  | nothingGiven => ""
  | badValue => "a value is missing or not accepted"
  | refusedValue => "a property is not assigned as KEY=VALUE"
  | repeatedFlag => "an option is given more than once"
  | tooManyValues => "an option that takes no value is given one"
  | unknownArgument => "there is an unexpected argument"
  | unknownCommand => "there is no such command"
  | missingCommand => "a command is required"
  | missingArgument => "a required argument is missing"

/-- The end of the program when its command line is not run: help that was asked for is an answer,
and all else is an error. -/
def ending (misuse : Misuse) : Ending :=
  match misuse with
  | helpWanted => ⟨⟨usage, ""⟩, 0⟩
  | versionWanted => ⟨⟨"stratum\n", ""⟩, 0⟩
  | nothingGiven => ⟨⟨"", usage⟩, 2⟩
  | other => ⟨⟨"", "error: " ++ other.reason ++ "\n\n" ++ usage⟩, 2⟩

end Misuse

/-- Runs a command line, without the name of the program. -/
def runProgram (world : World) (words : List String) : Ending :=
  match Invocation.read world words with
  | .error misuse => misuse.ending
  | .ok invocation => .ofExecution (invocation.execute world)

end LayeredConfig
