/-
This file defines what running a command is: a computation that prints, and that may fail.

What was printed before a failure stays printed. Notes for the log go to the error output as far as
the chosen level shows them.
-/

import LayeredConfig.CommandLine.Failure
import LayeredConfig.Journal

namespace LayeredConfig

/-- What has been printed. -/
structure Printed where
  output : String
  errors : String
  deriving DecidableEq, Inhabited, Repr

namespace Printed

def nothing : Printed := ⟨"", ""⟩

end Printed

/-- A computation that prints and may fail. -/
abbrev Execution (Result : Type) := ExceptT Failure (StateM Printed) Result

namespace Execution

def fail {Result : Type} (failure : Failure) : Execution Result :=
  fun printed => (.error failure, printed)

/-- Prints to the output. -/
def print (text : String) : Execution Unit :=
  fun printed => (.ok (), { printed with output := printed.output ++ text })

def printLine (text : String) : Execution Unit :=
  print (text ++ "\n")

def printLines (lines : List String) : Execution Unit :=
  print (String.join (lines.map (· ++ "\n")))

/-- Prints to the error output. -/
def complain (text : String) : Execution Unit :=
  fun printed => (.ok (), { printed with errors := printed.errors ++ text })

def note (level : LogLevel) (severity : Severity) (text : String) : Execution Unit :=
  complain (level.shownLine ⟨severity, text⟩)

/-- A computation that may fail, as part of a command. -/
def ofExcept {Result : Type} (outcome : Except Error Result) : Execution Result :=
  fun printed => (outcome.mapError .resolution, printed)

/-- A resolution as part of a command: its notes are shown even if it fails. -/
def ofRun {Result : Type} (level : LogLevel) (run : Run Result) : Execution Result :=
  fun printed =>
    let (outcome, journal) := run.result
    (outcome.mapError .resolution,
      { printed with errors := printed.errors ++ level.shown journal.notes })

/-- The outcome of a command, and what it printed. -/
def result {Result : Type} (execution : Execution Result) : Except Failure Result × Printed :=
  execution Printed.nothing

end Execution

end LayeredConfig
