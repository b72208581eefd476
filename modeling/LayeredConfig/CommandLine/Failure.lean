/-
This file lists the ways in which a command fails, with the text and the exit code of each.

A command fails when its question has no answer, when its arguments or settings are bad, or when the
resolution fails. The exit code of a failed resolution tells missing locations, bad content and
trouble with files apart, and looks through the imports that led to the failure.
-/

import LayeredConfig.Error

namespace LayeredConfig

/-- Why a command failed. -/
inductive Failure where
  /-- The question has no answer, such as the value of a property that is not set. -/
  | unanswered (reason : String)
  | resolution (cause : Error)
  | badArguments (reason : String)
  | inputOutput (reason : String)
  | badSettings (reason : String)
  deriving DecidableEq, Inhabited, Repr

namespace Failure

/-- The exit code of a failed resolution. -/
def codeOf : Error → Nat
  | .imported _ cause => codeOf cause
  | .missing .. => 2
  | .unbound .. => 3
  | .inactive .. => 3
  | .cycle _ => 3
  | .misplaced .. => 3
  | .unreadable .. => 3
  | .inputOutput _ => 5
  | _ => 6

/-- The exit code of the program; zero is left to success. -/
def exitCode : Failure → Nat
  | unanswered _ => 1
  | resolution cause => codeOf cause
  | badArguments _ => 4
  | inputOutput _ => 5
  | badSettings _ => 7

def message : Failure → String
  | unanswered reason => reason
  | resolution cause => cause.message
  | badArguments reason => "Invalid arguments: " ++ reason
  | inputOutput reason => "I/O error: " ++ reason
  | badSettings reason => "Settings error: " ++ reason

/-- The messages of the causes of a failure, the outermost first. -/
def causes : Failure → List String
  | resolution cause => cause.trail
  | inputOutput reason => [reason]
  | _ => []

end Failure

end LayeredConfig
