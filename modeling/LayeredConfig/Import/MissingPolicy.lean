/-
This file decides what follows when an import location does not exist.

A location marked optional may always be missing. For any other one the policy decides: the run
fails, or it goes on without the location.
-/

import LayeredConfig.Journal

namespace LayeredConfig

open Text

inductive MissingPolicy where
  | fail
  | ignore
  deriving DecidableEq, Inhabited, Repr

namespace MissingPolicy

def text : MissingPolicy → String
  | fail => "fail"
  | ignore => "ignore"

def all : List MissingPolicy := [fail, ignore]

/-- The policy of a name, in any case of ASCII letters and with blanks around it. -/
def read (name : String) : Except Error MissingPolicy :=
  let lowered := asciiLower (trimmed name)
  if lowered = fail.text then .ok fail
  else if lowered = ignore.text then .ok ignore
  else .error (.badSetting "on_not_found" ("expected 'fail' or 'ignore', got '" ++ lowered ++ "'"))

/-- Goes on without a location, or fails with the given cause. -/
def handle (policy : MissingPolicy) (location : Location) (cause : Error) : Run Unit :=
  if policy = fail && !location.optional then Run.fail cause
  else Run.trace
    ("Ignoring missing config location '" ++ location.text ++ "': " ++ cause.message)

end MissingPolicy

end LayeredConfig
