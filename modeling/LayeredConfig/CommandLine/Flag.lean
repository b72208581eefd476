/-
This file lists the flags of the command line: how each is written, what value it takes, and which
variable of the environment stands in for it.
-/

import LayeredConfig.CommandLine.Invocation

namespace LayeredConfig

/-! ### Misuse -/

/-- What ends the reading of a command line; to ask for help or for the version does so too. -/
inductive Misuse where
  | helpWanted
  | versionWanted
  /-- Nothing was asked for. -/
  | nothingGiven
  | badValue
  /-- A value that is refused with a reason of its own. -/
  | refusedValue
  | repeatedFlag
  | tooManyValues
  | unknownArgument
  | unknownCommand
  | missingCommand
  | missingArgument
  deriving DecidableEq, Inhabited, Repr

/-! ### Values -/

/-- What is accepted as a value. -/
inductive ValueForm where
  | text
  | path
  | policy
  | assignment
  | format
  | shell
  deriving DecidableEq, Repr

namespace ValueForm

def accepted (isGood : Bool) (misuse : Misuse) : Except Misuse Unit :=
  if isGood then .ok () else .error misuse

/-- Checks a value. -/
def check (form : ValueForm) (value : String) : Except Misuse Unit :=
  match form with
  | text => .ok ()
  | path => accepted (value ≠ "") .badValue
  | policy => accepted (MissingPolicy.all.any (·.text = value)) .badValue
  | assignment => accepted (readAssignment value).toOption.isSome .refusedValue
  | format => accepted (OutputFormat.ofName? value).isSome .badValue
  | shell => accepted (Shell.ofName? value).isSome .badValue

end ValueForm

/-! ### Flags -/

inductive Flag where
  | help
  | version
  | verbose
  | quiet
  | settings
  | settingsDirectory
  | profile
  | defaultProfile
  | onMissing
  | set
  | imports
  | format
  | sources
  | list
  | otherwise
  | json
  deriving DecidableEq, Inhabited, Repr

/-- What a flag does when it is given. -/
inductive FlagEffect where
  /-- Ends the reading. -/
  | answers (misuse : Misuse)
  /-- Stands for itself, and may be given once. -/
  | switch
  /-- Takes a value, and may be given once. -/
  | single (form : ValueForm)
  /-- Takes a value each time. -/
  | repeatable (form : ValueForm)
  deriving DecidableEq, Repr

namespace Flag

/-- The flag without its two hyphens. -/
def word : Flag → String
  | help => "help"
  | version => "version"
  | verbose => "verbose"
  | quiet => "quiet"
  | settings => "settings"
  | settingsDirectory => "settings-dir"
  | profile => "profile"
  | defaultProfile => "default-profile"
  | onMissing => "on-not-found"
  | set => "set"
  | imports => "import"
  | format => "format"
  | sources => "sources"
  | list => "list"
  | otherwise => "default"
  | json => "json"

/-- The one letter that the flag can be given by. -/
def letter? : Flag → Option Char
  | help => some 'h'
  | version => some 'V'
  | _ => none

def effect : Flag → FlagEffect
  | help => .answers .helpWanted
  | version => .answers .versionWanted
  | verbose => .switch
  | quiet => .switch
  | settings => .single .path
  | settingsDirectory => .single .path
  | profile => .repeatable .text
  | defaultProfile => .repeatable .text
  | onMissing => .single .policy
  | set => .repeatable .assignment
  | imports => .repeatable .text
  | format => .single .format
  | sources => .switch
  | list => .switch
  | otherwise => .single .text
  | json => .switch

/-- The variable of the environment that counts when the flag is not given. -/
def variableName? : Flag → Option String
  | settings => some "STRATUM_SETTINGS"
  | settingsDirectory => some "STRATUM_SETTINGS_DIR"
  | format => some "STRATUM_OUTPUT_FORMAT"
  | _ => none

/-- The flags that count for every command, before it or after it. -/
def global : List Flag :=
  [verbose, quiet, settings, settingsDirectory, profile, defaultProfile, onMissing, set, imports]

end Flag

end LayeredConfig
