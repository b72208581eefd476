/-
This file defines what a user asks the program to do: a command, and options that count for every
command.

The options lay settings over those of the files and the environment, and can set properties, which
then form a source of their own, stronger than all others.
-/

import LayeredConfig.Settings.Basic

namespace LayeredConfig

open Text

/-! ### Commands -/

/-- The format of the resolved properties. -/
inductive OutputFormat where
  | text
  | json
  | yaml
  deriving DecidableEq, Inhabited, Repr

namespace OutputFormat

def name : OutputFormat → String
  | text => "text"
  | json => "json"
  | yaml => "yaml"

def all : List OutputFormat := [text, json, yaml]

/-- The format of a name, in any case. -/
def ofName? (written : String) : Option OutputFormat :=
  all.find? fun format => asciiLower written = format.name

end OutputFormat

/-- A shell that completes command lines. -/
inductive Shell where
  | bash
  | elvish
  | fish
  | powershell
  | zsh
  deriving DecidableEq, Inhabited, Repr

namespace Shell

def name : Shell → String
  | bash => "bash"
  | elvish => "elvish"
  | fish => "fish"
  | powershell => "powershell"
  | zsh => "zsh"

def all : List Shell := [bash, elvish, fish, powershell, zsh]

def ofName? (written : String) : Option Shell :=
  all.find? fun shell => written = shell.name

end Shell

inductive Command where
  /-- Prints every property in force. -/
  | resolve (format : OutputFormat) (withSources : Bool)
  /-- Prints the value of one property. -/
  | get (key : String) (asList : Bool) (otherwise : Option String)
  /-- Tells where the value of a property comes from. -/
  | explain (key : String) (asJson : Bool)
  /-- Draws the layers. -/
  | tree (withSources : Bool)
  /-- Checks a settings file. -/
  | validate (path : String)
  /-- Prints a completion script. -/
  | completions (shell : Shell)
  deriving DecidableEq, Inhabited, Repr

/-! ### Assignments -/

/-- Reads a property and its value; the blanks around the property do not count. -/
def readAssignment (text : String) : Except String (String × String) :=
  match cutOnce? '=' text.toList with
  | none => .error ("expected KEY=VALUE, got '" ++ text ++ "'")
  | some (key, value) =>
    if (trim key).isEmpty then .error ("missing key in '" ++ text ++ "'")
    else .ok (String.ofList (trim key), String.ofList value)

/-! ### Options -/

/-- The options that count for every command. -/
structure GlobalOptions where
  verbose : Bool
  quiet : Bool
  settingsFile : Option String
  settingsDirectory : Option String
  profiles : List String
  defaultProfiles : List String
  onMissing : Option MissingPolicy
  /-- The properties that are set, in order. -/
  assignments : List (String × String)
  imports : List String
  deriving DecidableEq, Inhabited, Repr

namespace GlobalOptions

/-- A list, unless it was not given. -/
def given (values : List String) : Option (List String) :=
  if values.isEmpty then none else some values

/-- The settings that the options lay over all others. -/
def settings (options : GlobalOptions) : Settings :=
  { onMissing := options.onMissing
    profiles :=
      if options.profiles.isEmpty && options.defaultProfiles.isEmpty then none
      else some ⟨given options.profiles, given options.defaultProfiles, none⟩
    baseDirectory := none
    roots := none
    imports := given options.imports }

/-- The name of the source of the properties that are set. -/
def sourceName : String := "command line arguments"

def sourceOrigin : String := "command line"

/-- The source of the properties that are set, if there are any. -/
def source? (options : GlobalOptions) : Option Source :=
  if options.assignments.isEmpty then none
  else some ((Source.ofPairs sourceName options.assignments).withOrigin sourceOrigin)

/-- How much of the log is shown. -/
def logLevel (options : GlobalOptions) (world : World) : LogLevel :=
  LogLevel.choose options.verbose options.quiet (world.environmentValue? "STRATUM_LOG_MODE")

end GlobalOptions

/-- A command with its options. -/
structure Invocation where
  options : GlobalOptions
  command : Command
  deriving DecidableEq, Inhabited, Repr

end LayeredConfig
