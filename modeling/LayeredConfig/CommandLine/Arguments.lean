/-
This file reads the words of a command line.

The words before the name of a command are read by the rules of the program, and those after it by
the rules of the command; both know the global flags. A value is not checked when it is read but
when the next flag or argument shows that it is complete, so that of several mistakes the first one
to be noticed is reported. What is given after the command goes before what is given in front of it,
and both before the environment.
-/

import LayeredConfig.CommandLine.Flag

namespace LayeredConfig

open Text

/-! ### Rules -/

/-- What can be written at one place of a command line. -/
structure ArgumentRules where
  flags : List Flag
  /-- The form of the one argument without a flag, if there is one. -/
  argument : Option ValueForm
  /-- The commands that may follow. -/
  commands : List String

namespace ArgumentRules

/-- The word that asks for help on a command. -/
def helpCommand : String := "help"

/-- The rules after the name of a command. -/
def ofCommand (name : String) : ArgumentRules :=
  let rules := fun (flags : List Flag) (argument : Option ValueForm) =>
    (⟨flags ++ Flag.global ++ [.help], argument, []⟩ : ArgumentRules)
  match name with
  | "resolve" => rules [.format, .sources] none
  | "get" => rules [.list, .otherwise] (some .text)
  | "explain" => rules [.json] (some .text)
  | "tree" => rules [.sources] none
  | "validate" => rules [] (some .path)
  | _ => rules [] (some .shell)

def commandNames : List String :=
  ["resolve", "get", "explain", "tree", "validate", "completions", helpCommand]

/-- The rules in front of the command. -/
def ofProgram : ArgumentRules :=
  ⟨Flag.global ++ [.help, .version], none, commandNames⟩

def flagOfWord? (rules : ArgumentRules) (word : String) : Option Flag :=
  rules.flags.find? (·.word = word)

def flagOfLetter? (rules : ArgumentRules) (letter : Char) : Option Flag :=
  rules.flags.find? (·.letter? = some letter)

end ArgumentRules

/-! ### The state of reading -/

/-- What a value that is not checked yet belongs to. -/
inductive Awaited where
  | flag (flag : Flag) (value : Option String)
  | argument (form : ValueForm) (value : String)
  deriving DecidableEq, Repr

/-- What has been read at one place of a command line. -/
structure Arguments where
  /-- The flags that were given, with their values; a switch has none. -/
  given : List (Flag × Option String)
  argument : Option String
  awaited : Option Awaited
  /-- Whether only arguments without a flag may follow. -/
  flagsEnded : Bool
  deriving Repr

namespace Arguments

def none : Arguments := ⟨[], .none, .none, false⟩

def has (arguments : Arguments) (flag : Flag) : Bool :=
  arguments.given.any (·.1 = flag)

/-- Whether the next word is the value of a flag. -/
def awaitsValue (arguments : Arguments) : Bool :=
  match arguments.awaited with
  | some (.flag _ .none) => true
  | _ => false

/-- Adds a flag, if its value is good and it may be given here. -/
def addFlag (arguments : Arguments) (flag : Flag) (value : Option String) :
    Except Misuse Arguments := do
  let added := { arguments with given := arguments.given ++ [(flag, value)] }
  let once := fun (_ : Unit) =>
    ValueForm.accepted (!arguments.has flag) Misuse.repeatedFlag
  match flag.effect, value with
  | .answers misuse, _ => throw misuse
  | .switch, _ =>
    once ()
    return added
  | .single _, .none => throw .badValue
  | .single form, some value =>
    once ()
    form.check value
    return added
  | .repeatable _, .none => throw .badValue
  | .repeatable form, some value =>
    form.check value
    return added

/-- Checks the value that was read last. -/
def settle (arguments : Arguments) : Except Misuse Arguments :=
  let settled := { arguments with awaited := .none }
  match arguments.awaited with
  | .none => .ok arguments
  | some (.flag flag value) => settled.addFlag flag value
  | some (.argument form value) => do
    form.check value
    return { settled with argument := some value }

/-! ### Words -/

/-- Takes a flag that stands for itself. -/
def takeBare (arguments : Arguments) (flag : Flag) : Except Misuse Arguments := do
  let settled ← arguments.settle
  match flag.effect with
  | .answers misuse => throw misuse
  | .switch => settled.addFlag flag .none
  | _ => return { settled with awaited := some (.flag flag .none) }

/-- Takes a flag that is written as a word, where a value may follow an equals sign. -/
def takeLong (rules : ArgumentRules) (arguments : Arguments) (written : List Char) :
    Except Misuse Arguments :=
  let (word, value) := match cutOnce? '=' written with
    | some (word, value) => (word, some (String.ofList value))
    | .none => (written, .none)
  match rules.flagOfWord? (String.ofList word), value with
  | .none, _ => .error .unknownArgument
  | some flag, .none => arguments.takeBare flag
  | some flag, some value => do
    match flag.effect with
    | .answers _ => throw .tooManyValues
    | .switch => throw .tooManyValues
    | _ =>
      let settled ← arguments.settle
      settled.addFlag flag (some value)

/-- Takes flags that are written as letters; the first letter decides, since each ends the reading. -/
def takeLetters (rules : ArgumentRules) (arguments : Arguments) :
    List Char → Except Misuse Arguments
  | [] => .ok arguments
  | letter :: rest =>
    match rules.flagOfLetter? letter with
    | .none => .error .unknownArgument
    | some flag => do
      let next ← arguments.takeBare flag
      next.takeLetters rules rest

/-- Takes an argument without a flag. -/
def takePlain (rules : ArgumentRules) (arguments : Arguments) (word : String) :
    Except Misuse Arguments :=
  let isTaken := arguments.argument.isSome || match arguments.awaited with
    | some (.argument ..) => true
    | _ => false
  match rules.argument with
  | some form =>
    if isTaken then .error .unknownArgument
    else do
      let settled ← arguments.settle
      return { settled with awaited := some (.argument form word) }
  | .none =>
    if rules.commands.isEmpty || (arguments.flagsEnded && rules.commands.contains word) then
      .error .unknownArgument
    else .error .unknownCommand

/-- Takes the next word. -/
def takeWord (rules : ArgumentRules) (arguments : Arguments) (word : String) :
    Except Misuse Arguments :=
  let plain := fun (_ : Unit) =>
    match arguments.awaited with
    | some (.flag flag .none) =>
      .ok { arguments with awaited := some (.flag flag (some word)) }
    | _ => arguments.takePlain rules word
  if arguments.flagsEnded then arguments.takePlain rules word
  else
    match word.toList with
    | ['-', '-'] => .ok { arguments with flagsEnded := true }
    | '-' :: '-' :: written => arguments.takeLong rules written
    | '-' :: letter :: letters => arguments.takeLetters rules (letter :: letters)
    | _ => plain ()

/-- Whether a word is the name of a command at its place. -/
def isCommand (rules : ArgumentRules) (arguments : Arguments) (word : String) : Bool :=
  !arguments.flagsEnded && !arguments.awaitsValue && rules.commands.contains word

/-- Reads words up to the name of a command, if there is one, and what comes after it. -/
def readWords (rules : ArgumentRules) (arguments : Arguments) :
    List String → Except Misuse (Arguments × Option (String × List String))
  | [] => .ok (arguments, .none)
  | word :: rest =>
    if arguments.isCommand rules word then .ok (arguments, some (word, rest))
    else do
      let next ← arguments.takeWord rules word
      next.readWords rules rest

/-! ### The environment -/

/-- The values of the environment for the flags that are not given. -/
def fromEnvironment (rules : ArgumentRules) (arguments : Arguments) (world : World) :
    List (Flag × String) :=
  rules.flags.filterMap fun flag =>
    if arguments.has flag then .none
    else (flag.variableName?.bind world.environmentValue?).map fun value => (flag, value)

def checkValues : List (Flag × String) → Except Misuse Unit
  | [] => .ok ()
  | (flag, value) :: rest => do
    match flag.effect with
    | .single form => form.check value
    | .repeatable form => form.check value
    | _ => pure ()
    checkValues rest

/-- The arguments when all words are read, and the values of the environment beside them. -/
def finish (rules : ArgumentRules) (arguments : Arguments) (world : World) :
    Except Misuse (Arguments × List (Flag × String)) := do
  let settled ← arguments.settle
  let values := settled.fromEnvironment rules world
  checkValues values
  return (settled, values)

end Arguments

/-! ### Meaning -/

/-- All that was given for a command. -/
structure GivenFlags where
  /-- What was given in front of the command. -/
  outer : Arguments
  /-- What was given after it. -/
  inner : Arguments
  environment : List (Flag × String)

namespace GivenFlags

def isGiven (flags : GivenFlags) (flag : Flag) : Bool :=
  flags.inner.has flag || flags.outer.has flag

/-- The values of a flag, in order: those after the command, or else those in front of it, or else
that of the environment. -/
def values (flags : GivenFlags) (flag : Flag) : List String :=
  let valuesIn := fun (arguments : Arguments) =>
    arguments.given.filterMap fun entry => if entry.1 = flag then entry.2 else none
  if flags.inner.has flag then valuesIn flags.inner
  else if flags.outer.has flag then valuesIn flags.outer
  else (flags.environment.lookup flag).toList

def value? (flags : GivenFlags) (flag : Flag) : Option String :=
  (flags.values flag).head?

def globalOptions (flags : GivenFlags) : GlobalOptions :=
  { verbose := flags.isGiven .verbose
    quiet := flags.isGiven .quiet
    settingsFile := flags.value? .settings
    settingsDirectory := flags.value? .settingsDirectory
    profiles := flags.values .profile
    defaultProfiles := flags.values .defaultProfile
    onMissing := (flags.value? .onMissing).bind fun name =>
      MissingPolicy.all.find? (·.text = name)
    assignments := (flags.values .set).filterMap fun text => (readAssignment text).toOption
    imports := flags.values .imports }

/-- The command of a name, with the argument that it needs. -/
def command (flags : GivenFlags) (name : String) : Except Misuse Command := do
  let argument : Except Misuse String := match flags.inner.argument with
    | some argument => .ok argument
    | none => .error .missingArgument
  match name with
  | "resolve" =>
    let format := ((flags.value? .format).bind OutputFormat.ofName?).getD .text
    return .resolve format (flags.isGiven .sources)
  | "get" => return .get (← argument) (flags.isGiven .list) (flags.value? .otherwise)
  | "explain" => return .explain (← argument) (flags.isGiven .json)
  | "tree" => return .tree (flags.isGiven .sources)
  | "validate" => return .validate (← argument)
  | _ =>
    match Shell.ofName? (← argument) with
    | some shell => return .completions shell
    | none => throw .badValue

end GivenFlags

namespace Invocation

/-- The answer to a request for help on a command, or on the program without one. -/
def helpOn : List String → Misuse
  | [] => .helpWanted
  | [name] => if ArgumentRules.commandNames.contains name then .helpWanted else .unknownCommand
  | _ => .unknownCommand

/-- Reads a command line, without the name of the program. -/
def read (world : World) (words : List String) : Except Misuse Invocation := do
  let program := ArgumentRules.ofProgram
  let (outer, following) ← Arguments.none.readWords program words
  match following with
  | none =>
    let (outer, environment) ← outer.finish program world
    throw (if outer.given.isEmpty && environment.isEmpty then .nothingGiven else .missingCommand)
  | some (name, rest) =>
    if name = ArgumentRules.helpCommand then throw (helpOn rest)
    else
      let rules := ArgumentRules.ofCommand name
      let (inner, _) ← Arguments.none.readWords rules rest
      let (inner, environment) ← inner.finish rules world
      let flags : GivenFlags := ⟨.none, inner, environment⟩
      let command ← flags.command name
      let (outer, _) ← outer.finish program world
      return ⟨GivenFlags.globalOptions ⟨outer, inner, environment⟩, command⟩

end Invocation

end LayeredConfig
