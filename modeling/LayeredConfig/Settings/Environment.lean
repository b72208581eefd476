/-
This file lays the environment over settings.

Each setting has a variable, and a blank variable counts as unset. Lists are separated by commas,
but the resource roots, like search paths, by colons. Additional profiles are added to those there.
-/

import LayeredConfig.Settings.Basic

namespace LayeredConfig

open Text

namespace Settings

/-- The value of a variable that is not blank. -/
def filled? (world : World) (name : String) : Option String :=
  (world.environmentValue? name).filter fun value => !isBlankText value

def filledList? (world : World) (name : String) : Option (List String) :=
  (filled? world name).map listItems

/-- The resource roots; blanks count here, and so do empty ones among several. -/
def rootsVariable? (world : World) : Option (List String) :=
  ((world.environmentValue? "STRATUM_RESOURCE_ROOTS").filter (· ≠ "")).map (cut ':')

/-- The profile settings under the variables for profiles. -/
def withProfileVariables (world : World) (profiles : Option ProfileSettings) :
    Option ProfileSettings :=
  let active := filledList? world "STRATUM_PROFILES_ACTIVE"
  let fallback := filledList? world "STRATUM_PROFILES_DEFAULT"
  let additional := filledList? world "STRATUM_PROFILES_ADDITIONAL"
  if active.isNone && fallback.isNone && additional.isNone then profiles
  else
    let below := profiles.getD .empty
    some
      { active := active.or below.active
        fallback := fallback.or below.fallback
        additional :=
          match additional with
          | none => below.additional
          | some extra => some (below.additional.getD [] ++ extra) }

/-- The settings under the variables, the missing policy apart. -/
def withVariables (world : World) (settings : Settings) : Settings :=
  { settings with
    profiles := withProfileVariables world settings.profiles
    baseDirectory := (filled? world "STRATUM_BASE_DIR").or settings.baseDirectory
    roots := (rootsVariable? world).or settings.roots
    imports := (filledList? world "STRATUM_IMPORTS").or settings.imports }

/-- The settings under the environment; nothing is laid over them if the missing policy is bad. -/
def withEnvironment (world : World) (settings : Settings) : Except Error Settings :=
  match filled? world "STRATUM_ON_NOT_FOUND" with
  | none => .ok (settings.withVariables world)
  | some name => do
    let policy ← MissingPolicy.read name
    return { settings with onMissing := some policy }.withVariables world

end Settings

end LayeredConfig
