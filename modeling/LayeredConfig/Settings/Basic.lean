/-
This file defines the settings of a resolution: where imports are read from, which profiles are
asked for, and what follows when a location is missing.

Every setting may be left out, so that settings from several places can be laid over each other.
-/

import LayeredConfig.Import.FileReader
import LayeredConfig.Profile.Selection

namespace LayeredConfig

/-- The profiles that settings ask for. -/
structure ProfileSettings where
  active : Option (List String)
  fallback : Option (List String)
  additional : Option (List String)
  deriving DecidableEq, Inhabited, Repr

namespace ProfileSettings

def empty : ProfileSettings := ⟨none, none, none⟩

end ProfileSettings

/-- The settings of a resolution. -/
structure Settings where
  onMissing : Option MissingPolicy
  profiles : Option ProfileSettings
  /-- Where relative locations are read from. -/
  baseDirectory : Option String
  /-- Where locations of the class path are looked for. -/
  roots : Option (List String)
  /-- The locations that are imported first. -/
  imports : Option (List String)
  deriving DecidableEq, Inhabited, Repr

namespace Settings

def empty : Settings := ⟨none, none, none, none, none⟩

def policy (settings : Settings) : MissingPolicy :=
  settings.onMissing.getD .fail

/-- The profiles that are asked for; a list that is left out stays unset. -/
def request (settings : Settings) : ProfileRequest :=
  match settings.profiles with
  | none => .unset
  | some profiles =>
    { active := profiles.active.getD []
      fallback := profiles.fallback.getD ProfileRequest.unset.fallback
      additional := profiles.additional.getD [] }

def baseDirectoryOr (settings : Settings) (directory : String) : String :=
  settings.baseDirectory.getD directory

def rootList (settings : Settings) : List String :=
  settings.roots.getD []

def importList (settings : Settings) : List String :=
  settings.imports.getD []

/-- The repository that the settings describe. -/
def repository (settings : Settings) (world : World) (workingDirectory : String) : Repository :=
  .ofFiles world (settings.baseDirectoryOr workingDirectory) settings.rootList settings.policy

/-- The name of the source that declares the imports of the settings. -/
def sourceName : String := "stratum settings"

/-- A source that declares the imports of the settings, if there are any. -/
def initialSource? (settings : Settings) : Option Source :=
  if settings.importList.isEmpty then none
  else
    some (Source.ofPairs sourceName (settings.importList.zipIdx.map fun (declared, index) =>
      (elementName PropertyName.imports index, declared)))

end Settings

end LayeredConfig
