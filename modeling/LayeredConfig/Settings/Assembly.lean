/-
This file assembles the settings of a run from all places that give any.

From the weakest to the strongest these are the files, the environment, and the settings that the
caller lays over them. A file that the caller names takes the place of all others. What comes out is
checked.
-/

import LayeredConfig.Settings.Check
import LayeredConfig.Settings.Discovery
import LayeredConfig.Settings.Environment
import LayeredConfig.Settings.Layering

namespace LayeredConfig

/-- Where the settings of a run are taken from. -/
structure SettingsPlan where
  /-- Where the project is looked for; the working directory if none is given. -/
  workingDirectory : Option String
  settingsDirectory : Option String
  /-- The one file to read in place of all others. -/
  settingsFile : Option String
  skipFiles : Bool
  skipEnvironment : Bool
  /-- Settings over all others, the weakest first. -/
  overrides : List Settings
  deriving Inhabited, Repr

namespace SettingsPlan

/-- Takes settings from everywhere. -/
def everything : SettingsPlan := ⟨none, none, none, false, false, []⟩

/-- The directory where the project is looked for. -/
def startDirectory (plan : SettingsPlan) (world : World) : Except Error String :=
  match plan.workingDirectory with
  | some directory => .ok directory
  | none => world.currentDirectory.mapError .inputOutput

/-- The files of a plan, the weakest first. -/
def files (plan : SettingsPlan) (world : World) : Except Error (List SettingsFile) :=
  if plan.skipFiles then .ok []
  else
    match plan.settingsFile with
    | some path => (SettingsFile.load world path).map fun settings => [⟨path, 2, settings⟩]
    | none => do
      SettingsFile.loadAll world (← plan.startDirectory world) plan.settingsDirectory

/-- The settings of a plan. -/
def assemble (plan : SettingsPlan) (world : World) : Except Error Settings := do
  let files ← plan.files world
  let fromFiles := Settings.overlayAll (files.map (·.settings))
  let fromEnvironment ←
    if plan.skipEnvironment then pure fromFiles else fromFiles.withEnvironment world
  let settings := plan.overrides.foldl Settings.overlay fromEnvironment
  settings.check
  return settings

end SettingsPlan

end LayeredConfig
