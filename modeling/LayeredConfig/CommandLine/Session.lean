/-
This file resolves the configuration that the options of a command line describe.

The properties that are set on the command line come first, then the imports of the settings. All
settings are assembled before anything is resolved, and a fault in them is told apart from a failed
resolution.
-/

import LayeredConfig.CommandLine.Execution
import LayeredConfig.CommandLine.Invocation
import LayeredConfig.Configuration
import LayeredConfig.Settings.Assembly

namespace LayeredConfig

namespace GlobalOptions

/-! ### Settings -/

/-- The absolute path of an option, if it is given. -/
def absolutePath? (world : World) : Option String → Except Failure (Option String)
  | none => .ok none
  | some path =>
    match Path.normalize world.home world.currentDirectory path with
    | .ok absolute => .ok (some absolute)
    | .error cause => .error (.resolution cause)

/-- The settings file of the options, which must exist. -/
def existingFile? (world : World) (path : Option String) : Except Failure (Option String) :=
  match path with
  | some file =>
    if world.pathExists file then absolutePath? world path
    else .error (.badArguments ("Settings file not found: " ++ file))
  | none => .ok none

/-- The settings that the options, the environment and the files make up. -/
def assembled (options : GlobalOptions) (world : World) (workingDirectory : String) :
    Except Failure Settings := do
  let directory ← absolutePath? world options.settingsDirectory
  let file ← existingFile? world options.settingsFile
  let plan : SettingsPlan :=
    { SettingsPlan.everything with
      workingDirectory := some workingDirectory
      settingsDirectory := directory
      settingsFile := file
      overrides := [options.settings] }
  (plan.assemble world).mapError fun cause => .badSettings cause.message

/-! ### Resolving -/

/-- A resolution that is ready to be run. -/
structure Prepared where
  settings : Settings
  repository : Repository
  /-- The sources to begin with, the strongest first. -/
  initial : List Source

namespace Prepared

def run (prepared : Prepared) : Run Configuration :=
  Configuration.resolve prepared.repository prepared.initial prepared.settings.request

end Prepared

/-- Prepares the resolution that the options describe. -/
def prepare (options : GlobalOptions) (world : World) : Except Failure Prepared := do
  let workingDirectory ← world.currentDirectory.mapError .inputOutput
  let settings ← options.assembled world workingDirectory
  return {
    settings
    repository := settings.repository world workingDirectory
    initial := options.source?.toList ++ settings.initialSource?.toList }

/-- Resolves the configuration that the options describe. -/
def resolve (options : GlobalOptions) (world : World) : Execution Configuration := do
  let level := options.logLevel world
  let prepared ← fun printed => (options.prepare world, printed)
  if prepared.initial.isEmpty then
    Execution.note level .warn
      "Nothing to resolve: no imports configured and no properties set"
  let configuration ← Execution.ofRun level prepared.run
  Execution.note level .debug
    ("Resolved " ++ toString configuration.sources.length ++
      " property source(s) with profiles " ++ Text.bracketed configuration.profiles.accepted)
  return configuration

end GlobalOptions

end LayeredConfig
