/-
This file finds settings files and reads them.

The user has settings in one fixed directory. Settings of a project stand in the nearest directory,
from the working directory upwards, that has a settings file, shared or private; directories are
never mixed. Relative paths in a settings file are read from the directory of the file.
-/

import LayeredConfig.Settings.Document

namespace LayeredConfig

/-- Settings with the file they were read from. -/
structure SettingsFile where
  path : String
  /-- The place among the settings files; higher ones win. -/
  rank : Nat
  settings : Settings
  deriving DecidableEq, Inhabited, Repr

namespace SettingsFile

/-- The shared settings of a project. -/
def projectName : String := "stratum.yaml"

/-- The private settings of a project. -/
def localName : String := "stratum.local.yaml"

/-- The settings of the user. -/
def userName : String := "settings.yaml"

def defaultDirectory (home : String) : String :=
  Path.join home ".stratum"

/-! ### Reading -/

/-- A path in a settings file, read from the directory of the file. -/
def anchorPath (home directory path : String) : Except Error String := do
  Path.absolutize (← Path.expandTilde home path) directory

def anchorPaths (home directory : String) : List String → Except Error (List String)
  | [] => .ok []
  | path :: rest => do
    let first ← anchorPath home directory path
    let others ← anchorPaths home directory rest
    return first :: others

/-- The settings with their paths read from a directory. -/
def anchor (home directory : String) (settings : Settings) : Except Error Settings :=
  if directory = "" then .ok settings
  else do
    let baseDirectory ← match settings.baseDirectory with
      | none => pure none
      | some path => (anchorPath home directory path).map some
    let roots ← match settings.roots with
      | none => pure none
      | some paths => (anchorPaths home directory paths).map some
    return { settings with baseDirectory, roots }

/-- Reads a settings file. -/
def load (world : World) (path : String) : Except Error Settings :=
  match world.readText path with
  | .error fault => .error (.badPath path ("Failed to read settings file: " ++ fault.message))
  | .ok text =>
    match Settings.ofText text with
    | .error fault => .error (.badSetting path ("Invalid YAML: " ++ fault.message))
    | .ok settings =>
      match Path.parent? path with
      | some directory => anchor world.home directory settings
      | none => .ok settings

/-! ### Finding -/

/-- The settings file of a name in a directory, if it exists. -/
def loadIn (world : World) (directory name : String) (rank : Nat) :
    Except Error (List SettingsFile) :=
  let path := Path.join directory name
  if world.pathExists path then (load world path).map fun settings => [⟨path, rank, settings⟩]
  else .ok []

/-- The settings files of a project in one directory. -/
def projectFilesIn (world : World) (directory : String) : Except Error (List SettingsFile) := do
  let shared ← loadIn world directory projectName 2
  let personal ← loadIn world directory localName 3
  return shared ++ personal

/-- The settings files in the nearest directory that has any, among a directory and at most
`above` directories over it. -/
def discoverFrom (world : World) (directory : String) : Nat → Except Error (List SettingsFile)
  | 0 => projectFilesIn world directory
  | above + 1 => do
    let found ← projectFilesIn world directory
    if found.isEmpty then
      match Path.parent? directory with
      | some parent => discoverFrom world parent above
      | none => return []
    else return found

/-- The settings files of the project around a directory. -/
def discover (world : World) (directory : String) : Except Error (List SettingsFile) :=
  discoverFrom world directory directory.length

/-- The settings of the user, if there are any. -/
def userFiles (world : World) (settingsDirectory : Option String) :
    Except Error (List SettingsFile) :=
  loadIn world (settingsDirectory.getD (defaultDirectory world.home)) userName 1

/-- All settings files for a working directory, the weakest first. -/
def loadAll (world : World) (directory : String) (settingsDirectory : Option String) :
    Except Error (List SettingsFile) := do
  let user ← userFiles world settingsDirectory
  let project ← discover world directory
  return user ++ project

end SettingsFile

end LayeredConfig
