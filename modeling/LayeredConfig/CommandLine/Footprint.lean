/-
This file names the files and variables that running a command may look at.

A run sees the outside as a value, and what it looks at depends on what it finds. The footprint of a
run in one world names the paths to know about before the run can be trusted; when all of them are
known, the run is that of the real files.
-/

import LayeredConfig.CommandLine.Session

namespace LayeredConfig

namespace FileFinder

/-- A location that is a directory also means the files in it. -/
def withFiles (location : Location) (paths : List String) : List String :=
  if isDirectoryLocation location then paths ++ paths.flatMap directoryFiles else paths

/-- The paths that a request may look at. -/
def footprint (finder : FileFinder) : Request → List String
  | .find _ context location =>
    match finder.candidates context location with
    | .ok paths => withFiles location paths
    | .error _ => []
  | .findVariants _ context location profiles =>
    match finder.candidates context location with
    | .ok paths =>
      profiles.accepted.flatMap fun profile =>
        (withFiles location paths).filterMap (variantOf? profile)
    | .error _ => []
  | .read _ resource => resource.path?.toList

end FileFinder

namespace SettingsFile

/-- The settings files of a directory and of at most `above` directories over it. -/
def projectPaths (directory : String) : Nat → List String
  | 0 => [Path.join directory projectName, Path.join directory localName]
  | above + 1 =>
    [Path.join directory projectName, Path.join directory localName] ++
      match Path.parent? directory with
      | some parent => projectPaths parent above
      | none => []

end SettingsFile

namespace GlobalOptions

/-- The settings files that the options may lead to. -/
def settingsPaths (options : GlobalOptions) (world : World) : List String :=
  let directory := match absolutePath? world options.settingsDirectory with
    | .ok (some directory) => directory
    | _ => SettingsFile.defaultDirectory world.home
  let project := match world.workingDirectory with
    | some directory => SettingsFile.projectPaths directory directory.length
    | none => []
  options.settingsFile.toList ++ Path.join directory SettingsFile.userName :: project

/-- The paths that resolving with the options may look at. -/
def resolutionPaths (options : GlobalOptions) (world : World) : List String :=
  match options.prepare world, world.workingDirectory with
  | .ok prepared, some directory =>
    let settings := prepared.settings
    let finder : FileFinder := ⟨world, settings.baseDirectoryOr directory, settings.rootList⟩
    (Journal.requests prepared.run.result.2).flatMap finder.footprint
  | _, _ => []

end GlobalOptions

namespace Invocation

/-- The paths that running the command may look at. -/
def footprint (invocation : Invocation) (world : World) : List String :=
  match invocation.command with
  | .completions _ => []
  | .validate path => [path]
  | _ => invocation.options.settingsPaths world ++ invocation.options.resolutionPaths world

end Invocation

namespace World

/-- The variables of the environment that count. -/
def variableNames : List String :=
  ["STRATUM_LOG_MODE", "STRATUM_SETTINGS", "STRATUM_SETTINGS_DIR", "STRATUM_OUTPUT_FORMAT",
   "STRATUM_ON_NOT_FOUND", "STRATUM_PROFILES_ACTIVE", "STRATUM_PROFILES_DEFAULT",
   "STRATUM_PROFILES_ADDITIONAL", "STRATUM_BASE_DIR", "STRATUM_RESOURCE_ROOTS",
   "STRATUM_IMPORTS"]

/-- The names on the way to a path, where `..` takes a name away. -/
def wayTo (world : World) (path : String) : List String :=
  let absolute := Path.join (world.workingDirectory.getD "/") path
  (Path.parts absolute).foldl (fun way part =>
    match part with
    | .name text => way ++ [String.ofList text]
    | .parent => way.dropLast
    | _ => way) []

/-- The world with what has been found at a path. -/
def learn (world : World) (path : String) : FileEntry → World
  | .directory => { world with files := world.files.addDirectory (world.wayTo path) }
  | .file content => { world with files := world.files.addFile (world.wayTo path) content }

end World

end LayeredConfig
