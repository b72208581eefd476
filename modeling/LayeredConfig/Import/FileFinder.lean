/-
This file finds resources among files.

A location is the path of a file, read from the directory of the importing file or else from the
base directory, or it is searched for under every resource root. A location that ends in a slash is
a directory, whose files named `application` are imported. The variant of a file for a profile has
the profile between the stem and the extension of its name.
-/

import LayeredConfig.FileSystem
import LayeredConfig.Import.Repository
import LayeredConfig.Path.Resolution

namespace LayeredConfig

open Text

/-- Where files are looked for. -/
structure FileFinder where
  world : World
  /-- Where the relative paths of initial layers are read from. -/
  baseDirectory : String
  /-- Where locations of the class path are looked for, in order. -/
  roots : List String

namespace FileFinder

/-- The mark of a location that is looked for under the resource roots. -/
def rootMark : String := "classpath:"

/-- The extensions of the files in a directory, the weakest first. -/
def extensions : List String := ["yml", "yaml", "props", "properties"]

/-- Whether the text before the first colon reads as the name of a scheme. -/
def hasScheme (value : String) : Bool :=
  match cutOnce? ':' value.toList with
  | some (scheme, _) => 2 ≤ scheme.length && scheme.all fun c => c.isAlphanum || c = '-'
  | none => false

def takes (location : Location) : Bool :=
  startsWith fileMark location.value || startsWith rootMark location.value ||
    !hasScheme location.value

def isDirectoryLocation (location : Location) : Bool :=
  location.value.toList.getLast? == some '/'

/-- Where the relative paths of an import are read from. -/
def baseOf (finder : FileFinder) (context : FindContext) : String :=
  match (context.parent.bind (·.path?)).bind Path.parent? with
  | some directory => directory
  | none => finder.baseDirectory

/-- Absolute paths for a path under each root. -/
def underRoots (finder : FileFinder) (path : String) :
    List String → Except Error (List String)
  | [] => .ok []
  | root :: rest => do
    let first ← Path.absolutize (Path.join root path) finder.baseDirectory
    let others ← finder.underRoots path rest
    return first :: others

/-- The paths that a location may mean, whether or not anything exists there. -/
def candidates (finder : FileFinder) (context : FindContext) (location : Location) :
    Except Error (List String) :=
  match rest? rootMark location.value with
  | some path =>
    finder.underRoots (String.ofList (path.toList.dropWhile (· = '/'))) finder.roots
  | none => do
    let path ← Path.expandTilde finder.world.home
      ((rest? fileMark location.value).getD location.value)
    return [← Path.absolutize path (finder.baseOf context)]

/-- The files of a directory that are imported with it, whether or not they exist. -/
def directoryFiles (directory : String) : List String :=
  extensions.map fun extension => Path.join directory ("application." ++ extension)

/-- The path of the variant of a file for a profile. -/
def variantOf? (profile path : String) : Option String :=
  (Path.fileName? path).map fun name =>
    let (stem, extension) := Path.splitExtension name
    let suffix := match extension with
      | some extension => "." ++ extension
      | none => ""
    Path.withFileName path (stem ++ "-" ++ profile ++ suffix)

def resourceId (path : String) : String :=
  fileMark ++ path

/-- The resources of a location that count for all profiles. -/
def find (finder : FileFinder) (context : FindContext) (location : Location) :
    Except Error (List Resource) := do
  let paths ← finder.candidates context location
  if isDirectoryLocation location then
    match paths.find? finder.world.isDirectory with
    | none => throw (.missing location.text (some "directory does not exist"))
    | some directory =>
      return ((directoryFiles directory).filter finder.world.isFile).map fun path =>
        ⟨location, resourceId path, none⟩
  else
    match paths.find? finder.world.isFile with
    | none => throw (.missing location.text (some "no such file"))
    | some path => return [⟨location, resourceId path, none⟩]

/-- The files whose variants a location means: all those of a directory, or the file that exists;
while no file exists, the first variant that does is taken. -/
def variantBases (finder : FileFinder) (location : Location) (paths : List String) :
    List String :=
  if isDirectoryLocation location then
    match paths.find? finder.world.isDirectory with
    | some directory => directoryFiles directory
    | none => []
  else
    match paths.find? finder.world.isFile with
    | some path => [path]
    | none => paths

/-- The variants for one profile that exist. -/
def variantsFor (finder : FileFinder) (location : Location) (bases : List String)
    (profile : String) : List Resource :=
  let existing := (bases.filterMap (variantOf? profile)).filter finder.world.isFile
  let taken := if isDirectoryLocation location then existing else existing.take 1
  taken.map fun path => ⟨location, resourceId path, some profile⟩

/-- The resources of a location that belong to one of the given profiles. -/
def findVariants (finder : FileFinder) (context : FindContext) (location : Location)
    (profiles : Profiles) : Except Error (List Resource) := do
  let paths ← finder.candidates context location
  let bases := finder.variantBases location paths
  return profiles.accepted.flatMap (finder.variantsFor location bases)

/-- The finder as a part of a repository. -/
def asFinder (finder : FileFinder) : Finder :=
  { name := "files"
    takes := fun _ location => takes location
    find := finder.find
    findVariants := finder.findVariants }

end FileFinder

end LayeredConfig
