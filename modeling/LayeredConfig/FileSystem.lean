/-
This file models the files that a run can see, as a value.

A file system is a finite list of directories and files by the names on their way from the root. A
path is walked name by name, so that `..` needs the directory before it to exist, and a file in the
middle of a path is an error of its own. A relative path is walked from the working directory, and
when that has been removed, no relative path leads anywhere.

Three things are left out. There are no symbolic links, so `..` takes back the name before it and a
path leads where its normal form does; with links, the two may lead to different files. Every
directory may be searched and every file read, whoever asks. And the home directory is always known.
-/

import LayeredConfig.Path.Text

namespace LayeredConfig

/-- Why a file cannot be read. -/
inductive FileFault where
  | missing
  | notDirectory
  | isDirectory
  | nameTooLong
  | badName
  | notText
  deriving DecidableEq, Repr

namespace FileFault

def message : FileFault → String
  | missing => "No such file or directory (os error 2)"
  | notDirectory => "Not a directory (os error 20)"
  | isDirectory => "Is a directory (os error 21)"
  | nameTooLong => "File name too long (os error 36)"
  | badName => "file name contained an unexpected NUL byte"
  | notText => "stream did not contain valid UTF-8"

end FileFault

/-- What stands under a name: no link, and nothing that may not be read. -/
inductive FileEntry where
  | directory
  | file (content : ByteArray)

/-- Directories and files by the names on their way from the root. Each has one way only, as there
are no links. -/
structure FileSystem where
  entries : List (List String × FileEntry)

namespace FileSystem

/-- The file system with the root and nothing else. -/
def empty : FileSystem := ⟨[]⟩

/-- What stands at the end of a way from the root. -/
def entryAt? (files : FileSystem) : List String → Option FileEntry
  | [] => some .directory
  | names => files.entries.lookup names

/-- The leading pieces of a way, the shortest first. -/
def leadingWays (names : List String) : List (List String) :=
  (List.range names.length).map fun index => names.take (index + 1)

/-- Adds the directories on a way. -/
def addDirectory (files : FileSystem) (names : List String) : FileSystem :=
  (leadingWays names).foldl (fun files way =>
    if (files.entryAt? way).isSome then files else ⟨(way, .directory) :: files.entries⟩) files

/-- Adds a file, and the directories on its way. -/
def addFile (files : FileSystem) (names : List String) (content : ByteArray) : FileSystem :=
  let wider := files.addDirectory names.dropLast
  ⟨(names, .file content) :: wider.entries⟩

/-- The longest name of a file, in bytes. -/
def nameLimit : Nat := 255

/-- The longest path, in bytes. -/
def pathLimit : Nat := 4096

/-- Walks the pieces of a path from a way; the way is kept backwards. -/
def walk (files : FileSystem) : List String → List String → Except FileFault (List String)
  | way, [] => .ok way
  | way, piece :: rest =>
    match files.entryAt? way.reverse with
    | none => .error .missing
    | some (.file _) => .error .notDirectory
    | some .directory =>
      if piece = "" || piece = "." then files.walk way rest
      else if piece = ".." then files.walk way.tail rest
      else if piece.utf8ByteSize > nameLimit then .error .nameTooLong
      else files.walk (piece :: way) rest

/-- What a path leads to. -/
def locate (files : FileSystem) (workingDirectory : Option String) (path : String) :
    Except FileFault FileEntry := do
  if path.toList.contains '\x00' then throw .badName
  if path.utf8ByteSize ≥ pathLimit then throw .nameTooLong
  if path = "" then throw .missing
  let start ←
    if Path.isAbsolute path then pure ""
    else
      match workingDirectory with
      | some directory => pure directory
      | none => throw .missing
  let way ← files.walk [] (Text.cut '/' start ++ Text.cut '/' path)
  match files.entryAt? way.reverse with
  | some entry => return entry
  | none => throw .missing

def pathExists (files : FileSystem) (workingDirectory : Option String) (path : String) : Bool :=
  match files.locate workingDirectory path with
  | .ok _ => true
  | .error _ => false

def isFile (files : FileSystem) (workingDirectory : Option String) (path : String) : Bool :=
  match files.locate workingDirectory path with
  | .ok (.file _) => true
  | _ => false

def isDirectory (files : FileSystem) (workingDirectory : Option String) (path : String) : Bool :=
  match files.locate workingDirectory path with
  | .ok .directory => true
  | _ => false

/-- The text in a file. -/
def readText (files : FileSystem) (workingDirectory : Option String) (path : String) :
    Except FileFault String := do
  match ← files.locate workingDirectory path with
  | .directory => throw .isDirectory
  | .file content =>
    match String.fromUTF8? content with
    | some text => return text
    | none => throw .notText

end FileSystem

/-- What a run can see of the outside. -/
structure World where
  files : FileSystem
  /-- The working directory, unless it has been removed. -/
  workingDirectory : Option String
  /-- The home directory, which is always known. -/
  home : String
  /-- The environment. -/
  environment : List (String × String)

namespace World

def environmentValue? (world : World) (name : String) : Option String :=
  world.environment.lookup name

/-- The working directory, or why there is none. -/
def currentDirectory (world : World) : Except String String :=
  match world.workingDirectory with
  | some directory => .ok directory
  | none => .error FileFault.missing.message

def pathExists (world : World) (path : String) : Bool :=
  world.files.pathExists world.workingDirectory path

def isFile (world : World) (path : String) : Bool :=
  world.files.isFile world.workingDirectory path

def isDirectory (world : World) (path : String) : Bool :=
  world.files.isDirectory world.workingDirectory path

def readText (world : World) (path : String) : Except FileFault String :=
  world.files.readText world.workingDirectory path

end World

end LayeredConfig
