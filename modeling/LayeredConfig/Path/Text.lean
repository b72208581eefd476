/-
This file reads paths as text: their parts, their parent, their file name, and how two are joined.

A path is kept as it was written. Slashes that follow each other count as one, and a part that is a
single dot counts only at the beginning of a relative path. The parent of a path is a leading piece
of its text.
-/

import LayeredConfig.Text.Blank

namespace LayeredConfig

open Text

namespace Path

/-! ### Parts -/

/-- A part of a path. -/
inductive Part where
  | root
  | current
  | parent
  | name (text : List Char)
  deriving DecidableEq, Repr

def Part.ofPiece (piece : List Char) : Part :=
  if piece = ['.'] then current
  else if piece = ['.', '.'] then parent
  else name piece

/-- The parts after the first slash of a path: dots count for nothing. -/
def innerParts (pieces : List (List Char)) : List Part :=
  (pieces.filter fun piece => !piece.isEmpty && piece != ['.']).map Part.ofPiece

/-- The parts of a path. -/
def parts (path : String) : List Part :=
  match cutChars '/' path.toList with
  | [] => []
  | [] :: [] => []
  | [] :: pieces => .root :: innerParts pieces
  | piece :: pieces => Part.ofPiece piece :: innerParts pieces

def isAbsolute (path : String) : Bool :=
  path.toList.head? == some '/'

/-! ### Joining -/

/-- A path read from a directory: an absolute one is itself. -/
def join (directory path : String) : String :=
  if isAbsolute path || directory = "" then path
  else if directory.toList.getLast? = some '/' then directory ++ path
  else directory ++ "/" ++ path

/-! ### The last part -/

/-- Drops slashes and dots that count for nothing from the end of a path given backwards. -/
def dropIdle : List Char → List Char
  | '/' :: c :: rest => dropIdle (c :: rest)
  | '.' :: '/' :: rest => dropIdle ('/' :: rest)
  | backwards => backwards

/-- The last piece of a path, and what stands before it without the slashes between. -/
def splitLast (path : String) : List Char × List Char :=
  let backwards := dropIdle path.toList.reverse
  ((backwards.takeWhile (· ≠ '/')).reverse,
    (dropIdle (backwards.dropWhile (· ≠ '/'))).reverse)

/-- The path without its last part; the root and the empty path have none. -/
def parent? (path : String) : Option String :=
  match splitLast path with
  | ([], _) => none
  | (_, directory) => some (String.ofList directory)

/-- The last part, if it is a name. -/
def fileName? (path : String) : Option String :=
  match splitLast path with
  | ([], _) => none
  | (piece, _) =>
    match Part.ofPiece piece with
    | .name text => some (String.ofList text)
    | _ => none

/-- The path with another last part, which is added if there is no file name to replace. -/
def withFileName (path name : String) : String :=
  match fileName? path, parent? path with
  | some _, some directory => join directory name
  | _, _ => join path name

/-- A file name cut at its last dot; a dot at the beginning does not count. -/
def splitExtension (name : String) : String × Option String :=
  match cutOnce? '.' name.toList.reverse with
  | some (_, []) => (name, none)
  | some (extension, stem) =>
    (String.ofList stem.reverse, some (String.ofList extension.reverse))
  | none => (name, none)

/-! ### Paths below others -/

/-- Whether a piece of a path counts for nothing behind the beginning of it. -/
def isIdle (piece : List Char) : Bool :=
  piece.isEmpty || piece = ['.']

/-- The pieces of a path behind the given names, if it begins with them. -/
def dropNames : List (List Char) → List (List Char) → Option (List (List Char))
  | [], pieces => some (pieces.dropWhile isIdle)
  | name :: names, pieces =>
    match pieces.dropWhile isIdle with
    | [] => none
    | piece :: rest => if piece = name then dropNames names rest else none

/-- What remains of an absolute path behind a directory, if it lies in that directory. -/
def below? (directory path : String) : Option String :=
  if isAbsolute directory && isAbsolute path then
    let names := (cutChars '/' directory.toList).filter (!isIdle ·)
    (dropNames names (cutChars '/' path.toList)).map fun pieces =>
      String.ofList (dropIdle (['/'].intercalate pieces).reverse).reverse
  else none

end Path

end LayeredConfig
