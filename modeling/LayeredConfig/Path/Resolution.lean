/-
This file resolves paths without looking at any file: a leading tilde is the home directory, a
relative path is read from a base directory, and the parts `.` and `..` are taken away.

Taking `..` away keeps the names above it on a stack. A path with more `..` than names before them
climbs too far and is refused, be it absolute or relative.
-/

import LayeredConfig.Error
import LayeredConfig.Path.Text

namespace LayeredConfig

open Text

namespace Path

/-! ### Dots -/

/-- The names that remain of a list of parts, the last one first; `none` if it climbs too far. -/
def reduce : List (List Char) → List Part → Option (List (List Char))
  | names, [] => some names
  | names, .name text :: rest => reduce (text :: names) rest
  | names, .root :: rest => reduce names rest
  | names, .current :: rest => reduce names rest
  | [], .parent :: _ => none
  | _ :: names, .parent :: rest => reduce names rest

/-- The text of a path with the given names. -/
def ofNames (absolute : Bool) (names : List (List Char)) : String :=
  (if absolute then "/" else "") ++ String.intercalate "/" (names.map String.ofList)

/-- The path without `.` and `..`. -/
def resolveDots (path : String) : Except Error String :=
  match reduce [] (parts path) with
  | some names => .ok (ofNames (isAbsolute path) names.reverse)
  | none => .error (.badPath path "too many '..' components")

/-- The path read from a base directory, without `.` and `..`. -/
def absolutize (path base : String) : Except Error String :=
  resolveDots (if isAbsolute path then path else join base path)

/-! ### The home directory -/

/-- The path with a leading tilde replaced by the home directory. -/
def expandTilde (home path : String) : Except Error String :=
  match path.toList with
  | ['~'] => .ok home
  | '~' :: '/' :: rest => .ok (join home (String.ofList rest))
  | '~' :: '\\' :: rest => .ok (join home (String.ofList rest))
  | '~' :: _ => .error (.badPath path "~user syntax is not supported; use ~ or ~/path")
  | _ => .ok path

/-- The absolute path that a path means, given the working directory unless there is none. -/
def normalize (home : String) (workingDirectory : Except String String) (path : String) :
    Except Error String := do
  let expanded ← expandTilde home path
  if isAbsolute expanded then resolveDots expanded
  else
    match workingDirectory with
    | .ok directory => resolveDots (join directory expanded)
    | .error reason => .error (.badPath path ("cannot get current directory: " ++ reason))

end Path

end LayeredConfig
