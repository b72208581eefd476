/-
This file defines locations, as sources declare them, and the resources they lead to.

A declared location may be marked optional, which makes a miss harmless. A finder turns a location
into resources; a resource has an identity, by which it is known wherever it is found, and may belong
to one profile.
-/

import LayeredConfig.Text.Blank

namespace LayeredConfig

open Text

/-- A location that a source imports from. -/
structure Location where
  value : String
  optional : Bool
  deriving DecidableEq, Inhabited, Repr

namespace Location

/-- The mark of an optional location. -/
def optionalMark : String := "optional:"

/-- Reads a declared location; `none` if nothing is left of it without the mark and the blanks. -/
def read? (declared : String) : Option Location :=
  let whole := trimmed declared
  let location := match rest? optionalMark whole with
    | some value => ⟨trimmed value, true⟩
    | none => ⟨whole, false⟩
  if location.value = "" then none else some location

/-- The location as it is declared. -/
def text (location : Location) : String :=
  if location.optional then optionalMark ++ location.value else location.value

end Location

/-- The mark of a resource that is a file, and of a location that names one. -/
def fileMark : String := "file:"

/-- Something that can be read, found for a location. -/
structure Resource where
  location : Location
  /-- The identity: what is loaded under it is not read again, wherever it is found. -/
  id : String
  /-- The one profile that the resource was found for, if it was. -/
  profile : Option String
  deriving DecidableEq, Inhabited, Repr

namespace Resource

def text (resource : Resource) : String :=
  match resource.profile with
  | none => resource.id
  | some profile => resource.id ++ " [profile " ++ profile ++ "]"

/-- The path of a resource that is a file. -/
def path? (resource : Resource) : Option String :=
  rest? fileMark resource.id

end Resource

end LayeredConfig
