/-
This file says when two spellings name the same property.

A property name is a dotted path whose elements may be spelled with capitals, hyphens and
underscores, so that `on-profile`, `onProfile` and `on_profile` are one name. The canonical spelling
is the lower-case one without hyphens and underscores. What stands between square brackets is an
index and is kept as it is.
-/

import LayeredConfig.Text.Blank
import LayeredConfig.Text.LowerCase

namespace LayeredConfig

open Text

/-- Canonical spelling of the characters of a name; the flag says whether an index is open. -/
def canonicalChars : Bool → List Char → List Char
  | _, [] => []
  | insideIndex, c :: rest =>
    if c = '[' then c :: canonicalChars true rest
    else if c = ']' then c :: canonicalChars false rest
    else if insideIndex then c :: canonicalChars true rest
    else if c = '-' || c = '_' then canonicalChars false rest
    else lowerChar c ++ canonicalChars false rest

/-- The canonical spelling of a property name. -/
def canonical (name : String) : String :=
  String.ofList (canonicalChars false (trim name.toList))

/-- The name of element `index` of a list property. -/
def elementName (name : String) (index : Nat) : String :=
  name ++ "[" ++ toString index ++ "]"

/-! ### The names that steer resolution -/

namespace PropertyName

/-- The locations that a source imports. -/
def imports : String := "config.import"

/-- The condition under which a source takes part. -/
def condition : String := "config.activate.on-profile"

def activeProfiles : String := "profiles.active"

/-- The profiles in force when none is active. -/
def defaultProfiles : String := "profiles.default"

/-- The profiles added to the active ones. -/
def includedProfiles : String := "profiles.include"

/-- The names that a source which depends on profiles may not declare. -/
def selecting : List String := [activeProfiles, defaultProfiles, includedProfiles]

end PropertyName

end LayeredConfig
