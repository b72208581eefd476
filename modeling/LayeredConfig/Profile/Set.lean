/-
This file defines what is known about profiles, and the two phases that follow from it.

Profiles are computed once in a run. Until then nothing is known, and layers that depend on profiles
take no part; from then on one set is in force to the end. The accepted profiles are the active
ones, or the default ones when none is active.
-/

import LayeredConfig.Text.Quoted

namespace LayeredConfig

open Text

/-- The profiles in force, each list without repetitions. -/
structure Profiles where
  active : List String
  fallback : List String
  deriving DecidableEq, Inhabited, Repr

namespace Profiles

/-- The profiles of two lists, each profile kept at its first place. -/
def ofLists (active fallback : List String) : Profiles :=
  ⟨active.eraseDups, fallback.eraseDups⟩

/-- The active profiles, or the default ones when none is active. -/
def accepted (profiles : Profiles) : List String :=
  if profiles.active.isEmpty then profiles.fallback else profiles.active

def accepts (profiles : Profiles) (name : String) : Bool :=
  profiles.accepted.contains name

def text (profiles : Profiles) : String :=
  "active=" ++ quotedList profiles.active ++ ", default=" ++ quotedList profiles.fallback ++
    ", accepted=" ++ quotedList profiles.accepted

end Profiles

/-! ### Phases -/

/-- When the imports of a layer are read: before profiles are known, or after. -/
inductive Phase where
  | before
  | after
  deriving DecidableEq, Inhabited, Repr

namespace Phase

/-- The phases from the stronger to the weaker: what profiles bring in comes first. -/
def byStrength : List Phase := [after, before]

/-- The phase of a run in which the given profiles are known. -/
def ofKnown : Option Profiles → Phase
  | none => before
  | some _ => after

def text : Phase → String
  | before => "before-profile-activation"
  | after => "after-profile-activation"

/-- The phase, with what is known about profiles. -/
def describe (known : Option Profiles) : String :=
  (ofKnown known).text ++ match known with
    | none => " (profiles unknown)"
    | some profiles => " (" ++ profiles.text ++ ")"

end Phase

end LayeredConfig
