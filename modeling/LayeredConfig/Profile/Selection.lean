/-
This file computes the profiles of a run from what the caller asks for and what the layers declare.

A list that the caller sets is taken as it is, and a list that the caller leaves unset is bound from
the configuration. An empty list of active profiles counts as unset, and so does a list of default
profiles that names `default` and nothing else.
-/

import LayeredConfig.Lookup.Basic

namespace LayeredConfig

open Text

/-- The profiles that the caller asks for. -/
structure ProfileRequest where
  active : List String
  fallback : List String
  /-- Profiles that are active in any case. -/
  additional : List String
  deriving DecidableEq, Inhabited, Repr

namespace ProfileRequest

/-- The name of the profile in force when nothing is configured. -/
def standardProfile : String := "default"

/-- Leaves both lists to the configuration. -/
def unset : ProfileRequest := ⟨[], [standardProfile], []⟩

def withActive (active : List String) : ProfileRequest :=
  { unset with active := active }

end ProfileRequest

namespace Lookup

/-- A list of profiles, without blank entries. -/
def getProfiles (lookup : Lookup) (name : String) : Except Error (Option (List String)) := do
  let items ← lookup.getList name
  return items.map fun items => (items.map trimmed).filter (· ≠ "")

/-- The profiles that follow from the requested lists and from the configuration. -/
def selectProfiles (lookup : Lookup) (active fallback additional : List String) :
    Except Error Profiles := do
  let chosen ←
    if active.isEmpty then
      (lookup.getProfiles PropertyName.activeProfiles).map (·.getD [])
    else pure active
  let otherwise ←
    if fallback.isEmpty || fallback.any (· ≠ ProfileRequest.standardProfile) then pure fallback
    else
      (lookup.getProfiles PropertyName.defaultProfiles).map
        (·.getD [ProfileRequest.standardProfile])
  return Profiles.ofLists (chosen ++ additional) otherwise

/-- The profiles of a run: what is included by the configuration is added to the active ones. -/
def computeProfiles (lookup : Lookup) (request : ProfileRequest) : Except Error Profiles := do
  let included ← lookup.getProfiles PropertyName.includedProfiles
  lookup.selectProfiles request.active request.fallback
    (request.additional ++ included.getD [])

end Lookup

end LayeredConfig
