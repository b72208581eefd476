/-
This file defines repositories that hold their bundles in a table.

A location leads to the bundle of its own name, and for a profile to the one with the profile behind
a hash. The finders of such a repository lead nowhere but to the names of the table, whatever the
bundles import.
-/

import LayeredConfig.Proofs.Import.Gathering
import Mathlib.Data.Finset.Dedup

namespace LayeredConfig

namespace Repository

/-- The resource of a name, if the table has it. -/
def inTable (table : List (String × Bundle)) (location : Location) (name : String)
    (profile : Option String) : List Resource :=
  if (table.map Prod.fst).contains name then [⟨location, name, profile⟩] else []

def tableFinder (table : List (String × Bundle)) : Finder where
  name := "table"
  takes _ _ := true
  find _ location :=
    match inTable table location location.value none with
    | [] => .error (.missing location.text none)
    | found => .ok found
  findVariants _ location profiles :=
    .ok (profiles.accepted.flatMap fun profile =>
      inTable table location (location.value ++ "#" ++ profile) (some profile))

def tableReader (table : List (String × Bundle)) : Reader where
  name := "table"
  takes _ := true
  read resource :=
    match table.lookup resource.id with
    | some bundle => .ok bundle
    | none => .error (.missing resource.location.text none)

/-- The repository of a table of bundles. -/
def ofTable (table : List (String × Bundle)) : Repository where
  finders := [tableFinder table]
  readers := [tableReader table]
  policy := .fail
  stepLimit := usualStepLimit

theorem id_of_inTable {table : List (String × Bundle)} {location : Location} {name : String}
    {profile : Option String} {resource : Resource}
    (member : resource ∈ inTable table location name profile) :
    resource.id ∈ (table.map Prod.fst).toFinset := by
  unfold inTable at member
  split at member
  · next isName =>
    rw [List.mem_singleton.mp member]
    exact List.mem_toFinset.mpr (List.contains_iff_mem.mp isName)
  · cases member

/-- The finders of a table lead only to its names. -/
theorem findsWithin_ofTable (table : List (String × Bundle)) :
    (ofTable table).FindsWithin (table.map Prod.fst).toFinset := by
  intro finder isFinder context location
  obtain rfl := List.mem_singleton.mp isFinder
  constructor
  · intro found succeeded resource member
    unfold tableFinder at succeeded
    dsimp only at succeeded
    split at succeeded
    · cases succeeded
    · cases succeeded
      exact id_of_inTable member
  · intro profiles found succeeded resource member
    obtain rfl := Except.ok.inj succeeded
    obtain ⟨profile, _, inTable⟩ := List.mem_flatMap.mp member
    exact id_of_inTable inTable

/-- Bundles that import each other and themselves, one of them only for a profile. -/
def cyclicTable : List (String × Bundle) :=
  [("a", ⟨[.ofPairs "a1" [("config.import", "b")], .ofPairs "a2" [("config.import", "a")]], false⟩),
    ("b", ⟨[.ofPairs "b1" [("config.import", "a,b,c")]], false⟩),
    ("c", ⟨[], false⟩),
    ("b#default", ⟨[.ofPairs "b2" [("config.import", "b")]], true⟩)]

/-- A source that imports the first of them. -/
def cyclicSources : List Source :=
  [.ofPairs "s" [("config.import", "a")]]

end Repository

end LayeredConfig
