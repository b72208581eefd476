/-
This file imports locations: it finds the resources of each location and reads those not loaded yet.

Finders and readers are tried in order, and the first that takes a location or a resource handles
it. All locations are resolved before any resource is read. Once profiles are known, every location
is also searched for variants that belong to one profile, even if the location itself is missing.
-/

import LayeredConfig.Import.MissingPolicy
import LayeredConfig.Property.Bundle

namespace LayeredConfig

/-- Turns locations into resources. -/
structure Finder where
  /-- The name of the finder in the journal. -/
  name : String
  takes : FindContext → Location → Bool
  /-- The resources of a location that count for all profiles. -/
  find : FindContext → Location → Except Error (List Resource)
  /-- The resources of a location that belong to one of the given profiles. -/
  findVariants : FindContext → Location → Profiles → Except Error (List Resource)

/-- Turns resources into sources. -/
structure Reader where
  /-- The name of the reader in the journal. -/
  name : String
  takes : Resource → Bool
  read : Resource → Except Error Bundle

/-- Where imports are looked for, and what follows when they are missing. -/
structure Repository where
  finders : List Finder
  readers : List Reader
  policy : MissingPolicy
  /-- The number of steps after which a phase is given up. -/
  stepLimit : Nat

namespace Repository

/-- A limit on the steps of a phase that no repository of a sane size reaches. -/
def usualStepLimit : Nat := 1000000

/-! ### Finding -/

/-- The resources of one location that count for all profiles; none if it is missing and that is
ignored. -/
def findBase (repository : Repository) (finder : Finder) (context : FindContext)
    (location : Location) : Run (List Resource) := do
  Run.record (.requested (.find finder.name context location))
  match finder.find context location with
  | .ok found => return found
  | .error cause =>
    if cause.isMissing then do
      repository.policy.handle location cause
      return []
    else Run.fail cause

/-- The resources of one location that belong to one profile; none while profiles are unknown. -/
def findSpecific (finder : Finder) (context : FindContext) (location : Location) :
    Run (List Resource) :=
  match context.known with
  | none => return []
  | some profiles => do
    Run.record (.requested (.findVariants finder.name context location profiles))
    Run.ofExcept (finder.findVariants context location profiles)

/-- The resources of one location. -/
def findOne (repository : Repository) (context : FindContext) (location : Location) :
    Run (List Resource) :=
  match repository.finders.find? fun finder => finder.takes context location with
  | none => Run.fail (.unsupported location.text "no resolver accepts this location")
  | some finder => do
    let base ← repository.findBase finder context location
    let variants ← findSpecific finder context location
    return base ++ variants

/-- The resources of a list of locations, in order. -/
def findAll (repository : Repository) (context : FindContext) : List Location → Run (List Resource)
  | [] => return []
  | location :: rest => do
    let found ← repository.findOne context location
    let others ← repository.findAll context rest
    return found ++ others

/-! ### Reading -/

/-- Reads one resource with a reader that takes it; `none` if it is missing and that is ignored. -/
def readWith (repository : Repository) (reader : Reader) (resource : Resource) :
    Run (Option Bundle) := do
  Run.record (.requested (.read reader.name resource))
  match reader.read resource with
  | .ok bundle => do
    Run.record (.received resource bundle)
    Run.debug ("Loaded " ++ toString bundle.sources.length ++ " property source(s) from " ++
      resource.text)
    return some bundle
  | .error cause =>
    if cause.isMissing then do
      repository.policy.handle resource.location cause
      return none
    else Run.fail cause

/-- Reads one resource. -/
def readOne (repository : Repository) (resource : Resource) : Run (Option Bundle) :=
  match repository.readers.find? fun reader => reader.takes resource with
  | none =>
    Run.fail (.unsupported resource.location.text
      ("no loader can read resource '" ++ resource.id ++ "'"))
  | some reader => repository.readWith reader resource

/-- Reads resources in order, passing over the identities that were seen before. -/
def readAll (repository : Repository) :
    List String → List Resource → Run (List (Resource × Bundle))
  | _, [] => return []
  | seen, resource :: rest => do
    if seen.contains resource.id then
      Run.trace ("Skipping already loaded resource " ++ resource.text)
      repository.readAll seen rest
    else
      let bundle? ← repository.readOne resource
      let others ← repository.readAll (resource.id :: seen) rest
      return (bundle?.map fun bundle => (resource, bundle)).toList ++ others

/-- Imports a list of locations: finds their resources and reads those not loaded yet. -/
def gather (repository : Repository) (context : FindContext) (locations : List Location)
    (loaded : List String) : Run (List (Resource × Bundle)) := do
  let resources ← repository.findAll context locations
  repository.readAll loaded resources

end Repository

end LayeredConfig
