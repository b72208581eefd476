/-
This file says what is true of all resources that a resolution loads.

The finders are asked on behalf of given layers, which come from no resource, and of layers that
come from a resource that was loaded before. So a property that the answers have wherever the
resource asked for has it belongs to everything that is loaded, however the resolution ends.
-/

import LayeredConfig.Proofs.Import.Searching
import LayeredConfig.Proofs.Resolution.Reach

namespace LayeredConfig

open LayerTree

namespace Repository

variable {repository : Repository} {property : Resource → Prop}

/-- What the finders answer for an initial layer, or for a layer of a resource that has the
property, has the property. -/
def FindsOnly (repository : Repository) (property : Resource → Prop) : Prop :=
  ∀ context location search, (∀ parent ∈ context.parent, property parent) →
    ∀ resource ∈ repository.answer context location search, property resource

theorem FindsOnly.gather (only : repository.FindsOnly property) {context : FindContext}
    (asked : ∀ parent ∈ context.parent, property parent) (locations : List Location)
    (loaded : List String) :
    ∀ load ∈ (repository.gather context locations loaded).recorded.loads, property load.1 := by
  intro load member
  obtain ⟨find, isFirst, same⟩ := first_of_gather locations loaded load member
  obtain ⟨_, inAnswer⟩ := mem_finds.mp (List.mem_of_find?_eq_some isFirst)
  exact same ▸ only _ _ _ asked find.resource inAnswer

end Repository

namespace Configuration

variable {repository : Repository} {initial : List Source} {request : ProfileRequest}
  {property : Resource → Prop}

/-- What was loaded has the property, and so have the resources that layers come from. -/
structure Only (property : Resource → Prop) (tree : LayerTree)
    (loads : List (Resource × Bundle)) : Prop where
  loads : ∀ load ∈ loads, property load.1
  marks : ∀ mark ∈ tree.marks, ∀ origin ∈ mark.origin?, property origin.resource

/-- What a step loads has the property. -/
theorem Only.work (findsOnly : repository.FindsOnly property) {known : Option Profiles}
    {tree : LayerTree} {layer : Layer} {loads : List (Resource × Bundle)}
    (only : Only property tree loads) (selected : tree.next? known = some layer) :
    ∀ load ∈ loads ++ (work repository known tree layer).recorded.loads, property load.1 := by
  intro load member
  rcases List.mem_append.mp member with isOld | isNew
  · exact only.loads load isOld
  · cases isFound : layer.role.isFound with
    | true =>
      rw [loads_work_of_found isFound] at isNew
      cases isNew
    | false =>
      rw [loads_work_of_ready isFound, loads_gatherFor] at isNew
      refine findsOnly.gather ?_ _ _ load isNew
      intro parent isParent
      obtain ⟨origin, isOrigin, rfl⟩ := Option.map_eq_some_iff.mp isParent
      exact only.marks _ (mark_mem (mem_of_next selected)) origin isOrigin

theorem Reaches.only (findsOnly : repository.FindsOnly property) {known : Option Profiles}
    {tree : LayerTree} {loads : List (Resource × Bundle)}
    (reached : Reaches repository initial request known tree loads) : Only property tree loads := by
  induction reached with
  | start bound =>
    refine ⟨nofun, fun mark member origin isOrigin => ?_⟩
    rw [origin_start bound member] at isOrigin
    cases isOrigin
  | step reached selected worked inductionHypothesis =>
    have loaded := inductionHypothesis.work findsOnly selected
    refine ⟨loaded, fun mark member origin isOrigin => ?_⟩
    rcases (reached.stepped selected worked).mem_marks.mp member with isOld | isNew
    · exact inductionHypothesis.marks mark isOld origin isOrigin
    · obtain ⟨load, isLoad, isFind⟩ := mem_newMarks isNew
      rw [origin_of_find isFind] at isOrigin
      obtain rfl := Option.some.inj isOrigin
      exact loaded load (List.mem_append_right _ isLoad)
  | learn _ _ _ inductionHypothesis => exact inductionHypothesis

theorem Fails.only (findsOnly : repository.FindsOnly property) {cause : Error}
    {loads : List (Resource × Bundle)} (fails : Fails repository initial request cause loads) :
    ∀ load ∈ loads, property load.1 := by
  cases fails with
  | start => exact nofun
  | step reached selected => exact (reached.only findsOnly).work findsOnly selected
  | limit reached => exact (reached.only findsOnly).loads
  | learn reached => exact (reached.only findsOnly).loads
  | check reached => exact (reached.only findsOnly).loads

/-- All that a resolution loads has the property. -/
theorem only_of_resolve (findsOnly : repository.FindsOnly property) (initial : List Source)
    (request : ProfileRequest) :
    ∀ load ∈ (resolve repository initial request).recorded.loads, property load.1 := by
  have ends := ends_resolve repository initial request
  cases outcome : (resolve repository initial request).outcome with
  | ok configuration => exact ((ends.of_ok outcome).1.only findsOnly).loads
  | error cause => exact (ends.of_error outcome).only findsOnly

end Configuration

end LayeredConfig
