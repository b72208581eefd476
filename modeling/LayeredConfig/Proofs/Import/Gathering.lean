/-
This file says what importing a list of locations reads.

Finding reads nothing, and reading goes through the found resources once. An identity that was seen
before is passed over, and an identity that is tried counts as seen; so all that an import reads are
found resources of identities that were not loaded before, whether or not the import succeeds in the
end. If it does, its result is what it read.
-/

import LayeredConfig.Import.Repository
import LayeredConfig.Proofs.Run
import Mathlib.Data.Finset.Basic

namespace LayeredConfig

namespace Repository

variable {repository : Repository} {context : FindContext}

/-! ### Finding -/

theorem loads_handle (policy : MissingPolicy) (location : Location) (cause : Error) :
    (policy.handle location cause).recorded.loads = [] := by
  unfold MissingPolicy.handle
  split <;> rfl

theorem loads_findBase (finder : Finder) (location : Location) :
    (repository.findBase finder context location).recorded.loads = [] := by
  unfold findBase
  refine Run.loads_bind_of_nil rfl fun _ => ?_
  split
  · rfl
  · split
    · exact Run.loads_bind_of_nil (loads_handle _ _ _) fun _ => rfl
    · rfl

theorem loads_findSpecific (finder : Finder) (location : Location) :
    (findSpecific finder context location).recorded.loads = [] := by
  unfold findSpecific
  split
  · rfl
  · exact Run.loads_bind_of_nil rfl fun _ => rfl

theorem loads_findOne (location : Location) :
    (repository.findOne context location).recorded.loads = [] := by
  unfold findOne
  split
  · rfl
  · exact Run.loads_bind_of_nil (loads_findBase _ _) fun _ =>
      Run.loads_bind_of_nil (loads_findSpecific _ _) fun _ => rfl

theorem loads_findAll (locations : List Location) :
    (repository.findAll context locations).recorded.loads = [] := by
  induction locations with
  | nil => rfl
  | cons location rest inductionHypothesis =>
    exact Run.loads_bind_of_nil (loads_findOne location) fun _ =>
      Run.loads_bind_of_nil inductionHypothesis fun _ => rfl

/-- The finders lead only to the given identities. -/
def FindsWithin (repository : Repository) (ids : Finset String) : Prop :=
  ∀ finder ∈ repository.finders, ∀ context location,
    (∀ found, finder.find context location = .ok found → ∀ resource ∈ found, resource.id ∈ ids) ∧
    ∀ profiles found, finder.findVariants context location profiles = .ok found →
      ∀ resource ∈ found, resource.id ∈ ids

theorem findBase_within {ids : Finset String} {finder : Finder} {location : Location}
    {found : List Resource}
    (bounds : ∀ found, finder.find context location = .ok found →
      ∀ resource ∈ found, resource.id ∈ ids)
    (succeeded : (repository.findBase finder context location).outcome = .ok found) :
    ∀ resource ∈ found, resource.id ∈ ids := by
  unfold findBase at succeeded
  obtain ⟨_, _, succeeded⟩ := Run.outcome_bind_eq_ok.mp succeeded
  split at succeeded
  · next base isBase =>
    cases succeeded
    exact bounds found isBase
  · split at succeeded
    · obtain ⟨_, _, succeeded⟩ := Run.outcome_bind_eq_ok.mp succeeded
      cases succeeded
      intro resource member
      cases member
    · cases succeeded

theorem findSpecific_within {ids : Finset String} {finder : Finder} {location : Location}
    {found : List Resource}
    (bounds : ∀ profiles found, finder.findVariants context location profiles = .ok found →
      ∀ resource ∈ found, resource.id ∈ ids)
    (succeeded : (findSpecific finder context location).outcome = .ok found) :
    ∀ resource ∈ found, resource.id ∈ ids := by
  unfold findSpecific at succeeded
  split at succeeded
  · cases succeeded
    intro resource member
    cases member
  · obtain ⟨_, _, succeeded⟩ := Run.outcome_bind_eq_ok.mp succeeded
    exact bounds _ found succeeded

theorem findOne_within {ids : Finset String} (within : repository.FindsWithin ids)
    {location : Location} {found : List Resource}
    (succeeded : (repository.findOne context location).outcome = .ok found) :
    ∀ resource ∈ found, resource.id ∈ ids := by
  unfold findOne at succeeded
  split at succeeded
  · cases succeeded
  · next finder isFinder =>
    obtain ⟨baseBounds, specificBounds⟩ :=
      within finder (List.mem_of_find?_eq_some isFinder) context location
    obtain ⟨base, isBase, succeeded⟩ := Run.outcome_bind_eq_ok.mp succeeded
    obtain ⟨specific, isSpecific, succeeded⟩ := Run.outcome_bind_eq_ok.mp succeeded
    cases succeeded
    intro resource member
    rcases List.mem_append.mp member with inBase | inSpecific
    · exact findBase_within baseBounds isBase resource inBase
    · exact findSpecific_within specificBounds isSpecific resource inSpecific

theorem findAll_within {ids : Finset String} (within : repository.FindsWithin ids)
    {locations : List Location} {found : List Resource}
    (succeeded : (repository.findAll context locations).outcome = .ok found) :
    ∀ resource ∈ found, resource.id ∈ ids := by
  induction locations generalizing found with
  | nil =>
    cases succeeded
    intro resource member
    cases member
  | cons location rest inductionHypothesis =>
    obtain ⟨first, isFirst, succeeded⟩ := Run.outcome_bind_eq_ok.mp succeeded
    obtain ⟨others, areOthers, succeeded⟩ := Run.outcome_bind_eq_ok.mp succeeded
    cases succeeded
    intro resource member
    rcases List.mem_append.mp member with inFirst | inOthers
    · exact findOne_within within isFirst resource inFirst
    · exact inductionHypothesis areOthers resource inOthers

/-! ### Reading -/

/-- What reading one resource loads. -/
def loadOf (resource : Resource) : Except Error (Option Bundle) → List (Resource × Bundle)
  | .ok (some bundle) => [(resource, bundle)]
  | _ => []

/-- Reading one resource loads its bundle, or nothing. -/
theorem loads_readWith (reader : Reader) (resource : Resource) :
    (repository.readWith reader resource).recorded.loads =
      loadOf resource (repository.readWith reader resource).outcome := by
  unfold readWith
  rw [Run.loads_bind, Run.outcome_bind]
  cases reader.read resource with
  | ok bundle => rfl
  | error cause =>
    by_cases missing : cause.isMissing = true
    · simp only [missing, if_true, Run.outcome_record, Run.recorded_record]
      rw [Run.loads_bind_of_nil (loads_handle _ _ _) fun _ => rfl]
      show _ = loadOf resource (Run.outcome (_ >>= _))
      rw [Run.outcome_bind]
      cases (repository.policy.handle resource.location cause).outcome <;> rfl
    · simp only [missing]
      rfl

theorem loads_readOne (resource : Resource) :
    (repository.readOne resource).recorded.loads =
      loadOf resource (repository.readOne resource).outcome := by
  unfold readOne
  split
  · rfl
  · exact loads_readWith _ resource

/-- The reading of a resource that was not seen before, and then of the others. -/
theorem loads_readAll_cons {seen : List String} {resource : Resource} (rest : List Resource)
    (unseen : seen.contains resource.id = false) :
    (repository.readAll seen (resource :: rest)).recorded.loads =
      loadOf resource (repository.readOne resource).outcome ++
        match (repository.readOne resource).outcome with
        | .ok _ => (repository.readAll (resource.id :: seen) rest).recorded.loads
        | .error _ => [] := by
  rw [readAll, if_neg (Bool.not_eq_true _ ▸ unseen), Run.loads_bind, loads_readOne]
  cases (repository.readOne resource).outcome with
  | error cause => rfl
  | ok bundle? =>
    show _ ++ Journal.loads (Run.recorded (_ >>= _)) = _
    rw [Run.loads_bind]
    cases (repository.readAll (resource.id :: seen) rest).outcome with
    | ok others => exact congrArg _ (List.append_nil _)
    | error cause => exact congrArg _ (List.append_nil _)

/-- A resource that was seen before is passed over. -/
theorem loads_readAll_seen {seen : List String} {resource : Resource} (rest : List Resource)
    (isSeen : seen.contains resource.id = true) :
    (repository.readAll seen (resource :: rest)).recorded.loads =
      (repository.readAll seen rest).recorded.loads := by
  rw [readAll, if_pos isSeen, Run.loads_bind]
  rfl

theorem mem_loadOf {resource : Resource} {outcome : Except Error (Option Bundle)}
    {load : Resource × Bundle} (member : load ∈ loadOf resource outcome) : load.1 = resource := by
  rcases outcome with cause | (_ | bundle)
  · cases member
  · cases member
  · rw [List.mem_singleton.mp member]

/-- What is read is a resource of the list with an identity that was not seen before. -/
theorem readAll_fresh (seen : List String) (resources : List Resource) :
    ∀ load ∈ (repository.readAll seen resources).recorded.loads,
      load.1 ∈ resources ∧ load.1.id ∉ seen := by
  induction resources generalizing seen with
  | nil =>
    intro load member
    cases member
  | cons resource rest inductionHypothesis =>
    intro load member
    cases isSeen : seen.contains resource.id with
    | true =>
      rw [loads_readAll_seen rest isSeen] at member
      obtain ⟨inRest, fresh⟩ := inductionHypothesis seen load member
      exact ⟨List.mem_cons_of_mem _ inRest, fresh⟩
    | false =>
      rw [loads_readAll_cons rest isSeen] at member
      rcases List.mem_append.mp member with here | later
      · rw [mem_loadOf here]
        refine ⟨List.mem_cons_self, fun wasSeen => ?_⟩
        rw [List.contains_iff_mem.mpr wasSeen] at isSeen
        cases isSeen
      · split at later
        · obtain ⟨inRest, fresh⟩ := inductionHypothesis _ load later
          exact ⟨List.mem_cons_of_mem _ inRest,
            fun wasSeen => fresh (List.mem_cons_of_mem _ wasSeen)⟩
        · cases later

/-- If reading succeeds, its result is what was read. -/
theorem loads_readAll {seen : List String} {resources : List Resource}
    {gathered : List (Resource × Bundle)}
    (succeeded : (repository.readAll seen resources).outcome = .ok gathered) :
    (repository.readAll seen resources).recorded.loads = gathered := by
  induction resources generalizing seen gathered with
  | nil =>
    cases succeeded
    rfl
  | cons resource rest inductionHypothesis =>
    cases isSeen : seen.contains resource.id with
    | true =>
      rw [loads_readAll_seen rest isSeen]
      rw [readAll, if_pos isSeen] at succeeded
      obtain ⟨_, _, succeeded⟩ := Run.outcome_bind_eq_ok.mp succeeded
      exact inductionHypothesis succeeded
    | false =>
      rw [loads_readAll_cons rest isSeen]
      rw [readAll, if_neg (Bool.not_eq_true _ ▸ isSeen)] at succeeded
      obtain ⟨bundle?, isBundle, succeeded⟩ := Run.outcome_bind_eq_ok.mp succeeded
      obtain ⟨others, areOthers, succeeded⟩ := Run.outcome_bind_eq_ok.mp succeeded
      cases succeeded
      rw [isBundle]
      show _ ++ Journal.loads _ = _
      rw [inductionHypothesis areOthers]
      cases bundle? <;> rfl

/-! ### Importing -/

theorem loads_gather (locations : List Location) (loaded : List String) :
    (repository.gather context locations loaded).recorded.loads =
      match (repository.findAll context locations).outcome with
      | .ok resources => (repository.readAll loaded resources).recorded.loads
      | .error _ => [] := by
  unfold gather
  rw [Run.loads_bind, loads_findAll, List.nil_append]
  cases (repository.findAll context locations).outcome <;> rfl

/-- If an import succeeds, its result is what it loaded. -/
theorem loads_gather_ok {locations : List Location} {loaded : List String}
    {gathered : List (Resource × Bundle)}
    (succeeded : (repository.gather context locations loaded).outcome = .ok gathered) :
    (repository.gather context locations loaded).recorded.loads = gathered := by
  rw [loads_gather]
  obtain ⟨resources, areFound, succeeded⟩ := Run.outcome_bind_eq_ok.mp succeeded
  rw [areFound]
  exact loads_readAll succeeded

/-- An import loads only what the finders lead to. -/
theorem gather_within {ids : Finset String} (within : repository.FindsWithin ids)
    (locations : List Location) (loaded : List String) :
    ∀ load ∈ (repository.gather context locations loaded).recorded.loads, load.1.id ∈ ids := by
  intro load member
  rw [loads_gather] at member
  split at member
  · next resources areFound =>
    exact findAll_within within areFound load.1 (readAll_fresh _ _ load member).1
  · cases member

end Repository

end LayeredConfig
