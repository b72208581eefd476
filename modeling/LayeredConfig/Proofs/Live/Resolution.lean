/-
This file resolves a configuration with a repository that may change with every call.

The steps are those of a resolution with a fixed repository: the given sources are bound, layers are
bound or have their imports read, and between two phases of growth the profiles are computed. Only
what the finders and readers answer may differ from call to call. With a repository that never
changes, both ways to resolve come to the same configuration or to the same error, with the same
requests and the same loads.
-/

import LayeredConfig.Configuration
import LayeredConfig.Proofs.Live.Repository

namespace LayeredConfig

open LayerTree

namespace LiveRepository

/-! ### Growing -/

/-- Reads the imports of a layer. -/
def gatherFor (live : LiveRepository) (known : Option Profiles) (tree : LayerTree)
    (layer : Layer) : Dialogue (List (Resource × Bundle)) :=
  live.gather ⟨layer.resource?, known⟩ layer.imports tree.loaded

/-- Does the work that a layer needs. -/
def work (live : LiveRepository) (known : Option Profiles) (tree : LayerTree) (layer : Layer) :
    Dialogue LayerTree := do
  if layer.role.isFound then Dialogue.ofExcept (tree.bindLayer known layer)
  else
    match ← (live.gatherFor known tree layer).attempt with
    | .error cause => Dialogue.fail (cause.inLayer layer.name)
    | .ok gathered =>
      let phase := Phase.ofKnown known
      return tree.attach layer phase (childrenOf phase gathered)

/-- Grows a tree; `done` steps were taken, and `remaining` may still be. -/
def growFrom (live : LiveRepository) (known : Option Profiles) :
    (done remaining : Nat) → LayerTree → Dialogue LayerTree
  | done, remaining, tree =>
    match tree.next? known with
    | none => return tree
    | some layer =>
      match remaining with
      | 0 => Dialogue.fail (.unfinished done)
      | remaining + 1 => do
        let next ← live.work known tree layer
        live.growFrom known (done + 1) remaining next

/-- Grows a tree until no layer needs work in the phase of the known profiles. -/
def grow (live : LiveRepository) (known : Option Profiles) (tree : LayerTree) :
    Dialogue LayerTree :=
  live.growFrom known 0 live.stepLimit tree

/-- Resolves the given sources, the strongest first. -/
def resolve (live : LiveRepository) (initial : List Source) (request : ProfileRequest) :
    Dialogue Configuration := do
  let given ← Dialogue.ofExcept (ofBoundSources initial)
  let first ← live.grow none given
  let second ← live.grow none first
  let profiles ← Dialogue.ofExcept
    ((Lookup.overTree second none .strict).computeProfiles request)
  let tree ← live.grow (some profiles) second
  Dialogue.ofExcept (checkSelecting tree.layers)
  return ⟨profiles, tree⟩

section Work

variable {live : LiveRepository} {known : Option Profiles} {tree : LayerTree} {layer : Layer}

theorem adds_gatherFor (live : LiveRepository) (known : Option Profiles) (tree : LayerTree)
    (layer : Layer) : (live.gatherFor known tree layer).Adds (Call.Sees known) :=
  adds_gather layer.imports tree.loaded

theorem work_of_found (isFound : layer.role.isFound = true) (calls : List Call) :
    live.work known tree layer calls = (tree.bindLayer known layer, calls) := by
  rw [work, if_pos isFound, Dialogue.ofExcept_eq]

theorem work_of_ready (ready : layer.role.isFound = false) (calls : List Call) :
    live.work known tree layer calls =
      (match (live.gatherFor known tree layer calls).1 with
        | .ok gathered =>
          .ok (tree.attach layer (Phase.ofKnown known) (childrenOf (Phase.ofKnown known) gathered))
        | .error cause => .error (cause.inLayer layer.name),
      (live.gatherFor known tree layer calls).2) := by
  rw [work, if_neg (Bool.not_eq_true _ ▸ ready)]
  refine (Dialogue.bind_of_ok rfl).trans ?_
  cases (live.gatherFor known tree layer calls).1 with
  | ok gathered => rfl
  | error cause => exact Dialogue.ofExcept_eq _ _

end Work

end LiveRepository

/-! ### Repositories that never change -/

namespace Repository

open Dialogue

variable {repository : Repository} {known : Option Profiles}

theorem mirrors_gatherFor (tree : LayerTree) (layer : Layer) :
    (repository.live.gatherFor known tree layer).Mirrors
      (LayerTree.gatherFor repository known tree layer) :=
  (mirrors_gather layer.imports tree.loaded).after_note

theorem mirrors_work (tree : LayerTree) (layer : Layer) :
    (repository.live.work known tree layer).Mirrors
      (LayerTree.work repository known tree layer) := by
  rw [LiveRepository.work, LayerTree.work]
  split
  · have bound : (Dialogue.ofExcept (tree.bindLayer known layer)).Mirrors
        (Run.ofExcept (tree.bindLayer known layer)) := mirrors_ofRun _
    exact bound.after_note
  · refine (mirrors_gatherFor tree layer).attempt.bind fun outcome => ?_
    cases outcome with
    | error cause => exact mirrors_ofRun _
    | ok gathered => exact mirrors_pure _

theorem mirrors_growFrom (done remaining : Nat) (tree : LayerTree) :
    (repository.live.growFrom known done remaining tree).Mirrors
      (LayerTree.growFrom repository known done remaining tree) := by
  induction remaining generalizing done tree with
  | zero =>
    rw [LiveRepository.growFrom, LayerTree.growFrom]
    cases tree.next? known with
    | none => exact (mirrors_pure tree).after_note
    | some layer => exact mirrors_ofRun _
  | succ remaining inductionHypothesis =>
    rw [LiveRepository.growFrom, LayerTree.growFrom]
    cases tree.next? known with
    | none => exact (mirrors_pure tree).after_note
    | some layer => exact (mirrors_work tree layer).bind fun next => inductionHypothesis _ next

theorem mirrors_grow (tree : LayerTree) :
    (repository.live.grow known tree).Mirrors (tree.grow repository known) :=
  mirrors_growFrom 0 repository.stepLimit tree

theorem mirrors_resolve (repository : Repository) (initial : List Source)
    (request : ProfileRequest) :
    (repository.live.resolve initial request).Mirrors
      (Configuration.resolve repository initial request) := by
  refine (mirrors_ofRun _).bind fun given => (mirrors_grow given).bind fun first => ?_
  refine (mirrors_grow first).bind fun second => (mirrors_ofRun _).bind fun profiles => ?_
  refine Mirrors.after_note ((mirrors_grow second).bind fun tree => ?_)
  exact (mirrors_ofRun _).bind fun _ => Mirrors.after_note (mirrors_pure _)

/-- With a repository that never changes, both ways to resolve come to the same, by the same
requests and the same loads. -/
theorem agree_resolve (repository : Repository) (initial : List Source)
    (request : ProfileRequest) :
    (repository.live.resolve initial request []).1 =
        (Configuration.resolve repository initial request).outcome ∧
      Call.requestsOf (repository.live.resolve initial request []).2 =
        (Configuration.resolve repository initial request).recorded.requests ∧
      Call.loadsOf (repository.live.resolve initial request []).2 =
        (Configuration.resolve repository initial request).recorded.loads := by
  have mirrors := mirrors_resolve repository initial request
  exact ⟨(mirrors []).1, mirrors.requests [], mirrors.loads []⟩

end Repository

end LayeredConfig
