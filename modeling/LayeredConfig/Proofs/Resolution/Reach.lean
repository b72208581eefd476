/-
This file defines the trees that a resolution comes to, and says how every resolution ends.

A resolution binds the given sources, takes steps while profiles are unknown, learns the profiles
and takes steps again. Beside each tree stands what was loaded on the way to it. A resolution that
succeeds ends with such a tree in which nothing is left to do, and one that fails does so in such a
tree; so what the start has and every step keeps, every resolution has at its end. The same trees
are come to from the repository as one that may change but does not, so what holds of the trees and
loads with a changing repository holds here.
-/

import LayeredConfig.Proofs.Live.Placement
import LayeredConfig.Proofs.Resolution.Reading

namespace LayeredConfig

namespace Configuration

open LayerTree

section Reach

variable (repository : Repository) (initial : List Source) (request : ProfileRequest)

/-- A resolution comes to a tree, knowing what it does about profiles, by the given loads. -/
inductive Reaches : Option Profiles → LayerTree → List (Resource × Bundle) → Prop where
  | start {tree : LayerTree} (bound : ofBoundSources initial = .ok tree) : Reaches none tree []
  | step {known : Option Profiles} {tree next : LayerTree} {layer : Layer}
      {loads : List (Resource × Bundle)} (reached : Reaches known tree loads)
      (selected : tree.next? known = some layer)
      (worked : (work repository known tree layer).outcome = .ok next) :
      Reaches known next (loads ++ (work repository known tree layer).recorded.loads)
  | learn {tree : LayerTree} {loads : List (Resource × Bundle)} {profiles : Profiles}
      (reached : Reaches none tree loads) (finished : tree.next? none = none)
      (computed : (Lookup.overTree tree none .strict).computeProfiles request = .ok profiles) :
      Reaches (some profiles) tree loads

/-- A resolution fails, after the given loads. -/
inductive Fails : Error → List (Resource × Bundle) → Prop where
  | start {cause : Error} (failed : ofBoundSources initial = .error cause) : Fails cause []
  | step {known : Option Profiles} {tree : LayerTree} {layer : Layer} {cause : Error}
      {loads : List (Resource × Bundle)}
      (reached : Reaches repository initial request known tree loads)
      (selected : tree.next? known = some layer)
      (failed : (work repository known tree layer).outcome = .error cause) :
      Fails cause (loads ++ (work repository known tree layer).recorded.loads)
  /-- There are steps left to take, but none left to be had. -/
  | limit {known : Option Profiles} {tree : LayerTree} {layer : Layer} {steps : Nat}
      {loads : List (Resource × Bundle)}
      (reached : Reaches repository initial request known tree loads)
      (selected : tree.next? known = some layer) : Fails (.unfinished steps) loads
  | learn {tree : LayerTree} {cause : Error} {loads : List (Resource × Bundle)}
      (reached : Reaches repository initial request none tree loads)
      (failed : (Lookup.overTree tree none .strict).computeProfiles request = .error cause) :
      Fails cause loads
  | check {profiles : Profiles} {tree : LayerTree} {cause : Error}
      {loads : List (Resource × Bundle)}
      (reached : Reaches repository initial request (some profiles) tree loads)
      (failed : checkSelecting tree.layers = .error cause) : Fails cause loads

end Reach

variable {repository : Repository} {initial : List Source} {request : ProfileRequest}

/-! ### Every run ends so -/

/-- What a resolution comes to by readings it comes to by what these load. -/
theorem Reads.reaches {known : Option Profiles} {tree : LayerTree} {readings : List Reading}
    (reads : Reads repository initial request known tree readings) :
    Reaches repository initial request known tree
      (readings.flatMap (Reading.loads repository)) := by
  induction reads with
  | start bound => exact .start bound
  | step _ selected worked inductionHypothesis =>
    rw [List.flatMap_append, ← (account_work repository _ _ _).loads]
    exact .step inductionHypothesis selected worked
  | learn _ finished computed inductionHypothesis =>
    exact .learn inductionHypothesis finished computed

theorem Breaks.fails {cause : Error} {readings : List Reading}
    (breaks : Breaks repository initial request cause readings) :
    Fails repository initial request cause (readings.flatMap (Reading.loads repository)) := by
  cases breaks with
  | start failed => exact .start failed
  | step reads selected failed =>
    rw [List.flatMap_append, ← (account_work repository _ _ _).loads]
    exact .step reads.reaches selected failed
  | limit reads selected => exact .limit reads.reaches selected
  | learn reads failed => exact .learn reads.reaches failed
  | check reads failed => exact .check reads.reaches failed

/-- A resolution ends with a tree that it comes to and in which nothing is left to do, or it fails
at a tree that it comes to. -/
theorem ends_resolve (repository : Repository) (initial : List Source) (request : ProfileRequest) :
    (resolve repository initial request).Ends
      (fun configuration loads =>
        Reaches repository initial request configuration.known configuration.tree loads ∧
          configuration.tree.next? configuration.known = none ∧
          checkSelecting configuration.tree.layers = .ok ())
      (Fails repository initial request) := by
  have leaves := leaves_resolve repository initial request
  rw [Run.Ends]
  split
  · next configuration succeeded =>
    obtain ⟨⟨readings, reads, account⟩, ended, checked⟩ := leaves.of_ok succeeded
    rw [account.loads]
    exact ⟨reads.reaches, ended, checked⟩
  · next cause failed =>
    obtain ⟨readings, breaks, account⟩ := leaves.of_error failed
    rw [account.loads]
    exact breaks.fails

/-! ### What holds in every tree -/

section Reaches

variable {known : Option Profiles} {tree next : LayerTree} {layer : Layer}
  {loads : List (Resource × Bundle)}

open Expansion in
/-- What a resolution comes to it also comes to with the repository as one that may change, by the
same loads. -/
theorem Reaches.comes (reached : Reaches repository initial request known tree loads) :
    ∃ expansions, repository.live.Comes initial request known tree expansions ∧
      Call.loadsOf (callsOf expansions) = loads := by
  induction reached with
  | start bound => exact ⟨[], .start bound, rfl⟩
  | @step known tree next layer loads reached selected worked inductionHypothesis =>
    obtain ⟨expansions, comes, rfl⟩ := inductionHypothesis
    have mirrors : (repository.live.work known tree layer).Mirrors
        (work repository known tree layer) := Repository.mirrors_work tree layer
    obtain ⟨made, added⟩ := repository.live.calls_work known tree layer expansions
    have outcome := (mirrors (callsOf expansions)).1.trans worked
    exact ⟨_, .step comes selected (Prod.ext outcome added), added ▸ mirrors.loads _⟩
  | learn _ finished computed inductionHypothesis =>
    obtain ⟨expansions, comes, sameLoads⟩ := inductionHypothesis
    exact ⟨expansions, .learn comes finished computed, sameLoads⟩

theorem Reaches.sound (reached : Reaches repository initial request known tree loads) :
    tree.Sound known := by
  obtain ⟨expansions, comes, _⟩ := reached.comes
  exact comes.sound

theorem Reaches.stepped (reached : Reaches repository initial request known tree loads)
    (selected : tree.next? known = some layer)
    (worked : (work repository known tree layer).outcome = .ok next) :
    Stepped (Phase.ofKnown known) tree next layer
      (work repository known tree layer).recorded.loads :=
  stepped_of_work reached.sound selected worked

/-- An identity counts as loaded just if one of its loads had a source. -/
theorem Reaches.mem_loaded (reached : Reaches repository initial request known tree loads)
    {id : String} : id ∈ tree.loaded ↔ ∃ load ∈ loads, load.1.id = id ∧ load.2.sources ≠ [] := by
  obtain ⟨expansions, comes, rfl⟩ := reached.comes
  exact comes.mem_loaded

/-- Every tree keeps all that was loaded on the way to it. -/
theorem Reaches.keeps (reached : Reaches repository initial request known tree loads) :
    ∀ load ∈ loads, load.2.sources ≠ [] → tree.Keeps load := by
  obtain ⟨expansions, comes, rfl⟩ := reached.comes
  exact comes.keeps

/-- Every mark of a found layer comes from a load. -/
theorem Reaches.find_mem (reached : Reaches repository initial request known tree loads) :
    ∀ mark ∈ tree.marks, mark.origin? ≠ none →
      ∃ load ∈ loads, ∃ phase, mark.find ∈ findsOf phase load := by
  obtain ⟨expansions, comes, rfl⟩ := reached.comes
  exact comes.find_mem

end Reaches

/-- Whatever a resolution loads may follow what it loaded before, however it ends. -/
theorem mayFollow_of_resolve (repository : Repository) (initial : List Source)
    (request : ProfileRequest) :
    (resolve repository initial request).recorded.loads.Pairwise MayFollow := by
  rw [← (repository.agree_resolve initial request).2.2]
  exact repository.live.mayFollow_of_resolve initial request

end Configuration

end LayeredConfig
