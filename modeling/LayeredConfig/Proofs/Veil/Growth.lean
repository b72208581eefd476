/-
This file lets trees grow behind the veil.

A repository can be veiled too: its readers read the same bundles, with the hidden sources cut down
to their steering parts. A tree that grows behind the veil from the veiled repository is the tree
that grows without the veil, seen behind it, and both ways to grow fail alike. What this rests on is
kept on the way: the layers with hidden sources are kept out.
-/

import LayeredConfig.Proofs.Resolution.Termination
import LayeredConfig.Proofs.Veil.Binding

namespace LayeredConfig

/-! ### Importing -/

def Bundle.mapSources (change : Source → Source) (bundle : Bundle) : Bundle :=
  { bundle with sources := bundle.sources.map change }

def Reader.mapSources (change : Source → Source) (reader : Reader) : Reader :=
  { reader with read := fun resource => (reader.read resource).map (Bundle.mapSources change) }

namespace Repository

/-- The repository with other sources in all that its readers read. -/
def mapSources (change : Source → Source) (repository : Repository) : Repository :=
  { repository with readers := repository.readers.map (Reader.mapSources change) }

section MapSources

variable (change : Source → Source) (repository : Repository)

theorem findAll_mapSources (context : FindContext) (locations : List Location) :
    (repository.mapSources change).findAll context locations =
      repository.findAll context locations := by
  induction locations with
  | nil => rfl
  | cons location rest inductionHypothesis =>
    rw [findAll, findAll, inductionHypothesis]
    rfl

theorem readWith_mapSources (reader : Reader) (resource : Resource) :
    ((repository.mapSources change).readWith (reader.mapSources change) resource).outcome =
      (repository.readWith reader resource).outcome.map
        (Option.map (Bundle.mapSources change)) := by
  rw [readWith, readWith, Run.outcome_bind, Run.outcome_bind, Reader.mapSources]
  dsimp only
  cases reader.read resource with
  | ok bundle => rfl
  | error cause =>
    show Run.outcome (if cause.isMissing = true then _ else _) =
      (Run.outcome (if cause.isMissing = true then _ else _)).map _
    split
    · rw [Run.outcome_bind, Run.outcome_bind]
      show (repository.policy.handle resource.location cause).outcome >>= _ =
        ((repository.policy.handle resource.location cause).outcome >>= _).map _
      cases (repository.policy.handle resource.location cause).outcome <;> rfl
    · rfl

theorem readOne_mapSources (resource : Resource) :
    ((repository.mapSources change).readOne resource).outcome =
      (repository.readOne resource).outcome.map (Option.map (Bundle.mapSources change)) := by
  have taking : ((repository.mapSources change).readers.find? fun reader => reader.takes resource) =
      (repository.readers.find? fun reader => reader.takes resource).map
        (Reader.mapSources change) := by
    rw [mapSources, List.find?_map]
    rfl
  rw [readOne, readOne, taking]
  cases repository.readers.find? fun reader => reader.takes resource with
  | none => rfl
  | some reader => exact readWith_mapSources change repository reader resource

/-- What is gathered, with other sources. -/
def mapLoads (change : Source → Source) (loads : List (Resource × Bundle)) :
    List (Resource × Bundle) :=
  loads.map fun load => (load.1, load.2.mapSources change)

theorem readAll_mapSources (seen : List String) (resources : List Resource) :
    ((repository.mapSources change).readAll seen resources).outcome =
      (repository.readAll seen resources).outcome.map (mapLoads change) := by
  induction resources generalizing seen with
  | nil => rfl
  | cons resource rest inductionHypothesis =>
    rw [readAll, readAll]
    split
    · rw [Run.outcome_bind, Run.outcome_bind, inductionHypothesis]
      rfl
    · rw [Run.outcome_bind, Run.outcome_bind, readOne_mapSources]
      cases (repository.readOne resource).outcome with
      | error cause => rfl
      | ok bundle? =>
        show Run.outcome (_ >>= _) = Except.map _ (Run.outcome (_ >>= _))
        rw [Run.outcome_bind, Run.outcome_bind, inductionHypothesis]
        cases (repository.readAll (resource.id :: seen) rest).outcome with
        | error cause => rfl
        | ok others => cases bundle? <;> rfl

theorem gather_mapSources (context : FindContext) (locations : List Location)
    (loaded : List String) :
    ((repository.mapSources change).gather context locations loaded).outcome =
      (repository.gather context locations loaded).outcome.map (mapLoads change) := by
  rw [gather, gather, Run.outcome_bind, Run.outcome_bind, findAll_mapSources, map_bind]
  congr 1
  funext resources
  exact readAll_mapSources change repository loaded resources

end MapSources

end Repository

namespace LayerTree

section Steps

variable {profiles : Profiles} {known : Option Profiles} {repository : Repository}
  {tree next : LayerTree} {layer : Layer}

/-! ### Binding -/

/-- The sources that binding asks beside that of the layer are active, so the veil leaves them. -/
theorem askedSources_veil (keptOut : tree.KeptOut profiles)
    (fits : known = none ∨ known = some profiles) {source : Source}
    (holds : layer.source? = some source)
    (unveiled : (layer.mapSources (Source.veil profiles)).source? = some source) :
    (Lookup.ofLayer (tree.mapSources (Source.veil profiles))
        (layer.mapSources (Source.veil profiles)) known).askedSources =
      (Lookup.ofLayer tree layer known).askedSources := by
  have sameChoice : (fun other : Layer => !other.isSame (layer.mapSources (Source.veil profiles)) &&
        (other.source?.isSome && other.isActive known)) ∘ Layer.mapSources (Source.veil profiles) =
      fun other => !other.isSame layer && (other.source?.isSome && other.isActive known) := by
    funext other
    rw [Function.comp_apply, Layer.isSame_mapSources, Layer.isActive_mapSources,
      Layer.isSome_source_mapSources]
  have others : ((tree.mapSources (Source.veil profiles)).layers.filter fun other =>
        !other.isSame (layer.mapSources (Source.veil profiles)) &&
          (other.source?.isSome && other.isActive known)).filterMap (·.source?) =
      (tree.layers.filter fun other => !other.isSame layer &&
        (other.source?.isSome && other.isActive known)).filterMap (·.source?) := by
    rw [layers_mapSources, List.filter_map, sameChoice, List.filterMap_map]
    refine List.filterMap_congr fun other member => ?_
    obtain ⟨inTree, isChosen⟩ := List.mem_filter.mp member
    rw [Bool.and_eq_true, Bool.and_eq_true] at isChosen
    exact keptOut.source_of_active fits inTree isChosen.2.2
  rw [Lookup.askedSources, Lookup.askedSources, Lookup.placeholderCandidates,
    Lookup.placeholderCandidates]
  show List.filterMap _ (_ :: _) = List.filterMap _ (_ :: _)
  rw [List.filterMap_cons_some unveiled, List.filterMap_cons_some holds]
  exact congrArg _ others

/-- A layer that was found declares the same behind the veil. -/
theorem getDeclared_veil (keptOut : tree.KeptOut profiles)
    (fits : known = none ∨ known = some profiles) {origin : Origin} {source : Source}
    (role : layer.role = .found origin source) :
    (Lookup.ofLayer (tree.mapSources (Source.veil profiles))
        (layer.mapSources (Source.veil profiles)) known).getDeclared =
      (Lookup.ofLayer tree layer known).getDeclared := by
  have holds : layer.source? = some source := by
    rw [Layer.source?, role]
    rfl
  have veiled : (layer.mapSources (Source.veil profiles)).source? =
      some (source.veil profiles) := by
    rw [Layer.source_mapSources, role]
    rfl
  cases isHidden : source.isHiddenFrom profiles with
  | true =>
    rw [Source.veil_of_hidden isHidden] at veiled
    exact Lookup.getDeclared_of_hidden isHidden rfl holds rfl veiled
  | false =>
    rw [Source.veil_of_shown isHidden] at veiled
    exact Lookup.getDeclared_of_sources rfl holds rfl veiled
      (askedSources_veil keptOut fits holds veiled)

theorem bindLayer_veil (keptOut : tree.KeptOut profiles)
    (fits : known = none ∨ known = some profiles) (isFound : layer.role.isFound = true) :
    (tree.mapSources (Source.veil profiles)).bindLayer known
        (layer.mapSources (Source.veil profiles)) =
      (tree.bindLayer known layer).map (mapSources (Source.veil profiles)) := by
  cases role : layer.role with
  | found origin source =>
    rw [bindLayer, bindLayer, Layer.bind, Layer.bind, Layer.role_mapSources, role]
    show (Lookup.getDeclared _ >>= _) >>= _ = ((Lookup.getDeclared _ >>= _) >>= _).map _
    rw [getDeclared_veil keptOut fits role]
    cases (Lookup.ofLayer tree layer known).getDeclared with
    | error cause => rfl
    | ok declared =>
      show Except.ok _ = Except.ok _
      rw [← replace_mapSources, Layer.mapSources_withRole]
      rfl
  | _ => rw [role] at isFound; cases isFound

/-- To bind a layer that was found with a hidden source keeps it out. -/
theorem KeptOut.bindLayer (keptOut : tree.KeptOut profiles) (sound : tree.Sound known)
    (member : layer ∈ tree.layers) (isFound : layer.role.isFound = true)
    (bound : tree.bindLayer known layer = .ok next) : next.KeptOut profiles := by
  cases role : layer.role with
  | found origin source =>
    obtain ⟨replacement, isBound, replaced⟩ := bind_eq_ok.mp bound
    obtain rfl := Except.ok.inj replaced
    rw [Layer.bind, role] at isBound
    obtain ⟨declared, areDeclared, isReplacement⟩ := bind_eq_ok.mp isBound
    obtain rfl := Except.ok.inj isReplacement
    have edited := edited_replace sound member
      (Layer.stamp_withRole (.bound origin source declared) layer) []
      (Layer.descendants_withRole _ _)
    intro entry inNext
    rcases edited.mem_old inNext with isChanged | isOld
    · rw [List.mem_singleton.mp isChanged, Layer.entry_withRole]
      intro _ other holds isHidden
      obtain rfl : source = other := Option.some.inj holds
      have isFocus : layer.source? = some source := by
        rw [Layer.source?, role]
        rfl
      have isUnmet := Lookup.barred_of_hidden isHidden rfl isFocus areDeclared
      show (Layer.originActive _ _ && Layer.conditionActive _ _) = false
      rw [isUnmet, Bool.and_false]
    · exact keptOut entry isOld
  | _ => rw [role] at isFound; cases isFound

/-! ### Steps -/

/-- A step behind the veil is the step without it. -/
theorem work_veil (keptOut : tree.KeptOut profiles) (fits : known = none ∨ known = some profiles) :
    (work (repository.mapSources (Source.veil profiles)) known
          (tree.mapSources (Source.veil profiles))
          (layer.mapSources (Source.veil profiles))).outcome =
      (work repository known tree layer).outcome.map (mapSources (Source.veil profiles)) := by
  have sameFound : (layer.mapSources (Source.veil profiles)).role.isFound = layer.role.isFound := by
    rw [Layer.role_mapSources, Role.isFound_mapSource]
  cases isFound : layer.role.isFound with
  | true =>
    rw [outcome_work_of_found isFound, outcome_work_of_found (sameFound.trans isFound)]
    exact bindLayer_veil keptOut fits isFound
  | false =>
    rw [outcome_work_of_ready isFound, outcome_work_of_ready (sameFound.trans isFound),
      outcome_gatherFor, outcome_gatherFor, Layer.resource_mapSources, Layer.imports_mapSources,
      loaded_mapSources, Repository.gather_mapSources,
      Layer.name_mapSources _ (Source.name_veil profiles)]
    cases (repository.gather ⟨layer.resource?, known⟩ layer.imports tree.loaded).outcome with
    | error cause => rfl
    | ok gathered =>
      refine congrArg Except.ok ?_
      rw [← attach_mapSources, ← childrenOf_mapSources]
      rfl

theorem KeptOut.work (keptOut : tree.KeptOut profiles) (sound : tree.Sound known)
    (selected : tree.next? known = some layer)
    (worked : (work repository known tree layer).outcome = .ok next) : next.KeptOut profiles := by
  have member := mem_of_next selected
  cases isFound : layer.role.isFound with
  | true =>
    rw [outcome_work_of_found isFound] at worked
    exact keptOut.bindLayer sound member isFound worked
  | false =>
    intro entry inNext
    cases (stepped_of_work sound selected worked).entryAfter inNext with
    | kept isOld => exact keptOut entry isOld
    | bound role => rw [role] at isFound; cases isFound
    | attached ready pending isOld =>
      intro isFound source holds isHidden
      show Role.isActive _ layer.role.opened = false
      rw [Role.isActive_opened]
      refine keptOut layer.entry isOld ?_ source ?_ isHidden
      · rwa [← Role.origin_opened]
      · rwa [← Role.source_opened]
    | fresh isNew =>
      obtain ⟨origin, source, role, _⟩ := role_newLayers isNew
      intro _ _ _ _
      show Role.isActive _ (Layer.role _) = false
      rw [role]
      rfl

end Steps

/-! ### Growing -/

section Grow

variable {profiles : Profiles} {known : Option Profiles} {repository : Repository}
  {tree final : LayerTree}

theorem growFrom_veil (keptOut : tree.KeptOut profiles) (sound : tree.Sound known)
    (fits : known = none ∨ known = some profiles) (done limit : Nat) :
    (growFrom (repository.mapSources (Source.veil profiles)) known done limit
        (tree.mapSources (Source.veil profiles))).outcome =
      (growFrom repository known done limit tree).outcome.map
        (mapSources (Source.veil profiles)) := by
  induction limit generalizing done tree with
  | zero =>
    rw [growFrom, growFrom, next?_mapSources]
    cases tree.next? known <;> rfl
  | succ limit inductionHypothesis =>
    rw [growFrom, growFrom, next?_mapSources]
    cases selected : tree.next? known with
    | none => rfl
    | some layer =>
      dsimp only [Option.map]
      rw [Run.outcome_bind, Run.outcome_bind, work_veil keptOut fits]
      cases worked : (work repository known tree layer).outcome with
      | error cause => rfl
      | ok next =>
        exact inductionHypothesis (keptOut.work sound selected worked)
          (Follows.sound sound ⟨layer, selected, worked⟩) (done + 1)

theorem KeptOut.growFrom (keptOut : tree.KeptOut profiles) (sound : tree.Sound known)
    {done limit : Nat} (grown : (growFrom repository known done limit tree).outcome = .ok final) :
    final.KeptOut profiles := by
  induction limit generalizing done tree with
  | zero =>
    rw [LayerTree.growFrom] at grown
    split at grown
    · cases grown
      exact keptOut
    · cases grown
  | succ limit inductionHypothesis =>
    rw [LayerTree.growFrom] at grown
    split at grown
    · cases grown
      exact keptOut
    · next layer selected =>
      obtain ⟨next, worked, rest⟩ := Run.outcome_bind_eq_ok.mp grown
      exact inductionHypothesis (keptOut.work sound selected worked)
        (Follows.sound sound ⟨layer, selected, worked⟩) rest

/-- A tree that grows behind the veil is the tree that grows without it. -/
theorem grow_veil (repository : Repository) (keptOut : tree.KeptOut profiles)
    (sound : tree.Sound known) (fits : known = none ∨ known = some profiles) :
    (grow (repository.mapSources (Source.veil profiles)) known
        (tree.mapSources (Source.veil profiles))).outcome =
      (grow repository known tree).outcome.map (mapSources (Source.veil profiles)) :=
  growFrom_veil keptOut sound fits 0 repository.stepLimit

end Grow

end LayerTree

end LayeredConfig
