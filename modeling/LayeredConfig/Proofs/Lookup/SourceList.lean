/-
This file shows that a resolved configuration answers as its list of sources does.

The answers are looked up in the tree, layer by layer, while the list of sources that take part is
drawn from the same tree by itself. Here a lookup is written that knows that list and nothing else.
It has no layers, no activity and no rule: the first source that holds a name supplies its value,
and placeholders are looked up in the same way. Both lookups come to the same value or to the same
error for every name, so nothing else of a tree, whether its shape or what its inactive layers
hold, can be told from the answers.
-/

import LayeredConfig.Configuration
import LayeredConfig.Proofs.Import.Table
import LayeredConfig.Proofs.Lookup.Refusal

namespace LayeredConfig

/-! ### Asking a list of sources -/

namespace SourceList

section

variable (sources : List Source)

/-- The raw value of a name: that of the first source that holds it. -/
def value? (name : String) : Option String :=
  sources.findSome? (·.view.get? name)

/-- The value that a raw text stands for: its placeholders are looked up in the sources. -/
def expanded (name raw : String) : Except Error String :=
  Placeholder.valueOf (fun key => .ok (value? sources key)) (sources.flatMap (·.view.names))
    name raw

def get (name : String) : Except Error (Option String) :=
  match value? sources name with
  | none => .ok none
  | some raw => (expanded sources name raw).map some

/-- One element of a list as a source has it; an element that is missing is a fault. -/
def element (source : Source) (name : String) (index : Nat) : Except Error String :=
  match source.view.element? name index with
  | none => .error (.unbound name ("list elements in '" ++ source.name ++
      "' are not contiguous: '" ++ elementName name index ++ "' is missing"))
  | some raw => expanded sources (elementName name index) raw

/-- A list as a source has it: a scalar cut at its commas, or as many elements as it counts. -/
def ownList (source : Source) (name : String) : Except Error (List String) :=
  match source.view.get? name with
  | some raw => (expanded sources name raw).map Lookup.itemsOfScalar
  | none => (List.range (source.view.elementCount name)).mapM (element sources source name)

/-- A list is that of the first source that declares it, as a scalar or by an element. -/
def getList (name : String) : Except Error (Option (List String)) :=
  match sources.find? (·.view.declares name) with
  | none => .ok none
  | some source => (ownList sources source name).map some

end

end SourceList

/-! ### Layers and their sources -/

namespace Lookup

/-- The sources that a lookup asks, the strongest first. -/
def sources (lookup : Lookup) : List Source :=
  lookup.candidates.filterMap (·.source?)

/-- The sources that a lookup asks for the name in a placeholder, the strongest first. -/
def askedSources (lookup : Lookup) : List Source :=
  lookup.placeholderCandidates.filterMap (·.source?)

/-- Over layers, the raw value of a name is that of the first source that holds it. -/
theorem findSome?_layers (layers : List Layer) (name : String) :
    layers.findSome? (·.value? name) =
      SourceList.value? (layers.filterMap (·.source?)) name := by
  rw [SourceList.value?, ← List.head?_filterMap, ← List.head?_filterMap, List.filterMap_filterMap]
  rfl

theorem findSome?_candidates (lookup : Lookup) (name : String) :
    lookup.candidates.findSome? (·.value? name) = SourceList.value? lookup.sources name :=
  findSome?_layers lookup.candidates name

theorem declaredNames_eq (lookup : Lookup) :
    lookup.declaredNames = lookup.askedSources.flatMap (·.view.names) := by
  rw [declaredNames, askedSources, List.filterMap_eq_flatMap_toList, List.flatMap_assoc]
  congr 1
  funext layer
  cases layer.source? with
  | none => rfl
  | some source => exact (List.append_nil _).symm

/-- The first layer that declares a name holds the first source that does. -/
theorem find?_candidates (lookup : Lookup) (name : String) :
    lookup.sources.find? (·.view.declares name) =
      (lookup.candidates.find? (·.declares name)).bind (·.source?) := by
  rw [sources, List.find?_filterMap]
  congr 2
  funext layer
  unfold Layer.declares
  cases layer.source? <;> rfl

/-! ### Lookups that expand as sources do -/

section Expands

variable {lookup : Lookup} {sources : List Source}

/-- A lookup that finds in placeholders what its sources hold expands values as these do. -/
theorem expanded_eq (finds : ∀ name,
      lookup.findInPlaceholder name = .ok (SourceList.value? lookup.askedSources name))
    (name raw : String) :
    lookup.expanded name raw = SourceList.expanded lookup.askedSources name raw := by
  rw [SourceList.expanded, expanded, declaredNames_eq, funext finds, Placeholder.valueOf]
  split <;> rfl

variable (expands : ∀ name raw, lookup.expanded name raw = SourceList.expanded sources name raw)
  {layer : Layer} {source : Source} (holds : layer.source? = some source)

include expands holds

/-- To read the elements of a list one by one is to look each of them up in the sources. -/
theorem elementsFrom_eq (name : String) (index remaining : Nat) :
    lookup.elementsFrom layer source.view name index remaining =
      (List.range' index remaining).mapM (SourceList.element sources source name) := by
  induction remaining generalizing index with
  | zero => rfl
  | succ remaining inductionHypothesis =>
    rw [elementsFrom, List.range'_succ, List.mapM_cons, SourceList.element,
      inductionHypothesis (index + 1)]
    cases source.view.element? name index with
    | none =>
      rw [gapIn, Layer.name, holds]
      rfl
    | some raw =>
      dsimp only
      rw [expands]

theorem ownList_eq (name : String) :
    lookup.ownList name layer = (SourceList.ownList sources source name).map some := by
  rw [ownList, SourceList.ownList, holds]
  dsimp only
  cases source.view.get? name with
  | none =>
    dsimp only
    rw [elementsFrom_eq expands holds, List.range_eq_range']
    rfl
  | some raw =>
    dsimp only
    rw [expands]
    cases SourceList.expanded sources name raw <;> rfl

end Expands

section Passing

variable {tree : LayerTree} {known : Option Profiles} {rule : LookupRule}

theorem askedSources_overTree (rule : LookupRule) :
    (overTree tree known rule).askedSources = (overTree tree known rule).sources := by
  rw [askedSources, placeholderCandidates_overTree, sources]

variable (passes : ∀ name, (overTree tree known rule).checkInactive name = .ok ())

include passes

/-- A lookup that refuses nothing finds in a placeholder what its sources hold. -/
theorem findInPlaceholder_of_passes (name : String) :
    (overTree tree known rule).findInPlaceholder name =
      .ok (SourceList.value? (overTree tree known rule).sources name) := by
  rw [findInPlaceholder, placeholderCandidates_overTree, findSome?_candidates]
  cases SourceList.value? (overTree tree known rule).sources name with
  | none => rfl
  | some raw =>
    dsimp only
    rw [passes]
    rfl

theorem expanded_of_passes (name raw : String) :
    (overTree tree known rule).expanded name raw =
      SourceList.expanded (overTree tree known rule).sources name raw := by
  rw [← askedSources_overTree]
  refine expanded_eq (fun name => ?_) name raw
  rw [askedSources_overTree, findInPlaceholder_of_passes passes]

theorem get_of_passes (name : String) :
    (overTree tree known rule).get name =
      SourceList.get (overTree tree known rule).sources name := by
  rw [SourceList.get, get, findSome?_candidates]
  cases SourceList.value? (overTree tree known rule).sources name with
  | none => rfl
  | some raw =>
    dsimp only
    rw [passes, expanded_of_passes passes]
    rfl

theorem getList_of_passes (name : String) :
    (overTree tree known rule).getList name =
      SourceList.getList (overTree tree known rule).sources name := by
  rw [getList, listIn_eq, SourceList.getList, find?_candidates]
  cases declaring : (overTree tree known rule).candidates.find? (·.declares name) with
  | none => rfl
  | some layer =>
    have declares := List.find?_some declaring
    obtain ⟨source, holds⟩ := Option.isSome_iff_exists.mp
      (Layer.isSome_source_of_declares declares)
    dsimp only [Option.bind]
    rw [passes, holds]
    exact ownList_eq (expanded_of_passes passes) holds name

end Passing

section Lenient

variable {tree : LayerTree} {known : Option Profiles} {activeOnly : Bool}

theorem get_lenient (name : String) :
    (overTree tree known ⟨activeOnly, false⟩).get name =
      SourceList.get (overTree tree known ⟨activeOnly, false⟩).sources name :=
  get_of_passes (fun _ => checkInactive_lenient) name

theorem getList_lenient (name : String) :
    (overTree tree known ⟨activeOnly, false⟩).getList name =
      SourceList.getList (overTree tree known ⟨activeOnly, false⟩).sources name :=
  getList_of_passes (fun _ => checkInactive_lenient) name

end Lenient

end Lookup

/-- A lookup of the layers that take part asks the active sources. -/
theorem Lookup.sources_active (tree : LayerTree) (known : Option Profiles) :
    (overTree tree known .active).sources = tree.activeSources known := by
  rw [LayerTree.activeSources, List.filterMap_filter, sources, LookupRule.active,
    candidates_lenient, candidates_strict, List.filter_filter, List.filterMap_filter]
  congr 1
  funext layer
  cases layer.source? <;> cases layer.isActive known <;> rfl

/-! ### Resolved configurations -/

namespace Configuration

/-- The lookup of a configuration asks the sources that the configuration lists. -/
theorem sources_lookup (configuration : Configuration) :
    configuration.lookup.sources = configuration.sources :=
  Lookup.sources_active configuration.tree configuration.known

theorem get_eq (configuration : Configuration) (name : String) :
    configuration.get name = SourceList.get configuration.sources name := by
  rw [← sources_lookup]
  exact Lookup.get_lenient name

theorem getList_eq (configuration : Configuration) (name : String) :
    configuration.getList name = SourceList.getList configuration.sources name := by
  rw [← sources_lookup]
  exact Lookup.getList_lenient name

/-- A configuration answers for every name, by a value, a list or an error, as the list of its
sources does; so two configurations with the same sources give the same answers, whatever else
their trees hold. -/
theorem answers_like_sources (configuration : Configuration) :
    (∀ name, configuration.get name = SourceList.get configuration.sources name ∧
      configuration.getList name = SourceList.getList configuration.sources name) ∧
    ∀ other : Configuration, other.sources = configuration.sources → ∀ name,
      other.get name = configuration.get name ∧
        other.getList name = configuration.getList name := by
  refine ⟨fun name => ⟨configuration.get_eq name, configuration.getList_eq name⟩, ?_⟩
  intro other same name
  rw [get_eq, get_eq, getList_eq, getList_eq, same]
  exact ⟨rfl, rfl⟩

/-- A source without a condition. -/
def shownSource : Source :=
  .ofPairs "shown" [("x", "${y}")]

/-- This source, behind a stronger one that is for a profile. -/
def hidingTable : List (String × Bundle) :=
  [("a", ⟨[.ofPairs "hidden" [("config.activate.on-profile", "prod"), ("x", "secret")],
    shownSource], false⟩)]

/-- The source that imports both. -/
def hidingSource : Source :=
  .ofPairs "s" [("config.import", "a"), ("x[0]", "late"), ("y", "open")]

/-- A source that is imported beside a hidden one, and the same source given from the start. -/
theorem answers_like_sources_hidingTable :
    ∃ first second,
      (resolve (.ofTable hidingTable) [hidingSource] .unset).outcome = .ok first ∧
      (resolve (.ofTable [("a", ⟨[], false⟩)]) [shownSource, hidingSource] .unset).outcome =
        .ok second ∧
      first.tree.layers.map Layer.name = ["hidden", "shown", "s", "root"] ∧
      second.tree.layers.map Layer.name = ["shown", "s", "root"] ∧
      second.sources = first.sources ∧
      ∀ name, second.get name = first.get name ∧ second.getList name = first.getList name := by
  have resolves : (resolve (.ofTable hidingTable) [hidingSource] .unset).outcome.toOption.map
      (fun first => (first.tree.layers.map Layer.name, first.sources)) =
        some (["hidden", "shown", "s", "root"], [shownSource, hidingSource]) := by
    decide +kernel
  have otherResolves : (resolve (.ofTable [("a", ⟨[], false⟩)])
      [shownSource, hidingSource] .unset).outcome.toOption.map
      (fun second => (second.tree.layers.map Layer.name, second.sources)) =
        some (["shown", "s", "root"], [shownSource, hidingSource]) := by
    decide +kernel
  obtain ⟨first, succeeded, read⟩ := exists_ok_of_map resolves
  obtain ⟨second, otherSucceeded, otherRead⟩ := exists_ok_of_map otherResolves
  obtain ⟨layers, sources⟩ := Prod.ext_iff.mp read
  obtain ⟨otherLayers, otherSources⟩ := Prod.ext_iff.mp otherRead
  have same : second.sources = first.sources := otherSources.trans sources.symm
  exact ⟨first, second, succeeded, otherSucceeded, layers, otherLayers, same,
    (answers_like_sources first).2 second same⟩

end Configuration

end LayeredConfig
