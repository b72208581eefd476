/-
This file says what the given sources answer before anything is imported.

The tree of given sources has their layers and the root, and all of these take part. So nothing is
refused or passed over in it, and it answers as the list of its sources does, under every rule. A
source that is given alone lists the elements that it has of a list, as long as nothing has to be
expanded.
-/

import LayeredConfig.Proofs.Growth.Start
import LayeredConfig.Proofs.Lookup.Elements

namespace LayeredConfig

open Text

/-! ### The tree of given sources -/

namespace Lookup

section OfSources

variable {given : List Source} {known : Option Profiles} {rule : LookupRule}

/-- All layers of given sources take part. -/
theorem isActive_ofSources {layer : Layer} (member : layer ∈ (LayerTree.ofSources given).layers) :
    layer.isActive known = true := by
  rw [LayerTree.layers_ofSources, List.mem_append, List.mem_singleton] at member
  rcases member with isInitial | rfl
  · obtain ⟨source, _, role⟩ := LayerTree.role_initialLayers isInitial
    rw [Layer.isActive, role]
  · rfl

theorem checkInactive_ofSources (name : String) :
    (overTree (.ofSources given) known rule).checkInactive name = .ok () := by
  have noOffender : ((LayerTree.ofSources given).layers.find? fun layer =>
      !layer.isActive known && layer.declares name) = none := by
    refine List.find?_eq_none.mpr fun layer member => ?_
    rw [isActive_ofSources member]
    exact Bool.false_ne_true
  unfold checkInactive
  split
  · rfl
  · simp only [overTree, noOffender]

/-- Such a tree asks the given sources, in their order. -/
theorem sources_ofSources : (overTree (.ofSources given) known rule).sources = given := by
  have keepsAll : (overTree (.ofSources given) known rule).candidates =
      (LayerTree.ofSources given).layers.filter (·.source?.isSome) := by
    refine List.filter_congr fun layer member => ?_
    rw [show (overTree (.ofSources given) known rule).known = known from rfl,
      isActive_ofSources member, Bool.or_true, Bool.and_true]
  have dropsNone (layer : Layer) : (if layer.source?.isSome = true then layer.source? else none) =
      layer.source? := by
    cases layer.source? <;> rfl
  rw [sources, keepsAll, List.filterMap_filter, funext dropsNone, LayerTree.layers_ofSources,
    List.filterMap_append]
  exact (List.append_nil _).trans (LayerTree.sources_initialLayers given)

/-- Given sources answer lists as the list of them does. -/
theorem getList_ofSources (name : String) :
    (overTree (.ofSources given) known rule).getList name = SourceList.getList given name := by
  rw [getList_of_passes checkInactive_ofSources, sources_ofSources]

end OfSources

end Lookup

/-! ### One source alone -/

theorem View.hasElements_iff {view : View} {name : String} :
    view.hasElements name = true ↔ view.elementCount name ≠ 0 := by
  rw [hasElements, elementCount, Ne, List.length_eq_zero_iff, List.filter_eq_nil_iff,
    List.any_eq_true]
  push Not
  rfl

namespace SourceList

variable {source : Source} {name : String}

/-- A value without placeholders stands for itself. -/
theorem expanded_of_unopened (sources : List Source) {raw : String}
    (unopened : Placeholder.occursIn raw = false) : expanded sources name raw = .ok raw := by
  rw [expanded, Placeholder.valueOf, unopened, if_neg Bool.false_ne_true]

/-- A source that is alone and has several elements of a list lists them in the order of their
numbers. -/
theorem getList_of_runs {texts : List String} (whole : trimmed name = name)
    (noScalar : source.view.get? name = none) (isSome : texts ≠ [])
    (runs : source.Runs name texts.length)
    (each : ∀ position (inside : position < texts.length),
      source.view.element? name position = some texts[position] ∧
        Placeholder.occursIn texts[position] = false) :
    getList [source] name = .ok (some texts) := by
  have counted := Source.elementCount_of_runs whole runs
  have hasElements : source.view.hasElements name = true := by
    rw [View.hasElements_iff, counted]
    exact mt List.length_eq_zero_iff.mp isSome
  have first : [source].find? (·.view.declares name) = some source := by
    rw [List.find?_cons, View.declares, hasElements, Bool.or_true]
  rw [getList, first]
  refine map_eq_ok.mpr ⟨texts, (ownList_eq_ok noScalar).mpr ⟨counted, ?_⟩, rfl⟩
  intro position inside
  obtain ⟨found, unopened⟩ := each position inside
  exact ⟨_, found, expanded_of_unopened [source] unopened⟩

end SourceList

end LayeredConfig
