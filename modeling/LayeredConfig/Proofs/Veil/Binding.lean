/-
This file binds layers behind the veil.

To bind a layer is to ask its own source, and for placeholders the active sources too. A hidden
source answers by plain text that its steering part holds, so its layer is bound alike with the veil
and without it, to a condition that keeps the layer out. Where all hidden layers are kept out, the
veil covers no active source. So the other layers are bound alike as well, whatever the placeholders
in their sources lead to.
-/

import LayeredConfig.Proofs.Growth.Start
import LayeredConfig.Proofs.Lookup.SourceList
import LayeredConfig.Proofs.Veil.Steering
import LayeredConfig.Proofs.Veil.Tree

namespace LayeredConfig

/-! ### Lookups with a focus -/

namespace Lookup

section Focus

variable {lookup other : Lookup} {layer otherLayer : Layer} {source : Source}

/-- A lookup with a focus expands values as the sources that it asks do. -/
theorem expanded_focus (isFocus : lookup.focus = some layer) (name raw : String) :
    lookup.expanded name raw = SourceList.expanded lookup.askedSources name raw := by
  refine expanded_eq (fun name => ?_) name raw
  rw [findInPlaceholder, findSome?_layers, checkInactive, isFocus, askedSources]
  cases SourceList.value? (lookup.placeholderCandidates.filterMap (·.source?)) name <;> rfl

theorem checkInactive_focus (isFocus : lookup.focus = some layer) (name : String) :
    lookup.checkInactive name = .ok () := by
  rw [checkInactive, isFocus]
  rfl

variable (isFocus : lookup.focus = some layer) (holds : layer.source? = some source)

include isFocus holds

theorem get_focus (name : String) :
    lookup.get name =
      match source.view.get? name with
      | none => .ok none
      | some raw => (SourceList.expanded lookup.askedSources name raw).map some := by
  have supplied : lookup.candidates.findSome? (·.value? name) = source.view.get? name := by
    rw [candidates, isFocus]
    dsimp only
    rw [List.findSome?_cons, Layer.value?, holds, List.findSome?_nil, Option.bind_some]
    cases source.view.get? name <;> rfl
  rw [get, supplied]
  cases source.view.get? name with
  | none => rfl
  | some raw =>
    dsimp only
    rw [checkInactive_focus isFocus, expanded_focus isFocus]
    rfl

theorem getList_focus (name : String) :
    lookup.getList name =
      if source.view.declares name then
        (SourceList.ownList lookup.askedSources source name).map some
      else .ok none := by
  have declares : layer.declares name = source.view.declares name := by
    rw [Layer.declares, holds]
  rw [getList, listIn_eq, candidates, isFocus]
  dsimp only
  rw [List.find?_cons, declares]
  cases source.view.declares name with
  | false => rfl
  | true =>
    dsimp only
    rw [checkInactive_focus isFocus, if_pos rfl,
      ← ownList_eq (expanded_focus isFocus) holds]
    rfl

end Focus

/-- What a layer declares follows from two of its properties. -/
theorem getDeclared_congr {lookup other : Lookup}
    (condition : other.get PropertyName.condition = lookup.get PropertyName.condition)
    (imports : other.getList PropertyName.imports = lookup.getList PropertyName.imports) :
    other.getDeclared = lookup.getDeclared := by
  rw [getDeclared, getDeclared, getCondition, getCondition, condition, getImports, getImports,
    imports]

/-- Layers with one source that ask the same sources declare the same. -/
theorem getDeclared_of_sources {lookup other : Lookup} {layer otherLayer : Layer} {source : Source}
    (isFocus : lookup.focus = some layer) (holds : layer.source? = some source)
    (otherFocus : other.focus = some otherLayer) (otherHolds : otherLayer.source? = some source)
    (asked : other.askedSources = lookup.askedSources) :
    other.getDeclared = lookup.getDeclared := by
  refine getDeclared_congr ?_ ?_
  · rw [get_focus isFocus holds, get_focus otherFocus otherHolds, asked]
  · rw [getList_focus isFocus holds, getList_focus otherFocus otherHolds, asked]

end Lookup

/-! ### Hidden sources -/

namespace SourceList

theorem expanded_of_plain {name raw : String} (isPlain : Placeholder.occursIn raw = false)
    (sources : List Source) : expanded sources name raw = .ok raw := by
  rw [expanded, Placeholder.valueOf, isPlain]
  rfl

section Hidden

variable {profiles : Profiles} {source : Source}

/-- The imports of a hidden source are in its steering part, whatever other sources are asked. -/
theorem ownList_of_hidden (isHidden : source.isHiddenFrom profiles = true)
    (sources others : List Source) :
    ownList others source.steering PropertyName.imports =
      ownList sources source PropertyName.imports := by
  have isSteering : PropertyName.imports ∈ PropertyName.steering := by decide
  have sameElement : element others source.steering PropertyName.imports =
      element sources source PropertyName.imports := by
    funext index
    rw [element, element, source.element?_steering isSteering]
    cases isElement : source.view.element? PropertyName.imports index with
    | none => rfl
    | some raw =>
      have isPlain := Source.plain_of_spelled isHidden isElement (View.spells_element _ _)
      dsimp only
      rw [expanded_of_plain isPlain, expanded_of_plain isPlain]
  rw [ownList, ownList, source.get?_steering isSteering, source.elementCount_steering isSteering,
    sameElement]
  cases isScalar : source.view.get? PropertyName.imports with
  | none => rfl
  | some raw =>
    have isPlain := Source.plain_of_spelled isHidden isScalar (View.spells_canonical _)
    dsimp only
    rw [expanded_of_plain isPlain, expanded_of_plain isPlain]

end Hidden

end SourceList

namespace Lookup

section Hidden

variable {profiles : Profiles} {lookup other : Lookup} {layer otherLayer : Layer} {source : Source}

/-- A layer with a hidden source declares what one with its steering part does. -/
theorem getDeclared_of_hidden (isHidden : source.isHiddenFrom profiles = true)
    (isFocus : lookup.focus = some layer) (holds : layer.source? = some source)
    (otherFocus : other.focus = some otherLayer)
    (otherHolds : otherLayer.source? = some source.steering) :
    other.getDeclared = lookup.getDeclared := by
  refine getDeclared_congr ?_ ?_
  · obtain ⟨text, _, isText, isPlain, _⟩ := Source.condition_of_hidden isHidden
    rw [get_focus isFocus holds, get_focus otherFocus otherHolds,
      source.get?_steering (by decide), isText]
    dsimp only
    rw [SourceList.expanded_of_plain isPlain, SourceList.expanded_of_plain isPlain]
  · rw [getList_focus isFocus holds, getList_focus otherFocus otherHolds,
      source.declares_steering (by decide), SourceList.ownList_of_hidden isHidden]

/-- The condition that a hidden source declares is not met. -/
theorem barred_of_hidden (isHidden : source.isHiddenFrom profiles = true)
    (isFocus : lookup.focus = some layer) (holds : layer.source? = some source)
    {declared : Declared} (succeeded : lookup.getDeclared = .ok declared) :
    Layer.conditionActive (some profiles) declared.condition = false := by
  obtain ⟨text, condition, isText, isPlain, isRead, isUnmet⟩ := Source.condition_of_hidden isHidden
  have isCondition : lookup.getCondition = .ok (some condition) := by
    rw [getCondition, get_focus isFocus holds, isText]
    dsimp only
    rw [SourceList.expanded_of_plain isPlain]
    show (if Text.isBlankText text then _ else Condition.read text >>= _) = _
    rw [Condition.not_blank_of_read isRead, isRead]
    rfl
  obtain ⟨_, same, succeeded⟩ := bind_eq_ok.mp succeeded
  obtain ⟨_, _, succeeded⟩ := bind_eq_ok.mp succeeded
  rw [isCondition] at same
  cases same
  rw [← Except.ok.inj succeeded]
  exact isUnmet

end Hidden

end Lookup

/-! ### Layers that are kept out -/

/-- A layer that was found with a hidden source takes no part. -/
def Role.KeptOut (profiles : Profiles) (role : Role) : Prop :=
  role.origin?.isSome = true → ∀ source, role.source? = some source →
    source.isHiddenFrom profiles = true → role.isActive (some profiles) = false

/-- Every layer that was found with a hidden source takes no part. -/
def LayerTree.KeptOut (profiles : Profiles) (tree : LayerTree) : Prop :=
  ∀ entry ∈ tree.entries, entry.role.KeptOut profiles

section KeptOut

variable {profiles : Profiles} {known : Option Profiles}

/-- The veil covers no role of an active layer, if hidden layers are kept out. -/
theorem Role.mapSource_of_active {role : Role} (keptOut : role.KeptOut profiles)
    (fits : known = none ∨ known = some profiles) (active : role.isActive known = true) :
    role.mapSource (Source.veil profiles) = role := by
  have active : role.isActive (some profiles) = true := by
    rcases fits with rfl | rfl
    · exact isActive_of_unknown active _
    · exact active
  have isShown {source : Source} (isFound : role.origin?.isSome = true)
      (holds : role.source? = some source) : source.veil profiles = source := by
    refine Source.veil_of_shown (Bool.not_eq_true _ ▸ fun isHidden => ?_)
    rw [keptOut isFound source holds isHidden] at active
    cases active
  cases role with
  | root | initial => rfl
  | found origin source => exact congrArg (Role.found origin) (isShown rfl rfl)
  | bound origin source declared =>
    exact congrArg (Role.bound origin · declared) (isShown rfl rfl)
  | expanded origin source declared =>
    exact congrArg (Role.expanded origin · declared) (isShown rfl rfl)

theorem LayerTree.KeptOut.source_of_active {tree : LayerTree} (keptOut : tree.KeptOut profiles)
    (fits : known = none ∨ known = some profiles) {layer : Layer} (member : layer ∈ tree.layers)
    (active : layer.isActive known = true) :
    (layer.mapSources (Source.veil profiles)).source? = layer.source? := by
  have sameRole : layer.role.mapSource (Source.veil profiles) = layer.role :=
    Role.mapSource_of_active (keptOut _ (entry_mem member)) fits (Layer.isActive_eq _ _ ▸ active)
  rw [Layer.source_mapSources, sameRole, Layer.source?]

/-- Behind the veil, the active sources are the same. -/
theorem LayerTree.KeptOut.activeSources_eq {tree : LayerTree} (keptOut : tree.KeptOut profiles)
    (fits : known = none ∨ known = some profiles) :
    (tree.mapSources (Source.veil profiles)).activeSources known = tree.activeSources known := by
  rw [activeSources, activeSources, layers_mapSources, List.filter_map, List.filterMap_map]
  have sameActive : (fun layer : Layer => layer.isActive known) ∘
      Layer.mapSources (Source.veil profiles) = fun layer => layer.isActive known := by
    funext layer
    exact Layer.isActive_mapSources _ layer known
  rw [sameActive]
  refine List.filterMap_congr fun layer member => ?_
  obtain ⟨inTree, active⟩ := List.mem_filter.mp member
  exact keptOut.source_of_active fits inTree active

end KeptOut

end LayeredConfig
