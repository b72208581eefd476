/-
This file compares the explanation of a property with its value.

A value comes from the first source that holds the name as a scalar, a list from the first source
that declares it in either way, and so does an explanation. Where the first source that declares a
name has it as a scalar, the explanation is that of the value; where it has elements only, the
explanation is that of the list. The value may then come from a weaker source, so that the
explanation names another source than the one that supplies it.
-/

import LayeredConfig.Proofs.Lookup.SourceList

namespace LayeredConfig

namespace Configuration

/-! ### The source that is explained -/

/-- The layer that supplies a property holds the first source that declares it. -/
theorem source_of_provider (configuration : Configuration) (name : String) :
    (configuration.lookup.provider? name).bind (·.source?) =
      configuration.sources.find? (·.view.declares name) := by
  rw [← sources_lookup, Lookup.find?_candidates]
  rfl

section First

variable {configuration : Configuration} {name : String} {source : Source}

theorem provider_of_first
    (first : configuration.sources.find? (·.view.declares name) = some source) :
    ∃ layer, configuration.lookup.provider? name = some layer ∧ layer.source? = some source := by
  rw [← source_of_provider] at first
  exact Option.bind_eq_some_iff.mp first

/-- A scalar of the first source that declares a name is explained by the value of the name. -/
theorem explain_of_scalar {raw : String}
    (first : configuration.sources.find? (·.view.declares name) = some source)
    (scalar : source.view.get? name = some raw) :
    ∃ layer : Layer, layer.source? = some source ∧ configuration.explain name =
      (configuration.get name).map fun value =>
        some (explanation layer name (value.getD raw) raw) := by
  obtain ⟨layer, provides, holds⟩ := provider_of_first first
  have value : layer.value? name = some raw := by
    rw [Layer.value?, holds]
    exact scalar
  refine ⟨layer, holds, ?_⟩
  rw [explain, provides]
  dsimp only
  rw [value]
  dsimp only
  rw [← get]
  cases configuration.get name <;> rfl

/-- Elements of the first source that declares a name are explained by the list of the name. -/
theorem explain_of_elements
    (first : configuration.sources.find? (·.view.declares name) = some source)
    (elements : source.view.get? name = none) :
    ∃ layer : Layer, layer.source? = some source ∧ configuration.explain name =
      (configuration.getList name).map fun items =>
        let raw := rawElements source.view name
        some (explanation layer name ((items.map (String.intercalate ",")).getD raw) raw) := by
  obtain ⟨layer, provides, holds⟩ := provider_of_first first
  have noValue : layer.value? name = none := by
    rw [Layer.value?, holds]
    exact elements
  refine ⟨layer, holds, ?_⟩
  rw [explain, provides]
  dsimp only
  rw [noValue, holds]
  dsimp only
  rw [← getList]
  rcases configuration.getList name with cause | (_ | items) <;> rfl

/-- If the first source that declares a name has a scalar, no stronger source has one. -/
theorem first_of_scalar (sources : List Source) {raw : String}
    (first : sources.find? (·.view.declares name) = some source)
    (scalar : source.view.get? name = some raw) :
    sources.find? (·.view.contains name) = some source := by
  obtain ⟨_, stronger, weaker, split, undeclared⟩ := List.find?_eq_some_iff_append.mp first
  refine List.find?_eq_some_iff_append.mpr
    ⟨Option.isSome_iff_exists.mpr ⟨raw, scalar⟩, stronger, weaker, split, fun other member => ?_⟩
  have := undeclared other member
  rw [View.declares, Bool.not_or, Bool.and_eq_true] at this
  exact this.1

end First

/-! ### Names without a source -/

section None

variable {configuration : Configuration} {name : String}

theorem explain_of_none (noSource : configuration.sources.find? (·.view.declares name) = none) :
    configuration.explain name = .ok none := by
  rw [← source_of_provider] at noSource
  rw [explain]
  cases provides : configuration.lookup.provider? name with
  | none => rfl
  | some layer =>
    rw [provides, Option.bind_some] at noSource
    rw [Lookup.provider?] at provides
    have declares := List.find?_some provides
    have isSome := Layer.isSome_source_of_declares declares
    rw [noSource] at isSome
    cases isSome

theorem get_of_none (noSource : configuration.sources.find? (·.view.declares name) = none) :
    configuration.get name = .ok none := by
  have noValue : SourceList.value? configuration.sources name = none := by
    rw [SourceList.value?, List.findSome?_eq_none_iff]
    intro source member
    have undeclared := List.find?_eq_none.mp noSource source member
    rw [View.declares, Bool.or_eq_true, not_or, View.contains, Option.not_isSome_iff_eq_none]
      at undeclared
    exact undeclared.1
  rw [get_eq, SourceList.get, noValue]

theorem getList_of_none (noSource : configuration.sources.find? (·.view.declares name) = none) :
    configuration.getList name = .ok none := by
  rw [getList_eq, SourceList.getList, noSource]

/-- A list of a declared name is not absent. -/
theorem getList_ne_none {source : Source}
    (first : configuration.sources.find? (·.view.declares name) = some source) :
    configuration.getList name ≠ .ok none := by
  rw [getList_eq, SourceList.getList, first]
  dsimp only
  intro absent
  cases isList : SourceList.ownList configuration.sources source name with
  | error cause =>
    rw [isList] at absent
    cases absent
  | ok items =>
    rw [isList] at absent
    cases absent

end None

/-! ### Explanations and values -/

/-- How the explanation of a name follows from the value and the list of the name. -/
structure Explained (configuration : Configuration) (name : String) : Prop where
  /-- There is no explanation exactly if there is neither a value nor a list. -/
  absent : configuration.explain name = .ok none ↔
    configuration.get name = .ok none ∧ configuration.getList name = .ok none
  /-- A value is explained if the first source that declares the name has it as a scalar; this
  source is then the first one that holds the name. -/
  value : ∀ source raw value,
    configuration.sources.find? (·.view.declares name) = some source →
    source.view.get? name = some raw → configuration.get name = .ok (some value) →
    configuration.sources.find? (·.view.contains name) = some source ∧
      ∃ explanation, configuration.explain name = .ok (some explanation) ∧
        explanation.value = value ∧ explanation.source = source.name ∧ explanation.rawValue = raw
  /-- A list is explained if the first source that declares the name has elements only. -/
  list : ∀ source items,
    configuration.sources.find? (·.view.declares name) = some source →
    source.view.get? name = none → configuration.getList name = .ok (some items) →
    ∃ explanation, configuration.explain name = .ok (some explanation) ∧
      explanation.value = String.intercalate "," items ∧ explanation.source = source.name ∧
      explanation.rawValue = rawElements source.view name
  /-- An explanation fails only as the value or the list does. -/
  failure : ∀ cause, configuration.explain name = .error cause →
    configuration.get name = .error cause ∨ configuration.getList name = .error cause

theorem name_of_source {layer : Layer} {source : Source} (holds : layer.source? = some source) :
    layer.name = source.name := by
  rw [Layer.name, holds]

/-- A property is explained by its value or by its list, as the first source that declares it has
it, and it is without explanation exactly if it has neither. -/
theorem explained_by_first (configuration : Configuration) (name : String) :
    configuration.Explained name where
  absent := by
    cases first : configuration.sources.find? (·.view.declares name) with
    | none => exact iff_of_true (explain_of_none first) ⟨get_of_none first, getList_of_none first⟩
    | some source =>
      refine iff_of_false ?_ fun absent => getList_ne_none first absent.2
      cases scalar : source.view.get? name with
      | some raw =>
        obtain ⟨layer, _, explains⟩ := explain_of_scalar first scalar
        rw [explains]
        cases configuration.get name <;> exact nofun
      | none =>
        obtain ⟨layer, _, explains⟩ := explain_of_elements first scalar
        rw [explains]
        cases configuration.getList name <;> exact nofun
  value source raw value first scalar isValue := by
    obtain ⟨layer, holds, explains⟩ := explain_of_scalar first scalar
    rw [isValue] at explains
    exact ⟨first_of_scalar _ first scalar, _, explains, rfl, name_of_source holds, rfl⟩
  list source items first elements isList := by
    obtain ⟨layer, holds, explains⟩ := explain_of_elements first elements
    rw [isList] at explains
    exact ⟨_, explains, rfl, name_of_source holds, rfl⟩
  failure cause failed := by
    cases first : configuration.sources.find? (·.view.declares name) with
    | none =>
      rw [explain_of_none first] at failed
      cases failed
    | some source =>
      cases scalar : source.view.get? name with
      | some raw =>
        obtain ⟨layer, _, explains⟩ := explain_of_scalar first scalar
        exact Or.inl (map_eq_error.mp (explains.symm.trans failed))
      | none =>
        obtain ⟨layer, _, explains⟩ := explain_of_elements first scalar
        exact Or.inr (map_eq_error.mp (explains.symm.trans failed))

/-- A source with elements of two lists and with a scalar. -/
def mixedSource : Source :=
  .ofPairs "a" [("k[0]", "x"), ("l[0]", "1"), ("l[1]", "2"), ("m", "1, 2")]

/-- This source before one that has scalars where it has elements. -/
def mixedSources : List Source :=
  [mixedSource, .ofPairs "b" [("k", "y"), ("m", "3")]]

/-- Of the stronger source, a scalar is explained by its value and elements by their list. -/
theorem explained_by_first_mixedSources :
    ∃ configuration, (resolve (.ofTable []) mixedSources .unset).outcome = .ok configuration ∧
      (∃ explanation, configuration.explain "m" = .ok (some explanation) ∧
        explanation.value = "1, 2" ∧ explanation.source = "a" ∧ explanation.rawValue = "1, 2") ∧
      ∃ explanation, configuration.explain "l" = .ok (some explanation) ∧
        explanation.value = "1,2" ∧ explanation.source = "a" ∧ explanation.rawValue = "1,2" := by
  have resolves : (resolve (.ofTable []) mixedSources .unset).outcome.toOption.map
      (fun configuration => (configuration.sources, configuration.get "m",
        configuration.getList "l")) =
        some (mixedSources, .ok (some "1, 2"), .ok (some ["1", "2"])) := by
    decide +kernel
  obtain ⟨configuration, succeeded, answers⟩ := exists_ok_of_map resolves
  obtain ⟨sources, values⟩ := Prod.ext_iff.mp answers
  obtain ⟨isValue, isList⟩ := Prod.ext_iff.mp values
  have first (name : String) : configuration.sources.find? (·.view.declares name) =
      mixedSources.find? (·.view.declares name) := by
    rw [show configuration.sources = mixedSources from sources]
  refine ⟨configuration, succeeded, ?_, ?_⟩
  · exact ((explained_by_first configuration "m").value mixedSource "1, 2" "1, 2"
      ((first "m").trans (by decide +kernel)) (by decide +kernel) isValue).2
  · exact (explained_by_first configuration "l").list mixedSource ["1", "2"]
      ((first "l").trans (by decide +kernel)) (by decide +kernel) isList

/-- An element in a stronger source is explained although a weaker source supplies the value. -/
theorem explained_by_stronger_element :
    ¬ ∀ (repository : Repository) (initial : List Source) (request : ProfileRequest)
        (configuration : Configuration),
      (resolve repository initial request).outcome = .ok configuration →
      ∀ name value, configuration.get name = .ok (some value) →
        ∃ explanation source, configuration.explain name = .ok (some explanation) ∧
          explanation.value = value ∧
          configuration.sources.find? (·.view.contains name) = some source ∧
          explanation.source = source.name ∧
          source.view.get? name = some explanation.rawValue := by
  intro explainsValue
  have resolves : (resolve (.ofTable []) mixedSources .unset).outcome.toOption.map
      (fun configuration => (configuration.get "k",
        (configuration.explain "k").map (·.map (·.value)))) =
        some (.ok (some "y"), .ok (some "x")) := by
    decide +kernel
  obtain ⟨configuration, succeeded, answers⟩ := exists_ok_of_map resolves
  obtain ⟨isValue, isExplained⟩ := Prod.ext_iff.mp answers
  obtain ⟨explanation, _, explains, same, _⟩ :=
    explainsValue _ _ _ configuration succeeded "k" "y" isValue
  dsimp only at isExplained
  rw [explains] at isExplained
  have other : explanation.value = "x" := Option.some.inj (Except.ok.inj isExplained)
  exact absurd (same.symm.trans other) (by decide)

end Configuration

end LayeredConfig
