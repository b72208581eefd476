/-
This file says what a list that is written by elements comes to.

The lookup finds the first source that declares the list and asks it for as many elements as it
counts, beginning with the first one. No key of an element is left over then, so the list has all
of them and in the order of their numbers; or some number below the count has no element, and the
lookup fails. Each item is the value of its element, since the sources before that one, which do
not declare the list, hold none of its elements either.
-/

import LayeredConfig.Proofs.Lookup.Depth
import LayeredConfig.Proofs.Lookup.SourceList
import LayeredConfig.Proofs.Property.Indexing

namespace LayeredConfig

open Text

/-! ### Asking a list of sources -/

namespace SourceList

section Elements

variable {sources : List Source} {source : Source} {name : String} {items : List String}

theorem element_eq_ok {index : Nat} {item : String} :
    element sources source name index = .ok item ↔
      ∃ raw, source.view.element? name index = some raw ∧
        expanded sources (elementName name index) raw = .ok item := by
  rw [element]
  cases source.view.element? name index with
  | none => simp
  | some raw => simp

/-- The items of a list are the values of as many elements as the source counts. -/
theorem ownList_eq_ok (noScalar : source.view.get? name = none) :
    ownList sources source name = .ok items ↔
      source.view.elementCount name = items.length ∧
        ∀ position (inside : position < items.length), ∃ raw,
          source.view.element? name position = some raw ∧
            expanded sources (elementName name position) raw = .ok items[position] := by
  simp only [ownList, noScalar, mapM_eq_ok, List.forall₂_iff_get, List.length_range,
    List.get_eq_getElem, List.getElem_range, element_eq_ok]
  refine and_congr_right fun length => ?_
  constructor
  · intro each position inside
    exact each position (by rwa [length]) inside
  · intro each position _ inside
    exact each position inside

variable (whole : trimmed name = name)
  (first : sources.find? (·.view.declares name) = some source)

include whole first

/-- An element of the first source that declares the list is not hidden by a stronger source. -/
theorem get_elementName {index : Nat} (small : index < 0x10000000000000000) {raw : String}
    (found : source.view.element? name index = some raw) :
    get sources (elementName name index) =
      (expanded sources (elementName name index) raw).map some := by
  obtain ⟨_, stronger, weaker, areSources, undeclared⟩ := List.find?_eq_some_iff_append.mp first
  have isRaw : value? sources (elementName name index) = some raw := by
    refine List.findSome?_eq_some_iff.mpr ⟨stronger, source, weaker, areSources, ?_, ?_⟩
    · rw [View.get?_elementName whole, found]
    · intro other member
      rw [View.get?_elementName whole]
      by_contra isElement
      have declares := View.declares_of_element small isElement
      have noDeclaration := undeclared other member
      rw [declares] at noDeclaration
      cases noDeclaration
  rw [get, isRaw]

/-- A list is answered exactly if its items are the values of all elements of the source, in the
order of their numbers. -/
theorem getList_iff_runs (noScalar : source.view.get? name = none)
    (fits : source.entries.length ≤ 0x10000000000000000) :
    getList sources name = .ok (some items) ↔
      source.Runs name items.length ∧
        ∀ position (inside : position < items.length),
          get sources (elementName name position) = .ok (some items[position]) := by
  have isOwn : getList sources name = .ok (some items) ↔
      ownList sources source name = .ok items := by
    rw [getList, first]
    simp [map_eq_ok]
  rw [isOwn, ownList_eq_ok noScalar, Source.runs_iff whole fits, and_assoc]
  refine and_congr_right fun length => ?_
  have small {position : Nat} (inside : position < items.length) :
      position < 0x10000000000000000 :=
    inside.trans_le (length ▸ (Source.elementCount_le source name).trans fits)
  constructor
  · intro each
    refine ⟨fun position inside => ?_, fun position inside => ?_⟩
    · obtain ⟨raw, found, _⟩ := each position inside
      exact Option.ne_none_iff_exists'.mpr ⟨raw, found⟩
    · obtain ⟨raw, found, isItem⟩ := each position inside
      rw [get_elementName whole first (small inside) found, isItem]
      rfl
  · rintro ⟨found, each⟩ position inside
    obtain ⟨raw, isRaw⟩ := Option.ne_none_iff_exists'.mp (found position inside)
    have isItem := each position inside
    rw [get_elementName whole first (small inside) isRaw] at isItem
    obtain ⟨item, isExpanded, same⟩ := map_eq_ok.mp isItem
    exact ⟨raw, isRaw, Option.some.inj same ▸ isExpanded⟩

end Elements

end SourceList

/-! ### Lookups that do not refuse -/

namespace Lookup

/-- If the first layer that declares a list holds no scalar for it, then a list is answered exactly
if it has the values of all elements that the layer holds, which run from the first one on and
without a gap. If they do not run so, the lookup fails. No source has more entries than a machine
word can count. -/
theorem lists_elements_in_order {tree : LayerTree} {known : Option Profiles} {activeOnly : Bool}
    {name : String} {layer : Layer} {source : Source} (whole : trimmed name = name)
    (provides : (overTree tree known ⟨activeOnly, false⟩).provider? name = some layer)
    (holds : layer.source? = some source) (noScalar : source.view.get? name = none)
    (fits : source.entries.length ≤ 0x10000000000000000) :
    (∀ items, (overTree tree known ⟨activeOnly, false⟩).getList name = .ok (some items) ↔
      source.Runs name items.length ∧
        ∀ position (inside : position < items.length),
          (overTree tree known ⟨activeOnly, false⟩).get (elementName name position) =
            .ok (some items[position])) ∧
    ((¬∃ count, source.Runs name count) →
      ∃ cause, (overTree tree known ⟨activeOnly, false⟩).getList name = .error cause) := by
  have first : (overTree tree known ⟨activeOnly, false⟩).sources.find? (·.view.declares name) =
      some source := by
    rw [find?_candidates, show (overTree tree known ⟨activeOnly, false⟩).candidates.find?
      (·.declares name) = some layer from provides, Option.bind_some, holds]
  simp only [getList_lenient, get_lenient]
  refine ⟨fun items => SourceList.getList_iff_runs whole first noScalar fits, fun noRun => ?_⟩
  cases outcome : SourceList.getList (overTree tree known ⟨activeOnly, false⟩).sources name with
  | error cause => exact ⟨cause, rfl⟩
  | ok answer =>
    have isList := outcome
    rw [SourceList.getList, first] at isList
    obtain ⟨items, _, rfl⟩ := map_eq_ok.mp isList
    obtain ⟨runs, _⟩ := (SourceList.getList_iff_runs whole first noScalar fits).mp outcome
    exact absurd ⟨_, runs⟩ noRun

/-- A source with a list in two spellings, and with one that has a gap. -/
def elementsSource : Source :=
  .ofPairs "strong" [("app.Hosts[1]", "${name}-b"), ("ports[0]", "1"), ("app.hosts[0]", "a"),
    ("ports[2]", "3")]

/-- This source before one with more elements and with a scalar. -/
def elementsTree : LayerTree :=
  .ofSources [elementsSource,
    .ofPairs "weak" [("app.hosts[2]", "c"), ("name", "n"), ("ports", "4")]]

/-- The list has the two elements of the stronger source, and the one with a gap cannot be read. -/
theorem lists_elements_in_order_elementsTree :
    (overTree elementsTree none .active).getList "app.hosts" = .ok (some ["a", "n-b"]) ∧
    elementsSource.Runs "app.hosts" 2 ∧
    (overTree elementsTree none .active).get (elementName "app.hosts" 1) = .ok (some "n-b") ∧
    (¬∃ count, elementsSource.Runs "ports" count) ∧
    ∃ cause, (overTree elementsTree none .active).getList "ports" = .error cause := by
  have listed : (overTree elementsTree none .active).getList "app.hosts" =
      .ok (some ["a", "n-b"]) :=
    getList_of_getListWithin (by decide +kernel)
  have provided (name : String) (isList : name = "app.hosts" ∨ name = "ports") :
      ((overTree elementsTree none .active).provider? name).bind (·.source?) =
        some elementsSource := by
    rcases isList with rfl | rfl <;> decide +kernel
  obtain ⟨layer, provides, holds⟩ := Option.bind_eq_some_iff.mp (provided _ (Or.inl rfl))
  obtain ⟨other, otherProvides, otherHolds⟩ := Option.bind_eq_some_iff.mp (provided _ (Or.inr rfl))
  have fits : elementsSource.entries.length ≤ 0x10000000000000000 := by decide +kernel
  have hasGap : ¬∃ count, elementsSource.Runs "ports" count := by
    rintro ⟨count, runs⟩
    obtain ⟨position, below, same⟩ := (runs "2").mp ⟨by decide +kernel, "ports[2]",
      by decide +kernel, rfl⟩
    have isTwo : position = 2 := View.toString_injective same
    obtain ⟨_, missing⟩ := (runs "1").mpr ⟨1, by omega, rfl⟩
    exact absurd missing (by decide +kernel)
  obtain ⟨runs, each⟩ := ((lists_elements_in_order (by decide +kernel) provides holds
    (by decide +kernel) fits).1 _).mp listed
  exact ⟨listed, runs, each 1 (by decide), hasGap,
    (lists_elements_in_order (by decide +kernel) otherProvides otherHolds (by decide +kernel)
      fits).2 hasGap⟩

end Lookup

end LayeredConfig
