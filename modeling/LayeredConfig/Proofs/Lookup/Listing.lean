/-
This file says what a configuration lists.

Each name is listed once, in its first spelling: the sources are gone through from the strongest to
the weakest, and each of them from its first key to its last. The value is the one that the
configuration answers for that spelling. It is the answer for every other spelling as well, since
spellings of one name have the same raw text, and an expansion that stops at a circle for one
spelling does so for all; so a listing fails exactly if the answer for some key does.
-/

import LayeredConfig.Proofs.Lookup.Circle
import LayeredConfig.Proofs.Lookup.Depth
import LayeredConfig.Proofs.Lookup.SourceList
import LayeredConfig.Proofs.Property.Pairs

namespace LayeredConfig

/-! ### Spellings of one name -/

/-- What the raw value of a name is expanded to is what it stands for. -/
theorem Placeholder.expand_iff_means {find : String → Option String} {declared : List String}
    {name raw : String} (value : List Char)
    (alike : ∀ one other, canonical one = canonical other → find one = find other)
    (finds : ∀ key raw, find key = some raw → canonical key ∈ declared)
    (present : find name = some raw) :
    expand (sure find) (without (canonical name) declared) [name] raw.toList = .ok value ↔
      Means find raw.toList value := by
  cases outcome : expand (sure find) (without (canonical name) declared) [name] raw.toList with
  | ok expanded =>
    have means := means_of_expand _ _ _ _ outcome
    constructor
    · rintro ⟨⟩
      exact means
    · intro also
      rw [means.unique also]
  | error cause =>
    obtain ⟨_, nothing⟩ := isCircle_of_error alike finds present outcome
    constructor
    · rintro ⟨⟩
    · intro means
      exact absurd ⟨value, means⟩ nothing

namespace Lookup

open Placeholder

variable {tree : LayerTree} {known : Option Profiles} {activeOnly : Bool}

theorem get_of_raw_none {name : String}
    (noRaw : (overTree tree known ⟨activeOnly, false⟩).raw? name = none) :
    (overTree tree known ⟨activeOnly, false⟩).get name = .ok none := by
  rw [get, show (overTree tree known ⟨activeOnly, false⟩).candidates.findSome? (·.value? name) =
    none from noRaw]

/-- A lookup that does not refuse comes to the same value for two spellings of a name. -/
theorem get_alike {one other : String} (same : canonical one = canonical other)
    (value : Option String) :
    (overTree tree known ⟨activeOnly, false⟩).get one = .ok value ↔
      (overTree tree known ⟨activeOnly, false⟩).get other = .ok value := by
  cases hasRaw : (overTree tree known ⟨activeOnly, false⟩).raw? one with
  | none => rw [get_of_raw_none hasRaw, get_of_raw_none ((raw_alike _ same).symm.trans hasRaw)]
  | some raw =>
    have otherRaw := (raw_alike _ same).symm.trans hasRaw
    have means {name : String} (isRaw : (overTree tree known ⟨activeOnly, false⟩).raw? name =
        some raw) (value : List Char) :=
      expand_iff_means value (fun _ _ => raw_alike _) (fun _ _ => mem_declaredNames) isRaw
    simp only [get_eq_expand hasRaw, get_eq_expand otherRaw, map_eq_ok, means hasRaw,
      means otherRaw]

end Lookup

/-! ### First spellings -/

/-- The first spelling of a name among the keys of a source. -/
def Source.spelling? (source : Source) (name : String) : Option String :=
  source.keys.find? fun key => canonical key == canonical name

namespace Configuration

section FirstSpellings

variable {seen : List String} {declared : List (String × String)}

/-- What is kept for a name is the first pair that spells it. -/
theorem mem_firstSpellings {pair : String × String} :
    pair ∈ firstSpellings seen declared ↔
      canonical pair.1 ∉ seen ∧
        declared.find? (fun other => canonical other.1 == canonical pair.1) = some pair := by
  induction declared generalizing seen with
  | nil => simp [firstSpellings]
  | cons first rest inductionHypothesis =>
    rw [firstSpellings, List.find?_cons]
    by_cases isSeen : canonical first.1 ∈ seen
    · rw [if_pos (List.contains_iff_mem.mpr isSeen), inductionHypothesis]
      refine and_congr_right fun unseen => ?_
      have differs : canonical first.1 ≠ canonical pair.1 :=
        fun same => unseen (same ▸ isSeen)
      rw [beq_eq_false_iff_ne.mpr differs]
    · rw [if_neg (mt List.contains_iff_mem.mp isSeen), List.mem_cons, inductionHypothesis,
        List.mem_cons, not_or]
      by_cases same : canonical first.1 = canonical pair.1
      · rw [beq_iff_eq.mpr same, same]
        constructor
        · rintro (rfl | ⟨⟨differs, _⟩, _⟩)
          · exact ⟨isSeen, rfl⟩
          · exact absurd rfl differs
        · rintro ⟨_, ⟨⟩⟩
          exact Or.inl rfl
      · rw [beq_eq_false_iff_ne.mpr same]
        constructor
        · rintro (rfl | ⟨⟨_, unseen⟩, isFirst⟩)
          · exact absurd rfl same
          · exact ⟨unseen, isFirst⟩
        · rintro ⟨unseen, isFirst⟩
          exact Or.inr ⟨⟨Ne.symm same, unseen⟩, isFirst⟩

/-- No two of the pairs that are kept spell one name. -/
theorem nodup_firstSpellings (seen : List String) (declared : List (String × String)) :
    ((firstSpellings seen declared).map fun pair => canonical pair.1).Nodup := by
  induction declared generalizing seen with
  | nil => exact List.nodup_nil
  | cons first rest inductionHypothesis =>
    rw [firstSpellings]
    split
    · exact inductionHypothesis seen
    · refine List.nodup_cons.mpr ⟨fun again => ?_, inductionHypothesis _⟩
      obtain ⟨later, member, same⟩ := List.mem_map.mp again
      exact (mem_firstSpellings.mp member).1 (same ▸ List.mem_cons_self)

end FirstSpellings

/-- The keys of the sources of a configuration, each with the name of its source. -/
def spellings (configuration : Configuration) : List (String × String) :=
  configuration.sources.flatMap fun source =>
    source.entries.map fun entry => (entry.1, source.name)

theorem mem_spellings {configuration : Configuration} {pair : String × String} :
    pair ∈ configuration.spellings ↔
      ∃ source ∈ configuration.sources, pair.1 ∈ source.keys ∧ pair.2 = source.name := by
  rw [spellings, List.mem_flatMap]
  refine exists_congr fun source => and_congr_right fun _ => ?_
  rw [Source.keys, List.mem_map, List.mem_map]
  constructor
  · rintro ⟨entry, member, rfl⟩
    exact ⟨⟨entry, member, rfl⟩, rfl⟩
  · rintro ⟨⟨entry, member, isKey⟩, isName⟩
    exact ⟨entry, member, Prod.ext isKey isName.symm⟩

/-- Some spelling is kept of each name that a source of the configuration spells. -/
theorem exists_mem_firstSpellings {configuration : Configuration} {source : Source} {key : String}
    (isSource : source ∈ configuration.sources) (isKey : key ∈ source.keys) :
    ∃ pair ∈ firstSpellings [] configuration.spellings, canonical pair.1 = canonical key := by
  have isSpelled : (configuration.spellings.find? fun other =>
      canonical other.1 == canonical key).isSome = true := by
    rw [List.find?_isSome]
    exact ⟨(key, source.name), mem_spellings.mpr ⟨source, isSource, isKey, rfl⟩, beq_self_eq_true _⟩
  obtain ⟨pair, isFirst⟩ := Option.isSome_iff_exists.mp isSpelled
  have spells := List.find?_some isFirst
  have same : canonical pair.1 = canonical key := beq_iff_eq.mp spells
  refine ⟨pair, mem_firstSpellings.mpr ⟨List.not_mem_nil, ?_⟩, same⟩
  rw [same]
  exact isFirst

/-- The first spelling of a name is that of the first source that spells it. -/
theorem find?_spellings {configuration : Configuration} {name : String} {pair : String × String}
    (first : configuration.spellings.find? (fun other => canonical other.1 == canonical name) =
      some pair) :
    ∃ source,
      configuration.sources.find? (fun source => (source.spelling? name).isSome) = some source ∧
        source.spelling? name = some pair.1 ∧ pair.2 = source.name := by
  have spelled (source : Source) :
      (source.entries.map fun entry => (entry.1, source.name)).find?
          (fun other => canonical other.1 == canonical name) =
        (source.spelling? name).map fun key => (key, source.name) := by
    rw [Source.spelling?, Source.keys, List.find?_map, List.find?_map, Option.map_map]
    rfl
  rw [spellings, List.find?_flatMap, funext spelled, List.findSome?_eq_some_iff] at first
  obtain ⟨stronger, source, weaker, areSources, isFirst, unspelled⟩ := first
  obtain ⟨key, isKey, rfl⟩ := Option.map_eq_some_iff.mp isFirst
  refine ⟨source, List.find?_eq_some_iff_append.mpr ⟨?_, stronger, weaker, areSources, ?_⟩, isKey,
    rfl⟩
  · rw [isKey]
    rfl
  · intro other member
    rw [Option.map_eq_none_iff.mp (unspelled other member)]
    rfl

/-! ### Values -/

section Values

variable {lookup : Lookup} {pairs : List (String × String)} {properties : List Effective}

/-- What is listed has the given names and sources, and the values that the lookup comes to. -/
theorem of_effectiveOf (succeeded : effectiveOf lookup pairs = .ok properties) :
    properties.map (fun property => (property.name, property.source)) = pairs ∧
      ∀ property ∈ properties, ∃ value,
        lookup.get property.name = .ok value ∧ property.value = value.getD "" := by
  induction pairs generalizing properties with
  | nil =>
    cases succeeded
    exact ⟨rfl, fun _ member => absurd member List.not_mem_nil⟩
  | cons pair rest inductionHypothesis =>
    obtain ⟨value, isValue, succeeded⟩ := bind_eq_ok.mp succeeded
    obtain ⟨others, areOthers, succeeded⟩ := bind_eq_ok.mp succeeded
    cases succeeded
    obtain ⟨same, valued⟩ := inductionHypothesis areOthers
    refine ⟨congrArg (pair :: ·) same, List.forall_mem_cons.mpr ⟨⟨value, isValue, rfl⟩, valued⟩⟩

theorem effectiveOf_fails_iff :
    (∃ cause, effectiveOf lookup pairs = .error cause) ↔
      ∃ pair ∈ pairs, ∃ cause, lookup.get pair.1 = .error cause := by
  induction pairs with
  | nil =>
    constructor
    · rintro ⟨_, ⟨⟩⟩
    · rintro ⟨_, ⟨⟩, _⟩
  | cons pair rest inductionHypothesis =>
    rw [List.exists_mem_cons_iff, ← inductionHypothesis]
    constructor
    · rintro ⟨cause, failed⟩
      rcases bind_eq_error.mp failed with isFirst | ⟨_, _, failed⟩
      · exact Or.inl ⟨cause, isFirst⟩
      · rcases bind_eq_error.mp failed with inRest | ⟨_, _, ⟨⟩⟩
        exact Or.inr ⟨cause, inRest⟩
    · rintro (⟨cause, isFirst⟩ | ⟨cause, inRest⟩)
      · exact ⟨cause, bind_eq_error.mpr (Or.inl isFirst)⟩
      · cases outcome : lookup.get pair.1 with
        | error earlier => exact ⟨earlier, bind_eq_error.mpr (Or.inl outcome)⟩
        | ok value =>
          exact ⟨cause, bind_eq_error.mpr
            (Or.inr ⟨value, outcome, bind_eq_error.mpr (Or.inl inRest)⟩)⟩

end Values

/-! ### The listing -/

/-- The properties are those in force in a configuration, sorted by name. -/
structure Lists (configuration : Configuration) (properties : List Effective) : Prop where
  sorted : properties.Pairwise fun earlier later => earlier.name < later.name
  complete : ∀ source ∈ configuration.sources, ∀ key ∈ source.keys,
    ∃! property, property ∈ properties ∧ canonical property.name = canonical key
  sound : ∀ property ∈ properties, ∃ source,
    configuration.sources.find? (fun source => (source.spelling? property.name).isSome) =
        some source ∧
      source.spelling? property.name = some property.name ∧ property.source = source.name ∧
      configuration.get property.name = .ok (some property.value)

namespace Lists

variable {configuration : Configuration} {properties others : List Effective}

theorem nodup (lists : configuration.Lists properties) : properties.Nodup :=
  lists.sorted.imp fun before same => absurd (same ▸ before) (String.lt_irrefl _)

theorem subset (lists : configuration.Lists properties) (also : configuration.Lists others) :
    properties ⊆ others := by
  intro property member
  obtain ⟨source, isFirst, isSpelling, isName, isValue⟩ := lists.sound property member
  obtain ⟨other, ⟨otherMember, same⟩, _⟩ := also.complete source
    (List.mem_of_find?_eq_some isFirst) property.name (List.mem_of_find?_eq_some isSpelling)
  obtain ⟨_, otherFirst, otherSpelling, otherName, otherValue⟩ := also.sound other otherMember
  have spelledAlike (source : Source) :
      source.spelling? other.name = source.spelling? property.name := by
    rw [Source.spelling?, Source.spelling?, same]
  simp only [spelledAlike] at otherFirst otherSpelling
  cases isFirst.symm.trans otherFirst
  have sameName : property.name = other.name :=
    Option.some.inj (isSpelling.symm.trans otherSpelling)
  have sameValue : property.value = other.value := by
    rw [← sameName] at otherValue
    exact Option.some.inj (Except.ok.inj (isValue.symm.trans otherValue))
  have sameSource : property.source = other.source := isName.trans otherName.symm
  cases property
  cases other
  cases sameName
  cases sameValue
  cases sameSource
  exact otherMember

/-- A configuration has only one listing. -/
theorem unique (lists : configuration.Lists properties) (also : configuration.Lists others) :
    properties = others := by
  have samePerm : properties.Perm others :=
    (List.perm_ext_iff_of_nodup lists.nodup also.nodup).mpr fun _ =>
      ⟨fun member => lists.subset also member, fun member => also.subset lists member⟩
  refine samePerm.eq_of_pairwise (fun earlier later _ _ before after => ?_) lists.sorted also.sorted
  exact absurd (String.lt_trans before after) (String.lt_irrefl _)

end Lists

section Listing

variable {configuration : Configuration}

theorem effective_eq (configuration : Configuration) :
    configuration.effective =
      (effectiveOf configuration.lookup (firstSpellings [] configuration.spellings)).map
        fun properties => properties.mergeSort fun first second =>
          decide (first.name ≤ second.name) := by
  rw [effective, spellings]
  cases effectiveOf configuration.lookup _ <;> rfl

/-- Properties of different names are brought into ascending order. -/
theorem ascending_mergeSort {properties : List Effective}
    (distinct : (properties.map fun property => canonical property.name).Nodup) :
    (properties.mergeSort fun first second => decide (first.name ≤ second.name)).Pairwise
      fun earlier later => earlier.name < later.name := by
  have ascending : (properties.mergeSort fun first second =>
      decide (first.name ≤ second.name)).Pairwise fun first second =>
        decide (first.name ≤ second.name) = true :=
    List.pairwise_mergeSort (by simpa using fun _ _ _ => String.le_trans)
      (by simpa using fun _ _ => String.le_total _ _) properties
  have apart := (List.mergeSort_perm properties fun first second =>
    decide (first.name ≤ second.name)).symm.pairwise (List.pairwise_map.mp distinct) Ne.symm
  refine (ascending.and apart).imp fun {earlier later} both => ?_
  exact Std.lt_of_le_of_ne (of_decide_eq_true both.1) fun same => both.2 (congrArg canonical same)

/-- A configuration has a value for each key of its sources, if it has an answer. -/
theorem get_key {source : Source} {key : String} {value : Option String}
    (isSource : source ∈ configuration.sources) (isKey : key ∈ source.keys)
    (answered : configuration.get key = .ok value) : ∃ held, value = some held := by
  rw [get_eq, SourceList.get] at answered
  split at answered
  · next unheld =>
    rw [SourceList.value?, List.findSome?_eq_none_iff] at unheld
    obtain ⟨⟨_, held⟩, isEntry, rfl⟩ := List.mem_map.mp isKey
    exact absurd (unheld source isSource) (View.get?_ne_none isEntry)
  · obtain ⟨held, _, same⟩ := map_eq_ok.mp answered
    exact ⟨held, same.symm⟩

theorem effective_fails_iff :
    (∃ cause, configuration.effective = .error cause) ↔
      ∃ source ∈ configuration.sources, ∃ key ∈ source.keys, ∃ cause,
        configuration.get key = .error cause := by
  simp only [effective_eq, map_eq_error, effectiveOf_fails_iff]
  constructor
  · rintro ⟨pair, isFirst, failed⟩
    have isSpelled := List.mem_of_find?_eq_some (mem_firstSpellings.mp isFirst).2
    obtain ⟨source, isSource, isKey, _⟩ := mem_spellings.mp isSpelled
    exact ⟨source, isSource, pair.1, isKey, failed⟩
  · rintro ⟨source, isSource, key, isKey, cause, failed⟩
    obtain ⟨pair, isFirst, same⟩ := exists_mem_firstSpellings isSource isKey
    refine ⟨pair, isFirst, ?_⟩
    cases outcome : configuration.lookup.get pair.1 with
    | error earlier => exact ⟨earlier, rfl⟩
    | ok value =>
      have answered : configuration.get key = .ok value := (Lookup.get_alike same value).mp outcome
      cases failed.symm.trans answered

theorem lists_of_effective {properties : List Effective}
    (succeeded : configuration.effective = .ok properties) : configuration.Lists properties := by
  rw [effective_eq] at succeeded
  obtain ⟨unsorted, areValued, rfl⟩ := map_eq_ok.mp succeeded
  obtain ⟨areFirst, valued⟩ := of_effectiveOf areValued
  have distinct : (unsorted.map fun property => canonical property.name).Nodup := by
    have kept := nodup_firstSpellings [] configuration.spellings
    rwa [← areFirst, List.map_map] at kept
  refine ⟨?_, fun source isSource key isKey => ?_, fun property member => ?_⟩
  · exact ascending_mergeSort distinct
  · obtain ⟨pair, isKept, same⟩ := exists_mem_firstSpellings isSource isKey
    rw [← areFirst] at isKept
    obtain ⟨property, member, rfl⟩ := List.mem_map.mp isKept
    refine ⟨property, ⟨List.mem_mergeSort.mpr member, same⟩, ?_⟩
    rintro other ⟨otherMember, otherSame⟩
    exact List.inj_on_of_nodup_map distinct (List.mem_mergeSort.mp otherMember) member
      (otherSame.trans same.symm)
  · have isListed := List.mem_mergeSort.mp member
    have isKept : (property.name, property.source) ∈
        firstSpellings [] configuration.spellings := by
      rw [← areFirst]
      exact List.mem_map_of_mem isListed
    obtain ⟨source, isFirst, isSpelling, isName⟩ := find?_spellings (mem_firstSpellings.mp isKept).2
    refine ⟨source, isFirst, isSpelling, isName, ?_⟩
    obtain ⟨value, answered, isValue⟩ := valued property isListed
    obtain ⟨held, rfl⟩ := get_key (List.mem_of_find?_eq_some isFirst)
      (List.mem_of_find?_eq_some isSpelling) answered
    rw [isValue]
    exact answered

theorem effective_iff_lists {properties : List Effective} :
    configuration.effective = .ok properties ↔ configuration.Lists properties := by
  refine ⟨lists_of_effective, fun lists => ?_⟩
  cases outcome : configuration.effective with
  | ok others => rw [(lists_of_effective outcome).unique lists]
  | error cause =>
    obtain ⟨source, isSource, key, isKey, _, failed⟩ := effective_fails_iff.mp ⟨cause, outcome⟩
    obtain ⟨property, ⟨member, same⟩, _⟩ := lists.complete source isSource key isKey
    obtain ⟨_, _, _, _, isValue⟩ := lists.sound property member
    cases failed.symm.trans ((Lookup.get_alike same _).mp isValue)

/-- A listing fails exactly if the answer for some key of a source does. Otherwise it has one
property for each name, in the first spelling of the first source that spells it, with the value
that the configuration answers. -/
theorem lists_first_spellings (configuration : Configuration) :
    ((∃ cause, configuration.effective = .error cause) ↔
      ∃ source ∈ configuration.sources, ∃ key ∈ source.keys, ∃ cause,
        configuration.get key = .error cause) ∧
    ∀ properties, configuration.effective = .ok properties ↔ configuration.Lists properties :=
  ⟨effective_fails_iff, fun _ => effective_iff_lists⟩

end Listing

/-- Two sources that spell one name in three ways. -/
def overlappingSources : List Source :=
  [.ofPairs "strong" [("A", "x"), ("b-c", "1"), ("bC", "2")],
    .ofPairs "weak" [("B_C", "3"), ("d[0]", "y")]]

/-- Two keys whose values ask for each other. -/
def circlingSources : List Source :=
  [.ofPairs "s" [("p", "${q}"), ("q", "${P}")]]

/-- A name is listed in one of its spellings, and keys with a circle are not listed at all. -/
theorem lists_first_spellings_overlappingSources :
    (∃ configuration,
      (resolve (.ofTable []) overlappingSources .unset).outcome = .ok configuration ∧
      configuration.effective = .ok
        [⟨"A", "x", "strong"⟩, ⟨"b-c", "1", "strong"⟩, ⟨"d[0]", "y", "weak"⟩] ∧
      configuration.Lists
        [⟨"A", "x", "strong"⟩, ⟨"b-c", "1", "strong"⟩, ⟨"d[0]", "y", "weak"⟩]) ∧
    ∃ configuration,
      (resolve (.ofTable []) circlingSources .unset).outcome = .ok configuration ∧
      ∃ cause, configuration.effective = .error cause := by
  have resolves : (resolve (.ofTable []) overlappingSources .unset).outcome.toOption.map
      (fun configuration =>
        (effectiveOf configuration.lookup (firstSpellings [] configuration.spellings)).toOption) =
      some (some [⟨"A", "x", "strong"⟩, ⟨"b-c", "1", "strong"⟩, ⟨"d[0]", "y", "weak"⟩]) := by
    decide +kernel
  have otherResolves : (resolve (.ofTable []) circlingSources .unset).outcome.toOption.map
      (fun configuration => (configuration.sources,
        (configuration.lookup.getWithin configuration.lookup.deepest "p").run)) =
      some (circlingSources, some (.error (.cycle ["p", "q", "P"]))) := by
    decide +kernel
  obtain ⟨configuration, succeeded, areValued⟩ := exists_ok_of_map resolves
  obtain ⟨circling, otherSucceeded, isCircle⟩ := exists_ok_of_map otherResolves
  obtain ⟨sources, failed⟩ := Prod.mk.inj isCircle
  have areListed : configuration.effective = .ok
      [⟨"A", "x", "strong"⟩, ⟨"b-c", "1", "strong"⟩, ⟨"d[0]", "y", "weak"⟩] := by
    rw [effective_eq, ok_of_toOption areValued]
    exact congrArg Except.ok (List.mergeSort_of_pairwise (by decide +kernel))
  refine ⟨⟨configuration, succeeded, areListed, ((lists_first_spellings _).2 _).mp areListed⟩,
    circling, otherSucceeded, (lists_first_spellings circling).1.mpr ?_⟩
  rw [sources]
  exact ⟨_, List.mem_cons_self, "p", by decide +kernel, _, Lookup.get_of_getWithin failed⟩

end Configuration

end LayeredConfig
