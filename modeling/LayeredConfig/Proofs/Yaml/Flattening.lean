/-
This file says what a source that is flattened from a mapping holds and answers.

Suppose the keys of the mapping are of small letters and digits at every level, and no scalar holds
a placeholder. A step leads from a value to one part of it, and a place to one scalar, so that the
leaves are the scalars with their places, each once and in the order of the document. Places are
told apart by their names, and these are canonical already. So each leaf becomes an entry of its
own, which is found by the name of its place. The items of a sequence have the elements of the name
of its place and nothing else has, so that a sequence of scalars is read as the list of them.
-/

import LayeredConfig.Proofs.Lookup.Given
import LayeredConfig.Proofs.Yaml.Leaves

namespace LayeredConfig.Yaml.Value

/-! ### Following a place -/

section At

variable {value : Value}

theorem at?_cons (step : Step) (rest : Place) :
    value.at? (step :: rest) = (value.parts.lookup step).bind (·.at? rest) := by
  rw [at?, List.foldlM_cons]
  rfl

theorem at?_append (place more : Place) :
    value.at? (place ++ more) = (value.at? place).bind (·.at? more) := by
  rw [at?, List.foldlM_append]
  rfl

theorem textAt?_nil : value.textAt? [] = scalarText? value := rfl

theorem textAt?_cons (step : Step) (rest : Place) :
    value.textAt? (step :: rest) = (value.parts.lookup step).bind (·.textAt? rest) := by
  rw [textAt?, at?_cons, Option.bind_assoc]
  rfl

/-- The items of a sequence are its parts, also under tags. -/
theorem parts_of_items : ∀ {value : Value} {items : List Value}, items? value = some items →
    value.parts = (sequence items).parts
  | .sequence _, _, isSequence => by rw [Option.some.inj isSequence]
  | .tagged _ content, items, isSequence => @parts_of_items content items isSequence

theorem scalarText?_of_items : ∀ {value : Value} {items : List Value},
    items? value = some items → scalarText? value = none
  | .sequence _, _, _ => rfl
  | .tagged _ content, items, isSequence => @scalarText?_of_items content items isSequence

/-- At a place of a sequence there is no scalar. -/
theorem textAt?_of_items {place : Place} {items : List Value}
    (areItems : value.itemsAt? place = some items) : value.textAt? place = none := by
  obtain ⟨inner, isInner, isSequence⟩ := Option.bind_eq_some_iff.mp areItems
  rw [textAt?, isInner, Option.bind_some, scalarText?_of_items isSequence]

/-- One step further than a sequence are its items, each by its number. -/
theorem textAt?_item {place : Place} {items : List Value}
    (areItems : value.itemsAt? place = some items) (number : Nat) :
    value.textAt? (place ++ [.index number]) = items[number]?.bind scalarText? := by
  obtain ⟨inner, isInner, isSequence⟩ := Option.bind_eq_some_iff.mp areItems
  have isItem : (sequence items).parts.lookup (.index number) = items[number]? := by
    refine Option.ext fun item => ?_
    rw [lookup_eq_some_iff_mem (nodup_steps_sequence items), mem_parts_sequence]
    constructor
    · rintro ⟨_, same, isItem⟩
      rw [Step.index.inj same]
      exact isItem
    · exact fun isItem => ⟨number, rfl, isItem⟩
  rw [textAt?, at?_append, isInner, Option.bind_some, ← textAt?, textAt?_cons,
    parts_of_items isSequence, isItem]
  rfl

/-- Behind a sequence of scalars there are their texts, each at its number, and no others. -/
theorem textAt?_number {place : Place} {items : List Value} {texts : List String}
    (areItems : value.itemsAt? place = some items)
    (areTexts : items.map scalarText? = texts.map some) (number : Nat) :
    value.textAt? (place ++ [.index number]) = texts[number]? := by
  have sameNumber := congrArg (·[number]?) areTexts
  simp only [List.getElem?_map] at sameNumber
  rw [textAt?_item areItems]
  cases isItem : items[number]? with
  | none =>
    rw [isItem, Option.map_none, eq_comm, Option.map_eq_none_iff] at sameNumber
    exact sameNumber.symm
  | some item =>
    rw [isItem, Option.map_some, eq_comm, Option.map_eq_some_iff] at sameNumber
    obtain ⟨text, isText, same⟩ := sameNumber
    rw [isText, Option.bind_some, same]

end At

/-! ### The order of the document -/

/-- Whether a place comes before another one: where their ways part, its step comes first. -/
inductive Precedes : Value → Place → Place → Prop where
  | here {value : Value} {step other : Step} {rest others : Place}
      (first : [step, other].Sublist (value.parts.map Prod.fst)) :
      Precedes value (step :: rest) (other :: others)
  | within {value part : Value} {step : Step} {rest others : Place}
      (isPart : (step, part) ∈ value.parts) (inside : Precedes part rest others) :
      Precedes value (step :: rest) (step :: others)

/-- The leaves stand in the order of the document. -/
theorem pairwise_leaves (value : Value) :
    value.leaves.Pairwise fun earlier later => value.Precedes earlier.1 later.1 := by
  induction value using partInduction with
  | step value inductionHypothesis =>
    cases isScalar : scalarText? value with
    | some text =>
      rw [leaves_of_scalar isScalar]
      exact List.pairwise_singleton _ _
    | none =>
      rw [leaves_of_parts isScalar, List.pairwise_flatMap]
      refine ⟨fun part member => ?_,
        List.pairwise_iff_forall_sublist.mpr fun {one other} first => ?_⟩
      · rw [List.pairwise_map]
        exact (inductionHypothesis part member).imp fun before => .within member before
      · intro leaf isLeaf later isLater
        obtain ⟨_, _, rfl⟩ := List.mem_map.mp isLeaf
        obtain ⟨_, _, rfl⟩ := List.mem_map.mp isLater
        exact .here (first.map Prod.fst)

section Leaves

variable {value : Value} (distinct : value.Distinct) (plain : value.Plain)

include distinct plain

/-- No place comes before itself. -/
theorem Precedes.irrefl {place : Place} : ¬value.Precedes place place := by
  intro before
  induction place generalizing value with
  | nil => cases before
  | cons step rest inductionHypothesis =>
    cases before with
    | here first => exact List.nodup_iff_sublist.mp (nodup_steps distinct plain) step first
    | within isPart inside =>
      exact inductionHypothesis (distinct.part isPart) (plain.part isPart).2 inside

/-- No two leaves have one place. -/
theorem nodup_places : (value.leaves.map Prod.fst).Nodup := by
  rw [List.Nodup, List.pairwise_map]
  refine (pairwise_leaves value).imp fun {earlier later} before same => ?_
  rw [same] at before
  exact Precedes.irrefl distinct plain before

/-- The leaves are the scalars that there are, each at its place. -/
theorem mem_leaves_iff {place : Place} {text : String} :
    (place, text) ∈ value.leaves ↔ value.textAt? place = some text := by
  induction value using partInduction generalizing place with
  | step value inductionHypothesis =>
    cases isScalar : scalarText? value with
    | some own =>
      rw [leaves_of_scalar isScalar, List.mem_singleton, Prod.mk.injEq]
      cases place with
      | nil =>
        rw [textAt?_nil, isScalar, Option.some_inj, eq_comm (a := text)]
        exact and_iff_right rfl
      | cons step rest =>
        rw [textAt?_cons, parts_of_scalar isScalar]
        exact iff_of_false nofun nofun
    | none =>
      rw [leaves_of_parts isScalar, List.mem_flatMap]
      cases place with
      | nil =>
        rw [textAt?_nil, isScalar]
        refine iff_of_false ?_ nofun
        rintro ⟨part, _, isLeaf⟩
        obtain ⟨_, _, same⟩ := List.mem_map.mp isLeaf
        cases same
      | cons step rest =>
        rw [textAt?_cons, Option.bind_eq_some_iff]
        constructor
        · rintro ⟨part, isPart, isLeaf⟩
          obtain ⟨⟨place, _⟩, inPart, same⟩ := List.mem_map.mp isLeaf
          obtain ⟨samePlace, rfl⟩ := Prod.mk.inj same
          obtain ⟨rfl, rfl⟩ := List.cons.inj samePlace
          exact ⟨part.2, (lookup_eq_some_iff_mem (nodup_steps distinct plain)).mpr isPart,
            (inductionHypothesis part isPart (distinct.part isPart)
              (plain.part isPart).2).mp inPart⟩
        · rintro ⟨part, found, isText⟩
          have isPart := (lookup_eq_some_iff_mem (nodup_steps distinct plain)).mp found
          exact ⟨(step, part), isPart, List.mem_map.mpr ⟨(rest, text),
            (inductionHypothesis _ isPart (distinct.part isPart)
              (plain.part isPart).2).mpr isText, rfl⟩⟩

/-- What stands at a place is plain, and so are the steps to it. -/
theorem plain_of_at? {place : Place} {inner : Value} (found : value.at? place = some inner) :
    (∀ step ∈ place, step.IsPlain) ∧ inner.Plain := by
  induction place generalizing value with
  | nil =>
    rw [← Option.some.inj found]
    exact ⟨List.forall_mem_nil _, plain⟩
  | cons step rest inductionHypothesis =>
    rw [at?_cons] at found
    obtain ⟨part, isFound, found⟩ := Option.bind_eq_some_iff.mp found
    have isPart := (lookup_eq_some_iff_mem (nodup_steps distinct plain)).mp isFound
    obtain ⟨isPlain, partPlain⟩ := plain.part isPart
    obtain ⟨restPlain, innerPlain⟩ := inductionHypothesis (distinct.part isPart) partPlain found
    exact ⟨List.forall_mem_cons.mpr ⟨isPlain, restPlain⟩, innerPlain⟩

theorem unopened_of_textAt? {place : Place} {text : String}
    (isText : value.textAt? place = some text) : Placeholder.occursIn text = false := by
  obtain ⟨inner, isInner, isScalar⟩ := Option.bind_eq_some_iff.mp isText
  exact (plain_of_at? distinct plain isInner).2.unopened isScalar

end Leaves

/-! ### The source of a mapping -/

section Mapping

variable {children : List Value} (distinct : (mapping children).Distinct)
  (plain : (mapping children).Plain) {place : Place}

include distinct plain

/-- A place inside a mapping begins with a key. -/
theorem proper_of_at? {inner : Value} (found : (mapping children).at? place = some inner)
    (isInside : place ≠ []) : place.Proper := by
  refine ⟨?_, (plain_of_at? distinct plain found).1⟩
  cases place with
  | nil => exact absurd rfl isInside
  | cons step rest =>
    rw [at?_cons] at found
    obtain ⟨part, isFound, _⟩ := Option.bind_eq_some_iff.mp found
    obtain ⟨_, _, key, _, same⟩ :=
      mem_parts_mapping.mp ((lookup_eq_some_iff_mem (nodup_steps distinct plain)).mp isFound)
    exact ⟨key, rest, by rw [← (Prod.mk.inj same).1]⟩

theorem proper_of_textAt? {text : String} (isText : (mapping children).textAt? place = some text) :
    place.Proper := by
  obtain ⟨inner, isInner, _⟩ := Option.bind_eq_some_iff.mp isText
  refine proper_of_at? distinct plain isInner ?_
  rintro rfl
  cases isText

theorem proper_of_itemsAt? {items : List Value}
    (areItems : (mapping children).itemsAt? place = some items) : place.Proper := by
  obtain ⟨inner, isInner, _⟩ := Option.bind_eq_some_iff.mp areItems
  refine proper_of_at? distinct plain isInner ?_
  rintro rfl
  cases areItems

theorem proper_of_mem_leaves {leaf : Place × String} (isLeaf : leaf ∈ (mapping children).leaves) :
    leaf.1.Proper :=
  proper_of_textAt? distinct plain ((mem_leaves_iff distinct plain).mp isLeaf)

/-- No two leaves have one name. -/
theorem nodup_names : ((properties (mapping children)).map Prod.fst).Nodup := by
  rw [properties_mapping, List.map_map]
  show ((mapping children).leaves.map (Place.name ∘ Prod.fst)).Nodup
  rw [← List.map_map]
  refine (nodup_places distinct plain).map_on fun one isOne other isOther same => ?_
  obtain ⟨first, inLeaves, rfl⟩ := List.mem_map.mp isOne
  obtain ⟨second, alsoInLeaves, rfl⟩ := List.mem_map.mp isOther
  exact (Place.name_inj (proper_of_mem_leaves distinct plain inLeaves)
    (proper_of_mem_leaves distinct plain alsoInLeaves)).mp same

/-- A property has the name of a place exactly if it is the leaf there. -/
theorem mem_properties_iff (proper : place.Proper) {text : String} :
    (place.name, text) ∈ properties (mapping children) ↔
      (mapping children).textAt? place = some text := by
  rw [← mem_leaves_iff distinct plain, properties_mapping, List.mem_map]
  constructor
  · rintro ⟨⟨other, _⟩, isLeaf, same⟩
    obtain ⟨sameName, rfl⟩ := Prod.mk.inj same
    rw [← (Place.name_inj (proper_of_mem_leaves distinct plain isLeaf) proper).mp sameName]
    exact isLeaf
  · exact fun isLeaf => ⟨_, isLeaf, rfl⟩

/-- The names of leaves are spelled canonically already. -/
theorem canonical_properties :
    ((properties (mapping children)).map fun (key, value) => (canonical key, value)) =
      properties (mapping children) := by
  rw [properties_mapping, List.map_map]
  refine List.map_congr_left fun leaf isLeaf => ?_
  show (canonical leaf.1.name, leaf.2) = _
  rw [Place.canonical_name (proper_of_mem_leaves distinct plain isLeaf)]

variable (title : String)

theorem entries_flattened :
    (Source.ofPairs title (properties (mapping children))).entries =
      properties (mapping children) :=
  Source.entries_ofPairs title (nodup_names distinct plain)

/-- The source answers for the name of a place the text of the leaf there, if there is one. -/
theorem get?_flattened (proper : place.Proper) :
    (Source.ofPairs title (properties (mapping children))).view.get? place.name =
      (mapping children).textAt? place := by
  rw [Source.view, View.get?_ofEntries, entries_flattened distinct plain,
    canonical_properties distinct plain, Place.canonical_name proper]
  refine Option.ext fun text => ?_
  rw [lookup_eq_some_iff_mem (nodup_names distinct plain), mem_properties_iff distinct plain proper]

/-! ### Sequences of scalars -/

section Items

variable {items : List Value} {texts : List String}
  (areItems : (mapping children).itemsAt? place = some items)
  (areTexts : items.map scalarText? = texts.map some)

include areItems areTexts

/-- The items of such a sequence are what the source has of the list. -/
theorem runs_flattened (fits : texts.length ≤ 0x10000000000000000) :
    (Source.ofPairs title (properties (mapping children))).Runs place.name texts.length := by
  have proper := proper_of_itemsAt? distinct plain areItems
  have isKey (key : String) :
      key ∈ (Source.ofPairs title (properties (mapping children))).keys ↔
        ∃ leaf ∈ (mapping children).leaves, leaf.1.name = key := by
    rw [Source.keys, entries_flattened distinct plain, properties_mapping, List.map_map,
      List.mem_map]
    rfl
  have canonicalElement {index : String} (isIndex : (View.readIndex? index.toList).isSome = true) :
      canonical (place.name ++ "[" ++ index ++ "]") = place.name ++ "[" ++ index ++ "]" := by
    rw [canonical_element (Place.trimmed_name proper)
      (View.unbracketed_of_digits (View.digits_of_readIndex isIndex)),
      Place.canonical_name proper]
  intro index
  constructor
  · rintro ⟨isIndex, key, inKeys, same⟩
    obtain ⟨leaf, isLeaf, rfl⟩ := (isKey key).mp inKeys
    have leafProper := proper_of_mem_leaves distinct plain isLeaf
    rw [canonicalElement isIndex, Place.canonical_name leafProper] at same
    obtain ⟨number, isElement, isNumber⟩ := Place.index_of_name leafProper proper
      (fun c member => (View.unbracketed_of_digits (View.digits_of_readIndex isIndex) c member).2)
      same
    have isText := (mem_leaves_iff distinct plain).mp isLeaf
    rw [isElement, textAt?_number areItems areTexts] at isText
    exact ⟨number, (List.getElem?_eq_some_iff.mp isText).1, isNumber⟩
  · rintro ⟨number, below, rfl⟩
    have isIndex : (View.readIndex? (toString number).toList).isSome = true := by
      rw [View.readIndex?_toString (below.trans_le fits)]
      rfl
    have isText : (mapping children).textAt? (place ++ [.index number]) = some texts[number] := by
      rw [textAt?_number areItems areTexts, List.getElem?_eq_getElem below]
    refine ⟨isIndex, _, (isKey _).mpr ⟨_, (mem_leaves_iff distinct plain).mpr isText, rfl⟩, ?_⟩
    rw [canonicalElement isIndex, Place.canonical_name (proper_of_textAt? distinct plain isText)]
    exact Place.name_concat_index proper number

/-- Under every rule, a tree of this source alone lists the texts of the items. -/
theorem getList_flattened (isSome : texts ≠ []) (fits : texts.length ≤ 0x10000000000000000)
    (known : Option Profiles) (rule : LookupRule) :
    (Lookup.overTree (.ofSources [Source.ofPairs title (properties (mapping children))]) known
      rule).getList place.name = .ok (some texts) := by
  have proper := proper_of_itemsAt? distinct plain areItems
  have whole := Place.trimmed_name proper
  rw [Lookup.getList_ofSources]
  refine SourceList.getList_of_runs whole ?_ isSome
    (runs_flattened distinct plain title areItems areTexts fits) fun number below => ?_
  · rw [get?_flattened distinct plain title proper, textAt?_of_items areItems]
  · have isText : (mapping children).textAt? (place ++ [.index number]) = some texts[number] := by
      rw [textAt?_number areItems areTexts, List.getElem?_eq_getElem below]
    refine ⟨?_, unopened_of_textAt? distinct plain isText⟩
    rw [← View.get?_elementName whole, ← Place.name_concat_index proper,
      get?_flattened distinct plain title (proper_of_textAt? distinct plain isText), isText]

end Items

end Mapping

/-! ### Sources that mirror a value -/

/-- A source that mirrors a value holds its leaves and answers for their places. -/
structure Mirrors (source : Source) (value : Value) : Prop where
  /-- There is one entry for each leaf, by the name of its place. -/
  entries : source.entries = value.leaves.map fun leaf => (leaf.1.name, leaf.2)
  distinct : source.keys.Nodup
  /-- The leaves are the scalars in the value. -/
  complete : ∀ place text, (place, text) ∈ value.leaves ↔ value.textAt? place = some text
  /-- They stand in the order of the document. -/
  ordered : value.leaves.Pairwise fun earlier later => value.Precedes earlier.1 later.1
  answers : ∀ place text, value.textAt? place = some text →
    source.view.get? place.name = some text
  /-- A sequence of scalars is read as the list of their texts. No sequence has more items than a
  machine word can count. -/
  lists : ∀ place items texts, value.itemsAt? place = some items →
    items.map scalarText? = texts.map some → texts ≠ [] → texts.length ≤ 0x10000000000000000 →
    ∀ known rule, (Lookup.overTree (.ofSources [source]) known rule).getList place.name =
      .ok (some texts)

/-- If no mapping in a mapping has a key twice, its keys are of small letters and digits at every
level, and no scalar holds a placeholder, then the source that is flattened from it mirrors it. -/
theorem mirrors_flattened {children : List Value} (distinct : (mapping children).Distinct)
    (plain : (mapping children).Plain) (title : String) :
    Mirrors (Source.ofPairs title (properties (mapping children))) (mapping children) where
  entries := (entries_flattened distinct plain title).trans (properties_mapping children)
  distinct := by
    rw [Source.keys, entries_flattened distinct plain]
    exact nodup_names distinct plain
  complete _ _ := mem_leaves_iff distinct plain
  ordered := pairwise_leaves (mapping children)
  answers place text isText := by
    rw [get?_flattened distinct plain title (proper_of_textAt? distinct plain isText), isText]
  lists _ _ _ areItems areTexts isSome fits known rule :=
    getList_flattened distinct plain title areItems areTexts isSome fits known rule

/-- A list, whose second item is under a tag, below a key. -/
def hostsList : List Value :=
  [.scalar (.string "hosts"),
    sequence [.scalar (.string "b"), tagged "t" (.scalar (.string "a"))]]

/-- The children of a mapping with this list below another key. -/
def hostsChildren : List Value :=
  [.scalar (.string "app"), mapping hostsList, .scalar (.string "2nd"), .scalar (.bool true)]

theorem distinct_hostsChildren : (mapping hostsChildren).Distinct := by
  have items : (sequence [.scalar (.string "b"), tagged "t" (.scalar (.string "a"))]).Distinct :=
    .sequence (List.forall_mem_cons.mpr ⟨.scalar _, List.forall_mem_singleton.mpr
      (.tagged (.scalar _))⟩)
  have inner : (mapping hostsList).Distinct :=
    .mapping (by decide) (List.forall_mem_cons.mpr ⟨.scalar _,
      List.forall_mem_singleton.mpr items⟩)
  exact .mapping (by decide) (List.forall_mem_cons.mpr ⟨.scalar _, List.forall_mem_cons.mpr
    ⟨inner, List.forall_mem_cons.mpr ⟨.scalar _, List.forall_mem_singleton.mpr (.scalar _)⟩⟩⟩)

theorem plain_hostsChildren : (mapping hostsChildren).Plain := by
  have isPlain (key : String) (among : key ∈ ["app", "hosts", "2nd"]) :
      ∃ name, Value.scalar (.string key) = .scalar (.string name) ∧ IsPlainKey name := by
    simp only [List.mem_cons, List.not_mem_nil, or_false] at among
    rcases among with rfl | rfl | rfl <;>
      exact ⟨_, rfl, by decide, List.all_eq_true.mp (by decide)⟩
  have items : (sequence [.scalar (.string "b"), tagged "t" (.scalar (.string "a"))]).Plain :=
    .sequence (List.forall_mem_cons.mpr ⟨.scalar (by decide), List.forall_mem_singleton.mpr
      (.tagged (.scalar (by decide)))⟩)
  have inner : (mapping hostsList).Plain :=
    .mapping (List.forall_mem_singleton.mpr (isPlain "hosts" (by decide)))
      (List.forall_mem_singleton.mpr items)
  exact .mapping
    (List.forall_mem_cons.mpr ⟨isPlain "app" (by decide), List.forall_mem_singleton.mpr
      (isPlain "2nd" (by decide))⟩)
    (List.forall_mem_cons.mpr ⟨inner, List.forall_mem_singleton.mpr (.scalar (by decide))⟩)

/-- The list has both items, and a scalar is found by its key. -/
theorem mirrors_flattened_hostsChildren :
    (mapping hostsChildren).Distinct ∧ (mapping hostsChildren).Plain ∧
    Mirrors (Source.ofPairs "s" (properties (mapping hostsChildren))) (mapping hostsChildren) ∧
    (Source.ofPairs "s" (properties (mapping hostsChildren))).view.get? "2nd" = some "true" ∧
    (Lookup.overTree (.ofSources [Source.ofPairs "s" (properties (mapping hostsChildren))]) none
      .strict).getList "app.hosts" = .ok (some ["b", "a"]) := by
  have mirrors := mirrors_flattened distinct_hostsChildren plain_hostsChildren "s"
  exact ⟨distinct_hostsChildren, plain_hostsChildren, mirrors,
    mirrors.answers [.key "2nd"] "true" (by decide),
    mirrors.lists [.key "app", .key "hosts"] _ ["b", "a"] rfl (by decide) (by decide) (by decide)
      none .strict⟩

end LayeredConfig.Yaml.Value
