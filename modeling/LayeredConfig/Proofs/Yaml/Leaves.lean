/-
This file says what the parts of a value are, where they stand, and how they are flattened.

The parts of a sequence are its items, those of a mapping are the values of its keys, and a tag
changes nothing. The leaves of a value are the scalars that steps from part to part lead to, in the
order of the document. Flattening lists the leaves. If no mapping has a key twice, each of them has
a place of its own.
-/

import LayeredConfig.Lookup.Placeholder
import LayeredConfig.Proofs.Property.Settling
import LayeredConfig.Proofs.Yaml.Distinct
import LayeredConfig.Proofs.Yaml.Place

namespace LayeredConfig.Yaml.Value

/-! ### Parts -/

theorem mem_of_mem_pairs {children : List Value} {pair : Value × Value}
    (member : pair ∈ pairs children) : pair.1 ∈ children ∧ pair.2 ∈ children := by
  induction children using pairs.induct with
  | case1 key value rest inductionHypothesis =>
    rcases List.mem_cons.mp member with rfl | inRest
    · exact ⟨List.mem_cons_self, List.mem_cons_of_mem _ List.mem_cons_self⟩
    · exact (inductionHypothesis inRest).imp
        (fun inside => List.mem_cons_of_mem _ (List.mem_cons_of_mem _ inside))
        fun inside => List.mem_cons_of_mem _ (List.mem_cons_of_mem _ inside)
  | case2 children short =>
    rw [pairs] at member
    · cases member
    · exact short

/-- The parts of a value with the steps that lead to them, in the order of the document. What
stands under a key that is no scalar is no part. -/
def parts : Value → List (Step × Value)
  | scalar _ => []
  | sequence items => items.zipIdx.map fun (item, number) => (.index number, item)
  | mapping children =>
    (pairs children).filterMap fun (key, value) =>
      (scalarText? key).map fun text => (.key text, value)
  | tagged _ content => parts content

theorem mem_parts_sequence {items : List Value} {part : Step × Value} :
    part ∈ (sequence items).parts ↔
      ∃ number, part.1 = .index number ∧ items[number]? = some part.2 := by
  obtain ⟨step, value⟩ := part
  rw [parts, List.mem_map]
  constructor
  · rintro ⟨⟨item, number⟩, isItem, same⟩
    obtain ⟨rfl, rfl⟩ := Prod.mk.inj same
    exact ⟨number, rfl, List.mem_zipIdx_iff_getElem?.mp isItem⟩
  · rintro ⟨number, rfl, isItem⟩
    exact ⟨(value, number), List.mem_zipIdx_iff_getElem?.mpr isItem, rfl⟩

/-- No two items of a sequence have one number. -/
theorem nodup_steps_sequence (items : List Value) :
    ((sequence items).parts.map Prod.fst).Nodup := by
  rw [parts, List.map_map]
  show (items.zipIdx.map (Step.index ∘ Prod.snd)).Nodup
  rw [← List.map_map, List.zipIdx_map_snd]
  exact List.Nodup.map (fun _ _ same => Step.index.inj same) List.nodup_range'

theorem mem_parts_mapping {children : List Value} {part : Step × Value} :
    part ∈ (mapping children).parts ↔
      ∃ pair ∈ pairs children, ∃ text, scalarText? pair.1 = some text ∧
        (.key text, pair.2) = part := by
  simp only [parts, List.mem_filterMap, Option.map_eq_some_iff]

theorem sizeOf_part {value : Value} {part : Step × Value} (member : part ∈ value.parts) :
    sizeOf part.2 < sizeOf value := by
  match value, member with
  | .sequence items, member =>
    obtain ⟨number, _, isItem⟩ := mem_parts_sequence.mp member
    have := List.sizeOf_lt_of_mem (List.mem_of_getElem? isItem)
    rw [sequence.sizeOf_spec]
    omega
  | .mapping children, member =>
    obtain ⟨pair, isPair, _, _, rfl⟩ := mem_parts_mapping.mp member
    have : sizeOf pair.2 < sizeOf children := List.sizeOf_lt_of_mem (mem_of_mem_pairs isPair).2
    show sizeOf pair.2 < _
    rw [mapping.sizeOf_spec]
    omega
  | .tagged tag content, member =>
    have := sizeOf_part (show part ∈ content.parts from member)
    rw [tagged.sizeOf_spec]
    omega

/-- A value is settled once its parts are. -/
theorem partInduction {motive : Value → Prop}
    (step : ∀ value : Value, (∀ part ∈ value.parts, motive part.2) → motive value)
    (value : Value) : motive value :=
  step value fun part member =>
    have := sizeOf_part member
    partInduction step part.2
  termination_by sizeOf value

/-- A scalar has no parts. -/
theorem parts_of_scalar : ∀ {value : Value} {text : String}, scalarText? value = some text →
    value.parts = []
  | .scalar _, _, _ => rfl
  | .tagged _ content, _, isScalar => @parts_of_scalar content _ isScalar

/-! ### Places -/

/-- The part that stands at a place. -/
def at? (value : Value) (place : Place) : Option Value :=
  place.foldlM (fun value step => value.parts.lookup step) value

/-- The text of the scalar at a place. -/
def textAt? (value : Value) (place : Place) : Option String :=
  (value.at? place).bind scalarText?

/-- The items of a sequence, also under tags. -/
def items? : Value → Option (List Value)
  | sequence items => some items
  | tagged _ content => items? content
  | _ => none

/-- The items of the sequence at a place. -/
def itemsAt? (value : Value) (place : Place) : Option (List Value) :=
  (value.at? place).bind items?

/-- The scalars in a value, each with its place, in the order of the document. -/
def leaves (value : Value) : List (Place × String) :=
  match scalarText? value with
  | some text => [([], text)]
  | none =>
    value.parts.attach.flatMap fun ⟨part, _⟩ =>
      (leaves part.2).map fun leaf => (part.1 :: leaf.1, leaf.2)
  termination_by sizeOf value
  decreasing_by exact sizeOf_part ‹_›

theorem leaves_of_scalar {value : Value} {text : String}
    (isScalar : scalarText? value = some text) : value.leaves = [([], text)] := by
  rw [leaves, isScalar]

theorem leaves_of_parts {value : Value} (noScalar : scalarText? value = none) :
    value.leaves = value.parts.flatMap fun part =>
      part.2.leaves.map fun leaf => (part.1 :: leaf.1, leaf.2) := by
  rw [leaves, noScalar]
  conv_rhs => rw [← List.attach_map_subtype_val value.parts, List.flatMap_map]

/-! ### Flattening -/

/-- The way on by a step. -/
def wayInto (way : Option String) : Step → String
  | .key key => stepInto way key
  | .index number => way.getD "" ++ "[" ++ toString number ++ "]"

theorem flattenItems_eq (way : String) (number : Nat) (items : List Value) :
    flattenItems way number items = (items.zipIdx number).flatMap fun (item, number) =>
      flatten (some (way ++ "[" ++ toString number ++ "]")) item := by
  induction items generalizing number with
  | nil => rfl
  | cons item rest inductionHypothesis =>
    rw [flattenItems, inductionHypothesis, List.zipIdx_cons, List.flatMap_cons]

theorem flattenChildren_eq (way : Option String) (children : List Value) :
    flattenChildren way children = (pairs children).flatMap fun (key, value) =>
      match scalarText? key with
      | some text => flatten (some (stepInto way text)) value
      | none => [] := by
  induction children using pairs.induct with
  | case1 key value rest inductionHypothesis =>
    rw [flattenChildren, pairs, List.flatMap_cons]
    exact congrArg₂ (· ++ ·) rfl inductionHypothesis
  | case2 children short =>
    rw [flattenChildren, pairs]
    · rfl
    · exact short
    · exact short

theorem flatten_of_scalar {way text : String} :
    ∀ {value : Value}, scalarText? value = some text → flatten (some way) value = [(way, text)]
  | .scalar _, isScalar => by
    obtain rfl := Option.some.inj isScalar
    rfl
  | .tagged _ content, isScalar => @flatten_of_scalar way text content isScalar

/-- What is no scalar is flattened part by part. -/
theorem flatten_of_parts {way : Option String} :
    ∀ {value : Value}, scalarText? value = none →
      flatten way value = value.parts.flatMap fun part => flatten (some (wayInto way part.1)) part.2
  | .sequence items, _ => by
    rw [flatten, flattenItems_eq, parts, List.flatMap_map]
    rfl
  | .mapping children, _ => by
    rw [flatten, flattenChildren_eq, parts, List.filterMap_eq_flatMap_toList, List.flatMap_assoc]
    refine List.flatMap_congr fun pair _ => ?_
    dsimp only
    cases scalarText? pair.1 with
    | none => rfl
    | some text => exact (List.append_nil _).symm
  | .tagged _ content, noScalar => @flatten_of_parts way content noScalar

theorem wayInto_some (way : String) (step : Step) :
    wayInto (some way) step = way ++ String.ofList step.chars := by
  rw [← String.toList_inj]
  cases step <;> simp [wayInto, stepInto, Step.chars]

/-- Behind a way, flattening lists the leaves, each by the spelling of its place. -/
theorem flatten_some (way : String) (value : Value) :
    flatten (some way) value =
      value.leaves.map fun leaf => (way ++ String.ofList leaf.1.chars, leaf.2) := by
  induction value using partInduction generalizing way with
  | step value inductionHypothesis =>
    cases isScalar : scalarText? value with
    | some text =>
      rw [flatten_of_scalar isScalar, leaves_of_scalar isScalar]
      simp [Place.chars]
    | none =>
      rw [flatten_of_parts isScalar, leaves_of_parts isScalar, List.map_flatMap]
      refine List.flatMap_congr fun part member => ?_
      rw [inductionHypothesis part member, List.map_map]
      refine List.map_congr_left fun leaf _ => ?_
      rw [wayInto_some, Function.comp_apply, Place.chars, Place.chars, List.flatMap_cons,
        String.ofList_append, String.append_assoc]

/-- The properties of a mapping are its leaves, each by the name of its place. -/
theorem properties_mapping (children : List Value) :
    properties (mapping children) =
      (mapping children).leaves.map fun leaf => (leaf.1.name, leaf.2) := by
  rw [properties, flatten_of_parts rfl, leaves_of_parts rfl, List.map_flatMap]
  refine List.flatMap_congr fun part member => ?_
  obtain ⟨pair, _, text, _, rfl⟩ := mem_parts_mapping.mp member
  rw [flatten_some, List.map_map]
  rfl

/-! ### Plain values -/

/-- Every key, at any level, is a text of small letters and digits, and no scalar holds a
placeholder. -/
inductive Plain : Value → Prop where
  | scalar {scalar : Scalar} (unopened : Placeholder.occursIn scalar.text = false) :
      Plain (.scalar scalar)
  | sequence {items : List Value} (each : ∀ item ∈ items, Plain item) : Plain (.sequence items)
  | mapping {children : List Value}
      (keys : ∀ pair ∈ pairs children, ∃ key, pair.1 = .scalar (.string key) ∧ IsPlainKey key)
      (each : ∀ pair ∈ pairs children, Plain pair.2) : Plain (.mapping children)
  | tagged {tag : String} {content : Value} (inside : Plain content) : Plain (.tagged tag content)

section Plain

variable {value : Value}

theorem Plain.unopened (plain : value.Plain) {text : String}
    (isScalar : scalarText? value = some text) : Placeholder.occursIn text = false := by
  induction plain with
  | scalar unopened =>
    obtain rfl := Option.some.inj isScalar
    exact unopened
  | sequence | mapping => cases isScalar
  | tagged _ inductionHypothesis => exact inductionHypothesis isScalar

theorem Plain.part (plain : value.Plain) {part : Step × Value} (member : part ∈ value.parts) :
    part.1.IsPlain ∧ part.2.Plain := by
  induction plain with
  | scalar => cases member
  | sequence each =>
    obtain ⟨number, isIndex, isItem⟩ := mem_parts_sequence.mp member
    rw [isIndex]
    exact ⟨trivial, each _ (List.mem_of_getElem? isItem)⟩
  | mapping keys each =>
    obtain ⟨pair, isPair, text, isText, rfl⟩ := mem_parts_mapping.mp member
    obtain ⟨key, isKey, isPlain⟩ := keys pair isPair
    rw [isKey] at isText
    obtain rfl := Option.some.inj isText
    exact ⟨isPlain, each pair isPair⟩
  | tagged _ inductionHypothesis => exact inductionHypothesis member

theorem Distinct.part (distinct : value.Distinct) {part : Step × Value}
    (member : part ∈ value.parts) : part.2.Distinct := by
  induction distinct with
  | scalar => cases member
  | sequence each =>
    obtain ⟨number, _, isItem⟩ := mem_parts_sequence.mp member
    exact each _ (List.mem_of_getElem? isItem)
  | mapping _ each =>
    obtain ⟨pair, isPair, _, _, rfl⟩ := mem_parts_mapping.mp member
    exact each _ (mem_of_mem_pairs isPair).2
  | tagged _ inductionHypothesis => exact inductionHypothesis member

/-- No step leads to two parts. -/
theorem nodup_steps (distinct : value.Distinct) (plain : value.Plain) :
    (value.parts.map Prod.fst).Nodup := by
  induction distinct with
  | scalar => exact List.nodup_nil
  | @sequence items => exact nodup_steps_sequence items
  | @mapping children keys =>
    cases plain with
    | mapping areKeys =>
      rw [parts, List.Nodup, List.pairwise_map, List.pairwise_filterMap]
      refine keys.imp_of_mem fun {first second} isFirst isSecond differ => ?_
      obtain ⟨_, value⟩ := first
      obtain ⟨_, other⟩ := second
      obtain ⟨key, rfl, _⟩ := areKeys _ isFirst
      obtain ⟨otherKey, rfl, _⟩ := areKeys _ isSecond
      intro part isPart otherPart isOther sameStep
      obtain rfl := Option.some.inj isPart
      obtain rfl := Option.some.inj isOther
      have sameKey : Scalar.string otherKey = .string key :=
        congrArg Scalar.string (Step.key.inj sameStep).symm
      exact absurd (beq_iff_eq.mpr sameKey) (Bool.eq_false_iff.mp differ)
  | tagged _ inductionHypothesis =>
    cases plain with
    | tagged inside => exact inductionHypothesis inside

end Plain

end LayeredConfig.Yaml.Value
