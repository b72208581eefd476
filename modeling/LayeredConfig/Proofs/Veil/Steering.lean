/-
This file cuts a source down to the properties that steer a resolution.

A resolution reads five properties of the sources that it finds: the locations to import, the
condition, and three lists of profiles. Each is written as one scalar or by elements. The steering
part of a source keeps just these, in their order, and the view answers for them as before.

A source is hidden from some profiles if they do not meet its condition. For the resolution to find
this out from the source alone, its condition and its imports have no placeholders. The veil cuts
the hidden sources down to their steering parts, and leaves all others as they are.
-/

import LayeredConfig.Lookup.Placeholder
import LayeredConfig.Proofs.Profile.Lexing
import LayeredConfig.Proofs.Property.Indexing

namespace LayeredConfig

open Text

/-! ### Spellings -/

/-- The names of the properties that a resolution reads of the sources that it finds. -/
def PropertyName.steering : List String :=
  [imports, condition, activeProfiles, defaultProfiles, includedProfiles]

namespace View

/-- Whether a canonical key is a canonical name with an index behind it, however large. -/
def isIndexed (name key : String) : Bool :=
  match after? (name.toList ++ ['[']) key.toList with
  | none => false
  | some rest =>
    match cutOnce? ']' rest with
    | some (index, []) => !(unsigned index).isEmpty && (unsigned index).all Char.isDigit
    | _ => false

/-- Whether a canonical key spells a property, as a scalar or as an element. -/
def spells (name key : String) : Bool :=
  key == canonical name || isIndexed (canonical name) key

/-- Whether a canonical key spells a property that steers. -/
def steers (key : String) : Bool :=
  PropertyName.steering.any fun name => spells name key

theorem spells_canonical (name : String) : spells name (canonical name) = true := by
  rw [spells, beq_self_eq_true, Bool.true_or]

theorem isIndexed_of_digits {name index : String}
    (areDigits : (!(unsigned index.toList).isEmpty &&
      (unsigned index.toList).all Char.isDigit) = true) :
    isIndexed name (name ++ "[" ++ index ++ "]") = true := by
  have unclosed : ∀ c ∈ index.toList, c ≠ ']' := fun c member =>
    (unbracketed_of_digits areDigits c member).2
  unfold isIndexed
  rw [toList_element, List.append_cons _ _ (index.toList ++ [']']), after?_append]
  dsimp only
  rw [cutOnce?_append unclosed]
  exact areDigits

/-- What counts as an element of a list has an index. -/
theorem isIndexed_of_isElementOf {name key : String} (isElement : isElementOf name key = true) :
    isIndexed name key = true := by
  obtain ⟨index, isIndex, rfl⟩ := isElementOf_iff.mp isElement
  exact isIndexed_of_digits (digits_of_readIndex isIndex)

/-- Every element of a list has an index, one that is too large to be counted too. -/
theorem isIndexed_elementName (name : String) (index : Nat) :
    isIndexed name (elementName name index) = true :=
  isIndexed_of_digits (digits_toString index)

section Steers

variable {name key : String}

theorem steers_of_spells (isSteering : name ∈ PropertyName.steering)
    (isSpelled : spells name key = true) : steers key = true :=
  List.any_eq_true.mpr ⟨name, isSteering, isSpelled⟩

theorem spells_element (name : String) (index : Nat) :
    spells name (elementName (canonical name) index) = true := by
  rw [spells, isIndexed_elementName, Bool.or_true]

theorem spells_of_isElementOf (isElement : isElementOf (canonical name) key = true) :
    spells name key = true := by
  rw [spells, isIndexed_of_isElementOf isElement, Bool.or_true]

end Steers

/-! ### Views of a part -/

section Part

variable {keep : String → Bool} {entries : List (String × String)} {seen others : List String}

theorem firstOfEach_congr (same : ∀ entry ∈ entries, entry.1 ∈ seen ↔ entry.1 ∈ others) :
    firstOfEach seen entries = firstOfEach others entries := by
  induction entries generalizing seen others with
  | nil => rfl
  | cons entry rest inductionHypothesis =>
    have inRest : ∀ other ∈ rest, other.1 ∈ seen ↔ other.1 ∈ others := fun other member =>
      same other (List.mem_cons_of_mem _ member)
    rw [firstOfEach, firstOfEach, List.contains_eq_mem, List.contains_eq_mem,
      decide_eq_decide.mpr (same entry List.mem_cons_self), inductionHypothesis inRest]
    congr 2
    refine inductionHypothesis fun other member => ?_
    rw [List.mem_cons, List.mem_cons, inRest other member]

/-- The first pairs of the names that are kept are the first pairs, of which those are kept. -/
theorem firstOfEach_filter (keep : String → Bool) (seen : List String)
    (entries : List (String × String)) :
    firstOfEach seen (entries.filter (keep ·.1)) =
      (firstOfEach seen entries).filter (keep ·.1) := by
  induction entries generalizing seen with
  | nil => rfl
  | cons entry rest inductionHypothesis =>
    rw [firstOfEach]
    by_cases isKept : keep entry.1 = true
    · rw [List.filter_cons, if_pos isKept, firstOfEach]
      split
      · exact inductionHypothesis seen
      · rw [List.filter_cons, if_pos isKept, inductionHypothesis]
    · rw [List.filter_cons, if_neg isKept]
      split
      · exact inductionHypothesis seen
      · rw [List.filter_cons, if_neg isKept, ← inductionHypothesis]
        -- A name that is not kept is not among those that are left.
        refine firstOfEach_congr fun other member => ?_
        rw [List.mem_cons, or_iff_right]
        rintro same
        exact isKept (same ▸ (List.mem_filter.mp member).2)

theorem lookup_filter {name : String} (isKept : keep name = true) :
    (entries.filter (keep ·.1)).lookup name = entries.lookup name := by
  induction entries with
  | nil => rfl
  | cons entry rest inductionHypothesis =>
    obtain ⟨key, value⟩ := entry
    rw [List.filter_cons, List.lookup_cons]
    by_cases same : name = key
    · subst same
      rw [if_pos isKept, List.lookup_cons, beq_self_eq_true]
    · rw [beq_eq_false_iff_ne.mpr same]
      split
      · rw [List.lookup_cons, beq_eq_false_iff_ne.mpr same, inductionHypothesis]
      · exact inductionHypothesis

end Part

end View

/-! ### The steering part of a source -/

namespace Source

/-- The source with the properties that steer, and no others. -/
def steering (source : Source) : Source :=
  { source with entries := source.entries.filter fun entry => View.steers (canonical entry.1) }

section View

variable (source : Source) {name : String}

theorem values_steering :
    source.steering.view.values = source.view.values.filter (View.steers ·.1) := by
  rw [view, view, View.ofEntries, View.ofEntries, steering, ← View.firstOfEach_filter,
    List.filter_map]
  rfl

variable (isSteering : name ∈ PropertyName.steering)

include isSteering

theorem get?_steering : source.steering.view.get? name = source.view.get? name := by
  rw [View.get?, View.get?, values_steering, View.lookup_filter]
  exact View.steers_of_spells isSteering (View.spells_canonical name)

theorem element?_steering (index : Nat) :
    source.steering.view.element? name index = source.view.element? name index := by
  rw [View.element?, View.element?, values_steering, View.lookup_filter]
  exact View.steers_of_spells isSteering (View.spells_element name index)

theorem elements_steering :
    source.steering.view.names.filter (View.isElementOf (canonical name)) =
      source.view.names.filter (View.isElementOf (canonical name)) := by
  rw [View.names, View.names, values_steering, List.filter_map, List.filter_map, List.filter_filter]
  refine congrArg (List.map Prod.fst) (List.filter_congr fun entry _ => ?_)
  rw [Function.comp_apply]
  cases isElement : View.isElementOf (canonical name) entry.1 with
  | true =>
    rw [View.steers_of_spells isSteering (View.spells_of_isElementOf isElement)]
    rfl
  | false => rfl

theorem elementCount_steering :
    source.steering.view.elementCount name = source.view.elementCount name := by
  rw [View.elementCount, View.elementCount, elements_steering source isSteering]

theorem declares_steering : source.steering.view.declares name = source.view.declares name := by
  have elements_any (view : View) : view.hasElements name =
      (view.names.filter (View.isElementOf (canonical name))).any fun _ => true := by
    rw [View.hasElements, List.any_filter]
    simp only [Bool.and_true]
  rw [View.declares, View.declares, View.contains, View.contains, get?_steering source isSteering,
    elements_any, elements_any, elements_steering source isSteering]

end View

/-! ### Hidden sources -/

/-- Whether the imports of a source are written without placeholders. -/
def importsPlainly (source : Source) : Bool :=
  source.view.values.all fun entry =>
    !View.spells PropertyName.imports entry.1 || !Placeholder.occursIn entry.2

/-- Whether a source has a condition, written without placeholders, that the profiles do not meet.
-/
def isBarredBy (profiles : Profiles) (source : Source) : Bool :=
  match source.view.get? PropertyName.condition with
  | none => false
  | some text =>
    !Placeholder.occursIn text &&
      match Condition.read text with
      | .ok condition => !condition.isMetBy profiles
      | .error _ => false

/-- Whether the source by itself shows that it takes no part under the profiles. -/
def isHiddenFrom (profiles : Profiles) (source : Source) : Bool :=
  source.importsPlainly && source.isBarredBy profiles

/-- The steering part of a hidden source; any other source as it is. -/
def veil (profiles : Profiles) (source : Source) : Source :=
  if source.isHiddenFrom profiles then source.steering else source

/-- The sources are the same, or they are hidden and have the same name, origin and steering
properties. -/
def Alike (profiles : Profiles) (first second : Source) : Prop :=
  second = first ∨ first.isHiddenFrom profiles = true ∧ second.steering = first.steering

section Hidden

variable {profiles : Profiles} {source first second : Source}

theorem name_veil (profiles : Profiles) (source : Source) :
    (source.veil profiles).name = source.name := by
  unfold veil
  split <;> rfl

theorem veil_of_shown (isShown : source.isHiddenFrom profiles = false) :
    source.veil profiles = source := by
  rw [veil, isShown]
  rfl

theorem veil_of_hidden (isHidden : source.isHiddenFrom profiles = true) :
    source.veil profiles = source.steering := by
  rw [veil, if_pos isHidden]

theorem isHiddenFrom_steering (profiles : Profiles) (source : Source) :
    source.steering.isHiddenFrom profiles = source.isHiddenFrom profiles := by
  have isCondition : PropertyName.condition ∈ PropertyName.steering := by decide
  have isImports : PropertyName.imports ∈ PropertyName.steering := by decide
  have plainly : source.steering.importsPlainly = source.importsPlainly := by
    rw [importsPlainly, importsPlainly, values_steering, List.all_filter]
    congr 1
    funext entry
    cases isSpelled : View.spells PropertyName.imports entry.1 with
    | true =>
      rw [View.steers_of_spells isImports isSpelled]
      rfl
    | false =>
      rw [Bool.not_false, Bool.true_or, Bool.or_true]
  rw [isHiddenFrom, isHiddenFrom, plainly, isBarredBy, isBarredBy,
    get?_steering source isCondition]

/-- Behind the veil, sources that are alike are the same. -/
theorem Alike.veil_eq (alike : Alike profiles first second) :
    second.veil profiles = first.veil profiles := by
  rcases alike with rfl | ⟨isHidden, same⟩
  · rfl
  · have bothHidden : second.isHiddenFrom profiles = true := by
      rw [← isHiddenFrom_steering, same, isHiddenFrom_steering, isHidden]
    rw [veil_of_hidden isHidden, veil_of_hidden bothHidden, same]

/-! ### What hidden sources declare -/

/-- The values of a hidden source that spell its imports have no placeholders. -/
theorem plain_of_spelled (isHidden : source.isHiddenFrom profiles = true) {key raw : String}
    (isFound : source.view.values.lookup key = some raw)
    (isSpelled : View.spells PropertyName.imports key = true) :
    Placeholder.occursIn raw = false := by
  rw [isHiddenFrom, Bool.and_eq_true] at isHidden
  have isPlain := List.all_eq_true.mp isHidden.1 _ (View.mem_of_lookup isFound)
  rw [isSpelled] at isPlain
  simpa using isPlain

/-- A hidden source has a condition, as plain text, that the profiles do not meet. -/
theorem condition_of_hidden (isHidden : source.isHiddenFrom profiles = true) :
    ∃ text condition, source.view.get? PropertyName.condition = some text ∧
      Placeholder.occursIn text = false ∧ Condition.read text = .ok condition ∧
      condition.isMetBy profiles = false := by
  rw [isHiddenFrom, Bool.and_eq_true, isBarredBy] at isHidden
  have isBarred := isHidden.2
  split at isBarred
  · cases isBarred
  · next text isText =>
    rw [Bool.and_eq_true, Bool.not_eq_true'] at isBarred
    obtain ⟨isPlain, isBarred⟩ := isBarred
    split at isBarred
    · next condition isCondition =>
      exact ⟨text, condition, isText, isPlain, isCondition, Bool.not_eq_true' _ ▸ isBarred⟩
    · cases isBarred

end Hidden

end Source

/-! ### Blank conditions -/

namespace Condition

/-- A condition that can be read is not blank. -/
theorem not_blank_of_read {text : String} {condition : Condition}
    (isRead : read text = .ok condition) : isBlankText text = false := by
  rw [← Bool.not_eq_true]
  intro isBlank
  have noTokens : tokens text = [] :=
    spells_iff.mp (spells_of_blank (List.all_eq_true.mp isBlank))
  rw [read, noTokens] at isRead
  cases isRead

end Condition

end LayeredConfig
