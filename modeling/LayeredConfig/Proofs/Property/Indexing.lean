/-
This file says which keys of a source are elements of a list.

The key of an element is the name of the list with a number in square brackets behind it, and the
canonical spelling leaves the number as it is. One number may be written in many ways, with zeros or
a plus sign in front of it. A view counts the keys with any of these, but finds an element only by
its number without either. Yet the count tells more than it says: if an element is found for each
number below it, then there are as many of these as there are keys, and no key is left for another
spelling or for a number beyond a gap.
-/

import LayeredConfig.Proofs.Property.Pairs
import LayeredConfig.Proofs.Text.Cutting
import LayeredConfig.Proofs.Text.Trimming
import Mathlib.Data.List.Nodup
import Mathlib.Data.List.Perm.Subperm

namespace LayeredConfig

open Text

/-! ### Names with an index -/

theorem canonicalChars_insideIndex {index : List Char}
    (unbracketed : ∀ c ∈ index, c ≠ '[' ∧ c ≠ ']') (behind : List Char) :
    canonicalChars true (index ++ ']' :: behind) = index ++ ']' :: canonicalChars false behind := by
  induction index with
  | nil => rfl
  | cons c rest inductionHypothesis =>
    obtain ⟨noOpening, noClosing⟩ := unbracketed c List.mem_cons_self
    rw [List.cons_append, canonicalChars, if_neg noOpening, if_neg noClosing, if_pos rfl,
      inductionHypothesis fun other member => unbracketed other (List.mem_cons_of_mem _ member),
      List.cons_append]

/-- The canonical spelling leaves an index as it is. -/
theorem canonicalChars_index {index : List Char} (unbracketed : ∀ c ∈ index, c ≠ '[' ∧ c ≠ ']')
    (insideIndex : Bool) (name : List Char) :
    canonicalChars insideIndex (name ++ '[' :: (index ++ [']'])) =
      canonicalChars insideIndex name ++ '[' :: (index ++ [']']) := by
  induction name generalizing insideIndex with
  | nil =>
    simp [canonicalChars, canonicalChars_insideIndex unbracketed]
  | cons c rest inductionHypothesis =>
    rw [List.cons_append]
    unfold canonicalChars
    simp only [inductionHypothesis]
    split_ifs <;> simp only [List.cons_append, List.append_assoc]

theorem toList_element (name index : String) :
    (name ++ "[" ++ index ++ "]").toList = name.toList ++ '[' :: (index.toList ++ [']']) := by
  simp

/-- To put an index behind a name puts no blank at either end. -/
theorem trim_element {name : List Char} (whole : trim name = name) (index : List Char) :
    trim (name ++ '[' :: (index ++ [']'])) = name ++ '[' :: (index ++ [']']) := by
  refine trim_eq_self.mpr ⟨fun c isFirst => ?_, fun c isLast => ?_⟩
  · rw [List.head?_append] at isFirst
    cases first : name.head? with
    | none =>
      rw [first] at isFirst
      cases isFirst
      decide
    | some other =>
      rw [first] at isFirst
      cases isFirst
      exact (trim_eq_self.mp whole).1 c first
  · rw [← List.cons_append, ← List.append_assoc, List.getLast?_concat] at isLast
    cases isLast
    decide

theorem canonical_element {name index : String} (whole : trimmed name = name)
    (unbracketed : ∀ c ∈ index.toList, c ≠ '[' ∧ c ≠ ']') :
    canonical (name ++ "[" ++ index ++ "]") = canonical name ++ "[" ++ index ++ "]" := by
  have nameWhole : trim name.toList = name.toList := by
    rw [← String.toList_ofList (l := trim name.toList)]
    exact congrArg String.toList whole
  rw [← String.toList_inj, toList_element, canonical, canonical, toList_element,
    trim_element nameWhole, nameWhole, String.toList_ofList, String.toList_ofList,
    canonicalChars_index unbracketed]

namespace View

/-! ### Numbers in brackets -/

/-- The text of an index without a plus sign before it. -/
def unsigned : List Char → List Char
  | '+' :: rest => rest
  | chars => chars

theorem readIndex?_eq (index : List Char) :
    readIndex? index =
      if (unsigned index).isEmpty || !(unsigned index).all Char.isDigit then none
      else
        let value := (unsigned index).foldl
          (fun total digit => total * 10 + (digit.toNat - '0'.toNat)) 0
        if value < 0x10000000000000000 then some value else none := rfl

/-- What reads as an index consists of digits. -/
theorem digits_of_readIndex {index : List Char} (isIndex : (readIndex? index).isSome = true) :
    (!(unsigned index).isEmpty && (unsigned index).all Char.isDigit) = true := by
  rw [readIndex?_eq] at isIndex
  split at isIndex
  · cases isIndex
  · next isNumber =>
    rw [Bool.not_eq_true, Bool.or_eq_false_iff, Bool.not_eq_false'] at isNumber
    rw [isNumber.1, isNumber.2]
    rfl

/-- An index holds no bracket. -/
theorem unbracketed_of_digits {index : List Char}
    (areDigits : (!(unsigned index).isEmpty && (unsigned index).all Char.isDigit) = true) :
    ∀ c ∈ index, c ≠ '[' ∧ c ≠ ']' := by
  have isPlusOrDigit : ∀ c ∈ index, c = '+' ∨ c.isDigit = true := by
    intro c member
    have allDigits := (Bool.and_eq_true_iff.mp areDigits).2
    unfold unsigned at allDigits
    split at allDigits
    · exact (List.mem_cons.mp member).imp_right (List.all_eq_true.mp allDigits c)
    · exact Or.inr (List.all_eq_true.mp allDigits c member)
  intro c member
  constructor <;> rintro rfl <;> exact absurd (isPlusOrDigit _ member) (by decide)

theorem toList_toString (index : Nat) : (toString index).toList = Nat.toDigits 10 index := by
  simp

theorem unsigned_toString (index : Nat) :
    unsigned (toString index).toList = Nat.toDigits 10 index := by
  rw [toList_toString]
  unfold unsigned
  split
  · next rest isSigned =>
    have member : '+' ∈ Nat.toDigits 10 index := isSigned ▸ List.mem_cons_self
    exact absurd (Nat.isDigit_of_mem_toDigits (by decide) (by decide) member) (by decide)
  · rfl

/-- A number is written in digits, however large it is. -/
theorem digits_toString (index : Nat) :
    (!(unsigned (toString index).toList).isEmpty &&
      (unsigned (toString index).toList).all Char.isDigit) = true := by
  rw [unsigned_toString, List.isEmpty_eq_false_iff.mpr Nat.toDigits_ne_nil, Bool.not_false,
    Bool.true_and, List.all_eq_true]
  exact fun c member => Nat.isDigit_of_mem_toDigits (by decide) (by decide) member

/-- A number that is not too large is read as it is written. -/
theorem readIndex?_toString {index : Nat} (small : index < 0x10000000000000000) :
    readIndex? (toString index).toList = some index := by
  have isNumber : ((unsigned (toString index).toList).isEmpty ||
      !(unsigned (toString index).toList).all Char.isDigit) = false := by
    simpa using digits_toString index
  have value : (unsigned (toString index).toList).foldl
      (fun total digit => total * 10 + (digit.toNat - '0'.toNat)) 0 = index := by
    simp only [unsigned_toString, Nat.mul_comm _ 10]
    rw [← Nat.ofDigitChars_eq_foldl, Nat.ofDigitChars_ten_toDigits]
  rw [readIndex?_eq, isNumber, if_neg Bool.false_ne_true, value]
  exact if_pos small

/-! ### The keys of elements -/

/-- A key is counted as an element if it is the name with an index behind it. -/
theorem isElementOf_iff {name key : String} :
    isElementOf name key = true ↔
      ∃ index : String, (readIndex? index.toList).isSome = true ∧
        key = name ++ "[" ++ index ++ "]" := by
  constructor
  · intro isElement
    unfold isElementOf at isElement
    cases isRest : after? (name.toList ++ ['[']) key.toList with
    | none =>
      rw [isRest] at isElement
      cases isElement
    | some rest =>
      rw [isRest] at isElement
      dsimp only at isElement
      rcases isCut : cutOnce? ']' rest with _ | ⟨index, _ | ⟨_, _⟩⟩
      · rw [isCut] at isElement
        cases isElement
      · rw [isCut] at isElement
        refine ⟨String.ofList index, by rwa [String.toList_ofList], ?_⟩
        rw [← String.toList_inj, toList_element, String.toList_ofList, eq_of_after? isRest,
          eq_of_cutOnce? isCut, List.append_assoc]
        rfl
      · rw [isCut] at isElement
        cases isElement
  · rintro ⟨index, isIndex, rfl⟩
    have unclosed : ∀ c ∈ index.toList, c ≠ ']' := fun c member =>
      (unbracketed_of_digits (digits_of_readIndex isIndex) c member).2
    unfold isElementOf
    rw [toList_element, List.append_cons _ _ (index.toList ++ [']']), after?_append]
    dsimp only
    rw [cutOnce?_append unclosed]
    exact isIndex

/-! ### The elements that a view finds -/

theorem length_firstOfEach_le (seen : List String) (entries : List (String × String)) :
    (firstOfEach seen entries).length ≤ entries.length := by
  induction entries generalizing seen with
  | nil => exact le_rfl
  | cons first rest inductionHypothesis =>
    rw [firstOfEach]
    split
    · exact (inductionHypothesis seen).trans (Nat.le_succ _)
    · exact Nat.succ_le_succ (inductionHypothesis _)

theorem length_names_le (entries : List (String × String)) :
    (ofEntries entries).names.length ≤ entries.length := by
  rw [names, List.length_map]
  exact (length_firstOfEach_le [] _).trans_eq (List.length_map _)

theorem fresh_firstOfEach (seen : List String) (entries : List (String × String)) :
    ((firstOfEach seen entries).map Prod.fst).Nodup ∧
      ∀ name ∈ (firstOfEach seen entries).map Prod.fst, name ∉ seen := by
  induction entries generalizing seen with
  | nil => exact ⟨List.nodup_nil, fun _ member => absurd member List.not_mem_nil⟩
  | cons first rest inductionHypothesis =>
    rw [firstOfEach]
    split
    · exact inductionHypothesis seen
    · next isNew =>
      obtain ⟨nodup, unseen⟩ := inductionHypothesis (first.1 :: seen)
      refine ⟨List.nodup_cons.mpr ⟨fun again => unseen _ again List.mem_cons_self, nodup⟩, ?_⟩
      refine List.forall_mem_cons.mpr ⟨mt List.contains_iff_mem.mpr isNew, ?_⟩
      exact fun name member inSeen => unseen name member (List.mem_cons_of_mem _ inSeen)

theorem nodup_names (entries : List (String × String)) : (ofEntries entries).names.Nodup :=
  (fresh_firstOfEach [] _).1

theorem index_inj {name first second : String} :
    name ++ "[" ++ first ++ "]" = name ++ "[" ++ second ++ "]" ↔ first = second := by
  rw [← String.toList_inj, toList_element, toList_element, List.append_cancel_left_eq,
    List.cons_inj_right, List.append_cancel_right_eq, String.toList_inj]

theorem toString_injective : Function.Injective (toString : Nat → String) := by
  intro first second same
  have sameDigits := congrArg String.toList same
  rw [toList_toString, toList_toString] at sameDigits
  calc
    first = Nat.ofDigitChars 10 (Nat.toDigits 10 first) 0 := Nat.ofDigitChars_ten_toDigits.symm
    _ = Nat.ofDigitChars 10 (Nat.toDigits 10 second) 0 := by rw [sameDigits]
    _ = second := Nat.ofDigitChars_ten_toDigits

theorem elementName_injective (name : String) : Function.Injective (elementName name) :=
  fun _ _ same => toString_injective (index_inj.mp same)

section Elements

variable {view : View} {name : String}

/-- A view finds the elements that are among its names. -/
theorem element?_ne_none_iff {index : Nat} :
    view.element? name index ≠ none ↔ elementName (canonical name) index ∈ view.names := by
  constructor
  · intro found
    obtain ⟨raw, isRaw⟩ := Option.ne_none_iff_exists'.mp found
    exact List.mem_map.mpr ⟨_, mem_of_lookup isRaw, rfl⟩
  · intro member missing
    obtain ⟨entry, isEntry, same⟩ := List.mem_map.mp member
    have differs := List.lookup_eq_none_iff.mp missing entry isEntry
    rw [same, bne_self_eq_false] at differs
    cases differs

theorem isElementOf_elementName {index : Nat} (small : index < 0x10000000000000000) :
    isElementOf name (elementName name index) = true := by
  refine isElementOf_iff.mpr ⟨toString index, ?_, rfl⟩
  rw [readIndex?_toString small]
  rfl

/-- A list has the numbers of its elements in the canonical spelling, too. -/
theorem canonical_elementName (whole : trimmed name = name) (index : Nat) :
    canonical (elementName name index) = elementName (canonical name) index :=
  canonical_element whole (unbracketed_of_digits (digits_toString index))

theorem get?_elementName (whole : trimmed name = name) (view : View) (index : Nat) :
    view.get? (elementName name index) = view.element? name index := by
  rw [get?, element?, canonical_elementName whole]

/-- A view that finds an element declares the list. -/
theorem declares_of_element {index : Nat} (small : index < 0x10000000000000000)
    (found : view.element? name index ≠ none) : view.declares name = true := by
  rw [declares, Bool.or_eq_true]
  exact Or.inr (List.any_eq_true.mpr
    ⟨_, element?_ne_none_iff.mp found, isElementOf_elementName small⟩)

/-- If a view finds an element for each number below their count, it has no others. -/
theorem elements_iff_of_count (small : view.elementCount name ≤ 0x10000000000000000)
    (found : ∀ position < view.elementCount name, view.element? name position ≠ none)
    (key : String) :
    key ∈ view.names ∧ isElementOf (canonical name) key = true ↔
      ∃ position < view.elementCount name, elementName (canonical name) position = key := by
  let counted := view.names.filter (isElementOf (canonical name))
  let expected := (List.range (view.elementCount name)).map (elementName (canonical name))
  have areCounted : expected ⊆ counted := by
    intro key member
    obtain ⟨position, inside, rfl⟩ := List.mem_map.mp member
    have below := List.mem_range.mp inside
    exact List.mem_filter.mpr ⟨element?_ne_none_iff.mp (found position below),
      isElementOf_elementName (below.trans_le small)⟩
  have distinct : expected.Nodup :=
    List.Nodup.map (elementName_injective (canonical name)) List.nodup_range
  have asMany : counted.length ≤ expected.length := by
    rw [List.length_map, List.length_range]
    exact le_rfl
  have same := (List.subperm_of_subset distinct areCounted).perm_of_length_le asMany
  rw [← List.mem_filter]
  exact same.mem_iff.symm.trans (by simp [expected])

end Elements

end View

/-! ### The elements of a source -/

namespace Source

/-- Whether some key of the source spells an element of a list, with the given text as its
index. -/
def HasElement (source : Source) (name index : String) : Prop :=
  (View.readIndex? index.toList).isSome = true ∧
    ∃ key ∈ source.keys, canonical key = canonical (name ++ "[" ++ index ++ "]")

/-- The elements that the source has of a list are those from the first one up to a count. -/
def Runs (source : Source) (name : String) (count : Nat) : Prop :=
  ∀ index, source.HasElement name index ↔ ∃ position < count, toString position = index

theorem mem_names_view {source : Source} {name : String} :
    name ∈ source.view.names ↔ ∃ key ∈ source.keys, canonical key = name := by
  constructor
  · intro member
    obtain ⟨entry, isEntry, same⟩ := View.key_of_mem_names member
    exact ⟨entry.1, List.mem_map_of_mem isEntry, same⟩
  · rintro ⟨key, isKey, rfl⟩
    obtain ⟨⟨_, held⟩, isEntry, rfl⟩ := List.mem_map.mp isKey
    obtain ⟨value, answered⟩ := Option.ne_none_iff_exists'.mp (View.get?_ne_none isEntry)
    exact List.mem_map_of_mem (View.mem_of_lookup answered)

theorem elementCount_le (source : Source) (name : String) :
    source.view.elementCount name ≤ source.entries.length :=
  (List.length_filter_le _ _).trans (View.length_names_le source.entries)

section Elements

variable {source : Source} {name : String} (whole : trimmed name = name)

include whole

theorem hasElement_iff {index : String} :
    source.HasElement name index ↔
      (View.readIndex? index.toList).isSome = true ∧
        canonical name ++ "[" ++ index ++ "]" ∈ source.view.names := by
  rw [mem_names_view]
  refine and_congr_right fun isIndex => ?_
  rw [canonical_element whole (View.unbracketed_of_digits (View.digits_of_readIndex isIndex))]

/-- If a source has an element for each number below the count of its elements, then these are
all. -/
theorem runs_of_count (fits : source.entries.length ≤ 0x10000000000000000)
    (found : ∀ position < source.view.elementCount name,
      source.view.element? name position ≠ none) :
    source.Runs name (source.view.elementCount name) := by
  have small := (elementCount_le source name).trans fits
  have areElements := View.elements_iff_of_count small found
  intro index
  rw [hasElement_iff whole]
  constructor
  · rintro ⟨isIndex, isName⟩
    obtain ⟨position, below, same⟩ :=
      (areElements _).mp ⟨isName, View.isElementOf_iff.mpr ⟨index, isIndex, rfl⟩⟩
    exact ⟨position, below, View.index_inj.mp same⟩
  · rintro ⟨position, below, rfl⟩
    rw [View.readIndex?_toString (below.trans_le small)]
    exact ⟨rfl, ((areElements _).mpr ⟨position, below, rfl⟩).1⟩

/-- If the elements of a source are the first ones up to a number, then it counts that many. -/
theorem elementCount_of_runs {count : Nat} (runs : source.Runs name count) :
    source.view.elementCount name = count := by
  let counted := source.view.names.filter (View.isElementOf (canonical name))
  let expected := (List.range count).map (elementName (canonical name))
  have distinct : expected.Nodup :=
    List.Nodup.map (View.elementName_injective (canonical name)) List.nodup_range
  have otherDistinct : counted.Nodup := (View.nodup_names source.entries).filter _
  have same : counted.Perm expected := by
    refine (List.perm_ext_iff_of_nodup otherDistinct distinct).mpr fun key => ?_
    rw [List.mem_filter, List.mem_map]
    constructor
    · rintro ⟨isName, isElement⟩
      obtain ⟨index, isIndex, rfl⟩ := View.isElementOf_iff.mp isElement
      obtain ⟨position, below, rfl⟩ :=
        (runs index).mp ((hasElement_iff whole).mpr ⟨isIndex, isName⟩)
      exact ⟨position, List.mem_range.mpr below, rfl⟩
    · rintro ⟨position, inside, rfl⟩
      obtain ⟨isIndex, isName⟩ := (hasElement_iff whole).mp
        ((runs _).mpr ⟨position, List.mem_range.mp inside, rfl⟩)
      exact ⟨isName, View.isElementOf_iff.mpr ⟨_, isIndex, rfl⟩⟩
  calc
    source.view.elementCount name = expected.length := same.length_eq
    _ = count := by rw [List.length_map, List.length_range]

/-- The elements of a source are the first ones up to a number exactly if it counts that many and
finds each of these. -/
theorem runs_iff (fits : source.entries.length ≤ 0x10000000000000000) {count : Nat} :
    source.Runs name count ↔
      source.view.elementCount name = count ∧
        ∀ position < count, source.view.element? name position ≠ none := by
  constructor
  · intro runs
    refine ⟨elementCount_of_runs whole runs, fun position below => ?_⟩
    obtain ⟨_, isName⟩ := (hasElement_iff whole).mp ((runs _).mpr ⟨position, below, rfl⟩)
    exact View.element?_ne_none_iff.mpr isName
  · rintro ⟨rfl, found⟩
    exact runs_of_count whole fits found

end Elements

end Source

end LayeredConfig
