/-
This file says what trimming leaves: everything, if a text neither begins nor ends with a blank, and
nothing, if it is blank throughout.
-/

import LayeredConfig.Text.Blank
import Mathlib.Data.List.DropRight

namespace LayeredConfig.Text

theorem trimStart_eq_self {chars : List Char} :
    trimStart chars = chars ↔ ∀ c ∈ chars.head?, isBlank c = false := by
  cases chars with
  | nil => simp [trimStart]
  | cons c rest =>
    rw [trimStart, List.dropWhile_eq_self_iff]
    simp

theorem trimEnd_eq_self {chars : List Char} :
    trimEnd chars = chars ↔ ∀ c ∈ chars.getLast?, isBlank c = false := by
  rw [trimEnd, List.reverse_eq_iff, ← List.head?_reverse]
  exact trimStart_eq_self

/-- A text that trimming leaves alone has no blank at either end. -/
theorem trim_eq_self {chars : List Char} :
    trim chars = chars ↔
      (∀ c ∈ chars.head?, isBlank c = false) ∧ ∀ c ∈ chars.getLast?, isBlank c = false := by
  rw [← trimStart_eq_self, ← trimEnd_eq_self]
  constructor
  · intro whole
    have isStart : trimStart chars = chars := by
      refine (List.dropWhile_sublist isBlank).eq_of_length_le ?_
      calc
        chars.length = (trim chars).length := by rw [whole]
        _ ≤ (trimStart chars).length := length_trimEnd_le _
    rw [trim, isStart] at whole
    exact ⟨isStart, whole⟩
  · rintro ⟨isStart, isEnd⟩
    rw [trim, isStart, isEnd]

/-- Trimming leaves nothing to trim. -/
theorem trim_trim (chars : List Char) : trim (trim chars) = trim chars := by
  have isStart : trimStart (trimStart chars) = trimStart chars :=
    List.dropWhile_idempotent isBlank chars
  refine trim_eq_self.mpr ⟨fun c isFirst => ?_, fun c isLast => ?_⟩
  · -- What is left begins as it does before its end is trimmed.
    obtain ⟨behind, whole⟩ := List.rdropWhile_prefix isBlank (trimStart chars)
    have first : (List.rdropWhile isBlank (trimStart chars)).head? = some c := isFirst
    refine trimStart_eq_self.mp isStart c ?_
    rw [← whole, List.head?_append, first]
    rfl
  · have isEnd : trimEnd (trim chars) = trim chars := List.rdropWhile_idempotent isBlank _
    exact trimEnd_eq_self.mp isEnd c isLast

theorem trimmed_trimmed (text : String) : trimmed (trimmed text) = trimmed text := by
  rw [trimmed, trimmed, String.toList_ofList, trim_trim]

/-- Nothing is trimmed where a text that begins with no blank stands before a trimmed one. -/
theorem trim_append {front back : List Char} (begins : ∃ c ∈ front.head?, isBlank c = false)
    (filled : back ≠ []) (isTrimmed : trim back = back) : trim (front ++ back) = front ++ back := by
  obtain ⟨first, isFirst, notBlank⟩ := begins
  refine trim_eq_self.mpr ⟨fun c isHead => ?_, fun c isLast => ?_⟩
  · rw [List.head?_append, Option.mem_def.mp isFirst] at isHead
    cases isHead
    exact notBlank
  · rw [List.getLast?_append_of_ne_nil _ filled] at isLast
    exact (trim_eq_self.mp isTrimmed).2 c isLast

theorem trim_eq_nil {chars : List Char} : trim chars = [] ↔ ∀ c ∈ chars, isBlank c = true := by
  rw [trim, trimEnd, List.reverse_eq_nil_iff, List.dropWhile_eq_nil_iff, trimStart]
  constructor
  · intro blank
    cases left : chars.dropWhile isBlank with
    | nil => exact List.dropWhile_eq_nil_iff.mp left
    | cons c rest =>
      have stops := List.head?_dropWhile_not isBlank chars
      rw [left] at blank stops
      simp [blank c (by simp)] at stops
  · intro blank
    rw [List.dropWhile_eq_nil_iff.mpr blank]
    simp

/-- Nothing is left of a text exactly if it is blank. -/
theorem trimmed_eq_empty {text : String} : trimmed text = "" ↔ isBlankText text = true := by
  rw [trimmed, isBlankText, List.all_eq_true, ← trim_eq_nil, ← String.toList_inj,
    String.toList_ofList, String.toList_empty]

end LayeredConfig.Text
