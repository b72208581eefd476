/-
This file says how texts that are put together come apart again when they are cut.
-/

import LayeredConfig.Text.Blank
import Mathlib.Data.List.Basic

namespace LayeredConfig.Text

/-! ### At every occurrence -/

theorem cutChars_eq (separator : Char) (chars : List Char) :
    cutChars separator chars = chars.splitOn separator := by
  induction chars with
  | nil => rfl
  | cons c rest inductionHypothesis =>
    rw [cutChars, inductionHypothesis, List.splitOn_cons_eq_if_modifyHead]
    cases pieces : rest.splitOn separator with
    | nil => exact absurd pieces (List.splitOn_ne_nil separator rest)
    | cons piece others =>
      by_cases same : c = separator
      · simp [same]
      · simp [same]

/-- What is cut at a separator is cut before it and behind it. -/
theorem cutChars_append (separator : Char) (first second : List Char) :
    cutChars separator (first ++ separator :: second) =
      cutChars separator first ++ cutChars separator second := by
  simp only [cutChars_eq, List.splitOn_append_cons_self]

theorem cutChars_of_not_mem {separator : Char} {chars : List Char} (whole : separator ∉ chars) :
    cutChars separator chars = [chars] := by
  rw [cutChars_eq, List.splitOn_eq_singleton whole]

/-- No piece holds the separator. -/
theorem not_mem_of_mem_cutChars {separator : Char} {chars piece : List Char}
    (member : piece ∈ cutChars separator chars) : separator ∉ piece := by
  induction chars generalizing piece with
  | nil =>
    rw [List.mem_singleton.mp member]
    exact List.not_mem_nil
  | cons c rest inductionHypothesis =>
    rw [cutChars] at member
    split at member
    · next none =>
      rw [cutChars_eq] at none
      exact absurd none (List.splitOn_ne_nil _ _)
    · next first others pieces =>
      have inFirst := inductionHypothesis (pieces ▸ List.mem_cons_self)
      have inOthers {other : List Char} (isOther : other ∈ others) : separator ∉ other :=
        inductionHypothesis (pieces ▸ List.mem_cons_of_mem _ isOther)
      split at member
      · rcases List.mem_cons.mp member with rfl | isPiece
        · exact List.not_mem_nil
        · rcases List.mem_cons.mp isPiece with rfl | isOther
          · exact inFirst
          · exact inOthers isOther
      · next differs =>
        rcases List.mem_cons.mp member with rfl | isOther
        · rw [List.mem_cons, not_or]
          exact ⟨fun same => differs same.symm, inFirst⟩
        · exact inOthers isOther

/-- What is put before a text without a separator goes to the first piece. -/
theorem cutChars_append_left {separator : Char} {before : List Char} (whole : separator ∉ before)
    (chars : List Char) : ∃ first later, cutChars separator chars = first :: later ∧
      cutChars separator (before ++ chars) = (before ++ first) :: later := by
  induction before with
  | nil =>
    obtain ⟨first, later, pieces⟩ := List.exists_cons_of_ne_nil
      (cutChars_eq separator chars ▸ List.splitOn_ne_nil separator chars)
    exact ⟨first, later, pieces, pieces⟩
  | cons c before inductionHypothesis =>
    rw [List.mem_cons, not_or] at whole
    obtain ⟨first, later, pieces, longer⟩ := inductionHypothesis whole.2
    refine ⟨first, later, pieces, ?_⟩
    rw [List.cons_append, cutChars, longer, List.cons_append]
    exact if_neg (Ne.symm whole.1)

/-- What is put behind a text without a separator goes to the last piece. -/
theorem cutChars_append_right {separator : Char} {behind : List Char} (whole : separator ∉ behind)
    (chars : List Char) : ∃ earlier last, cutChars separator chars = earlier ++ [last] ∧
      cutChars separator (chars ++ behind) = earlier ++ [last ++ behind] := by
  induction chars with
  | nil => exact ⟨[], [], rfl, cutChars_of_not_mem whole⟩
  | cons c rest inductionHypothesis =>
    obtain ⟨earlier, last, pieces, longer⟩ := inductionHypothesis
    by_cases same : c = separator
    · exact ⟨[] :: earlier, last, by cases earlier <;> simp [cutChars, pieces, same],
        by cases earlier <;> simp [cutChars, longer, same]⟩
    · cases earlier with
      | nil => exact ⟨[], c :: last, by simp [cutChars, pieces, same],
          by simp [cutChars, longer, same]⟩
      | cons first others => exact ⟨(c :: first) :: others, last,
          by simp [cutChars, pieces, same], by simp [cutChars, longer, same]⟩

/-! ### At the first occurrence -/

theorem after?_append (lead rest : List Char) : after? lead (lead ++ rest) = some rest := by
  induction lead with
  | nil => rfl
  | cons c lead inductionHypothesis =>
    rw [List.cons_append, after?, if_pos rfl, inductionHypothesis]

/-- A text with a leading text taken off is the leading text and what is left. -/
theorem eq_of_after? {lead chars rest : List Char} (isRest : after? lead chars = some rest) :
    chars = lead ++ rest := by
  induction lead generalizing chars with
  | nil => exact Option.some.inj isRest
  | cons a lead inductionHypothesis =>
    cases chars with
    | nil => cases isRest
    | cons c chars =>
      rw [after?] at isRest
      split at isRest
      · next same => rw [same, List.cons_append, inductionHypothesis isRest]
      · cases isRest

theorem rest?_append (lead rest : String) : rest? lead (lead ++ rest) = some rest := by
  rw [rest?, String.toList_append, after?_append, Option.map_some, String.ofList_toList]

theorem eq_of_rest? {lead text rest : String} (isRest : rest? lead text = some rest) :
    text = lead ++ rest := by
  obtain ⟨chars, after, rfl⟩ := Option.map_eq_some_iff.mp isRest
  rw [← String.toList_inj, eq_of_after? after, String.toList_append, String.toList_ofList]

/-- Nothing is left of a text exactly if it does not begin with the leading text. -/
theorem rest?_eq_none_iff {lead text : String} :
    rest? lead text = none ↔ ∀ rest, text ≠ lead ++ rest := by
  constructor
  · rintro none rest rfl
    rw [rest?_append] at none
    cases none
  · intro never
    cases isRest : rest? lead text with
    | none => rfl
    | some rest => exact absurd (eq_of_rest? isRest) (never rest)

theorem cutOnce?_append {separator : Char} {before : List Char}
    (absent : ∀ c ∈ before, c ≠ separator) (rest : List Char) :
    cutOnce? separator (before ++ separator :: rest) = some (before, rest) := by
  induction before with
  | nil => rw [List.nil_append, cutOnce?, if_pos rfl]
  | cons c before inductionHypothesis =>
    rw [List.cons_append, cutOnce?, if_neg (absent c List.mem_cons_self),
      inductionHypothesis fun other member => absent other (List.mem_cons_of_mem _ member)]
    rfl

/-- The parts of a text, and the separator between them. -/
theorem eq_of_cutOnce? {separator : Char} {chars before after : List Char}
    (isCut : cutOnce? separator chars = some (before, after)) :
    chars = before ++ separator :: after := by
  induction chars generalizing before with
  | nil => cases isCut
  | cons c rest inductionHypothesis =>
    rw [cutOnce?] at isCut
    split at isCut
    · next same =>
      obtain ⟨rfl, rfl⟩ := Prod.mk.inj (Option.some.inj isCut)
      rw [same]
      rfl
    · obtain ⟨⟨first, _⟩, isRest, same⟩ := Option.map_eq_some_iff.mp isCut
      obtain ⟨rfl, rfl⟩ := Prod.mk.inj same
      rw [inductionHypothesis isRest]
      rfl

/-- The first part of a text that is cut once does not hold the separator. -/
theorem not_mem_of_cutOnce? {separator : Char} {chars before after : List Char}
    (isCut : cutOnce? separator chars = some (before, after)) : separator ∉ before := by
  induction chars generalizing before with
  | nil => cases isCut
  | cons c rest inductionHypothesis =>
    rw [cutOnce?] at isCut
    split at isCut
    · obtain ⟨rfl, _⟩ := Prod.mk.inj (Option.some.inj isCut)
      exact List.not_mem_nil
    · next differs =>
      obtain ⟨⟨first, _⟩, isRest, same⟩ := Option.map_eq_some_iff.mp isCut
      obtain ⟨rfl, rfl⟩ := Prod.mk.inj same
      rw [List.mem_cons, not_or]
      exact ⟨fun same => differs same.symm, inductionHypothesis isRest⟩

end LayeredConfig.Text
