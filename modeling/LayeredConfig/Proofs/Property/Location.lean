/-
This file says what a declared location is read as, and that its text is read as the same location.

What counts is the declared text without the blanks around it, without one mark in front, and
without the blanks around the rest; if nothing is left, there is no location. Only one mark is taken
off, so the value of an optional location may begin with another one. A location that is not
optional cannot: this is what keeps its text from being read as an optional one.
-/

import LayeredConfig.Error
import LayeredConfig.Proofs.Text.Cutting
import LayeredConfig.Proofs.Text.Trimming

namespace LayeredConfig

open Text

namespace Location

/-- What a declared text names, whether it is marked or not. -/
def core (declared : String) : String :=
  trimmed ((rest? optionalMark (trimmed declared)).getD (trimmed declared))

/-- The locations that texts are read as. -/
structure Readable (location : Location) : Prop where
  filled : location.value ≠ ""
  isTrimmed : trimmed location.value = location.value
  unmarked : location.optional = false → rest? optionalMark location.value = none

theorem read?_eq (declared : String) :
    read? declared = if core declared = "" then none
      else some ⟨core declared, (rest? optionalMark (trimmed declared)).isSome⟩ := by
  cases marked : rest? optionalMark (trimmed declared) with
  | some value => simp only [read?, core, marked, Option.getD_some, Option.isSome_some]
  | none => simp only [read?, core, marked, Option.getD_none, Option.isSome_none, trimmed_trimmed]

/-- A text is read unless nothing is left of it, and it is optional if it begins with the mark. -/
theorem read_eq (declared : String) :
    read declared =
      if core declared = "" then
        .error (.unbound PropertyName.imports ("empty import location '" ++ declared ++ "'"))
      else .ok ⟨core declared, (rest? optionalMark (trimmed declared)).isSome⟩ := by
  rw [read, read?_eq]
  by_cases isEmpty : core declared = ""
  · rw [if_pos isEmpty, if_pos isEmpty]
  · rw [if_neg isEmpty, if_neg isEmpty]

theorem readable_of_read {declared : String} {location : Location}
    (isRead : read declared = .ok location) : Readable location := by
  rw [read_eq] at isRead
  split at isRead
  · cases isRead
  · next filled =>
    rw [← Except.ok.inj isRead]
    refine ⟨filled, trimmed_trimmed _, fun required => ?_⟩
    have unmarked : rest? optionalMark (trimmed declared) = none := by
      simpa only [Option.isSome_eq_false_iff, Option.isNone_iff_eq_none] using required
    dsimp only
    rw [core, unmarked, Option.getD_none, trimmed_trimmed, unmarked]

/-- The text of a location that is read has no blanks around it. -/
theorem trimmed_text {location : Location} (readable : Readable location) :
    trimmed location.text = location.text := by
  obtain ⟨value, optional⟩ := location
  obtain ⟨filled, isTrimmed, _⟩ := readable
  cases optional with
  | false => exact isTrimmed
  | true =>
    have trimmedChars : trim value.toList = value.toList := by
      rwa [trimmed, ← String.toList_inj, String.toList_ofList] at isTrimmed
    have filledChars : value.toList ≠ [] := fun none => filled (String.toList_eq_nil_iff.mp none)
    show trimmed (optionalMark ++ value) = optionalMark ++ value
    rw [trimmed, String.toList_append, trim_append ⟨'o', rfl, by decide⟩ filledChars trimmedChars,
      ← String.toList_append, String.ofList_toList]

theorem read_text {location : Location} (readable : Readable location) :
    read location.text = .ok location := by
  have whole := trimmed_text readable
  obtain ⟨value, optional⟩ := location
  obtain ⟨filled, isTrimmed, unmarked⟩ := readable
  have isRest : rest? optionalMark (text ⟨value, optional⟩) =
      if optional = true then some value else none := by
    cases optional with
    | false => exact unmarked rfl
    | true => exact rest?_append optionalMark value
  have isCore : core (text ⟨value, optional⟩) = value := by
    rw [core, whole, isRest]
    cases optional <;> exact isTrimmed
  rw [read_eq, isCore, if_neg filled, whole, isRest]
  cases optional <;> rfl

/-- The value of a location that is read is not empty, has no blanks around it, and begins with the
mark only if the location is optional; and its text is read as the same location again. A text is
read unless nothing is left of it without the blanks around it and one mark. -/
theorem reads_own_text (declared : String) :
    (∀ location, read declared = .ok location →
      read location.text = .ok location ∧
      (location.optional = false → ∀ rest, location.value ≠ optionalMark ++ rest) ∧
      location.value ≠ "" ∧ trimmed location.value = location.value) ∧
    ((∃ cause, read declared = .error cause) ↔ core declared = "") := by
  refine ⟨fun location isRead => ?_, ?_⟩
  · have readable := readable_of_read isRead
    exact ⟨read_text readable, fun required => rest?_eq_none_iff.mp (readable.unmarked required),
      readable.filled, readable.isTrimmed⟩
  · rw [read_eq]
    by_cases isEmpty : core declared = ""
    · rw [if_pos isEmpty]
      exact ⟨fun _ => isEmpty, fun _ => ⟨_, rfl⟩⟩
    · rw [if_neg isEmpty]
      exact ⟨fun ⟨_, failed⟩ => (nomatch failed), fun emptied => absurd emptied isEmpty⟩

/-- Of two marks one is taken off, and of one behind other text none is. -/
theorem reads_own_text_twice_marked :
    read "\t optional: optional:a " = .ok ⟨"optional:a", true⟩ ∧
      read "optional:optional:a" = .ok ⟨"optional:a", true⟩ ∧
    read " a optional:" = .ok ⟨"a optional:", false⟩ ∧
      ∀ rest, "a optional:" ≠ optionalMark ++ rest := by
  have marked : read "\t optional: optional:a " = .ok ⟨"optional:a", true⟩ := by
    rw [read, show read? "\t optional: optional:a " = some ⟨"optional:a", true⟩ by decide]
  have unmarked : read " a optional:" = .ok ⟨"a optional:", false⟩ := by
    rw [read, show read? " a optional:" = some ⟨"a optional:", false⟩ by decide]
  exact ⟨marked, ((reads_own_text _).1 _ marked).1, unmarked,
    ((reads_own_text _).1 _ unmarked).2.1 rfl⟩

end Location

end LayeredConfig
