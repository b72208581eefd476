/-
This file says what reading a properties text gives back of the entries that were written in it.

Every written entry is one line, and what assembles lines into entries leaves it alone: it begins
with no blank and no sign of a comment, and it ends in an even number of backslashes. So a text has
as many entries as were written, in one document, and each of them is read for itself.
-/

import LayeredConfig.Proofs.Properties.LogicalLines
import LayeredConfig.Proofs.Properties.Writing
import LayeredConfig.Proofs.Text.Cutting

namespace LayeredConfig

open Text

namespace Properties

/-! ### Writing -/

/-- A text with one line for each entry; a line feed ends every line. -/
def writtenText (entries : List (String × String)) : String :=
  String.ofList (entries.flatMap fun entry => writtenEntry entry ++ ['\n'])

/-- A text with one line for each entry; a line feed stands between two lines. -/
def joinedText (entries : List (String × String)) : String :=
  String.ofList (List.intercalate ['\n'] (entries.map writtenEntry))

/-! ### Lines -/

/-- A backslash is written with another one. -/
theorem continues_writtenChar (c : Char) : continues (writtenChar c) = false := by
  rcases writtenChar_cases c with ⟨sign, written, _⟩ | ⟨written, plain⟩
  · rw [written]
    by_cases isEscape : sign = '\\'
    · subst isEscape
      rfl
    · simp [continues, isEscape]
  · rw [written]
    exact continues_of_not_mem fun same =>
      (parts_of_not_special plain).1 (List.mem_singleton.mp same).symm

theorem continues_writtenPart (part : List Char) : continues (writtenPart part) = false := by
  induction part with
  | nil => rfl
  | cons c part inductionHypothesis =>
    rw [writtenPart_cons, continues_append (continues_writtenChar c), inductionHypothesis]

theorem continues_writtenEntry (entry : String × String) :
    continues (writtenEntry entry) = false := by
  rw [writtenEntry, continues_append (continues_writtenPart _)]
  exact (@continues_append ['='] rfl _).trans (continues_writtenPart _)

/-- An entry begins with no blank and no sign of a comment. -/
theorem head_writtenEntry (entry : String × String) :
    ∃ c rest, writtenEntry entry = c :: rest ∧ isBlank c = false ∧ c ≠ '#' ∧ c ≠ '!' := by
  rw [writtenEntry]
  cases written : writtenPart entry.1.toList with
  | nil => exact ⟨'=', _, rfl, by decide⟩
  | cons c rest => exact ⟨c, _, rfl, head_writtenPart (by rw [written]; rfl)⟩

/-- Lines that are written entries are the entries. -/
theorem itemsFrom_writtenEntries (numbered : List (Nat × (String × String))) :
    itemsFrom none (numbered.map fun line => (line.1, writtenEntry line.2)) =
      numbered.map fun line => .entry line.1 (writtenEntry line.2) := by
  induction numbered with
  | nil => rfl
  | cons first rest inductionHypothesis =>
    obtain ⟨number, entry⟩ := first
    obtain ⟨c, others, isLine, noBlank, noHash, noMark⟩ := head_writtenEntry entry
    have whole : trimStart (writtenEntry entry) = writtenEntry entry := by
      rw [isLine, trimStart_eq_self]
      intro head isHead
      cases isHead
      exact noBlank
    have noSeparator : isSeparator (writtenEntry entry) = false := by
      simp [isLine, isSeparator, noHash, noMark]
    have noComment : ((writtenEntry entry).isEmpty || isComment (writtenEntry entry)) = false := by
      simp [isLine, isComment, noHash, noMark]
    rw [List.map_cons, List.map_cons, itemsFrom]
    dsimp only
    rw [whole, noSeparator, noComment, continues_writtenEntry, if_neg Bool.false_ne_true,
      if_neg Bool.false_ne_true, if_neg Bool.false_ne_true, inductionHypothesis]

theorem documentsOf_writtenEntries (numbered : List (Nat × (String × String))) :
    documentsOf (numbered.map fun line => .entry line.1 (writtenEntry line.2)) =
      .ok [numbered.map fun line => (keptKey line.2.1, line.2.2)] := by
  induction numbered with
  | nil => rfl
  | cons first rest inductionHypothesis =>
    obtain ⟨number, entry⟩ := first
    rw [List.map_cons, documentsOf, readEntry_writtenEntry, inductionHypothesis]
    rfl

/-! ### Texts -/

/-- What is written holds no line feed and no carriage return. -/
theorem not_mem_writtenPart {part : List Char} {c : Char} (member : c ∈ writtenPart part) :
    c ≠ '\n' ∧ c ≠ '\r' := by
  obtain ⟨original, _, inChar⟩ := List.mem_flatMap.mp member
  rcases writtenChar_cases original with ⟨sign, written, _, same, _⟩ | ⟨written, plain⟩
  · have isWritten : ['\\', sign] = writtenChar (plainEscape sign) := by rw [same, written]
    rw [written] at inChar
    simp only [List.mem_cons, List.not_mem_nil, or_false] at inChar
    rcases inChar with rfl | rfl
    · decide
    · constructor
      · rintro rfl
        revert isWritten
        decide
      · rintro rfl
        revert isWritten
        decide
  · rw [written, List.mem_singleton] at inChar
    have noBlank := (parts_of_not_special plain).2.2.2.2
    rw [← inChar] at noBlank
    constructor
    · rintro rfl
      revert noBlank
      decide
    · rintro rfl
      revert noBlank
      decide

/-- A line without line feeds and carriage returns, which is not empty. -/
def IsLine (line : List Char) : Prop :=
  '\n' ∉ line ∧ '\r' ∉ line ∧ line ≠ []

theorem isLine_writtenEntry (entry : String × String) : IsLine (writtenEntry entry) := by
  have noBreak {c : Char} (member : c ∈ writtenEntry entry) : c ≠ '\n' ∧ c ≠ '\r' := by
    rw [writtenEntry, List.mem_append, List.mem_cons] at member
    rcases member with inKey | rfl | inValue
    · exact not_mem_writtenPart inKey
    · decide
    · exact not_mem_writtenPart inValue
  exact ⟨fun member => (noBreak member).1 rfl, fun member => (noBreak member).2 rfl,
    List.append_ne_nil_of_right_ne_nil _ (List.cons_ne_nil _ _)⟩

section Lines

variable {lines : List (List Char)} (each : ∀ line ∈ lines, IsLine line)

include each

/-- No carriage return is taken from such lines. -/
theorem map_dropReturn : lines.map dropReturn = lines := by
  have same : ∀ line ∈ lines, dropReturn line = id line := by
    intro line member
    rw [dropReturn, if_neg]
    · rfl
    · intro isLast
      exact (each line member).2.1 (List.mem_of_getLast? isLast)
  rw [List.map_congr_left same, List.map_id]

/-- Lines that a line feed ends are the lines of the text. -/
theorem naturalLines_ended : naturalLines (lines.flatMap (· ++ ['\n'])) = lines := by
  have pieces : cutChars '\n' (lines.flatMap (· ++ ['\n'])) = lines ++ [[]] := by
    induction lines with
    | nil => rfl
    | cons line rest inductionHypothesis =>
      rw [List.flatMap_cons, List.append_assoc, List.singleton_append, cutChars_append,
        cutChars_of_not_mem (each line List.mem_cons_self).1,
        inductionHypothesis fun other member => each other (List.mem_cons_of_mem _ member)]
      rfl
  rw [naturalLines, pieces, List.getLast?_concat, List.dropLast_concat, map_dropReturn each]

/-- Lines that a line feed separates are the lines of the text. -/
theorem naturalLines_joined : naturalLines (List.intercalate ['\n'] lines) = lines := by
  rcases List.eq_nil_or_concat lines with rfl | ⟨front, last, rfl⟩
  · rfl
  rw [List.concat_eq_append] at each ⊢
  have pieces : cutChars '\n' (List.intercalate ['\n'] (front ++ [last])) = front ++ [last] := by
    rw [cutChars_eq]
    exact List.splitOn_intercalate '\n' (fun line member => (each line member).1) (by simp)
  have notEmpty := (each last (by simp)).2.2
  rw [naturalLines, pieces, List.getLast?_concat, List.dropLast_concat,
    map_dropReturn fun line member => each line (List.mem_append_left _ member)]
  cases last with
  | nil => exact absurd rfl notEmpty
  | cons => rfl

end Lines

theorem isLine_writtenEntries (entries : List (String × String)) :
    ∀ line ∈ entries.map writtenEntry, IsLine line := by
  intro line member
  obtain ⟨entry, _, rfl⟩ := List.mem_map.mp member
  exact isLine_writtenEntry entry

/-- A text whose lines are written entries has one document. -/
theorem read_of_lines {text : String} {entries : List (String × String)}
    (isText : naturalLines text.toList = entries.map writtenEntry) :
    read text = .ok [entries.map fun entry => (keptKey entry.1, entry.2)] := by
  have itemsOfText : items text.toList =
      itemsFrom none ((naturalLines text.toList).zipIdx.map fun line => (line.2 + 1, line.1)) := rfl
  have numbered : (naturalLines text.toList).zipIdx.map (fun line => (line.2 + 1, line.1)) =
      (entries.zipIdx.map fun line => (line.2 + 1, line.1)).map
        fun line => (line.1, writtenEntry line.2) := by
    rw [isText, List.zipIdx_map, List.map_map, List.map_map]
    rfl
  rw [read, itemsOfText, numbered, itemsFrom_writtenEntries, documentsOf_writtenEntries,
    List.map_map]
  conv_rhs => rw [← List.zipIdx_map_fst 0 entries, List.map_map]
  rfl

/-- A key is kept exactly if it does not end in a blank without a letter. -/
theorem keptKey_eq_self {key : String} :
    keptKey key = key ↔ key.toList.getLast?.any isBareBlank = false := by
  rw [keptKey]
  split
  · next lost =>
    refine iff_of_false (fun same => ?_) (by rw [lost]; exact Bool.noConfusion)
    have noShorter := congrArg (·.toList.length) same
    rw [String.toList_ofList, List.length_dropLast] at noShorter
    have isEmpty : key.toList = [] := List.eq_nil_of_length_eq_zero (by omega)
    rw [isEmpty] at lost
    cases lost
  · next kept => exact iff_of_true rfl (Bool.not_eq_true _ ▸ kept)

/-- All entries of a written text are read, in their order. -/
theorem read_writtenText (entries : List (String × String)) :
    read (writtenText entries) = .ok [entries.map fun entry => (keptKey entry.1, entry.2)] := by
  refine read_of_lines ?_
  rw [writtenText, String.toList_ofList, ← naturalLines_ended (isLine_writtenEntries entries),
    List.flatMap_map]

/-- Written entries are read back in one document, in their order, with their values, and with their
keys but for one blank: a key that ends in a blank without a letter loses that. So they are read
back unchanged exactly if no key ends in such a blank. -/
theorem reads_back_up_to_last_blank (entries : List (String × String)) :
    read (writtenText entries) = .ok [entries.map fun entry => (keptKey entry.1, entry.2)] ∧
    read (joinedText entries) = .ok [entries.map fun entry => (keptKey entry.1, entry.2)] ∧
    (read (writtenText entries) = .ok [entries] ↔
      ∀ entry ∈ entries, entry.1.toList.getLast?.any isBareBlank = false) := by
  refine ⟨read_writtenText entries, read_of_lines ?_, ?_⟩
  · rw [joinedText, String.toList_ofList, naturalLines_joined (isLine_writtenEntries entries)]
  · rw [read_writtenText, Except.ok.injEq, List.cons.injEq, eq_self, and_true]
    conv_lhs => rhs; rw [← List.map_id entries]
    rw [List.map_eq_map_iff]
    refine forall₂_congr fun entry _ => ?_
    rw [← keptKey_eq_self, id_eq, Prod.ext_iff]
    exact and_iff_left rfl

/-- A blank at the end of a key is lost, although it is written behind a backslash. -/
theorem last_blank_of_key_lost :
    writtenText [("k ", "v")] = "k\\ =v\n" ∧ read "k\\ =v\n" = .ok [[("k", "v")]] ∧
      ¬ ∀ entries, read (writtenText entries) = .ok [entries] := by
  have written : writtenText [("k ", "v")] = "k\\ =v\n" := by decide
  have isRead : read (writtenText [("k ", "v")]) = .ok [[("k", "v")]] := read_writtenText _
  refine ⟨written, written ▸ isRead, fun all => ?_⟩
  have unchanged := (all [("k ", "v")]).symm.trans isRead
  revert unchanged
  decide

end Properties

end LayeredConfig
