/-
This file writes the keys and values of a properties text, and says what the reader makes of one
entry.

In a key and in a value a backslash stands before every character that means something to the
reader; the control characters with a letter of their own are written by it. The value is read as it
was. The key is cut at the `=` behind it, since all its own signs stand behind backslashes, but it
is trimmed before its escapes are read: a blank at its end is taken off although a backslash stands
before it, and the backslash that is left stands for nothing. So a key loses its last character if
that is a blank without a letter.
-/

import LayeredConfig.Properties.Document
import LayeredConfig.Proofs.Text.Trimming

namespace LayeredConfig

open Text

namespace Properties

/-! ### Writing -/

/-- The letter of a control character that has one. -/
def letter? (c : Char) : Option Char :=
  if c = '\t' then some 't'
  else if c = '\n' then some 'n'
  else if c = '\r' then some 'r'
  else if c = '\x0c' then some 'f'
  else none

/-- Whether a character means something to the reader of an entry. -/
def isSpecial (c : Char) : Bool :=
  c = '\\' || isAssignment c || c = '#' || c = '!' || isBlank c

def writtenChar (c : Char) : List Char :=
  match letter? c with
  | some letter => ['\\', letter]
  | none => if isSpecial c then ['\\', c] else [c]

/-- A key or a value as it is written. -/
def writtenPart (part : List Char) : List Char :=
  part.flatMap writtenChar

def writtenEntry (entry : String × String) : List Char :=
  writtenPart entry.1.toList ++ '=' :: writtenPart entry.2.toList

/-- Whether a character is a blank that is written by itself, as it has no letter. -/
def isBareBlank (c : Char) : Bool :=
  isBlank c && (letter? c).isNone

/-- A key without the blank that it loses. -/
def keptKey (key : String) : String :=
  if key.toList.getLast?.any isBareBlank then String.ofList key.toList.dropLast else key

/-! ### Characters as they are written -/

/-- A character is written behind a backslash, by a letter or by itself, or as it is. -/
theorem writtenChar_cases (c : Char) :
    (∃ sign, writtenChar c = ['\\', sign] ∧ sign ≠ 'u' ∧ plainEscape sign = c ∧
        isBlank sign = isBareBlank c) ∨
      (writtenChar c = [c] ∧ isSpecial c = false) := by
  by_cases tab : c = '\t'
  · subst tab
    exact Or.inl ⟨'t', by decide⟩
  by_cases lineFeed : c = '\n'
  · subst lineFeed
    exact Or.inl ⟨'n', by decide⟩
  by_cases carriageReturn : c = '\r'
  · subst carriageReturn
    exact Or.inl ⟨'r', by decide⟩
  by_cases formFeed : c = '\x0c'
  · subst formFeed
    exact Or.inl ⟨'f', by decide⟩
  have noLetter : letter? c = none := by
    rw [letter?, if_neg tab, if_neg lineFeed, if_neg carriageReturn, if_neg formFeed]
  have bare : isBlank c = isBareBlank c := by
    rw [isBareBlank, noLetter, Option.isNone_none, Bool.and_true]
  cases special : isSpecial c with
  | false => exact Or.inr ⟨by rw [writtenChar, noLetter, special]; rfl, rfl⟩
  | true =>
    have isOther {other : Char} (plain : isSpecial other = false) : c ≠ other := by
      rintro rfl
      rw [special] at plain
      cases plain
    have ownEscape : plainEscape c = c := by
      rw [plainEscape, if_neg (isOther (by decide)), if_neg (isOther (by decide)),
        if_neg (isOther (by decide)), if_neg (isOther (by decide))]
    exact Or.inl ⟨c, by rw [writtenChar, noLetter, special]; rfl, isOther (by decide), ownEscape,
      bare⟩

theorem parts_of_not_special {c : Char} (plain : isSpecial c = false) :
    c ≠ '\\' ∧ isAssignment c = false ∧ c ≠ '#' ∧ c ≠ '!' ∧ isBlank c = false := by
  simp only [isSpecial, Bool.or_eq_false_iff, decide_eq_false_iff_not] at plain
  exact ⟨plain.1.1.1.1, plain.1.1.1.2, plain.1.1.2, plain.1.2, plain.2⟩

theorem writtenPart_cons (c : Char) (rest : List Char) :
    writtenPart (c :: rest) = writtenChar c ++ writtenPart rest :=
  List.flatMap_cons

theorem writtenPart_concat (first : List Char) (c : Char) :
    writtenPart (first ++ [c]) = writtenPart first ++ writtenChar c := by
  rw [writtenPart, List.flatMap_append, List.flatMap_singleton]
  rfl

/-! ### Reading the escapes -/

theorem unescape_plain {c : Char} (plain : c ≠ '\\') (rest : List Char) :
    unescape (c :: rest) = (unescape rest).map (c :: ·) :=
  unescape.eq_5 c rest (fun same _ => plain same) (fun _ same _ => plain same)
    fun _ _ same _ => plain same

/-- What is written is read as it was, whatever follows. -/
theorem unescape_writtenPart (part rest : List Char) :
    unescape (writtenPart part ++ rest) = (unescape rest).map (part ++ ·) := by
  induction part with
  | nil =>
    show unescape rest = _
    cases unescape rest <;> rfl
  | cons c part inductionHypothesis =>
    have extend : ((unescape rest).map (part ++ ·)).map (c :: ·) =
        (unescape rest).map (c :: part ++ ·) := by
      cases unescape rest <;> rfl
    rw [writtenPart_cons, List.append_assoc]
    rcases writtenChar_cases c with ⟨sign, written, notUnicode, same, _⟩ | ⟨written, plain⟩
    · rw [written]
      show unescape ('\\' :: sign :: (writtenPart part ++ rest)) = _
      rw [unescape.eq_4 _ _ notUnicode, inductionHypothesis, same, extend]
    · rw [written]
      show unescape (c :: (writtenPart part ++ rest)) = _
      rw [unescape_plain (parts_of_not_special plain).1, inductionHypothesis, extend]

/-! ### Cutting the entry -/

theorem cutEntryFrom_plain {c : Char} (plain : isSpecial c = false) (key rest : List Char) :
    cutEntryFrom key (c :: rest) = cutEntryFrom (c :: key) rest := by
  obtain ⟨noEscape, noAssignment, _, _, noBlank⟩ := parts_of_not_special plain
  rw [cutEntryFrom.eq_4 key c rest (fun same _ => noEscape same) fun _ _ same _ => noEscape same,
    noAssignment, noBlank, if_neg Bool.false_ne_true, if_neg Bool.false_ne_true]

/-- An entry is cut behind what is written of the key. -/
theorem cutEntryFrom_writtenPart (part key rest : List Char) :
    cutEntryFrom key (writtenPart part ++ '=' :: rest) =
      (trimEnd (key.reverse ++ writtenPart part), trimStart rest) := by
  induction part generalizing key with
  | nil =>
    show cutEntryFrom key ('=' :: rest) = _
    rw [writtenPart, List.flatMap_nil, List.append_nil]
    rfl
  | cons c part inductionHypothesis =>
    rw [writtenPart_cons, List.append_assoc]
    rcases writtenChar_cases c with ⟨sign, written, _⟩ | ⟨written, plain⟩
    · rw [written]
      show cutEntryFrom key ('\\' :: sign :: (writtenPart part ++ '=' :: rest)) = _
      rw [cutEntryFrom, inductionHypothesis]
      simp only [List.reverse_cons, List.append_assoc, List.cons_append, List.nil_append]
    · rw [written]
      show cutEntryFrom key (c :: (writtenPart part ++ '=' :: rest)) = _
      rw [cutEntryFrom_plain plain, inductionHypothesis]
      simp only [List.reverse_cons, List.append_assoc]

/-- What is written begins with no blank and no sign of a comment. -/
theorem head_writtenPart {part : List Char} {c : Char}
    (isHead : c ∈ (writtenPart part).head?) : isBlank c = false ∧ c ≠ '#' ∧ c ≠ '!' := by
  cases part with
  | nil => cases isHead
  | cons first rest =>
    rw [writtenPart_cons] at isHead
    rcases writtenChar_cases first with ⟨sign, written, _⟩ | ⟨written, plain⟩
    · rw [written] at isHead
      cases isHead
      decide
    · rw [written] at isHead
      cases isHead
      obtain ⟨_, _, noHash, noMark, noBlank⟩ := parts_of_not_special plain
      exact ⟨noBlank, noHash, noMark⟩

theorem trimStart_writtenPart (part : List Char) : trimStart (writtenPart part) = writtenPart part :=
  trimStart_eq_self.mpr fun _ isHead => (head_writtenPart isHead).1

/-- A blank at the end of a key is trimmed although a backslash stands before it. -/
theorem unescape_trimEnd (key : List Char) :
    unescape (trimEnd (writtenPart key)) =
      .ok (if key.getLast?.any isBareBlank then key.dropLast else key) := by
  have whole (part : List Char) : unescape (writtenPart part) = .ok part := by
    simpa [unescape, Except.map] using unescape_writtenPart part []
  rcases List.eq_nil_or_concat key with rfl | ⟨first, c, rfl⟩
  · exact whole []
  rw [List.concat_eq_append, List.getLast?_concat, List.dropLast_concat, Option.any_some]
  rcases writtenChar_cases c with ⟨sign, written, _, _, bare⟩ | ⟨written, plain⟩
  · cases isBare : isBareBlank c with
    | true =>
      have trims : trimEnd (writtenPart (first ++ [c])) = writtenPart first ++ ['\\'] := by
        rw [writtenPart_concat, written, trimEnd]
        simp [bare, isBare, show isBlank '\\' = false from by decide]
      rw [trims, unescape_writtenPart, if_pos rfl, unescape, Except.map, List.append_nil]
    | false =>
      rw [trimEnd_eq_self.mpr, whole, if_neg Bool.false_ne_true]
      intro last isLast
      rw [writtenPart_concat, written] at isLast
      simp only [List.getLast?_append, List.getLast?_cons_cons, List.getLast?_singleton,
        Option.some_or, Option.mem_some_iff] at isLast
      rw [← isLast, bare, isBare]
  · have noBlank := (parts_of_not_special plain).2.2.2.2
    rw [trimEnd_eq_self.mpr, whole, isBareBlank, noBlank, Bool.false_and,
      if_neg Bool.false_ne_true]
    intro last isLast
    rw [writtenPart_concat, written] at isLast
    simp only [List.getLast?_append, List.getLast?_singleton, Option.some_or,
      Option.mem_some_iff] at isLast
    rw [← isLast, noBlank]

theorem readEntry_writtenEntry (number : Nat) (entry : String × String) :
    readEntry number (writtenEntry entry) = .ok (keptKey entry.1, entry.2) := by
  have value : unescape (writtenPart entry.2.toList) = .ok entry.2.toList := by
    simpa [unescape, Except.map] using unescape_writtenPart entry.2.toList []
  have cuts : cutEntry (writtenEntry entry) =
      (trimEnd (writtenPart entry.1.toList), writtenPart entry.2.toList) := by
    rw [cutEntry, writtenEntry, cutEntryFrom_writtenPart, trimStart_writtenPart]
    rfl
  rw [readEntry, cuts]
  dsimp only
  rw [readPart, readPart, unescape_trimEnd, value]
  dsimp only
  rw [String.ofList_toList, keptKey]
  split <;> simp [bind, Except.bind, pure, Except.pure]

end Properties

end LayeredConfig
