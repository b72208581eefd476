/-
This file says which natural lines make up the entries of a properties text, and in which document
an entry stands.

An entry goes on in the next line if its own last line ends in an odd number of backslashes. What
is kept of the lines before has lost the last of its backslashes, so it ends in an even number of
them, and it makes no difference that the reader counts the backslashes of all that it has put
together: those of the last line alone decide. A separator, a comment or a blank line that an entry
goes on into is a part of it; outside entries, each separator ends a document.
-/

import LayeredConfig.Properties.Document
import LayeredConfig.Proofs.Run
import Mathlib.Data.List.Forall2

namespace LayeredConfig

open Text

namespace Properties

/-! ### Backslashes at the end -/

/-- Behind a text that ends in an even number of backslashes, only the backslashes that come later
count. -/
theorem continues_append {front : List Char} (even : continues front = false) (text : List Char) :
    continues (front ++ text) = continues text := by
  rw [continues, continues, List.reverse_append, List.takeWhile_append]
  split
  · next all =>
    rw [continues, beq_eq_false_iff_ne] at even
    rw [List.length_append, all, Bool.eq_iff_iff, beq_iff_eq, beq_iff_eq, List.length_reverse]
    omega
  · rfl

theorem continues_of_not_mem {text : List Char} (absent : '\\' ∉ text) :
    continues text = false := by
  rw [continues]
  cases reversed : text.reverse with
  | nil => rfl
  | cons last _ =>
    have noEscape : last ≠ '\\' := by
      rintro rfl
      exact absent (List.mem_reverse.mp (reversed ▸ List.mem_cons_self))
    simp [noEscape]

theorem ne_nil_of_continues {line : List Char} (odd : continues line = true) : line ≠ [] := by
  rintro rfl
  cases odd

/-- A text that ends in an odd number of backslashes ends in an even number without the last. -/
theorem continues_dropLast {line : List Char} (odd : continues line = true) :
    continues line.dropLast = false := by
  rcases List.eq_nil_or_concat line with rfl | ⟨front, last, rfl⟩
  · cases odd
  rw [List.concat_eq_append] at odd ⊢
  rw [List.dropLast_concat]
  rw [continues, List.reverse_append, beq_iff_eq] at odd
  rw [continues, beq_eq_false_iff_ne]
  by_cases isBackslash : last = '\\'
  · subst isBackslash
    simp only [List.reverse_cons, List.reverse_nil, List.nil_append, List.cons_append,
      decide_true, List.takeWhile_cons_of_pos, List.length_cons] at odd
    omega
  · simp [isBackslash] at odd

/-! ### The rule -/

def IsSeparator (line : List Char) : Prop :=
  line = ['#', '-', '-', '-'] ∨ line = ['!', '-', '-', '-']

/-- A blank line or a comment. -/
def IsPassed (line : List Char) : Prop :=
  line = [] ∨ line.head? = some '#' ∨ line.head? = some '!'

/-- The text of the entry that begins with the first of some lines, and the lines that are left. The
blanks at the beginning of a line are taken off, and so is the last backslash of an odd number. -/
inductive Written : List (Nat × List Char) → List Char → List (Nat × List Char) → Prop where
  | last {number : Nat} {line : List Char} (even : continues (trimStart line) = false)
      (rest : List (Nat × List Char)) : Written ((number, line) :: rest) (trimStart line) rest
  | further {number : Nat} {line : List Char} {lines : List (Nat × List Char)} {text : List Char}
      {rest : List (Nat × List Char)} (odd : continues (trimStart line) = true)
      (written : Written lines text rest) :
      Written ((number, line) :: lines) ((trimStart line).dropLast ++ text) rest
  | atEnd {number : Nat} {line : List Char} (odd : continues (trimStart line) = true) :
      Written [(number, line)] (trimStart line).dropLast []

/-- The items that some lines make up, none of which an entry before them goes on into. -/
inductive Assembled : List (Nat × List Char) → List Item → Prop where
  | nothing : Assembled [] []
  | separator {number : Nat} {line : List Char} {rest : List (Nat × List Char)} {found : List Item}
      (isSeparator : IsSeparator (trimStart line)) (others : Assembled rest found) :
      Assembled ((number, line) :: rest) (.separator :: found)
  | passed {number : Nat} {line : List Char} {rest : List (Nat × List Char)} {found : List Item}
      (noSeparator : ¬IsSeparator (trimStart line)) (isPassed : IsPassed (trimStart line))
      (others : Assembled rest found) : Assembled ((number, line) :: rest) found
  | entry {number : Nat} {line : List Char} {more rest : List (Nat × List Char)} {text : List Char}
      {found : List Item} (noSeparator : ¬IsSeparator (trimStart line))
      (begins : ¬IsPassed (trimStart line)) (written : Written ((number, line) :: more) text rest)
      (others : Assembled rest found) :
      Assembled ((number, line) :: more) (.entry number text :: found)

/-! ### What the reader assembles -/

theorem isSeparator_iff {line : List Char} : isSeparator line = true ↔ IsSeparator line := by
  rw [isSeparator, Bool.or_eq_true, beq_iff_eq, beq_iff_eq]
  rfl

theorem isPassed_iff {line : List Char} :
    (line.isEmpty || isComment line) = true ↔ IsPassed line := by
  rw [isComment, Bool.or_eq_true, Bool.or_eq_true, List.isEmpty_iff, beq_iff_eq, beq_iff_eq]
  rfl

/-- What the reader adds to an entry that goes on are the lines of the rule. -/
theorem itemsFrom_written {lines rest : List (Nat × List Char)} {text : List Char}
    (written : Written lines text rest) (number : Nat) {front : List Char}
    (even : continues front = false) :
    itemsFrom (some (number, front)) lines =
      .entry number (front ++ text) :: itemsFrom none rest := by
  induction written generalizing front with
  | last ends rest =>
    rw [itemsFrom, continues_append even, ends, if_neg Bool.false_ne_true]
  | @further _ line lines text rest odd written inductionHypothesis =>
    have shorter : (front ++ trimStart line).dropLast = front ++ (trimStart line).dropLast :=
      List.dropLast_append_of_ne_nil (ne_nil_of_continues odd)
    rw [itemsFrom, continues_append even, odd, if_pos rfl, shorter, inductionHypothesis,
      List.append_assoc]
    rw [continues_append even, continues_dropLast odd]
  | @atEnd number line odd =>
    have nothing : itemsFrom none [] = [] := rfl
    have shorter : (front ++ trimStart line).dropLast = front ++ (trimStart line).dropLast :=
      List.dropLast_append_of_ne_nil (ne_nil_of_continues odd)
    rw [nothing, itemsFrom, continues_append even, odd, if_pos rfl, shorter, itemsFrom]

/-- A line that begins an entry is taken as one that an empty entry goes on into. -/
theorem itemsFrom_begins {number : Nat} {line : List Char} {rest : List (Nat × List Char)}
    (noSeparator : ¬IsSeparator (trimStart line)) (begins : ¬IsPassed (trimStart line)) :
    itemsFrom none ((number, line) :: rest) =
      itemsFrom (some (number, [])) ((number, line) :: rest) := by
  rw [itemsFrom, itemsFrom, if_neg (mt isSeparator_iff.mp noSeparator),
    if_neg (mt isPassed_iff.mp begins), List.nil_append]

theorem itemsFrom_assembled {lines : List (Nat × List Char)} {found : List Item}
    (assembled : Assembled lines found) : itemsFrom none lines = found := by
  induction assembled with
  | nothing => rfl
  | separator isSeparator _ inductionHypothesis =>
    rw [itemsFrom, if_pos (isSeparator_iff.mpr isSeparator), inductionHypothesis]
  | passed noSeparator isPassed _ inductionHypothesis =>
    rw [itemsFrom, if_neg (mt isSeparator_iff.mp noSeparator), if_pos (isPassed_iff.mpr isPassed),
      inductionHypothesis]
  | entry noSeparator begins written _ inductionHypothesis =>
    rw [itemsFrom_begins noSeparator begins, itemsFrom_written written _ rfl, List.nil_append,
      inductionHypothesis]

/-- Some lines always begin with an entry. -/
theorem exists_written (number : Nat) (line : List Char) (more : List (Nat × List Char)) :
    ∃ text rest, Written ((number, line) :: more) text rest ∧ rest.length ≤ more.length := by
  induction more generalizing number line with
  | nil =>
    cases goesOn : continues (trimStart line) with
    | true => exact ⟨_, [], .atEnd goesOn, Nat.le_refl _⟩
    | false => exact ⟨_, [], .last goesOn [], Nat.le_refl _⟩
  | cons next more inductionHypothesis =>
    cases goesOn : continues (trimStart line) with
    | true =>
      obtain ⟨text, rest, written, shorter⟩ := inductionHypothesis next.1 next.2
      exact ⟨_, rest, .further goesOn written, Nat.le_succ_of_le shorter⟩
    | false => exact ⟨_, _, .last goesOn _, Nat.le_refl _⟩

/-- The rule makes items of all lines. -/
theorem exists_assembled (lines : List (Nat × List Char)) : ∃ found, Assembled lines found := by
  match lines with
  | [] => exact ⟨[], .nothing⟩
  | (number, line) :: more =>
    by_cases isSeparator : IsSeparator (trimStart line)
    · obtain ⟨found, others⟩ := exists_assembled more
      exact ⟨_, .separator isSeparator others⟩
    by_cases isPassed : IsPassed (trimStart line)
    · obtain ⟨found, others⟩ := exists_assembled more
      exact ⟨_, .passed isSeparator isPassed others⟩
    obtain ⟨text, rest, written, shorter⟩ := exists_written number line more
    obtain ⟨found, others⟩ := exists_assembled rest
    exact ⟨_, .entry isSeparator isPassed written others⟩
  termination_by lines.length

theorem itemsFrom_iff {lines : List (Nat × List Char)} {found : List Item} :
    itemsFrom none lines = found ↔ Assembled lines found := by
  refine ⟨?_, itemsFrom_assembled⟩
  rintro rfl
  obtain ⟨found, assembled⟩ := exists_assembled lines
  rwa [itemsFrom_assembled assembled]

/-! ### Documents -/

/-- What an item that is an entry is read as. -/
inductive Item.Reads : Item → String × String → Prop where
  | entry {number : Nat} {text : List Char} {pair : String × String}
      (isRead : readEntry number text = .ok pair) : Reads (.entry number text) pair

/-- The documents are what stands between the separators, each entry read for itself. -/
theorem documentsOf_eq_ok {found : List Item} {documents : List (List (String × String))} :
    documentsOf found = .ok documents ↔
      List.Forall₂ (List.Forall₂ Item.Reads) (found.splitOn .separator) documents := by
  induction found generalizing documents with
  | nil =>
    rw [documentsOf, List.splitOn_nil]
    constructor
    · rintro ⟨rfl⟩
      exact .cons .nil .nil
    · intro each
      cases each with
      | cons none others =>
        cases none
        cases others
        rfl
  | cons item rest inductionHypothesis =>
    rw [List.splitOn_cons_eq_if_modifyHead]
    cases item with
    | separator =>
      rw [documentsOf, bind_eq_ok, if_pos (beq_self_eq_true _)]
      constructor
      · rintro ⟨others, isRead, same⟩
        obtain rfl := Except.ok.inj same
        exact .cons .nil (inductionHypothesis.mp isRead)
      · intro each
        cases each with
        | cons none others =>
          cases none
          exact ⟨_, inductionHypothesis.mpr others, rfl⟩
    | entry number text =>
      rw [documentsOf, if_neg (by simp)]
      simp only [bind_eq_ok, inductionHypothesis]
      cases blocks : rest.splitOn .separator with
      | nil => exact absurd blocks (List.splitOn_ne_nil _ _)
      | cons block blocks =>
        constructor
        · rintro ⟨pair, isPair, _, each, same⟩
          cases each with
          | cons first others =>
            obtain rfl := Except.ok.inj same
            exact .cons (.cons (.entry isPair) first) others
        · intro each
          cases each with
          | cons first others =>
            cases first with
            | cons isRead first =>
              cases isRead with
              | entry isPair => exact ⟨_, isPair, _, .cons first others, rfl⟩

theorem length_splitOn {Value : Type} [BEq Value] (separator : Value) (values : List Value) :
    (values.splitOn separator).length = values.count separator + 1 := by
  induction values with
  | nil => rfl
  | cons value rest inductionHypothesis =>
    rw [List.splitOn_cons_eq_if_modifyHead, List.count_cons]
    split
    · rw [List.length_cons, inductionHypothesis]
    · rw [List.length_modifyHead, inductionHypothesis]

/-- The entries and separators of a text are those that its natural lines make up by the rule. If
the text is read, its documents are one more than the separators, and each document has the entries
that begin between two of them, in their order. -/
theorem read_by_natural_lines (text : String) :
    (∀ found, items text.toList = found ↔
      Assembled ((naturalLines text.toList).zipIdx.map fun line => (line.2 + 1, line.1)) found) ∧
    (∀ documents, read text = .ok documents ↔
      List.Forall₂ (List.Forall₂ Item.Reads) ((items text.toList).splitOn .separator) documents) ∧
    ∀ documents, read text = .ok documents →
      documents.length = (items text.toList).count .separator + 1 := by
  refine ⟨fun found => itemsFrom_iff, fun documents => documentsOf_eq_ok, ?_⟩
  intro documents isRead
  rw [← length_splitOn]
  exact (documentsOf_eq_ok.mp isRead).length_eq.symm

/-- A comment and a separator are parts of the entry that goes on into them, and the backslashes of
two lines are not counted together. -/
example :
    items "a\\\n # b\\\n#---\n#---\nc\\\\\\\n\\".toList =
      [.entry 1 "a# b#---".toList, .separator, .entry 5 "c\\\\".toList] := by
  decide

end Properties

end LayeredConfig
