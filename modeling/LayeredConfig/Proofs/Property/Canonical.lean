/-
This file says how far the canonical spelling of a name is one.

Blanks are trimmed off a name before its hyphens and underscores are dropped. So a blank that these
set apart from an end of the name is still there, and stands at an end of the canonical spelling. To
spell the name once more takes it off, and changes nothing else: what is dropped is gone, lower case
stays as it is, and an index is left alone both times.
-/

import LayeredConfig.Proofs.Property.Pairs
import LayeredConfig.Proofs.Text.LowerCase
import LayeredConfig.Proofs.Text.Trimming

namespace LayeredConfig

open Text

/-! ### Character by character -/

/-- A hyphen or an underscore. -/
def isMark (c : Char) : Bool :=
  c = '-' || c = '_'

/-- Whether an index is open behind a character, if one is open before it or not. -/
def indexBehind (insideIndex : Bool) (c : Char) : Bool :=
  if c = '[' then true else if c = ']' then false else insideIndex

/-- What one character of a name comes to. -/
def spelling (insideIndex : Bool) (c : Char) : List Char :=
  if insideIndex || c = '[' || c = ']' then [c] else if isMark c then [] else lowerChar c

theorem canonicalChars_cons (insideIndex : Bool) (c : Char) (rest : List Char) :
    canonicalChars insideIndex (c :: rest) =
      spelling insideIndex c ++ canonicalChars (indexBehind insideIndex c) rest := by
  rw [canonicalChars, spelling, indexBehind]
  by_cases opens : c = '['
  · simp [opens]
  · by_cases closes : c = ']'
    · simp [closes]
    · cases insideIndex with
      | true => simp [opens, closes]
      | false =>
        cases dropped : isMark c with
        | true =>
          have isSign : (decide (c = '-') || decide (c = '_')) = true := dropped
          simp [opens, closes, isSign]
        | false =>
          have noSign : (decide (c = '-') || decide (c = '_')) = false := dropped
          simp [opens, closes, noSign]

theorem canonicalChars_append (insideIndex : Bool) (first second : List Char) :
    canonicalChars insideIndex (first ++ second) =
      canonicalChars insideIndex first ++
        canonicalChars (first.foldl indexBehind insideIndex) second := by
  induction first generalizing insideIndex with
  | nil => rfl
  | cons c rest inductionHypothesis =>
    rw [List.cons_append, canonicalChars_cons, canonicalChars_cons, inductionHypothesis,
      List.append_assoc]
    rfl

theorem indexBehind_of_ne {c : Char} (noOpening : c ≠ '[') (noClosing : c ≠ ']')
    (insideIndex : Bool) : indexBehind insideIndex c = insideIndex := by
  rw [indexBehind, if_neg noOpening, if_neg noClosing]

/-- A character stays as it is, or it is spelled by such as do, outside of any index. -/
theorem spelling_cases (insideIndex : Bool) (c : Char) : spelling insideIndex c = [c] ∨
    indexBehind insideIndex c = false ∧ insideIndex = false ∧
      ∀ d ∈ spelling insideIndex c, spelling false d = [d] ∧ indexBehind false d = false := by
  unfold spelling
  split
  · exact .inl rfl
  · next outside =>
    simp only [Bool.or_eq_true, decide_eq_true_eq, not_or, Bool.not_eq_true] at outside
    obtain ⟨⟨isOutside, noOpening⟩, noClosing⟩ := outside
    have staysOutside : indexBehind insideIndex c = false :=
      (indexBehind_of_ne noOpening noClosing insideIndex).trans isOutside
    split
    · exact .inr ⟨staysOutside, isOutside, nofun⟩
    · refine (lowerChar_cases c).imp_right fun ⟨_, lower⟩ => ⟨staysOutside, isOutside, ?_⟩
      intro d member
      have isLower := lower d member
      have noSign : ∀ sign ∈ ['[', ']', '-', '_'], d ≠ sign := by
        rintro sign isSign rfl
        have noLetter : (['[', ']', '-', '_'].all fun sign =>
            decide (sign.toNat < 0x80) && !sign.isLower) = true := by decide
        have ofSign := List.all_eq_true.mp noLetter d isSign
        rw [Bool.and_eq_true, decide_eq_true_eq, Bool.not_eq_true'] at ofSign
        have isLetter := isLower.letter ofSign.1
        rw [ofSign.2] at isLetter
        cases isLetter
      have opens := noSign '[' (by decide)
      have closes := noSign ']' (by decide)
      have hyphen := noSign '-' (by decide)
      have underscore := noSign '_' (by decide)
      exact ⟨by simp [opens, closes, isMark, hyphen, underscore, isLower.same],
        indexBehind_of_ne opens closes false⟩

/-- What is no mark is spelled by blanks if it is one, and else by none. -/
theorem spelling_of_noMark {c : Char} (noMark : isMark c = false) (insideIndex : Bool) :
    spelling insideIndex c ≠ [] ∧ ∀ d ∈ spelling insideIndex c, isBlank d = isBlank c := by
  have single : [c] ≠ [] ∧ ∀ d ∈ [c], isBlank d = isBlank c :=
    ⟨List.cons_ne_nil _ _, fun d member => congrArg isBlank (List.mem_singleton.mp member)⟩
  unfold spelling
  split
  · exact single
  · rw [if_neg (Bool.not_eq_true _ ▸ noMark)]
    rcases lowerChar_cases c with same | ⟨filled, lower⟩
    · rw [same]
      exact single
    · exact ⟨lowerChar_ne_nil c, fun d member => (lower d member).filled.trans filled.symm⟩

section Marks

variable {c : Char} {marks : List Char}

theorem ne_bracket_of_mark (isSign : isMark c = true) : c ≠ '[' ∧ c ≠ ']' := by
  constructor <;> rintro rfl <;> exact absurd isSign (by decide)

theorem indexBehind_of_mark (isSign : isMark c = true) (insideIndex : Bool) :
    indexBehind insideIndex c = insideIndex :=
  indexBehind_of_ne (ne_bracket_of_mark isSign).1 (ne_bracket_of_mark isSign).2 insideIndex

theorem spelling_of_mark (isSign : isMark c = true) (insideIndex : Bool) :
    spelling insideIndex c = if insideIndex then [c] else [] := by
  rw [spelling]
  cases insideIndex <;> simp [ne_bracket_of_mark isSign, isSign]

theorem foldl_marks (areMarks : ∀ c ∈ marks, isMark c = true) (insideIndex : Bool) :
    marks.foldl indexBehind insideIndex = insideIndex := by
  induction marks with
  | nil => rfl
  | cons c rest inductionHypothesis =>
    obtain ⟨isSign, others⟩ := List.forall_mem_cons.mp areMarks
    rw [List.foldl_cons, indexBehind_of_mark isSign, inductionHypothesis others]

/-- Marks are kept in an index and dropped outside of one. -/
theorem canonicalChars_marks (areMarks : ∀ c ∈ marks, isMark c = true) (insideIndex : Bool) :
    canonicalChars insideIndex marks = if insideIndex then marks else [] := by
  induction marks with
  | nil => cases insideIndex <;> rfl
  | cons c rest inductionHypothesis =>
    obtain ⟨isSign, others⟩ := List.forall_mem_cons.mp areMarks
    rw [canonicalChars_cons, indexBehind_of_mark isSign, inductionHypothesis others,
      spelling_of_mark isSign]
    cases insideIndex <;> rfl

end Marks

/-! ### Texts in canonical spelling -/

/-- A text whose characters stay as they are, where an index is open before it or not. -/
def IsCanonical : Bool → List Char → Prop
  | _, [] => True
  | insideIndex, c :: rest =>
    spelling insideIndex c = [c] ∧ IsCanonical (indexBehind insideIndex c) rest

namespace IsCanonical

variable {insideIndex : Bool} {chars : List Char}

theorem canonicalChars_eq (isCanonical : IsCanonical insideIndex chars) :
    canonicalChars insideIndex chars = chars := by
  induction chars generalizing insideIndex with
  | nil => rfl
  | cons c rest inductionHypothesis =>
    rw [canonicalChars_cons, isCanonical.1, inductionHypothesis isCanonical.2]
    rfl

/-- The beginning of a canonical text is canonical. -/
theorem left {first second : List Char} (isCanonical : IsCanonical insideIndex (first ++ second)) :
    IsCanonical insideIndex first := by
  induction first generalizing insideIndex with
  | nil => trivial
  | cons c rest inductionHypothesis =>
    exact ⟨isCanonical.1, inductionHypothesis isCanonical.2⟩

theorem trimStart (isCanonical : IsCanonical false chars) :
    IsCanonical false (trimStart chars) := by
  induction chars with
  | nil => trivial
  | cons c rest inductionHypothesis =>
    rw [Text.trimStart, List.dropWhile_cons]
    split
    · next blank =>
      -- A blank opens no index, so what follows it stands outside too.
      have staysOutside : indexBehind false c = false := by
        apply indexBehind_of_ne <;> rintro rfl <;> exact absurd blank (by decide)
      exact inductionHypothesis (staysOutside ▸ isCanonical.2)
    · exact isCanonical

theorem trim (isCanonical : IsCanonical false chars) : IsCanonical false (trim chars) := by
  obtain ⟨behind, whole⟩ := List.rdropWhile_prefix isBlank (Text.trimStart chars)
  have start := isCanonical.trimStart
  rw [← whole] at start
  exact start.left

/-- Characters that stay as they are, outside of any index, may stand before a canonical text. -/
theorem append_left {kept : List Char}
    (areKept : ∀ c ∈ kept, spelling false c = [c] ∧ indexBehind false c = false)
    (isCanonical : IsCanonical false chars) : IsCanonical false (kept ++ chars) := by
  induction kept with
  | nil => exact isCanonical
  | cons c rest inductionHypothesis =>
    obtain ⟨⟨same, staysOutside⟩, others⟩ := List.forall_mem_cons.mp areKept
    exact ⟨same, staysOutside.symm ▸ inductionHypothesis others⟩

end IsCanonical

/-- The canonical spelling is canonical. -/
theorem isCanonical_canonicalChars (insideIndex : Bool) (chars : List Char) :
    IsCanonical insideIndex (canonicalChars insideIndex chars) := by
  induction chars generalizing insideIndex with
  | nil => trivial
  | cons c rest inductionHypothesis =>
    have behind := inductionHypothesis (indexBehind insideIndex c)
    rw [canonicalChars_cons]
    rcases spelling_cases insideIndex c with same | ⟨staysOutside, isOutside, kept⟩
    · rw [same]
      exact ⟨same, behind⟩
    · rw [staysOutside] at behind ⊢
      rw [isOutside] at kept ⊢
      exact behind.append_left kept

/-- To spell a canonical name canonically takes the blanks off its ends. -/
theorem canonical_canonical (name : String) :
    canonical (canonical name) = trimmed (canonical name) := by
  have isCanonical := isCanonical_canonicalChars false (trim name.toList)
  rw [canonical, trimmed, canonical, String.toList_ofList, isCanonical.trim.canonicalChars_eq]

/-! ### Blanks at the ends -/

/-- Marks that the canonical spelling drops stand between a blank and an end of a text. -/
def baresBlank (chars : List Char) : Bool :=
  (chars.dropWhile isMark).head?.any isBlank ||
    !chars.foldl indexBehind false && (chars.reverse.dropWhile isMark).head?.any isBlank

/-- Behind the marks at its beginning, a text begins with what its spelling begins with. -/
theorem head?_canonicalChars (chars : List Char) :
    (canonicalChars false chars).head?.any isBlank =
      (chars.dropWhile isMark).head?.any isBlank := by
  induction chars with
  | nil => rfl
  | cons c rest inductionHypothesis =>
    rw [List.dropWhile_cons, canonicalChars_cons]
    cases isSign : isMark c with
    | true =>
      rw [spelling_of_mark isSign, indexBehind_of_mark isSign]
      exact inductionHypothesis
    | false =>
      obtain ⟨filled, blank⟩ := spelling_of_noMark isSign false
      obtain ⟨d, others, spelled⟩ := List.exists_cons_of_ne_nil filled
      rw [spelled] at blank ⊢
      exact blank d List.mem_cons_self

theorem any_getLast?_append {first last : List Char} {blank : Bool} (filled : last ≠ [])
    (each : ∀ c ∈ last, isBlank c = blank) : (first ++ last).getLast?.any isBlank = blank := by
  obtain ⟨front, c, rfl⟩ := (List.eq_nil_or_concat' last).resolve_left filled
  rw [← List.append_assoc, List.getLast?_concat]
  exact each c (List.mem_append_right _ List.mem_cons_self)

theorem isBlank_of_mark {c : Char} (isSign : isMark c = true) : isBlank c = false := by
  have sign : c = '-' ∨ c = '_' := by simpa [isMark] using isSign
  rcases sign with rfl | rfl <;> decide

/-- Before the marks at its end, a text ends with what its spelling ends with, unless these marks
are kept since they stand in an index. -/
theorem getLast?_canonicalChars {chars : List Char}
    (whole : ∀ c ∈ chars.getLast?, isBlank c = false) :
    (canonicalChars false chars).getLast?.any isBlank =
      (!chars.foldl indexBehind false && (chars.reverse.dropWhile isMark).head?.any isBlank) := by
  obtain ⟨marks, areMarks, split⟩ : ∃ marks : List Char, (∀ c ∈ marks, isMark c = true) ∧
      chars = (chars.reverse.dropWhile isMark).reverse ++ marks := by
    refine ⟨(chars.reverse.takeWhile isMark).reverse, fun c member => ?_, ?_⟩
    · exact List.all_eq_true.mp List.all_takeWhile c (List.mem_reverse.mp member)
    · rw [← List.reverse_append, List.takeWhile_append_dropWhile, List.reverse_reverse]
  cases before : chars.reverse.dropWhile isMark with
  | nil =>
    rw [before, List.reverse_nil, List.nil_append] at split
    rw [split, canonicalChars_marks areMarks]
    simp
  | cons c rest =>
    have noMark : isMark c = false := by
      have stops := List.head?_dropWhile_not isMark chars.reverse
      rwa [before] at stops
    rw [before, List.reverse_cons, List.append_assoc, List.singleton_append] at split
    obtain ⟨filled, blank⟩ := spelling_of_noMark noMark (rest.reverse.foldl indexBehind false)
    have spelled := canonicalChars_append false rest.reverse (c :: marks)
    rw [← split, canonicalChars_cons, canonicalChars_marks areMarks] at spelled
    have behind : chars.foldl indexBehind false =
        indexBehind (rest.reverse.foldl indexBehind false) c := by
      rw [split, List.foldl_append, List.foldl_cons, foldl_marks areMarks]
    rw [spelled, behind]
    cases indexBehind (rest.reverse.foldl indexBehind false) c with
    | false =>
      rw [if_neg Bool.false_ne_true, List.append_nil, any_getLast?_append filled blank]
      rfl
    | true =>
      rw [if_pos rfl]
      by_cases none : marks = []
      · have isLast : c ∈ chars.getLast? := by
          rw [split, none, List.getLast?_concat]
          rfl
        rw [none, List.append_nil, any_getLast?_append filled blank, whole c isLast]
        rfl
      · rw [← List.append_assoc,
          any_getLast?_append none fun d member => isBlank_of_mark (areMarks d member)]
        rfl

/-- A canonical name has blanks at its ends if marks were dropped there behind blanks. -/
theorem trimmed_canonical_iff (name : String) :
    trimmed (canonical name) = canonical name ↔ baresBlank (trim name.toList) = false := by
  have ends (blank? : Option Char) :
      (∀ c ∈ blank?, isBlank c = false) ↔ blank?.any isBlank = false := by
    cases blank? <;> simp
  have whole := (trim_eq_self.mp (trim_trim name.toList)).2
  rw [baresBlank, Bool.or_eq_false_iff, ← head?_canonicalChars, ← getLast?_canonicalChars whole,
    ← ends, ← ends, ← trim_eq_self, canonical, trimmed, String.toList_ofList, String.ofList_inj]

/-- To spell a canonical name canonically once more takes the blanks off its ends, and then the
spelling is settled. There are such blanks only if marks were dropped between a blank and an end of
the name; a key without them is found by its canonical spelling too. -/
theorem canonical_settles (name : String) :
    canonical (canonical name) = trimmed (canonical name) ∧
      canonical (canonical (canonical name)) = canonical (canonical name) ∧
      (canonical (canonical name) = canonical name ↔ baresBlank (trim name.toList) = false) ∧
      ∀ source : Source, name ∈ source.keys → baresBlank (trim name.toList) = false →
        ∃ value, source.view.get? name = some value ∧
          source.view.get? (canonical name) = some value := by
  have again := canonical_canonical name
  have iffBared := trimmed_canonical_iff name
  rw [← again] at iffBared
  refine ⟨again, ?_, iffBared, fun source isKey unbared => ?_⟩
  · rw [canonical_canonical (canonical name), again, trimmed, trimmed, String.toList_ofList,
      trim_trim]
  · obtain ⟨⟨_, held⟩, isEntry, rfl⟩ := List.mem_map.mp isKey
    obtain ⟨value, answered⟩ := Option.ne_none_iff_exists'.mp (View.get?_ne_none isEntry)
    refine ⟨value, answered, ?_⟩
    rw [View.get?, iffBared.mpr unbared]
    exact answered

/-- A source with a key that has blanks and marks within and in an index. -/
def markedSource : Source :=
  Source.ofPairs "s" [("max", "1"), (" _Max - \u0130[A - ]", "2")]

/-- Marks before the first letter, between blanks and in an index bare no blank at an end. -/
theorem canonical_settles_markedSource :
    " _Max - \u0130[A - ]" ∈ markedSource.keys ∧
      baresBlank (trim " _Max - \u0130[A - ]".toList) = false ∧
      canonical " _Max - \u0130[A - ]" = "max  i\u0307[A - ]" ∧
      canonical "max  i\u0307[A - ]" = "max  i\u0307[A - ]" ∧
      ∃ value, markedSource.view.get? " _Max - \u0130[A - ]" = some value ∧
        markedSource.view.get? "max  i\u0307[A - ]" = some value := by
  have isKey : " _Max - \u0130[A - ]" ∈ markedSource.keys := by decide
  have unbared : baresBlank (trim " _Max - \u0130[A - ]".toList) = false := by decide
  have spelled : canonical " _Max - \u0130[A - ]" = "max  i\u0307[A - ]" := by decide
  obtain ⟨_, _, settled, found⟩ := canonical_settles " _Max - \u0130[A - ]"
  have settled := settled.mpr unbared
  have found := found markedSource isKey unbared
  rw [spelled] at settled found
  exact ⟨isKey, unbared, spelled, settled, found⟩

/-- Without its hyphen, a key begins with a blank: by this spelling it is not found. -/
theorem canonical_bares_blank :
    canonical "- a" = " a" ∧ canonical " a" = "a" ∧
      (Source.ofPairs "s" [("- a", "v")]).view.get? "- a" = some "v" ∧
      (Source.ofPairs "s" [("- a", "v")]).view.get? (canonical "- a") = none ∧
      ¬∀ name, canonical (canonical name) = canonical name := by
  refine ⟨by decide, by decide, by decide, by decide, fun settles => ?_⟩
  exact absurd (settles "- a") (by decide)

end LayeredConfig
