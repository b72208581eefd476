/-
This file says how the places in a document are spelled.

A place is the way to a part of a value, through the keys of mappings and the numbers of items. Its
name has a dot between two keys, and brackets around a number. If the keys are of small letters and
digits, then dots and brackets tell where a step begins, so that different places have different
names. No such name has anything that the canonical spelling changes.
-/

import LayeredConfig.Proofs.Property.Indexing

namespace LayeredConfig.Yaml

open Text

/-! ### Keys -/

/-- A key of small letters and digits of ASCII; there is at least one. -/
def IsPlainKey (key : String) : Prop :=
  key ≠ "" ∧ ∀ c ∈ key.toList, (c.isLower || c.isDigit) = true

/-- Such a letter or digit is nothing that has a meaning in names. -/
theorem plain_cases {c : Char} (isPlain : (c.isLower || c.isDigit) = true) :
    c ∉ ['.', '[', ']', '-', '_'] ∧ isBlank c = false ∧ lowerChar c = [c] := by
  have atMost {first last : Char}
      (between : (decide (c.val ≥ first.val) && decide (c.val ≤ last.val)) = true) :
      c.toNat ≤ last.toNat :=
    UInt32.le_iff_toNat_le.mp (of_decide_eq_true (Bool.and_eq_true_iff.mp between).2)
  have isSmall : c.toNat < 123 := by
    rcases Bool.or_eq_true_iff.mp isPlain with isLetter | isDigit
    · exact (@atMost 'a' 'z' isLetter).trans_lt (by decide)
    · exact (@atMost '0' '9' isDigit).trans_lt (by decide)
  have each : ∀ code < 123, ((Char.ofNat code).isLower || (Char.ofNat code).isDigit) = true →
      Char.ofNat code ∉ ['.', '[', ']', '-', '_'] ∧ isBlank (Char.ofNat code) = false ∧
        lowerChar (Char.ofNat code) = [Char.ofNat code] := by
    decide +kernel
  rw [← Char.ofNat_toNat c] at isPlain ⊢
  exact each _ isSmall isPlain

/-! ### Steps -/

/-- A step from a value to one of its parts. -/
inductive Step where
  | key (key : String)
  | index (index : Nat)
  deriving DecidableEq, Repr

namespace Step

/-- The spelling of a step. -/
def chars : Step → List Char
  | key name => '.' :: name.toList
  | index number => '[' :: ((toString number).toList ++ [']'])

def IsPlain : Step → Prop
  | key name => IsPlainKey name
  | index _ => True

/-- Whether a text could be the spelling of further steps. -/
def Follows (text : List Char) : Prop :=
  ∀ c ∈ text.head?, c = '.' ∨ c = '['

theorem follows_nil : Follows [] := by
  intro c isHead
  cases isHead

theorem follows_chars (step : Step) (rest : List Char) : Follows (step.chars ++ rest) := by
  cases step with
  | key name =>
    intro c isHead
    exact Or.inl (Option.some.inj isHead).symm
  | index number =>
    intro c isHead
    exact Or.inr (Option.some.inj isHead).symm

/-- A plain key ends where a text that could be further steps begins. -/
theorem takeWhile_key {key : String} (isPlain : IsPlainKey key) {rest : List Char}
    (follows : Follows rest) :
    (key.toList ++ rest).takeWhile (fun c => c.isLower || c.isDigit) = key.toList := by
  have noneOfRest : rest.takeWhile (fun c => c.isLower || c.isDigit) = [] := by
    cases rest with
    | nil => rfl
    | cons c rest =>
      rw [List.takeWhile_cons_of_neg]
      rcases follows c rfl with rfl | rfl <;> decide
  rw [List.takeWhile_append_of_pos isPlain.2, noneOfRest, List.append_nil]

theorem unclosed_toString (number : Nat) : ∀ c ∈ (toString number).toList, c ≠ ']' :=
  fun c member => (View.unbracketed_of_digits (View.digits_toString number) c member).2

/-- The first of several steps can be told from their spelling. -/
theorem chars_append_inj {first second : Step} (isPlain : first.IsPlain)
    (alsoPlain : second.IsPlain) {rest others : List Char} (follows : Follows rest)
    (alsoFollows : Follows others) (same : first.chars ++ rest = second.chars ++ others) :
    first = second ∧ rest = others := by
  cases first with
  | key name =>
    cases second with
    | key other =>
      have inside : name.toList ++ rest = other.toList ++ others := (List.cons.inj same).2
      have sameKey := takeWhile_key isPlain follows
      rw [inside, takeWhile_key alsoPlain alsoFollows, String.toList_inj] at sameKey
      subst sameKey
      exact ⟨rfl, List.append_cancel_left inside⟩
    | index => exact absurd (List.cons.inj same).1 (by decide)
  | index number =>
    cases second with
    | key => exact absurd (List.cons.inj same).1 (by decide)
    | index other =>
      have inside : (toString number).toList ++ [']'] ++ rest =
          (toString other).toList ++ [']'] ++ others := (List.cons.inj same).2
      rw [← List.append_cons, ← List.append_cons] at inside
      have isCut := cutOnce?_append (unclosed_toString number) rest
      rw [inside, cutOnce?_append (unclosed_toString other)] at isCut
      obtain ⟨sameNumber, sameRest⟩ := Prod.mk.inj (Option.some.inj isCut)
      exact ⟨congrArg index (View.toString_injective (String.toList_inj.mp sameNumber)).symm,
        sameRest.symm⟩

end Step

/-! ### Places -/

/-- The steps to a part of a value, the first one first. -/
abbrev Place := List Step

namespace Place

def chars (place : Place) : List Char :=
  place.flatMap Step.chars

/-- The name of a place. -/
def name : Place → String
  | .key first :: rest => first ++ String.ofList (chars rest)
  | place => String.ofList (chars place)

/-- The places in a mapping whose keys are plain at every level. -/
structure Proper (place : Place) : Prop where
  keyed : ∃ first rest, place = .key first :: rest
  plain : ∀ step ∈ place, step.IsPlain

theorem follows_chars (place : Place) : Step.Follows place.chars := by
  cases place with
  | nil => exact Step.follows_nil
  | cons step rest => exact Step.follows_chars step _

/-- A place whose spelling begins with that of another one lies within it. -/
theorem within_of_chars {place other : Place} {tail : List Char}
    (plain : ∀ step ∈ place, step.IsPlain) (otherPlain : ∀ step ∈ other, step.IsPlain)
    (follows : Step.Follows tail) (same : place.chars = other.chars ++ tail) :
    ∃ more, place = other ++ more ∧ chars more = tail := by
  induction other generalizing place with
  | nil => exact ⟨place, rfl, same⟩
  | cons step rest inductionHypothesis =>
    obtain ⟨isPlain, restPlain⟩ := List.forall_mem_cons.mp otherPlain
    have split : place.chars = step.chars ++ (chars rest ++ tail) := by
      rw [same, ← List.append_assoc]
      rfl
    cases place with
    | nil => cases step <;> cases split
    | cons first steps =>
      obtain ⟨firstPlain, stepsPlain⟩ := List.forall_mem_cons.mp plain
      have others : Step.Follows (chars rest ++ tail) := by
        cases rest with
        | nil => exact follows
        | cons next further =>
          rw [show chars (next :: further) = next.chars ++ chars further from rfl,
            List.append_assoc]
          exact Step.follows_chars next _
      obtain ⟨rfl, sameRest⟩ :=
        Step.chars_append_inj firstPlain isPlain (follows_chars steps) others split
      obtain ⟨more, rfl, isTail⟩ := inductionHypothesis stepsPlain restPlain sameRest
      exact ⟨more, rfl, isTail⟩

/-! ### Names -/

section Name

variable {place : Place}

theorem toList_name (proper : place.Proper) : '.' :: place.name.toList = place.chars := by
  obtain ⟨first, rest, rfl⟩ := proper.keyed
  rw [name, String.toList_append, String.toList_ofList]
  rfl

/-- Different places have different names. -/
theorem name_inj {other : Place} (proper : place.Proper) (otherProper : other.Proper) :
    place.name = other.name ↔ place = other := by
  refine ⟨fun same => ?_, congrArg name⟩
  have sameChars : place.chars = other.chars ++ [] := by
    rw [List.append_nil, ← toList_name proper, ← toList_name otherProper, same]
  obtain ⟨more, rfl, isEmpty⟩ := within_of_chars proper.plain otherProper.plain
    Step.follows_nil sameChars
  cases more with
  | nil => rw [List.append_nil]
  | cons step => cases step <;> cases isEmpty

theorem name_concat_index (proper : place.Proper) (index : Nat) :
    name (place ++ [.index index]) = elementName place.name index := by
  obtain ⟨first, rest, rfl⟩ := proper.keyed
  rw [← String.toList_inj, elementName, toList_element, List.cons_append, name, name,
    String.toList_append, String.toList_append, String.toList_ofList, String.toList_ofList, chars,
    List.flatMap_append, List.flatMap_singleton, ← chars, List.append_assoc]
  rfl

/-- A name that is another one with something in brackets behind it is that of an item. -/
theorem index_of_name {other : Place} (proper : place.Proper) (otherProper : other.Proper)
    {index : String} (unclosed : ∀ c ∈ index.toList, c ≠ ']')
    (same : place.name = other.name ++ "[" ++ index ++ "]") :
    ∃ number, place = other ++ [.index number] ∧ toString number = index := by
  have sameChars : place.chars = other.chars ++ '[' :: (index.toList ++ [']']) := by
    rw [← toList_name proper, ← toList_name otherProper, same, toList_element,
      List.cons_append]
  have follows : Step.Follows ('[' :: (index.toList ++ [']'])) :=
    fun c isHead => Or.inr (Option.some.inj isHead).symm
  obtain ⟨more, rfl, isElement⟩ :=
    within_of_chars proper.plain otherProper.plain follows sameChars
  cases more with
  | nil => cases isElement
  | cons step further =>
    cases step with
    | key name => exact absurd (List.cons.inj isElement).1 (by decide)
    | index number =>
      have inside : (toString number).toList ++ ']' :: chars further = index.toList ++ [']'] := by
        rw [← (List.cons.inj isElement).2, List.append_cons]
        rfl
      have isCut := cutOnce?_append (Step.unclosed_toString number) (chars further)
      rw [inside, cutOnce?_append unclosed] at isCut
      obtain ⟨sameIndex, noFurther⟩ := Prod.mk.inj (Option.some.inj isCut)
      refine ⟨number, ?_, (String.toList_inj.mp sameIndex).symm⟩
      cases further with
      | nil => rfl
      | cons step => cases step <;> cases noFurther

/-! ### The canonical spelling -/

theorem canonicalChars_key {key : List Char} (plain : ∀ c ∈ key, (c.isLower || c.isDigit) = true)
    (rest : List Char) :
    canonicalChars false (key ++ rest) = key ++ canonicalChars false rest := by
  induction key with
  | nil => rfl
  | cons c key inductionHypothesis =>
    obtain ⟨isPlain, others⟩ := List.forall_mem_cons.mp plain
    obtain ⟨noSign, _, lower⟩ := plain_cases isPlain
    simp only [List.mem_cons, List.not_mem_nil, or_false, not_or] at noSign
    obtain ⟨_, noOpening, noClosing, noHyphen, noLine⟩ := noSign
    rw [List.cons_append, canonicalChars, if_neg noOpening, if_neg noClosing,
      if_neg Bool.false_ne_true, if_neg (by simp [noHyphen, noLine]), lower,
      inductionHypothesis others]
    rfl

theorem canonicalChars_chars (plain : ∀ step ∈ place, step.IsPlain) :
    canonicalChars false place.chars = place.chars := by
  induction place with
  | nil => rfl
  | cons step rest inductionHypothesis =>
    obtain ⟨isPlain, others⟩ := List.forall_mem_cons.mp plain
    rw [chars, List.flatMap_cons, ← chars]
    cases step with
    | key name =>
      show '.' :: canonicalChars false (name.toList ++ chars rest) = _
      rw [canonicalChars_key isPlain.2, inductionHypothesis others]
      rfl
    | index number =>
      have unbracketed := View.unbracketed_of_digits (View.digits_toString number)
      rw [Step.chars, List.cons_append, ← List.append_cons]
      show '[' :: canonicalChars true ((toString number).toList ++ ']' :: chars rest) = _
      rw [canonicalChars_insideIndex unbracketed, inductionHypothesis others]

theorem unblank_chars (plain : ∀ step ∈ place, step.IsPlain) :
    ∀ c ∈ place.chars, isBlank c = false := by
  intro c member
  obtain ⟨step, inPlace, isChar⟩ := List.mem_flatMap.mp member
  cases step with
  | key name =>
    rcases List.mem_cons.mp isChar with rfl | inName
    · decide
    · exact (plain_cases ((plain _ inPlace).2 c inName)).2.1
  | index number =>
    rcases List.mem_cons.mp isChar with rfl | inside
    · decide
    · rcases List.mem_append.mp inside with inNumber | isLast
      · rw [View.toList_toString] at inNumber
        have isDigit := Nat.isDigit_of_mem_toDigits (by decide) (by decide) inNumber
        exact (plain_cases (Bool.or_eq_true_iff.mpr (Or.inr isDigit))).2.1
      · rw [List.mem_singleton.mp isLast]
        decide

theorem trim_name (proper : place.Proper) : trim place.name.toList = place.name.toList := by
  have unblank : ∀ c ∈ place.name.toList, isBlank c = false := fun c member =>
    unblank_chars proper.plain c (toList_name proper ▸ List.mem_cons_of_mem _ member)
  exact trim_eq_self.mpr ⟨fun c isHead => unblank c (List.mem_of_mem_head? isHead),
    fun c isLast => unblank c (List.mem_of_mem_getLast? isLast)⟩

theorem trimmed_name (proper : place.Proper) : trimmed place.name = place.name := by
  rw [trimmed, trim_name proper, String.ofList_toList]

theorem canonical_name (proper : place.Proper) : canonical place.name = place.name := by
  rw [canonical, trim_name proper, ← String.toList_inj, String.toList_ofList]
  have spelled := canonicalChars_chars proper.plain
  rw [← toList_name proper] at spelled
  exact (List.cons.inj spelled).2

end Name

end Place

end LayeredConfig.Yaml
