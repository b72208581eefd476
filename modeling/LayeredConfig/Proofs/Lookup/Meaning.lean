/-
This file says what a text with placeholders stands for, with nothing that keeps an expansion from
running on.

The rules are those of the expansion: the inside of a placeholder is expanded before its key and its
default are told apart, and what is found for the key is itself expanded. There is no list of the
names that were entered before, so a text may lead to ever more lookups; it then stands for nothing,
since a meaning is a finite derivation. Beside it stands what a text asks for on its way to a
meaning, whether it gets there or not. A name that is asked for by a text with a meaning leads, from
name to name, to finitely many others.
-/

import LayeredConfig.Proofs.Lookup.Refusal

namespace LayeredConfig

open Text

namespace Placeholder

/-! ### The first placeholder -/

/-- A text cut at its first placeholder: what stands before it, its inside, and what follows. -/
def first? (text : List Char) : Option (List Char × List Char × List Char) := do
  let (before, rest) ← cutOpening? text
  let (body, tail) ← cutClosing? 0 rest
  return (before, body, tail)

/-- The name that the expanded inside of a placeholder asks for. -/
def keyOf (inside : List Char) : String :=
  String.ofList (cutDefault inside).1

section First

variable {find : String → Except Error (Option String)} {enterable entered : List String}
  {text before rest body tail : List Char}

theorem first_cases (text : List Char) :
    first? text = none ∧ (cutOpening? text = none ∨
        ∃ before rest, cutOpening? text = some (before, rest) ∧ cutClosing? 0 rest = none) ∨
      ∃ before rest body tail, first? text = some (before, body, tail) ∧
        cutOpening? text = some (before, rest) ∧ cutClosing? 0 rest = some (body, tail) := by
  unfold first?
  cases opening : cutOpening? text with
  | none => exact Or.inl ⟨rfl, Or.inl rfl⟩
  | some opened =>
    obtain ⟨before, rest⟩ := opened
    cases closing : cutClosing? 0 rest with
    | none => exact Or.inl ⟨by simp [closing], Or.inr ⟨before, rest, rfl, closing⟩⟩
    | some closed =>
      obtain ⟨body, tail⟩ := closed
      exact Or.inr ⟨before, rest, body, tail, by simp [closing], rfl, closing⟩

/-- A text without a placeholder is left as it is. -/
theorem expand_of_plain (none : first? text = none) :
    expand find enterable entered text = .ok text := by
  rcases first_cases text with
    ⟨_, opening | ⟨before, rest, opening, closing⟩⟩ | ⟨_, _, _, _, some, _⟩
  · exact expand_of_none opening
  · exact expand_of_unclosed opening closing
  · cases none.symm.trans some

/-- A text with a placeholder is expanded part by part. -/
theorem expand_of_first (first : first? text = some (before, body, tail)) :
    expand find enterable entered text = do
      let inside ← expand find enterable entered body
      let value ← filling find enterable entered inside
      let following ← expand find enterable entered tail
      return before ++ value ++ following := by
  rcases first_cases text with ⟨none, _⟩ | ⟨_, rest, _, _, some, opening, closing⟩
  · cases none.symm.trans first
  · cases some.symm.trans first
    exact expand_of_placeholder opening closing

theorem length_of_first (first : first? text = some (before, body, tail)) :
    body.length < text.length ∧ tail.length < text.length := by
  rcases first_cases text with ⟨none, _⟩ | ⟨_, rest, _, _, some, opening, closing⟩
  · cases none.symm.trans first
  · cases some.symm.trans first
    have := length_cutOpening opening
    have := length_cutClosing closing
    constructor <;> omega

end First

/-! ### Meanings -/

section Means

variable (find : String → Option String)

/-- A text stands for a value, where names have the raw values that `find` tells. -/
inductive Means : List Char → List Char → Prop
  /-- A text without a placeholder stands for itself. -/
  | plain {text : List Char} (none : first? text = none) : Means text text
  /-- Without a raw value, the default stands in, or else the placeholder stays. -/
  | missing {text before body tail inside following : List Char}
    (first : first? text = some (before, body, tail)) (within : Means body inside)
    (absent : find (keyOf inside) = none) (after : Means tail following) :
    Means text (before ++ unresolved inside ++ following)
  /-- A raw value stands for what it means itself. -/
  | found {text before body tail inside value following : List Char} {raw : String}
    (first : first? text = some (before, body, tail)) (within : Means body inside)
    (present : find (keyOf inside) = some raw) (meaning : Means raw.toList value)
    (after : Means tail following) : Means text (before ++ value ++ following)

/-- What a text asks for until it stands for a value. -/
inductive AsksFor : List Char → String → Prop
  | within {text before body tail : List Char} {key : String}
    (first : first? text = some (before, body, tail)) (inner : AsksFor body key) :
    AsksFor text key
  | here {text before body tail inside : List Char}
    (first : first? text = some (before, body, tail)) (within : Means find body inside) :
    AsksFor text (keyOf inside)
  /-- The rest of a text is come to if the placeholder before it stands for something. -/
  | after {text before body tail inside : List Char} {key : String}
    (first : first? text = some (before, body, tail)) (within : Means find body inside)
    (ends : ∀ raw, find (keyOf inside) = some raw → ∃ value, Means find raw.toList value)
    (later : AsksFor tail key) : AsksFor text key

/-- Expanding the raw value of a name asks for another name. -/
def Leads (name other : String) : Prop :=
  ∃ raw, find name = some raw ∧ AsksFor find raw.toList other

end Means

section Laws

variable {find : String → Option String} {text value other : List Char}

/-- A text stands for one value at most. -/
theorem Means.unique (means : Means find text value) (also : Means find text other) :
    value = other := by
  induction means generalizing other with
  | plain none =>
    cases also with
    | plain => rfl
    | missing first => cases none.symm.trans first
    | found first => cases none.symm.trans first
  | missing first _ absent _ withinUnique afterUnique =>
    cases also with
    | plain none => cases none.symm.trans first
    | missing otherFirst within _ after =>
      cases first.symm.trans otherFirst
      rw [withinUnique within, afterUnique after]
    | found otherFirst within present =>
      cases first.symm.trans otherFirst
      rw [withinUnique within, present] at absent
      cases absent
  | found first _ present _ _ withinUnique meaningUnique afterUnique =>
    cases also with
    | plain none => cases none.symm.trans first
    | missing otherFirst within absent =>
      cases first.symm.trans otherFirst
      rw [withinUnique within, absent] at present
      cases present
    | found otherFirst within otherPresent meaning after =>
      cases first.symm.trans otherFirst
      rw [withinUnique within, otherPresent] at present
      cases present
      rw [meaningUnique meaning, afterUnique after]

/-- The other names that a name leads to are before it. -/
abbrev Grounded (find : String → Option String) (name : String) : Prop :=
  Acc (fun next name => Leads find name next) name

/-- A name that is asked for by a text with a meaning leads to finitely many names. -/
theorem Means.grounded (means : Means find text value) {key : String}
    (asks : AsksFor find text key) : Grounded find key := by
  induction means generalizing key with
  | plain none =>
    cases asks with
    | within first => cases none.symm.trans first
    | here first => cases none.symm.trans first
    | after first => cases none.symm.trans first
  | missing first within absent _ withinGrounded afterGrounded =>
    cases asks with
    | within otherFirst inner =>
      cases first.symm.trans otherFirst
      exact withinGrounded inner
    | here otherFirst otherWithin =>
      cases first.symm.trans otherFirst
      cases within.unique otherWithin
      refine .intro _ fun next leads => ?_
      obtain ⟨raw, present, _⟩ := leads
      cases absent.symm.trans present
    | after otherFirst _ _ later =>
      cases first.symm.trans otherFirst
      exact afterGrounded later
  | found first within present _ _ withinGrounded meaningGrounded afterGrounded =>
    cases asks with
    | within otherFirst inner =>
      cases first.symm.trans otherFirst
      exact withinGrounded inner
    | here otherFirst otherWithin =>
      cases first.symm.trans otherFirst
      cases within.unique otherWithin
      refine .intro _ fun next leads => ?_
      obtain ⟨raw, otherPresent, asksNext⟩ := leads
      cases present.symm.trans otherPresent
      exact meaningGrounded asksNext
    | after otherFirst _ _ later =>
      cases first.symm.trans otherFirst
      exact afterGrounded later

/-- A name whose raw value has a meaning leads to finitely many names. -/
theorem Means.grounded_name {name raw : String} (means : Means find raw.toList value)
    (present : find name = some raw) : Grounded find name := by
  refine .intro _ fun next leads => ?_
  obtain ⟨other, otherPresent, asks⟩ := leads
  cases present.symm.trans otherPresent
  exact means.grounded asks

/-! ### Expansions -/

/-- A way to find raw values that never fails. -/
def sure (find : String → Option String) (key : String) : Except Error (Option String) :=
  .ok (find key)

section Expand

variable {enterable entered : List String} {inside : List Char}

theorem filling_of_missing (absent : find (keyOf inside) = none) :
    filling (sure find) enterable entered inside = .ok (unresolved inside) := by
  unfold filling sure
  dsimp only
  rw [show find (String.ofList (cutDefault inside).1) = none from absent]
  rfl

theorem filling_of_found {raw : String} (present : find (keyOf inside) = some raw) :
    filling (sure find) enterable entered inside =
      if canonical (keyOf inside) ∈ enterable then
        expand (sure find) (without (canonical (keyOf inside)) enterable)
          (entered ++ [keyOf inside]) raw.toList
      else .error (.cycle (cycleOf entered (keyOf inside))) := by
  unfold filling sure
  dsimp only
  rw [show find (String.ofList (cutDefault inside).1) = some raw from present]
  rfl

/-- What an expansion comes to is what the text stands for. -/
theorem means_of_expand (enterable entered : List String) (text value : List Char)
    (expands : expand (sure find) enterable entered text = .ok value) : Means find text value := by
  cases first : first? text with
  | none =>
    rw [expand_of_plain first] at expands
    cases expands
    exact .plain first
  | some cut =>
    obtain ⟨before, body, tail⟩ := cut
    obtain ⟨bodyShorter, tailShorter⟩ := length_of_first first
    rw [expand_of_first first] at expands
    obtain ⟨inside, expandsBody, expands⟩ := bind_eq_ok.mp expands
    obtain ⟨filled, fills, expands⟩ := bind_eq_ok.mp expands
    obtain ⟨following, expandsTail, expands⟩ := bind_eq_ok.mp expands
    have within := means_of_expand enterable entered body inside expandsBody
    have after := means_of_expand enterable entered tail following expandsTail
    rw [← Except.ok.inj expands]
    cases present : find (keyOf inside) with
    | none =>
      rw [filling_of_missing present] at fills
      rw [← Except.ok.inj fills]
      exact .missing first within present after
    | some raw =>
      rw [filling_of_found present] at fills
      split at fills
      · next member =>
        have fewer := length_without_lt member
        exact .found first within present (means_of_expand _ _ _ _ fills) after
      · cases fills
  termination_by (enterable.length, text.length)

end Expand

end Laws

end Placeholder

end LayeredConfig
