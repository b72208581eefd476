/-
This file says into which tokens the text of a condition falls.

A sign is a token of its own, blanks only separate, and a name is a longest run of all other
characters. A text falls into tokens in exactly one way, and it is the way in which it is read.
-/

import LayeredConfig.Profile.Condition

namespace LayeredConfig.Condition

open Text

/-! ### Characters -/

/-- A character that names are made of: neither blank nor a sign. -/
def IsNamePart (c : Char) : Prop :=
  isBlank c = false ∧ c ∉ ['!', '&', '|', ',', '(', ')']

theorem ofChar?_eq_none {c : Char} :
    Token.ofChar? c = none ↔ c ∉ ['!', '&', '|', ',', '(', ')'] := by
  unfold Token.ofChar?
  split <;> simp_all

/-- No blank writes a token. -/
theorem ofChar?_of_blank {c : Char} (blank : isBlank c = true) : Token.ofChar? c = none := by
  unfold Token.ofChar?
  split
  all_goals first | rfl | exact absurd blank (by decide)

theorem isNamePart_iff {c : Char} :
    IsNamePart c ↔ Token.ofChar? c = none ∧ isBlank c = false := by
  rw [ofChar?_eq_none, IsNamePart, and_comm]

/-! ### Texts and tokens -/

/-- The characters fall into the tokens. -/
inductive Spells : List Char → List Token → Prop
  | done : Spells [] []
  | blank {c : Char} {rest : List Char} {tokens : List Token} (blank : isBlank c = true)
    (others : Spells rest tokens) : Spells (c :: rest) tokens
  | sign {c : Char} {token : Token} {rest : List Char} {tokens : List Token}
    (isSign : Token.ofChar? c = some token) (others : Spells rest tokens) :
    Spells (c :: rest) (token :: tokens)
  | name {run rest : List Char} {tokens : List Token} (filled : run ≠ [])
    (parts : ∀ c ∈ run, IsNamePart c) (maximal : ∀ c ∈ rest.head?, ¬ IsNamePart c)
    (others : Spells rest tokens) :
    Spells (run ++ rest) (.name (String.ofList run) :: tokens)

/-- A name that is being collected ends before a character that is no part of names. -/
theorem spells_flushName {collected rest : List Char} {tokens : List Token}
    (parts : ∀ c ∈ collected, IsNamePart c) (maximal : ∀ c ∈ rest.head?, ¬ IsNamePart c)
    (others : Spells rest tokens) :
    Spells (collected.reverse ++ rest) (flushName collected tokens) := by
  cases collected with
  | nil => exact others
  | cons c earlier =>
    refine .name (by simp) (fun part member => ?_) maximal others
    exact parts part (List.mem_reverse.mp member)

theorem spells_tokensFrom {collected chars : List Char}
    (parts : ∀ c ∈ collected, IsNamePart c) :
    Spells (collected.reverse ++ chars) (tokensFrom collected chars) := by
  induction chars generalizing collected with
  | nil => exact spells_flushName parts (by simp) .done
  | cons c rest inductionHypothesis =>
    have restSpells : Spells rest (tokensFrom [] rest) := @inductionHypothesis [] (by simp)
    rw [tokensFrom]
    split
    · next token isSign =>
      refine spells_flushName parts (fun head isHead => ?_) (.sign isSign restSpells)
      obtain rfl := Option.some.inj isHead
      simp [isNamePart_iff, isSign]
    · next noSign =>
      split
      · next blank =>
        refine spells_flushName parts (fun head isHead => ?_) (.blank blank restSpells)
        obtain rfl := Option.some.inj isHead
        simp [isNamePart_iff, blank]
      · next filled =>
        have part : IsNamePart c := isNamePart_iff.mpr ⟨noSign, Bool.not_eq_true _ ▸ filled⟩
        simpa using inductionHypothesis (List.forall_mem_cons.mpr ⟨part, parts⟩)

/-! ### The one way to fall into tokens -/

theorem tokensFrom_run {run : List Char} (parts : ∀ c ∈ run, IsNamePart c)
    (collected rest : List Char) :
    tokensFrom collected (run ++ rest) = tokensFrom (run.reverse ++ collected) rest := by
  induction run generalizing collected with
  | nil => rfl
  | cons c others inductionHypothesis =>
    obtain ⟨noSign, filled⟩ := isNamePart_iff.mp (parts c List.mem_cons_self)
    simp [tokensFrom, noSign, filled,
      inductionHypothesis fun part member => parts part (List.mem_cons_of_mem _ member)]

theorem tokensFrom_of_maximal {rest : List Char} (maximal : ∀ c ∈ rest.head?, ¬ IsNamePart c)
    (collected : List Char) :
    tokensFrom collected rest = flushName collected (tokensFrom [] rest) := by
  cases rest with
  | nil => rfl
  | cons c others =>
    have noPart := maximal c rfl
    rw [isNamePart_iff] at noPart
    cases isSign : Token.ofChar? c with
    | some token => simp [tokensFrom, isSign, flushName]
    | none =>
      have blank : isBlank c = true := by simpa [isSign] using noPart
      simp [tokensFrom, isSign, blank, flushName]

theorem Spells.tokensFrom_eq {chars : List Char} {tokens : List Token}
    (spells : Spells chars tokens) : tokensFrom [] chars = tokens := by
  induction spells with
  | done => rfl
  | blank blank _ inductionHypothesis =>
    simp [tokensFrom, ofChar?_of_blank blank, blank, flushName, inductionHypothesis]
  | sign isSign _ inductionHypothesis => simp [tokensFrom, isSign, flushName, inductionHypothesis]
  | @name run _ _ filled parts maximal _ inductionHypothesis =>
    rw [tokensFrom_run parts, tokensFrom_of_maximal maximal, inductionHypothesis]
    simp [flushName, filled]

/-- The tokens of a text are the only ones that it falls into. -/
theorem spells_iff {text : String} {ts : List Token} :
    Spells text.toList ts ↔ tokens text = ts := by
  constructor
  · exact Spells.tokensFrom_eq
  · rintro rfl
    exact @spells_tokensFrom [] text.toList (by simp)

/-- Blanks fall into no tokens. -/
theorem spells_of_blank {chars : List Char} (blank : ∀ c ∈ chars, isBlank c = true) :
    Spells chars [] := by
  induction chars with
  | nil => exact .done
  | cons c rest inductionHypothesis =>
    obtain ⟨first, others⟩ := List.forall_mem_cons.mp blank
    exact .blank first (inductionHypothesis others)

end LayeredConfig.Condition
