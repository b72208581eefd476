/-
This file proves that the written form of a condition is read as that condition.

A formula is written with parentheses around every conjunction and disjunction, so what is written
of it is an operand, wherever it stands: the tokens of its text are those of a derivation whose
formula it is. This needs names that are tokens, and two parts at least in every conjunction and
disjunction, for reading takes a single part for itself. Every formula that was read is of this kind.
-/

import LayeredConfig.Proofs.Profile.Reading

namespace LayeredConfig.Condition

open Text

/-! ### Formulas that can be read -/

/-- A text that is a single name. -/
def IsName (text : String) : Prop :=
  text ≠ "" ∧ ∀ c ∈ text.toList, IsNamePart c

/-- A formula of names, without conjunctions or disjunctions of less than two parts. -/
inductive Readable : Condition → Prop
  | profile {name : String} (isName : IsName name) : Readable (.profile name)
  | not {operand : Condition} (part : Readable operand) : Readable (.not operand)
  | all {operands : List Condition} (several : 2 ≤ operands.length)
    (parts : ∀ operand ∈ operands, Readable operand) : Readable (.all operands)
  | any {operands : List Condition} (several : 2 ≤ operands.length)
    (parts : ∀ operand ∈ operands, Readable operand) : Readable (.any operands)

theorem readable_join (connective : Connective) {first : Condition} {others : List Condition}
    (parts : ∀ operand ∈ first :: others, Readable operand) :
    Readable (connective.join (first :: others)) := by
  cases others with
  | nil => cases connective <;> exact parts first List.mem_cons_self
  | cons second rest =>
    cases connective with
    | and => exact .all (by simp) parts
    | or => exact .any (by simp) parts

/-! ### What is read can be read again -/

/-- The names in a row of tokens are names. -/
def Named (row : List Token) : Prop :=
  ∀ text, .name text ∈ row → IsName text

theorem named_append {first second : List Token} :
    Named (first ++ second) ↔ Named first ∧ Named second := by
  simp [Named, or_imp, forall_and]

theorem named_cons {token : Token} {row : List Token} (named : Named (token :: row)) : Named row :=
  fun text member => named text (List.mem_cons_of_mem _ member)

theorem ofChar?_ne_name (c : Char) (text : String) : Token.ofChar? c ≠ some (.name text) := by
  unfold Token.ofChar?
  split <;> simp

theorem Spells.named {chars : List Char} {row : List Token} (spells : Spells chars row) :
    Named row := by
  induction spells with
  | done => exact nofun
  | blank _ _ inductionHypothesis => exact inductionHypothesis
  | @sign c _ _ _ isSign _ inductionHypothesis =>
    intro text member
    rcases List.mem_cons.mp member with rfl | inRest
    · exact absurd isSign (ofChar?_ne_name c text)
    · exact inductionHypothesis text inRest
  | name filled parts _ _ inductionHypothesis =>
    intro text member
    rcases List.mem_cons.mp member with same | inRest
    · obtain rfl := Token.name.inj same
      exact ⟨by simpa using filled, by simpa using parts⟩
    · exact inductionHypothesis text inRest

mutual

theorem Operand.readable : ∀ operand : Operand, Named operand.tokens → operand.condition.Readable
  | .name text, named => .profile (named text List.mem_cons_self)
  | .not operand, named => .not (Operand.readable operand (named_cons named))
  | .group listing, named => Listing.readable listing (named_append.mp (named_cons named)).1

theorem Operand.readable_conditions (connective : Connective) : ∀ operands : List Operand,
    Named (Operand.tokensAfter connective operands) →
      ∀ condition ∈ Operand.conditions operands, condition.Readable
  | [], _ => nofun
  | operand :: rest, named => by
    obtain ⟨here, behind⟩ := named_append.mp (named_cons named)
    exact List.forall_mem_cons.mpr
      ⟨Operand.readable operand here, Operand.readable_conditions connective rest behind⟩

theorem Operation.readable : ∀ operation : Operation,
    Named operation.tokens → operation.condition.Readable
  | .joined connective first others, named => by
    obtain ⟨here, behind⟩ := named_append.mp named
    exact readable_join connective (List.forall_mem_cons.mpr
      ⟨Operand.readable first here, Operand.readable_conditions connective others behind⟩)

theorem Operation.readable_conditions : ∀ operations : List Operation,
    Named (Operation.tokensAfter operations) →
      ∀ condition ∈ Operation.conditions operations, condition.Readable
  | [], _ => nofun
  | operation :: rest, named => by
    obtain ⟨here, behind⟩ := named_append.mp (named_cons named)
    exact List.forall_mem_cons.mpr
      ⟨Operation.readable operation here, Operation.readable_conditions rest behind⟩

/-- The formula of a derivation from names can be read. -/
theorem Listing.readable : ∀ listing : Listing, Named listing.tokens → listing.condition.Readable
  | .of first others, named => by
    obtain ⟨here, behind⟩ := named_append.mp named
    exact readable_join .or (List.forall_mem_cons.mpr
      ⟨Operation.readable first here, Operation.readable_conditions others behind⟩)

end

theorem readable_of_read {text : String} {condition : Condition}
    (isRead : read text = .ok condition) : condition.Readable := by
  obtain ⟨listing, spells, rfl⟩ := read_eq_ok.mp isRead
  exact listing.readable spells.named

/-! ### Written forms -/

/-- A text falls into the tokens, in front of anything that cannot make its last name longer. -/
def SpellsBefore (text : String) (row : List Token) : Prop :=
  ∀ rest others, (∀ c ∈ rest.head?, ¬ IsNamePart c) → Spells rest others →
    Spells (text.toList ++ rest) (row ++ others)

/-- The formula has a derivation as an operand that is spelled as the formula is written. -/
def Writes (operand : Operand) (condition : Condition) : Prop :=
  operand.condition = condition ∧ SpellsBefore condition.text operand.tokens

theorem writes_profile {name : String} (isName : IsName name) :
    Writes (.name name) (.profile name) := by
  refine ⟨rfl, fun rest others maximal spells => ?_⟩
  have filled : name.toList ≠ [] := by simpa using isName.1
  simpa [text, Operand.tokens] using Spells.name filled isName.2 maximal spells

theorem Writes.not {operand : Operand} {condition : Condition} (writes : Writes operand condition) :
    Writes (.not operand) (.not condition) := by
  refine ⟨by rw [Operand.condition, writes.1], fun rest others maximal spells => ?_⟩
  have negated := Spells.sign (show Token.ofChar? '!' = some .not from rfl)
    (writes.2 rest others maximal spells)
  simpa [text, Operand.tokens] using negated

/-- How a connective is written between two parts. -/
def Connective.separator : Connective → String
  | and => " & "
  | or => " | "

theorem spells_separator (connective : Connective) {chars : List Char} {row : List Token}
    (spells : Spells chars row) :
    Spells (connective.separator.toList ++ chars) (connective.token :: row) := by
  have blank : isBlank ' ' = true := by decide
  cases connective with
  | and => exact .blank blank (.sign rfl (.blank blank spells))
  | or => exact .blank blank (.sign rfl (.blank blank spells))

theorem not_isNamePart_of_sign {c : Char} {token : Token} (isSign : Token.ofChar? c = some token) :
    ¬ IsNamePart c := by
  simp [isNamePart_iff, isSign]

/-- Formulas that are written one behind the other, with a connective between, are spelled as
operands of one operation. -/
theorem writes_joined (connective : Connective) {first : Condition} {others : List Condition}
    (parts : ∀ condition ∈ first :: others, ∃ operand, Writes operand condition) :
    ∃ (operand : Operand) (operands : List Operand),
      operand.condition :: Operand.conditions operands = first :: others ∧
      SpellsBefore (textJoined connective.separator (first :: others))
        (operand.tokens ++ Operand.tokensAfter connective operands) := by
  induction others generalizing first with
  | nil =>
    obtain ⟨operand, rfl, spells⟩ := parts first List.mem_cons_self
    exact ⟨operand, [], rfl, by simpa [textJoined, Operand.tokensAfter] using spells⟩
  | cons second rest inductionHypothesis =>
    obtain ⟨operand, rfl, spells⟩ := parts first List.mem_cons_self
    obtain ⟨next, operands, same, spellsOthers⟩ :=
      inductionHypothesis fun condition member => parts condition (List.mem_cons_of_mem _ member)
    refine ⟨operand, next :: operands, by rw [Operand.conditions, same], ?_⟩
    intro behind row maximal spellsBehind
    have separated := spells_separator connective (spellsOthers behind row maximal spellsBehind)
    have blank : ∀ c ∈ (connective.separator.toList ++ ((textJoined connective.separator
        (second :: rest)).toList ++ behind)).head?, ¬ IsNamePart c := by
      intro c isHead
      obtain rfl : ' ' = c := by cases connective <;> exact Option.some.inj isHead
      simp [IsNamePart, show isBlank ' ' = true by decide]
    have whole := spells _ _ blank separated
    simpa [textJoined, Operand.tokensAfter] using whole

theorem joined_of_several (join : List Condition → Condition) {operands : List Condition}
    (several : 2 ≤ operands.length) : joined join operands = join operands := by
  match operands, several with
  | _ :: _ :: _, _ => rfl

/-- Formulas that are written in parentheses are spelled as one operand. -/
theorem writes_group (connective : Connective) {operands : List Condition}
    (several : 2 ≤ operands.length)
    (parts : ∀ condition ∈ operands, ∃ operand, Writes operand condition) :
    ∃ operand, Writes operand (connective.join operands) := by
  obtain ⟨first, second, rest, rfl⟩ : ∃ first second rest, operands = first :: second :: rest := by
    match operands, several with
    | first :: second :: rest, _ => exact ⟨first, second, rest, rfl⟩
  obtain ⟨operand, others, same, spells⟩ := writes_joined connective parts
  refine ⟨.group (.of (.joined connective operand others) []), ?_, ?_⟩
  · rw [Operand.condition, Listing.condition, Operation.condition, same]
    rfl
  · intro behind row _ spellsBehind
    have closed := Spells.sign (show Token.ofChar? ')' = some .closing from rfl) spellsBehind
    have inside := spells (')' :: behind) (.closing :: row)
      (by simp [not_isNamePart_of_sign (show Token.ofChar? ')' = some .closing from rfl)]) closed
    have opened := Spells.sign (show Token.ofChar? '(' = some .opening from rfl) inside
    have written : (connective.join (first :: second :: rest)).text =
        "(" ++ textJoined connective.separator (first :: second :: rest) ++ ")" := by
      cases connective <;> rfl
    simpa [written, Operand.tokens, Listing.tokens, Operation.tokens, Operation.tokensAfter]
      using opened

/-- What is written of a formula that can be read is spelled as an operand. -/
theorem Readable.writes {condition : Condition} (readable : condition.Readable) :
    ∃ operand, Writes operand condition := by
  induction readable with
  | profile isName => exact ⟨_, writes_profile isName⟩
  | not _ inductionHypothesis =>
    obtain ⟨operand, writes⟩ := inductionHypothesis
    exact ⟨_, writes.not⟩
  | all several _ inductionHypothesis =>
    rw [← joined_of_several .all several]
    exact writes_group .and several inductionHypothesis
  | any several _ inductionHypothesis =>
    rw [← joined_of_several .any several]
    exact writes_group .or several inductionHypothesis

/-- A formula that can be read is read from what is written of it. -/
theorem Readable.read_text {condition : Condition} (readable : condition.Readable) :
    read condition.text = .ok condition := by
  obtain ⟨operand, same, spells⟩ := readable.writes
  refine read_eq_ok.mpr ⟨.of (.joined .and operand []) [], ?_, same⟩
  have whole := spells [] [] nofun .done
  simpa [Listing.tokens, Operation.tokens, Operand.tokensAfter, Operation.tokensAfter] using whole

/-- Every condition that was read from a text is read again from its written form. So is every
formula of names, without conjunctions or disjunctions of less than two parts. -/
theorem read_written :
    (∀ text condition, read text = .ok condition → read condition.text = .ok condition) ∧
      ∀ condition : Condition, condition.Readable → read condition.text = .ok condition :=
  ⟨fun _ _ isRead => (readable_of_read isRead).read_text, fun _ readable => readable.read_text⟩

/-- Commas and needless parentheses are lost in the written form, the formula is not. -/
theorem read_written_negatedGroup :
    (read "!( a|b ),(c)" = .ok (.any [.not (.any [.profile "a", .profile "b"]), .profile "c"]) ∧
      read "(!(a | b) | c)" =
        .ok (.any [.not (.any [.profile "a", .profile "b"]), .profile "c"])) ∧
    Readable (.all [.profile "a", .profile "b"]) ∧
      read "(a & b)" = .ok (.all [.profile "a", .profile "b"]) := by
  have isRead : read "!( a|b ),(c)" =
      .ok (.any [.not (.any [.profile "a", .profile "b"]), .profile "c"]) := by
    rfl
  have readable : Readable (.all [.profile "a", .profile "b"]) := by
    refine .all (by decide) (List.forall_mem_cons.mpr ⟨.profile ?_, List.forall_mem_cons.mpr
      ⟨.profile ?_, nofun⟩⟩)
    all_goals exact ⟨by decide, by simp [IsNamePart]; decide⟩
  exact ⟨⟨isRead, read_written.1 _ _ isRead⟩, readable, read_written.2 _ readable⟩

end LayeredConfig.Condition
