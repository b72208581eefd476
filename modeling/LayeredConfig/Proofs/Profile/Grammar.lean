/-
This file defines the grammar of conditions.

A listing is one or more operations with commas between; an operation is one or more operands with
the same connective between any two of them; and an operand is a name, a negated operand, or a
listing in parentheses. A derivation is a tree of this shape. It has a row of tokens, a formula, in
which what consists of a single part is that part, and a meaning of its own, which is that of the
formula.
-/

import LayeredConfig.Proofs.Profile.Lexing

namespace LayeredConfig.Condition

/-! ### Derivations -/

mutual

/-- A name, a negation, or a listing in parentheses. -/
inductive Operand where
  | name (text : String)
  | not (operand : Operand)
  | group (listing : Listing)

/-- Operands with one connective between them; between the parts of a single one there is none. -/
inductive Operation where
  | joined (connective : Connective) (first : Operand) (others : List Operand)

/-- Operations with commas between them. -/
inductive Listing where
  | of (first : Operation) (others : List Operation)

end

def Connective.token : Connective → Token
  | and => .and
  | or => .or

/-- The formula of some operands under a connective; a single one is its own formula. -/
def Connective.join : Connective → List Condition → Condition
  | and => joined .all
  | or => joined .any

/-! #### Tokens -/

mutual

def Operand.tokens : Operand → List Token
  | .name text => [.name text]
  | .not operand => .not :: operand.tokens
  | .group listing => .opening :: (listing.tokens ++ [.closing])

/-- The tokens of further operands, each behind the connective. -/
def Operand.tokensAfter (connective : Connective) : List Operand → List Token
  | [] => []
  | operand :: rest => connective.token :: (operand.tokens ++ Operand.tokensAfter connective rest)

def Operation.tokens : Operation → List Token
  | .joined connective first others => first.tokens ++ Operand.tokensAfter connective others

/-- The tokens of further operations, each behind a comma. -/
def Operation.tokensAfter : List Operation → List Token
  | [] => []
  | operation :: rest => .comma :: (operation.tokens ++ Operation.tokensAfter rest)

def Listing.tokens : Listing → List Token
  | .of first others => first.tokens ++ Operation.tokensAfter others

end

/-! #### Formulas -/

mutual

def Operand.condition : Operand → Condition
  | .name text => .profile text
  | .not operand => .not operand.condition
  | .group listing => listing.condition

def Operand.conditions : List Operand → List Condition
  | [] => []
  | operand :: rest => operand.condition :: Operand.conditions rest

def Operation.condition : Operation → Condition
  | .joined connective first others =>
    connective.join (first.condition :: Operand.conditions others)

def Operation.conditions : List Operation → List Condition
  | [] => []
  | operation :: rest => operation.condition :: Operation.conditions rest

def Listing.condition : Listing → Condition
  | .of first others => Condition.joined .any (first.condition :: Operation.conditions others)

end

/-! #### Meaning -/

mutual

/-- Whether a derivation is true, if the accepted names are the true ones. -/
def Operand.Holds (accepted : String → Prop) : Operand → Prop
  | .name text => accepted text
  | .not operand => ¬ operand.Holds accepted
  | .group listing => listing.Holds accepted

def Operand.AllHold (accepted : String → Prop) : List Operand → Prop
  | [] => True
  | operand :: rest => operand.Holds accepted ∧ Operand.AllHold accepted rest

def Operand.AnyHolds (accepted : String → Prop) : List Operand → Prop
  | [] => False
  | operand :: rest => operand.Holds accepted ∨ Operand.AnyHolds accepted rest

def Operation.Holds (accepted : String → Prop) : Operation → Prop
  | .joined .and first others => first.Holds accepted ∧ Operand.AllHold accepted others
  | .joined .or first others => first.Holds accepted ∨ Operand.AnyHolds accepted others

def Operation.AnyHolds (accepted : String → Prop) : List Operation → Prop
  | [] => False
  | operation :: rest => operation.Holds accepted ∨ Operation.AnyHolds accepted rest

def Listing.Holds (accepted : String → Prop) : Listing → Prop
  | .of first others => first.Holds accepted ∨ Operation.AnyHolds accepted others

end

/-! ### Formulas mean what derivations mean -/

section Meaning

variable (accepted : String → Bool)

theorem holds_join_and (first : Condition) (others : List Condition) :
    (Connective.and.join (first :: others)).holds accepted =
      (first.holds accepted && holdsAll accepted others) := by
  cases others <;> simp [Connective.join, joined, holds, holdsAll]

theorem holds_join_or (first : Condition) (others : List Condition) :
    (Connective.or.join (first :: others)).holds accepted =
      (first.holds accepted || holdsAny accepted others) := by
  cases others <;> simp [Connective.join, joined, holds, holdsAny]

mutual

theorem Operand.holds_condition : ∀ operand : Operand,
    operand.condition.holds accepted = true ↔ operand.Holds (accepted · = true)
  | .name _ => Iff.rfl
  | .not operand => by
    rw [Operand.condition, holds, Operand.Holds, ← Operand.holds_condition operand]
    simp
  | .group listing => by
    rw [Operand.condition, Operand.Holds, Listing.holds_condition listing]

theorem Operand.holdsAll_conditions : ∀ operands : List Operand,
    holdsAll accepted (Operand.conditions operands) = true ↔
      Operand.AllHold (accepted · = true) operands
  | [] => by simp [Operand.conditions, holdsAll, Operand.AllHold]
  | operand :: rest => by
    rw [Operand.conditions, holdsAll, Bool.and_eq_true, Operand.holds_condition operand,
      Operand.holdsAll_conditions rest, Operand.AllHold]

theorem Operand.holdsAny_conditions : ∀ operands : List Operand,
    holdsAny accepted (Operand.conditions operands) = true ↔
      Operand.AnyHolds (accepted · = true) operands
  | [] => by simp [Operand.conditions, holdsAny, Operand.AnyHolds]
  | operand :: rest => by
    rw [Operand.conditions, holdsAny, Bool.or_eq_true, Operand.holds_condition operand,
      Operand.holdsAny_conditions rest, Operand.AnyHolds]

theorem Operation.holds_condition : ∀ operation : Operation,
    operation.condition.holds accepted = true ↔ operation.Holds (accepted · = true)
  | .joined .and first others => by
    rw [Operation.condition, holds_join_and, Bool.and_eq_true, Operand.holds_condition first,
      Operand.holdsAll_conditions others, Operation.Holds]
  | .joined .or first others => by
    rw [Operation.condition, holds_join_or, Bool.or_eq_true, Operand.holds_condition first,
      Operand.holdsAny_conditions others, Operation.Holds]

theorem Operation.holdsAny_conditions : ∀ operations : List Operation,
    holdsAny accepted (Operation.conditions operations) = true ↔
      Operation.AnyHolds (accepted · = true) operations
  | [] => by simp [Operation.conditions, holdsAny, Operation.AnyHolds]
  | operation :: rest => by
    rw [Operation.conditions, holdsAny, Bool.or_eq_true, Operation.holds_condition operation,
      Operation.holdsAny_conditions rest, Operation.AnyHolds]

/-- The formula of a derivation is true exactly if the derivation is. -/
theorem Listing.holds_condition : ∀ listing : Listing,
    listing.condition.holds accepted = true ↔ listing.Holds (accepted · = true)
  | .of first others => by
    have joins : joined .any (first.condition :: Operation.conditions others) =
        Connective.or.join (first.condition :: Operation.conditions others) := rfl
    rw [Listing.condition, joins, holds_join_or, Bool.or_eq_true, Operation.holds_condition first,
      Operation.holdsAny_conditions others, Listing.Holds]

end

end Meaning

/-- A set of profiles meets the formula of a derivation exactly if the derivation is true of the
accepted profiles. -/
theorem Listing.isMetBy_condition (listing : Listing) (profiles : Profiles) :
    listing.condition.isMetBy profiles = true ↔ listing.Holds (· ∈ profiles.accepted) := by
  have accepts : (profiles.accepts · = true) = (· ∈ profiles.accepted) := by
    funext name
    simp [Profiles.accepts]
  rw [isMetBy, listing.holds_condition, accepts]

end LayeredConfig.Condition
