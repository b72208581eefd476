/-
This file proves that conditions are read by their grammar.

Reading has no derivations. It keeps the listings that are not finished yet in frames, so what is
still to come has to finish all of them, the innermost one first. A frame is finished by a tail:
what a derivation has left after one of its operands. Reading succeeds exactly if what is to come
consists of a tail for each frame, with a parenthesis between any two; of one frame without anything
in it, this says that the tokens have a derivation.
-/

import LayeredConfig.Proofs.Profile.Grammar
import Mathlib.Logic.ExistsUnique

namespace LayeredConfig.Condition

open Text

/-! ### Tails -/

/-- What a listing has left after one of its operands: operands of the same operation, each behind
its connective, and operations, each behind a comma. -/
structure Tail where
  connective : Connective
  operands : List Operand
  operations : List Operation

namespace Tail

def tokens (tail : Tail) : List Token :=
  Operand.tokensAfter tail.connective tail.operands ++ Operation.tokensAfter tail.operations

/-- The operation that the frame reads may go on with the connective of the tail, if it does. -/
def Fits (tail : Tail) (frame : Frame) : Prop :=
  tail.operands ≠ [] → ∀ connective ∈ frame.connective, connective = tail.connective

end Tail

namespace Frame

/-- The frame after further operands of its current operation. -/
def extend (frame : Frame) (connective : Connective) : List Operand → Frame
  | [] => frame
  | operand :: rest =>
    ({ frame with connective := some connective }.add operand.condition).extend connective rest

/-- The frame after further operations. -/
def advance (frame : Frame) : List Operation → Frame
  | [] => frame
  | .joined connective first others :: rest =>
    ((frame.nextAlternative.add first.condition).extend connective others).advance rest

/-- The formula of the listing in the frame, once the tail has come. -/
def finish (frame : Frame) (tail : Tail) : Condition :=
  ((frame.extend tail.connective tail.operands).advance tail.operations).close

theorem negated_not (count : Nat) (operand : Condition) :
    negated count (.not operand) = .not (negated count operand) := by
  induction count with
  | zero => rfl
  | succ count inductionHypothesis => rw [negated, inductionHypothesis, negated]

/-- A negation may be counted before its operand or be part of it. -/
theorem add_negate (frame : Frame) (operand : Condition) :
    frame.negate.add operand = frame.add (.not operand) := by
  simp [add, negate, negated, negated_not]

/-- What is finished in a frame, with the current operation. -/
def formulas (frame : Frame) : List Condition :=
  frame.alternatives ++ [frame.alternative]

theorem close_eq (frame : Frame) : frame.close = joined .any frame.formulas :=
  rfl

theorem alternatives_extend (frame : Frame) (connective : Connective) (operands : List Operand) :
    (frame.extend connective operands).alternatives = frame.alternatives := by
  induction operands generalizing frame with
  | nil => rfl
  | cons operand rest inductionHypothesis => rw [extend, inductionHypothesis]; rfl

theorem operands_extend {frame : Frame} (ready : frame.negations = 0) (connective : Connective)
    (operands : List Operand) :
    (frame.extend connective operands).operands =
      frame.operands ++ Operand.conditions operands := by
  induction operands generalizing frame with
  | nil => exact (List.append_nil _).symm
  | cons operand rest inductionHypothesis =>
    rw [extend, inductionHypothesis rfl, Operand.conditions, List.append_cons]
    simp [add, ready, negated]

theorem connective_extend (frame : Frame) (connective : Connective) (operand : Operand)
    (rest : List Operand) :
    (frame.extend connective (operand :: rest)).connective = some connective := by
  induction rest generalizing frame operand with
  | nil => rfl
  | cons next others inductionHypothesis => rw [extend, inductionHypothesis]

theorem alternative_eq {frame : Frame} {connective : Connective}
    (seen : frame.connective = some connective) :
    frame.alternative = connective.join frame.operands := by
  cases connective <;> simp [alternative, seen, Connective.join]

/-- An operation that starts with an operand has its own formula in the end. -/
theorem alternative_extend {frame : Frame} (ready : frame.negations = 0)
    (started : frame.connective = none) {first : Operand}
    (only : frame.operands = [first.condition]) (connective : Connective)
    (others : List Operand) :
    (frame.extend connective others).alternative =
      (Operation.joined connective first others).condition := by
  cases others with
  | nil => cases connective <;> simp [extend, alternative, started, only, joined,
      Operation.condition, Operand.conditions, Connective.join]
  | cons operand rest =>
    rw [alternative_eq (connective_extend frame connective operand rest), operands_extend ready,
      only, Operation.condition]
    rfl

/-- The formulas of a frame after further operations are followed by theirs. -/
theorem formulas_advance (frame : Frame) (operations : List Operation) :
    (frame.advance operations).formulas = frame.formulas ++ Operation.conditions operations := by
  induction operations generalizing frame with
  | nil => exact (List.append_nil _).symm
  | cons operation rest inductionHypothesis =>
    obtain ⟨connective, first, others⟩ := operation
    rw [advance, inductionHypothesis, formulas, alternatives_extend,
      alternative_extend rfl rfl rfl, Operation.conditions, List.append_assoc]
    rfl

/-- A listing that is read into an empty frame has its own formula in the end. -/
theorem finish_listing (connective : Connective) (first : Operand) (others : List Operand)
    (operations : List Operation) :
    (empty.add first.condition).finish ⟨connective, others, operations⟩ =
      (Listing.of (.joined connective first others) operations).condition := by
  rw [finish, close_eq, formulas_advance, formulas, alternatives_extend,
    alternative_extend rfl rfl rfl, Listing.condition]
  rfl

end Frame

/-! ### What is to come -/

/-- The tokens that have to come behind the formula of a listing: a parenthesis and a tail for each
frame around it. In the end there is the whole formula. -/
def Leaves : List Frame → Condition → List Token → Condition → Prop
  | [], formula, tokens, whole => tokens = [] ∧ formula = whole
  | frame :: outer, formula, tokens, whole =>
    ∃ tail rest, tail.Fits (frame.add formula) ∧ tokens = .closing :: (tail.tokens ++ rest) ∧
      Leaves outer ((frame.add formula).finish tail) rest whole

/-- The tokens that have to come in a frame that has just taken an operand. -/
def Closes (frame : Frame) (outer : List Frame) (tokens : List Token) (whole : Condition) : Prop :=
  ∃ tail rest, tail.Fits frame ∧ tokens = tail.tokens ++ rest ∧
    Leaves outer (frame.finish tail) rest whole

/-- The tokens that have to come in a frame that has to take an operand. -/
def Opens (frame : Frame) (outer : List Frame) (tokens : List Token) (whole : Condition) : Prop :=
  ∃ (operand : Operand) (rest : List Token), tokens = operand.tokens ++ rest ∧
    Closes (frame.add operand.condition) outer rest whole

section Steps

variable {frame : Frame} {outer : List Frame} {tokens : List Token} {whole formula : Condition}

theorem leaves_cons :
    Leaves (frame :: outer) formula tokens whole ↔
      ∃ rest, tokens = .closing :: rest ∧ Closes (frame.add formula) outer rest whole := by
  constructor
  · rintro ⟨tail, rest, fits, rfl, leaves⟩
    exact ⟨_, rfl, tail, rest, fits, rfl, leaves⟩
  · rintro ⟨_, rfl, tail, rest, fits, rfl, leaves⟩
    exact ⟨tail, rest, fits, rfl, leaves⟩

theorem not_leaves {token : Token} {rest : List Token} (noEnd : token ≠ .closing) :
    ¬ Leaves outer formula (token :: rest) whole := by
  cases outer <;> simp [Leaves, noEnd]

/-- An operand comes as a name, as an operand behind a negation, or as a listing that is opened. -/
theorem opens_iff :
    Opens frame outer tokens whole ↔
      (∃ text rest, tokens = .name text :: rest ∧
        Closes (frame.add (.profile text)) outer rest whole) ∨
      (∃ rest, tokens = .not :: rest ∧ Opens frame.negate outer rest whole) ∨
      ∃ rest, tokens = .opening :: rest ∧ Opens .empty (frame :: outer) rest whole := by
  constructor
  · rintro ⟨operand, rest, rfl, closes⟩
    cases operand with
    | name text => exact Or.inl ⟨text, rest, rfl, closes⟩
    | not operand =>
      refine Or.inr (Or.inl ⟨_, rfl, operand, rest, rfl, ?_⟩)
      rwa [Frame.add_negate]
    | group listing =>
      obtain ⟨⟨connective, first, others⟩, operations⟩ := listing
      refine Or.inr (Or.inr ⟨_, rfl, first, _, ?_, ⟨connective, others, operations⟩,
        .closing :: rest, ?_, rfl, leaves_cons.mpr ⟨rest, rfl, ?_⟩⟩)
      · simp [Tail.tokens, Listing.tokens, Operation.tokens]
      · exact nofun
      · rwa [Frame.finish_listing]
  · rintro (⟨text, rest, rfl, closes⟩ | ⟨_, rfl, operand, rest, rfl, closes⟩ |
      ⟨_, rfl, first, _, rfl, ⟨connective, others, operations⟩, _, _, rfl, leaves⟩)
    · exact ⟨.name text, rest, rfl, closes⟩
    · rw [Frame.add_negate] at closes
      exact ⟨.not operand, rest, rfl, closes⟩
    · obtain ⟨rest, rfl, closes⟩ := leaves_cons.mp leaves
      rw [Frame.finish_listing] at closes
      refine ⟨.group (.of (.joined connective first others) operations), rest, ?_, closes⟩
      simp [Tail.tokens, Operand.tokens, Listing.tokens, Operation.tokens]

/-- Behind an operand, the listing ends, or a connective that fits or a comma comes, and then an
operand. -/
theorem closes_iff :
    Closes frame outer tokens whole ↔
      Leaves outer frame.close tokens whole ∨
      (∃ rest, tokens = .comma :: rest ∧ Opens frame.nextAlternative outer rest whole) ∨
      ∃ connective rest, tokens = connective.token :: rest ∧
        (∀ seen ∈ frame.connective, seen = connective) ∧
        Opens { frame with connective := some connective } outer rest whole := by
  constructor
  · rintro ⟨⟨connective, operands, operations⟩, rest, fits, rfl, leaves⟩
    cases operands with
    | nil =>
      cases operations with
      | nil => exact Or.inl leaves
      | cons operation further =>
        obtain ⟨own, first, others⟩ := operation
        refine Or.inr (Or.inl ⟨_, rfl, first, _, ?_, ⟨own, others, further⟩, rest, nofun, rfl,
          leaves⟩)
        simp [Tail.tokens, Operation.tokens]
    | cons operand others =>
      refine Or.inr (Or.inr ⟨connective, _, rfl, fits nofun, operand, _, ?_,
        ⟨connective, others, operations⟩, rest, ?_, rfl, leaves⟩)
      · simp [Tail.tokens]
      · rintro - seen isSeen
        exact (Option.some.inj isSeen).symm
  · rintro (leaves | ⟨_, rfl, first, _, rfl, ⟨own, others, further⟩, rest, _, rfl, leaves⟩ |
      ⟨connective, _, rfl, fits, operand, _, rfl, ⟨own, others, operations⟩, rest, fitsToo, rfl,
        leaves⟩)
    · exact ⟨⟨.and, [], []⟩, tokens, nofun, rfl, leaves⟩
    · refine ⟨⟨.and, [], .joined own first others :: further⟩, rest, nofun, ?_, leaves⟩
      simp [Tail.tokens, Operand.tokensAfter, Operation.tokensAfter, Operation.tokens]
    · cases others with
      | nil =>
        refine ⟨⟨connective, [operand], operations⟩, rest, fun _ => fits, ?_, leaves⟩
        simp [Tail.tokens, Operand.tokensAfter]
      | cons next others =>
        obtain rfl : connective = own := fitsToo nofun connective rfl
        refine ⟨⟨connective, operand :: next :: others, operations⟩, rest, fun _ => fits, ?_,
          leaves⟩
        simp [Tail.tokens, Operand.tokensAfter]

theorem Connective.exists_iff {holds : Connective → Prop} :
    (∃ connective, holds connective) ↔ holds .and ∨ holds .or := by
  constructor
  · rintro ⟨_ | _, isHeld⟩
    · exact Or.inl isHeld
    · exact Or.inr isHeld
  · rintro (isHeld | isHeld) <;> exact ⟨_, isHeld⟩

theorem Connective.forall_eq_and {seen : Option Connective} :
    (∀ connective, seen = some connective → connective = .and) ↔ seen ≠ some .or := by
  rcases seen with _ | (_ | _) <;> simp

theorem Connective.forall_eq_or {seen : Option Connective} :
    (∀ connective, seen = some connective → connective = .or) ↔ seen ≠ some .and := by
  rcases seen with _ | (_ | _) <;> simp

/-- Reading succeeds exactly on the tokens that have to come. The induction is on these tokens, as
reading drops one of them in each step; the frames are as they may be. -/
theorem read_iff (tokens : List Token) (frame : Frame) (outer : List Frame) (whole : Condition) :
    (readOperand frame outer tokens = .ok whole ↔ Opens frame outer tokens whole) ∧
      (readAfter frame outer tokens = .ok whole ↔ Closes frame outer tokens whole) := by
  induction tokens generalizing frame outer with
  | nil =>
    rw [opens_iff, closes_iff]
    refine ⟨by simp [readOperand], ?_⟩
    cases outer <;> simp [readAfter, Leaves]
  | cons token rest inductionHypothesis =>
    have opens (frame : Frame) (outer : List Frame) := (inductionHypothesis frame outer).1
    have closes (frame : Frame) (outer : List Frame) := (inductionHypothesis frame outer).2
    rw [opens_iff, closes_iff, Connective.exists_iff]
    cases token with
    | name text =>
      refine ⟨by simp [readOperand, closes, and_assoc], ?_⟩
      cases outer <;> simp [readAfter, not_leaves, Connective.token]
    | not =>
      refine ⟨by simp [readOperand, opens], ?_⟩
      cases outer <;> simp [readAfter, not_leaves, Connective.token]
    | opening =>
      refine ⟨by simp [readOperand, opens], ?_⟩
      cases outer <;> simp [readAfter, not_leaves, Connective.token]
    | and =>
      refine ⟨by simp [readOperand], ?_⟩
      by_cases mixed : frame.connective = some .or <;>
        simp [readAfter, not_leaves, Connective.token, mixed, opens,
          Connective.forall_eq_and]
    | or =>
      refine ⟨by simp [readOperand], ?_⟩
      by_cases mixed : frame.connective = some .and <;>
        simp [readAfter, not_leaves, Connective.token, mixed, opens,
          Connective.forall_eq_or]
    | comma =>
      refine ⟨by simp [readOperand], ?_⟩
      simp [readAfter, not_leaves, Connective.token, opens]
    | closing =>
      refine ⟨by simp [readOperand], ?_⟩
      cases outer with
      | nil => simp [readAfter, Leaves, Connective.token]
      | cons => simp [readAfter, leaves_cons, Connective.token, closes]

end Steps

/-- A row of tokens is read as a condition exactly if it has a derivation with this formula. -/
theorem ofTokens_eq_ok {tokens : List Token} {condition : Condition} :
    ofTokens tokens = .ok condition ↔
      ∃ listing : Listing, listing.tokens = tokens ∧ listing.condition = condition := by
  have same : ofTokens tokens = .ok condition ↔ readOperand .empty [] tokens = .ok condition := by
    cases tokens <;> simp [ofTokens, readOperand]
  rw [same, (read_iff tokens .empty [] condition).1]
  constructor
  · rintro ⟨first, _, rfl, ⟨connective, others, operations⟩, _, _, rfl, rfl, rfl⟩
    refine ⟨.of (.joined connective first others) operations, ?_, ?_⟩
    · simp [Tail.tokens, Listing.tokens, Operation.tokens]
    · rw [Frame.finish_listing]
  · rintro ⟨⟨⟨connective, first, others⟩, operations⟩, rfl, rfl⟩
    refine ⟨first, _, ?_, ⟨connective, others, operations⟩, [], nofun, rfl, rfl, ?_⟩
    · simp [Tail.tokens, Listing.tokens, Operation.tokens]
    · rw [Frame.finish_listing]

theorem read_eq_ok {text : String} {condition : Condition} :
    read text = .ok condition ↔
      ∃ listing : Listing, Spells text.toList listing.tokens ∧ listing.condition = condition := by
  have same : read text = .ok condition ↔ ofTokens (tokens text) = .ok condition := by
    unfold read
    cases ofTokens (tokens text) <;> simp
  rw [same, ofTokens_eq_ok]
  simp only [spells_iff, eq_comm]

/-- A text falls into tokens in one way, and it is read as a condition exactly if they have a
derivation. The condition is then the formula of the derivation, and it is met by the profiles of
which the derivation is true. -/
theorem read_iff_derives (text : String) :
    (∃! row, Spells text.toList row) ∧
    ((∃ condition, read text = .ok condition) ↔
      ∃ listing : Listing, Spells text.toList listing.tokens) ∧
    ∀ listing : Listing, Spells text.toList listing.tokens →
      read text = .ok listing.condition ∧
        ∀ profiles, listing.condition.isMetBy profiles = true ↔
          listing.Holds (· ∈ profiles.accepted) := by
  refine ⟨⟨tokens text, spells_iff.mpr rfl, fun row spells => (spells_iff.mp spells).symm⟩, ?_, ?_⟩
  · simp only [read_eq_ok]
    exact ⟨fun ⟨_, listing, spells, _⟩ => ⟨listing, spells⟩,
      fun ⟨listing, spells⟩ => ⟨_, listing, spells, rfl⟩⟩
  · intro listing spells
    exact ⟨read_eq_ok.mpr ⟨listing, spells, rfl⟩, listing.isMetBy_condition⟩

/-- A name, or a negation of two names that are joined. -/
def nameOrNegation : Listing :=
  .of (.joined .and (.name "a") [])
    [.joined .and (.not (.group (.of (.joined .and (.name "b") [.name "c"]) []))) []]

/-- The parts of a derivation that consist of one part only leave no trace in its formula. -/
theorem read_iff_derives_nameOrNegation :
    Spells "a, !(b & c)".toList nameOrNegation.tokens ∧
      read "a, !(b & c)" = .ok (.any [.profile "a", .not (.all [.profile "b", .profile "c"])]) ∧
      ∀ profiles, nameOrNegation.condition.isMetBy profiles = true ↔
        nameOrNegation.Holds (· ∈ profiles.accepted) := by
  have spells : Spells "a, !(b & c)".toList nameOrNegation.tokens := spells_iff.mpr (by decide)
  exact ⟨spells, (read_iff_derives "a, !(b & c)").2.2 nameOrNegation spells⟩

end LayeredConfig.Condition
