/-
This file defines activation conditions: boolean formulas over profile names.

A condition is written as a list of alternatives separated by commas; an alternative joins operands
by `&` or by `|`, never by both without parentheses, and an operand is a name, a negation, or a list
in parentheses. Reading walks once over the tokens with a stack of unfinished lists, so that each
mistake is reported at the first token that cannot stand where it does.
-/

import LayeredConfig.Error
import LayeredConfig.Profile.Set
import LayeredConfig.Property.Name

namespace LayeredConfig

open Text

/-- A boolean formula over profile names. -/
inductive Condition where
  | profile (name : String)
  | not (operand : Condition)
  | all (operands : List Condition)
  | any (operands : List Condition)
  deriving Inhabited, Repr

namespace Condition

/-! ### Meaning -/

mutual

/-- Whether the formula is true when exactly the accepted names are. -/
def holds (accepted : String → Bool) : Condition → Bool
  | profile name => accepted name
  | not operand => !holds accepted operand
  | all operands => holdsAll accepted operands
  | any operands => holdsAny accepted operands

def holdsAll (accepted : String → Bool) : List Condition → Bool
  | [] => true
  | operand :: rest => holds accepted operand && holdsAll accepted rest

def holdsAny (accepted : String → Bool) : List Condition → Bool
  | [] => false
  | operand :: rest => holds accepted operand || holdsAny accepted rest

end

/-- Whether the condition is met by a set of profiles. -/
def isMetBy (condition : Condition) (profiles : Profiles) : Bool :=
  condition.holds profiles.accepts

/-! ### Equality -/

mutual

def sameAs : Condition → Condition → Bool
  | profile name, profile other => name == other
  | not operand, not other => sameAs operand other
  | all operands, all others => sameAsAll operands others
  | any operands, any others => sameAsAll operands others
  | _, _ => false

def sameAsAll : List Condition → List Condition → Bool
  | [], [] => true
  | operand :: rest, other :: others => sameAs operand other && sameAsAll rest others
  | _, _ => false

end

instance : BEq Condition := ⟨sameAs⟩

/-! ### Written form -/

mutual

/-- The written form, with parentheses around every conjunction and disjunction. -/
def text : Condition → String
  | profile name => name
  | not operand => "!" ++ text operand
  | all operands => "(" ++ textJoined " & " operands ++ ")"
  | any operands => "(" ++ textJoined " | " operands ++ ")"

def textJoined (separator : String) : List Condition → String
  | [] => ""
  | [operand] => text operand
  | operand :: rest => text operand ++ separator ++ textJoined separator rest

end

/-! ### Tokens -/

inductive Token where
  | name (text : String)
  | not
  | and
  | or
  | comma
  | opening
  | closing
  deriving DecidableEq, Repr

/-- The token that is written by one character, if the character writes one. -/
def Token.ofChar? : Char → Option Token
  | '!' => some .not
  | '&' => some .and
  | '|' => some .or
  | ',' => some .comma
  | '(' => some .opening
  | ')' => some .closing
  | _ => none

/-- Ends the name that is being collected, given latest character first. -/
def flushName (collected : List Char) (tokens : List Token) : List Token :=
  if collected.isEmpty then tokens else .name (String.ofList collected.reverse) :: tokens

/-- The tokens of a text, where `collected` is the name read so far, latest character first.

A name is a longest run of characters that are neither blank nor tokens of their own. -/
def tokensFrom (collected : List Char) : List Char → List Token
  | [] => flushName collected []
  | c :: rest =>
    match Token.ofChar? c with
    | some token => flushName collected (token :: tokensFrom [] rest)
    | none =>
      if isBlank c then flushName collected (tokensFrom [] rest)
      else tokensFrom (c :: collected) rest

def tokens (text : String) : List Token :=
  tokensFrom [] text.toList

/-! ### Reading -/

/-- What is wrong with a text that is no condition. -/
inductive Mistake where
  | empty
  | unfinished
  | noName
  | mixed
  | unclosed
  | trailing
  deriving DecidableEq, Repr

def Mistake.message : Mistake → String
  | empty => "expression is empty"
  | unfinished => "unexpected end of expression"
  | noName => "expected a profile name"
  | mixed => "'&' and '|' must not be mixed without parentheses"
  | unclosed => "missing ')'"
  | trailing => "unexpected trailing input"

/-- The two ways to join the operands of one alternative. -/
inductive Connective where
  | and
  | or
  deriving DecidableEq, Repr

/-- A list of one operand is that operand. -/
def joined (join : List Condition → Condition) : List Condition → Condition
  | [operand] => operand
  | operands => join operands

/-- A list of alternatives that is still being read. -/
structure Frame where
  /-- The finished alternatives. -/
  alternatives : List Condition
  /-- How the operands of the current alternative are joined, once that is seen. -/
  connective : Option Connective
  /-- The operands of the current alternative. -/
  operands : List Condition
  /-- The negations that stand before the next operand. -/
  negations : Nat

namespace Frame

def empty : Frame := ⟨[], none, [], 0⟩

def negated : Nat → Condition → Condition
  | 0, operand => operand
  | count + 1, operand => .not (negated count operand)

/-- Takes an operand, under the negations before it. -/
def add (frame : Frame) (operand : Condition) : Frame :=
  { frame with operands := frame.operands ++ [negated frame.negations operand], negations := 0 }

def negate (frame : Frame) : Frame :=
  { frame with negations := frame.negations + 1 }

/-- The current alternative. -/
def alternative (frame : Frame) : Condition :=
  match frame.connective with
  | some .or => joined .any frame.operands
  | _ => joined .all frame.operands

def nextAlternative (frame : Frame) : Frame :=
  ⟨frame.alternatives ++ [frame.alternative], none, [], 0⟩

/-- The condition that the list stands for. -/
def close (frame : Frame) : Condition :=
  joined .any (frame.alternatives ++ [frame.alternative])

end Frame

mutual

/-- Reads on where an operand has to come. -/
def readOperand (frame : Frame) (outer : List Frame) : List Token → Except Mistake Condition
  | [] => .error .unfinished
  | .name text :: rest => readAfter (frame.add (.profile text)) outer rest
  | .not :: rest => readOperand frame.negate outer rest
  | .opening :: rest => readOperand .empty (frame :: outer) rest
  | _ :: _ => .error .noName

/-- Reads on where an operand has just come; `outer` are the lists around the current one. -/
def readAfter (frame : Frame) (outer : List Frame) : List Token → Except Mistake Condition
  | [] => if outer.isEmpty then .ok frame.close else .error .unclosed
  | .and :: rest =>
    if frame.connective = some .or then .error .mixed
    else readOperand { frame with connective := some .and } outer rest
  | .or :: rest =>
    if frame.connective = some .and then .error .mixed
    else readOperand { frame with connective := some .or } outer rest
  | .comma :: rest => readOperand frame.nextAlternative outer rest
  | token :: rest =>
    match outer with
    | [] => .error .trailing
    | enclosing :: further =>
      if token = .closing then readAfter (enclosing.add frame.close) further rest
      else .error .unclosed

end

def ofTokens : List Token → Except Mistake Condition
  | [] => .error .empty
  | tokens => readOperand .empty [] tokens

/-- Reads a condition. -/
def read (text : String) : Except Error Condition :=
  match ofTokens (tokens text) with
  | .ok condition => .ok condition
  | .error mistake =>
    .error (.unbound PropertyName.condition
      ("malformed profile expression '" ++ text ++ "': " ++ mistake.message))

end Condition

end LayeredConfig
