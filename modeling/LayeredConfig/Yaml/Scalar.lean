/-
This file says what the text of a scalar stands for: nothing, a truth value, a number or a text.

A plain scalar is read as the first of these that its text can be. Whole numbers may be written in
base two, eight and sixteen, but not with a leading zero, and those that need more than 64 bits are
refused. A number that is too large to be a fraction is a text.
-/

import LayeredConfig.Properties.Entry
import LayeredConfig.Yaml.Binary64
import LayeredConfig.Yaml.Node

namespace LayeredConfig.Yaml

inductive Number where
  | integer (value : Int)
  | fraction (value : Binary64)
  | infinity (isNegative : Bool)
  | undefined
  deriving DecidableEq, Repr, Inhabited

namespace Number

def text : Number → String
  | integer value => toString value
  | fraction value => value.text
  | infinity true => "-.inf"
  | infinity false => ".inf"
  | undefined => ".nan"

/-- Whether two numbers count as one key; whole numbers differ from fractions. -/
def same : Number → Number → Bool
  | fraction value, fraction other =>
    value == other || (value.mantissa == 0 && other.mantissa == 0)
  | number, other => number == other

end Number

/-- What a scalar stands for. -/
inductive Scalar where
  | null
  | bool (value : Bool)
  | number (value : Number)
  | string (text : String)
  deriving DecidableEq, Repr, Inhabited

namespace Scalar

/-! ### Nothing and truth values -/

def isNull (text : String) : Bool :=
  ["null", "Null", "NULL", "~"].contains text

def readBool? (text : String) : Option Bool :=
  if ["true", "True", "TRUE"].contains text then some true
  else if ["false", "False", "FALSE"].contains text then some false
  else none

/-! ### Whole numbers -/

def digitValue? (base : Nat) (c : Char) : Option Nat :=
  (Properties.hexValue? c).filter (· < base)

/-- The value of digits in a base; there is at least one. -/
def readDigits? (base : Nat) (digits : List Char) : Option Nat :=
  if digits.isEmpty then none
  else digits.foldlM (fun value c => (digitValue? base c).map (value * base + ·)) 0

/-- Whether a text is of digits, of which the first of several is zero. -/
def hasLeadingZero (text : List Char) : Bool :=
  let unsigned := match text with
    | '-' :: rest => rest
    | '+' :: rest => rest
    | _ => text
  2 ≤ unsigned.length && unsigned.head? == some '0' && unsigned.all Char.isDigit

/-- The value of an unsigned whole number. -/
def readMagnitude? : List Char → Option Nat
  | '0' :: 'x' :: digits => readDigits? 16 digits
  | '0' :: 'o' :: digits => readDigits? 8 digits
  | '0' :: 'b' :: digits => readDigits? 2 digits
  | digits => if hasLeadingZero digits then none else readDigits? 10 digits

/-- The value of a whole number with a sign or without. -/
def readInteger? : List Char → Option Int
  | '+' :: rest => (readMagnitude? rest).map fun value => value
  | '-' :: rest => (readMagnitude? rest).map fun value => -value
  | text => (readMagnitude? text).map fun value => value

/-- Reads a whole number: one of 64 bits is good, one of 128 bits is refused, and a text with a
still larger number is no whole number at all. -/
def readWhole? (text : String) : Option (Except Fault Number) :=
  match readInteger? text.toList with
  | none => none
  | some value =>
    if -0x8000000000000000 ≤ value && value < 0x10000000000000000 then some (.ok (.integer value))
    else if -0x80000000000000000000000000000000 ≤ value &&
        value < 0x100000000000000000000000000000000 then
      some (Node.misplaced "found a whole number of more than 64 bits")
    else none

/-! ### Fractions -/

def readFraction? (text : String) : Option Number :=
  if [".inf", ".Inf", ".INF", "+.inf", "+.Inf", "+.INF"].contains text then some (.infinity false)
  else if ["-.inf", "-.Inf", "-.INF"].contains text then some (.infinity true)
  else if [".nan", ".NaN", ".NAN"].contains text then some .undefined
  else (Binary64.read? text.toList).map .fraction

/-! ### Scalars -/

/-- Reads a plain scalar. -/
def ofPlain (text : String) : Except Fault Scalar :=
  if text = "" || isNull text then .ok .null
  else
    match readBool? text with
    | some value => .ok (.bool value)
    | none =>
      match readWhole? text with
      | some whole => whole.map .number
      | none =>
        if hasLeadingZero text.toList then .ok (.string text)
        else
          match readFraction? text with
          | some value => .ok (.number value)
          | none => .ok (.string text)

/-- Reads a scalar under its tag, if it has one. A tag of the document leaves the reading as it is
without a tag, and the tags of the format look at the text of a quoted scalar too. -/
def read (tag : Option Tag) (text : String) (isPlain : Bool) : Except Fault Scalar :=
  let untagged := if isPlain then ofPlain text else .ok (.string text)
  match tag with
  | none => untagged
  | some (.own _) => untagged
  | some .nameless => untagged
  | some .bool =>
    match readBool? text with
    | some value => .ok (.bool value)
    | none => Node.misplaced "expected a boolean"
  | some .integer =>
    match readWhole? text with
    | some whole => whole.map .number
    | none => Node.misplaced "expected an integer"
  | some .fraction =>
    match readFraction? text with
    | some value => .ok (.number value)
    | none => Node.misplaced "expected a float"
  | some .null => if isNull text then .ok .null else Node.misplaced "expected null"
  | some .foreign => .ok (.string text)

/-- The text of a scalar as a property value; nothing is empty. -/
def text : Scalar → String
  | null => ""
  | bool true => "true"
  | bool false => "false"
  | number value => value.text
  | string text => text

/-- Whether two scalars count as one key. -/
def same : Scalar → Scalar → Bool
  | number value, number other => value.same other
  | scalar, other => scalar == other

end Scalar

end LayeredConfig.Yaml
