/-
This file cuts an entry of a properties text into key and value, and reads the escapes in both.

The key ends at the first `=`, `:` or blank that no backslash precedes. In either part a backslash
makes a control character of the letters `t`, `n`, `r` and `f`, any character of four hexadecimal
digits after a `u`, and stands for nothing before any other character.
-/

import LayeredConfig.Text.Blank

namespace LayeredConfig

open Text

namespace Properties

/-! ### Key and value -/

def isAssignment (c : Char) : Bool :=
  c = '=' || c = ':'

/-- The value after a key that a blank ends; one assignment sign may follow. -/
def valueAfterBlank (rest : List Char) : List Char :=
  match trimStart rest with
  | c :: value => if isAssignment c then trimStart value else c :: value
  | [] => []

/-- Cuts an entry, where `key` is what was read of the key, the latest character first. -/
def cutEntryFrom (key : List Char) : List Char → List Char × List Char
  | [] => (key.reverse, [])
  | ['\\'] => (('\\' :: key).reverse, [])
  | '\\' :: c :: rest => cutEntryFrom (c :: '\\' :: key) rest
  | c :: rest =>
    if isAssignment c then (trimEnd key.reverse, trimStart rest)
    else if isBlank c then (key.reverse, valueAfterBlank (c :: rest))
    else cutEntryFrom (c :: key) rest

/-- The key and the value of an entry, with their escapes. -/
def cutEntry (entry : List Char) : List Char × List Char :=
  cutEntryFrom [] entry

/-! ### Escapes -/

/-- The value of a hexadecimal digit. -/
def hexValue? (c : Char) : Option Nat :=
  if '0' ≤ c && c ≤ '9' then some (c.toNat - '0'.toNat)
  else if 'a' ≤ c && c ≤ 'f' then some (c.toNat - 'a'.toNat + 10)
  else if 'A' ≤ c && c ≤ 'F' then some (c.toNat - 'A'.toNat + 10)
  else none

def hexNumberFrom (value : Nat) : List Char → Option Nat
  | [] => some value
  | c :: rest =>
    match hexValue? c with
    | some digit => hexNumberFrom (value * 16 + digit) rest
    | none => none

/-- A hexadecimal number; a plus sign may stand before its digits. -/
def hexNumber? : List Char → Option Nat
  | [] => none
  | ['+'] => none
  | '+' :: digits => hexNumberFrom 0 digits
  | digits => hexNumberFrom 0 digits

/-- The character of a code point, if it is one. -/
def charOfCode? (code : Nat) : Option Char :=
  if valid : code.isValidChar then some (Char.ofNatAux code valid) else none

/-- The character that four characters after `\u` stand for. -/
def unicodeEscape? (hex : List Char) : Option Char :=
  if hex.length = 4 then (hexNumber? hex).bind charOfCode? else none

/-- The character that an escaped character stands for, `u` apart. -/
def plainEscape (c : Char) : Char :=
  if c = 't' then '\t'
  else if c = 'n' then '\n'
  else if c = 'r' then '\r'
  else if c = 'f' then '\x0c'
  else c

/-- Reads the escapes of a text; an escape that is malformed is the failure, as it is written. -/
def unescape : List Char → Except (List Char) (List Char)
  | [] => .ok []
  | ['\\'] => .ok []
  | '\\' :: 'u' :: rest =>
    match unicodeEscape? (rest.take 4) with
    | none => .error ('\\' :: 'u' :: rest.take 4)
    | some c => (unescape (rest.drop 4)).map (c :: ·)
  | '\\' :: c :: rest => (unescape rest).map (plainEscape c :: ·)
  | c :: rest => (unescape rest).map (c :: ·)
  termination_by text => text.length
  decreasing_by all_goals simp <;> omega

end Properties

end LayeredConfig
