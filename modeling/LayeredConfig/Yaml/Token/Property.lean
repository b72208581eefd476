/-
This file reads what may stand before a node, an anchor or a tag, and the directives of a document.

A tag is a shorthand, whose handle stands for a longer text, or is written out between angle
brackets. In a tag any byte may be given by a percent sign and two hexadecimal digits, so that a tag
is read as bytes.
-/

import LayeredConfig.Properties.Entry
import LayeredConfig.Yaml.Cursor
import LayeredConfig.Yaml.Tag
import LayeredConfig.Yaml.Token.Basic

namespace LayeredConfig.Yaml

/-! ### Anchors -/

namespace Anchor

/-- Whether an anchor may end before a character. -/
def endsBefore (rest : List Char) : Bool :=
  atBlankOrEnd rest ||
    match rest with
    | c :: _ => ['?', ':', ',', ']', '}', '%', '@', '\x60'].contains c
    | [] => true

/-- Reads the name of an anchor or alias, after its indicator. -/
def scan (cursor : Cursor) : Except Fault (String × Cursor) :=
  let name := cursor.takeWhile isWordChar
  let after := cursor.skipWhile isWordChar
  if name.isEmpty || !endsBefore after.rest then
    .error (after.fault "did not find expected alphabetic or numeric character")
  else .ok (String.ofList name, after)

end Anchor

/-! ### Tags -/

namespace Tag

def isUriChar (isFull : Bool) (c : Char) : Bool :=
  isWordChar c ||
    [';', '/', '?', ':', '@', '&', '=', '+', '$', '.', '!', '~', '*', '\'', '(', ')'].contains c ||
    (isFull && [',', '[', ']'].contains c)

/-- The bytes at the beginning of a text that are written as percent escapes. -/
def escapedBytes : List Char → List UInt8
  | '%' :: high :: low :: rest =>
    match Properties.hexNumberFrom 0 [high, low] with
    | some byte => UInt8.ofNat byte :: escapedBytes rest
    | none => []
  | _ => []

/-- The number of bytes of the character that a byte begins, going by its highest bits alone. -/
def leadingLength? (byte : UInt8) : Option Nat :=
  if byte < 0x80 then some 1
  else if byte < 0xC0 then none
  else if byte < 0xE0 then some 2
  else if byte < 0xF0 then some 3
  else if byte < 0xF8 then some 4
  else none

/-- Whether a byte can follow the one that begins a character. -/
def isTrailing (byte : UInt8) : Bool :=
  0x80 ≤ byte && byte < 0xC0

/-- The bytes of one character that percent escapes at the beginning of a text stand for. Only the
highest bits of the bytes are looked at, so that they may be no text. -/
def escapedCharacter? (chars : List Char) : Option (List UInt8) :=
  match escapedBytes (chars.take 12) with
  | [] => none
  | leading :: others =>
    (leadingLength? leading).bind fun length =>
      let trailing := others.take (length - 1)
      if trailing.length + 1 = length && trailing.all isTrailing then some (leading :: trailing)
      else none

/-- Reads the bytes of a tag; full ones may hold indicators of flow collections. -/
def scanUri (isFull : Bool) (found : List UInt8) :
    Nat → Cursor → Except Fault (List UInt8 × Cursor)
  | 0, cursor => .ok (found.reverse, cursor)
  | fuel + 1, cursor =>
    match cursor.rest with
    | [] => .ok (found.reverse, cursor)
    | c :: _ =>
      if c = '%' then
        match escapedCharacter? cursor.rest with
        | some bytes =>
          scanUri isFull (bytes.reverse ++ found) fuel (cursor.skip (3 * bytes.length))
        | none => .error (cursor.fault "did not find URI escaped octet")
      else if isUriChar isFull c then
        scanUri isFull (c.toUInt8 :: found) fuel (cursor.skip 1)
      else .ok (found.reverse, cursor)

def uri (isFull : Bool) (cursor : Cursor) : Except Fault (List UInt8 × Cursor) :=
  scanUri isFull [] (cursor.rest.length + 1) cursor

/-- Reads the handle of a tag: an exclamation mark, and a word between two of them. -/
def scanHandle (cursor : Cursor) : Except Fault (List Char × Cursor) :=
  if cursor.head? = some '!' then
    let inner := cursor.skip 1
    let word := inner.takeWhile isWordChar
    let after := inner.skipWhile isWordChar
    if after.head? = some '!' then .ok ('!' :: word ++ ['!'], after.skip 1)
    else .ok ('!' :: word, after)
  else .error (cursor.fault "did not find expected '!'")

/-- Whether a handle is complete, so that a suffix follows. -/
def isNamedHandle (handle : List Char) : Bool :=
  2 ≤ handle.length && handle.getLast? = some '!'

/-- The handle and the suffix of a shorthand that has no named handle. A shorthand of nothing but an
exclamation mark is no shorthand: it is the whole tag. -/
def plainShorthand (word : List Char) (suffix : List UInt8) : List Char × List UInt8 :=
  match untilZero (word.map Char.toUInt8 ++ suffix) with
  | [] => ([], [0x21])
  | whole => (['!'], whole)

/-- Reads a tag, at its exclamation mark, as a handle and a suffix. -/
def scan (inFlow : Bool) (cursor : Cursor) : Except Fault (String × List UInt8 × Cursor) := do
  let (handle, suffix, after) ←
    if (cursor.skip 1).head? = some '<' then do
      let (suffix, after) ← uri true (cursor.skip 2)
      if suffix.isEmpty then throw (after.fault "did not find expected tag URI")
      if after.head? ≠ some '>' then throw (after.fault "did not find the expected '>'")
      pure ([], untilZero suffix, after.skip 1)
    else do
      let (handle, next) ← scanHandle cursor
      let (suffix, after) ← uri false next
      if isNamedHandle handle then
        if suffix.isEmpty then throw (after.fault "did not find expected tag URI")
        pure (handle, untilZero suffix, after)
      else
        let (handle, suffix) := plainShorthand handle.tail suffix
        pure (handle, suffix, after)
  if atBlankOrEnd after.rest || (inFlow && after.head? = some ',') then
    return (String.ofList handle, suffix, after)
  else throw (after.fault "did not find expected whitespace or line break")

end Tag

/-! ### Directives -/

namespace Directive

/-- Reads a number of at most nine digits. -/
def scanNumber (cursor : Cursor) : Except Fault (Nat × Cursor) :=
  let digits := cursor.takeWhile Char.isDigit
  if digits.isEmpty then .error (cursor.fault "did not find expected version number")
  else if digits.length > 9 then .error (cursor.fault "found extremely long version number")
  else
    .ok (digits.foldl (fun total c => total * 10 + (c.toNat - '0'.toNat)) 0,
      cursor.skipWhile Char.isDigit)

def scanVersion (cursor : Cursor) : Except Fault (Token × Cursor) := do
  let (major, dot) ← scanNumber cursor.skipBlanks
  if dot.head? ≠ some '.' then throw (dot.fault "did not find expected digit or '.' character")
  let (minor, after) ← scanNumber (dot.skip 1)
  return (.version major minor, after)

def scanShorthand (cursor : Cursor) : Except Fault (Token × Cursor) := do
  let (handle, next) ← Tag.scanHandle cursor.skipBlanks
  if handle ≠ ['!'] && !Tag.isNamedHandle handle then
    throw (next.fault "did not find expected '!'")
  match next.head? with
  | some c => if !isSpaceOrTab c then throw (next.fault "did not find expected whitespace")
  | none => throw (next.fault "did not find expected whitespace")
  let (expansion, after) ← Tag.uri true next.skipBlanks
  if expansion.isEmpty then throw (after.fault "did not find expected tag URI")
  if !atBlankOrEnd after.rest then
    throw (after.fault "did not find expected whitespace or line break")
  return (.tagShorthand (String.ofList handle) (Tag.untilZero expansion), after)

/-- Reads a directive, at its percent sign, with the line that it stands in. -/
def scan (cursor : Cursor) : Except Fault (Token × Cursor) := do
  let start := cursor.skip 1
  let name := start.takeWhile isWordChar
  let after := start.skipWhile isWordChar
  if name.isEmpty then throw (after.fault "could not find expected directive name")
  if !atBlankOrEnd after.rest then
    throw (after.fault "found unexpected non-alphabetical character")
  let (token, last) ←
    if name = "YAML".toList then scanVersion after
    else if name = "TAG".toList then scanShorthand after
    else throw (after.fault "found unknown directive name")
  let final := last.skipBlanks.skipComment
  if atBreakOrEnd final.rest then return (token, final.skipBreak)
  else throw (final.fault "did not find expected comment or line break")

end Directive

end LayeredConfig.Yaml
