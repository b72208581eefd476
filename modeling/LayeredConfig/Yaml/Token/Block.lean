/-
This file reads block scalars, literal and folded ones.

The header tells which line breaks at the end are kept, and may give the indentation; otherwise the
first line that is not empty sets it. In a folded scalar a break between two lines that do not begin
with a blank becomes a space.
-/

import LayeredConfig.Yaml.Token.Plain

namespace LayeredConfig.Yaml

namespace Block

/-- What becomes of the line breaks at the end. -/
inductive Chomping where
  | strip
  | clip
  | keep
  deriving DecidableEq, Repr

structure Header where
  chomping : Chomping
  /-- The indentation relative to the parent, if it is given. -/
  increment : Option Nat
  deriving DecidableEq, Repr

def chomping? : List Char → Option Chomping
  | '+' :: _ => some .keep
  | '-' :: _ => some .strip
  | _ => none

/-- The digit of an indentation, if one comes first. -/
def increment? : List Char → Option Nat
  | c :: _ => if c.isDigit then some (c.toNat - '0'.toNat) else none
  | [] => none

/-- Reads a header, after the indicator of the style. -/
def scanHeader (cursor : Cursor) : Except Fault (Header × Cursor) :=
  let header : Header × Cursor :=
    match chomping? cursor.rest with
    | some chomping =>
      let next := cursor.skip 1
      match increment? next.rest with
      | some increment => (⟨chomping, some increment⟩, next.skip 1)
      | none => (⟨chomping, none⟩, next)
    | none =>
      match increment? cursor.rest with
      | some increment =>
        let next := cursor.skip 1
        match chomping? next.rest with
        | some chomping => (⟨chomping, some increment⟩, next.skip 1)
        | none => (⟨.clip, some increment⟩, next)
      | none => (⟨.clip, none⟩, cursor)
  if header.1.increment = some 0 then
    .error (cursor.fault "found an indentation indicator equal to 0")
  else
    let after := header.2.skipBlanks.skipComment
    if atBreakOrEnd after.rest then .ok (header.1, after.skipBreak)
    else .error (after.fault "did not find expected comment or line break")

/-- The indentation and the empty lines before a line of a block scalar. -/
structure Margin where
  /-- The empty lines, backwards. -/
  breaks : List Char
  /-- The largest column that was reached. -/
  widest : Nat
  after : Cursor

/-- Reads indentation and empty lines, up to a column if one is given. -/
def scanMargin (indent : Option Nat) (breaks : List Char) (widest : Nat) :
    Nat → Cursor → Except Fault Margin
  | 0, cursor => .ok ⟨breaks, widest, cursor⟩
  | fuel + 1, cursor =>
    let widest := max widest cursor.column
    let within := match indent with
      | some column => cursor.column < column
      | none => true
    match cursor.rest with
    | [] => .ok ⟨breaks, widest, cursor⟩
    | c :: _ =>
      if within && c = ' ' then scanMargin indent breaks widest fuel (cursor.skip 1)
      else if within && c = '\t' then
        .error (cursor.fault "found a tab character where an indentation space is expected")
      else if isBreak c then
        scanMargin indent (cursor.breakText ++ breaks) widest fuel cursor.skipBreak
      else .ok ⟨breaks, widest, cursor⟩

/-- The text of a block scalar as far as it is read; all parts are kept backwards. -/
structure Body where
  text : List Char
  /-- The break at the end of the last line. -/
  leadingBreak : List Char
  /-- The empty lines after it. -/
  trailingBreaks : List Char
  /-- Whether the last line began with a blank. -/
  leadingBlank : Bool

/-- The text up to the next line, with the breaks between them. -/
def Body.joined (body : Body) (isLiteral beginsBlank : Bool) : List Char :=
  if !isLiteral && body.leadingBreak = ['\n'] && !body.leadingBlank && !beginsBlank then
    if body.trailingBreaks.isEmpty then ' ' :: body.text
    else body.trailingBreaks ++ body.text
  else body.trailingBreaks ++ (body.leadingBreak ++ body.text)

/-- Reads the lines that have the indentation. -/
def scanLines (isLiteral : Bool) (indent : Nat) (body : Body) :
    Nat → Cursor → Except Fault (Body × Cursor)
  | 0, cursor => .ok (body, cursor)
  | fuel + 1, cursor =>
    if cursor.column ≠ indent then .ok (body, cursor)
    else
      match cursor.rest with
      | [] => .ok (body, cursor)
      | c :: _ => do
        let beginsBlank := isSpaceOrTab c
        let text := body.joined isLiteral beginsBlank
        let line := cursor.takeWhile (!isBreak ·)
        let ended := cursor.skipWhile (!isBreak ·)
        let next := ended.skipBreak
        let margin ← scanMargin (some indent) [] 0 (next.rest.length + 1) next
        scanLines isLiteral indent
          ⟨line.reverse ++ text, ended.breakText, margin.breaks, beginsBlank⟩ fuel margin.after

/-- The text with the line breaks that the chomping leaves. -/
def Body.chomped (body : Body) : Chomping → List Char
  | .strip => body.text
  | .clip => body.leadingBreak ++ body.text
  | .keep => body.trailingBreaks ++ (body.leadingBreak ++ body.text)

/-- The indentation that the first lines set, in a parent of the given indentation. -/
def detectIndent (parent : Int) (widest : Nat) : Nat :=
  max (max widest (parent + 1).toNat) 1

/-- Reads a block scalar, at the indicator of its style. -/
def scan (isLiteral : Bool) (parent : Int) (cursor : Cursor) : Except Fault ScannedScalar := do
  let (header, start) ← scanHeader (cursor.skip 1)
  let given := header.increment.map fun increment => parent.toNat + increment
  let margin ← scanMargin given [] 0 (start.rest.length + 1) start
  let indent := given.getD (detectIndent parent margin.widest)
  let (body, after) ← scanLines isLiteral indent ⟨[], [], margin.breaks, false⟩
    (start.rest.length + 1) margin.after
  return ⟨String.ofList (body.chomped header.chomping).reverse, after, true⟩

end Block

end LayeredConfig.Yaml
