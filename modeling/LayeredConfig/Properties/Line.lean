/-
This file assembles the logical lines of a properties text.

Outside a continuation a line is blank, a comment, a separator of documents, or the beginning of an
entry. An entry goes on in the next line as long as its text ends in an odd number of backslashes;
the last of them is dropped, and so are the blanks at the beginning of the next line, which is part
of the entry whatever it looks like.
-/

import LayeredConfig.Text.Blank

namespace LayeredConfig

open Text

namespace Properties

/-! ### Natural lines -/

/-- Takes a carriage return from the end of a line. -/
def dropReturn (line : List Char) : List Char :=
  if line.getLast? = some '\r' then line.dropLast else line

/-- The lines of a text, each ended by a line feed that may follow a carriage return. -/
def naturalLines (text : List Char) : List (List Char) :=
  let pieces := cutChars '\n' text
  let ended := pieces.dropLast.map dropReturn
  match pieces.getLast? with
  | some [] => ended
  | some last => ended ++ [last]
  | none => ended

/-! ### Logical lines -/

/-- A part of a properties text that means something. -/
inductive Item where
  /-- The end of one document and the beginning of the next. -/
  | separator
  /-- An entry, with the number of the line it begins in. -/
  | entry (number : Nat) (text : List Char)
  deriving DecidableEq, Repr

/-- Whether an entry goes on in the next line. -/
def continues (text : List Char) : Bool :=
  (text.reverse.takeWhile (· = '\\')).length % 2 == 1

def isSeparator (line : List Char) : Bool :=
  line == "#---".toList || line == "!---".toList

def isComment (line : List Char) : Bool :=
  line.head? == some '#' || line.head? == some '!'

/-- The items of numbered lines, where `open?` is an entry that goes on. -/
def itemsFrom (open? : Option (Nat × List Char)) : List (Nat × List Char) → List Item
  | [] =>
    match open? with
    | some (number, text) => [.entry number text]
    | none => []
  | (number, line) :: rest =>
    let trimmed := trimStart line
    match open? with
    | some (begun, text) =>
      let longer := text ++ trimmed
      if continues longer then itemsFrom (some (begun, longer.dropLast)) rest
      else .entry begun longer :: itemsFrom none rest
    | none =>
      if isSeparator trimmed then .separator :: itemsFrom none rest
      else if trimmed.isEmpty || isComment trimmed then itemsFrom none rest
      else if continues trimmed then itemsFrom (some (number, trimmed.dropLast)) rest
      else .entry number trimmed :: itemsFrom none rest

/-- The items of a text; lines are numbered from one. -/
def items (text : List Char) : List Item :=
  itemsFrom none ((naturalLines text).zipIdx.map fun (line, index) => (index + 1, line))

end Properties

end LayeredConfig
