/-
This file reads a properties text into documents of keys and values.

A separator ends a document, so that a text has one document more than separators. The first entry
with a malformed escape makes the whole text malformed.
-/

import LayeredConfig.Properties.Entry
import LayeredConfig.Properties.Line

namespace LayeredConfig

namespace Properties

/-- A malformed escape in the entry that begins in a line. -/
structure Malformed where
  line : Nat
  escape : String
  deriving DecidableEq, Repr

def Malformed.message (malformed : Malformed) : String :=
  "line " ++ toString malformed.line ++ ": malformed \\u escape '" ++ malformed.escape ++ "'"

/-- The text of one part of an entry. -/
def readPart (number : Nat) (part : List Char) : Except Malformed String :=
  match unescape part with
  | .ok text => .ok (String.ofList text)
  | .error escape => .error ⟨number, String.ofList escape⟩

/-- The key and the value of an entry. -/
def readEntry (number : Nat) (entry : List Char) : Except Malformed (String × String) := do
  let (key, value) := cutEntry entry
  return (← readPart number key, ← readPart number value)

/-- The documents of a list of items; the first is the one that is being read. -/
def documentsOf : List Item → Except Malformed (List (List (String × String)))
  | [] => .ok [[]]
  | .separator :: rest => do
    let documents ← documentsOf rest
    return [] :: documents
  | .entry number text :: rest => do
    let entry ← readEntry number text
    match ← documentsOf rest with
    | [] => return [[entry]]
    | document :: documents => return (entry :: document) :: documents

/-- Reads a properties text. -/
def read (text : String) : Except Malformed (List (List (String × String))) :=
  documentsOf (items text.toList)

end Properties

end LayeredConfig
