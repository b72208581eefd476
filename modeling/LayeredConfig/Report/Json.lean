/-
This file writes data as JSON.

Every item and every field stands on a line of its own, indented by two spaces for each level. In
texts, quotes, backslashes and the control characters below the space are escaped, and nothing else.
-/

import LayeredConfig.Report.Data

namespace LayeredConfig

namespace Json

/-! ### Texts -/

/-- One character of a text between quotes. -/
def escaped (c : Char) : List Char :=
  if c = '"' then ['\\', '"']
  else if c = '\\' then ['\\', '\\']
  else if c = '\x08' then ['\\', 'b']
  else if c = '\x0c' then ['\\', 'f']
  else if c = '\n' then ['\\', 'n']
  else if c = '\r' then ['\\', 'r']
  else if c = '\t' then ['\\', 't']
  else if c.toNat < 0x20 then
    ['\\', 'u', '0', '0', Nat.digitChar (c.toNat / 16), Nat.digitChar (c.toNat % 16)]
  else [c]

def quoted (text : String) : String :=
  String.ofList ('"' :: text.toList.flatMap escaped ++ ['"'])

/-! ### Layout -/

/-- The beginning of a line at a depth. -/
def lineStart (depth : Nat) : String :=
  "\n" ++ String.ofList (List.replicate (2 * depth) ' ')

mutual

/-- The text of data whose lines are indented by a depth. -/
def write (depth : Nat) : Data → String
  | .text content => quoted content
  | .items [] => "[]"
  | .items (first :: rest) =>
    "[" ++ lineStart (depth + 1) ++ write (depth + 1) first ++ writeItems (depth + 1) rest ++
      lineStart depth ++ "]"
  | .fields [] => "\x7b\x7d"
  | .fields ((name, first) :: rest) =>
    "\x7b" ++ lineStart (depth + 1) ++ quoted name ++ ": " ++ write (depth + 1) first ++
      writeFields (depth + 1) rest ++ lineStart depth ++ "\x7d"

/-- The items after the first. -/
def writeItems (depth : Nat) : List Data → String
  | [] => ""
  | item :: rest => "," ++ lineStart depth ++ write depth item ++ writeItems depth rest

/-- The fields after the first. -/
def writeFields (depth : Nat) : List (String × Data) → String
  | [] => ""
  | (name, value) :: rest =>
    "," ++ lineStart depth ++ quoted name ++ ": " ++ write depth value ++ writeFields depth rest

end

end Json

namespace Data

/-- The data as JSON, without a line break at the end. -/
def json (data : Data) : String :=
  Json.write 0 data

end Data

end LayeredConfig
