/-
This file writes data as YAML.

Fields and items stand on lines of their own. Fields are indented by two spaces for each level, and
items stand at the indentation of the field that holds them. A key that is long or has several lines
is written with a question mark, and its value with a colon on the next line.
-/

import LayeredConfig.Report.Data
import LayeredConfig.Yaml.Style

namespace LayeredConfig

namespace Yaml

/-- The end of a line, unless the text has just come to one. -/
def endLine (text : List Char) : List Char :=
  match text.getLast? with
  | some c => if Style.isBreak c then text else text ++ ['\n']
  | none => ['\n']

/-- A scalar and the end of its line. -/
def scalarLine (indent : Nat) (text : String) : List Char :=
  endLine (Style.scalar (indent + 2) false text)

/-- The beginning of a field, up to the colon. -/
def writeKey (indent : Nat) (name : String) : List Char :=
  if Style.isSimpleKey name then Style.scalar (indent + 2) true name ++ [':']
  else '?' :: ' ' :: scalarLine indent name ++ Style.spaces indent ++ [':']

mutual

/-- What follows the colon of a field that begins at `indent`. -/
def writeValue (indent : Nat) : Data → List Char
  | .text content => ' ' :: scalarLine indent content
  | .items [] => " []\n".toList
  | .items (first :: rest) =>
    '\n' :: Style.spaces indent ++ writeItem indent first ++ writeItems indent rest
  | .fields [] => " \x7b\x7d\n".toList
  | .fields ((name, first) :: rest) =>
    '\n' :: Style.spaces (indent + 2) ++ writeKey (indent + 2) name ++
      writeValue (indent + 2) first ++ writeFields (indent + 2) rest

/-- The item of a list that begins at `indent`; what it holds begins in the line of its mark. -/
def writeItem (indent : Nat) : Data → List Char
  | .text content => '-' :: ' ' :: scalarLine indent content
  | .items [] => "- []\n".toList
  | .items (first :: rest) =>
    '-' :: ' ' :: writeItem (indent + 2) first ++ writeItems (indent + 2) rest
  | .fields [] => "- \x7b\x7d\n".toList
  | .fields ((name, first) :: rest) =>
    '-' :: ' ' :: writeKey (indent + 2) name ++ writeValue (indent + 2) first ++
      writeFields (indent + 2) rest

/-- The items of a list after the first. -/
def writeItems (indent : Nat) : List Data → List Char
  | [] => []
  | item :: rest => Style.spaces indent ++ writeItem indent item ++ writeItems indent rest

/-- The fields after the first. -/
def writeFields (indent : Nat) : List (String × Data) → List Char
  | [] => []
  | (name, value) :: rest =>
    Style.spaces indent ++ writeKey indent name ++ writeValue indent value ++
      writeFields indent rest

end

end Yaml

namespace Data

/-- The data as a YAML document. -/
def yaml : Data → String
  | .text content => String.ofList (Yaml.scalarLine 0 content)
  | .items [] => "[]\n"
  | .items members => String.ofList (Yaml.writeItems 0 members)
  | .fields [] => "\x7b\x7d\n"
  | .fields members => String.ofList (Yaml.writeFields 0 members)

end Data

end LayeredConfig
