/-
This file says what the tag of a node means.

A tag is known by its bytes. The format has tags of its own for truth values, numbers and null; a
tag that begins with an exclamation mark belongs to the document, and any other one is foreign and
only tells that a scalar is a text. Percent escapes can put any bytes into a tag, so that a tag may
be no text, and a zero byte ends it.
-/

import LayeredConfig.Text.Decoding

namespace LayeredConfig.Yaml

inductive Tag where
  /-- A tag of the document, named without the exclamation mark at its beginning. -/
  | own (name : String)
  /-- A tag of the document whose name is no text. -/
  | nameless
  | bool
  | integer
  | fraction
  | null
  | foreign
  deriving DecidableEq, Repr, Inhabited

namespace Tag

/-- The bytes before the first zero byte, which are all that a tag has. -/
def untilZero (bytes : List UInt8) : List UInt8 :=
  bytes.takeWhile (· ≠ 0)

/-- The tags of the format itself. -/
def ofText : String → Tag
  | "tag:yaml.org,2002:bool" => bool
  | "tag:yaml.org,2002:int" => integer
  | "tag:yaml.org,2002:float" => fraction
  | "tag:yaml.org,2002:null" => null
  | _ => foreign

/-- The tag of the given bytes; one exclamation mark alone is its own name. -/
def ofBytes : List UInt8 → Tag
  | [] => foreign
  | first :: rest =>
    if first = 0x21 then
      let name := Text.decode (if rest.isEmpty then [first] else rest)
      if name.isText then own name.shown else nameless
    else
      let text := Text.decode (first :: rest)
      if text.isText then ofText text.shown else foreign

/-- What counts of a name when tags are compared: an exclamation mark before it does not. -/
def comparedName (name : String) : List Char :=
  match name.toList with
  | '!' :: c :: rest => c :: rest
  | chars => chars

/-- Whether two names of tags count as one. -/
def sameName (name other : String) : Bool :=
  comparedName name == comparedName other

end Tag

end LayeredConfig.Yaml
