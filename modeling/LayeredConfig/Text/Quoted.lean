/-
This file writes text between quotes, so that every character of it can be seen.

Profile names and locations appear in messages in this form. A tab, a line feed, a carriage return
and the zero character have letters of their own, the quote in use and the backslash are escaped,
and any other character that is not visible is written by its code point.
-/

import LayeredConfig.Text.Blank
import LayeredConfig.Text.Visible

namespace LayeredConfig.Text

/-- The digits of a number in base sixteen, in lower case and without leading zeros. -/
def hexDigits (code : Nat) : List Char :=
  Nat.toDigits 16 code

/-- One character of a text quoted by `quote`. -/
def escaped (quote c : Char) : List Char :=
  if c = '\x00' then ['\\', '0']
  else if c = '\t' then ['\\', 't']
  else if c = '\r' then ['\\', 'r']
  else if c = '\n' then ['\\', 'n']
  else if c = quote || c = '\\' then ['\\', c]
  else if isVisible c then [c]
  else ['\\', 'u', '{'] ++ hexDigits c.toNat ++ ['}']

/-- A text between double quotes. -/
def quoted (text : String) : String :=
  String.ofList ('"' :: text.toList.flatMap (escaped '"') ++ ['"'])

/-- A character between single quotes. -/
def quotedChar (c : Char) : String :=
  String.ofList ('\'' :: escaped '\'' c ++ ['\''])

/-- A list of texts, each between double quotes. -/
def quotedList (items : List String) : String :=
  bracketed (items.map quoted)

end LayeredConfig.Text
