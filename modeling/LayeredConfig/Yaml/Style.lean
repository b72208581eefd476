/-
This file decides how a text is written as a YAML scalar, and writes it.

A text is written plain if it can be: if it would be read as a text again, and if nothing in it has a
meaning of its own at its place. Else it is quoted, in single quotes where these are enough, and in
double quotes if it has characters that cannot be seen. A text of several lines is written as a
literal block, unless it has blanks at the end of a line.
-/

import LayeredConfig.Text.Blank
import LayeredConfig.Yaml.Scalar

namespace LayeredConfig.Yaml

namespace Style

/-! ### Characters -/

/-- The characters that end a line. -/
def isBreak (c : Char) : Bool :=
  ['\n', '\r', '\u0085', '\u2028', '\u2029'].contains c

/-- Whether a character may be written as it is. -/
def isPrintable (c : Char) : Bool :=
  let code := c.toNat
  code == 0x0A || (0x20 ≤ code && code ≤ 0x7E) || (0xA0 ≤ code && code ≤ 0xD7FF) ||
    (0xE000 ≤ code && code ≤ 0xFFFD && code != 0xFEFF) || 0x10000 ≤ code

/-- Whether a blank or the end of a text comes next. -/
def blankNext : List Char → Bool
  | [] => true
  | c :: _ => c = ' ' || c = '\t' || c = '\x00' || isBreak c

/-- The characters that begin something other than a plain text. -/
def indicators : List Char :=
  ['#', ',', '[', ']', '\x7b', '\x7d', '&', '*', '!', '|', '>', '\'', '"', '%', '@', Char.ofNat 0x60]

/-! ### Conditions on a text -/

/-- Whether the beginning of a text has a meaning of its own. -/
def beginsSpecially : List Char → Bool
  | [] => false
  | c :: rest =>
    indicators.contains c || (['?', ':', '-'].contains c && blankNext rest) ||
      (Text.after? ['-', '-', '-'] (c :: rest)).isSome ||
      (Text.after? ['.', '.', '.'] (c :: rest)).isSome

/-- Whether a colon before a blank or a number sign after one stands behind the first character. -/
def turnsSpecial : List Char → Bool
  | [] => false
  | [_] => false
  | c :: next :: rest =>
    (next = ':' && blankNext rest) || (next = '#' && blankNext [c]) || turnsSpecial (next :: rest)

/-- Whether a space stands before a line break. -/
def hasSpaceBeforeBreak : List Char → Bool
  | [] => false
  | [_] => false
  | c :: next :: rest => (c = ' ' && isBreak next) || hasSpaceBeforeBreak (next :: rest)

/-- Whether a space stands after a line break. -/
def hasSpaceAfterBreak : List Char → Bool
  | [] => false
  | [_] => false
  | c :: next :: rest => (isBreak c && next = ' ') || hasSpaceAfterBreak (next :: rest)

def isMultiline (text : List Char) : Bool :=
  text.any isBreak

def endsWithSpace (text : List Char) : Bool :=
  text.getLast? == some ' '

/-- Whether the text needs escapes, or lines that would lose blanks. -/
def needsEscapes (text : List Char) : Bool :=
  !text.all isPrintable || hasSpaceBeforeBreak text

/-- Whether a text can be written plain, as far as its characters go. -/
def allowsPlain (text : List Char) : Bool :=
  !needsEscapes text && !isMultiline text && !beginsSpecially text && !turnsSpecial text &&
    text.head? != some ' ' && !endsWithSpace text

def allowsSingleQuotes (text : List Char) : Bool :=
  !needsEscapes text && !hasSpaceAfterBreak text

def allowsBlock (text : List Char) : Bool :=
  !needsEscapes text && !endsWithSpace text

/-- Whether a plain text would be read as something else than a text, or looks like a number. -/
def readsOtherwise (text : String) : Bool :=
  match Scalar.ofPlain text with
  | .ok (.string _) => Scalar.hasLeadingZero text.toList
  | _ => true

/-! ### Written forms -/

def spaces (count : Nat) : List Char :=
  List.replicate count ' '

/-- The lines of a text; `fresh` says that a line is about to begin, and is indented when it does. -/
def indentLines (indent : Nat) (fresh : Bool) : List Char → List Char
  | [] => []
  | c :: rest =>
    if isBreak c then c :: indentLines indent true rest
    else (if fresh then spaces indent else []) ++ c :: indentLines indent false rest

def doubleQuotes (text : List Char) : List Char :=
  text.flatMap fun c => if c = '\'' then [c, c] else [c]

/-- A text between single quotes; what follows a line break in it is indented. -/
def singleQuoted (indent : Nat) (text : List Char) : List Char :=
  let ending := match text.getLast? with
    | some c => if isBreak c then spaces indent else []
    | none => []
  '\'' :: doubleQuotes (indentLines indent false text) ++ ending ++ ['\'']

/-- The digits of a code in base sixteen, in upper case and filled with zeros to a width. -/
def codeDigits (width code : Nat) : List Char :=
  let digits := (Nat.toDigits 16 code).map Char.toUpper
  List.replicate (width - digits.length) '0' ++ digits

/-- The characters with a short escape, and the letter of it. -/
def shortEscapes : List (Char × Char) :=
  [('\x00', '0'), ('\x07', 'a'), ('\x08', 'b'), ('\t', 't'), ('\n', 'n'), ('\x0b', 'v'),
   ('\x0c', 'f'), ('\r', 'r'), ('\x1b', 'e'), ('"', '"'), ('\\', '\\'), ('\u0085', 'N'),
   ('\u2028', 'L'), ('\u2029', 'P')]

/-- One character of a text between double quotes. -/
def escaped (c : Char) : List Char :=
  match shortEscapes.lookup c with
  | some letter => ['\\', letter]
  | none =>
    if isPrintable c then [c]
    else if c.toNat ≤ 0xFF then '\\' :: 'x' :: codeDigits 2 c.toNat
    else '\\' :: 'u' :: codeDigits 4 c.toNat

def doubleQuoted (text : List Char) : List Char :=
  '"' :: text.flatMap escaped ++ ['"']

/-- How the line breaks at the end of a literal block count: none, one, or all of them. -/
def chomping (text : List Char) : List Char :=
  match text.reverse with
  | [] => ['-']
  | [last] => if isBreak last then ['+'] else ['-']
  | last :: before :: _ =>
    if !isBreak last then ['-'] else if isBreak before then ['+'] else []

/-- A literal block, without a line break of its own at the end. -/
def literal (indent : Nat) (text : List Char) : List Char :=
  let hint := match text.head? with
    | some c => if c = ' ' || isBreak c then ['2'] else []
    | none => []
  '|' :: hint ++ chomping text ++ '\n' :: indentLines indent true text

/-- The scalar of a text, whose further lines are indented. -/
def scalar (indent : Nat) (isKey : Bool) (text : String) : List Char :=
  let chars := text.toList
  if chars.contains '\n' then
    if !isKey && allowsBlock chars then literal indent chars else doubleQuoted chars
  else if isKey && isMultiline chars then doubleQuoted chars
  else if !readsOtherwise text && allowsPlain chars then chars
  else if allowsSingleQuotes chars then singleQuoted indent chars
  else doubleQuoted chars

/-- The longest key that may stand before its colon on one line, in bytes. -/
def keyLimit : Nat := 128

def isSimpleKey (text : String) : Bool :=
  !isMultiline text.toList && text.utf8ByteSize ≤ keyLimit

end Style

end LayeredConfig.Yaml
