/-
This file defines the place in a YAML text, and the classes of characters that the format knows.

Line breaks are the line feed, the carriage return with or without a line feed after it, and three
breaks of Unicode. Reading a break turns all of them into a line feed, but for the line and the
paragraph separator, which stay what they are. Columns count characters, and offsets count bytes.
-/

namespace LayeredConfig.Yaml

/-- Why a text is no YAML, and where. -/
structure Fault where
  reason : String
  line : Nat
  column : Nat
  deriving DecidableEq, Repr, Inhabited

def Fault.message (fault : Fault) : String :=
  fault.reason ++ " at line " ++ toString (fault.line + 1) ++ " column " ++
    toString (fault.column + 1)

/-! ### Character classes -/

def isBreak (c : Char) : Bool :=
  c = '\n' || c = '\r' || c = '\u0085' || c = '\u2028' || c = '\u2029'

def isSpaceOrTab (c : Char) : Bool :=
  c = ' ' || c = '\t'

/-- A letter, a digit, a hyphen or an underscore. -/
def isWordChar (c : Char) : Bool :=
  c.isAlphanum || c = '-' || c = '_'

/-- The characters that a text may hold. -/
def isAllowed (c : Char) : Bool :=
  let code := c.toNat
  code = 0x09 || code = 0x0A || code = 0x0D || (0x20 ≤ code && code ≤ 0x7E) || code = 0x85 ||
    (0xA0 ≤ code && code ≤ 0xFFFD) || 0x10000 ≤ code

/-- Whether nothing but blank space or the end comes first. -/
def atBlankOrEnd : List Char → Bool
  | [] => true
  | c :: _ => isSpaceOrTab c || isBreak c

def atBreakOrEnd : List Char → Bool
  | [] => true
  | c :: _ => isBreak c

/-- What a line break is read as. -/
def breakChar (c : Char) : Char :=
  if c = '\u2028' || c = '\u2029' then c else '\n'

/-! ### Places -/

/-- The number of bytes that characters take. -/
def byteCount (chars : List Char) : Nat :=
  chars.foldl (fun total c => total + c.utf8Size) 0

/-- What is left of a text, and where that is. -/
structure Cursor where
  rest : List Char
  offset : Nat
  line : Nat
  column : Nat
  deriving Repr, Inhabited

namespace Cursor

def ofText (text : List Char) : Cursor :=
  ⟨text, 0, 0, 0⟩

def fault (cursor : Cursor) (reason : String) : Fault :=
  ⟨reason, cursor.line, cursor.column⟩

/-- The first character, if any is left. -/
def head? (cursor : Cursor) : Option Char :=
  cursor.rest.head?

/-- The place after some characters that are no breaks. -/
def skip (cursor : Cursor) (count : Nat) : Cursor :=
  ⟨cursor.rest.drop count, cursor.offset + byteCount (cursor.rest.take count), cursor.line,
    cursor.column + count⟩

/-- The place after a line break, if one comes first. -/
def skipBreak (cursor : Cursor) : Cursor :=
  match cursor.rest with
  | '\r' :: '\n' :: rest => ⟨rest, cursor.offset + 2, cursor.line + 1, 0⟩
  | c :: rest =>
    if isBreak c then ⟨rest, cursor.offset + c.utf8Size, cursor.line + 1, 0⟩ else cursor
  | [] => cursor

/-- The text of the line break that comes first. -/
def breakText (cursor : Cursor) : List Char :=
  match cursor.rest with
  | c :: _ => if isBreak c then [breakChar c] else []
  | [] => []

/-- The place after the characters of a class, none of which is a break. -/
def skipWhile (cursor : Cursor) (isIn : Char → Bool) : Cursor :=
  cursor.skip (cursor.rest.takeWhile isIn).length

def takeWhile (cursor : Cursor) (isIn : Char → Bool) : List Char :=
  cursor.rest.takeWhile isIn

def skipBlanks (cursor : Cursor) : Cursor :=
  cursor.skipWhile isSpaceOrTab

/-- The place at the end of the line, if a comment comes first. -/
def skipComment (cursor : Cursor) : Cursor :=
  if cursor.head? = some '#' then cursor.skipWhile (!isBreak ·) else cursor

/-- Whether a mark of three characters begins the line and stands alone. -/
def atMark (cursor : Cursor) (c : Char) : Bool :=
  cursor.column == 0 &&
    match cursor.rest with
    | first :: second :: third :: rest =>
      first == c && second == c && third == c && atBlankOrEnd rest
    | _ => false

/-- Whether the beginning or the end of a document is marked. -/
def atDocumentMark (cursor : Cursor) : Bool :=
  cursor.atMark '-' || cursor.atMark '.'

end Cursor

end LayeredConfig.Yaml
