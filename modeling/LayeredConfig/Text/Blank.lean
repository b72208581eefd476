/-
This file fixes what counts as blank space, and how text is trimmed, cut and joined.

Names, locations, profile lists and settings are all read with surrounding blank space removed, and
the blanks are those of the Unicode property `White_Space`, not the ASCII ones. Everything is stated
on lists of characters, where trimming is `dropWhile` from both ends; the versions on strings are
the same functions between `String.toList` and `String.ofList`.
-/

namespace LayeredConfig.Text

/-! ### Blank characters -/

/-- The characters with the Unicode property `White_Space`. -/
def isBlank (c : Char) : Bool :=
  let code := c.toNat
  (9 ≤ code && code ≤ 13) || code == 0x20 || code == 0x85 || code == 0xA0 || code == 0x1680 ||
    (0x2000 ≤ code && code ≤ 0x200A) || code == 0x2028 || code == 0x2029 || code == 0x202F ||
    code == 0x205F || code == 0x3000

/-! ### Trimming -/

def trimStart (chars : List Char) : List Char :=
  chars.dropWhile isBlank

def trimEnd (chars : List Char) : List Char :=
  (chars.reverse.dropWhile isBlank).reverse

def trim (chars : List Char) : List Char :=
  trimEnd (trimStart chars)

/-- The text without the blanks at its two ends. -/
def trimmed (text : String) : String :=
  String.ofList (trim text.toList)

/-- Whether a text holds nothing but blanks. -/
def isBlankText (text : String) : Bool :=
  text.toList.all isBlank

theorem length_trimEnd_le (chars : List Char) : (trimEnd chars).length ≤ chars.length := by
  have bound := (List.dropWhile_sublist (l := chars.reverse) isBlank).length_le
  simpa [trimEnd] using bound

/-! ### Cutting and joining -/

/-- Cuts at every occurrence of a character; a text without it is one piece. -/
def cutChars (separator : Char) : List Char → List (List Char)
  | [] => [[]]
  | c :: rest =>
    match cutChars separator rest with
    | [] => [[c]]
    | piece :: pieces => if c = separator then [] :: piece :: pieces else (c :: piece) :: pieces

def cut (separator : Char) (text : String) : List String :=
  (cutChars separator text.toList).map String.ofList

/-- Cuts at the first occurrence of a character, which belongs to neither part. -/
def cutOnce? (separator : Char) : List Char → Option (List Char × List Char)
  | [] => none
  | c :: rest =>
    if c = separator then some ([], rest)
    else (cutOnce? separator rest).map fun (before, after) => (c :: before, after)

/-- What follows a leading text, if the list starts with it. -/
def after? : List Char → List Char → Option (List Char)
  | [], chars => some chars
  | _ :: _, [] => none
  | a :: lead, c :: chars => if a = c then after? lead chars else none

/-- What follows a leading text, if the string starts with it. -/
def rest? (lead text : String) : Option String :=
  (after? lead.toList text.toList).map String.ofList

def startsWith (lead text : String) : Bool :=
  (after? lead.toList text.toList).isSome

def endsWith (tail text : String) : Bool :=
  (after? tail.toList.reverse text.toList.reverse).isSome

/-- A comma-separated list: the parts are trimmed and blank ones are dropped. -/
def listItems (text : String) : List String :=
  ((cut ',' text).map trimmed).filter (· ≠ "")

/-- Lists in square brackets, the items separated by a comma and a space. -/
def bracketed (items : List String) : String :=
  "[" ++ String.intercalate ", " items ++ "]"

/-- Lower case of the ASCII letters, all else unchanged. -/
def asciiLower (text : String) : String :=
  String.ofList (text.toList.map Char.toLower)

end LayeredConfig.Text
