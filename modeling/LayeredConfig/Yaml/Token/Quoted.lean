/-
This file reads scalars between quotes.

Between single quotes a quote is written twice and nothing else is escaped. Between double quotes a
backslash begins an escape; before a line break it takes the break away. Line breaks are folded in
both.
-/

import LayeredConfig.Properties.Entry
import LayeredConfig.Yaml.Token.Plain

namespace LayeredConfig.Yaml

namespace Quoted

/-- The character of an escape of one letter. -/
def letterEscape? (c : Char) : Option Char :=
  match c with
  | '0' => some '\x00'
  | 'a' => some '\x07'
  | 'b' => some '\x08'
  | 't' => some '\t'
  | '\t' => some '\t'
  | 'n' => some '\n'
  | 'v' => some '\x0b'
  | 'f' => some '\x0c'
  | 'r' => some '\r'
  | 'e' => some '\x1b'
  | ' ' => some ' '
  | '"' => some '"'
  | '/' => some '/'
  | '\\' => some '\\'
  | 'N' => some '\u0085'
  | '_' => some '\u00a0'
  | 'L' => some '\u2028'
  | 'P' => some '\u2029'
  | _ => none

/-- The number of hexadecimal digits of an escape by code point. -/
def codeLength? (c : Char) : Option Nat :=
  match c with
  | 'x' => some 2
  | 'u' => some 4
  | 'U' => some 8
  | _ => none

/-- The character of an escape by code point, of the given digits. -/
def codeEscape? (digits : List Char) (length : Nat) : Option Char :=
  if digits.length = length then
    (Properties.hexNumberFrom 0 digits).bind Properties.charOfCode?
  else none

/-- Reads on; `words` is what was read, backwards, and `gap` the blank space after it. -/
def scanFrom (isSingle : Bool) (words : List Char) (gap : Gap) :
    Nat → Cursor → Except Fault (List Char × Cursor)
  | 0, cursor => .error (cursor.fault "found unexpected end of stream in a quoted scalar")
  | fuel + 1, cursor =>
    if cursor.atDocumentMark then
      .error (cursor.fault "found unexpected document indicator in a quoted scalar")
    else
      let go := fun (found : List Char) (after : Cursor) =>
        scanFrom isSingle (found ++ (gap.folded ++ words)) Gap.none fuel after
      match cursor.rest with
      | [] => .error (cursor.fault "found unexpected end of stream in a quoted scalar")
      | c :: rest =>
        if isBreak c then
          scanFrom isSingle words (gap.addBreak cursor.breakText) fuel cursor.skipBreak
        else if isSpaceOrTab c then
          scanFrom isSingle words (gap.addBlank c) fuel (cursor.skip 1)
        else if isSingle then
          if c = '\'' then
            if rest.head? = some '\'' then go ['\''] (cursor.skip 2)
            else .ok (gap.folded ++ words, cursor.skip 1)
          else go [c] (cursor.skip 1)
        else if c = '"' then .ok (gap.folded ++ words, cursor.skip 1)
        else if c = '\\' then
          match rest with
          | [] => .error (cursor.fault "found unknown escape character")
          | letter :: digits =>
            if isBreak letter then
              scanFrom isSingle (gap.folded ++ words) Gap.escaped fuel (cursor.skip 1).skipBreak
            else
              match letterEscape? letter with
              | some found => go [found] (cursor.skip 2)
              | none =>
                match codeLength? letter with
                | none => .error (cursor.fault "found unknown escape character")
                | some length =>
                  match codeEscape? (digits.take length) length with
                  | some found => go [found] (cursor.skip (2 + length))
                  | none => .error (cursor.fault "found invalid Unicode character escape code")
        else go [c] (cursor.skip 1)

/-- Reads a quoted scalar, at its opening quote. -/
def scan (isSingle : Bool) (cursor : Cursor) : Except Fault ScannedScalar := do
  let (words, after) ← scanFrom isSingle [] Gap.none (cursor.rest.length + 1) (cursor.skip 1)
  return ⟨String.ofList words.reverse, after, false⟩

end Quoted

end LayeredConfig.Yaml
