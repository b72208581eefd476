/-
This file reads plain scalars, those without quotes.

A plain scalar goes on over blanks and line breaks until a comment, a mark of a document, a colon
before a blank, an indicator of a flow collection, or a line that is indented too little.
-/

import LayeredConfig.Yaml.Token.Folding

namespace LayeredConfig.Yaml

/-- A scalar that was read, and the place after it. -/
structure ScannedScalar where
  text : String
  after : Cursor
  /-- Whether a line break was read after the last word. -/
  endsLine : Bool
  deriving Inhabited

namespace Plain

def isFlowIndicator (c : Char) : Bool :=
  c = ',' || c = '[' || c = ']' || c = '{' || c = '}'

/-- Whether a word ends here. -/
def endsWord (inFlow : Bool) (c : Char) (rest : List Char) : Bool :=
  (c = ':' && atBlankOrEnd rest) || (inFlow && isFlowIndicator c)

/-- Whether a colon stands directly before an indicator of a flow collection. -/
def isMisplacedColon (inFlow : Bool) (c : Char) (rest : List Char) : Bool :=
  inFlow && c = ':' &&
    match rest with
    | next :: _ => isFlowIndicator next || next = '?'
    | [] => false

/-- Reads on; `words` is what was read, backwards, and `gap` the blank space after it. -/
def scanFrom (inFlow : Bool) (indent : Nat) (words : List Char) (gap : Gap) :
    Nat → Cursor → Except Fault (List Char × Cursor × Bool)
  | 0, cursor => .ok (words, cursor, gap.broken)
  | fuel + 1, cursor =>
    match cursor.rest with
    | [] => .ok (words, cursor, gap.broken)
    | c :: rest =>
      if isBreak c then
        scanFrom inFlow indent words (gap.addBreak cursor.breakText) fuel cursor.skipBreak
      else if isSpaceOrTab c then
        if gap.broken && cursor.column < indent && c = '\t' then
          .error (cursor.fault "found a tab character that violates indentation")
        else scanFrom inFlow indent words (gap.addBlank c) fuel (cursor.skip 1)
      else
        let begins := !gap.isNone
        if cursor.atDocumentMark || (begins && c = '#') ||
            (begins && !inFlow && cursor.column < indent) then
          .ok (words, cursor, gap.broken)
        else if isMisplacedColon inFlow c rest then
          .error (cursor.fault "found unexpected ':' in a plain scalar")
        else if endsWord inFlow c rest then .ok (words, cursor, gap.broken)
        else scanFrom inFlow indent (c :: (gap.folded ++ words)) Gap.none fuel (cursor.skip 1)

/-- Reads a plain scalar; in a block its later lines need the given indentation. -/
def scan (inFlow : Bool) (indent : Nat) (cursor : Cursor) : Except Fault ScannedScalar := do
  let (words, after, endsLine) ←
    scanFrom inFlow indent [] Gap.none (cursor.rest.length + 1) cursor
  return ⟨String.ofList words.reverse, after, endsLine⟩

end Plain

end LayeredConfig.Yaml
