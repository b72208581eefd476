/-
This file cuts a YAML text into tokens.

A key of a mapping may be told only by the colon after it, so the place of every token that could
begin such a key is remembered, one for each open flow collection and one for the block around them.
When the colon comes, the token of the key is put where the key began. Outside flow collections the
column of a token opens and closes block collections.
-/

import LayeredConfig.Yaml.Token.Block
import LayeredConfig.Yaml.Token.Property
import LayeredConfig.Yaml.Token.Quoted

namespace LayeredConfig.Yaml

/-- The place of a token that could begin a key. -/
structure PossibleKey where
  /-- Whether it must be one, since no other token can stand at its column. -/
  required : Bool
  /-- The number of tokens before it. -/
  position : Nat
  offset : Nat
  line : Nat
  column : Nat
  deriving Inhabited

/-- A text in the course of being cut into tokens. -/
structure Scanner where
  cursor : Cursor
  tokens : Array Token
  /-- The column of the current block collection, and of those around it. -/
  indent : Int
  outerIndents : List Int
  /-- The number of open flow collections. -/
  flowLevel : Nat
  /-- Whether a key may begin here. -/
  keyAllowed : Bool
  /-- The possible key of the current collection, and of those around it. -/
  possibleKey : Option PossibleKey
  outerKeys : List (Option PossibleKey)
  deriving Inhabited

namespace Scanner

def ofText (text : List Char) : Scanner :=
  { cursor := .ofText text, tokens := #[], indent := -1, outerIndents := []
    flowLevel := 0, keyAllowed := true, possibleKey := none, outerKeys := [] }

def fault (scanner : Scanner) (reason : String) : Fault :=
  scanner.cursor.fault reason

def inFlow (scanner : Scanner) : Bool :=
  scanner.flowLevel != 0

def emit (scanner : Scanner) (token : Token) : Scanner :=
  { scanner with tokens := scanner.tokens.push token }

/-- Puts a token before those from a position on. -/
def insert (scanner : Scanner) (position : Nat) (token : Token) : Scanner :=
  { scanner with
    tokens := scanner.tokens.extract 0 position ++ #[token] ++
      scanner.tokens.extract position scanner.tokens.size }

/-! ### Indentation -/

/-- Opens a block collection at a column, unless the current one is there already. -/
def openBlock (scanner : Scanner) (column position : Nat) (token : Token) : Scanner :=
  if scanner.inFlow || (column : Int) ≤ scanner.indent then scanner
  else
    { scanner.insert position token with
      indent := column
      outerIndents := scanner.indent :: scanner.outerIndents }

/-- Closes the block collections that lie to the right of a column. -/
def closeBlocks (column : Int) : List Int → Scanner → Scanner
  | [], scanner => scanner
  | outer :: rest, scanner =>
    if scanner.inFlow || scanner.indent ≤ column then scanner
    else
      closeBlocks column rest
        { scanner.emit .blockEnd with indent := outer, outerIndents := rest }

def unroll (scanner : Scanner) (column : Int) : Scanner :=
  closeBlocks column scanner.outerIndents scanner

/-! ### Possible keys -/

/-- Gives up the possible key of the current collection. -/
def dropKey (scanner : Scanner) : Except Fault Scanner :=
  match scanner.possibleKey with
  | some key =>
    if key.required then .error (scanner.fault "could not find expected ':'")
    else .ok { scanner with possibleKey := none }
  | none => .ok scanner

/-- Remembers that a key may begin here. -/
def saveKey (scanner : Scanner) : Except Fault Scanner := do
  if scanner.keyAllowed then
    let cursor := scanner.cursor
    let dropped ← scanner.dropKey
    return { dropped with
      possibleKey := some
        { required := !scanner.inFlow && scanner.indent == (cursor.column : Int)
          position := scanner.tokens.size
          offset := cursor.offset
          line := cursor.line
          column := cursor.column } }
  else return scanner

/-- Whether a key that began somewhere can no longer end here: a key is on one line and has at most
1024 bytes. -/
def isStale (cursor : Cursor) (key : PossibleKey) : Bool :=
  key.line < cursor.line || key.offset + 1024 < cursor.offset

/-- A possible key, unless it is stale; a required one may not be. -/
def freshKey (cursor : Cursor) : Option PossibleKey → Except Fault (Option PossibleKey)
  | none => .ok none
  | some key =>
    if isStale cursor key then
      if key.required then .error (cursor.fault "could not find expected ':'") else .ok none
    else .ok (some key)

def dropStaleKeys (scanner : Scanner) : Except Fault Scanner := do
  let possibleKey ← freshKey scanner.cursor scanner.possibleKey
  let outerKeys ← scanner.outerKeys.mapM (freshKey scanner.cursor)
  return { scanner with possibleKey, outerKeys }

/-! ### Between tokens -/

/-- Skips blanks, comments and line breaks; a tab may not begin a line of a block, and a byte order
mark may begin any line. -/
def skipToToken : Nat → Scanner → Scanner
  | 0, scanner => scanner
  | fuel + 1, scanner =>
    let cursor := scanner.cursor
    let unmarked :=
      if cursor.column = 0 && cursor.head? = some '\uFEFF' then cursor.skip 1 else cursor
    let tabs := scanner.inFlow || !scanner.keyAllowed
    let after := (unmarked.skipWhile fun c => c = ' ' || (tabs && c = '\t')).skipComment
    match after.rest with
    | c :: _ =>
      if isBreak c then
        skipToToken fuel
          { scanner with
            cursor := after.skipBreak
            keyAllowed := scanner.keyAllowed || !scanner.inFlow }
      else { scanner with cursor := after }
    | [] => { scanner with cursor := after }

/-! ### Tokens of one kind -/

/-- Takes some characters as a token. -/
def take (scanner : Scanner) (count : Nat) (token : Token) : Scanner :=
  { scanner with cursor := scanner.cursor.skip count }.emit token

def takeDirective (scanner : Scanner) : Except Fault Scanner := do
  let scanner ← (scanner.unroll (-1)).dropKey
  let (token, after) ← Directive.scan scanner.cursor
  return { scanner.emit token with cursor := after, keyAllowed := false }

def takeDocumentMark (scanner : Scanner) (token : Token) : Except Fault Scanner := do
  let scanner ← (scanner.unroll (-1)).dropKey
  return { scanner.take 3 token with keyAllowed := false }

def openFlow (scanner : Scanner) (token : Token) : Except Fault Scanner := do
  let scanner ← scanner.saveKey
  return { scanner.take 1 token with
    flowLevel := scanner.flowLevel + 1
    possibleKey := none
    outerKeys := scanner.possibleKey :: scanner.outerKeys
    keyAllowed := true }

def closeFlow (scanner : Scanner) (token : Token) : Except Fault Scanner := do
  let scanner ← scanner.dropKey
  let after := { scanner.take 1 token with keyAllowed := false }
  match scanner.flowLevel, scanner.outerKeys with
  | level + 1, key :: keys =>
    return { after with flowLevel := level, possibleKey := key, outerKeys := keys }
  | _, _ => return after

def takeFlowEntry (scanner : Scanner) : Except Fault Scanner := do
  let scanner ← scanner.dropKey
  return { scanner.take 1 .flowEntry with keyAllowed := true }

/-- Opens a block collection for an indicator that stands here. -/
def openBlockHere (scanner : Scanner) (token : Token) (reason : String) : Except Fault Scanner :=
  if scanner.inFlow then .ok scanner
  else if scanner.keyAllowed then
    .ok (scanner.openBlock scanner.cursor.column scanner.tokens.size token)
  else .error (scanner.fault reason)

def takeBlockEntry (scanner : Scanner) : Except Fault Scanner := do
  let opened ← scanner.openBlockHere .blockSequenceStart
    "block sequence entries are not allowed in this context"
  let scanner ← opened.dropKey
  return { scanner.take 1 .blockEntry with keyAllowed := true }

def takeKey (scanner : Scanner) : Except Fault Scanner := do
  let opened ← scanner.openBlockHere .blockMappingStart
    "mapping keys are not allowed in this context"
  let scanner ← opened.dropKey
  return { scanner.take 1 .key with keyAllowed := !scanner.inFlow }

/-- Takes the colon before a value; the key may be the token remembered as a possible one. -/
def takeValue (scanner : Scanner) : Except Fault Scanner :=
  match scanner.possibleKey with
  | some key =>
    let withKey := scanner.insert key.position .key
    let opened := withKey.openBlock key.column key.position .blockMappingStart
    .ok { opened.take 1 .value with possibleKey := none, keyAllowed := false }
  | none => do
    let opened ← scanner.openBlockHere .blockMappingStart
      "mapping values are not allowed in this context"
    return { opened.take 1 .value with keyAllowed := !opened.inFlow }

def takeAnchor (scanner : Scanner) (token : String → Token) : Except Fault Scanner := do
  let scanner ← scanner.saveKey
  let (name, after) ← Anchor.scan (scanner.cursor.skip 1)
  return { scanner.emit (token name) with cursor := after, keyAllowed := false }

def takeTag (scanner : Scanner) : Except Fault Scanner := do
  let scanner ← scanner.saveKey
  let (handle, suffix, after) ← Tag.scan scanner.inFlow scanner.cursor
  return { scanner.emit (.tag handle suffix) with cursor := after, keyAllowed := false }

def takeBlockScalar (scanner : Scanner) (isLiteral : Bool) : Except Fault Scanner := do
  let scanner ← scanner.dropKey
  let scanned ← Block.scan isLiteral scanner.indent scanner.cursor
  return { scanner.emit (.scalar scanned.text false) with
    cursor := scanned.after
    keyAllowed := true }

def takeQuoted (scanner : Scanner) (isSingle : Bool) : Except Fault Scanner := do
  let scanner ← scanner.saveKey
  let scanned ← Quoted.scan isSingle scanner.cursor
  return { scanner.emit (.scalar scanned.text false) with
    cursor := scanned.after
    keyAllowed := false }

def takePlain (scanner : Scanner) : Except Fault Scanner := do
  let scanner ← scanner.saveKey
  let scanned ← Plain.scan scanner.inFlow (scanner.indent + 1).toNat scanner.cursor
  return { scanner.emit (.scalar scanned.text true) with
    cursor := scanned.after
    keyAllowed := scanned.endsLine }

/-! ### The text -/

/-- Whether a character can begin no plain scalar. -/
def isIndicator (c : Char) : Bool :=
  ['-', '?', ':', ',', '[', ']', '{', '}', '#', '&', '*', '!', '|', '>', '\'', '"', '%', '@',
    '\x60'].contains c

/-- Whether a plain scalar begins here. -/
def beginsPlain (inFlow : Bool) (c : Char) (rest : List Char) : Bool :=
  (!isIndicator c && !isSpaceOrTab c && !isBreak c) ||
    (c = '-' &&
      match rest with
      | next :: _ => !isSpaceOrTab next
      | [] => true) ||
    (!inFlow && (c = '?' || c = ':') && !atBlankOrEnd rest)

/-- Takes the token that begins here, which is not the end of the text. -/
def takeToken (scanner : Scanner) (c : Char) (rest : List Char) : Except Fault Scanner :=
  let cursor := scanner.cursor
  if cursor.column = 0 && c = '%' then scanner.takeDirective
  else if cursor.atMark '-' then scanner.takeDocumentMark .documentStart
  else if cursor.atMark '.' then scanner.takeDocumentMark .documentEnd
  else if c = '[' then scanner.openFlow .flowSequenceStart
  else if c = '{' then scanner.openFlow .flowMappingStart
  else if c = ']' then scanner.closeFlow .flowSequenceEnd
  else if c = '}' then scanner.closeFlow .flowMappingEnd
  else if c = ',' then scanner.takeFlowEntry
  else if c = '-' && atBlankOrEnd rest then scanner.takeBlockEntry
  else if c = '?' && (scanner.inFlow || atBlankOrEnd rest) then scanner.takeKey
  else if c = ':' && (scanner.inFlow || atBlankOrEnd rest) then scanner.takeValue
  else if c = '*' then scanner.takeAnchor .alias
  else if c = '&' then scanner.takeAnchor .anchor
  else if c = '!' then scanner.takeTag
  else if c = '|' && !scanner.inFlow then scanner.takeBlockScalar true
  else if c = '>' && !scanner.inFlow then scanner.takeBlockScalar false
  else if c = '\'' then scanner.takeQuoted true
  else if c = '"' then scanner.takeQuoted false
  else if beginsPlain scanner.inFlow c rest then scanner.takePlain
  else .error (scanner.fault "found character that cannot start any token")

/-- Cuts the rest of a text into tokens; each takes at least one character. -/
def scanFrom : Nat → Scanner → Except Fault (List Token)
  | 0, scanner => .error (scanner.fault "found unexpected end of stream")
  | fuel + 1, scanner => do
    let skipped := skipToToken (scanner.cursor.rest.length + 1) scanner
    let fresh ← skipped.dropStaleKeys
    let scanner := fresh.unroll fresh.cursor.column
    match scanner.cursor.rest with
    | [] =>
      let closed ← (scanner.unroll (-1)).dropKey
      return closed.tokens.toList
    | c :: rest =>
      let next ← scanner.takeToken c rest
      scanFrom fuel next

end Scanner

/-- The tokens of a text. -/
def Token.scan (text : String) : Except Fault (List Token) :=
  let chars := text.toList
  if chars.all isAllowed then Scanner.scanFrom (chars.length + 1) (Scanner.ofText chars)
  else .error ⟨"control characters are not allowed", 0, 0⟩

end LayeredConfig.Yaml
