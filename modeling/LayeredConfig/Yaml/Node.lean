/-
This file builds the nodes of YAML documents from tokens.

A document is one node: an alias, a scalar, a sequence or a mapping, and every node but an alias may
carry an anchor and a tag. Where the notation leaves a node out, an empty plain scalar stands for
it. The children of a mapping are its keys and values in turn.
-/

import LayeredConfig.Yaml.Cursor
import LayeredConfig.Yaml.Tag
import LayeredConfig.Yaml.Token.Basic

namespace LayeredConfig.Yaml

/-- What stands before a node. -/
structure NodeProperties where
  anchor : Option String
  tag : Option Tag
  deriving DecidableEq, Repr, Inhabited

namespace NodeProperties

def none : NodeProperties := ⟨.none, .none⟩

def isNone (properties : NodeProperties) : Bool :=
  properties.anchor.isNone && properties.tag.isNone

end NodeProperties

inductive Node where
  | alias (name : String)
  | scalar (properties : NodeProperties) (text : String) (isPlain : Bool)
  | sequence (properties : NodeProperties) (items : List Node)
  | mapping (properties : NodeProperties) (children : List Node)
  deriving Repr, Inhabited

namespace Node

/-- The node that the notation leaves out. -/
def absent : Node := scalar .none "" true

/-! ### Properties -/

/-- The handles of tags and what they stand for. -/
abbrev Shorthands := List (String × List UInt8)

def usualShorthands : Shorthands :=
  [("!", "!".toUTF8.toList), ("!!", "tag:yaml.org,2002:".toUTF8.toList)]

def misplaced {Result : Type} (reason : String) : Except Fault Result :=
  .error ⟨reason, 0, 0⟩

/-- The tag of a handle and a suffix; a suffix without a handle is a whole tag. -/
def expandTag (shorthands : Shorthands) (handle : String) (suffix : List UInt8) :
    Except Fault Tag :=
  if handle = "" then .ok (Tag.ofBytes suffix)
  else
    match shorthands.lookup handle with
    | some expansion => .ok (Tag.ofBytes (expansion ++ suffix))
    | none => misplaced "found undefined tag handle"

/-- Reads an anchor and a tag, in either order. -/
def readProperties (shorthands : Shorthands) :
    List Token → Except Fault (NodeProperties × List Token)
  | .anchor name :: .tag handle suffix :: rest => do
    return (⟨some name, some (← expandTag shorthands handle suffix)⟩, rest)
  | .tag handle suffix :: .anchor name :: rest => do
    return (⟨some name, some (← expandTag shorthands handle suffix)⟩, rest)
  | .anchor name :: rest => .ok (⟨some name, none⟩, rest)
  | .tag handle suffix :: rest => do
    return (⟨none, some (← expandTag shorthands handle suffix)⟩, rest)
  | rest => .ok (.none, rest)

/-! ### Collections -/

/-- Whether an entry of a block sequence is left out before a token. -/
def endsBlockEntry : Option Token → Bool
  | some .blockEntry => true
  | some .blockEnd => true
  | _ => false

/-- Whether an entry of a sequence without indentation is left out before a token. -/
def endsIndentlessEntry : Option Token → Bool
  | some .blockEntry => true
  | some .key => true
  | some .value => true
  | some .blockEnd => true
  | _ => false

/-- Whether a key or value of a block mapping is left out before a token. -/
def endsBlockPart : Option Token → Bool
  | some .key => true
  | some .value => true
  | some .blockEnd => true
  | _ => false

/-- Whether a key of a flow mapping is left out before a token. -/
def endsFlowKey : Option Token → Bool
  | some .value => true
  | some .flowEntry => true
  | some .flowMappingEnd => true
  | _ => false

/-- Whether a value of a flow mapping is left out before a token. -/
def endsFlowValue : Option Token → Bool
  | some .flowEntry => true
  | some .flowMappingEnd => true
  | _ => false

/-- Whether the value of a pair in a flow sequence is left out before a token. -/
def endsPairValue : Option Token → Bool
  | some .flowEntry => true
  | some .flowSequenceEnd => true
  | _ => false

/-- The tokens from the next entry of a flow collection on, past the comma before it. -/
def nextFlowEntry (isFirst : Bool) (reason : String) : List Token → Except Fault (List Token)
  | tokens =>
    if isFirst then .ok tokens
    else
      match tokens with
      | .flowEntry :: rest => .ok rest
      | _ => misplaced reason

mutual

/-- Reads a node; a block node may be a block collection. -/
def read (shorthands : Shorthands) (isBlock indentless : Bool) :
    Nat → List Token → Except Fault (Node × List Token)
  | 0, _ => misplaced "did not find expected node content"
  | _ + 1, .alias name :: rest => .ok (.alias name, rest)
  | fuel + 1, tokens => do
    let (properties, rest) ← readProperties shorthands tokens
    match rest with
    | .scalar text isPlain :: rest => return (.scalar properties text isPlain, rest)
    | .flowSequenceStart :: rest =>
      let (items, rest) ← readFlowItems shorthands true fuel rest
      return (.sequence properties items, rest)
    | .flowMappingStart :: rest =>
      let (children, rest) ← readFlowPairs shorthands true fuel rest
      return (.mapping properties children, rest)
    | .blockEntry :: _ =>
      if indentless then
        let (items, rest) ← readIndentlessItems shorthands fuel rest
        return (.sequence properties items, rest)
      else if properties.isNone then misplaced "did not find expected node content"
      else return (.scalar properties "" true, rest)
    | .blockSequenceStart :: inner =>
      if isBlock then
        let (items, rest) ← readBlockItems shorthands fuel inner
        return (.sequence properties items, rest)
      else if properties.isNone then misplaced "did not find expected node content"
      else return (.scalar properties "" true, rest)
    | .blockMappingStart :: inner =>
      if isBlock then
        let (children, rest) ← readBlockPairs shorthands fuel inner
        return (.mapping properties children, rest)
      else if properties.isNone then misplaced "did not find expected node content"
      else return (.scalar properties "" true, rest)
    | rest =>
      if properties.isNone then misplaced "did not find expected node content"
      else return (.scalar properties "" true, rest)

def readBlockItems (shorthands : Shorthands) :
    Nat → List Token → Except Fault (List Node × List Token)
  | 0, _ => misplaced "did not find expected '-' indicator"
  | fuel + 1, .blockEntry :: rest => do
    let (item, rest) ←
      if endsBlockEntry rest.head? then pure (absent, rest)
      else read shorthands true false fuel rest
    let (items, rest) ← readBlockItems shorthands fuel rest
    return (item :: items, rest)
  | _ + 1, .blockEnd :: rest => .ok ([], rest)
  | _ + 1, _ => misplaced "did not find expected '-' indicator"

def readIndentlessItems (shorthands : Shorthands) :
    Nat → List Token → Except Fault (List Node × List Token)
  | 0, _ => misplaced "did not find expected '-' indicator"
  | fuel + 1, .blockEntry :: rest => do
    let (item, rest) ←
      if endsIndentlessEntry rest.head? then pure (absent, rest)
      else read shorthands true false fuel rest
    let (items, rest) ← readIndentlessItems shorthands fuel rest
    return (item :: items, rest)
  | _ + 1, rest => .ok ([], rest)

def readBlockPairs (shorthands : Shorthands) :
    Nat → List Token → Except Fault (List Node × List Token)
  | 0, _ => misplaced "did not find expected key"
  | fuel + 1, .key :: rest => do
    let (key, rest) ←
      if endsBlockPart rest.head? then pure (absent, rest)
      else read shorthands true true fuel rest
    let (value, rest) ← readBlockValue shorthands fuel rest
    let (children, rest) ← readBlockPairs shorthands fuel rest
    return (key :: value :: children, rest)
  | _ + 1, .blockEnd :: rest => .ok ([], rest)
  | _ + 1, _ => misplaced "did not find expected key"

def readBlockValue (shorthands : Shorthands) :
    Nat → List Token → Except Fault (Node × List Token)
  | 0, _ => misplaced "did not find expected key"
  | fuel + 1, .value :: rest =>
    if endsBlockPart rest.head? then .ok (absent, rest)
    else read shorthands true true fuel rest
  | _ + 1, rest => .ok (absent, rest)

def readFlowItems (shorthands : Shorthands) (isFirst : Bool) :
    Nat → List Token → Except Fault (List Node × List Token)
  | 0, _ => misplaced "did not find expected ',' or ']'"
  | _ + 1, .flowSequenceEnd :: rest => .ok ([], rest)
  | fuel + 1, tokens => do
    match ← nextFlowEntry isFirst "did not find expected ',' or ']'" tokens with
    | .flowSequenceEnd :: rest => return ([], rest)
    | .key :: rest =>
      let (pair, rest) ← readPair shorthands fuel rest
      let (items, rest) ← readFlowItems shorthands false fuel rest
      return (.mapping .none pair :: items, rest)
    | rest =>
      let (item, rest) ← read shorthands false false fuel rest
      let (items, rest) ← readFlowItems shorthands false fuel rest
      return (item :: items, rest)

/-- Reads a pair in a flow sequence; where its key is left out, one token is passed over. -/
def readPair (shorthands : Shorthands) :
    Nat → List Token → Except Fault (List Node × List Token)
  | 0, _ => misplaced "did not find expected node content"
  | fuel + 1, tokens => do
    let (key, rest) ←
      if endsPairValue tokens.head? || tokens.head? = some .value then
        pure (absent, tokens.tail)
      else read shorthands false false fuel tokens
    match rest with
    | .value :: rest =>
      if endsPairValue rest.head? then return ([key, absent], rest)
      else
        let (value, rest) ← read shorthands false false fuel rest
        return ([key, value], rest)
    | rest => return ([key, absent], rest)

def readFlowPairs (shorthands : Shorthands) (isFirst : Bool) :
    Nat → List Token → Except Fault (List Node × List Token)
  | 0, _ => misplaced "did not find expected ',' or '\x7d'"
  | _ + 1, .flowMappingEnd :: rest => .ok ([], rest)
  | fuel + 1, tokens => do
    match ← nextFlowEntry isFirst "did not find expected ',' or '\x7d'" tokens with
    | .flowMappingEnd :: rest => return ([], rest)
    | .key :: rest =>
      let (key, rest) ←
        if endsFlowKey rest.head? then pure (absent, rest)
        else read shorthands false false fuel rest
      let (value, rest) ← readFlowValue shorthands fuel rest
      let (children, rest) ← readFlowPairs shorthands false fuel rest
      return (key :: value :: children, rest)
    | rest =>
      let (key, rest) ← read shorthands false false fuel rest
      let (children, rest) ← readFlowPairs shorthands false fuel rest
      return (key :: absent :: children, rest)

def readFlowValue (shorthands : Shorthands) :
    Nat → List Token → Except Fault (Node × List Token)
  | 0, _ => misplaced "did not find expected node content"
  | fuel + 1, .value :: rest =>
    if endsFlowValue rest.head? then .ok (absent, rest)
    else read shorthands false false fuel rest
  | _ + 1, rest => .ok (absent, rest)

end

/-! ### Documents -/

/-- What the directives before a document say. -/
structure Directives where
  hasVersion : Bool
  shorthands : Shorthands

/-- Reads the directives before a document. -/
def readDirectives (directives : Directives) :
    List Token → Except Fault (Directives × List Token)
  | .version major minor :: rest =>
    if directives.hasVersion then misplaced "found duplicate %YAML directive"
    else if major ≠ 1 || (minor ≠ 1 && minor ≠ 2) then
      misplaced "found incompatible YAML document"
    else readDirectives { directives with hasVersion := true } rest
  | .tagShorthand handle expansion :: rest =>
    if (directives.shorthands.lookup handle).isSome then
      misplaced "found duplicate %TAG directive"
    else
      readDirectives
        { directives with shorthands := directives.shorthands ++ [(handle, expansion)] } rest
  | rest => .ok (directives, rest)

/-- Adds the usual shorthands that a document does not define itself. -/
def withUsual (shorthands : Shorthands) : Shorthands :=
  shorthands ++ usualShorthands.filter fun usual => (shorthands.lookup usual.1).isNone

/-- Whether a document that begins here is left out. -/
def endsDocument : List Token → Bool
  | [] => true
  | .version .. :: _ => true
  | .tagShorthand .. :: _ => true
  | .documentStart :: _ => true
  | .documentEnd :: _ => true
  | _ => false

/-- Reads the node of a document. -/
def readContent (shorthands : Shorthands) (tokens : List Token) :
    Except Fault (Node × List Token) :=
  if endsDocument tokens then .ok (absent, tokens)
  else read shorthands true false (4 * tokens.length + 4) tokens

/-- Reads the documents from the second on; each begins with its mark. -/
def readDocuments : Nat → List Token → Except Fault (List Node)
  | 0, _ => .ok []
  | fuel + 1, tokens =>
    match tokens.dropWhile (· = .documentEnd) with
    | [] => .ok []
    | rest => do
      let (directives, rest) ← readDirectives ⟨false, []⟩ rest
      match rest with
      | .documentStart :: rest =>
        let (node, rest) ← readContent (withUsual directives.shorthands) rest
        let others ← readDocuments fuel rest
        return node :: others
      | _ => misplaced "did not find expected <document start>"

/-- Whether the first document begins without a mark. -/
def beginsBare : List Token → Bool
  | [] => false
  | .version .. :: _ => false
  | .tagShorthand .. :: _ => false
  | .documentStart :: _ => false
  | _ => true

/-- The documents of a list of tokens. -/
def ofTokens (tokens : List Token) : Except Fault (List Node) :=
  if beginsBare tokens then do
    let (node, rest) ← read usualShorthands true false (4 * tokens.length + 4) tokens
    let others ← readDocuments (rest.length + 1) rest
    return node :: others
  else
    match tokens with
    | [] => .ok []
    | _ => readDocuments (tokens.length + 1) tokens

end Node

end LayeredConfig.Yaml
