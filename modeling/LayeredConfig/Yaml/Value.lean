/-
This file reads documents as values, and flattens values to properties.

A value is a scalar, a sequence, a mapping, or one of these under a tag of the document's own.
Reading bounds the depth of a document and the number of aliases it follows, and refuses a mapping
with two equal keys. Flattening joins the keys on the way to a scalar by dots, and writes places in
sequences in square brackets.
-/

import LayeredConfig.Yaml.Link
import LayeredConfig.Yaml.Scalar
import LayeredConfig.Yaml.Token.Scan

namespace LayeredConfig.Yaml

/-- The children of a mapping are its keys and values in turn. -/
inductive Value where
  | scalar (scalar : Scalar)
  | sequence (items : List Value)
  | mapping (children : List Value)
  | tagged (tag : String) (content : Value)
  deriving Repr, Inhabited

namespace Value

/-! ### Equality of keys -/

/-- The pairs of a list that holds keys and values in turn. -/
def pairs {Item : Type} : List Item → List (Item × Item)
  | key :: value :: rest => (key, value) :: pairs rest
  | _ => []

mutual

/-- Whether two values count as one key; the order of a mapping does not matter. -/
def same : Value → Value → Bool
  | scalar first, scalar second => first.same second
  | sequence items, sequence others => sameAll items others
  | mapping children, mapping others =>
    children.length == others.length && sameWithin children others
  | tagged tag content, tagged other inner => Tag.sameName tag other && same content inner
  | _, _ => false

def sameAll : List Value → List Value → Bool
  | [], [] => true
  | item :: rest, other :: others => same item other && sameAll rest others
  | _, _ => false

/-- Whether every pair of a mapping is among the pairs of another one. -/
def sameWithin : List Value → List Value → Bool
  | key :: value :: rest, others =>
    (pairs others).any (fun pair => same key pair.1 && same value pair.2) &&
      sameWithin rest others
  | _, _ => true

end

/-! ### Reading -/

/-- The greatest depth of a document. -/
def depthLimit : Nat := 128

/-- A computation that counts the aliases it follows. -/
abbrev Reading (Result : Type) := StateT Nat (Except Fault) Result

/-- The node that an alias stands for; any other node stands for itself. -/
def follow (document : Document) : LinkedNode → Reading LinkedNode
  | .alias number => do
    let count := (← get) + 1
    if count > 100 * document.anchors.size then throw ⟨"repetition limit exceeded", 0, 0⟩
    set count
    match document.anchors.node? number with
    | some node => return node
    | none => throw ⟨"unknown anchor", 0, 0⟩
  | node => return node

/-- Puts a value under its tag, if that is one of the document. -/
def withTag : Option Tag → Value → Value
  | some (.own name), value => tagged name value
  | _, value => value

/-- The children of a mapping, of which no key may come twice. -/
def checkKeys (seen : List Value) : List (Value × Value) → Except Fault Unit
  | [] => .ok ()
  | (key, _) :: rest =>
    if seen.any (same key) then .error ⟨"duplicate entry in a mapping", 0, 0⟩
    else checkKeys (key :: seen) rest

/-- Reads a node; its collections may be nested to a depth. -/
def readNode (document : Document) : Nat → LinkedNode → Reading Value
  | depth, node => do
    match ← follow document node with
    | .alias _ => throw ⟨"unknown anchor", 0, 0⟩
    | .scalar tag text isPlain => return withTag tag (.scalar (← Scalar.read tag text isPlain))
    | .sequence tag items =>
      match depth with
      | 0 => throw ⟨"recursion limit exceeded", 0, 0⟩
      | depth + 1 => return withTag tag (.sequence (← items.mapM (readNode document depth)))
    | .mapping tag children =>
      match depth with
      | 0 => throw ⟨"recursion limit exceeded", 0, 0⟩
      | depth + 1 =>
        let values ← (pairs children).mapM fun pair => do
          let key ← readNode document depth pair.1
          let value ← readNode document depth pair.2
          return (key, value)
        checkKeys [] values
        return withTag tag (.mapping (values.flatMap fun pair => [pair.1, pair.2]))

/-- The value of a document. -/
def ofDocument (document : Document) : Except Fault Value :=
  ((readNode document depthLimit document.root).run 0).map Prod.fst

/-! ### Flattening -/

/-- The text of a scalar, also under tags. -/
def scalarText? : Value → Option String
  | scalar value => some value.text
  | tagged _ content => scalarText? content
  | _ => none

/-- The way to the value of a key. -/
def stepInto (way : Option String) (key : String) : String :=
  match way with
  | some way => way ++ "." ++ key
  | none => key

mutual

/-- The properties of a value, each named by the way to its scalar; a scalar at the beginning of
the way is none. -/
def flatten (way : Option String) : Value → List (String × String)
  | scalar value =>
    match way with
    | some way => [(way, value.text)]
    | none => []
  | sequence items => flattenItems (way.getD "") 0 items
  | mapping children => flattenChildren way children
  | tagged _ content => flatten way content

def flattenItems (way : String) (index : Nat) : List Value → List (String × String)
  | [] => []
  | item :: rest =>
    flatten (some (way ++ "[" ++ toString index ++ "]")) item ++
      flattenItems way (index + 1) rest

/-- The properties of a mapping; a value under a key that is no scalar is passed over. -/
def flattenChildren (way : Option String) : List Value → List (String × String)
  | key :: value :: rest =>
    (match scalarText? key with
      | some key => flatten (some (stepInto way key)) value
      | none => []) ++ flattenChildren way rest
  | _ => []

end

/-- The properties of a value. -/
def properties (value : Value) : List (String × String) :=
  flatten none value

end Value

/-! ### Texts -/

/-- The documents of a text; a text without any is one empty document. -/
def readDocuments (text : String) : Except Fault (List Document) := do
  let nodes ← Node.ofTokens (← Token.scan text)
  (if nodes.isEmpty then [Node.absent] else nodes).mapM Document.ofNode

/-- The values of the documents of a text. -/
def readValues (text : String) : Except Fault (List Value) := do
  (← readDocuments text).mapM Value.ofDocument

/-- The only document of a text. -/
def readOnly (text : String) : Except Fault Document := do
  match ← readDocuments text with
  | [document] => return document
  | _ => Node.misplaced "found more than one document"

end LayeredConfig.Yaml
