/-
This file reads settings from a YAML document.

The document is a mapping of the known settings, each at most once; a setting that is null is left
out. Texts may be scalars of any kind and are taken as they are written. The missing policy may also
be given as a tag.
-/

import LayeredConfig.Settings.Basic
import LayeredConfig.Yaml.Value

namespace LayeredConfig

open Yaml

namespace Settings

/-! ### Parts of a document -/

/-- The node that an alias stands for; any other node stands for itself. -/
def resolve (document : Document) : LinkedNode → LinkedNode
  | .alias number => (document.anchors.node? number).getD (.alias number)
  | node => node

/-- Whether a scalar is a node that was left out. -/
def isAbsent (text : String) (isPlain : Bool) : Bool :=
  isPlain && text = ""

/-- The node, unless it is null. -/
def present? (document : Document) (node : LinkedNode) : Except Fault (Option LinkedNode) :=
  match resolve document node with
  | .scalar tag text isPlain =>
    if !isPlain then .ok (some node)
    else
      match tag with
      | some .null => if Scalar.isNull text then .ok none else Node.misplaced "expected null"
      | some _ => .ok (some node)
      | none => if text = "" || Scalar.isNull text then .ok none else .ok (some node)
  | _ => .ok (some node)

def readText (document : Document) (node : LinkedNode) : Except Fault String :=
  match resolve document node with
  | .scalar _ text _ => .ok text
  | _ => Node.misplaced "expected a string"

def readTexts (document : Document) (node : LinkedNode) : Except Fault (List String) :=
  match resolve document node with
  | .sequence _ items => items.mapM (readText document)
  | .scalar _ text isPlain =>
    if isAbsent text isPlain then .ok [] else Node.misplaced "expected a sequence"
  | _ => Node.misplaced "expected a sequence"

/-- The named parts of a mapping, of which each is known and none comes twice. -/
def readFields (document : Document) (known : List String) :
    List (LinkedNode × LinkedNode) → Except Fault (List (String × LinkedNode))
  | [] => .ok []
  | (key, value) :: rest => do
    let name ← readText document key
    if !known.contains name then Node.misplaced "unknown field"
    else
      let others ← readFields document known rest
      if others.any (·.1 = name) then Node.misplaced "duplicate field"
      else return (name, value) :: others

def readMapping (document : Document) (known : List String) (node : LinkedNode) :
    Except Fault (List (String × LinkedNode)) :=
  match resolve document node with
  | .mapping _ children => readFields document known (Value.pairs children)
  | .scalar _ text isPlain =>
    if isAbsent text isPlain then .ok [] else Node.misplaced "expected a mapping"
  | _ => Node.misplaced "expected a mapping"

/-- Reads a part that may be left out. -/
def readPart {Result : Type} (document : Document) (fields : List (String × LinkedNode))
    (read : LinkedNode → Except Fault Result) (name : String) : Except Fault (Option Result) :=
  match fields.lookup name with
  | none => .ok none
  | some node => do
    match ← present? document node with
    | none => return none
    | some node => return some (← read node)

/-! ### Settings -/

def policyNamed (name : String) : Except Fault MissingPolicy :=
  match MissingPolicy.all.find? (·.text = name) with
  | some policy => .ok policy
  | none => Node.misplaced "unknown variant"

/-- Reads a missing policy: its name, or nothing under a tag of its name. -/
def readPolicy (document : Document) (node : LinkedNode) : Except Fault MissingPolicy :=
  match resolve document node with
  | .scalar tag text isPlain =>
    match tag with
    | some (.own name) =>
      if isPlain && (text = "" || Scalar.isNull text) then policyNamed name
      else Node.misplaced "expected null"
    | _ => policyNamed text
  | _ => Node.misplaced "expected a string"

def readProfiles (document : Document) (node : LinkedNode) : Except Fault ProfileSettings := do
  let fields ← readMapping document ["active", "default", "additional"] node
  return {
    active := ← readPart document fields (readTexts document) "active"
    fallback := ← readPart document fields (readTexts document) "default"
    additional := ← readPart document fields (readTexts document) "additional" }

def ofDocument (document : Document) : Except Fault Settings := do
  let fields ← readMapping document
    ["on_not_found", "profiles", "base_dir", "resource_roots", "imports"] document.root
  return {
    onMissing := ← readPart document fields (readPolicy document) "on_not_found"
    profiles := ← readPart document fields (readProfiles document) "profiles"
    baseDirectory := ← readPart document fields (readText document) "base_dir"
    roots := ← readPart document fields (readTexts document) "resource_roots"
    imports := ← readPart document fields (readTexts document) "imports" }

/-- Reads settings from a text of one document. -/
def ofText (text : String) : Except Fault Settings := do
  ofDocument (← readOnly text)

end Settings

end LayeredConfig
