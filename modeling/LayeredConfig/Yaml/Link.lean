/-
This file resolves the aliases of a document.

An anchor gets a number when its node begins, the number of different names seen in the document so
far, and a name that is anchored again loses the number it had. An alias stands for the number that
its name has at that place, and a number for the node that got it last. An alias may stand for a
node that it is part of; reading such a document fails by its depth.
-/

import LayeredConfig.Yaml.Node

namespace LayeredConfig.Yaml

/-- A node whose aliases and anchors are numbers. -/
inductive LinkedNode where
  | alias (number : Nat)
  | scalar (tag : Option Tag) (text : String) (isPlain : Bool)
  | sequence (tag : Option Tag) (items : List LinkedNode)
  | mapping (tag : Option Tag) (children : List LinkedNode)
  deriving Repr, Inhabited

/-- The anchors of a document that is read so far. -/
structure Anchors where
  /-- The number of each name. -/
  numbers : List (String × Nat)
  /-- The place of the node that got a number last. -/
  places : List (Nat × Nat)
  /-- The anchored nodes by their place. -/
  nodes : List (Nat × LinkedNode)
  /-- The number of nodes and ends of collections so far, which is the place of the next one. -/
  size : Nat
  deriving Inhabited

namespace Anchors

def empty : Anchors := ⟨[], [], [], 0⟩

/-- Anchors the node that begins here. -/
def enter (anchors : Anchors) : Option String → Anchors
  | none => { anchors with size := anchors.size + 1 }
  | some name =>
    let number := anchors.numbers.length
    { anchors with
      numbers := (name, number) :: anchors.numbers.filter (·.1 ≠ name)
      places := (number, anchors.size) :: anchors.places
      size := anchors.size + 1 }

/-- Keeps the node that began at a place. -/
def keep (anchors : Anchors) (place : Nat) (node : LinkedNode) : Anchors :=
  { anchors with nodes := (place, node) :: anchors.nodes }

def close (anchors : Anchors) : Anchors :=
  { anchors with size := anchors.size + 1 }

/-- The node that a number stands for. -/
def node? (anchors : Anchors) (number : Nat) : Option LinkedNode :=
  (anchors.places.lookup number).bind fun place => anchors.nodes.lookup place

end Anchors

namespace Node

mutual

/-- Links a node, after what was read before it. -/
def link (anchors : Anchors) : Node → Except Fault (LinkedNode × Anchors)
  | .alias name =>
    match anchors.numbers.lookup name with
    | some number => .ok (.alias number, anchors.close)
    | none => misplaced "unknown anchor"
  | .scalar properties text isPlain =>
    let entered := anchors.enter properties.anchor
    let node := .scalar properties.tag text isPlain
    .ok (node, if properties.anchor.isSome then entered.keep anchors.size node else entered)
  | .sequence properties items =>
    match linkAll (anchors.enter properties.anchor) items with
    | .error fault => .error fault
    | .ok (linked, inner) =>
      let node := .sequence properties.tag linked
      .ok (node,
        if properties.anchor.isSome then inner.close.keep anchors.size node else inner.close)
  | .mapping properties children =>
    match linkAll (anchors.enter properties.anchor) children with
    | .error fault => .error fault
    | .ok (linked, inner) =>
      let node := .mapping properties.tag linked
      .ok (node,
        if properties.anchor.isSome then inner.close.keep anchors.size node else inner.close)

def linkAll (anchors : Anchors) : List Node → Except Fault (List LinkedNode × Anchors)
  | [] => .ok ([], anchors)
  | node :: rest =>
    match link anchors node with
    | .error fault => .error fault
    | .ok (linked, later) =>
      match linkAll later rest with
      | .error fault => .error fault
      | .ok (others, last) => .ok (linked :: others, last)

end

end Node

/-- A document with its anchors. -/
structure Document where
  root : LinkedNode
  anchors : Anchors
  deriving Inhabited

namespace Document

def ofNode (node : Node) : Except Fault Document :=
  match node.link .empty with
  | .ok (root, anchors) => .ok ⟨root, anchors⟩
  | .error fault => .error fault

end Document

end LayeredConfig.Yaml
