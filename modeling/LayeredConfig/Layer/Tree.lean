/-
This file defines the tree of layers, the order in which its layers are consulted, and the
replacement of one layer by another.

A layer comes after everything below it: first the children that were attached when profiles were
known, then the others, and of one list the child attached last comes first. Earlier layers win, so
this order is the order of strength. `Layer.order` states it as a recursion, and `Layer.walk` is the
traversal that runs, with an explicit stack.
-/

import LayeredConfig.Layer.Basic

namespace LayeredConfig

namespace Layer

/-! ### Order -/

mutual

/-- The layer and everything below it, the strongest first. -/
def order : Layer → List Layer
  | node stamp revision role before after =>
    orderPhase after ++ orderPhase before ++ [node stamp revision role before after]

def orderPhase : Option (List Layer) → List Layer
  | none => []
  | some found => orderAll found

/-- Layers attached together, the last one first. -/
def orderAll : List Layer → List Layer
  | [] => []
  | layer :: rest => orderAll rest ++ order layer

end

/-! ### Traversal -/

mutual

/-- The number of layers from a layer downwards. -/
def count : Layer → Nat
  | node _ _ _ before after => countPhase before + countPhase after + 1

def countPhase : Option (List Layer) → Nat
  | none => 0
  | some found => countAll found

def countAll : List Layer → Nat
  | [] => 0
  | layer :: rest => count layer + countAll rest

end

/-- A pending step of a traversal. -/
inductive Step where
  | visit (layer : Layer)
  | emit (layer : Layer)

/-- A bound on the steps that a pending step leads to. -/
def Step.weight : Step → Nat
  | visit layer => 2 * layer.count
  | emit _ => 1

def stackWeight : List Step → Nat
  | [] => 0
  | step :: rest => step.weight + stackWeight rest

/-- The visits to layers attached together, on top of a stack: the last layer is the topmost. -/
def pushAll : List Layer → List Step → List Step
  | [], stack => stack
  | layer :: rest, stack => pushAll rest (.visit layer :: stack)

def pushPhase : Option (List Layer) → List Step → List Step
  | none, stack => stack
  | some found, stack => pushAll found stack

theorem stackWeight_pushAll (layers : List Layer) (stack : List Step) :
    stackWeight (pushAll layers stack) = 2 * countAll layers + stackWeight stack := by
  induction layers generalizing stack with
  | nil => simp [pushAll, countAll]
  | cons layer rest inductionHypothesis =>
    simp only [pushAll, inductionHypothesis, stackWeight, Step.weight, countAll]
    omega

theorem stackWeight_pushPhase (found : Option (List Layer)) (stack : List Step) :
    stackWeight (pushPhase found stack) = 2 * countPhase found + stackWeight stack := by
  cases found with
  | none => simp [pushPhase, countPhase]
  | some layers => simp [pushPhase, countPhase, stackWeight_pushAll]

/-- Takes the steps on a stack: to visit a layer is to visit its children and then to emit it. -/
def walk : List Step → List Layer
  | [] => []
  | .emit layer :: stack => layer :: walk stack
  | .visit (.node stamp revision role before after) :: stack =>
    walk (pushPhase after (pushPhase before
      (.emit (.node stamp revision role before after) :: stack)))
  termination_by stack => stackWeight stack
  decreasing_by
    · simp [stackWeight, Step.weight]
    · simp only [stackWeight_pushPhase, stackWeight, Step.weight, count]
      omega

/-! ### Replacement -/

mutual

/-- The layer with the target below it replaced, if the target is there.

The layers on the way to the target are rebuilt, all others are kept. -/
def replaceIn? (target replacement : Layer) : Layer → Option Layer
  | node stamp revision role before after =>
    let here := node stamp revision role before after
    if here.isSame target then some replacement
    else
      match replaceInPhase? target replacement after with
      | some found => some (here.withChildren .after found)
      | none =>
        match replaceInPhase? target replacement before with
        | some found => some (here.withChildren .before found)
        | none => none

def replaceInPhase? (target replacement : Layer) : Option (List Layer) → Option (List Layer)
  | none => none
  | some found => replaceInAll? target replacement found

def replaceInAll? (target replacement : Layer) : List Layer → Option (List Layer)
  | [] => none
  | layer :: rest =>
    match replaceIn? target replacement layer with
    | some replaced => some (replaced :: rest)
    | none => (replaceInAll? target replacement rest).map (layer :: ·)

end

end Layer

/-! ### Trees -/

/-- A tree of layers; all its stamps are below `nextStamp`. -/
structure LayerTree where
  root : Layer
  nextStamp : Nat
  deriving Inhabited, Repr

namespace LayerTree

/-- Fresh layers with consecutive stamps. -/
def freshLayers (firstStamp : Nat) (roles : List Role) : List Layer :=
  roles.zipIdx.map fun (role, index) => .node (firstStamp + index) 0 role none none

/-- The tree of the given sources, the strongest first; none of them is bound. -/
def ofSources (sources : List Source) : LayerTree :=
  let layers := freshLayers 1 (sources.map fun source => .initial source [])
  ⟨.node 0 0 .root (some layers.reverse) none, sources.length + 1⟩

/-- The layers of the tree, the strongest first and the root last. -/
def layers (tree : LayerTree) : List Layer :=
  Layer.walk [.visit tree.root]

def isEmpty (tree : LayerTree) : Bool :=
  tree.layers.length == 1

/-- The tree with one layer replaced; a layer that is not in the tree changes nothing. -/
def replace (tree : LayerTree) (target replacement : Layer) : LayerTree :=
  { tree with root := (Layer.replaceIn? target replacement tree.root).getD tree.root }

/-- Attaches newly found sources to a layer, as what a phase found. -/
def attach (tree : LayerTree) (target : Layer) (phase : Phase)
    (found : List (Origin × Source)) : LayerTree :=
  let fresh := freshLayers tree.nextStamp (found.map fun (origin, source) => .found origin source)
  let wider := { tree with nextStamp := tree.nextStamp + found.length }
  wider.replace target (target.withChildren phase fresh)

/-- The identities of the resources in the tree. -/
def loaded (tree : LayerTree) : List String :=
  tree.layers.filterMap fun layer => layer.resource?.map (·.id)

end LayerTree

end LayeredConfig
