/-
This file lets a layer tree grow until nothing is left to do in a phase.

The strongest layer that needs work is taken first: a layer that is not bound is bound, and a layer
that takes part has its imports read, if the phase has not come to it yet. What was read becomes the
layer's children. Every step is counted; the repository sets the number at which a phase is given
up, since the finders of a repository may lead to ever new resources.
-/

import LayeredConfig.Import.Repository
import LayeredConfig.Lookup.Basic

namespace LayeredConfig

open Text

/-! ### Binding -/

namespace Lookup

def readLocations : List String → Except Error (List Location)
  | [] => .ok []
  | declared :: rest => do
    let location ← Location.read declared
    let others ← readLocations rest
    return location :: others

/-- The imports that a layer declares. -/
def getImports (lookup : Lookup) : Except Error (List Location) := do
  let declared ← lookup.getList PropertyName.imports
  readLocations (declared.getD [])

/-- The condition that a layer declares; a blank one is none. -/
def getCondition (lookup : Lookup) : Except Error (Option Condition) := do
  match ← lookup.get PropertyName.condition with
  | none => return none
  | some text => if isBlankText text then return none else return some (← Condition.read text)

def getDeclared (lookup : Lookup) : Except Error Declared := do
  let condition ← lookup.getCondition
  let imports ← lookup.getImports
  return ⟨imports, condition⟩

end Lookup

namespace Layer

/-- The layer with what its source says about itself; an initial layer has only imports. -/
def bind (lookup : Lookup) (layer : Layer) : Except Error Layer :=
  match layer.role with
  | .initial source _ => do
    let imports ← lookup.getImports
    return layer.withRole (.initial source imports)
  | .found origin source => do
    let declared ← lookup.getDeclared
    return layer.withRole (.bound origin source declared)
  | other => .ok (layer.withRole other)

end Layer

namespace LayerTree

/-- The tree with one of its layers bound. -/
def bindLayer (tree : LayerTree) (known : Option Profiles) (layer : Layer) :
    Except Error LayerTree := do
  let bound ← layer.bind (Lookup.ofLayer tree layer known)
  return tree.replace layer bound

def bindLayers (tree : LayerTree) : List Layer → Except Error LayerTree
  | [] => .ok tree
  | layer :: rest => do
    let next ← tree.bindLayer none layer
    next.bindLayers rest

/-- The tree of the given sources, the strongest first, with the imports of each bound. -/
def ofBoundSources (sources : List Source) : Except Error LayerTree :=
  let tree := ofSources sources
  tree.bindLayers (tree.layers.filter fun layer => !layer.role.isRoot)

/-! ### Growing -/

/-- Whether a layer needs work in the phase of the known profiles. -/
def needsWork (known : Option Profiles) (layer : Layer) : Bool :=
  layer.role.isFound ||
    (layer.isActive known && layer.hasPendingImports (Phase.ofKnown known))

/-- The strongest layer that needs work. -/
def next? (tree : LayerTree) (known : Option Profiles) : Option Layer :=
  tree.layers.find? (needsWork known)

/-- What reading the imports of a layer found, the strongest last. -/
def childrenOf (phase : Phase) (gathered : List (Resource × Bundle)) : List (Origin × Source) :=
  gathered.flatMap fun (resource, bundle) =>
    bundle.sources.reverse.map fun source => (⟨resource, bundle.profileSpecific, phase⟩, source)

/-- Reads the imports of a layer. -/
def gatherFor (repository : Repository) (known : Option Profiles) (tree : LayerTree)
    (layer : Layer) : Run (List (Resource × Bundle)) := do
  let phase := Phase.ofKnown known
  Run.trace ("Processing imports " ++ quotedList (layer.imports.map Location.text) ++ " of " ++
    layer.name ++ " (" ++ phase.text ++ ")")
  repository.gather ⟨layer.resource?, known⟩ layer.imports tree.loaded

/-- Does the work that a layer needs. -/
def work (repository : Repository) (known : Option Profiles) (tree : LayerTree)
    (layer : Layer) : Run LayerTree := do
  if layer.role.isFound then
    Run.trace ("Binding " ++ layer.name)
    Run.ofExcept (tree.bindLayer known layer)
  else
    match ← Run.attempt (gatherFor repository known tree layer) with
    | .error cause => Run.fail (cause.inLayer layer.name)
    | .ok gathered =>
      let phase := Phase.ofKnown known
      return tree.attach layer phase (childrenOf phase gathered)

/-- Grows a tree; `done` steps were taken, and `remaining` may still be. -/
def growFrom (repository : Repository) (known : Option Profiles) :
    (done remaining : Nat) → LayerTree → Run LayerTree
  | done, remaining, tree =>
    match tree.next? known with
    | none => do
      Run.debug ("Completed " ++ (Phase.ofKnown known).text ++ " after " ++ toString done ++
        " step(s)")
      return tree
    | some layer =>
      match remaining with
      | 0 => Run.fail (.unfinished done)
      | remaining + 1 => do
        let next ← work repository known tree layer
        growFrom repository known (done + 1) remaining next

/-- Grows a tree until no layer needs work in the phase of the known profiles. -/
def grow (repository : Repository) (known : Option Profiles) (tree : LayerTree) : Run LayerTree :=
  growFrom repository known 0 repository.stepLimit tree

end LayerTree

end LayeredConfig
