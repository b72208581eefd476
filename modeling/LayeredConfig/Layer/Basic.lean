/-
This file defines layers: the nodes of the tree that a configuration is resolved in.

A layer holds one source. The initial layers are given by the caller and hang under the root; every
other layer is found through the imports of its parent. A found layer is first bound, which reads
its own imports and its condition, and then expanded, which reads the resources it imports. The
children of a layer are kept apart by the phase that attached them, and a phase that has not come
to a layer yet is not the same as one that found nothing.

Layers are values. To tell apart layers that hold the same, each has a stamp, and every rebuilding
of a layer counts its revision up.
-/

import LayeredConfig.Profile.Condition
import LayeredConfig.Property.View

namespace LayeredConfig

/-- How a layer was found. -/
structure Origin where
  resource : Resource
  /-- Whether the bundle it came in is for one profile. -/
  profileSpecific : Bool
  phase : Phase
  deriving DecidableEq, Inhabited, Repr

/-- What a found source says about itself. -/
structure Declared where
  imports : List Location
  condition : Option Condition
  deriving Inhabited, Repr

/-- What a layer stands for, and how far it has come. -/
inductive Role where
  | root
  | initial (source : Source) (imports : List Location)
  | found (origin : Origin) (source : Source)
  | bound (origin : Origin) (source : Source) (declared : Declared)
  | expanded (origin : Origin) (source : Source) (declared : Declared)
  deriving Inhabited, Repr

namespace Role

/-- The name of the state in a rendered tree. -/
def text : Role → String
  | root => "ROOT"
  | initial .. => "EXISTING"
  | found .. => "UNBOUND_IMPORT"
  | bound .. => "BOUND_IMPORT"
  | expanded .. => "IMPORTED"

def source? : Role → Option Source
  | root => none
  | initial source _ => some source
  | found _ source => some source
  | bound _ source _ => some source
  | expanded _ source _ => some source

def origin? : Role → Option Origin
  | root => none
  | initial .. => none
  | found origin _ => some origin
  | bound origin _ _ => some origin
  | expanded origin _ _ => some origin

/-- The imports that the layer is known to declare; none before it is bound. -/
def imports : Role → List Location
  | initial _ imports => imports
  | bound _ _ declared => declared.imports
  | expanded _ _ declared => declared.imports
  | _ => []

def condition? : Role → Option Condition
  | bound _ _ declared => declared.condition
  | expanded _ _ declared => declared.condition
  | _ => none

def isRoot : Role → Bool
  | root => true
  | _ => false

def isFound : Role → Bool
  | found .. => true
  | _ => false

end Role

/-- A node of the layer tree, with its children by phase; `none` before the phase has come to it. -/
inductive Layer where
  | node (stamp revision : Nat) (role : Role) (before after : Option (List Layer))
  deriving Inhabited, Repr

namespace Layer

def stamp : Layer → Nat
  | node stamp _ _ _ _ => stamp

def revision : Layer → Nat
  | node _ revision _ _ _ => revision

def role : Layer → Role
  | node _ _ role _ _ => role

/-- The children that a phase attached, in the order in which it did. -/
def children : Layer → Phase → Option (List Layer)
  | node _ _ _ before _, .before => before
  | node _ _ _ _ after, .after => after

/-- Whether two values are the same state of the same layer. -/
def isSame (layer other : Layer) : Bool :=
  layer.stamp == other.stamp && layer.revision == other.revision

def source? (layer : Layer) : Option Source :=
  layer.role.source?

def origin? (layer : Layer) : Option Origin :=
  layer.role.origin?

def resource? (layer : Layer) : Option Resource :=
  layer.origin?.map (·.resource)

def imports (layer : Layer) : List Location :=
  layer.role.imports

def condition? (layer : Layer) : Option Condition :=
  layer.role.condition?

/-- The name of the layer in messages. -/
def name (layer : Layer) : String :=
  match layer.source? with
  | some source => source.name
  | none => "root"

def isProfileSpecific (layer : Layer) : Bool :=
  match layer.origin? with
  | some origin => origin.profileSpecific
  | none => false

/-- The value of a property in the layer's own source. -/
def value? (layer : Layer) (name : String) : Option String :=
  layer.source?.bind (·.view.get? name)

/-- Whether the layer's own source declares a name, as a scalar or by an element. -/
def declares (layer : Layer) (name : String) : Bool :=
  match layer.source? with
  | some source => source.view.declares name
  | none => false

/-! ### Activity -/

/-- Whether the resource of a layer is meant for the known profiles. -/
def originActive (known : Option Profiles) (origin : Origin) : Bool :=
  if !origin.profileSpecific && origin.resource.profile.isNone then true
  else
    match known, origin.resource.profile with
    | none, _ => false
    | some _, none => true
    | some profiles, some profile => profiles.accepts profile

/-- Whether the condition of a layer is met by the known profiles. -/
def conditionActive (known : Option Profiles) : Option Condition → Bool
  | none => true
  | some condition =>
    match known with
    | none => false
    | some profiles => condition.isMetBy profiles

/-- Whether the layer takes part, given what is known about profiles.

The root and the initial layers always do, and a layer that is not bound yet never does. -/
def isActive (known : Option Profiles) (layer : Layer) : Bool :=
  match layer.role with
  | .root => true
  | .initial .. => true
  | .found .. => false
  | .bound origin _ declared =>
    originActive known origin && conditionActive known declared.condition
  | .expanded origin _ declared =>
    originActive known origin && conditionActive known declared.condition

/-- Whether the layer declares imports that a phase has not come to. -/
def hasPendingImports (phase : Phase) (layer : Layer) : Bool :=
  !layer.imports.isEmpty && (layer.children phase).isNone

/-! ### Rebuilding -/

/-- The layer with the children that a phase found.

A bound layer is expanded by this, and one that is not bound takes no children. -/
def withChildren (phase : Phase) (found : List Layer) : Layer → Layer
  | node stamp revision role before after =>
    let attach := fun role (before after : Option (List Layer)) =>
      match phase with
      | .before => node stamp (revision + 1) role (some found) after
      | .after => node stamp (revision + 1) role before (some found)
    match role with
    | .found .. => node stamp (revision + 1) role before after
    | .bound origin source declared => attach (.expanded origin source declared) none none
    | _ => attach role before after

/-- The layer in another role, with the children it has. -/
def withRole (role : Role) : Layer → Layer
  | node stamp revision _ before after => node stamp (revision + 1) role before after

end Layer

end LayeredConfig
