/-
This file looks up properties in the layers of a tree.

The first layer that declares a name supplies it. A lookup can be confined to the layers that take
part, can refuse a name that a layer without part declares, and can be focused on one layer: then
only that layer is asked for the property, and the others are asked for what its placeholders name.
-/

import LayeredConfig.Layer.Tree
import LayeredConfig.Lookup.Placeholder

namespace LayeredConfig

open Text

/-- How a lookup treats the layers that take no part. -/
structure LookupRule where
  /-- Whether only the layers that take part are asked. -/
  activeOnly : Bool
  /-- Whether a name that a layer without part declares is refused. -/
  rejectInactive : Bool
  deriving DecidableEq, Inhabited, Repr

namespace LookupRule

/-- Asks the layers that take part. -/
def active : LookupRule := ⟨true, false⟩

/-- Asks all layers. -/
def unrestricted : LookupRule := ⟨false, false⟩

/-- Refuses what a layer without part declares. -/
def strict : LookupRule := ⟨true, true⟩

/-- Whether layers without part are passed over in silence. -/
def passesOver (rule : LookupRule) : Bool :=
  rule.activeOnly && !rule.rejectInactive

end LookupRule

/-- A way to ask for properties. -/
structure Lookup where
  /-- The layers, the strongest first. -/
  layers : List Layer
  /-- What is known about profiles. -/
  known : Option Profiles
  rule : LookupRule
  focus : Option Layer
  deriving Inhabited

namespace Lookup

/-- A lookup in the whole tree. -/
def overTree (tree : LayerTree) (known : Option Profiles) (rule : LookupRule) : Lookup :=
  ⟨tree.layers, known, rule, none⟩

/-- A lookup of the properties of one layer. -/
def ofLayer (tree : LayerTree) (layer : Layer) (known : Option Profiles) : Lookup :=
  ⟨tree.layers, known, .active, some layer⟩

/-! ### The layers that are asked -/

/-- Whether a layer holds a source and takes part. -/
def isActiveSource (lookup : Lookup) (layer : Layer) : Bool :=
  layer.source?.isSome && layer.isActive lookup.known

/-- The layers that are asked for a property. -/
def candidates (lookup : Lookup) : List Layer :=
  match lookup.focus with
  | some focus => [focus]
  | none =>
    lookup.layers.filter fun layer =>
      layer.source?.isSome && (!lookup.rule.passesOver || layer.isActive lookup.known)

/-- The layers that are asked for the name in a placeholder. -/
def placeholderCandidates (lookup : Lookup) : List Layer :=
  match lookup.focus with
  | some focus =>
    focus :: lookup.layers.filter fun layer =>
      !layer.isSame focus && lookup.isActiveSource layer
  | none => lookup.candidates

/-! ### Values -/

/-- Refuses a name that a layer without part declares, if the rule says so. -/
def checkInactive (lookup : Lookup) (name : String) : Except Error Unit :=
  if lookup.focus.isSome || !lookup.rule.rejectInactive then .ok ()
  else
    match lookup.layers.find? fun layer =>
        !layer.isActive lookup.known && layer.declares name with
    | some layer => .error (.inactive name layer.name)
    | none => .ok ()

/-- The raw value of a name in a placeholder. -/
def findInPlaceholder (lookup : Lookup) (name : String) : Except Error (Option String) :=
  match lookup.placeholderCandidates.findSome? (·.value? name) with
  | none => .ok none
  | some raw => (lookup.checkInactive name).map fun _ => some raw

/-- The canonical names that a placeholder can lead to. -/
def declaredNames (lookup : Lookup) : List String :=
  lookup.placeholderCandidates.flatMap fun layer =>
    match layer.source? with
    | some source => source.view.names
    | none => []

/-- The raw value of a property with its placeholders expanded. -/
def expanded (lookup : Lookup) (name raw : String) : Except Error String :=
  if Placeholder.occursIn raw then
    Placeholder.valueOf lookup.findInPlaceholder lookup.declaredNames name raw
  else .ok raw

/-- The value of a property. -/
def get (lookup : Lookup) (name : String) : Except Error (Option String) :=
  match lookup.candidates.findSome? (·.value? name) with
  | none => .ok none
  | some raw => do
    lookup.checkInactive name
    let value ← lookup.expanded name raw
    return some value

/-! ### Lists -/

/-- The items of a list that is written as one scalar. -/
def itemsOfScalar (value : String) : List String :=
  if isBlankText value then [] else (cut ',' value).map trimmed

/-- The failure of a list that lacks an element between two others. -/
def gapIn (layer : Layer) (name : String) (index : Nat) : Error :=
  .unbound name ("list elements in '" ++ layer.name ++ "' are not contiguous: '" ++
    elementName name index ++ "' is missing")

/-- The elements of a list property in one layer, from `index` on. -/
def elementsFrom (lookup : Lookup) (layer : Layer) (view : View) (name : String) :
    Nat → Nat → Except Error (List String)
  | _, 0 => .ok []
  | index, remaining + 1 =>
    match view.element? name index with
    | none => .error (gapIn layer name index)
    | some raw => do
      let item ← lookup.expanded (elementName name index) raw
      let rest ← lookup.elementsFrom layer view name (index + 1) remaining
      return item :: rest

/-- The value of a list property in the first of the given layers that declares it. -/
def listIn (lookup : Lookup) (name : String) : List Layer → Except Error (Option (List String))
  | [] => .ok none
  | layer :: rest =>
    match layer.source? with
    | none => lookup.listIn name rest
    | some source =>
      let view := source.view
      match view.get? name with
      | some raw => do
        lookup.checkInactive name
        let value ← lookup.expanded name raw
        return some (itemsOfScalar value)
      | none =>
        if view.hasElements name then do
          lookup.checkInactive name
          let items ← lookup.elementsFrom layer view name 0 (view.elementCount name)
          return some items
        else lookup.listIn name rest

/-- The value of a list property: a scalar cut at its commas, or the elements in order. -/
def getList (lookup : Lookup) (name : String) : Except Error (Option (List String)) :=
  lookup.listIn name lookup.candidates

/-- The layer that supplies a property. -/
def provider? (lookup : Lookup) (name : String) : Option Layer :=
  lookup.candidates.find? (·.declares name)

end Lookup

end LayeredConfig
