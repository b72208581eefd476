/-
This file resolves a configuration, and answers questions about a resolved one.

The initial layers are bound and grow until nothing is left to do while profiles are unknown. Then
the profiles are computed, and with them the tree grows again. At the end no layer that depends on
profiles may select profiles, and the layers that take part supply the properties.
-/

import LayeredConfig.Layer.Drawing
import LayeredConfig.Layer.Expansion
import LayeredConfig.Profile.Selection

namespace LayeredConfig

open Text

/-- A resolved configuration. -/
structure Configuration where
  profiles : Profiles
  tree : LayerTree
  deriving Inhabited

/-! ### Resolving -/

namespace LayerTree

/-- The first profile property that a layer declares. -/
def selectingProperty? (layer : Layer) : Option String :=
  PropertyName.selecting.find? layer.declares

/-- Whether a layer depends on profiles, by its bundle or by its condition. -/
def dependsOnProfiles (layer : Layer) : Bool :=
  layer.isProfileSpecific || layer.condition?.isSome

/-- Fails if a layer that depends on profiles declares a profile property. -/
def checkSelecting : List Layer → Except Error Unit
  | [] => .ok ()
  | layer :: rest =>
    if dependsOnProfiles layer then
      match selectingProperty? layer with
      | some property => .error (.misplaced property layer.name)
      | none => checkSelecting rest
    else checkSelecting rest

/-- The sources of the layers that take part, the strongest first. -/
def activeSources (tree : LayerTree) (known : Option Profiles) : List Source :=
  (tree.layers.filter (·.isActive known)).filterMap (·.source?)

end LayerTree

namespace Configuration

def known (configuration : Configuration) : Option Profiles :=
  some configuration.profiles

/-- The sources that supply properties, the strongest first. -/
def sources (configuration : Configuration) : List Source :=
  configuration.tree.activeSources configuration.known

/-- Resolves the given sources, the strongest first. -/
def resolve (repository : Repository) (initial : List Source) (request : ProfileRequest) :
    Run Configuration := do
  let given ← Run.ofExcept (LayerTree.ofBoundSources initial)
  let first ← given.grow repository none
  let second ← first.grow repository none
  let profiles ← Run.ofExcept ((Lookup.overTree second none .strict).computeProfiles request)
  Run.debug ("Computed profiles: " ++ profiles.text)
  let tree ← second.grow repository (some profiles)
  Run.ofExcept (LayerTree.checkSelecting tree.layers)
  let configuration : Configuration := ⟨profiles, tree⟩
  Run.note .info ("Resolved " ++ toString configuration.sources.length ++
    " property source(s); accepted profiles " ++ quotedList profiles.accepted)
  return configuration

/-! ### Asking -/

/-- The lookup that answers questions: the layers that take part are asked. -/
def lookup (configuration : Configuration) : Lookup :=
  Lookup.overTree configuration.tree configuration.known .active

def get (configuration : Configuration) (name : String) : Except Error (Option String) :=
  configuration.lookup.get name

def getList (configuration : Configuration) (name : String) :
    Except Error (Option (List String)) :=
  configuration.lookup.getList name

/-- Where the value of a property comes from. -/
structure Explanation where
  property : String
  value : String
  /-- The value as it is written in the source. -/
  rawValue : String
  source : String
  origin : Option String
  location : Option String
  resource : Option String
  profile : Option String
  phase : Option Phase
  deriving DecidableEq, Inhabited, Repr

/-- The explanation of a value that a layer supplies. -/
def explanation (layer : Layer) (property value rawValue : String) : Explanation :=
  { property, value, rawValue
    source := layer.name
    origin := layer.source?.bind (·.origin)
    location := layer.resource?.map (·.location.text)
    resource := layer.resource?.map (·.id)
    profile := layer.resource?.bind (·.profile)
    phase := layer.origin?.map (·.phase) }

/-- The elements that a layer holds of a list property, as one text. -/
def rawElements (view : View) (name : String) : String :=
  String.intercalate "," ((List.range (view.elementCount name)).filterMap (view.element? name))

/-- Explains a property; a list written by elements is told as one text with commas. -/
def explain (configuration : Configuration) (name : String) :
    Except Error (Option Explanation) :=
  match configuration.lookup.provider? name with
  | none => .ok none
  | some layer =>
    match layer.value? name with
    | some raw => do
      let value ← configuration.lookup.get name
      return some (explanation layer name (value.getD raw) raw)
    | none => do
      let raw := match layer.source? with
        | some source => rawElements source.view name
        | none => ""
      let items ← configuration.lookup.getList name
      let value := match items with
        | some items => String.intercalate "," items
        | none => raw
      return some (explanation layer name value raw)

/-! ### Listing -/

/-- A property in force. -/
structure Effective where
  name : String
  value : String
  source : String
  deriving DecidableEq, Inhabited, Repr

/-- The first spelling of every name, with the source it stands in, in order of strength. -/
def firstSpellings (seen : List String) : List (String × String) → List (String × String)
  | [] => []
  | (name, source) :: rest =>
    if seen.contains (canonical name) then firstSpellings seen rest
    else (name, source) :: firstSpellings (canonical name :: seen) rest

def effectiveOf (lookup : Lookup) : List (String × String) → Except Error (List Effective)
  | [] => .ok []
  | (name, source) :: rest => do
    let value ← lookup.get name
    let others ← effectiveOf lookup rest
    return ⟨name, value.getD "", source⟩ :: others

/-- Every property in force, sorted by name; spellings of one name count once. -/
def effective (configuration : Configuration) : Except Error (List Effective) := do
  let declared := configuration.sources.flatMap fun source =>
    source.entries.map fun entry => (entry.1, source.name)
  let properties ← effectiveOf configuration.lookup (firstSpellings [] declared)
  return properties.mergeSort fun first second => decide (first.name ≤ second.name)

/-- The final tree as text. -/
def draw (configuration : Configuration) : String :=
  configuration.tree.draw configuration.known

end Configuration

end LayeredConfig
