/-
This file lists the ways in which resolving a configuration fails, and words each of them.

A missing location is the one failure that a run may survive, so it is never wrapped. Any other
failure of an import is wrapped once, with the name of the layer whose imports were being read.
-/

import LayeredConfig.Property.Location
import LayeredConfig.Property.Name

namespace LayeredConfig

/-- A cause of failure. -/
inductive Error where
  /-- Nothing was found at a location. -/
  | missing (location : String) (reason : Option String)
  /-- No finder or reader takes a location. -/
  | unsupported (location reason : String)
  /-- The value of a property has not the shape that is asked of it. -/
  | unbound (property reason : String)
  /-- A layer that takes no part declares a property. -/
  | inactive (property layer : String)
  /-- Placeholders lead back to a property that is being expanded. -/
  | cycle (chain : List String)
  /-- A layer that depends on profiles selects profiles. -/
  | misplaced (property layer : String)
  /-- A resource cannot be read. -/
  | unreadable (resource reason : String)
  /-- Reading the imports of a layer failed. -/
  | imported (layer : String) (cause : Error)
  /-- A finder or reader failed in a way of its own. -/
  | foreign (location reason : String)
  | badSetting (field reason : String)
  | badPath (path reason : String)
  | badDocument (reason : String)
  | inputOutput (reason : String)
  /-- A phase did not end within the steps it was given. -/
  | unfinished (steps : Nat)
  deriving DecidableEq, Inhabited, Repr

namespace Error

/-- The text of an error, on which users and scripts rely. -/
def message : Error → String
  | missing location reason =>
    "config location not found: " ++ location ++
      (match reason with
        | none => ""
        | some detail => " (" ++ detail ++ ")")
  | unsupported location reason => "unsupported config location '" ++ location ++ "': " ++ reason
  | unbound property reason => "failed to bind property '" ++ property ++ "': " ++ reason
  | inactive property layer =>
    "inactive property source '" ++ layer ++ "' cannot contain property '" ++ property ++ "'"
  | cycle chain => "circular placeholder reference: " ++ String.intercalate " -> " chain
  | misplaced property layer =>
    "property '" ++ property ++ "' is invalid in profile-specific source '" ++ layer ++ "'"
  | unreadable resource reason => "failed to load '" ++ resource ++ "': " ++ reason
  | imported layer cause => "import from '" ++ layer ++ "' failed: " ++ cause.message
  | foreign location reason => location ++ ": " ++ reason
  | badSetting field reason => "validation error for '" ++ field ++ "': " ++ reason
  | badPath path reason => "invalid path " ++ path ++ ": " ++ reason
  | badDocument reason => "configuration error: " ++ reason
  | inputOutput reason => "I/O error: " ++ reason
  | unfinished steps => "resolution did not end after " ++ toString steps ++ " step(s)"

/-- Whether the failure is a missing location. -/
def isMissing : Error → Bool
  | missing .. => true
  | imported _ cause => cause.isMissing
  | _ => false

def isCycle : Error → Bool
  | cycle _ => true
  | _ => false

def isInactive : Error → Bool
  | inactive .. => true
  | _ => false

/-- The failure of an import, told with the layer that asked for it. -/
def inLayer (layer : String) : Error → Error
  | missing location reason => missing location reason
  | imported inner cause => imported inner cause
  | other => imported layer other

/-- The messages of an error and of the causes below it, outermost first. -/
def trail (error : Error) : List String :=
  error.message :: match error with
    | imported _ cause => cause.trail
    | foreign _ reason => [reason]
    | badDocument reason => [reason]
    | inputOutput reason => [reason]
    | _ => []

end Error

namespace Location

/-- Reads a declared location, and fails on one that is empty. -/
def read (declared : String) : Except Error Location :=
  match read? declared with
  | some location => .ok location
  | none => .error (.unbound PropertyName.imports ("empty import location '" ++ declared ++ "'"))

end Location

end LayeredConfig
