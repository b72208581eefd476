/-
This file defines the relaxed view of a source: its properties by canonical name.

Where several keys of a source have one canonical name, the first of them wins. A list property is
spelled either as one scalar or as elements `name[0]`, `name[1]`, and so on; the view counts the
keys that read as an element of a name, whether or not they run without a gap.
-/

import LayeredConfig.Property.Name
import LayeredConfig.Property.Source

namespace LayeredConfig

open Text

/-- The properties of a source by canonical name, each name once. -/
structure View where
  values : List (String × String)
  deriving DecidableEq

namespace View

/-- The first pair of each name that is not among the ones seen. -/
def firstOfEach (seen : List String) : List (String × String) → List (String × String)
  | [] => []
  | entry :: rest =>
    if seen.contains entry.1 then firstOfEach seen rest
    else entry :: firstOfEach (entry.1 :: seen) rest

def ofEntries (entries : List (String × String)) : View :=
  ⟨firstOfEach [] (entries.map fun (key, value) => (canonical key, value))⟩

def names (view : View) : List String :=
  view.values.map Prod.fst

/-- The value of a name in any spelling. -/
def get? (view : View) (name : String) : Option String :=
  view.values.lookup (canonical name)

/-- A value that is looked up stands with its name among the values. -/
theorem mem_of_lookup {values : List (String × String)} {name value : String}
    (found : values.lookup name = some value) : (name, value) ∈ values := by
  obtain ⟨before, after, split, _⟩ := List.lookup_eq_some_iff.mp found
  rw [split]
  exact List.mem_append_right _ List.mem_cons_self

def contains (view : View) (name : String) : Bool :=
  (view.get? name).isSome

/-- The value of element `index` of a list property. -/
def element? (view : View) (name : String) (index : Nat) : Option String :=
  view.values.lookup (elementName (canonical name) index)

/-- A plain decimal number of at most 64 bits; one plus sign may stand before it. -/
def readIndex? (text : List Char) : Option Nat :=
  let digits := match text with
    | '+' :: rest => rest
    | chars => chars
  if digits.isEmpty || !digits.all Char.isDigit then none
  else
    let value := digits.foldl (fun total digit => total * 10 + (digit.toNat - '0'.toNat)) 0
    if value < 0x10000000000000000 then some value else none

/-- Whether a canonical key reads as an element of a canonical name. -/
def isElementOf (name key : String) : Bool :=
  match after? (name.toList ++ ['[']) key.toList with
  | none => false
  | some rest =>
    match cutOnce? ']' rest with
    | some (index, []) => (readIndex? index).isSome
    | _ => false

/-- The number of keys that read as elements of a list property. -/
def elementCount (view : View) (name : String) : Nat :=
  (view.names.filter (isElementOf (canonical name))).length

def hasElements (view : View) (name : String) : Bool :=
  view.names.any (isElementOf (canonical name))

/-- Whether the view declares a name, as a scalar or by an element. -/
def declares (view : View) (name : String) : Bool :=
  view.contains name || view.hasElements name

end View

namespace Source

def view (source : Source) : View :=
  View.ofEntries source.entries

end Source

end LayeredConfig
