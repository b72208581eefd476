/-
This file defines property sources: named, ordered lists of properties.

A source holds each exact key once, at the place where the key first came, with the value that came
last. Sources are searched through their relaxed view (`Property/View.lean`), never by exact key.
-/

namespace LayeredConfig

/-- A named, ordered list of properties, with a note of where they came from. -/
structure Source where
  name : String
  origin : Option String
  entries : List (String × String)
  deriving DecidableEq, Inhabited, Repr

namespace Source

/-- Sets a key: in place if it is there already, else at the end. -/
def put (key value : String) : List (String × String) → List (String × String)
  | [] => [(key, value)]
  | entry :: rest => if entry.1 = key then (key, value) :: rest else entry :: put key value rest

def empty (name : String) : Source :=
  ⟨name, none, []⟩

/-- Sets a property of the source. -/
def insert (source : Source) (key value : String) : Source :=
  { source with entries := put key value source.entries }

/-- The source of a list of pairs, set one after the other. -/
def ofPairs (name : String) (pairs : List (String × String)) : Source :=
  pairs.foldl (fun source pair => source.insert pair.1 pair.2) (empty name)

def withOrigin (source : Source) (origin : String) : Source :=
  { source with origin := some origin }

/-- The value of an exact key. -/
def get? (source : Source) (key : String) : Option String :=
  source.entries.lookup key

def keys (source : Source) : List String :=
  source.entries.map Prod.fst

end Source

end LayeredConfig
