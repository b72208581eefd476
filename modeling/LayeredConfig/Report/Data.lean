/-
This file defines the data that commands report in a machine-readable form.
-/

namespace LayeredConfig

/-- Texts, lists, and fields in the order in which they are written. -/
inductive Data where
  | text (content : String)
  | items (members : List Data)
  | fields (members : List (String × Data))
  deriving Inhabited, Repr

namespace Data

def texts (contents : List String) : Data :=
  items (contents.map text)

/-- The field of a text, unless there is none. -/
def textField? (name : String) : Option String → List (String × Data)
  | none => []
  | some content => [(name, text content)]

end Data

end LayeredConfig
