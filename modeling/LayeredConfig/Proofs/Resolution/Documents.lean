/-
This file says how the documents of a resource stand in the tree.

Empty documents are left out. The others are listed in a bundle from the last one to the first, they
are attached from the first one to the last, and the children of a layer are visited from the last
one to the first. So in the order of the tree the last document comes first, and each keeps the
number that it has among all of them. Of the documents that take part, the last one that declares a
property is the one to supply it.
-/

import LayeredConfig.Import.FileReader
import LayeredConfig.Proofs.Import.Searching
import LayeredConfig.Proofs.Property.Settling
import LayeredConfig.Proofs.Resolution.Reach

namespace LayeredConfig

/-! ### The sources of a bundle -/

namespace Bundle

/-- The name of the source of a document: if there are several, it tells the number of this one. -/
def documentName (resource : Resource) (total index : Nat) : String :=
  let base :=
    "Config resource '" ++ resource.id ++ "' via location '" ++ resource.location.text ++ "'"
  if 1 < total then base ++ " (document #" ++ toString index ++ ")" else base

/-- The source of a document, given with its number. -/
def sourceOf (resource : Resource) (total : Nat) (document : List (String × String) × Nat) :
    Source :=
  (Source.ofPairs (documentName resource total document.2) document.1).withOrigin resource.id

/-- The documents that are not empty, with their numbers, the last one first. -/
def kept (documents : List (List (String × String))) : List (List (String × String) × Nat) :=
  (documents.zipIdx.filter fun document => !document.1.isEmpty).reverse

variable {documents : List (List (String × String))}

end Bundle

/-! ### Documents in layers -/

/-- A layer, and the document that it is for. -/
structure HeldDocument where
  layer : Layer
  index : Nat
  pairs : List (String × String)

namespace HeldDocument

def document (held : HeldDocument) : List (String × String) × Nat :=
  (held.pairs, held.index)

/-- The layer holds the document of a resource that has as many documents as given. -/
structure Matches (held : HeldDocument) (resource : Resource) (total : Nat) : Prop where
  found : held.layer.resource? = some resource
  specific : held.layer.isProfileSpecific = resource.profile.isSome
  named : held.layer.name = Bundle.documentName resource total held.index
  /-- Each key stands where it first comes in the document, with the value that comes last. -/
  holds : ∃ source, held.layer.source? = some source ∧ source.origin = some resource.id ∧
    source.keys = (held.pairs.map Prod.fst).eraseDups ∧
    ∀ key, source.get? key = held.pairs.reverse.lookup key

variable {held : HeldDocument} {resource : Resource} {total : Nat}

end HeldDocument

namespace LayerTree

variable {tree : LayerTree} {resource : Resource} {documents : List (List (String × String))}

end LayerTree

/-! ### Along a resolution -/

namespace Configuration

open LayerTree

variable {repository : Repository} {initial : List Source} {request : ProfileRequest}
  {known : Option Profiles} {tree : LayerTree} {loads : List (Resource × Bundle)}

/-- All that was loaded is what reading its resource comes to. -/
theorem Reaches.read (reached : Reaches repository initial request known tree loads) :
    ∀ load ∈ loads, (repository.readOne load.1).outcome = .ok (some load.2) := by
  induction reached with
  | start => exact nofun
  | @step known tree next layer loads reached selected worked inductionHypothesis =>
    intro load member
    rcases List.mem_append.mp member with isOld | isNew
    · exact inductionHypothesis load isOld
    · cases isFound : layer.role.isFound with
      | true =>
        rw [loads_work_of_found isFound] at isNew
        cases isNew
      | false =>
        rw [loads_work_of_ready isFound, loads_gatherFor] at isNew
        exact Repository.outcome_of_gather _ _ load isNew
  | learn _ _ _ inductionHypothesis => exact inductionHypothesis

end Configuration

end LayeredConfig
