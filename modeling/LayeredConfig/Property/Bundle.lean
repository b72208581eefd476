/-
This file defines bundles: what reading one resource yields.
-/

import LayeredConfig.Property.Location
import LayeredConfig.Property.Source

namespace LayeredConfig

/-- The sources read from one resource, the strongest first. -/
structure Bundle where
  sources : List Source
  /-- Whether the sources take part only when profiles are known. -/
  profileSpecific : Bool
  deriving DecidableEq, Inhabited, Repr

namespace Bundle

/-- The bundle of a resource with the given documents, in the order in which they are written.

Empty documents yield nothing. A later document is stronger than an earlier one, and when there are
several, each source tells the place of its document. -/
def ofDocuments (resource : Resource) (documents : List (List (String × String))) : Bundle :=
  let name := "Config resource '" ++ resource.id ++ "' via location '" ++ resource.location.text ++ "'"
  let sourceOf := fun (entries, index) =>
    let title := if documents.length > 1 then name ++ " (document #" ++ toString index ++ ")" else name
    (Source.ofPairs title entries).withOrigin resource.id
  { sources := ((documents.zipIdx.filter fun document => !document.1.isEmpty).map sourceOf).reverse
    profileSpecific := resource.profile.isSome }

end Bundle

end LayeredConfig
