/-
This file words what the commands print about a resolved configuration.
-/

import LayeredConfig.Configuration
import LayeredConfig.Report.Json
import LayeredConfig.Report.Yaml

namespace LayeredConfig

namespace Configuration

/-! ### The properties in force -/

/-- A comment with the accepted profiles, which stands above the properties. -/
def profilesLine (configuration : Configuration) : String :=
  "# profiles: " ++ String.intercalate ", " configuration.profiles.accepted

def Effective.line (property : Effective) : String :=
  property.name ++ "=" ++ property.value

def profilesData (profiles : Profiles) : Data :=
  .fields
    [("active", .texts profiles.active), ("default", .texts profiles.fallback),
     ("accepted", .texts profiles.accepted)]

def sourceData (source : Source) : Data :=
  .fields ([("name", .text source.name)] ++ Data.textField? "origin" source.origin ++
    [("properties", .fields (source.entries.map fun entry => (entry.1, .text entry.2)))])

/-- The resolved properties as data, with the sources as they were read if these are asked for. -/
def propertiesData (configuration : Configuration) (properties : List Effective)
    (withSources : Bool) : Data :=
  .fields
    ([("profiles", profilesData configuration.profiles),
      ("properties", .fields (properties.map fun property =>
        (property.name, .text property.value)))] ++
      if withSources then [("property_sources", .items (configuration.sources.map sourceData))]
      else [])

/-! ### Explanations -/

namespace Explanation

/-- The column at which the values of an explanation begin. -/
def valueColumn : Nat := 10

/-- A line of an explanation. -/
def labelled (label value : String) : String :=
  let mark := label ++ ":"
  mark ++ String.ofList (List.replicate (valueColumn - mark.length) ' ') ++ value

def labelled? (label : String) : Option String → List String
  | none => []
  | some value => [labelled label value]

/-- The lines of an explanation; the raw value is told if it is not the value. -/
def lines (explanation : Explanation) : List String :=
  [labelled "property" explanation.property, labelled "value" explanation.value] ++
    (if explanation.rawValue = explanation.value then []
      else [labelled "raw" explanation.rawValue]) ++
    [labelled "source" explanation.source] ++ labelled? "origin" explanation.origin ++
    labelled? "location" explanation.location ++ labelled? "resource" explanation.resource ++
    labelled? "profile" explanation.profile ++
    labelled? "phase" (explanation.phase.map (·.text))

def data (explanation : Explanation) : Data :=
  .fields
    ([("property", .text explanation.property), ("value", .text explanation.value),
      ("raw_value", .text explanation.rawValue), ("source", .text explanation.source)] ++
      Data.textField? "origin" explanation.origin ++
      Data.textField? "location" explanation.location ++
      Data.textField? "resource" explanation.resource ++
      Data.textField? "profile" explanation.profile ++
      Data.textField? "phase" (explanation.phase.map (·.text)))

end Explanation

/-! ### The sources in order -/

/-- The lines that list the sources, the strongest first and numbered from one. -/
def sourceLines (configuration : Configuration) : List String :=
  "Property sources (highest precedence first):" ::
    configuration.sources.zipIdx.map fun (source, index) =>
      "  " ++ toString (index + 1) ++ ". " ++ source.name

end Configuration

end LayeredConfig
