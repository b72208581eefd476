/-
This file reads resources that are files, in the properties format and in YAML.

The extension tells the format. A file that has gone since it was found is missing, and may be
ignored like a missing location; any other failure to read it ends the run.
-/

import LayeredConfig.FileSystem
import LayeredConfig.Import.FileFinder
import LayeredConfig.Properties.Document
import LayeredConfig.Yaml.Value

namespace LayeredConfig

open Text

/-- A format of files. -/
structure FileFormat where
  name : String
  extensions : List String
  /-- The documents of a text, or why it has none. -/
  documents : String → Except String (List (List (String × String)))

namespace FileFormat

def properties : FileFormat :=
  { name := "properties"
    extensions := [".properties", ".props"]
    documents := fun text => (Properties.read text).mapError (·.message) }

def yaml : FileFormat :=
  { name := "yaml"
    extensions := [".yaml", ".yml"]
    documents := fun text =>
      match Yaml.readValues text with
      | .ok values => .ok (values.map Yaml.Value.properties)
      | .error fault => .error fault.message }

/-- Whether the name of a resource tells the format, in any case. -/
def takes (format : FileFormat) (resource : Resource) : Bool :=
  format.extensions.any fun extension => endsWith extension (asciiLower resource.id)

/-- The text of a resource that is a file. -/
def textOf (world : World) (resource : Resource) : Except Error String :=
  match resource.path? with
  | none => .error (.unreadable resource.id "only file resources can be read")
  | some path =>
    match world.readText path with
    | .ok text => .ok text
    | .error .missing =>
      .error (.missing resource.location.text (some (path ++ " does not exist")))
    | .error fault => .error (.unreadable resource.id fault.message)

/-- Reads a resource that is a file. -/
def read (world : World) (format : FileFormat) (resource : Resource) : Except Error Bundle := do
  let text ← textOf world resource
  match format.documents text with
  | .ok documents => return Bundle.ofDocuments resource documents
  | .error reason => throw (.unreadable resource.id reason)

/-- The reader of a format as a part of a repository. -/
def asReader (world : World) (format : FileFormat) : Reader :=
  { name := format.name
    takes := format.takes
    read := format.read world }

end FileFormat

namespace Repository

/-- The repository of files under a base directory and some resource roots. -/
def ofFiles (world : World) (baseDirectory : String) (roots : List String)
    (policy : MissingPolicy) : Repository :=
  { finders := [FileFinder.asFinder ⟨world, baseDirectory, roots⟩]
    readers := [FileFormat.properties.asReader world, FileFormat.yaml.asReader world]
    policy := policy
    stepLimit := usualStepLimit }

end Repository

end LayeredConfig
