import LayeredConfig.Main
import LayeredConfig.Path.Raw
import LayeredConfig.Proofs.Layer.Entry
import LayeredConfig.Proofs.Layer.Replacement
import LayeredConfig.Proofs.Import.Gathering
import LayeredConfig.Proofs.Growth.Step
import LayeredConfig.Proofs.Growth.Start
import LayeredConfig.Proofs.Growth.Mark
import LayeredConfig.Proofs.Resolution.Reach
import LayeredConfig.Proofs.Property.Pairs
import LayeredConfig.Proofs.Path.Turns
import LayeredConfig.Proofs.Path.Parent
import LayeredConfig.Proofs.CommandLine.Assignments
import LayeredConfig.Proofs.Resolution.Front
import LayeredConfig.Proofs.Import.Table
import LayeredConfig.Proofs.Lookup.Failure
import LayeredConfig.Proofs.Resolution.Termination
import LayeredConfig.Proofs.Lookup.Refusal
import LayeredConfig.Proofs.Resolution.Reading
import LayeredConfig.Proofs.Resolution.Holding
import LayeredConfig.Proofs.Layer.Activity
import LayeredConfig.Proofs.Live.Exhaustion
import LayeredConfig.Proofs.Import.Searching
import LayeredConfig.Proofs.Resolution.ImportOrder
import LayeredConfig.Proofs.Live.Dialogue
import LayeredConfig.Proofs.Live.Repository
import LayeredConfig.Proofs.Live.Resolution
import LayeredConfig.Proofs.Live.Loading
import LayeredConfig.Proofs.Live.Expansion
import LayeredConfig.Proofs.Live.SingleReading
import LayeredConfig.Proofs.Live.Placement
import LayeredConfig.Proofs.Live.Precedence
import LayeredConfig.Proofs.Live.TwoParts
import LayeredConfig.Proofs.Lookup.SourceList
import LayeredConfig.Proofs.Lookup.Explanation
import LayeredConfig.Proofs.Live.Completion
import LayeredConfig.Proofs.Live.Selecting
import LayeredConfig.Proofs.Import.Steady
import LayeredConfig.Proofs.Resolution.Rereading
import LayeredConfig.Proofs.Live.Activation
import LayeredConfig.Proofs.Lookup.Depth
import LayeredConfig.Proofs.Lookup.Meaning
import LayeredConfig.Proofs.Lookup.Circle
import LayeredConfig.Proofs.Live.Missing
import LayeredConfig.Proofs.Live.Failing
import LayeredConfig.Proofs.Veil.Steering
import LayeredConfig.Proofs.Veil.Tree
import LayeredConfig.Proofs.Veil.Binding
import LayeredConfig.Proofs.Veil.Growth
import LayeredConfig.Proofs.Veil.Resolution
import LayeredConfig.Proofs.FileSystem.Walk
import LayeredConfig.Proofs.Settings.Anchoring
import LayeredConfig.Proofs.Import.Identity
import LayeredConfig.Proofs.Resolution.Origin
import LayeredConfig.Proofs.Settings.Identity
import LayeredConfig.Proofs.Settings.Acceptance
import LayeredConfig.Proofs.CommandLine.Validation
import LayeredConfig.Proofs.Settings.Layers
import LayeredConfig.Proofs.Profile.Lexing
import LayeredConfig.Proofs.Profile.Grammar
import LayeredConfig.Proofs.Profile.Reading
import LayeredConfig.Proofs.Profile.Writing
import LayeredConfig.Proofs.Live.Gathering
import LayeredConfig.Proofs.Text.Trimming
import LayeredConfig.Proofs.Live.Omission
import LayeredConfig.Proofs.Profile.Choice
import LayeredConfig.Proofs.Lookup.Listing
import LayeredConfig.Proofs.Property.Indexing
import LayeredConfig.Proofs.Lookup.Elements
import LayeredConfig.Proofs.Layer.Substitution
import LayeredConfig.Proofs.Properties.ReadingBack
import LayeredConfig.Proofs.Growth.Separate
import LayeredConfig.Proofs.Lookup.AsWritten
import LayeredConfig.Proofs.Properties.LogicalLines
import LayeredConfig.Proofs.Properties.Escapes
import LayeredConfig.Proofs.Property.Settling
import LayeredConfig.Proofs.Resolution.Documents
import LayeredConfig.Proofs.Yaml.Flattening
import LayeredConfig.Proofs.Settings.Grouping
import LayeredConfig.Proofs.Settings.InitialImports
import LayeredConfig.Proofs.Profile.NameList
import LayeredConfig.Proofs.Import.Containment
import LayeredConfig.Proofs.Text.LowerCase
import LayeredConfig.Proofs.Property.Canonical
import LayeredConfig.Proofs.Property.Spelling
import LayeredConfig.Proofs.Path.Climbing
import LayeredConfig.Proofs.Settings.Nearest
import LayeredConfig.Proofs.Property.Location
import LayeredConfig.Proofs.Lookup.Parts
import LayeredConfig.Proofs.Layer.Traversal
