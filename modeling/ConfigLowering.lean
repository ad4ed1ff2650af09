import ConfigLowering.Imports
import ConfigLowering.Arguments
import ConfigLowering.Buildable
import ConfigLowering.Graph
import ConfigLowering.Path
import ConfigLowering.Text.Printable
import ConfigLowering.Text.Quoted
import ConfigLowering.Transformer
import ConfigLowering.Walk
import ConfigLowering.Expansion
import ConfigLowering.Fixture
import ConfigLowering.Message
import ConfigLowering.Registration
import ConfigLowering.Substitution
import ConfigLowering.Decimal.Layout
import ConfigLowering.Text.Scanner
import ConfigLowering.Decimal.Literal
import ConfigLowering.Json
import ConfigLowering.Json.Printing
import ConfigLowering.Json.Reading
import ConfigLowering.Document
import ConfigLowering.Document.Building
import ConfigLowering.Document.Codec
import ConfigLowering.FileTree
import ConfigLowering.Workspace
import ConfigLowering.Settings
import ConfigLowering.Settings.Codec
import ConfigLowering.Settings.File
import ConfigLowering.Settings.Loader
import ConfigLowering.CommandLine.Execution
import ConfigLowering.Main
import ConfigLowering.Proofs.Arguments
import ConfigLowering.Proofs.Checks
import ConfigLowering.Proofs.Graph.Search
import ConfigLowering.Proofs.Graph.Building
import ConfigLowering.Proofs.Graph.Mirror
import ConfigLowering.Proofs.Graph.Invariant
import ConfigLowering.Proofs.Graph.Assignment
import ConfigLowering.Proofs.Text.Segments
import ConfigLowering.Proofs.FreshNames
import ConfigLowering.Proofs.Imports.Aliases
import ConfigLowering.Proofs.Imports.Decoding
import ConfigLowering.Proofs.Graph.Parts
import ConfigLowering.Proofs.Imports.Growth
import ConfigLowering.Proofs.Imports.Registering
import ConfigLowering.Proofs.Transformer.Outcome
import ConfigLowering.Proofs.Substitution.Origins
import ConfigLowering.Proofs.Substitution.Runs
import ConfigLowering.Proofs.Substitution.Tagging
import ConfigLowering.Proofs.Substitution.Making
import ConfigLowering.Proofs.Substitution.Soundness
import ConfigLowering.Proofs.Fixture.Mapping
import ConfigLowering.Proofs.Fixture.Refilling
import ConfigLowering.Proofs.Substitution.Fixtures
import ConfigLowering.Proofs.Substitution.Tasks
import ConfigLowering.Proofs.Substitution.Faithful
import ConfigLowering.Proofs.Graph.Occurrences
import ConfigLowering.Proofs.Walk.Steps
import ConfigLowering.Proofs.Walk.Coverage
import ConfigLowering.Proofs.Transformer.Keeping
import ConfigLowering.Proofs.Outcome
import ConfigLowering.Proofs.Registration.Completeness
import ConfigLowering.Proofs.Registration.Exactness
import ConfigLowering.Proofs.Registration.Referents
import ConfigLowering.Proofs.Registration.Tasks
import ConfigLowering.Proofs.Imports.Reserved
import ConfigLowering.Proofs.Imports.Permanence
import ConfigLowering.Proofs.Registration.Clashes
import ConfigLowering.Proofs.Substitution.Keeping
import ConfigLowering.Proofs.Substitution.Agreement
import ConfigLowering.Proofs.Value.Enclosing
import ConfigLowering.Proofs.Value.Renaming
import ConfigLowering.Proofs.Document.References
import ConfigLowering.Proofs.Document.Nodes
import ConfigLowering.Proofs.Document.Building
import ConfigLowering.Proofs.Document.Acceptance
import ConfigLowering.Proofs.Document.Ordering
import ConfigLowering.Proofs.Document.Tasks
import ConfigLowering.Proofs.Document.Loading
import ConfigLowering.Proofs.Substitution.Closed
import ConfigLowering.Proofs.Substitution.Stopping
import ConfigLowering.Proofs.Graph.Completion
import ConfigLowering.Proofs.Graph.Discovery
import ConfigLowering.Proofs.Substitution.UnsetTags
import ConfigLowering.Proofs.Substitution.Completing
import ConfigLowering.Proofs.Substitution.Verdict
import ConfigLowering.Proofs.Substitution.Coherence
import ConfigLowering.Proofs.Substitution.Idempotence
import ConfigLowering.Proofs.Substitution.TagNames
import ConfigLowering.Proofs.Transformer.Mirroring
import ConfigLowering.Proofs.Transformer.Rules
import ConfigLowering.Proofs.Transformer.Memo
import ConfigLowering.Proofs.Transformer.Expanding
import ConfigLowering.Proofs.Transformer.Roots
import ConfigLowering.Proofs.Transformer.Observing
import ConfigLowering.Proofs.Transformer.Order
import ConfigLowering.Proofs.Substitution.Visits
import ConfigLowering.Proofs.Graph.Renaming
import ConfigLowering.Proofs.Walk.Renaming
import ConfigLowering.Proofs.Walk.Listing
import ConfigLowering.Proofs.Registration.Renaming
import ConfigLowering.Proofs.Substitution.Renaming
import ConfigLowering.Proofs.Document.Renaming
import ConfigLowering.Proofs.Settings.Inheritance
import ConfigLowering.Proofs.Imports.Table
import ConfigLowering.Proofs.Imports.Apart
import ConfigLowering.Proofs.FreshNames.Numbering
import ConfigLowering.Proofs.Imports.Candidates
import ConfigLowering.Proofs.Imports.Orders
import ConfigLowering.Proofs.Settings.Validation
import ConfigLowering.Proofs.CommandLine.Generation
import ConfigLowering.Proofs.Graph.EdgeOrder
import ConfigLowering.Proofs.Walk.Preorder
import ConfigLowering.Proofs.Substitution.Termination
import ConfigLowering.Proofs.Json.Nesting
import ConfigLowering.Proofs.Json.Defaults
import ConfigLowering.Proofs.Document.Fields
import ConfigLowering.Proofs.Document.Serialization
import ConfigLowering.Proofs.Document.Defaults
import ConfigLowering.Proofs.Settings.Merging
import ConfigLowering.Proofs.Imports.Statements
import ConfigLowering.Proofs.Arguments.Rebuilding
import ConfigLowering.Proofs.Settings.Snapshots
