import TagWire.Catalog.Document
import TagWire.Catalog.Error
import TagWire.Catalog.Registration
import TagWire.Catalog.Types
import TagWire.Codec.Decoder
import TagWire.Codec.Encoder
import TagWire.Codec.Error
import TagWire.Codec.Limits
import TagWire.Codec.Reader
import TagWire.Codec.Trace
import TagWire.Codec.Word
import TagWire.Codec.Writer
import TagWire.Command.Invocation
import TagWire.Command.Options
import TagWire.Command.Outcome
import TagWire.Files
import TagWire.Journal
import TagWire.Json.Basic
import TagWire.Json.Error
import TagWire.Json.Import
import TagWire.Json.Numeral
import TagWire.Json.Reading
import TagWire.Json.Token
import TagWire.Json.View
import TagWire.Json.Writing
import TagWire.Localization.Access
import TagWire.Localization.Types
import TagWire.Main
import TagWire.Number.Binary
import TagWire.Number.Format
import TagWire.Number.Layout
import TagWire.Number.Shortest
import TagWire.Proofs.Catalog.Declaration
import TagWire.Proofs.Catalog.Loading
import TagWire.Proofs.Catalog.Padding
import TagWire.Proofs.Catalog.Resolution
import TagWire.Proofs.Catalog.Staging
import TagWire.Proofs.Catalog.WellFormed
import TagWire.Proofs.Codec.Acceptance
import TagWire.Proofs.Codec.Agreement
import TagWire.Proofs.Codec.Appending
import TagWire.Proofs.Codec.Arrival
import TagWire.Proofs.Codec.Canonical
import TagWire.Proofs.Codec.Conformance
import TagWire.Proofs.Codec.Counting
import TagWire.Proofs.Codec.EntryPoints
import TagWire.Proofs.Codec.Failing
import TagWire.Proofs.Codec.Growth
import TagWire.Proofs.Codec.Items
import TagWire.Proofs.Codec.Layout
import TagWire.Proofs.Codec.Peers
import TagWire.Proofs.Codec.Position
import TagWire.Proofs.Codec.Progress
import TagWire.Proofs.Codec.Raising
import TagWire.Proofs.Codec.Refusing
import TagWire.Proofs.Codec.RoundTrip
import TagWire.Proofs.Codec.Scalar
import TagWire.Proofs.Codec.Sequence
import TagWire.Proofs.Codec.Simulation
import TagWire.Proofs.Codec.Spelling
import TagWire.Proofs.Codec.Streaming
import TagWire.Proofs.Codec.Truth
import TagWire.Proofs.Codec.Typing
import TagWire.Proofs.Codec.Widening
import TagWire.Proofs.Json.Filling
import TagWire.Proofs.Json.Identity
import TagWire.Proofs.Json.Importing
import TagWire.Proofs.Json.Leaf
import TagWire.Proofs.Json.Reordering
import TagWire.Proofs.Json.RoundTrip
import TagWire.Proofs.Json.Soundness
import TagWire.Proofs.Json.Viewing
import TagWire.Proofs.Number.Rounding
import TagWire.Proofs.Registry.Consistency
import TagWire.Proofs.Registry.Inheritance
import TagWire.Proofs.Registry.Native
import TagWire.Proofs.Registry.Order
import TagWire.Proofs.Registry.Received
import TagWire.Proofs.Registry.Registration
import TagWire.Proofs.Registry.Rooted
import TagWire.Proofs.Registry.Sharing
import TagWire.Proofs.Registry.Subtyping
import TagWire.Proofs.Registry.Validity
import TagWire.Proofs.Schema.Accessing
import TagWire.Proofs.Schema.Building
import TagWire.Proofs.Schema.Converting
import TagWire.Proofs.Schema.Drafting
import TagWire.Proofs.Schema.History
import TagWire.Proofs.Schema.Recorded
import TagWire.Proofs.Schema.Sorting
import TagWire.Proofs.Schema.Steps
import TagWire.Proofs.Schema.Storing
import TagWire.Proofs.Schema.Taking
import TagWire.Proofs.Schema.Tree
import TagWire.Proofs.Text.Hex
import TagWire.Proofs.Text.Utf8
import TagWire.Registry.Basic
import TagWire.Registry.Error
import TagWire.Registry.Shared
import TagWire.Registry.Validation
import TagWire.Schema.Conversion
import TagWire.Schema.Descriptor
import TagWire.Schema.Expect
import TagWire.Schema.Field
import TagWire.Schema.FieldError
import TagWire.Schema.Instance
import TagWire.Schema.Record
import TagWire.Schema.Scalar
import TagWire.Schema.Shown
import TagWire.Schema.Value
import TagWire.Text.Blank
import TagWire.Text.Hex
import TagWire.Text.Quoted
import TagWire.Text.Unmarked
import TagWire.Text.Utf8
import TagWire.Yaml.Folding
import TagWire.Yaml.Lexing
import TagWire.Yaml.Node
import TagWire.Yaml.Plain
import TagWire.Yaml.Token
