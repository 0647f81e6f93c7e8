import LanguageClient.Bounds
import LanguageClient.Command.Arguments
import LanguageClient.Command.Basic
import LanguageClient.Command.Error
import LanguageClient.Command.Exchange
import LanguageClient.Command.Host
import LanguageClient.Command.Location
import LanguageClient.Command.Output
import LanguageClient.Command.Program
import LanguageClient.Command.Resolve
import LanguageClient.Command.Run
import LanguageClient.Command.Target
import LanguageClient.Connection.Basic
import LanguageClient.Connection.Registry
import LanguageClient.Decimal.Shortest
import LanguageClient.Diagnostic.Basic
import LanguageClient.Diagnostic.Store
import LanguageClient.Document.Change
import LanguageClient.Document.Tracked
import LanguageClient.Error
import LanguageClient.Json.Basic
import LanguageClient.Json.Decode
import LanguageClient.Json.Number
import LanguageClient.Json.Parser
import LanguageClient.Json.Pretty
import LanguageClient.Json.Printer
import LanguageClient.Log
import LanguageClient.Main
import LanguageClient.Path.Basic
import LanguageClient.Path.Uri
import LanguageClient.Proofs.Command.Location
import LanguageClient.Proofs.Command.Selection
import LanguageClient.Proofs.Command.Target
import LanguageClient.Proofs.Connection.Answering
import LanguageClient.Proofs.Connection.Basic
import LanguageClient.Proofs.Connection.Conversation
import LanguageClient.Proofs.Connection.History
import LanguageClient.Proofs.Connection.Intake
import LanguageClient.Proofs.Diagnostic.Columns
import LanguageClient.Proofs.Diagnostic.Regrading
import LanguageClient.Proofs.Diagnostic.Store
import LanguageClient.Proofs.Document.Address
import LanguageClient.Proofs.Document.Lifecycle
import LanguageClient.Proofs.Document.Mirror
import LanguageClient.Proofs.Document.Tracked
import LanguageClient.Proofs.Json.Object
import LanguageClient.Proofs.Json.Reading
import LanguageClient.Proofs.Json.Record
import LanguageClient.Proofs.Json.RoundTrip
import LanguageClient.Proofs.Json.Sequence
import LanguageClient.Proofs.Log
import LanguageClient.Proofs.Path.Uri
import LanguageClient.Proofs.Session.Attention
import LanguageClient.Proofs.Session.Coherence
import LanguageClient.Proofs.Session.Commutation
import LanguageClient.Proofs.Session.Completion
import LanguageClient.Proofs.Session.Confinement
import LanguageClient.Proofs.Session.Consistency
import LanguageClient.Proofs.Session.Continuity
import LanguageClient.Proofs.Session.Conversation
import LanguageClient.Proofs.Session.Correlation
import LanguageClient.Proofs.Session.Course
import LanguageClient.Proofs.Session.Deed
import LanguageClient.Proofs.Session.Delivery
import LanguageClient.Proofs.Session.Display
import LanguageClient.Proofs.Session.Effects
import LanguageClient.Proofs.Session.Ending
import LanguageClient.Proofs.Session.Endurance
import LanguageClient.Proofs.Session.Faithful
import LanguageClient.Proofs.Session.Focus
import LanguageClient.Proofs.Session.Formatting
import LanguageClient.Proofs.Session.Handshake
import LanguageClient.Proofs.Session.Isolation
import LanguageClient.Proofs.Session.Lasting
import LanguageClient.Proofs.Session.Lifecycle
import LanguageClient.Proofs.Session.Mirror
import LanguageClient.Proofs.Session.Operations
import LanguageClient.Proofs.Session.Part
import LanguageClient.Proofs.Session.Portions
import LanguageClient.Proofs.Session.Publications
import LanguageClient.Proofs.Session.Reaction
import LanguageClient.Proofs.Session.Refusal
import LanguageClient.Proofs.Session.Retirement
import LanguageClient.Proofs.Session.Routine
import LanguageClient.Proofs.Session.Routing
import LanguageClient.Proofs.Session.Run
import LanguageClient.Proofs.Session.Spelling
import LanguageClient.Proofs.Session.Step
import LanguageClient.Proofs.Session.Transparency
import LanguageClient.Proofs.Session.Visibility
import LanguageClient.Proofs.Settings.Mistakes
import LanguageClient.Proofs.Settings.Precedence
import LanguageClient.Proofs.Settings.Reading
import LanguageClient.Proofs.Symbol
import LanguageClient.Proofs.Table
import LanguageClient.Proofs.Text.Arrangement
import LanguageClient.Proofs.Text.Backwards
import LanguageClient.Proofs.Text.Blank
import LanguageClient.Proofs.Text.Boundary
import LanguageClient.Proofs.Text.Clipping
import LanguageClient.Proofs.Text.Cursor
import LanguageClient.Proofs.Text.Numeral
import LanguageClient.Proofs.Text.Offset
import LanguageClient.Proofs.Text.Replacement
import LanguageClient.Proofs.Text.Seams
import LanguageClient.Proofs.Text.Survival
import LanguageClient.Proofs.Text.Tail
import LanguageClient.Proofs.Text.Utf8
import LanguageClient.Proofs.View
import LanguageClient.Proofs.Wire.Buffer
import LanguageClient.Proofs.Wire.Decoding
import LanguageClient.Proofs.Wire.Header
import LanguageClient.Proofs.Wire.Message
import LanguageClient.Proofs.Wire.Noise
import LanguageClient.Proofs.Wire.Pieces
import LanguageClient.Proofs.Wire.Rejection
import LanguageClient.Proofs.Wire.RoundTrip
import LanguageClient.Proofs.Wire.Stray
import LanguageClient.Proofs.Wire.Stream
import LanguageClient.Rehearsal.Script
import LanguageClient.Rehearsal.World
import LanguageClient.Result
import LanguageClient.Server.Capability
import LanguageClient.Server.Catalog
import LanguageClient.Server.Config
import LanguageClient.Session.Basic
import LanguageClient.Session.Diagnostics
import LanguageClient.Session.Documents
import LanguageClient.Session.Handle
import LanguageClient.Session.Lifecycle
import LanguageClient.Session.Requests
import LanguageClient.Session.Results
import LanguageClient.Settings.Basic
import LanguageClient.Settings.Error
import LanguageClient.Settings.Load
import LanguageClient.Settings.Merge
import LanguageClient.Symbol
import LanguageClient.System.Access
import LanguageClient.System.FileAccess
import LanguageClient.System.FileTree
import LanguageClient.System.ServerControl
import LanguageClient.Table
import LanguageClient.Text.Alphanumeric
import LanguageClient.Text.Blank
import LanguageClient.Text.Edit
import LanguageClient.Text.Measure
import LanguageClient.Text.Numeral
import LanguageClient.Text.Position
import LanguageClient.Text.Quoted
import LanguageClient.Text.Ranges
import LanguageClient.Text.Utf8
import LanguageClient.Toml.Date
import LanguageClient.Toml.Number
import LanguageClient.Toml.Parser
import LanguageClient.Toml.Table
import LanguageClient.Toml.Value
import LanguageClient.View
import LanguageClient.Wire.Frame
import LanguageClient.Wire.Inbound
import LanguageClient.Wire.Message
import LanguageClient.Wire.Method
import LanguageClient.Wire.Pending
import LanguageClient.Wire.Shape
