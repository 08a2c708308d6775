import ChangeDesk.Account
import ChangeDesk.Assigner
import ChangeDesk.Certificate
import ChangeDesk.Change
import ChangeDesk.Command
import ChangeDesk.Command.Fault
import ChangeDesk.Command.Line
import ChangeDesk.Command.Parameter
import ChangeDesk.Command.Run
import ChangeDesk.Commit
import ChangeDesk.Decimal.Layout
import ChangeDesk.Decimal.Shortest
import ChangeDesk.Dialogue
import ChangeDesk.Dict
import ChangeDesk.Feed
import ChangeDesk.Http.Client
import ChangeDesk.Http.Message
import ChangeDesk.Http.Url
import ChangeDesk.Identifier
import ChangeDesk.Json.Codec
import ChangeDesk.Json.Document
import ChangeDesk.Json.Fault
import ChangeDesk.Json.Node
import ChangeDesk.Json.Numeral
import ChangeDesk.Json.Quoted
import ChangeDesk.Json.Record
import ChangeDesk.Json.Value
import ChangeDesk.Label
import ChangeDesk.Profile
import ChangeDesk.Proofs.Assigner.History
import ChangeDesk.Proofs.Assigner.Issuing
import ChangeDesk.Proofs.Assigner.Lifecycle
import ChangeDesk.Proofs.Assigner.Moves
import ChangeDesk.Proofs.Assigner.Record
import ChangeDesk.Proofs.Json.Lawful
import ChangeDesk.Proofs.Json.Written
import ChangeDesk.Remote.Call
import ChangeDesk.Remote.Fault
import ChangeDesk.Revision
import ChangeDesk.ServerConfig
import ChangeDesk.Session
import ChangeDesk.Text.Base64
import ChangeDesk.Text.Blank
import ChangeDesk.Text.Decimal
import ChangeDesk.Text.Offset
import ChangeDesk.Text.Printable
import ChangeDesk.Text.Quoted
import ChangeDesk.Text.Utf8
import ChangeDesk.Toml.Lemmas
import ChangeDesk.Toml.Printer
import ChangeDesk.Toml.Reader
import ChangeDesk.Toml.Scalar
import ChangeDesk.Toml.Table
import ChangeDesk.Toml.Text
import ChangeDesk.View.Display
import ChangeDesk.View.Editable
import ChangeDesk.View.Links
import ChangeDesk.View.Metadata
import ChangeDesk.View.Parents
import ChangeDesk.View.Report
import ChangeDesk.View.Role
import ChangeDesk.View.Trust
import ChangeDesk.WebLink
import ChangeDesk.Main
import ChangeDesk.Proofs.Document.Kinds
import ChangeDesk.Proofs.Document.RoundTrip
import ChangeDesk.Proofs.Conversation
import ChangeDesk.Proofs.Session.Edits
import ChangeDesk.Proofs.Session.Service
import ChangeDesk.Proofs.Http.Answer
import ChangeDesk.Proofs.Command.Gate
import ChangeDesk.Proofs.Assigner.Address
import ChangeDesk.Proofs.Session.Followers
import ChangeDesk.Proofs.Session.Replies
import ChangeDesk.Proofs.Command.Path
import ChangeDesk.Proofs.View.Current
import ChangeDesk.Proofs.Document.Variant
import ChangeDesk.Proofs.Command.Viewing
import ChangeDesk.Proofs.Http.Guard
import ChangeDesk.Proofs.Assigner.Dropped
import ChangeDesk.Proofs.Command.Identified
import ChangeDesk.Proofs.Toml.Sections
import ChangeDesk.Proofs.Text.ByteOrder
import ChangeDesk.Proofs.Profile.Stored
import ChangeDesk.Proofs.Profile.Words
import ChangeDesk.Proofs.Profile.History
import ChangeDesk.Proofs.Json.Parts
import ChangeDesk.Proofs.Document.Restated
import ChangeDesk.Proofs.View.Trusted
import ChangeDesk.Proofs.Text.Identifier
import ChangeDesk.Proofs.Http.Request
import ChangeDesk.Proofs.Assigner.Reference
import ChangeDesk.Proofs.Document.Scores
import ChangeDesk.Proofs.Command.Reference
import ChangeDesk.Proofs.Command.Confirmation
import ChangeDesk.Proofs.View.Lines
import ChangeDesk.Proofs.Document.Delimited
import ChangeDesk.Proofs.View.Abbreviated
import ChangeDesk.Proofs.Profile.Concealed
import ChangeDesk.Proofs.Document.Numbers
