import DepotClient.Text.Basic
import DepotClient.Text.Words
import DepotClient.Text.Numeral
import DepotClient.Text.Escaped
import DepotClient.Calendar.Date
import DepotClient.Calendar.Timestamp
import DepotClient.Calendar.Layout
import DepotClient.Record.Basic
import DepotClient.Record.Family
import DepotClient.Record.Schema
import DepotClient.Specifier.Basic
import DepotClient.View.Basic
import DepotClient.Protection.Basic
import DepotClient.License.Basic
import DepotClient.Server.Info
import DepotClient.Stream.Flags
import DepotClient.Stream.Basic
import DepotClient.Stream.OfRecord
import DepotClient.Stream.History
import DepotClient.Session.Failure
import DepotClient.Session.Profile
import DepotClient.Session.Properties
import DepotClient.Json.Value
import DepotClient.Json.Reader
import DepotClient.Json.Form
import DepotClient.Session.Connection
import DepotClient.Session.Pool
import DepotClient.Proofs.Text.Fields
import DepotClient.Proofs.Text.Pieces
import DepotClient.Proofs.Text.Pattern
import DepotClient.Proofs.Text.ScriptDigits
import DepotClient.Proofs.Calendar.DayNumber
import DepotClient.Proofs.Calendar.Layout
import DepotClient.Proofs.Calendar.Written
import DepotClient.Proofs.Calendar.Epoch
import DepotClient.Proofs.Record.Family
import DepotClient.Proofs.Record.Scan
import DepotClient.Proofs.Record.Schema
import DepotClient.Proofs.Specifier.RoundTrip
import DepotClient.Proofs.Specifier.Range
import DepotClient.Proofs.Specifier.Path
import DepotClient.Proofs.Specifier.Time
import DepotClient.Proofs.View.Line
import DepotClient.Proofs.View.Family
import DepotClient.Proofs.View.BlankLines
import DepotClient.Proofs.Protection.Table
import DepotClient.Proofs.Protection.Line
import DepotClient.Proofs.License.Answer
import DepotClient.Proofs.License.Phrases
import DepotClient.Proofs.License.Summary
import DepotClient.Proofs.Server.Uptime
import DepotClient.Proofs.Server.Info
import DepotClient.Proofs.Stream.Flags
import DepotClient.Proofs.Stream.Declaration
import DepotClient.Proofs.Stream.Custom
import DepotClient.Proofs.Stream.Sources
import DepotClient.Proofs.Stream.Form
import DepotClient.Proofs.Stream.History
import DepotClient.Proofs.Stream.Entries
import DepotClient.Proofs.Session.Steps
import DepotClient.Proofs.Session.Propagation
import DepotClient.Proofs.Session.Replay
import DepotClient.Proofs.Session.Bindings
import DepotClient.Proofs.Session.Lifecycle
import DepotClient.Proofs.Session.Attempts
import DepotClient.Proofs.Session.Variables
