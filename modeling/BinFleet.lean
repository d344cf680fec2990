import BinFleet.Access.Bearer
import BinFleet.Access.Token
import BinFleet.Address
import BinFleet.Archive.Database
import BinFleet.Archive.Record
import BinFleet.Archive.Rehearsal
import BinFleet.Archive.Service
import BinFleet.Archive.Statement
import BinFleet.Archive.Transaction
import BinFleet.Check
import BinFleet.Coordinate
import BinFleet.Csv
import BinFleet.Digest.Hmac
import BinFleet.Digest.Sha256
import BinFleet.Ending
import BinFleet.Fault
import BinFleet.Fill
import BinFleet.Fleet.Service
import BinFleet.FleetStats
import BinFleet.History
import BinFleet.Journal
import BinFleet.Json.Access
import BinFleet.Json.Basic
import BinFleet.Json.Normal
import BinFleet.Json.Reader
import BinFleet.Json.Text
import BinFleet.Json.Value
import BinFleet.Live.Connection
import BinFleet.Live.Frame
import BinFleet.Live.Hub
import BinFleet.Live.Stream
import BinFleet.Log.Context
import BinFleet.Log.Entry
import BinFleet.Main
import BinFleet.Marker
import BinFleet.Metrics
import BinFleet.Nearest
import BinFleet.Number.Binary
import BinFleet.Number.Integer
import BinFleet.Number.Layout
import BinFleet.Number.Literal
import BinFleet.Number.Shortest
import BinFleet.Number.Trig
import BinFleet.Number.Whole
import BinFleet.Proofs.Access.Credentials
import BinFleet.Proofs.Access.Issuing
import BinFleet.Proofs.Address
import BinFleet.Proofs.Archive.Nesting
import BinFleet.Proofs.Archive.Recency
import BinFleet.Proofs.Archive.Settlement
import BinFleet.Proofs.Archive.Tables
import BinFleet.Proofs.Coordinate
import BinFleet.Proofs.Csv
import BinFleet.Proofs.Exact.Coordinate
import BinFleet.Proofs.Exact.Fill
import BinFleet.Proofs.Exact.Scalar
import BinFleet.Proofs.Fault
import BinFleet.Proofs.Fault.Meaning
import BinFleet.Proofs.Fill
import BinFleet.Proofs.Fleet.AcceptedLog
import BinFleet.Proofs.Fleet.Arrival
import BinFleet.Proofs.Fleet.Change
import BinFleet.Proofs.Fleet.Marking
import BinFleet.Proofs.Fleet.Message
import BinFleet.Proofs.Fleet.Writers
import BinFleet.Proofs.Json.Numeral
import BinFleet.Proofs.Json.Reader
import BinFleet.Proofs.Json.Value
import BinFleet.Proofs.Live.Connection
import BinFleet.Proofs.Live.Delivery
import BinFleet.Proofs.Live.Hub
import BinFleet.Proofs.Live.Joining
import BinFleet.Proofs.Live.Replica
import BinFleet.Proofs.Live.Roster
import BinFleet.Proofs.Live.Stream
import BinFleet.Proofs.Marker
import BinFleet.Proofs.Metrics
import BinFleet.Proofs.Nearest
import BinFleet.Proofs.Number.Arithmetic
import BinFleet.Proofs.Number.Bounds
import BinFleet.Proofs.Number.Double
import BinFleet.Proofs.Number.Nearest
import BinFleet.Proofs.Number.Order
import BinFleet.Proofs.Number.Parts
import BinFleet.Proofs.Number.Rounding
import BinFleet.Proofs.Number.Trig
import BinFleet.Proofs.Number.Whole
import BinFleet.Proofs.Number.Written
import BinFleet.Proofs.Queue.Deliveries
import BinFleet.Proofs.Queue.Exchange
import BinFleet.Proofs.Queue.Outbox
import BinFleet.Proofs.Queue.Publishing
import BinFleet.Proofs.Queue.Worker
import BinFleet.Proofs.Radius
import BinFleet.Proofs.Reading
import BinFleet.Proofs.Settings.Comments
import BinFleet.Proofs.Settings.Loading
import BinFleet.Proofs.Settings.Outline
import BinFleet.Proofs.Settings.Precedence
import BinFleet.Proofs.Settings.Reloading
import BinFleet.Proofs.Symbols
import BinFleet.Proofs.Telemetry.Firmware
import BinFleet.Proofs.Telemetry.Reconnect
import BinFleet.Proofs.Text
import BinFleet.Proofs.Time.Calendar
import BinFleet.Proofs.Time.Instant
import BinFleet.Proofs.Tracker
import BinFleet.Proofs.Uuid
import BinFleet.Proofs.Uuid.RoundTrip
import BinFleet.Proofs.Web.Counting
import BinFleet.Proofs.Web.Download
import BinFleet.Proofs.Web.Labels
import BinFleet.Proofs.Web.Operators
import BinFleet.Proofs.Web.Posting
import BinFleet.Proofs.Web.Readable
import BinFleet.Queue.Client
import BinFleet.Queue.Consumer
import BinFleet.Queue.Message
import BinFleet.Queue.Outbox
import BinFleet.Queue.Producer
import BinFleet.Queue.Retry
import BinFleet.Queue.Worker
import BinFleet.Reading
import BinFleet.Scalar
import BinFleet.Settings.Config
import BinFleet.Settings.Environment
import BinFleet.Settings.Export
import BinFleet.Settings.File
import BinFleet.Settings.Help
import BinFleet.Settings.Options
import BinFleet.Settings.Schema
import BinFleet.Telemetry.Client
import BinFleet.Telemetry.Firmware
import BinFleet.Telemetry.Link
import BinFleet.Text.Base64
import BinFleet.Text.Blank
import BinFleet.Text.Case
import BinFleet.Text.Hex
import BinFleet.Text.Printable
import BinFleet.Text.Quoted
import BinFleet.Text.Table
import BinFleet.Text.Utf8
import BinFleet.Time.Calendar
import BinFleet.Time.Instant
import BinFleet.Time.Span
import BinFleet.Tracker
import BinFleet.Url
import BinFleet.Uuid
import BinFleet.View
import BinFleet.View.Message
import BinFleet.Web.ApiDocument
import BinFleet.Web.ArchiveApi
import BinFleet.Web.Documentation
import BinFleet.Web.Handler
import BinFleet.Web.Health
import BinFleet.Web.Html
import BinFleet.Web.JsonReply
import BinFleet.Web.MapApi
import BinFleet.Web.NearbyQuery
import BinFleet.Web.Negotiation
import BinFleet.Web.Page
import BinFleet.Web.ReadingForm
import BinFleet.Web.Reply
import BinFleet.Web.Request
import BinFleet.Web.RouteLabel
import BinFleet.Web.Router
import BinFleet.Web.Site
import BinFleet.Web.Status
import BinFleet.Web.Target
import BinFleet.Web.Upgrade
