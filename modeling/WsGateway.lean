import WsGateway.Binary64.Basic
import WsGateway.Binary64.Shortest
import WsGateway.Client
import WsGateway.Config.Basic
import WsGateway.Config.Load
import WsGateway.Config.Overrides
import WsGateway.Config.Schema
import WsGateway.Connection
import WsGateway.Crypto.Sha1
import WsGateway.Demux
import WsGateway.Envelope.Content
import WsGateway.Envelope.Request
import WsGateway.Envelope.Response
import WsGateway.Envelope.Stream
import WsGateway.Error
import WsGateway.FinMap
import WsGateway.Frame
import WsGateway.Frame.Reading
import WsGateway.Gateway.Basic
import WsGateway.Gateway.Board
import WsGateway.Gateway.Endpoints
import WsGateway.Handshake
import WsGateway.Heartbeat
import WsGateway.Host
import WsGateway.Http.Cors
import WsGateway.Http.Message
import WsGateway.Http.Routes
import WsGateway.Http.Transfer
import WsGateway.Json.Decoder
import WsGateway.Json.Fault
import WsGateway.Json.Numeral
import WsGateway.Json.Parse
import WsGateway.Json.Printer
import WsGateway.Json.Reader
import WsGateway.Json.Skip
import WsGateway.Json.Value
import WsGateway.Links
import WsGateway.Main
import WsGateway.Metrics.Basic
import WsGateway.Metrics.Exposition
import WsGateway.Net.Address
import WsGateway.Operation.Basic
import WsGateway.Operation.Builtin
import WsGateway.Operation.Dispatch
import WsGateway.Registry
import WsGateway.Reply
import WsGateway.Sample
import WsGateway.Session
import WsGateway.Startup
import WsGateway.Subscriptions
import WsGateway.Text.Base64
import WsGateway.Text.Blank
import WsGateway.Text.Digits
import WsGateway.Text.Hidden
import WsGateway.Text.Octets
import WsGateway.Text.Quoted
import WsGateway.Text.Split
import WsGateway.Writer
import WsGateway.Yaml.Cursor
import WsGateway.Yaml.Decoder
import WsGateway.Yaml.Event
import WsGateway.Yaml.Node
import WsGateway.Yaml.Scalar
import WsGateway.Yaml.Token.Basic
import WsGateway.Yaml.Token.Scalar
import WsGateway.Yaml.Token.Scan
import WsGateway.Proofs.Config.Documents
import WsGateway.Proofs.Config.Layers
import WsGateway.Proofs.Config.Overriding
import WsGateway.Proofs.Config.Rendering
import WsGateway.Proofs.Config.Settings
import WsGateway.Proofs.Config.Values
import WsGateway.Proofs.Connection.Delivery
import WsGateway.Proofs.Envelope.Acceptance
import WsGateway.Proofs.Envelope.FirstPass.Elements
import WsGateway.Proofs.Envelope.FirstPass.Members
import WsGateway.Proofs.Envelope.FirstPass.Values
import WsGateway.Proofs.Envelope.Layout
import WsGateway.Proofs.Envelope.Modes
import WsGateway.Proofs.Envelope.RequestRoundTrip
import WsGateway.Proofs.Envelope.Streaming
import WsGateway.Proofs.Envelope.Writer
import WsGateway.Proofs.Envelope.Writing
import WsGateway.Proofs.Gateway.Activity
import WsGateway.Proofs.Gateway.Answers
import WsGateway.Proofs.Gateway.Balance
import WsGateway.Proofs.Gateway.Bookkeeping
import WsGateway.Proofs.Gateway.ClientSessions
import WsGateway.Proofs.Gateway.Construction
import WsGateway.Proofs.Gateway.Conversation
import WsGateway.Proofs.Gateway.Draining
import WsGateway.Proofs.Gateway.EventDelivery
import WsGateway.Proofs.Gateway.Exits
import WsGateway.Proofs.Gateway.Isolation
import WsGateway.Proofs.Gateway.Ledger
import WsGateway.Proofs.Gateway.Lifecycle
import WsGateway.Proofs.Gateway.Lookalike
import WsGateway.Proofs.Gateway.Origins
import WsGateway.Proofs.Gateway.Oversize
import WsGateway.Proofs.Gateway.Registration
import WsGateway.Proofs.Gateway.SessionTable
import WsGateway.Proofs.Gateway.UpgradePath
import WsGateway.Proofs.Handshake.Calls
import WsGateway.Proofs.Handshake.Completion
import WsGateway.Proofs.Handshake.Negotiation
import WsGateway.Proofs.Http.Origins
import WsGateway.Proofs.Http.Reading
import WsGateway.Proofs.Http.Values
import WsGateway.Proofs.Json.Composition
import WsGateway.Proofs.Json.Decoded
import WsGateway.Proofs.Json.Extent
import WsGateway.Proofs.Json.Grammar
import WsGateway.Proofs.Json.Heads
import WsGateway.Proofs.Json.Inversion
import WsGateway.Proofs.Json.Locality.Nested
import WsGateway.Proofs.Json.Locality.Scalars
import WsGateway.Proofs.Json.Members
import WsGateway.Proofs.Json.Nesting
import WsGateway.Proofs.Json.Numerals
import WsGateway.Proofs.Json.Printed
import WsGateway.Proofs.Json.Readable
import WsGateway.Proofs.Json.Recognition
import WsGateway.Proofs.Json.Skipped
import WsGateway.Proofs.Json.Spelling
import WsGateway.Proofs.Json.Strings
import WsGateway.Proofs.Links.Instances
import WsGateway.Proofs.Links.Responding
import WsGateway.Proofs.Links.Room
import WsGateway.Proofs.Links.Sending
import WsGateway.Proofs.Metrics.Accumulation
import WsGateway.Proofs.Metrics.Families
import WsGateway.Proofs.Metrics.Reading
import WsGateway.Proofs.Metrics.Rendering
import WsGateway.Proofs.Metrics.Totals
import WsGateway.Proofs.Operation.Bracketing
import WsGateway.Proofs.Operation.Builtin
import WsGateway.Proofs.Operation.Contract
import WsGateway.Proofs.Operation.Dispatch
import WsGateway.Proofs.Operation.RangePayload
import WsGateway.Proofs.Subscriptions.Broadcast
import WsGateway.Proofs.Subscriptions.Consistency
import WsGateway.Proofs.Subscriptions.PlainMap
import WsGateway.Proofs.Subscriptions.Publishing
import WsGateway.Proofs.Text.Base64
import WsGateway.Proofs.Text.ByteOrder
import WsGateway.Proofs.Text.Decimal
import WsGateway.Proofs.Text.Digits
import WsGateway.Proofs.Text.Items
import WsGateway.Proofs.Text.Pieces
import WsGateway.Proofs.Yaml.Fields
import WsGateway.Proofs.Yaml.Reordering
import WsGateway.Proofs.Yaml.Schema
