import RatingServer.Table
import RatingServer.Text.Basic
import RatingServer.Text.Quoted
import RatingServer.Decimal.Shortest
import RatingServer.Decimal.Literal
import RatingServer.Json.Basic
import RatingServer.Json.Document
import RatingServer.Wire.Record
import RatingServer.Wire.Choice
import RatingServer.Wire.Bytes
import RatingServer.Accounts
import RatingServer.Settings
import RatingServer.Status
import RatingServer.Snapshot
import RatingServer.Evaluator
import RatingServer.Failure
import RatingServer.Request
import RatingServer.Response
import RatingServer.Frame
import RatingServer.Server
import RatingServer.Dispatch
import RatingServer.Store.Basic
import RatingServer.CommandLine.ClientOptions
import RatingServer.CommandLine.ControlTool
import RatingServer.Launch
import RatingServer.Lifecycle
import RatingServer.Main
import RatingServer.Serving
import RatingServer.Connection
import RatingServer.ScriptedPeer
import RatingServer.Cluster.Balancer
import RatingServer.Cluster.Follower
import RatingServer.Cluster.Network
import RatingServer.StatusFollower
import RatingServer.Proofs.Table.Lookup
import RatingServer.Proofs.Decimal.Finite
import RatingServer.Proofs.Decimal.Words
import RatingServer.Proofs.Json.Scanning
import RatingServer.Proofs.Json.Numerals
import RatingServer.Proofs.Json.Texts
import RatingServer.Proofs.Decimal.Digits
import RatingServer.Proofs.Json.Spelling
import RatingServer.Proofs.Json.Reading
import RatingServer.Proofs.Json.Parts
import RatingServer.Proofs.Json.Bounded
import RatingServer.Proofs.Wire.Legible
import RatingServer.Proofs.Wire.Choosing
import RatingServer.Proofs.Wire.Recording
import RatingServer.Proofs.Wire.Values
import RatingServer.Proofs.Wire.Counting
import RatingServer.Proofs.Wire.Delimited
import RatingServer.Proofs.Wire.Framing
import RatingServer.Proofs.Wire.Truncation
import RatingServer.Proofs.Wire.TextLines
import RatingServer.Proofs.Request.Actions
import RatingServer.Proofs.Request.Lines
import RatingServer.Proofs.Response.Lines
import RatingServer.Proofs.Response.Answers
import RatingServer.Proofs.Response.Frames
import RatingServer.Proofs.Session.Replies
import RatingServer.Proofs.Server.Calls
import RatingServer.Proofs.Session.Steps
import RatingServer.Proofs.Session.Exchange
import RatingServer.Proofs.Session.FrontDoors
import RatingServer.Proofs.Channel.Transparency
import RatingServer.Proofs.Session.Authority
import RatingServer.Proofs.Store.Ratings
import RatingServer.Proofs.Lifecycle.Runs
import RatingServer.Proofs.Lifecycle.Records
import RatingServer.Proofs.Lifecycle.Delivery
import RatingServer.Proofs.Session.Oversized
import RatingServer.Proofs.Session.Secrecy
import RatingServer.Proofs.Server.InFlight
import RatingServer.Proofs.Server.Parts
import RatingServer.Proofs.Connection.Transmissions
import RatingServer.Proofs.Connection.Agreement
import RatingServer.Proofs.Connection.Relocation
import RatingServer.Proofs.Channel.Schemes
import RatingServer.Proofs.Session.ReplyStreams
import RatingServer.Proofs.Cluster.Balancing
import RatingServer.Proofs.Connection.Dialogues
import RatingServer.Proofs.Session.Forms
import RatingServer.Proofs.Session.ServedLines
import RatingServer.Proofs.Store.Interleaving
import RatingServer.Proofs.Store.Replay
import RatingServer.Proofs.Request.Unordered
import RatingServer.Proofs.Channel.Commands
import RatingServer.Proofs.Accounts.Histories
import RatingServer.Proofs.Store.ExternalLookup
import RatingServer.Proofs.Store.SnapshotIds
import RatingServer.Proofs.Store.Transposes
import RatingServer.Proofs.Store.Refusals
import RatingServer.Proofs.Store.NominalHistories
import RatingServer.Proofs.Endpoint.Spellings
import RatingServer.Proofs.Store.Deletions
import RatingServer.Proofs.Store.Attributes
import RatingServer.Proofs.Store.Recommendations
import RatingServer.Proofs.Server.Learning
import RatingServer.Proofs.Store.Representation
import RatingServer.Proofs.Settings.Overlay
import RatingServer.Proofs.CommandLine.Overrides
import RatingServer.Proofs.Lifecycle.Polls
import RatingServer.Proofs.Lifecycle.Following
