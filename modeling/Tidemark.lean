import Tidemark.Backoff
import Tidemark.Binary64.Basic
import Tidemark.Binary64.Shortest
import Tidemark.Binary64.Text
import Tidemark.CommandLine.Arguments
import Tidemark.CommandLine.Reader
import Tidemark.CommandLine.Usage
import Tidemark.Config
import Tidemark.Destination.InMemory
import Tidemark.Destination.Partition
import Tidemark.Digest.Sha256
import Tidemark.Dispatch
import Tidemark.Event
import Tidemark.Fault
import Tidemark.Journal
import Tidemark.Json.Reader
import Tidemark.Json.Value
import Tidemark.Main
import Tidemark.Metrics
import Tidemark.Network.Scrape
import Tidemark.Network.SocketAddress
import Tidemark.Objects.Config
import Tidemark.Objects.Listing
import Tidemark.Objects.Source
import Tidemark.Pacing
import Tidemark.Record
import Tidemark.Refusal
import Tidemark.Rehearsal.Agenda
import Tidemark.Rehearsal.Collecting
import Tidemark.Rehearsal.Dispatching
import Tidemark.Rehearsal.Emitting
import Tidemark.Rehearsal.Handle
import Tidemark.Rehearsal.Replaying
import Tidemark.Rehearsal.Retrying
import Tidemark.Rehearsal.Sharding
import Tidemark.Rehearsal.Stage
import Tidemark.Rehearsal.Streaming
import Tidemark.Replay
import Tidemark.Retry
import Tidemark.Shards.Activation
import Tidemark.Shards.Batch
import Tidemark.Shards.Config
import Tidemark.Shards.Fault
import Tidemark.Shards.Listing
import Tidemark.Shards.Producer
import Tidemark.Source.Decoder
import Tidemark.Source.Lines
import Tidemark.Source.Listed
import Tidemark.Statistics
import Tidemark.Text.Blank
import Tidemark.Text.Numeral
import Tidemark.Text.Quoted
import Tidemark.Text.Shown
import Tidemark.Text.Utf8
import Tidemark.Time.Calendar
import Tidemark.Time.Span
import Tidemark.Time.Timestamp
import Tidemark.Time.Written
import Tidemark.Tracker
import Tidemark.Watermark
import Tidemark.Proofs.InFlight.Tracker
import Tidemark.Proofs.InFlight.Outstanding
import Tidemark.Proofs.Replay.Moves
import Tidemark.Proofs.Replay.Flight
import Tidemark.Proofs.Destination.WatermarkPayload
import Tidemark.Proofs.Replay.Watermarks
import Tidemark.Proofs.Destination.Log
import Tidemark.Proofs.Replay.Played
import Tidemark.Proofs.Replay.Delivery
import Tidemark.Proofs.InFlight.Rehearsals
import Tidemark.Proofs.Shards.Verdicts
import Tidemark.Proofs.Shards.Retries
import Tidemark.Proofs.Shards.Gathering
import Tidemark.Proofs.Shards.Traffic
import Tidemark.Proofs.Shards.Barrier
import Tidemark.Proofs.Shards.Progress
import Tidemark.Proofs.Shards.Rehearsed
import Tidemark.Proofs.Replay.Acknowledged
import Tidemark.Proofs.Cycle.Accounts
import Tidemark.Proofs.Cycle.FanOut
import Tidemark.Proofs.Replay.Books
import Tidemark.Proofs.Replay.Counters
import Tidemark.Proofs.Replay.Shutdown
import Tidemark.Proofs.Pacing.Origin
import Tidemark.Proofs.Replay.Steady
import Tidemark.Proofs.Replay.Cadence
import Tidemark.Proofs.Rehearsal.Staffed
import Tidemark.Proofs.Replay.Stalls
import Tidemark.Proofs.Objects.Keys
import Tidemark.Proofs.Source.LineEnds
import Tidemark.Proofs.Objects.OneFile
import Tidemark.Proofs.Text.Decoding
import Tidemark.Proofs.Source.Yields
import Tidemark.Proofs.Destination.Calls
import Tidemark.Proofs.Destination.Refusals
import Tidemark.Proofs.Destination.Traffic
import Tidemark.Proofs.Destination.Ledger
import Tidemark.Proofs.Destination.Settling
import Tidemark.Proofs.Rehearsal.Streamed
import Tidemark.Proofs.Destination.Views
import Tidemark.Proofs.Source.Replayed
import Tidemark.Proofs.Destination.Tiling
import Tidemark.Proofs.Pacing.Rounding
import Tidemark.Proofs.Pacing.Due
import Tidemark.Proofs.Replay.Backlog
import Tidemark.Proofs.Shards.Served
import Tidemark.Proofs.Replay.Sharded
import Tidemark.Proofs.InFlight.Gauge
import Tidemark.Proofs.Source.LineNumbers
import Tidemark.Proofs.Time.Civil
import Tidemark.Proofs.Time.Stamps
import Tidemark.Proofs.Json.Strings
import Tidemark.Proofs.Time.Decoded
import Tidemark.Proofs.Time.Rendered
import Tidemark.Proofs.Shards.Crashes
import Tidemark.Proofs.Destination.Numbering
import Tidemark.Proofs.Time.Instants
import Tidemark.Proofs.Retry.Attempts
import Tidemark.Proofs.Retry.Course
import Tidemark.Proofs.Shards.Activated
import Tidemark.Proofs.InFlight.LiveKeys
import Tidemark.Proofs.Replay.Reports
import Tidemark.Proofs.Retry.Iterators
import Tidemark.Proofs.Shards.Waits
import Tidemark.Proofs.Destination.Tokens
