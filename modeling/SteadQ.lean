import SteadQ.Alone
import SteadQ.Backoff
import SteadQ.Cbor
import SteadQ.CborParser
import SteadQ.Compaction
import SteadQ.Conservation
import SteadQ.Content
import SteadQ.Cursor
import SteadQ.Delivery
import SteadQ.Durable
import SteadQ.Envelope
import SteadQ.Extension
import SteadQ.Fencing
import SteadQ.Format
import SteadQ.Fresh
import SteadQ.Fs
import SteadQ.Fs.Files
import SteadQ.Fs.Tree
import SteadQ.Handle
import SteadQ.Items
import SteadQ.Jobs
import SteadQ.Law
import SteadQ.Law.Consumer
import SteadQ.Law.Lease
import SteadQ.Law.Publish
import SteadQ.Law.Recovery
import SteadQ.Law.Rules
import SteadQ.Law.Sight
import SteadQ.Law.Watermark
import SteadQ.Lib.Board
import SteadQ.Lib.Bytes
import SteadQ.Lib.Census
import SteadQ.Lib.Codec
import SteadQ.Lib.Grammar
import SteadQ.Lib.Invariant
import SteadQ.Lib.Json
import SteadQ.Lib.OrdMap
import SteadQ.Lib.Pieces
import SteadQ.Lib.Pool
import SteadQ.Lib.Program
import SteadQ.Lib.Sha256
import SteadQ.Lifecycle
import SteadQ.Math
import SteadQ.Metadata
import SteadQ.Names
import SteadQ.Naming
import SteadQ.Opened
import SteadQ.Ops
import SteadQ.Outcome
import SteadQ.Outcome.Consumer
import SteadQ.Outcome.Early
import SteadQ.Outcome.Engine
import SteadQ.Outcome.Lease
import SteadQ.Outcome.Publish
import SteadQ.Outcome.Rules
import SteadQ.Poisoned
import SteadQ.Probe
import SteadQ.Promises
import SteadQ.Protocol
import SteadQ.Queue.Batch
import SteadQ.Queue.Consumer
import SteadQ.Queue.Engine
import SteadQ.Queue.Layout
import SteadQ.Queue.Lease
import SteadQ.Queue.Publish
import SteadQ.Queue.Quarantine
import SteadQ.Queue.Resolve
import SteadQ.Queue.Verified
import SteadQ.Queue.Watermark
import SteadQ.Records
import SteadQ.Recovery.Base
import SteadQ.Recovery.Control
import SteadQ.Recovery.Keep
import SteadQ.Recovery.Pass
import SteadQ.Recovery.Phases
import SteadQ.Recovery.Rules
import SteadQ.Recovery.Text
import SteadQ.Recovery.Walk
import SteadQ.Resolution
import SteadQ.Runs
import SteadQ.Scan
import SteadQ.Shards
import SteadQ.Snapshot
import SteadQ.Spending
import SteadQ.Stream
import SteadQ.Tickets
import SteadQ.Transfer
import SteadQ.Wire
