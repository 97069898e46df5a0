import Racnet.Android.FrameWriter
import Racnet.Android.NodeRuntime
import Racnet.Android.SyncScheduler
import Racnet.Api.Node
import Racnet.Api.View
import Racnet.Lib.Bytes
import Racnet.Lib.Cbor
import Racnet.Lib.Cbor.Items
import Racnet.Lib.Cbor.Shortest
import Racnet.Lib.Cbor.Skip
import Racnet.Lib.Cbor.Taken
import Racnet.Lib.Disk
import Racnet.Lib.Endian
import Racnet.Lib.Exec
import Racnet.Lib.Least
import Racnet.Lib.Ranks
import Racnet.Lib.Segments
import Racnet.Lib.Table
import Racnet.Lib.TokenBucket
import Racnet.Lib.Tree
import Racnet.Lib.Weight
import Racnet.Link.Driver
import Racnet.Link.Limiter
import Racnet.Noise.Cipher
import Racnet.Noise.Dh
import Racnet.Noise.Error
import Racnet.Noise.Handshake
import Racnet.Noise.Symmetric
import Racnet.Noise.Transport
import Racnet.Policy.DuplicateLinkPolicy
import Racnet.Primitives
import Racnet.Proof.Channel.Handshake
import Racnet.Proof.Channel.Lockstep
import Racnet.Proof.Channel.Transcript
import Racnet.Proof.Driver.Bodies
import Racnet.Proof.Driver.Calls
import Racnet.Proof.Driver.Cleartext
import Racnet.Proof.Driver.Conversation
import Racnet.Proof.Driver.Discipline
import Racnet.Proof.Driver.Establishment
import Racnet.Proof.Driver.Exhaustion
import Racnet.Proof.Driver.Framing
import Racnet.Proof.Driver.Greeting
import Racnet.Proof.Driver.Honest
import Racnet.Proof.Driver.InSync
import Racnet.Proof.Driver.Log
import Racnet.Proof.Driver.Pair
import Racnet.Proof.Driver.Script
import Racnet.Proof.Driver.Segmentation
import Racnet.Proof.Driver.Sessions
import Racnet.Proof.Driver.Stored
import Racnet.Proof.Driver.Trace
import Racnet.Proof.Driver.Transport
import Racnet.Proof.Format.Canonical
import Racnet.Proof.Format.Framing
import Racnet.Proof.Format.Reassembly
import Racnet.Proof.Format.RoundTrip
import Racnet.Proof.Limiter.Buckets
import Racnet.Proof.Limiter.Independence
import Racnet.Proof.Limiter.Memory
import Racnet.Proof.Limiter.Rate
import Racnet.Proof.Mesh.Writer
import Racnet.Proof.Negentropy.Answer
import Racnet.Proof.Negentropy.Codec
import Racnet.Proof.Negentropy.Completeness
import Racnet.Proof.Negentropy.Equal
import Racnet.Proof.Negentropy.Exchange
import Racnet.Proof.Negentropy.IdSum
import Racnet.Proof.Negentropy.Layout
import Racnet.Proof.Negentropy.Refinement
import Racnet.Proof.Negentropy.Replies
import Racnet.Proof.Negentropy.Reports
import Racnet.Proof.Negentropy.Robust
import Racnet.Proof.Negentropy.Safety
import Racnet.Proof.Negentropy.Separator
import Racnet.Proof.Negentropy.Split
import Racnet.Proof.Negentropy.Termination
import Racnet.Proof.Negentropy.Varint
import Racnet.Proof.Node.Framing
import Racnet.Proof.Node.Lifecycle
import Racnet.Proof.Node.Links
import Racnet.Proof.Node.Refinement
import Racnet.Proof.Node.Tables
import Racnet.Proof.Policy.DuplicateLink
import Racnet.Proof.Scheduler.Core
import Racnet.Proof.Scheduler.Erasure
import Racnet.Proof.Scheduler.EventStream
import Racnet.Proof.Scheduler.Mirror
import Racnet.Proof.Scheduler.Relay
import Racnet.Proof.Scheduler.Tracking
import Racnet.Proof.Scheduler.Waiting
import Racnet.Proof.Sessions.Abort
import Racnet.Proof.Sessions.Batches
import Racnet.Proof.Sessions.Concurrent
import Racnet.Proof.Sessions.Conservation
import Racnet.Proof.Sessions.Convergence
import Racnet.Proof.Sessions.Draining
import Racnet.Proof.Sessions.Framing
import Racnet.Proof.Sessions.Hostile
import Racnet.Proof.Sessions.Network
import Racnet.Proof.Sessions.Phases
import Racnet.Proof.Sessions.Table
import Racnet.Proof.Sim.Outcome
import Racnet.Proof.Sim.Queue
import Racnet.Proof.Sim.Stream
import Racnet.Proof.Storage.Arena
import Racnet.Proof.Storage.Balance
import Racnet.Proof.Storage.Coherence
import Racnet.Proof.Storage.Durability
import Racnet.Proof.Storage.Full
import Racnet.Proof.Storage.Growth
import Racnet.Proof.Storage.Histories
import Racnet.Proof.Storage.Index
import Racnet.Proof.Storage.Interchange
import Racnet.Proof.Storage.Overflow
import Racnet.Proof.Storage.Recovery
import Racnet.Proof.Storage.Running
import Racnet.Proof.Storage.Window
import Racnet.Sim.Net
import Racnet.Store.EntryStore
import Racnet.Store.Item
import Racnet.Store.Journal
import Racnet.Store.Order
import Racnet.Sync.Error
import Racnet.Sync.Negentropy.Bound
import Racnet.Sync.Negentropy.Engine
import Racnet.Sync.Negentropy.Exchange
import Racnet.Sync.Negentropy.Fingerprint
import Racnet.Sync.Negentropy.Ranges
import Racnet.Sync.Negentropy.Store
import Racnet.Sync.Negentropy.Varint
import Racnet.Sync.Session
import Racnet.Wire.Entry
import Racnet.Wire.Error
import Racnet.Wire.Frame
import Racnet.Wire.Message
import Racnet.Wire.Payload
