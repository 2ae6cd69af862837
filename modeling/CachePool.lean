/-
# CachePool

A client for pools of cache servers that speak the binary cache protocol: the
wire format, the routing of keys, the connections and the calls, together with
an in-memory server, a simulated network and the command line.
-/
import CachePool.Bytes
import CachePool.Bytes.Lemmas
import CachePool.Client.Basic
import CachePool.Client.Calls
import CachePool.Client.Error
import CachePool.Client.Ledger
import CachePool.Client.Output
import CachePool.Client.Pool
import CachePool.Client.Slot
import CachePool.CommandLine.Arguments
import CachePool.CommandLine.Run
import CachePool.Config.Basic
import CachePool.Config.Document
import CachePool.Link.Basic
import CachePool.Link.Queue
import CachePool.Link.Steps
import CachePool.Log
import CachePool.Main
import CachePool.Network.Basic
import CachePool.Network.Endpoint
import CachePool.Proofs.Abandoning
import CachePool.Proofs.Addresses
import CachePool.Proofs.Advancing
import CachePool.Proofs.Alike
import CachePool.Proofs.Answering
import CachePool.Proofs.Arrivals
import CachePool.Proofs.Attending
import CachePool.Proofs.Backlog
import CachePool.Proofs.Blocking
import CachePool.Proofs.Calls
import CachePool.Proofs.Chunks
import CachePool.Proofs.Clocks
import CachePool.Proofs.Codec
import CachePool.Proofs.Completions
import CachePool.Proofs.Confirmations
import CachePool.Proofs.Conservation
import CachePool.Proofs.Conversation
import CachePool.Proofs.Counting
import CachePool.Proofs.Departures
import CachePool.Proofs.Directs
import CachePool.Proofs.Documents
import CachePool.Proofs.Draining
import CachePool.Proofs.Drives
import CachePool.Proofs.Effects
import CachePool.Proofs.Expiry
import CachePool.Proofs.Faults
import CachePool.Proofs.Forgetting
import CachePool.Proofs.Health
import CachePool.Proofs.Hearing
import CachePool.Proofs.Hosts
import CachePool.Proofs.Ideal
import CachePool.Proofs.Instants
import CachePool.Proofs.Issuing
import CachePool.Proofs.Labels
import CachePool.Proofs.LateReplies
import CachePool.Proofs.Lines
import CachePool.Proofs.LinkSteps
import CachePool.Proofs.Links
import CachePool.Proofs.Operations
import CachePool.Proofs.Owners
import CachePool.Proofs.Queues
import CachePool.Proofs.Rack
import CachePool.Proofs.Refinement
import CachePool.Proofs.Rejections
import CachePool.Proofs.Relisting
import CachePool.Proofs.Replies
import CachePool.Proofs.Retries
import CachePool.Proofs.Rounds
import CachePool.Proofs.Routing
import CachePool.Proofs.Script
import CachePool.Proofs.ServedStreams
import CachePool.Proofs.Serving
import CachePool.Proofs.Sessions
import CachePool.Proofs.Standing
import CachePool.Proofs.Steps
import CachePool.Proofs.StoreReplies
import CachePool.Proofs.Streams
import CachePool.Proofs.Survivors
import CachePool.Proofs.Sweeping
import CachePool.Proofs.Teardown
import CachePool.Proofs.Ties
import CachePool.Proofs.Trace
import CachePool.Proofs.Transmission
import CachePool.Proofs.Versions
import CachePool.Proofs.Waiting
import CachePool.Proofs.Wire
import CachePool.Ring
import CachePool.Server.Address
import CachePool.Server.List
import CachePool.Simulation.Connection
import CachePool.Simulation.Network
import CachePool.Simulation.Peer
import CachePool.Simulation.World
import CachePool.Store.Basic
import CachePool.Store.Items
import CachePool.Store.Serving
import CachePool.Text.Blank
import CachePool.Text.Decimal
import CachePool.Text.Hexadecimal
import CachePool.Text.JsonString
import CachePool.Text.Printable
import CachePool.Text.Quoted
import CachePool.Text.Utf8
import CachePool.Wire.Error
import CachePool.Wire.Frame
import CachePool.Wire.Header
import CachePool.Wire.Opcode
import CachePool.Wire.Request
import CachePool.Wire.Response
import CachePool.Wire.Status
