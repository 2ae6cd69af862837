/-
# Serving connections

A store that answers a stream of octets: whole requests are executed in order and
their responses sent back.  A refused frame ends the connection, and the replies
to the frames that came with it in one chunk are lost; their effect stays.
-/
import CachePool.Store.Basic

namespace CachePool

/-- How a server treats its connections. -/
inductive ServingMode where
  | answering
  /-- Reads and never answers. -/
  | stalled
  deriving DecidableEq

/-- One connection of a server. -/
structure Serving where
  store : Store
  /-- Octets received behind the last whole request. -/
  buffer : Bytes
  /-- Octets sent back. -/
  sent : Bytes
  /-- Whether the server still reads. -/
  isOpen : Bool

namespace Store

/-- Executes requests in order and collects their responses. -/
def executeAll (store : Store) (now : Nat) : List Request → List Response × Store
  | [] => ([], store)
  | request :: requests =>
    let (responses, store) := store.execute now request
    let (more, store) := executeAll store now requests
    (responses ++ more, store)

/-- Counts a connection that was opened. -/
def connectionOpened (store : Store) : Store :=
  { store with counters := { store.counters with connections := store.counters.connections + 1 } }

end Store

namespace Serving

/-- A connection just opened. -/
def accept (store : Store) : Serving where
  store := store.connectionOpened
  buffer := []
  sent := []
  isOpen := true

/-- Handles one chunk that arrived. -/
def receive (mode : ServingMode) (now : Nat) (serving : Serving) (chunk : Bytes) : Serving :=
  if !serving.isOpen || mode = .stalled then serving
  else
    let cut := Request.kind.split (serving.buffer ++ chunk)
    let (responses, store) := serving.store.executeAll now (cut.frames.map (·.1))
    match cut.fault with
    | none =>
      { store, buffer := cut.rest, isOpen := true
        sent := serving.sent ++ responses.flatMap Response.frame }
    | some _ => { store, buffer := [], isOpen := false, sent := serving.sent }

/-- A whole connection: every chunk in order, then the end. -/
def run (mode : ServingMode) (now : Nat) (store : Store) (chunks : List Bytes) : Serving :=
  chunks.foldl (receive mode now) (accept store)

/-- Connections one after another: what each was sent, and the store behind them. -/
def runAll (mode : ServingMode) (now : Nat) (store : Store) :
    List (List Bytes) → List Bytes × Store
  | [] => ([], store)
  | chunks :: connections =>
    let serving := run mode now store chunks
    let (replies, store) := runAll mode now serving.store connections
    (serving.sent :: replies, store)

end Serving

end CachePool
