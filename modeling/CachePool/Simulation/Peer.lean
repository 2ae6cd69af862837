/-
# Simulated peers

What stands behind an address of the simulated network: a store, and how the
peer treats its connections.  A peer answers requests by its script first, and
from its store once the script is at its end.
-/
import CachePool.Store.Basic

namespace CachePool.Simulation

/-! ## Scripted replies -/

/-- A response frame whose header may lie. A field that is absent is the right
one. -/
structure ForgedFrame where
  magic : UInt8
  opcode : Option UInt8
  keyLength : Option UInt16
  extrasLength : Option UInt8
  dataType : UInt8
  status : UInt16
  bodyLength : Option UInt32
  cas : UInt64
  /-- What is added to the tag of the request. -/
  tagOffset : UInt32
  extras : Bytes
  key : Bytes
  value : Bytes

/-- A frame of a scripted reply. -/
inductive ScriptFrame where
  | raw (bytes : Bytes)
  | forged (frame : ForgedFrame)

namespace ScriptFrame

/-- The octets of a frame that answers a request, or none. -/
def encode (request : Option Request) : ScriptFrame → Bytes
  | raw bytes => bytes
  | forged frame =>
    let body := frame.extras ++ frame.key ++ frame.value
    let opcode := match request with
      | some request => request.opcode.code
      | none => 0
    let tag := match request with
      | some request => request.tag
      | none => 0
    let header : Header :=
      { magic := frame.magic
        opcode := frame.opcode.getD opcode
        keyLength := frame.keyLength.getD (UInt16.ofNat frame.key.length)
        extrasLength := frame.extrasLength.getD (UInt8.ofNat frame.extras.length)
        dataType := frame.dataType
        selector := frame.status
        bodyLength := frame.bodyLength.getD (UInt32.ofNat body.length)
        tag := tag + frame.tagOffset
        cas := frame.cas }
    header.encode ++ body

end ScriptFrame

/-- How the stream of a peer ends. -/
inductive Ending where
  | closed
  | reset
  deriving DecidableEq

/-- What a peer does about one request. -/
inductive Reaction where
  /-- The store executes it. -/
  | pass
  /-- Frames are sent, after a delay of their own if there is one; then the stream
  may end. -/
  | reply (after : Option Nat) (frames : List ScriptFrame) (ending : Option Ending)

/-! ## Peers -/

/-- How a peer treats a connect. -/
inductive Reception where
  | accepting
  | refusing
  /-- The connect never completes. -/
  | hanging
  /-- Starting the connect fails. -/
  | unreachable
  /-- The socket cannot be registered. -/
  | unregistrable
  /-- The connect completes, but its peer is unknown. -/
  | nameless
  deriving DecidableEq

/-- How a peer treats its connections. Times are milliseconds. -/
structure Behaviour where
  reception : Reception
  /-- How long a connect takes. -/
  connectDelay : Nat
  /-- How long a reply takes. -/
  latency : Nat
  /-- The length of the pieces in which data is sent, if it is cut. -/
  pieceLength : Option Nat
  /-- The time between a piece and the next. -/
  pieceDelay : Nat
  /-- How many octets a socket takes before it blocks, if it ever does. -/
  window : Option Nat
  /-- How long a full socket blocks, if it does not block for ever. -/
  reopenDelay : Option Nat
  /-- Whether a socket that was full takes nothing afterwards. -/
  reopensToNothing : Bool
  /-- Whether no socket takes anything. -/
  takesNothing : Bool
  /-- Whether what is received is ignored. -/
  stalled : Bool
  /-- Whether every other read and write is interrupted. -/
  interrupts : Bool
  /-- Sent when a connection is established. -/
  greeting : Bytes
  /-- The reactions to the next requests. -/
  script : List Reaction

/-- The behaviour of a peer that answers from its store at once. -/
def Behaviour.plain : Behaviour where
  reception := .accepting
  connectDelay := 0
  latency := 0
  pieceLength := none
  pieceDelay := 0
  window := none
  reopenDelay := none
  reopensToNothing := false
  takesNothing := false
  stalled := false
  interrupts := false
  greeting := []
  script := []

/-- A peer. -/
structure Peer where
  behaviour : Behaviour
  store : Store

/-- What a peer sends: data after a delay, and perhaps the end of its stream. -/
structure Transmission where
  delay : Nat
  data : Bytes
  ending : Option Ending

/-- What a peer sends first on a connection. -/
def Transmission.greeting (behaviour : Behaviour) : Transmission :=
  { delay := 0, data := behaviour.greeting, ending := none }

namespace Peer

/-- The milliseconds after the epoch at which every simulation starts. -/
def epochOffset : Nat := 1700000000000

/-- The process number of every store. -/
def processId : Nat := 4242

/-- A peer with an empty store, made at a time of the simulation. -/
def make (behaviour : Behaviour) (now : Nat) : Peer where
  behaviour := behaviour
  store := .empty processId (epochOffset + now)

/-- Stores items in order. -/
def preload (peer : Peer) (now : Nat) (items : List (Bytes × Bytes × UInt32)) : Peer :=
  let store := items.foldl (fun store (key, value, flags) =>
    (store.execute (epochOffset + now) (.set key value flags 0)).2) peer.store
  { peer with store }

/-- Answers a request. -/
def react (peer : Peer) (now : Nat) (request : Request) : Transmission × Peer :=
  let pass (peer : Peer) : Transmission × Peer :=
    let (responses, store) := peer.store.execute (epochOffset + now) request
    ({ delay := peer.behaviour.latency, data := responses.flatMap Response.frame
       ending := none },
      { peer with store })
  match peer.behaviour.script with
  | [] => pass peer
  | reaction :: script =>
    let peer := { peer with behaviour := { peer.behaviour with script } }
    match reaction with
    | .pass => pass peer
    | .reply after frames ending =>
      ({ delay := after.getD peer.behaviour.latency
         data := frames.flatMap (ScriptFrame.encode (some request))
         ending },
        peer)

end Peer

end CachePool.Simulation
