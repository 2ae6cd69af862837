/-
# Links

The connection of a client to one server: its phase, its health and its queues.

    disconnected, dead  ──(work, retry eligible)──>  connecting
    connecting          ──(established)───────────>  connected
    connecting, connected  ──(failure)────────────>  dead

A dead server is excluded until the times after its last failure and its last
attempt have both passed.
-/
import CachePool.Client.Slot
import CachePool.Config.Basic

namespace CachePool

/-- A server of the pool. -/
structure Server where
  /-- Its place in the server list. -/
  index : Nat
  address : ServerAddress
  deriving DecidableEq

/-! ## Failures -/

/-- Why a link was torn down. -/
inductive Failure where
  | resolve (error : IoError)
  | connectTimeout
  | io (error : IoError)
  | closed
  | protocol (error : WireError)
  | removed
  | unresponsive (unanswered : Nat)
  deriving DecidableEq

/-- The wording of a failure. -/
def Failure.message : Failure → String
  | .resolve error => "address resolution failed: " ++ error.message
  | .connectTimeout => "connect timed out"
  | .io error => error.message
  | .closed => "connection closed by server"
  | .protocol error => "protocol desync: " ++ error.message
  | .removed => "server removed from pool"
  | .unresponsive unanswered =>
    Decimal.text unanswered ++ " timed-out requests still unanswered"

/-! ## Phases -/

/-- How far a link is connected. A link holds a socket while it connects and while
it is connected, and a deadline while it connects. -/
inductive Phase where
  | disconnected
  | connecting (socket : Socket) (deadline : Nat)
  | connected (socket : Socket)
  | dead
  deriving DecidableEq

/-- What others see of a phase. -/
inductive Health where
  | disconnected
  | connecting
  | connected
  | dead
  deriving DecidableEq

namespace Phase

/-- The health of a link in a phase. -/
def health : Phase → Health
  | disconnected => .disconnected
  | connecting .. => .connecting
  | connected _ => .connected
  | dead => .dead

/-- The socket a link holds. -/
def socket? : Phase → Option Socket
  | connecting socket _ => some socket
  | connected socket => some socket
  | disconnected => none
  | dead => none

/-- When a connect counts as failed. -/
def deadline? : Phase → Option Nat
  | connecting _ deadline => some deadline
  | _ => none

end Phase

/-! ## Links -/

/-- The connection to one server. -/
structure Link where
  server : Server
  /-- The number under which its sockets are registered. -/
  token : Token
  phase : Phase
  lastAttempt : Option Nat
  lastFailure : Option Nat
  /-- How often a connect was started. -/
  attempts : Nat
  /-- Octets not written yet, frame by frame. -/
  outbound : Bytes
  /-- How much of the first unsent frame is written. -/
  headWritten : Nat
  /-- Commands whose frames are not wholly written. -/
  unsent : List Slot
  /-- Commands whose replies are due, in order. -/
  awaiting : List Slot
  /-- Octets received behind the last whole reply. -/
  inbound : Bytes
  deriving DecidableEq

/-- A link as a caller sees it. -/
structure LinkStatus where
  server : Server
  health : Health
  attempts : Nat
  lastAttempt : Option Nat
  lastFailure : Option Nat
  /-- How many commands someone still waits for. -/
  pending : Nat
  deriving DecidableEq

namespace Link

/-- The link to a server that was never reached for. -/
def make (server : Server) (token : Token) : Link where
  server := server
  token := token
  phase := .disconnected
  lastAttempt := none
  lastFailure := none
  attempts := 0
  outbound := []
  headWritten := 0
  unsent := []
  awaiting := []
  inbound := []

/-- The text of the server's address. -/
def address (link : Link) : String :=
  link.server.address.text

/-- How many live slots satisfy a condition. -/
def liveCount (link : Link) (condition : Slot → Bool) : Nat :=
  (link.unsent ++ link.awaiting).countP fun slot => slot.isLive && condition slot

/-- How many slots are abandoned. -/
def abandonedCount (link : Link) : Nat :=
  (link.unsent ++ link.awaiting).countP (·.abandoned)

/-- The view of a caller. -/
def status (link : Link) : LinkStatus where
  server := link.server
  health := link.phase.health
  attempts := link.attempts
  lastAttempt := link.lastAttempt
  lastFailure := link.lastFailure
  pending := link.liveCount fun _ => true

/-- Whether a connect may be started. -/
def isRetryEligible (link : Link) (now : Nat) (timeouts : Timeouts) : Bool :=
  match link.lastFailure with
  | none => true
  | some failure =>
    let spaced := match link.lastAttempt with
      | some attempt => attempt + timeouts.reconnect ≤ now
      | none => true
    failure + timeouts.dead ≤ now && spaced

/-- The error of a command for a server that cannot be reached, with the reason. -/
def connectionError (link : Link) (reason : String) : ClientError :=
  .connection link.address reason

/-- The error of a command for an excluded server. -/
def deadError (link : Link) : ClientError :=
  link.connectionError "server is marked dead"

end Link

end CachePool
