/-
# Networks

What a client needs of the world around it: a clock, name lookup, non-blocking
sockets, and a poller that waits for them.

A `Network` is given by the answers of every operation in a state and the state
after it.  Sockets and their answers are arbitrary but for two laws, which say
that a socket cannot keep a client busy for ever:

* `read_credit_lt`: data and interruptions use up what is left to read;
* `write_credit_lt`: interruptions use up the patience of a writer.
-/
import CachePool.Bytes
import CachePool.Network.Endpoint

namespace CachePool

/-! ## Answers of the system -/

/-- Why a system call failed. -/
inductive IoError where
  | os (code : Nat) (text : String)
  | other (text : String)
  deriving DecidableEq

/-- The wording of a system error, without its number. -/
def IoError.text : IoError → String
  | .os _ text => text
  | .other text => text

/-- The wording of a system error. -/
def IoError.message : IoError → String
  | .os code text => text ++ " (os error " ++ Decimal.text code ++ ")"
  | .other text => text

/-- The number under which a poller reports a socket. -/
abbrev Token := Nat

/-- A socket of the network. -/
abbrev Socket := Nat

/-- Whether a connect has completed. -/
inductive PeerState where
  | established
  | notConnected
  | failed (error : IoError)
  deriving DecidableEq

/-- What a read gave. -/
inductive ReadOutcome where
  | data (bytes : Bytes)
  /-- The peer sends no more. -/
  | closed
  | interrupted
  | wouldBlock
  | failed (error : IoError)
  deriving DecidableEq

/-- What a write did. -/
inductive WriteOutcome where
  /-- So many octets from the front were taken. -/
  | took (count : Nat)
  | interrupted
  | wouldBlock
  | failed (error : IoError)
  deriving DecidableEq

/-- A socket that became ready. -/
structure Event where
  token : Token
  readable : Bool
  writable : Bool
  deriving DecidableEq

/-- How a wait ended. -/
inductive PollOutcome where
  /-- By events, or by none when the time was over. -/
  | ready (events : List Event)
  | interrupted
  | failed (error : IoError)
  deriving DecidableEq

/-! ## Networks -/

/-- The operations of a network whose states are `ω`. Times are milliseconds. -/
class Network (ω : Type) where
  /-- The time. -/
  now : ω → Nat
  /-- The endpoints of a host. -/
  lookup : ω → String → UInt16 → Except IoError (List Endpoint)
  /-- Opens a socket, starts to connect it and registers it under a token. -/
  connect : ω → Token → Endpoint → Except IoError Socket × ω
  /-- Takes the error stored with a socket. -/
  takeError : ω → Socket → Option IoError × ω
  /-- Whether the connect of a socket has completed. -/
  peerState : ω → Socket → PeerState
  /-- Reads what a socket has, up to some length. -/
  read : ω → Socket → ReadOutcome × ω
  /-- Offers octets to a socket. -/
  write : ω → Socket → Bytes → WriteOutcome × ω
  /-- Closes a socket. -/
  close : ω → Socket → ω
  /-- Waits for registered sockets, at most for a time. -/
  poll : ω → Nat → PollOutcome × ω
  /-- How often one call may wait. -/
  pollLimit : ω → Nat
  /-- Bounds the reads of a socket until it blocks. -/
  readCredit : ω → Socket → Nat
  /-- Bounds the interruptions of a writer until a socket answers. -/
  writeCredit : ω → Socket → Nat
  read_credit_lt : ∀ {net after : ω} {socket : Socket} {outcome : ReadOutcome},
    read net socket = (outcome, after) →
    (outcome = .interrupted ∨ ∃ bytes, outcome = .data bytes) →
    readCredit after socket < readCredit net socket
  write_credit_lt : ∀ {net after : ω} {socket : Socket} {bytes : Bytes},
    write net socket bytes = (.interrupted, after) →
    writeCredit after socket < writeCredit net socket

/-- The endpoint at which a client reaches a host: the first one. -/
def Network.resolve {ω : Type} [Network ω] (net : ω) (host : String) (port : UInt16) :
    Except IoError Endpoint :=
  match Network.lookup net host port with
  | .error error => .error error
  | .ok [] => .error (.other ("no address found for " ++ host))
  | .ok (endpoint :: _) => .ok endpoint

end CachePool
