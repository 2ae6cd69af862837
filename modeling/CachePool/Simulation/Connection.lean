/-
# Simulated connections

One socket of the simulated network with both its ends: what the client can read,
how much it can write, and what the peer has received.
-/
import CachePool.Network.Basic
import CachePool.Simulation.Peer

namespace CachePool.Simulation

/-- The most octets a read gives. -/
def readLength : Nat := 16384

/-- A connection. -/
structure Connection where
  token : Token
  /-- The name of the peer. -/
  peer : String
  /-- Whether the client still holds the socket. -/
  isOpen : Bool
  established : Bool
  /-- The error stored with the socket. -/
  storedError : Option IoError
  /-- Whether the poller has to report the socket as readable. -/
  readable : Bool
  /-- Whether the poller has to report the socket as writable. -/
  writable : Bool
  /-- Data that arrived, the newest piece first. -/
  inbox : List Bytes
  /-- The end of the peer's stream, once it arrived. -/
  ending : Option Ending
  /-- How much the socket takes before it blocks, if it ever does. -/
  window : Option Nat
  /-- Whether the socket takes nothing any more. -/
  takesNothing : Bool
  /-- Whether the number of reads so far is even. -/
  readFresh : Bool
  /-- Whether the number of writes so far is even. -/
  writeFresh : Bool
  /-- What the socket took, the newest piece first. -/
  written : List Bytes
  /-- What the peer received behind the last whole request. -/
  received : Bytes
  /-- Whether the peer has ended its stream and listens no more. -/
  deaf : Bool
  /-- When the last thing the peer sent is due. -/
  lastDue : Nat

/-- What happens to a connection at an appointed time. -/
inductive Occurrence where
  | established
  | refused
  | data (bytes : Bytes)
  | ended (ending : Ending)
  | reopened

/-- Whether a connect completes. -/
def Occurrence.isEstablishment : Occurrence → Bool
  | established => true
  | _ => false

namespace Connection

/-- A connection that was just started. -/
def make (token : Token) (peer : String) (behaviour : Behaviour) : Connection where
  token := token
  peer := peer
  isOpen := true
  established := false
  storedError := none
  readable := false
  writable := false
  inbox := []
  ending := none
  window := behaviour.window
  takesNothing := false
  readFresh := true
  writeFresh := true
  written := []
  received := []
  deaf := false
  lastDue := 0

/-! ## Occurrences -/

/-- The connection after something happened to it, given how its peer behaves then. -/
def occur (connection : Connection) (behaviour : Behaviour) : Occurrence → Connection
  | .established => { connection with established := true, writable := true }
  | .refused =>
    { connection with
      storedError := some (.os 111 "Connection refused"), readable := true, writable := true }
  | .data bytes => { connection with inbox := bytes :: connection.inbox, readable := true }
  | .ended ending => { connection with ending := some ending, readable := true }
  | .reopened =>
    { connection with
      window := behaviour.window
      takesNothing := connection.takesNothing || behaviour.reopensToNothing
      writable := true }

/-! ## Reading -/

/-- What can be read, in order. -/
def available (connection : Connection) : Bytes :=
  connection.inbox.reverse.flatten

/-- A read that is not interrupted. -/
def take (connection : Connection) : ReadOutcome × Connection :=
  match connection.available with
  | [] =>
    match connection.ending with
    | none => (.wouldBlock, connection)
    | some .closed => (.closed, connection)
    | some .reset => (.failed (.os 104 "Connection reset by peer"), connection)
  | octet :: octets =>
    let waiting := octet :: octets
    (.data (waiting.take readLength), { connection with inbox := [waiting.drop readLength] })

/-- A read; `interrupts` says whether every other one is interrupted. -/
def read (connection : Connection) (interrupts : Bool) : ReadOutcome × Connection :=
  let next := { connection with readFresh := !connection.readFresh }
  if interrupts && connection.readFresh then (.interrupted, next) else next.take

/-- How much reading is left until the socket blocks. -/
def readCredit (connection : Connection) : Nat :=
  2 * connection.available.length + connection.readFresh.toNat

/-- Reading uses up what is left to read. -/
theorem readCredit_read_lt {connection after : Connection} {interrupts : Bool}
    {outcome : ReadOutcome} (read_eq : connection.read interrupts = (outcome, after))
    (moves : outcome = .interrupted ∨ ∃ bytes, outcome = .data bytes) :
    after.readCredit < connection.readCredit := by
  simp only [read] at read_eq
  split at read_eq
  next fresh =>
    cases read_eq
    have set : connection.readFresh = true := by simp_all
    simp [readCredit, available, set]
  next =>
    simp only [take] at read_eq
    split at read_eq
    · split at read_eq <;> cases read_eq <;> simp at moves
    · next octet octets waiting =>
      cases read_eq
      have whole : connection.available = octet :: octets := waiting
      have fewer : readLength = 16384 := rfl
      simp only [readCredit, whole]
      simp only [available, List.reverse_singleton, List.flatten_singleton, List.length_drop,
        List.length_cons]
      have parity : (!connection.readFresh).toNat ≤ 1 := Bool.toNat_le _
      omega

/-! ## Writing -/

/-- A write that is not interrupted: how much is taken. -/
def offer (connection : Connection) (behaviour : Behaviour) (bytes : Bytes) : WriteOutcome :=
  if connection.takesNothing || behaviour.takesNothing then .took 0
  else if connection.ending = some .reset then .failed (.os 32 "Broken pipe")
  else
    match connection.window with
    | none => .took bytes.length
    | some 0 => .wouldBlock
    | some window => .took (bytes.take window).length

/-- The connection after octets were taken. -/
def taken (connection : Connection) (bytes : Bytes) : Connection :=
  { connection with
    window := connection.window.map (· - bytes.length)
    written := bytes :: connection.written }

end Connection

end CachePool.Simulation
