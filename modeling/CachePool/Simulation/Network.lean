/-
# The simulated network

A simulated world as the network of a client.  A wait delivers what is due, jumps
from one appointment to the next, and ends as soon as a socket became ready.
-/
import CachePool.Simulation.World

namespace CachePool.Simulation.World

/-! ## Names -/

/-- The endpoints of a host: an address in numbers is its own, other hosts are looked
up. -/
def lookupHost (world : World) (host : String) (port : UInt16) :
    Except IoError (List Endpoint) :=
  match IpAddress.parse? host.toList with
  | some address => .ok [{ address, port }]
  | none =>
    if '\x00' ∈ host.toList then
      .error (.other "file name contained an unexpected NUL byte")
    else
      match world.names.lookup host with
      | some addresses => .ok (addresses.map fun address => { address, port })
      | none =>
        .error (.other "failed to lookup address information: Name or service not known")

/-! ## Connecting -/

/-- What is appointed for a connect that was started. -/
def connectAppointments (behaviour : Behaviour) (socket : Socket) (now : Nat) :
    List Appointment :=
  let time := now + behaviour.connectDelay
  match behaviour.reception with
  | .refusing => [{ time, socket, occurrence := .refused }]
  | .accepting | .nameless => [{ time, socket, occurrence := .established }]
  | .hanging | .unreachable | .unregistrable => []

/-- Starts a connect. -/
def startConnect (world : World) (token : Token) (endpoint : Endpoint) :
    Except IoError Socket × World :=
  let name := endpoint.text
  let behaviour := world.behaviourOf name
  let socket := world.connections.length
  let connection := Connection.make token name behaviour
  match behaviour.reception with
  | .unreachable => (.error (.os 101 "Network is unreachable"), world)
  | .unregistrable =>
    (.error (.os 28 "No space left on device"),
      { world with connections := world.connections ++ [{ connection with isOpen := false }] })
  | _ =>
    let world := { world with connections := world.connections ++ [connection] }
    (.ok socket, world.appoint (connectAppointments behaviour socket world.clock))

/-- Closes a socket; nothing more happens to it. -/
def shut (world : World) (socket : Socket) : World :=
  let agenda := world.agenda.filter fun appointment => appointment.socket ≠ socket
  let world := { world with agenda }
  match world.connections[socket]? with
  | some connection => world.put socket { connection with isOpen := false }
  | none => world

/-- Takes the error stored with a socket. -/
def takeStoredError (world : World) (socket : Socket) : Option IoError × World :=
  match world.connections[socket]? with
  | some connection =>
    (connection.storedError, world.put socket { connection with storedError := none })
  | none => (none, world)

/-- Whether a connect has completed. -/
def connectState (world : World) (socket : Socket) : PeerState :=
  match world.connections[socket]? with
  | none => .notConnected
  | some connection =>
    if !connection.established then .notConnected
    else if (world.behaviourOf connection.peer).reception = .nameless then
      .failed (.os 22 "Invalid argument")
    else .established

/-! ## Reading and writing -/

/-- The error of a socket that does not exist. -/
def badSocket : IoError :=
  .os 9 "Bad file descriptor"

/-- Reads from a socket. -/
def readSocket (world : World) (socket : Socket) : ReadOutcome × World :=
  match world.connections[socket]? with
  | none => (.failed badSocket, world)
  | some connection =>
    let (outcome, connection) := connection.read (world.behaviourOf connection.peer).interrupts
    (outcome, world.put socket connection)

/-- The world after a socket took octets: a socket that is full may be appointed to
open again, and the peer receives them. -/
def accept (world : World) (socket : Socket) (connection : Connection) (behaviour : Behaviour)
    (bytes : Bytes) : World :=
  let connection := connection.taken bytes
  let world := world.put socket connection
  let reopening := match connection.window, behaviour.reopenDelay with
    | some 0, some delay =>
      [{ time := world.clock + delay, socket, occurrence := .reopened : Appointment }]
    | _, _ => []
  (world.appoint reopening).receive socket bytes

/-- Offers octets to a socket. -/
def writeSocket (world : World) (socket : Socket) (bytes : Bytes) : WriteOutcome × World :=
  match world.connections[socket]? with
  | none => (.failed badSocket, world)
  | some connection =>
    let behaviour := world.behaviourOf connection.peer
    let next := { connection with writeFresh := !connection.writeFresh }
    if behaviour.interrupts && connection.writeFresh then (.interrupted, world.put socket next)
    else
      let outcome := next.offer behaviour bytes
      match outcome with
      | .took (count + 1) =>
        (outcome, world.accept socket next behaviour (bytes.take (count + 1)))
      | _ => (outcome, world.put socket next)

/-- How much reading is left on a socket until it blocks. -/
def socketReadCredit (world : World) (socket : Socket) : Nat :=
  ((world.connections[socket]?).map Connection.readCredit).getD 0

/-- How many interruptions a writer may meet in a row. -/
def socketWriteCredit (world : World) (socket : Socket) : Nat :=
  ((world.connections[socket]?).map (·.writeFresh.toNat)).getD 0

/-- A connection that was put in place of another is found there. -/
theorem connections_put_self {world : World} {socket : Socket} {old : Connection}
    (found : world.connections[socket]? = some old) (connection : Connection) :
    (world.put socket connection).connections[socket]? = some connection := by
  have bound := (List.getElem?_eq_some_iff.mp found).1
  simp [put, bound]

/-- Reading uses up what is left to read. -/
theorem socketReadCredit_lt {world after : World} {socket : Socket} {outcome : ReadOutcome}
    (read_eq : world.readSocket socket = (outcome, after))
    (moves : outcome = .interrupted ∨ ∃ bytes, outcome = .data bytes) :
    after.socketReadCredit socket < world.socketReadCredit socket := by
  simp only [readSocket] at read_eq
  split at read_eq
  · cases read_eq
    simp at moves
  · next connection found =>
    cases read_eq
    simp only [socketReadCredit, connections_put_self found, found, Option.map_some,
      Option.getD_some]
    exact Connection.readCredit_read_lt rfl moves

/-- An offer that is not interrupted is not answered as if it were. -/
theorem offer_ne_interrupted (connection : Connection) (behaviour : Behaviour) (bytes : Bytes) :
    connection.offer behaviour bytes ≠ .interrupted := by
  simp only [Connection.offer]
  repeat' split
  all_goals exact nofun

/-- Interruptions use up the patience of a writer. -/
theorem socketWriteCredit_lt {world after : World} {socket : Socket} {bytes : Bytes}
    (write_eq : world.writeSocket socket bytes = (.interrupted, after)) :
    after.socketWriteCredit socket < world.socketWriteCredit socket := by
  simp only [writeSocket] at write_eq
  split at write_eq
  · cases write_eq
  · next connection found =>
    split at write_eq
    · next fresh =>
      cases write_eq
      have set : connection.writeFresh = true := by simp_all
      simp [socketWriteCredit, connections_put_self found, found, set]
    · have answered := congrArg Prod.fst write_eq
      split at answered <;> exact absurd answered (offer_ne_interrupted _ _ _)

/-! ## Waiting -/

/-- The sockets that became ready, in the order of their numbers. -/
def readyEvents (world : World) : List Event :=
  (world.connections.filter fun connection =>
      connection.isOpen && (connection.readable || connection.writable)).map fun connection =>
    { token := connection.token, readable := connection.readable,
      writable := connection.writable }

/-- The world after the ready sockets were reported. -/
def reported (world : World) : World :=
  { world with
    connections := world.connections.map fun connection =>
      { connection with readable := false, writable := false } }

/-- The end of a wait: the ready sockets are reported, or the limit is reached. -/
def settled (world : World) (limit : Nat) : List Event × World :=
  match world.readyEvents with
  | [] => ([], { world with clock := limit })
  | events => (events, world.reported)

/-- Jumps from appointment to appointment until a socket is ready or the limit is
reached. What is due already happens before anything is reported. -/
def waitUntil (limit : Nat) (world : World) : List Event × World :=
  match _planned : world.agenda with
  | [] => world.settled limit
  | next :: later =>
    if next.time ≤ world.clock then waitUntil limit (world.proceed next later)
    else if world.readyEvents = [] ∧ next.time ≤ limit then
      waitUntil limit (world.proceed next later)
    else world.settled limit
termination_by (world.pendingConnects, world.agenda.length)
decreasing_by all_goals exact proceed_lt _planned

/-- Waits for events, at most for a time, unless a fault comes first. -/
def wait (world : World) (timeout : Nat) : PollOutcome × World :=
  match world.faults with
  | .interrupted :: faults => (.interrupted, { world with faults })
  | .failed :: faults => (.failed (.os 5 "Input/output error"), { world with faults })
  | [] =>
    let (events, world) := waitUntil (world.clock + timeout) world
    (.ready events, world)

/-- How often one call may wait. -/
def waitLimit : Nat := 1000000000

/-- A simulated world is a network. -/
instance : Network World where
  now := clock
  lookup := lookupHost
  connect := startConnect
  takeError := takeStoredError
  peerState := connectState
  read := readSocket
  write := writeSocket
  close := shut
  poll := wait
  pollLimit := fun _ => waitLimit
  readCredit := socketReadCredit
  writeCredit := socketWriteCredit
  read_credit_lt := socketReadCredit_lt
  write_credit_lt := socketWriteCredit_lt

/-! ## What was written -/

/-- What each connection took since the last time, by its number, for those that took
something. -/
def collectWritten (world : World) : List (Socket × String × Bytes) × World :=
  (world.connections.zipIdx.filterMap fun (connection, socket) =>
      if connection.written = [] then none
      else some (socket, connection.peer, connection.written.reverse.flatten),
    { world with
      connections := world.connections.map fun connection => { connection with written := [] } })

end CachePool.Simulation.World
