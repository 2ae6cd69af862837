/-
# Simulated worlds

A network with a clock, names, peers and connections, in which everything that
happens later is appointed in an agenda.  Time moves only while someone waits.

A peer handles every whole request the moment the client writes its last octet.
What it sends is due after a delay, and never before what it sent earlier on the
same connection.

How a peer behaves is looked up when it matters, so a new behaviour holds for open
connections too; only the outcome of a connect that was started stays as it was.
-/
import CachePool.Server.Address
import CachePool.Simulation.Connection

namespace CachePool.Simulation

/-- Something that will happen to a connection. -/
structure Appointment where
  time : Nat
  socket : Socket
  occurrence : Occurrence

/-- How a coming wait fails. -/
inductive PollFault where
  | interrupted
  | failed
  deriving DecidableEq

/-- A simulated world. -/
structure World where
  clock : Nat
  names : List (String × List IpAddress)
  /-- The peers by the text of their endpoint. -/
  peers : List (String × Peer)
  /-- The connections by the number of their socket. -/
  connections : List Connection
  /-- What will happen, in order; what is due at one time happens as appointed. -/
  agenda : List Appointment
  /-- The faults of the next waits. -/
  faults : List PollFault

namespace World

/-- A world without peers, at time zero. -/
def empty (names : List (String × List IpAddress)) : World where
  clock := 0
  names := names
  peers := []
  connections := []
  agenda := []
  faults := []

/-! ## Peers -/

/-- The peer with a name. -/
def peer? (world : World) (name : String) : Option Peer :=
  world.peers.lookup name

/-- The world with a peer put under a name. -/
def putPeer (world : World) (name : String) (peer : Peer) : World :=
  { world with peers := (name, peer) :: world.peers.filter fun entry => entry.1 ≠ name }

/-- Gives a name a new behaviour and stores items there; what was stored stays. -/
def install (world : World) (name : String) (behaviour : Behaviour)
    (items : List (Bytes × Bytes × UInt32)) : World :=
  let peer := match world.peer? name with
    | some peer => { peer with behaviour }
    | none => .make behaviour world.clock
  world.putPeer name (peer.preload world.clock items)

/-- The behaviour behind a connection; nobody listens where there is no peer. -/
def behaviourOf (world : World) (name : String) : Behaviour :=
  match world.peer? name with
  | some peer => peer.behaviour
  | none => { Behaviour.plain with reception := .refusing }

/-- The value a peer stores under a key. -/
def peek (world : World) (name : String) (key : Bytes) : Option Bytes × World :=
  match world.peer? name with
  | none => (none, world)
  | some peer =>
    let (value, store) := peer.store.peek (Peer.epochOffset + world.clock) key
    (value, world.putPeer name { peer with store })

/-! ## Connections and the agenda -/

/-- The world with a connection replaced. -/
def put (world : World) (socket : Socket) (connection : Connection) : World :=
  { world with connections := world.connections.set socket connection }

/-- Appoints things that are in order among themselves. -/
def appoint (world : World) (appointments : List Appointment) : World :=
  { world with agenda := world.agenda.merge appointments fun a b => a.time ≤ b.time }

/-- Data cut into pieces of a length, none of them empty. -/
def pieces (length : Option Nat) (data : Bytes) : List Bytes :=
  match length, data with
  | _, [] => []
  | none, data => [data]
  | some 0, data => [data]
  | some (length + 1), data => cut length data
where
  /-- Data cut into pieces of `length + 1` octets. -/
  cut (length : Nat) : Bytes → List Bytes
    | [] => []
    | octet :: octets => (octet :: octets.take length) :: cut length (octets.drop length)
  termination_by data => data.length
  decreasing_by simp only [List.length_cons, List.length_drop]; omega

/-- The appointments of data sent from a time on, and the time of the last. -/
def dataAppointments (behaviour : Behaviour) (socket : Socket) (start : Nat) (data : Bytes) :
    List Appointment × Nat :=
  let parts := pieces behaviour.pieceLength data
  (parts.zipIdx.map fun (bytes, index) =>
      { time := start + index * behaviour.pieceDelay, socket, occurrence := .data bytes },
    start + (parts.length - 1) * behaviour.pieceDelay)

/-- Sends what a peer has to send on a connection. -/
def transmit (world : World) (socket : Socket) (transmission : Transmission) : World :=
  match world.connections[socket]? with
  | none => world
  | some connection =>
    let start := max (world.clock + transmission.delay) connection.lastDue
    let (data, last) :=
      dataAppointments (world.behaviourOf connection.peer) socket start transmission.data
    let ending := match transmission.ending with
      | some ending => [{ time := last, socket, occurrence := .ended ending : Appointment }]
      | none => []
    let lastDue := if data = [] ∧ ending = [] then connection.lastDue else last
    let connection :=
      { connection with lastDue, deaf := connection.deaf || transmission.ending.isSome }
    (world.put socket connection).appoint (data ++ ending)

/-! ## Receiving -/

/-- Handles requests in order, until the peer listens no more. -/
def handle (socket : Socket) (world : World) : List Request → World
  | [] => world
  | request :: requests =>
    match world.connections[socket]? with
    | none => world
    | some connection =>
      if connection.deaf then world
      else
        match world.peer? connection.peer with
        | none => world
        | some peer =>
          let (transmission, after) := peer.react world.clock request
          handle socket ((world.putPeer connection.peer after).transmit socket transmission)
            requests

/-- Gives a peer octets that were written to a connection. A refused frame makes it
end its stream. -/
def receive (world : World) (socket : Socket) (bytes : Bytes) : World :=
  match world.connections[socket]? with
  | none => world
  | some connection =>
    let behaviour := world.behaviourOf connection.peer
    if connection.deaf || behaviour.stalled then world
    else
      let cut := Request.kind.split (connection.received ++ bytes)
      let world := world.put socket { connection with received := cut.rest }
      let world := handle socket world (cut.frames.map (·.1))
      if cut.fault.isSome && !((world.connections[socket]?).any (·.deaf)) then
        world.transmit socket { delay := behaviour.latency, data := [], ending := some .closed }
      else world

/-! ## Time -/

/-- The world after something happened to a connection. A peer greets as soon as it is
connected. -/
def occur (world : World) (appointment : Appointment) : World :=
  match world.connections[appointment.socket]? with
  | none => world
  | some connection =>
    let behaviour := world.behaviourOf connection.peer
    let after :=
      world.put appointment.socket (connection.occur behaviour appointment.occurrence)
    if appointment.occurrence.isEstablishment then
      after.transmit appointment.socket (.greeting behaviour)
    else after

/-- The world after the first appointment of an agenda, at its time. -/
def proceed (world : World) (next : Appointment) (later : List Appointment) : World :=
  { world with clock := max world.clock next.time, agenda := later }.occur next

/-- How many connects are about to complete. -/
def pendingConnects (world : World) : Nat :=
  world.agenda.countP (·.occurrence.isEstablishment)

/-- Data is cut into appointments none of which completes a connect. -/
theorem countP_dataAppointments (behaviour : Behaviour) (socket : Socket) (start : Nat)
    (data : Bytes) :
    (dataAppointments behaviour socket start data).1.countP
      (·.occurrence.isEstablishment) = 0 := by
  simp [dataAppointments, List.countP_eq_zero, Occurrence.isEstablishment]

/-- Sending completes no connect. -/
theorem pendingConnects_transmit (world : World) (socket : Socket)
    (transmission : Transmission) :
    (world.transmit socket transmission).pendingConnects = world.pendingConnects := by
  simp only [transmit]
  split
  · rfl
  · simp only [pendingConnects, appoint, put, (List.merge_perm_append ..).countP_eq,
      List.countP_append, countP_dataAppointments]
    split <;> simp [Occurrence.isEstablishment]

/-- An appointment is used up, and new ones come only of a connect. -/
theorem proceed_lt {world : World} {next : Appointment} {later : List Appointment}
    (planned : world.agenda = next :: later) :
    Prod.Lex (· < ·) (· < ·)
      ((world.proceed next later).pendingConnects, (world.proceed next later).agenda.length)
      (world.pendingConnects, world.agenda.length) := by
  have fewer : later.length < world.agenda.length := by simp [planned]
  have kept : later.countP (·.occurrence.isEstablishment) ≤ world.pendingConnects := by
    simp [pendingConnects, planned, List.countP_cons]
  simp only [proceed, occur]
  split
  · exact Prod.Lex.right' _ kept fewer
  · split
    · next establishes =>
      refine Prod.Lex.left _ _ ?_
      rw [pendingConnects_transmit]
      simp [pendingConnects, put, planned, establishes]
    · exact Prod.Lex.right' _ kept fewer

/-- The world after everything due by a time, each thing at its own time. -/
def deliver (limit : Nat) (world : World) : World :=
  match _planned : world.agenda with
  | [] => world
  | next :: later =>
    if next.time ≤ limit then deliver limit (world.proceed next later) else world
termination_by (world.pendingConnects, world.agenda.length)
decreasing_by exact proceed_lt _planned

/-- Lets time pass without anyone waiting. -/
def advance (world : World) (duration : Nat) : World :=
  let limit := world.clock + duration
  { world.deliver limit with clock := limit }

/-- Makes peers of open, established connections send something, for those that have
not ended their stream; counts them. -/
def broadcast (world : World) (name : String) (transmission : Transmission) : Nat × World :=
  let isReached (connection : Connection) : Bool :=
    connection.isOpen && connection.established && !connection.deaf && connection.peer = name
  let sockets := (List.range world.connections.length).filter fun socket =>
    (world.connections[socket]?).any isReached
  (sockets.length, sockets.foldl (fun world socket => world.transmit socket transmission) world)

/-! ## Servers in memory -/

/-- The address of a named host, by its place in a list. -/
def localAddress (index : Nat) : IpAddress :=
  .v4 127 0 (UInt8.ofNat (1 + index / 250)) (UInt8.ofNat (1 + index % 250))

/-- A world in which every server of a list answers from memory. -/
def serving (servers : List ServerAddress) : World :=
  servers.zipIdx.foldl (fun world (server, index) =>
    let (names, address) := match IpAddress.parse? server.host.toList with
      | some address => (world.names, address)
      | none => ((server.host, [localAddress index]) :: world.names, localAddress index)
    let endpoint : Endpoint := { address, port := server.port }
    ({ world with names }).install endpoint.text .plain []) (.empty [])

end World

end CachePool.Simulation
