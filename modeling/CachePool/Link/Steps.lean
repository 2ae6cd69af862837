/-
# The steps of a link

What a link does with its socket: connecting, writing, reading, and failing.
Every step takes the link and the things around it, and gives both back.  No step
waits.

* `Link.makeProgress` starts connects, checks them, and writes what is queued;
* `Link.onReady` handles an event of the poller;
* `Link.fail` closes the socket and ends every live command, once.
-/
import CachePool.Link.Queue
import CachePool.Log

namespace CachePool

/-- How many abandoned frames a link may carry. -/
def maxAbandoned : Nat := 32

/-- What the steps of a link change beside the link. -/
structure Around (ω : Type) where
  net : ω
  log : Log
  /-- Commands that ended and were not collected yet, in order. -/
  finished : List Finished

namespace Around

variable {ω : Type}

/-- The surroundings after one more line was reported. -/
def report (around : Around ω) (level : LogLevel) (message : String) : Around ω :=
  { around with log := around.log.add level message }

/-- The surroundings after commands ended. -/
def finish (around : Around ω) (finished : List Finished) : Around ω :=
  { around with finished := around.finished ++ finished }

end Around

namespace Link

/-! ## Failing -/

/-- The commands among slots that someone waits for, ended by an error each. -/
def finishLive (link : Link) (error : ClientError) (slots : List Slot) : List Finished :=
  (slots.filter Slot.isLive).map fun slot =>
    { server := link.server.index, slot, result := .error error }

/-- The error of the command first in line when a link fails: a refused frame is
reported to it as it is. -/
def firstError (link : Link) (failure : Failure) : ClientError :=
  match failure with
  | .protocol error => .protocol error
  | _ => link.connectionError failure.message

/-- How every live command of a failing link ends. -/
def casualties (link : Link) (failure : Failure) : List Finished :=
  match (link.awaiting ++ link.unsent).filter Slot.isLive with
  | [] => []
  | first :: others =>
    link.finishLive (link.firstError failure) [first]
      ++ link.finishLive (link.connectionError failure.message) others

variable {ω : Type} [Network ω]

/-- The network without the socket of a link. -/
def closeSocket (link : Link) (net : ω) : ω :=
  match link.phase.socket? with
  | some socket => Network.close net socket
  | none => net

/-- The link without socket and commands. -/
def cleared (link : Link) (phase : Phase) : Link :=
  { link with
    phase := phase
    outbound := []
    headWritten := 0
    unsent := []
    awaiting := []
    inbound := [] }

/-- Tears a link down and ends every live command; the server counts as dead. -/
def fail (link : Link) (around : Around ω) (now : Nat) (failure : Failure) : Link × Around ω :=
  let around := around.report .warn
    ("server " ++ link.address ++ " marked dead: " ++ failure.message)
  let around := { around with net := link.closeSocket around.net }
  ({ link.cleared .dead with lastFailure := some now },
    around.finish (link.casualties failure))

/-- Tears down the link to a server that leaves the pool. -/
def retire (link : Link) (around : Around ω) : Link × Around ω :=
  let around := around.report .info ("closing connection to " ++ link.address)
  let around := { around with net := link.closeSocket around.net }
  (link.cleared .disconnected, around.finish (link.casualties .removed))

/-- Ends the commands queued for an excluded server, without touching the network. -/
def shortCircuit (link : Link) (around : Around ω) : Link × Around ω :=
  ({ link with outbound := [], headWritten := 0, unsent := [] },
    around.finish (link.finishLive link.deadError link.unsent))

/-- Fails a link that carries too many abandoned frames. -/
def shedUnresponsive (link : Link) (around : Around ω) (now : Nat) : Link × Around ω :=
  if maxAbandoned < link.abandonedCount then
    link.fail around now (.unresponsive link.abandonedCount)
  else (link, around)

/-! ## Connecting -/

/-- Starts a connect. -/
def startConnect (link : Link) (around : Around ω) (now : Nat) (timeouts : Timeouts) :
    Link × Around ω :=
  let link := { link with lastAttempt := some now, attempts := link.attempts + 1 }
  match Network.resolve around.net link.server.address.host link.server.address.port with
  | .error error => link.fail around now (.resolve error)
  | .ok endpoint =>
    match Network.connect around.net link.token endpoint with
    | (.error error, net) => link.fail { around with net } now (.io error)
    | (.ok socket, net) =>
      let around := { around with net }.report .debug
        ("connecting to " ++ link.address ++ " (" ++ endpoint.text ++ ")")
      ({ link with phase := .connecting socket (now + timeouts.connect) }, around)

/-- The line that reports a completed connect. -/
def reportConnected (link : Link) (around : Around ω) : Around ω :=
  if link.lastFailure.isSome then
    around.report .info ("server " ++ link.address ++ " is back")
  else around.report .debug ("connected to " ++ link.address)

/-- Checks a connect that was started. -/
def pollConnect (link : Link) (around : Around ω) (now : Nat) (socket : Socket)
    (deadline : Nat) : Link × Around ω :=
  match Network.takeError around.net socket with
  | (some error, net) => link.fail { around with net } now (.io error)
  | (none, net) =>
    let around := { around with net }
    match Network.peerState net socket with
    | .established => ({ link with phase := .connected socket }, link.reportConnected around)
    | .notConnected =>
      if deadline ≤ now then link.fail around now .connectTimeout else (link, around)
    | .failed error => link.fail around now (.io error)

/-! ## Writing -/

/-- Offers octets to a socket, anew after every interruption. -/
def offer (socket : Socket) (octets : Bytes) (net : ω) : WriteOutcome × ω :=
  match _wrote : Network.write net socket octets with
  | (.interrupted, net) => offer socket octets net
  | (outcome, net) => (outcome, net)
termination_by Network.writeCredit net socket
decreasing_by exact Network.write_credit_lt _wrote

/-- Offers the queued octets to the socket until it would block. -/
def writePending (socket : Socket) (link : Link) (net : ω) : Link × ω × Option IoError :=
  if _empty : link.outbound = [] then (link, net, none)
  else
    match offer socket link.outbound net with
    | (.took count, net) =>
      if count = 0 then (link, net, some (.other "socket accepted no bytes"))
      else writePending socket (link.wrote count) net
    | (.interrupted, net) | (.wouldBlock, net) => (link, net, none)
    | (.failed error, net) => (link, net, some error)
termination_by link.outbound.length
decreasing_by
  have filled := List.length_pos_iff.mpr _empty
  simp only [outbound_wrote, List.length_drop]
  omega

/-- Writes what is queued; a link whose socket fails is torn down. -/
def writeQueued (link : Link) (around : Around ω) (now : Nat) : Link × Around ω :=
  match link.phase with
  | .connected socket =>
    match link.writePending socket around.net with
    | (link, net, none) => (link, { around with net })
    | (link, net, some error) => link.fail { around with net } now (.io error)
  | _ => (link, around)

/-! ## Reading -/

/-- How reading until a socket blocks ended. -/
inductive ReadEnd where
  | drained
  | closed
  | failed (error : IoError)
  deriving DecidableEq

/-- Reads until the socket would block: all that was read, and how it ended. -/
def readAll (socket : Socket) (net : ω) : Bytes × ReadEnd × ω :=
  match _read : Network.read net socket with
  | (.data bytes, net) =>
    let (more, ending, net) := readAll socket net
    (bytes ++ more, ending, net)
  | (.interrupted, net) => readAll socket net
  | (.wouldBlock, net) => ([], .drained, net)
  | (.closed, net) => ([], .closed, net)
  | (.failed error, net) => ([], .failed error, net)
termination_by Network.readCredit net socket
decreasing_by
  · exact Network.read_credit_lt _read (.inr ⟨_, rfl⟩)
  · exact Network.read_credit_lt _read (.inl rfl)

/-- Reads what the socket has and matches the replies in it. After a read error the
replies are not looked at; a refused reply counts before the end of the stream. -/
def readAvailable (link : Link) (around : Around ω) (socket : Socket) :
    Link × Around ω × Option Failure :=
  let (received, ending, net) := readAll socket around.net
  let link := { link with inbound := link.inbound ++ received }
  let around := { around with net }
  match ending with
  | .failed error => (link, around, some (.io error))
  | .closed | .drained =>
    let (link, finished, fault) := link.decodeInbound
    let failure := match fault with
      | some error => some (.protocol error)
      | none => if ending = .closed then some .closed else none
    (link, around.finish finished, failure)

/-! ## Steps -/

/-- Moves a link forward without waiting. -/
def makeProgress (link : Link) (around : Around ω) (now : Nat) (timeouts : Timeouts) :
    Link × Around ω :=
  match link.phase with
  | .disconnected | .dead =>
    if link.unsent = [] then (link, around)
    else if link.isRetryEligible now timeouts then link.startConnect around now timeouts
    else link.shortCircuit around
  | .connecting socket deadline =>
    let (link, around) := link.pollConnect around now socket deadline
    link.writeQueued around now
  | .connected _ => link.writeQueued around now

/-- Handles an event. A link that still connects finishes its connect and writes;
it does not read in this event. -/
def onReady (link : Link) (around : Around ω) (now : Nat) (event : Event) : Link × Around ω :=
  match link.phase with
  | .disconnected | .dead => (link, around)
  | .connecting socket deadline =>
    let (link, around) := link.pollConnect around now socket deadline
    link.writeQueued around now
  | .connected socket =>
    let (link, around, failure) :=
      if event.readable then link.readAvailable around socket else (link, around, none)
    match failure with
    | some failure => link.fail around now failure
    | none => if event.writable then link.writeQueued around now else (link, around)

end Link

end CachePool
