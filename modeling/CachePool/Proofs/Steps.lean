/-
# Steps

A client as a transition system.  Every step is one thing the client does, with what
the network answered and the incidents it adds to the trace:

* `Link.Step` : what a link does with its socket and its queues;
* `Client.Step` : a step of one link, a command accepted, a wait, results collected,
  the list of servers replaced;
* `Client.Reaches` : the states a client passes through, with their traces.

A read and the replies found in what it gave are one step, and so are a loss and the
end of the commands it costs.  The calls of a client are sequences of such steps.
-/
import CachePool.Proofs.Trace

namespace CachePool

/-! ## Commands -/

/-- A command that a caller can issue. -/
inductive Command where
  | get (key : Bytes) (fields : GetFields)
  | set (key value : Bytes) (parameters : StoreParameters)
  | add (key value : Bytes) (parameters : StoreParameters)
  | replace (key value : Bytes) (parameters : StoreParameters)
  | delete (key : Bytes)
  | increment (key : Bytes) (parameters : CountParameters)
  | decrement (key : Bytes) (parameters : CountParameters)
  | noop (server : Nat)
  | version (server : Nat)
  | stat (group : String) (server : Nat)

namespace Command

/-- The request of a command. -/
def request : Command → Request
  | get key _ => .get key
  | set key value parameters =>
    { Request.set key value parameters.flags parameters.expiration with cas := parameters.cas }
  | add key value parameters => .add key value parameters.flags parameters.expiration
  | replace key value parameters =>
    { Request.replace key value parameters.flags parameters.expiration with
      cas := parameters.cas }
  | delete key => .delete key
  | increment key parameters =>
    .increment key parameters.delta parameters.initial parameters.expiration
  | decrement key parameters =>
    .decrement key parameters.delta parameters.initial parameters.expiration
  | noop _ => .noop
  | version _ => .version
  | stat group _ => .stat (.ofString group)

/-- How the reply to a command is read. -/
def expect : Command → Expect
  | get _ fields => .item fields
  | set .. | add .. | replace .. => .stored
  | delete _ | noop _ => .done
  | increment .. | decrement .. => .counter
  | version _ => .item { flags := false, cas := false }
  | stat .. => .stats

/-- The server a command names, if it has no key to be routed by. -/
def server? : Command → Option Nat
  | noop server | version server | stat _ server => some server
  | _ => none

/-- Only statistics are answered by more than one reply. -/
theorem expect_eq_stats_iff (command : Command) :
    command.expect = .stats ↔ command.request.opcode = .stat := by
  cases command <;> simp [expect, request, Request.get, Request.set, Request.add,
    Request.replace, Request.delete, Request.increment, Request.decrement, Request.noop,
    Request.version, Request.stat, Request.make]

end Command

/-! ## Steps of a link -/

namespace Link

/-- The line of a link: its socket, or the last one it had. -/
def line (link : Link) : Line where
  token := link.token
  attempt := link.attempts

/-- The link when a connect is about to start. -/
def attempting (link : Link) (now : Nat) : Link :=
  { link with lastAttempt := some now, attempts := link.attempts + 1 }

/-- A connected link has a socket. -/
theorem socket_ne_none {link : Link} {socket : Socket} (hphase : link.phase = .connected socket) :
    link.phase.socket? ≠ none := by
  rw [hphase]
  intro hnone
  cases hnone

/-- A link that is connecting has a socket. -/
theorem socket_ne_none_of_connecting {link : Link} {socket : Socket} {deadline : Nat}
    (hphase : link.phase = .connecting socket deadline) : link.phase.socket? ≠ none := by
  rw [hphase]
  intro hnone
  cases hnone

/-- The link after it was torn down. -/
def torn (link : Link) (now : Nat) : Link :=
  { link.cleared .dead with lastFailure := some now }

/-- The link with more octets received. -/
def receiving (link : Link) (octets : Bytes) : Link :=
  { link with inbound := link.inbound ++ octets }

/-- What tearing a link down adds to the trace: the commands it costs. -/
def loss (link : Link) (failure : Failure) : Trace :=
  .lost link.line failure :: (link.casualties failure).map .ended

/-- The slots whose frames end within the octets a socket takes. -/
def finishedBy (link : Link) (count : Nat) : List Slot :=
  (splitWritten (link.headWritten + (link.outbound.take count).length) link.unsent).1

/-- What giving up on slots at a deadline adds to the trace. -/
def expiry (link : Link) (target : Target) (given : List Slot) : Trace :=
  match target with
  | .command _ => given.map .dropped
  | .allBuffered => (link.finishLive .timeout given).map .ended

/-- What the end of a read says about the socket. -/
def ReadEnd.report (line : Line) : ReadEnd → Trace
  | .drained => []
  | .closed | .failed _ => [.reported line]

/-- Replies given to the commands that wait, one after the other. -/
inductive Answers : Link → List Response → Trace → Link → Prop
  | nil (link : Link) : Answers link [] [] link
  | cons {link next last : Link} {slot : Slot} {queue : List Slot} {response : Response}
      {responses : List Response} {finished : List Finished} {incidents : Trace}
      (hqueue : link.awaiting = slot :: queue)
      (hmatch : link.matchReply response = .ok (next, finished))
      (hothers : Answers next responses incidents last) :
      Answers link (response :: responses)
        (.answered link.line slot.seq response :: finished.map .ended ++ incidents) last

/-- Why a link is torn down after its replies were looked at: the next reply does not
fit, the octets behind the last reply are no frame, or the stream has ended. -/
inductive Refuses (link : Link) : List Response → Option WireError → ReadEnd → Failure → Prop
  | mismatch {response : Response} {responses : List Response} {fault : Option WireError}
      {ending : ReadEnd} {error : WireError} (hmatch : link.matchReply response = .error error) :
      Refuses link (response :: responses) fault ending (.protocol error)
  | malformed {ending : ReadEnd} {error : WireError} :
      Refuses link [] (some error) ending (.protocol error)
  | ended : Refuses link [] none .closed .closed

variable {ω : Type} [Network ω]

/-- A question to the network whose answer leaves a link as it is. -/
inductive Quiet (link : Link) (now : Nat) (net after : ω) : Prop
  | pending {socket : Socket} {deadline : Nat} (hphase : link.phase = .connecting socket deadline)
      (herror : Network.takeError net socket = (none, after))
      (hpeer : Network.peerState after socket = .notConnected) (hearly : now < deadline)
  | interrupted {socket : Socket} (hphase : link.phase = .connected socket)
      (hwrite : Network.write net socket link.outbound = (.interrupted, after))
  | blocked {socket : Socket} (hphase : link.phase = .connected socket)
      (hwrite : Network.write net socket link.outbound = (.wouldBlock, after))

/-- How a link comes to be torn down: what happens before, the link at that moment,
and why. -/
inductive Loses (now : Nat) (timeouts : Timeouts) (link : Link) (net : ω) :
    Trace → Link → Failure → ω → Prop
  | unresolved {error : IoError} (hidle : link.phase.socket? = none) (hwork : link.unsent ≠ [])
      (heligible : link.isRetryEligible now timeouts = true)
      (hresolve : Network.resolve net link.server.address.host link.server.address.port
        = .error error) :
      Loses now timeouts link net [] (link.attempting now) (.resolve error) net
  | unopened {endpoint : Endpoint} {error : IoError} {after : ω}
      (hidle : link.phase.socket? = none) (hwork : link.unsent ≠ [])
      (heligible : link.isRetryEligible now timeouts = true)
      (hconnect : Network.connect net link.token endpoint = (.error error, after)) :
      Loses now timeouts link net [] (link.attempting now) (.io error) after
  | refused {socket : Socket} {deadline : Nat} {error : IoError} {after : ω}
      (hphase : link.phase = .connecting socket deadline)
      (herror : Network.takeError net socket = (some error, after)) :
      Loses now timeouts link net [.reported link.line] link (.io error) after
  | peerless {socket : Socket} {deadline : Nat} {error : IoError} {after : ω}
      (hphase : link.phase = .connecting socket deadline)
      (herror : Network.takeError net socket = (none, after))
      (hpeer : Network.peerState after socket = .failed error) :
      Loses now timeouts link net [.reported link.line] link (.io error) after
  | late {socket : Socket} {deadline : Nat} {after : ω}
      (hphase : link.phase = .connecting socket deadline)
      (herror : Network.takeError net socket = (none, after))
      (hpeer : Network.peerState after socket = .notConnected) (hlate : deadline ≤ now) :
      Loses now timeouts link net [] link .connectTimeout after
  | unwritable {socket : Socket} {error : IoError} {after : ω}
      (hphase : link.phase = .connected socket)
      (hwrite : Network.write net socket link.outbound = (.failed error, after)) :
      Loses now timeouts link net [.reported link.line] link (.io error) after
  | stuck {socket : Socket} {after : ω} (hphase : link.phase = .connected socket)
      (hwrite : Network.write net socket link.outbound = (.took 0, after)) :
      Loses now timeouts link net [.reported link.line] link
        (.io (.other "socket accepted no bytes")) after
  | unreadable {socket : Socket} {octets : Bytes} {error : IoError} {after : ω}
      (hphase : link.phase = .connected socket)
      (hread : readAll socket net = (octets, .failed error, after)) :
      Loses now timeouts link net [.wasted link.line octets, .reported link.line] link
        (.io error) after
  | refusing {socket : Socket} {octets : Bytes} {ending : ReadEnd} {after : ω}
      {fitting others : List Response} {incidents : Trace} {answered : Link} {failure : Failure}
      (hphase : link.phase = .connected socket)
      (hread : readAll socket net = (octets, ending, after))
      (hlooked : ∀ error, ending ≠ .failed error)
      (hframes : (Response.kind.split (link.receiving octets).inbound).frames.map (·.1)
        = fitting ++ others)
      (hanswers : Answers (link.receiving octets) fitting incidents answered)
      (hwhy : Refuses answered others
        (Response.kind.split (link.receiving octets).inbound).fault ending failure) :
      Loses now timeouts link net
        (.gave link.line octets :: ending.report link.line ++ incidents) answered failure after
  | unresponsive (hmany : maxAbandoned < link.abandonedCount) :
      Loses now timeouts link net [.examined link.line link.abandonedCount] link
        (.unresponsive link.abandonedCount) net

/-- One thing a link does, at a time and under timeouts. -/
inductive Step (now : Nat) (timeouts : Timeouts) (link : Link) (net : ω) :
    Trace → Link → ω → Prop
  | quiet {after : ω} (hquiet : link.Quiet now net after) : Step now timeouts link net [] link after
  | opened {endpoint : Endpoint} {socket : Socket} {after : ω}
      (hidle : link.phase.socket? = none) (hwork : link.unsent ≠ [])
      (heligible : link.isRetryEligible now timeouts = true)
      (hconnect : Network.connect net link.token endpoint = (.ok socket, after)) :
      Step now timeouts link net [.opened (link.attempting now).line]
        { link.attempting now with phase := .connecting socket (now + timeouts.connect) } after
  | established {socket : Socket} {deadline : Nat} {after : ω}
      (hphase : link.phase = .connecting socket deadline)
      (herror : Network.takeError net socket = (none, after))
      (hpeer : Network.peerState after socket = .established) :
      Step now timeouts link net [.established link.line]
        { link with phase := .connected socket } after
  | took {socket : Socket} {count : Nat} {after : ω} (hphase : link.phase = .connected socket)
      (hwrite : Network.write net socket link.outbound = (.took count, after))
      (hcount : count ≠ 0) :
      Step now timeouts link net
        (.took link.line (link.outbound.take count)
          :: (link.finishedBy count).map fun slot => .sent link.line slot.seq)
        (link.wrote count) after
  | received {socket : Socket} {octets : Bytes} {after : ω} {incidents : Trace} {answered : Link}
      (hphase : link.phase = .connected socket)
      (hread : readAll socket net = (octets, .drained, after))
      (hfault : (Response.kind.split (link.receiving octets).inbound).fault = none)
      (hanswers : Answers (link.receiving octets)
        ((Response.kind.split (link.receiving octets).inbound).frames.map (·.1)) incidents
        answered) :
      Step now timeouts link net (.gave link.line octets :: incidents)
        { answered with inbound := (Response.kind.split (link.receiving octets).inbound).rest }
        after
  | lost {incidents : Trace} {losing : Link} {failure : Failure} {after : ω}
      (hloses : Loses now timeouts link net incidents losing failure after) :
      Step now timeouts link net (incidents ++ losing.loss failure) (losing.torn now)
        (losing.closeSocket after)
  | shortCircuited (hidle : link.phase.socket? = none) (hwork : link.unsent ≠ [])
      (hexcluded : link.isRetryEligible now timeouts = false) :
      Step now timeouts link net ((link.finishLive link.deadError link.unsent).map .ended)
        { link with outbound := [], headWritten := 0, unsent := [] } net
  | expired (target : Target) :
      Step now timeouts link net
        ((link.abandon target.covers).1.expiry target (link.abandon target.covers).2)
        (link.abandon target.covers).1 net
  | discarded :
      Step now timeouts link net
        ((link.abandon fun slot => slot.delivery = .buffered).2.map .dropped)
        (link.abandon fun slot => slot.delivery = .buffered).1 net
  | examined (hfew : link.abandonedCount ≤ maxAbandoned) :
      Step now timeouts link net [.examined link.line link.abandonedCount] link net
  | retired :
      Step now timeouts link net (link.loss .removed) (link.cleared .disconnected)
        (link.closeSocket net)

end Link

/-! ## Steps of a client -/

/-- A link on which no command waits and no socket is open. -/
structure Link.Vacant (link : Link) : Prop where
  closed : link.phase.socket? = none
  unsent : link.unsent = []
  awaiting : link.awaiting = []

namespace Client

variable {ω : Type} [Network ω]

/-- The ticket of the next command. -/
def nextTicket (client : Client ω) (command : Command) : Ticket where
  slot := client.ledger.slotFor command.request command.expect
  request := { command.request with tag := client.ledger.nextTag }

/-- One thing a client does while it drives its links. -/
inductive Move (client : Client ω) : Trace → Client ω → Prop
  | link {now : Nat} {front back : List Link} {before after : Link} {incidents : Trace} {net : ω}
      (hlinks : client.pool.links = front ++ before :: back)
      (hstep : before.Step now client.timeouts client.net incidents after net) :
      Move client incidents
        { client with
          pool := { client.pool with links := front ++ after :: back }
          net := net
          ledger := client.ledger.absorb incidents.endings }
  | waited {time : Nat} {outcome : PollOutcome} {net : ω}
      (hpoll : Network.poll client.net time = (outcome, net)) : Move client [] { client with net }
  | noted (log : Log) : Move client [] { client with log }

/-- One thing a client does. -/
inductive Step (client : Client ω) : Trace → Client ω → Prop
  | move {incidents : Trace} {after : Client ω} (hmove : client.Move incidents after) :
      Step client incidents after
  | queued {server seq : Nat} {command : Command} {delivery : Delivery} {after : Client ω}
      (hqueue : client.queue server command.request command.expect = .ok (seq, delivery, after)) :
      Step client [.issued (client.nextTicket command)] after
  | collected (seq : Nat) :
      Step client [] { client with ledger := (client.ledger.takeDirect seq).2 }
  | emptied : Step client [] { client with ledger := client.ledger.forget }
  | placed {addresses : List ServerAddress} (hsome : addresses ≠ [])
      (hdistinct : Pool.firstDuplicate? [] addresses = none)
      (hvacant : ∀ link ∈ client.pool.links, link.server.address ∉ addresses → link.Vacant) :
      Step client []
        { client with
          pool := {
            links := (Pool.place client.pool.links 0 client.pool.nextToken addresses).1
            ring := .build addresses
            nextToken := (Pool.place client.pool.links 0 client.pool.nextToken addresses).2 } }
  | adjusted (timeouts : Timeouts) (buffering : Bool) :
      Step client [] { client with timeouts, ledger := { client.ledger with buffering } }

/-- Moves one after the other, in which only incidents that satisfy a condition happen. -/
inductive Drives (allows : Incident → Prop) (client : Client ω) : Trace → Client ω → Prop
  | refl : Drives allows client [] client
  | tail {between after : Client ω} {incidents more : Trace}
      (hdrives : Drives allows client incidents between) (hmove : between.Move more after)
      (hallowed : ∀ incident ∈ more, allows incident) :
      Drives allows client (incidents ++ more) after

/-- Some things a client does one after the other. -/
inductive Steps (client : Client ω) : Trace → Client ω → Prop
  | refl : Steps client [] client
  | tail {between after : Client ω} {incidents more : Trace}
      (hsteps : Steps client incidents between) (hstep : between.Step more after) :
      Steps client (incidents ++ more) after

/-- The states that a client passes through from its start on, each with the trace so
far. Between two steps the world may change in any way. -/
inductive Reaches (start : Client ω) : Trace → Client ω → Prop
  | start : Reaches start [] start
  | step {client after : Client ω} {trace incidents : Trace} (hreach : Reaches start trace client)
      (hstep : client.Step incidents after) : Reaches start (trace ++ incidents) after
  | elapsed {client : Client ω} {trace : Trace} (net : ω) (hreach : Reaches start trace client) :
      Reaches start trace { client with net }

/-- Driving can go on where it stopped. -/
theorem Drives.append {allows : Incident → Prop} {client between after : Client ω}
    {incidents more : Trace} (hfirst : client.Drives allows incidents between)
    (hsecond : between.Drives allows more after) :
    client.Drives allows (incidents ++ more) after := by
  induction hsecond with
  | refl => simpa using hfirst
  | tail _ hmove hallowed ih =>
      rw [← List.append_assoc]
      exact .tail ih hmove hallowed

/-- What happens under one condition happens under a weaker one. -/
theorem Drives.mono {allows weaker : Incident → Prop} {client after : Client ω}
    {incidents : Trace} (hweaker : ∀ incident, allows incident → weaker incident)
    (hdrives : client.Drives allows incidents after) : client.Drives weaker incidents after := by
  induction hdrives with
  | refl => exact .refl
  | tail _ hmove hallowed ih =>
      exact .tail ih hmove fun incident hmem => hweaker incident (hallowed incident hmem)

/-- Only incidents that are allowed happen. -/
theorem Drives.allowed {allows : Incident → Prop} {client after : Client ω} {incidents : Trace}
    (hdrives : client.Drives allows incidents after) :
    ∀ incident ∈ incidents, allows incident := by
  induction hdrives with
  | refl =>
      intro _ hmem
      cases hmem
  | tail _ _ hallowed ih =>
      intro incident hmem
      rcases List.mem_append.mp hmem with hmem | hmem
      · exact ih incident hmem
      · exact hallowed incident hmem

/-- Driving is a sequence of steps. -/
theorem Drives.steps {allows : Incident → Prop} {client after : Client ω} {incidents : Trace}
    (hdrives : client.Drives allows incidents after) : client.Steps incidents after := by
  induction hdrives with
  | refl => exact .refl
  | tail _ hmove _ ih => exact .tail ih (.move hmove)

/-- One step is a sequence of steps. -/
theorem Steps.single {client after : Client ω} {incidents : Trace}
    (hstep : client.Step incidents after) : client.Steps incidents after :=
  .tail .refl hstep

/-- Sequences of steps can be put one after the other. -/
theorem Steps.append {client between after : Client ω} {incidents more : Trace}
    (hfirst : client.Steps incidents between) (hsecond : between.Steps more after) :
    client.Steps (incidents ++ more) after := by
  induction hsecond with
  | refl => simpa using hfirst
  | tail _ hstep ih =>
      rw [← List.append_assoc]
      exact .tail ih hstep

/-- Where a client comes by steps, it reaches. -/
theorem Reaches.steps {start client after : Client ω} {trace incidents : Trace}
    (hreach : start.Reaches trace client) (hsteps : client.Steps incidents after) :
    start.Reaches (trace ++ incidents) after := by
  induction hsteps with
  | refl => simpa using hreach
  | tail _ hstep ih =>
      rw [← List.append_assoc]
      exact .step ih hstep

/-- Histories can be put one after the other. -/
theorem Reaches.trans {start between after : Client ω} {trace more : Trace}
    (hfirst : start.Reaches trace between) (hsecond : between.Reaches more after) :
    start.Reaches (trace ++ more) after := by
  induction hsecond with
  | start =>
      rw [List.append_nil]
      exact hfirst
  | step _ hstep ih =>
      rw [← List.append_assoc]
      exact ih.step hstep
  | elapsed net _ ih => exact ih.elapsed net

end Client

end CachePool
