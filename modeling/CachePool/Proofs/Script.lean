/-
# Scripted networks

Networks with one server that follow a script, on which the theorems about all networks can
be tried.  The socket of a `Script` takes all octets that it is offered, and lists tell what it
gives and how waits end.  The socket of a `Valve` takes octets as a list tells, and gives none.

* `Script.withConfig_opened` : a client with the default configuration can be opened on it;
* `Script.reaches_wrote` : the frame of the first command is wholly taken;
* `Script.reaches_answered` : the reply to it ends the command;
* `Valve.reaches_parted` : a frame is taken in part, and commands are given up around it;
* `Valve.reaches_rejoined` : the socket fails, and another one takes a later command.
-/
import CachePool.Proofs.Calls
import CachePool.Proofs.Streams

namespace CachePool

/-- A network that follows a script. -/
structure Script where
  /-- The time. -/
  clock : Nat
  /-- What the next reads give. -/
  reads : List ReadOutcome
  /-- How the next waits end. -/
  waits : List PollOutcome

instance : Network Script where
  now net := net.clock
  lookup _ _ port := .ok [{ address := .v4 127 0 0 1, port }]
  connect net _ _ := (.ok 0, net)
  takeError net _ := (none, net)
  peerState _ _ := .established
  read net _ :=
    match net.reads with
    | [] => (.wouldBlock, net)
    | outcome :: reads => (outcome, { net with reads })
  write net _ octets := (.took octets.length, net)
  close net _ := net
  poll net time :=
    match net.waits with
    | [] => (.ready [], { net with clock := net.clock + time })
    | outcome :: waits => (outcome, { net with waits })
  pollLimit net := net.waits.length + 2
  readCredit net _ := net.reads.length
  writeCredit _ _ := 0
  read_credit_lt := by
    intro net after socket outcome hread hmoves
    cases hreads : net.reads with
    | nil =>
        rw [hreads] at hread
        cases hread
        simp at hmoves
    | cons first reads =>
        rw [hreads] at hread
        cases hread
        simp
  write_credit_lt := by
    intro net after socket bytes hwrite
    cases hwrite

section

variable {ω : Type} [Network ω] {start client : Client ω} {link next : Link} {net : ω}
  {trace incidents : Trace} {now : Nat}

/-- The only link of a client does one thing. -/
theorem Client.Step.only (hlink : client.pool.links = [link])
    (hstep : link.Step now client.timeouts client.net incidents next net) :
    client.Step incidents { client with
      pool := { client.pool with links := [next] }
      net := net
      ledger := client.ledger.absorb incidents.endings } :=
  .move (@Client.Move.link _ _ client now [] [] link next incidents net hlink hstep)

/-- So the client after it is reached. -/
theorem Client.Reaches.only (hreach : start.Reaches trace client)
    (hlink : client.pool.links = [link])
    (hstep : link.Step now client.timeouts client.net incidents next net) :
    start.Reaches (trace ++ incidents) { client with
      pool := { client.pool with links := [next] }
      net := net
      ledger := client.ledger.absorb incidents.endings } :=
  hreach.step (.only hlink hstep)

end

namespace Script

/-- The server of the default configuration. -/
def home : Server where
  index := 0
  address := { host := "127.0.0.1", port := 11211 }

/-- Another server. -/
def spare : ServerAddress where
  host := "127.0.0.1"
  port := 11212

/-- A client that was just opened with the default configuration. -/
def opened (script : Script) : Client Script where
  timeouts := Config.default.timeouts
  pool := { links := [Link.make home 0], ring := .build [home.address], nextToken := 1 }
  ledger := .empty false
  log := (Log.empty .keep).add .info ("server list set to " ++ Decimal.text 1 ++ " server(s)")
  net := script

/-- The default configuration opens a client on every script. -/
theorem withConfig_opened (script : Script) :
    Client.withConfig script Config.default = .ok script.opened := rfl

/-! ## Round trips -/

/-- The tag of a command by its place. -/
def tagAt : Nat → UInt32
  | 0 => 0
  | place + 1 => tagAt place + 1

/-- The ledger after so many commands were accepted and none has ended. -/
def entered (buffering : Bool) (count : Nat) : Ledger :=
  { Ledger.empty buffering with nextSeq := count, nextTag := tagAt count }

/-- A round trip to the server, by its place. -/
def trip (buffering : Bool) (count : Nat) : Ticket where
  slot := (entered buffering count).slotFor .noop .done
  request := { Request.noop with tag := tagAt count }

/-! ## The first command -/

/-- The first command. -/
def ping : Ticket :=
  trip false 0

/-- The first socket. -/
def wire : Line where
  token := 0
  attempt := 1

/-- A client with a ledger, with its link as it is. -/
def holding (net : Script) (ledger : Ledger) (link : Link) (log : Log) : Client Script where
  timeouts := Config.default.timeouts
  pool := { links := [link], ring := .build [home.address], nextToken := 1 }
  ledger := ledger
  log := log
  net := net

/-- A client that has issued its first command, with its link as it is. -/
def driving (net : Script) (link : Link) (log : Log) : Client Script :=
  holding net (entered false 1) link log

/-- The client when its first command is queued. -/
def queued (script : Script) : Client Script :=
  driving script ((Link.make home 0).enqueue ping.request ping.slot) script.opened.log

/-- The link when the connect for the first command is under way. -/
def connectingLink (clock : Nat) : Link :=
  { (Link.make home 0).enqueue ping.request ping.slot with
    phase := .connecting 0 (clock + Config.default.timeouts.connect)
    lastAttempt := some clock
    attempts := 1 }

/-- The client when the connect for its first command is under way. -/
def connecting (script : Script) : Client Script :=
  driving script (connectingLink script.clock) script.opened.log

/-- The link when the frame of the first command is taken; the caller may have given the
command up since then. -/
def waitingLink (clock : Nat) (abandoned : Bool) : Link :=
  { Link.make home 0 with
    phase := .connected 0
    lastAttempt := some clock
    attempts := 1
    awaiting := [{ ping.slot with abandoned }] }

/-- The client when the frame of its first command is taken. -/
def wrote (script : Script) : Client Script :=
  driving script (waitingLink script.clock false) script.opened.log

/-- What has happened until then. -/
def writing : Trace :=
  [.issued ping, .opened wire, .established wire, .took wire ping.request.frame, .sent wire 0]

/-- The first command is queued. -/
theorem queue_ping (script : Script) :
    script.opened.queue 0 .noop .done = .ok (0, .direct, script.queued) := rfl

/-- The first command makes the client connect. -/
theorem reaches_connecting (script : Script) :
    script.opened.Reaches [.issued ping, .opened wire] script.connecting := by
  have hqueued : script.opened.Reaches [.issued ping] script.queued :=
    .step .start (@Client.Step.queued _ _ _ 0 0 (.noop 0) .direct _ script.queue_ping)
  exact hqueued.only rfl (@Link.Step.opened _ _ script.clock _ _ _
    { address := .v4 127 0 0 1, port := 11211 } 0 script rfl (List.cons_ne_nil _ _) rfl rfl)

/-- **The frame of the first command is wholly taken.** -/
theorem reaches_wrote (script : Script) : script.opened.Reaches writing script.wrote := by
  have hestablished := script.reaches_connecting.only rfl
    (@Link.Step.established _ _ script.clock _ _ _ 0 _ script rfl rfl rfl)
  exact hestablished.only rfl
    (@Link.Step.took _ _ script.clock _ _ _ 0 24 script rfl rfl (by decide))

/-! ## Its reply -/

/-- The reply to the first command. -/
def pong : Response :=
  Response.make .noop .noError 0

/-- What happens when the reply comes: it ends the command, or nothing when the command was
given up. -/
def arrival (abandoned : Bool) : Trace :=
  .gave wire pong.frame :: .answered wire 0 pong ::
    if abandoned then [] else [.ended { server := 0, slot := ping.slot, result := .ok .done }]

/-- The event that the only socket is readable, and writable or not. -/
def readable (writable : Bool) : Event where
  token := 0
  readable := true
  writable := writable

/-- Octets that are there are read in one go. -/
theorem readAll_eq (octets : Bytes) (socket : Socket) (clock : Nat) (waits : List PollOutcome) :
    Link.readAll socket (Script.mk clock [.data octets] waits)
      = (octets, .drained, Script.mk clock [] waits) := by
  rw [Link.readAll]
  dsimp only [Network.read]
  rw [Link.readAll]
  dsimp only [Network.read]
  rw [List.append_nil]

/-- The reply is one whole frame. -/
theorem split_pong : Response.kind.split pong.frame
    = { frames := [(pong, 24)], rest := [], fault := none } := by
  have hdecode : Response.kind.decode pong.frame = .ok (.frame pong 24) := rfl
  rw [Response.kind.split_of_frame hdecode, Response.kind.split_of_incomplete rfl]
  rfl

/-- The reply is given to the first command, whether it was given up or not. -/
theorem step_pong (start clock : Nat) (abandoned : Bool) (waits : List PollOutcome) :
    (waitingLink start abandoned).Step clock Config.default.timeouts
      (Script.mk clock [.data pong.frame] waits) (arrival abandoned)
      { waitingLink start abandoned with awaiting := [] } (Script.mk clock [] waits) := by
  have hsplit :
      Response.kind.split ((waitingLink start abandoned).receiving pong.frame).inbound
        = { frames := [(pong, 24)], rest := [], fault := none } := split_pong
  have hanswers : Link.Answers ((waitingLink start abandoned).receiving pong.frame) [pong]
      (arrival abandoned).tail
      { (waitingLink start abandoned).receiving pong.frame with awaiting := [] } := by
    cases abandoned with
    | false =>
        exact @Link.Answers.cons _ _ _ ping.slot [] pong []
          [{ server := 0, slot := ping.slot, result := .ok .done }] [] rfl rfl (.nil _)
    | true =>
        exact @Link.Answers.cons _ _ _ { ping.slot with abandoned := true } [] pong [] [] [] rfl rfl
          (.nil _)
  have hstep := @Link.Step.received _ _ clock Config.default.timeouts
    (waitingLink start abandoned) (Script.mk clock [.data pong.frame] waits) 0 pong.frame
    (Script.mk clock [] waits) (arrival abandoned).tail
    { (waitingLink start abandoned).receiving pong.frame with awaiting := [] } rfl
    (readAll_eq pong.frame 0 clock waits) (by rw [hsplit]) (by rw [hsplit]; exact hanswers)
  rw [hsplit] at hstep
  exact hstep

/-- **The reply ends the first command.** -/
theorem reaches_answered (script : Script) (clock : Nat) : ∃ client,
    script.opened.Reaches (writing ++ arrival false) client ∧ client.net.clock = clock := by
  have hlater := script.reaches_wrote.elapsed ⟨clock, [.data pong.frame], script.waits⟩
  have hread := step_pong script.clock clock false script.waits
  exact ⟨_, hlater.only rfl hread, rfl⟩

/-! ## Driving -/

/-- All that is offered is taken at once. -/
theorem writePending_eq (link : Link) (socket : Socket) (script : Script) :
    link.writePending socket script
      = (if link.outbound = [] then link else link.wrote link.outbound.length, script, none) := by
  rw [Link.writePending]
  by_cases hempty : link.outbound = []
  · rw [dif_pos hempty, if_pos hempty]
  · have hlength : link.outbound.length ≠ 0 := by simpa using hempty
    have hnothing : (link.wrote link.outbound.length).outbound = [] := by simp
    rw [dif_neg hempty, if_neg hempty, Link.offer]
    dsimp only [Network.write]
    rw [if_neg hlength, Link.writePending, dif_pos hnothing]

/-- Pushing the only link of a client forward. -/
theorem makeProgress_holding {net after : Script} {ledger : Ledger} {link last : Link}
    {log note : Log} {now : Nat}
    (hprogress : link.makeProgress ⟨net, log, []⟩ now Config.default.timeouts
      = (last, ⟨after, note, []⟩)) :
    (holding net ledger link log).makeProgress now = holding after ledger last note := by
  unfold Client.makeProgress Client.after Pool.forEach Pool.eachLink
  dsimp only [holding]
  rw [hprogress]
  rfl

/-- A link with work starts a connect if it was never reached for. -/
theorem makeProgress_disconnected {link : Link} (hphase : link.phase = .disconnected)
    (hfailure : link.lastFailure = none) (hwork : link.unsent ≠ []) (net : Script) (log : Log)
    (now : Nat) (timeouts : Timeouts) :
    ∃ note, link.makeProgress ⟨net, log, []⟩ now timeouts
      = ({ link with
            phase := .connecting 0 (now + timeouts.connect)
            lastAttempt := some now
            attempts := link.attempts + 1 }, ⟨net, note, []⟩) := by
  refine ⟨((⟨net, log, []⟩ : Around Script).report .debug ("connecting to " ++ link.address ++ " ("
    ++ (Endpoint.mk (.v4 127 0 0 1) link.server.address.port).text ++ ")")).log, ?_⟩
  have heligible : link.isRetryEligible now timeouts = true := by
    rw [Link.isRetryEligible, hfailure]
  unfold Link.makeProgress
  rw [hphase]
  dsimp only
  rw [if_neg hwork, if_pos heligible]
  rfl

/-- A connect is established at once, and all that is queued is taken. -/
theorem makeProgress_connecting {link : Link} {deadline : Nat}
    (hphase : link.phase = .connecting 0 deadline) (hwork : link.outbound ≠ []) (net : Script)
    (log : Log) (now : Nat) (timeouts : Timeouts) :
    ∃ note, link.makeProgress ⟨net, log, []⟩ now timeouts
      = (({ link with phase := .connected 0 }).wrote link.outbound.length, ⟨net, note, []⟩) := by
  obtain ⟨note, hreport⟩ : ∃ note, link.reportConnected (⟨net, log, []⟩ : Around Script)
      = ⟨net, note, []⟩ := by
    unfold Link.reportConnected
    split <;> exact ⟨_, rfl⟩
  refine ⟨note, ?_⟩
  unfold Link.makeProgress
  rw [hphase]
  show Link.writeQueued { link with phase := .connected 0 }
    (link.reportConnected ⟨net, log, []⟩) now = _
  unfold Link.writeQueued
  dsimp only
  rw [writePending_eq, if_neg hwork, hreport]

end Script

/-! ## Sockets that take a part -/

/-- A network whose socket takes octets as a list says, and gives none. -/
structure Valve where
  /-- The time. -/
  clock : Nat
  /-- How the next writes end. -/
  writes : List WriteOutcome

instance : Network Valve where
  now net := net.clock
  lookup _ _ port := .ok [{ address := .v4 127 0 0 1, port }]
  connect net _ _ := (.ok 0, net)
  takeError net _ := (none, net)
  peerState _ _ := .established
  read net _ := (.wouldBlock, net)
  write net _ _ :=
    match net.writes with
    | [] => (.wouldBlock, net)
    | outcome :: writes => (outcome, { net with writes })
  close net _ := net
  poll net _ := (.ready [], net)
  pollLimit _ := 0
  readCredit _ _ := 0
  writeCredit net _ := net.writes.length
  read_credit_lt := by
    intro net after socket outcome hread hmoves
    cases hread
    simp at hmoves
  write_credit_lt := by
    intro net after socket octets hwrite
    cases hwrites : net.writes with
    | nil =>
        rw [hwrites] at hwrite
        cases hwrite
    | cons first writes =>
        rw [hwrites] at hwrite
        cases hwrite
        exact Nat.lt_succ_self _

namespace Valve

open Script

/-- A client that was just opened with the default configuration. -/
def opened (valve : Valve) : Client Valve where
  timeouts := Config.default.timeouts
  pool := { links := [Link.make home 0], ring := .build [home.address], nextToken := 1 }
  ledger := .empty false
  log := (Log.empty .keep).add .info ("server list set to " ++ Decimal.text 1 ++ " server(s)")
  net := valve

/-- The default configuration opens a client on every valve. -/
theorem withConfig_opened (valve : Valve) :
    Client.withConfig valve Config.default = .ok valve.opened := rfl

/-- The link when its socket took the first frame and sixteen octets of the second, and all
but the last of five commands were given up: the frame that is begun stays, and those that
are not are cut out. -/
def partedLink : Link :=
  { Link.make home 0 with
    phase := .connected 0
    lastAttempt := some 0
    attempts := 1
    outbound := (trip true 1).request.frame.drop 16 ++ (trip false 4).request.frame
    headWritten := 16
    unsent := [{ (trip true 1).slot with abandoned := true }, (trip false 4).slot]
    awaiting := [{ (trip true 0).slot with abandoned := true }] }

/-- The client then. -/
def parted (valve : Valve) : Client Valve :=
  { valve.opened with
    pool := { valve.opened.pool with links := [partedLink] }
    ledger := entered false 5 }

/-- What has happened until then: three commands are buffered, a direct one is queued behind
them and given up at its deadline, a reset gives up the others, and one more is issued. -/
def parting : Trace :=
  [.issued (trip true 0), .issued (trip true 1), .issued (trip true 2), .issued (trip false 3),
    .opened wire, .established wire,
    .took wire ((trip true 0).request.frame ++ (trip true 1).request.frame.take 16),
    .sent wire 0, .dropped (trip false 3).slot,
    .dropped (trip true 1).slot, .dropped (trip true 2).slot, .dropped (trip true 0).slot,
    .issued (trip false 4)]

/-- **A frame is taken in part, and commands are given up around it.** -/
theorem reaches_parted : (Valve.mk 0 [.took 40]).opened.Reaches parting (parted ⟨0, []⟩) := by
  have hbuffering := (@Client.Reaches.start _ _ (Valve.mk 0 [.took 40]).opened).step
    (.adjusted Config.default.timeouts true)
  have hfirst := hbuffering.step (@Client.Step.queued _ _ _ 0 0 (.noop 0) .buffered _ rfl)
  have hsecond := hfirst.step (@Client.Step.queued _ _ _ 0 1 (.noop 0) .buffered _ rfl)
  have hthird := hsecond.step (@Client.Step.queued _ _ _ 0 2 (.noop 0) .buffered _ rfl)
  have hdirect := (hthird.step (.adjusted Config.default.timeouts false)).step
    (@Client.Step.queued _ _ _ 0 3 (.noop 0) .direct _ rfl)
  have hopened := hdirect.only rfl (@Link.Step.opened _ _ 0 _ _ _
    { address := .v4 127 0 0 1, port := 11211 } 0 _ rfl (List.cons_ne_nil _ _) rfl rfl)
  have hestablished := hopened.only rfl (@Link.Step.established _ _ 0 _ _ _ 0 _ _ rfl rfl rfl)
  have htook := hestablished.only rfl
    (@Link.Step.took _ _ 0 _ _ _ 0 40 ⟨0, []⟩ rfl rfl (by decide))
  have hexpired := htook.only rfl (@Link.Step.expired _ _ 0 _ _ _ (.command 3))
  have hreset := (hexpired.only rfl (@Link.Step.discarded _ _ 0 _ _ _)).step .emptied
  exact hreset.step (@Client.Step.queued _ _ _ 0 4 (.noop 0) .direct _ rfl)

/-- Why the first socket fails. -/
def reset : IoError :=
  .os 104 "Connection reset by peer"

end Valve

end CachePool
