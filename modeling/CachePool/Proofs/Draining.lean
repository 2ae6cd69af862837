/-
# Readable sockets

The poller tells that a socket became readable once.  What a link leaves unread in this event it
may never hear of again, so it must read until the socket would block, and give every whole reply
to a command, before the next event is looked at.

A link that is connected does so in every event that finds its socket readable.  A link whose
connect is completed by the event does not: it only writes, and what its socket gives is left for
another event, which need not come.

* `Link.Drains` : what a link makes of an event in which it reads all that its socket gives;
* `Link.drains_onReady` : a link that was connected and stays so makes this of it;
* `Client.readable_edge_drained` : so do the links of a client, and no whole reply is left over;
* `Client.connecting_edge_lost` : a link that was connecting leaves its socket unread.
-/
import CachePool.Proofs.Arrivals
import CachePool.Proofs.Blocking
import CachePool.Proofs.Survivors
import CachePool.Proofs.Teardown

namespace CachePool

variable {ω : Type} [Network ω]

/-! ## Reading until a socket blocks -/

/-- What is read until the socket would block is all that it gives. -/
theorem Network.gives_of_readAll {socket : Socket} {net after : ω} {octets : Bytes}
    (hread : Link.readAll socket net = (octets, .drained, after)) :
    Network.Gives socket net octets .drained := by
  fun_induction Link.readAll socket net generalizing octets after with
  | case1 net piece next hpiece more ending last hrest ih =>
      cases hread
      exact .data hpiece (ih hrest)
  | case2 net next hinterrupted ih => exact .interrupted hinterrupted (ih hread)
  | case3 net next hblocked =>
      cases hread
      exact .blocked hblocked
  | case4 | case5 => cases hread

namespace Link

variable {now : Nat} {timeouts : Timeouts} {link : Link} {around : Around ω} {event : Event}
  {socket : Socket}

/-- What a link makes of an event in which it reads its socket until it would block: after the last
read it does nothing but write, and it stays connected. -/
structure Drains (link : Link) (around : Around ω) (now : Nat) (event : Event) (socket : Socket)
    (octets : Bytes) : Prop where
  gives : Network.Gives socket around.net octets .drained
  rest : ∃ drained behind, readAll socket around.net = (octets, .drained, behind.net) ∧
    link.onReady around now event
      = if event.writable then drained.writeQueued behind now else (drained, behind)
  phase : (link.onReady around now event).1.phase = .connected socket

/-! ## Links that stay connected -/

/-- Writing leaves a link on its line. -/
theorem line_writePending (socket : Socket) (link : Link) (net : ω) :
    (link.writePending socket net).1.line = link.line := by
  fun_induction writePending socket link net with
  | case3 link net hempty count net' hoffer hcount ih => rw [ih]; rfl
  | _ => rfl

/-- Writing what is queued ends no command and tells nothing, unless the link is torn down. -/
theorem steps_writeQueued
    (hkept : (link.writeQueued around now).1.phase.health = .connected) :
    ∃ incidents, Steps now timeouts link around.net incidents (link.writeQueued around now).1
        (link.writeQueued around now).2.net ∧
      (link.writeQueued around now).2.finished = around.finished ∧ incidents.endings = [] ∧
      (∀ line, incidents.given line = []) ∧
      (link.writeQueued around now).1.line = link.line ∧
      (link.writeQueued around now).1.phase = link.phase := by
  unfold writeQueued at hkept ⊢
  split
  · rename_i socket hphase
    obtain ⟨incidents, before, hsteps, hendings, hgiven, -, hdone, -⟩ :=
      @steps_writePending ω _ now timeouts socket link around.net hphase
    have hline := line_writePending socket link around.net
    have hsame := phase_writePending socket link around.net
    rcases hpending : link.writePending socket around.net with ⟨last, net, error⟩
    rw [hpending] at hsteps hdone hline hsame
    cases error with
    | none =>
        rw [hdone rfl] at hsteps
        exact ⟨incidents, hsteps, rfl, hendings, hgiven, hline, hsame⟩
    | some error =>
        rw [hphase] at hkept
        dsimp only at hkept
        rw [hpending] at hkept
        cases hkept
  · exact ⟨[], .refl, rfl, rfl, fun _ => rfl, rfl, rfl⟩

/-- A connect that is completed is still on its line. -/
theorem line_pollConnect (link : Link) (around : Around ω) (now : Nat) (socket : Socket)
    (deadline : Nat) : (link.pollConnect around now socket deadline).1.line = link.line := by
  unfold pollConnect
  split
  · rfl
  · dsimp only
    split
    · rfl
    · split <;> rfl
    · rfl

/-! ## Reading in an event -/

/-- A read that tears no link down is one step, in which the link gets all that its socket gives. -/
theorem step_readAvailable (hphase : link.phase = .connected socket)
    (hdone : (link.readAvailable around socket).2.2 = none) :
    ∃ octets incidents drained net, readAll socket around.net = (octets, .drained, net) ∧
      link.Step now timeouts around.net incidents drained net ∧
      incidents.given link.line = octets ∧ drained.line = link.line ∧
      drained.phase = .connected socket ∧
      link.readAvailable around socket
        = (drained, ({ around with net } : Around ω).finish incidents.endings, none) := by
  obtain ⟨octets, net, incidents, answered, hread, hfault, hanswers, -, hresult⟩ :=
    readAvailable_drained hdone
  refine ⟨octets, _, _, net, hread, .received hphase hread hfault hanswers, ?_, ?_, ?_, hresult⟩
  · rw [Trace.given_cons, hanswers.ungiven, List.append_nil]
    exact if_pos rfl
  · rw [hanswers.eq]
    rfl
  · rw [hanswers.eq]
    exact hphase

/-- The read of a link that stays connected tears nothing down. -/
theorem readAvailable_of_kept (hphase : link.phase = .connected socket)
    (hreadable : event.readable = true)
    (hkept : (link.onReady around now event).1.phase.health = .connected) :
    (link.readAvailable around socket).2.2 = none := by
  unfold onReady at hkept
  rw [hphase] at hkept
  dsimp only at hkept
  rw [if_pos hreadable] at hkept
  cases hfailure : (link.readAvailable around socket).2.2 with
  | none => rfl
  | some failure =>
      rw [hfailure] at hkept
      cases hkept

/-- After a read that tears nothing down the link writes, if it may. -/
theorem onReady_of_drained {drained : Link} {behind : Around ω}
    (hphase : link.phase = .connected socket) (hreadable : event.readable = true)
    (hread : link.readAvailable around socket = (drained, behind, none)) :
    link.onReady around now event
      = if event.writable then drained.writeQueued behind now else (drained, behind) := by
  unfold onReady
  rw [hphase]
  dsimp only
  rw [if_pos hreadable, hread]

/-- **A connected link that handles a readable event, and stays connected, has read its socket
until it would block.** -/
theorem drains_onReady (hphase : link.phase = .connected socket)
    (hreadable : event.readable = true)
    (hkept : (link.onReady around now event).1.phase.health = .connected) :
    ∃ incidents, Steps now timeouts link around.net incidents
        (link.onReady around now event).1 (link.onReady around now event).2.net ∧
      (link.onReady around now event).2.finished = around.finished ++ incidents.endings ∧
      (link.onReady around now event).1.line = link.line ∧
      link.Drains around now event socket (incidents.given link.line) := by
  obtain ⟨octets, incidents, drained, net, hread, hstep, hgiven, hline, hdrained, hresult⟩ :=
    @step_readAvailable ω _ now timeouts link around socket hphase
      (readAvailable_of_kept hphase hreadable hkept)
  have hready := @onReady_of_drained ω _ now link around event socket _ _ hphase hreadable hresult
  generalize hbehind : ({ around with net } : Around ω).finish incidents.endings = behind at hready
  have hnet : behind.net = net := by
    rw [← hbehind]
    rfl
  -- what is written afterwards gives the link nothing more
  obtain ⟨more, hmore, hfinished, hendings, hsilent, hsame, hphase'⟩ :
      ∃ more, Steps now timeouts drained behind.net more (link.onReady around now event).1
          (link.onReady around now event).2.net ∧
        (link.onReady around now event).2.finished = behind.finished ∧ more.endings = [] ∧
        (∀ line, more.given line = []) ∧ (link.onReady around now event).1.line = drained.line ∧
        (link.onReady around now event).1.phase = drained.phase := by
    rw [hready] at hkept ⊢
    cases hwritable : event.writable with
    | true =>
        rw [hwritable, if_pos rfl] at hkept
        exact steps_writeQueued hkept
    | false => exact ⟨[], .refl, rfl, rfl, fun _ => rfl, rfl, rfl⟩
  rw [hnet] at hmore
  refine ⟨incidents ++ more, (Steps.single hstep).append hmore, ?_, hsame.trans hline, ?_⟩
  · rw [hfinished, ← hbehind, Trace.endings_append, hendings, List.append_nil]
    rfl
  · rw [Trace.given_append, hsilent, List.append_nil, hgiven]
    exact ⟨Network.gives_of_readAll hread, ⟨drained, behind, hnet ▸ hread, hready⟩,
      hphase'.trans hdrained⟩

/-- A link that reads nothing in an event, and is connected afterwards, is still on its line. -/
theorem line_onReady (hunread : ∀ socket, link.phase = .connected socket → event.readable = false)
    (hkept : (link.onReady around now event).1.phase.health = .connected) :
    (link.onReady around now event).1.line = link.line := by
  unfold onReady at hkept ⊢
  split
  · rfl
  · rfl
  · rename_i socket deadline hphase
    rw [hphase] at hkept
    obtain ⟨-, -, -, -, -, hline, -⟩ := @steps_writeQueued ω _ now .default _ _ hkept
    exact hline.trans (link.line_pollConnect around now socket deadline)
  · rename_i socket hphase
    rw [hphase, hunread socket hphase] at hkept
    rw [hunread socket hphase]
    cases hwritable : event.writable with
    | true =>
        rw [hwritable] at hkept
        obtain ⟨-, -, -, -, -, hline, -⟩ := @steps_writeQueued ω _ now .default _ _ hkept
        exact hline
    | false => rfl

/-- What a link makes of an event, by steps: when it is connected afterwards it is still on its
line, and has read its socket until it would block if it was connected before and the socket was
readable. -/
theorem reads_onReady (link : Link) (around : Around ω) (now : Nat) (event : Event) :
    ∃ incidents, Steps now timeouts link around.net incidents
        (link.onReady around now event).1 (link.onReady around now event).2.net ∧
      (link.onReady around now event).2.finished = around.finished ++ incidents.endings ∧
      ((link.onReady around now event).1.phase.health = .connected →
        (link.onReady around now event).1.line = link.line ∧
        ∀ socket, link.phase = .connected socket → event.readable = true →
          link.Drains around now event socket (incidents.given link.line)) := by
  by_cases hreads : (∃ socket, link.phase = .connected socket ∧ event.readable = true) ∧
      (link.onReady around now event).1.phase.health = .connected
  · obtain ⟨⟨socket, hphase, hreadable⟩, hkept⟩ := hreads
    obtain ⟨incidents, hsteps, hfinished, hline, hdrains⟩ :=
      drains_onReady hphase hreadable hkept
    refine ⟨incidents, hsteps, hfinished, fun _ => ⟨hline, fun other hother _ => ?_⟩⟩
    cases hphase.symm.trans hother
    exact hdrains
  · obtain ⟨incidents, hsteps, hfinished, -⟩ :=
      @follows_onReady ω _ now timeouts link around event
    have hunread (socket : Socket) (hphase : link.phase = .connected socket)
        (hkept : (link.onReady around now event).1.phase.health = .connected) :
        event.readable = false :=
      Bool.eq_false_iff.mpr fun hreadable => hreads ⟨⟨socket, hphase, hreadable⟩, hkept⟩
    refine ⟨incidents, hsteps, hfinished, fun hkept => ⟨?_, fun socket hphase hreadable => ?_⟩⟩
    · exact line_onReady (fun socket hphase => hunread socket hphase hkept) hkept
    · rw [hunread socket hphase hkept] at hreadable
      cases hreadable

/-- A link that is connecting does the same in every event, and when it is pushed forward. -/
theorem onReady_of_connecting {deadline : Nat} (hphase : link.phase = .connecting socket deadline)
    (around : Around ω) (now : Nat) (timeouts : Timeouts) (event : Event) :
    link.onReady around now event = link.makeProgress around now timeouts := by
  unfold onReady makeProgress
  rw [hphase]

end Link

namespace Script

/-- Writing what is queued leaves a script as it is. -/
theorem net_writeQueued (link : Link) (around : Around Script) (now : Nat) :
    (link.writeQueued around now).2.net = around.net := by
  unfold Link.writeQueued
  split
  · rw [writePending_eq]
  · rfl

/-- The first command ends in the event in which its reply comes. -/
theorem onReady_pong (start now clock : Nat) (waits : List PollOutcome) (log : Log) :
    (waitingLink start false).onReady ⟨Script.mk clock [.data pong.frame] waits, log, []⟩ now
        (readable false)
      = ({ waitingLink start false with awaiting := [] },
        ⟨Script.mk clock [] waits, log,
          [{ server := 0, slot := ping.slot, result := .ok .done }]⟩) := by
  have hcut : Response.kind.split ((waitingLink start false).receiving pong.frame).inbound
      = { frames := [(pong, 24)], rest := [], fault := none } := split_pong
  have hdecode : ((waitingLink start false).receiving pong.frame).decodeInbound
      = ({ waitingLink start false with awaiting := [] },
        [{ server := 0, slot := ping.slot, result := .ok .done }], none) := by
    unfold Link.decodeInbound
    rw [hcut]
    rfl
  have hread := @Link.readAvailable_of_looked Script _ (waitingLink start false)
    ⟨Script.mk clock [.data pong.frame] waits, log, []⟩ 0 _ .drained _
    (readAll_eq pong.frame 0 clock waits) (fun _ hsame => nomatch hsame)
  rw [hdecode] at hread
  have hphase : (waitingLink start false).phase = .connected 0 := rfl
  have hreadable : (readable false).readable = true := rfl
  unfold Link.onReady
  rw [hphase]
  dsimp only
  rw [if_pos hreadable, hread]
  rfl

end Script

/-! ## Clients -/

omit [Network ω] in
/-- An event reaches the link with its token, and no other. -/
theorem Pool.onToken_of_token {step : Link → Around ω → Link × Around ω} {front back : List Link}
    {link : Link} (hdistinct : ((front ++ link :: back).map (·.token)).Nodup)
    (around : Around ω) :
    onToken step link.token (front ++ link :: back) around
      = (front ++ (step link around).1 :: back, (step link around).2) := by
  induction front with
  | nil => exact if_pos rfl
  | cons first front ih =>
      rw [List.cons_append, List.map_cons, List.nodup_cons] at hdistinct
      have hother : first.token ≠ link.token := by
        intro hsame
        exact hdistinct.1 (by simp [hsame])
      rw [List.cons_append, onToken, if_neg hother, ih hdistinct.2]
      rfl

namespace Client

/-- What a link of a client makes of an event. -/
def ready (client : Client ω) (link : Link) (now : Nat) (event : Event) : Link × Around ω :=
  link.onReady ⟨client.net, client.log, []⟩ now event

/-- **No readable edge is lost on a connected link.**  An event reaches the link with its token.
When this is connected afterwards, every whole reply in the octets received so far was given to a
command, in order, and what is left is no whole reply.  If it was connected when the event came,
and the socket was readable, the socket was read until it would block, and nothing but writes came
after. -/
theorem readable_edge_drained {net : ω} {config : Config} {start client : Client ω}
    {trace : Trace} {front back : List Link} {link : Link} {event : Event}
    (hconfig : withConfig net config = .ok start) (hreach : start.Reaches trace client)
    (hlinks : client.pool.links = front ++ link :: back) (htoken : event.token = link.token)
    (now : Nat) :
    Pool.onToken (fun link around => link.onReady around now event) event.token client.pool.links
        ⟨client.net, client.log, []⟩
      = (front ++ (client.ready link now event).1 :: back, (client.ready link now event).2) ∧
    ∃ incidents,
      client.Steps incidents (client.amid
        { client.pool with links := front ++ (client.ready link now event).1 :: back }
        (client.ready link now event).2) ∧
      start.Reaches (trace ++ incidents) (client.amid
        { client.pool with links := front ++ (client.ready link now event).1 :: back }
        (client.ready link now event).2) ∧
      ((client.ready link now event).1.phase.health = .connected →
        ((trace ++ incidents).answers link.line).map (·.2)
            = (trace ++ incidents).replies link.line ∧
        Response.kind.decode (client.ready link now event).1.inbound = .ok .incomplete ∧
        ∀ socket, link.phase = .connected socket → event.readable = true →
          link.Drains ⟨client.net, client.log, []⟩ now event socket
            (incidents.given link.line)) := by
  have hdistinct := (reaches_withConfig hconfig hreach).ordered.distinct
  rw [hlinks] at hdistinct ⊢
  rw [htoken]
  refine ⟨Pool.onToken_of_token hdistinct _, ?_⟩
  obtain ⟨incidents, hsteps, hfinished, hkeeps⟩ := @Link.reads_onReady ω _ client.timeouts link
    ⟨client.net, client.log, []⟩ now event
  have hdrives := @drives_steps ω _ (fun _ => True) client client.pool now front back link
    ⟨client.net, client.log, []⟩ (client.ready link now event) incidents hsteps hfinished
    fun _ _ => trivial
  rw [← hlinks] at hdrives
  have hlater := hreach.steps hdrives.steps
  refine ⟨incidents, hdrives.steps, hlater, fun hkept => ?_⟩
  obtain ⟨hline, hdrains⟩ := hkeeps hkept
  obtain ⟨done, waiting, queued, hconverses⟩ :=
    (reaches_withConfig hconfig hlater).links (Link.converses_invariant ω)
      (client.ready link now event).1 (List.mem_append_right _ List.mem_cons_self)
  have hopen : (client.ready link now event).1.phase.socket? ≠ none := by
    intro hnone
    cases hphase : (client.ready link now event).1.phase with
    | connected socket =>
        rw [hphase] at hnone
        cases hnone
    | _ =>
        rw [hphase] at hkept
        cases hkept
  obtain ⟨hmatched, hinbound, hfault⟩ := hconverses.heard hopen
  rw [show (client.ready link now event).1.line = link.line from hline] at hmatched hinbound hfault
  refine ⟨hmatched, ?_, hdrains⟩
  rw [hinbound]
  exact Response.kind.decode_rest hfault

/-- The reply to the first command is read in the event that tells of it, and given to the
command. -/
theorem readable_edge_drained_pong :
    let client := (Script.mk 0 [.data Script.pong.frame] []).wrote
    (client.ready (Script.waitingLink 0 false) 0 (Script.readable false)).1.phase = .connected 0 ∧
    ∃ incidents : Trace, incidents.given Script.wire = Script.pong.frame ∧
      ((Script.writing ++ incidents).answers Script.wire).map (·.2) = [Script.pong] ∧
      (Script.waitingLink 0 false).Drains ⟨client.net, client.log, []⟩ 0 (Script.readable false) 0
        Script.pong.frame := by
  intro client
  have hready : client.ready (Script.waitingLink 0 false) 0 (Script.readable false) = _ :=
    Script.onReady_pong 0 0 0 [] client.log
  have hkept : (client.ready (Script.waitingLink 0 false) 0 (Script.readable false)).1.phase.health
      = .connected := by
    rw [hready]
    rfl
  obtain ⟨-, incidents, -, -, hlater⟩ := @readable_edge_drained Script _ _ _ _ client _ [] []
    (Script.waitingLink 0 false) (Script.readable false) (Script.withConfig_opened _)
    (Script.mk 0 [.data Script.pong.frame] []).reaches_wrote rfl rfl 0
  obtain ⟨hmatched, -, hdrains⟩ := hlater hkept
  have hreads := hdrains 0 rfl rfl
  obtain ⟨after, hread⟩ := hreads.gives.readAll
  have hgiven : incidents.given Script.wire = Script.pong.frame :=
    congrArg Prod.fst (hread.symm.trans (Script.readAll_eq Script.pong.frame 0 0 []))
  refine ⟨by rw [hready]; rfl, incidents, hgiven, ?_, hgiven ▸ hreads⟩
  have hreplies : (Script.writing ++ incidents).replies Script.wire = [Script.pong] := by
    rw [Trace.replies, Trace.given_append, hgiven,
      show Trace.given Script.writing Script.wire ++ Script.pong.frame = Script.pong.frame from rfl,
      Script.split_pong]
    rfl
  exact hmatched.trans hreplies

/-- The event that completes a connect finds the socket readable.  The link is connected
afterwards, and the next read would still give what its socket gave: it was not read until it would
block. -/
theorem connecting_edge_lost :
    let client := (Script.mk 0 [.data Script.garbage] []).connecting
    let result := client.ready (Script.connectingLink 0) 0 (Script.readable true)
    (Script.mk 0 [.data Script.garbage] []).opened.Reaches
        [.issued Script.ping, .opened Script.wire] client ∧
      client.pool.links = [Script.connectingLink 0] ∧ (Script.readable true).readable = true ∧
      result.1.phase = .connected 0 ∧
      Network.read result.2.net 0 = (.data Script.garbage, Script.mk 0 [] []) ∧
      ¬ ∃ octets, (Script.connectingLink 0).Drains ⟨client.net, client.log, []⟩ 0
        (Script.readable true) 0 octets := by
  intro client result
  obtain ⟨note, hprogress⟩ := @Script.makeProgress_connecting (Script.connectingLink 0) _ rfl
    (by decide) client.net client.log 0 client.timeouts
  have hresult : result = _ :=
    (Link.onReady_of_connecting rfl ⟨client.net, client.log, []⟩ 0 client.timeouts
      (Script.readable true)).trans hprogress
  have hread : Network.read result.2.net 0 = (.data Script.garbage, Script.mk 0 [] []) := by
    rw [hresult]
    rfl
  refine ⟨Script.reaches_connecting _, rfl, rfl, by rw [hresult]; rfl, hread, ?_⟩
  -- a link that reads leaves nothing to read, and writing brings nothing back
  rintro ⟨octets, hdrains⟩
  obtain ⟨drained, behind, hrest, hready⟩ := hdrains.rest
  have hbehind : Script.mk 0 [] [] = behind.net :=
    congrArg (·.2.2) ((Script.readAll_eq Script.garbage 0 0 []).symm.trans hrest)
  have hsame : result.2.net = behind.net :=
    (congrArg (·.2.net) hready).trans (Script.net_writeQueued drained behind 0)
  rw [hsame, ← hbehind] at hread
  cases hread

end Client

end CachePool
