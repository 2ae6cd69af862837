/-
# The health of a link

A link is disconnected until its first connect, and then it connects, is connected, or is
dead.  What its other fields hold goes with its phase, and while it stays in the pool its
phase changes only along the arrows of `Health.next`.

* `Link.Shift` : all that one step can do to the phase of a link and to what it remembers
  of its connects;
* `Link.Settled`, `Link.Tried` : what goes with a phase;
* `Link.Sound` : all of it together;
* `Client.links_sound` : every link of every client that is reached is sound.
-/
import CachePool.Proofs.Instants
import CachePool.Proofs.Queues
import CachePool.Proofs.Script

namespace CachePool

/-- What a link that stays in the pool can turn to next. -/
def Health.next : Health → List Health
  | .disconnected => [.connecting, .dead]
  | .connecting => [.connected, .dead]
  | .connected => [.dead]
  | .dead => [.connecting, .dead]

namespace Link

/-! ## What one step does to the phase -/

/-- What one step at an instant does to the phase of a link that stays in the pool, and to
what the link remembers of its connects. -/
inductive Shift (now : Nat) (timeouts : Timeouts) (link after : Link) : Prop
  | stayed (hphase : after.phase = link.phase) (hattempts : after.attempts = link.attempts)
      (hattempt : after.lastAttempt = link.lastAttempt)
      (hfailure : after.lastFailure = link.lastFailure)
  | attempted (hidle : link.phase.socket? = none) (hwork : link.unsent ≠ [])
      (heligible : link.isRetryEligible now timeouts = true)
      (hattempts : after.attempts = link.attempts + 1) (hattempt : after.lastAttempt = some now)
      (hend : (∃ socket, after.phase = .connecting socket (now + timeouts.connect) ∧
          after.lastFailure = link.lastFailure) ∨
        after.phase = .dead ∧ after.lastFailure = some now ∧ after.unsent = [])
  | established {socket : Socket} {deadline : Nat}
      (hbefore : link.phase = .connecting socket deadline) (hphase : after.phase = .connected socket)
      (hattempts : after.attempts = link.attempts)
      (hattempt : after.lastAttempt = link.lastAttempt)
      (hfailure : after.lastFailure = link.lastFailure)
  | failed (hphase : after.phase = .dead) (hfailure : after.lastFailure = some now)
      (hattempts : after.attempts = link.attempts)
      (hattempt : after.lastAttempt = link.lastAttempt) (hunsent : after.unsent = [])

section Steps

variable {ω : Type} [Network ω] {now : Nat} {timeouts : Timeouts} {link after : Link}
  {net last : ω} {incidents : Trace}

/-- A loss ends in death at that instant, whether it was due to a connect or not. -/
theorem Loses.shift {losing : Link} {failure : Failure}
    (hloses : Loses now timeouts link net incidents losing failure last) :
    link.Shift now timeouts (losing.torn now) := by
  cases hloses with
  | unresolved hidle hwork heligible _ =>
      exact .attempted hidle hwork heligible rfl rfl (.inr ⟨rfl, rfl, rfl⟩)
  | unopened hidle hwork heligible _ =>
      exact .attempted hidle hwork heligible rfl rfl (.inr ⟨rfl, rfl, rfl⟩)
  | refusing _ _ _ _ hanswers _ =>
      rw [hanswers.eq]
      exact .failed rfl rfl rfl rfl rfl
  | _ => exact .failed rfl rfl rfl rfl rfl

/-- **What a step does to the phase of a link that stays in the pool.** -/
theorem Step.shift (hstep : link.Step now timeouts net incidents after last)
    (hstays : ∀ incident ∈ incidents, incident.Stays) : link.Shift now timeouts after := by
  cases hstep with
  | opened hidle hwork heligible _ =>
      exact .attempted hidle hwork heligible rfl rfl (.inl ⟨_, rfl, rfl⟩)
  | established hphase _ _ => exact .established hphase rfl rfl rfl rfl
  | received _ _ _ hanswers =>
      rw [hanswers.eq]
      exact .stayed rfl rfl rfl rfl
  | lost hloses => exact hloses.shift
  | retired => exact absurd rfl (hstays _ List.mem_cons_self)
  | _ => exact .stayed rfl rfl rfl rfl

end Steps

namespace Shift

variable {now : Nat} {timeouts : Timeouts} {link after : Link}

/-- The phase stays, or the health goes along an arrow. -/
theorem phase (hshift : link.Shift now timeouts after) :
    after.phase = link.phase ∨ after.phase.health ∈ link.phase.health.next := by
  cases hshift with
  | stayed hphase => exact .inl hphase
  | attempted hidle _ _ _ _ hend =>
      right
      have hbefore : link.phase = .disconnected ∨ link.phase = .dead := by
        cases hphase : link.phase with
        | disconnected => exact .inl rfl
        | dead => exact .inr rfl
        | connecting => exact absurd hidle (socket_ne_none_of_connecting hphase)
        | connected => exact absurd hidle (socket_ne_none hphase)
      rcases hend with ⟨socket, hend, -⟩ | ⟨hend, -⟩
      all_goals
        rw [hend]
        rcases hbefore with hbefore | hbefore
        all_goals
          rw [hbefore]
          simp [Phase.health, Health.next]
  | established hbefore hphase =>
      right
      rw [hbefore, hphase]
      exact List.mem_cons_self
  | failed hphase =>
      right
      rw [hphase]
      cases link.phase <;> simp [Phase.health, Health.next]

/-- Who dies remembers the instant. -/
theorem dead (hshift : link.Shift now timeouts after) (hdead : after.phase = .dead) :
    after.lastFailure = some now ∨ link.phase = .dead ∧
      after.lastFailure = link.lastFailure ∧ after.attempts = link.attempts := by
  cases hshift with
  | stayed hphase hattempts _ hfailure => exact .inr ⟨hphase ▸ hdead, hfailure, hattempts⟩
  | attempted _ _ _ _ _ hend =>
      rcases hend with ⟨socket, hend, -⟩ | ⟨-, hend, -⟩
      · rw [hend] at hdead
        cases hdead
      · exact .inl hend
  | established _ hphase =>
      rw [hphase] at hdead
      cases hdead
  | failed _ hfailure => exact .inl hfailure

/-- What a link remembers of its connects are instants: when the last one was started, and
when the link failed last. -/
theorem remembers (hshift : link.Shift now timeouts after) :
    (after.attempts = link.attempts ∧ after.lastAttempt = link.lastAttempt ∨
      after.attempts = link.attempts + 1 ∧ after.lastAttempt = some now) ∧
    (after.lastFailure = link.lastFailure ∨ after.lastFailure = some now) := by
  cases hshift with
  | stayed _ hattempts hattempt hfailure => exact ⟨.inl ⟨hattempts, hattempt⟩, .inl hfailure⟩
  | attempted _ _ _ hattempts hattempt hend =>
      refine ⟨.inr ⟨hattempts, hattempt⟩, ?_⟩
      rcases hend with ⟨socket, -, hfailure⟩ | ⟨-, hfailure, -⟩
      · exact .inl hfailure
      · exact .inr hfailure
  | established _ _ hattempts hattempt hfailure =>
      exact ⟨.inl ⟨hattempts, hattempt⟩, .inl hfailure⟩
  | failed _ hfailure hattempts hattempt => exact ⟨.inl ⟨hattempts, hattempt⟩, .inr hfailure⟩

end Shift

/-! ## What goes with a phase -/

/-- Before a socket is connected nothing is begun on it, who is dead remembers a failure,
and what was received behind the last reply is no whole reply. -/
structure Settled (link : Link) : Prop where
  unconnected : (∀ socket, link.phase ≠ .connected socket) →
    link.awaiting = [] ∧ link.inbound = [] ∧ link.headWritten = 0
  failed : link.phase = .dead → link.lastFailure.isSome
  incomplete : Response.kind.decode link.inbound = .ok .incomplete

/-- An idle link is not connected. -/
theorem ne_connected {link : Link} (hidle : link.phase.socket? = none) (socket : Socket) :
    link.phase ≠ .connected socket :=
  fun hphase => socket_ne_none hphase hidle

/-- A link that was torn down is settled. -/
theorem settled_torn (link : Link) (now : Nat) : (link.torn now).Settled where
  unconnected _ := ⟨rfl, rfl, rfl⟩
  failed _ := rfl
  incomplete := rfl

/-- Giving up on slots keeps a link settled. -/
theorem Settled.abandon {link : Link} (hsettled : link.Settled) (condition : Slot → Bool) :
    (link.abandon condition).1.Settled where
  unconnected hphase := by
    obtain ⟨hawaiting, hrest⟩ := hsettled.unconnected hphase
    refine ⟨?_, hrest⟩
    show link.awaiting.map (abandonIf condition) = []
    rw [hawaiting]
    rfl
  failed := hsettled.failed
  incomplete := hsettled.incomplete

/-- A step keeps a link settled. -/
theorem Step.settled {ω : Type} [Network ω] {now : Nat} {timeouts : Timeouts} {link after : Link}
    {net last : ω} {incidents : Trace} (hstep : link.Step now timeouts net incidents after last)
    (hsettled : link.Settled) : after.Settled := by
  cases hstep with
  | quiet => exact hsettled
  | examined => exact hsettled
  | opened hidle _ _ _ =>
      exact ⟨fun _ => hsettled.unconnected (ne_connected hidle), fun hdead => (nomatch hdead),
        hsettled.incomplete⟩
  | @established socket =>
      exact ⟨fun hphase => absurd rfl (hphase socket), fun hdead => (nomatch hdead),
        hsettled.incomplete⟩
  | took hphase =>
      refine ⟨fun hother => absurd hphase (hother _), ?_, hsettled.incomplete⟩
      intro hdead
      rw [show (link.wrote _).phase = link.phase from rfl, hphase] at hdead
      cases hdead
  | received hphase _ hfault hanswers =>
      have hsame := congrArg Link.phase hanswers.eq
      refine ⟨fun hother => absurd (hsame.trans hphase) (hother _), ?_,
        Response.kind.decode_rest hfault⟩
      intro hdead
      rw [show Link.phase _ = link.phase from hsame, hphase] at hdead
      cases hdead
  | lost => exact settled_torn _ _
  | retired => exact ⟨fun _ => ⟨rfl, rfl, rfl⟩, fun hdead => (nomatch hdead), rfl⟩
  | shortCircuited hidle =>
      refine ⟨fun hphase => ?_, hsettled.failed, hsettled.incomplete⟩
      obtain ⟨hawaiting, hinbound, -⟩ := hsettled.unconnected hphase
      exact ⟨hawaiting, hinbound, rfl⟩
  | expired target => exact hsettled.abandon target.covers
  | discarded => exact hsettled.abandon fun slot => slot.delivery = .buffered

/-- Every link that is reached is settled. -/
theorem settled_invariant (ω : Type) [Network ω] : Link.Invariant ω fun _ link => link.Settled where
  make _ _ _ := ⟨fun _ => ⟨rfl, rfl, rfl⟩, fun hdead => (nomatch hdead), rfl⟩
  moved _ hsettled := ⟨hsettled.unconnected, hsettled.failed, hsettled.incomplete⟩
  aside _ hsettled := hsettled
  queued _ _ hsettled := ⟨hsettled.unconnected, hsettled.failed, hsettled.incomplete⟩
  step _ _ _ hstep hsettled := hstep.settled hsettled

/-- A link that is disconnected was never tried, and one that was tried remembers when. -/
structure Tried (link : Link) : Prop where
  untried : link.phase = .disconnected →
    link.attempts = 0 ∧ link.lastAttempt = none ∧ link.lastFailure = none
  attempt : 0 < link.attempts → link.lastAttempt.isSome

/-- A step of a link that stays in the pool keeps what it remembers in line. -/
theorem Shift.tried {now : Nat} {timeouts : Timeouts} {link after : Link}
    (hshift : link.Shift now timeouts after) (htried : link.Tried) : after.Tried := by
  cases hshift with
  | stayed hphase hattempts hattempt hfailure =>
      refine ⟨?_, ?_⟩
      · rw [hphase, hattempts, hattempt, hfailure]
        exact htried.untried
      · rw [hattempts, hattempt]
        exact htried.attempt
  | attempted _ _ _ _ hattempt hend =>
      refine ⟨fun hphase => ?_, fun _ => by rw [hattempt]; rfl⟩
      rcases hend with ⟨socket, hend, -⟩ | ⟨hend, -⟩
      all_goals
        rw [hend] at hphase
        cases hphase
  | established _ hphase hattempts hattempt =>
      refine ⟨fun hother => ?_, ?_⟩
      · rw [hphase] at hother
        cases hother
      · rw [hattempts, hattempt]
        exact htried.attempt
  | failed hphase _ hattempts hattempt =>
      refine ⟨fun hother => ?_, ?_⟩
      · rw [hphase] at hother
        cases hother
      · rw [hattempts, hattempt]
        exact htried.attempt

end Link

/-! ## Links in a turn -/

namespace Client

variable {ω : Type} [Network ω]

/-- Replacing the list of servers replaces the links by the placed ones. -/
theorem links_installServers {client after : Client ω} {addresses : List ServerAddress}
    (hinstall : client.installServers addresses = .ok after) :
    after.pool.links = (Pool.place client.pool.links 0 client.pool.nextToken addresses).1 := by
  obtain ⟨-, -, rfl⟩ := installServers_ok_iff.mp hinstall
  rfl

/-- A link after a turn is fresh, or it is one from before that made at most one step at the
instant of the turn. -/
theorem Turn.link_cases {trace incidents : Trace} {client after : Client ω} {instant later : Nat}
    {doer : Option Token} (hordered : client.Ordered trace)
    (hturn : client.Turn instant doer incidents after later) {next : Link}
    (hnext : next ∈ after.pool.links) :
    (∃ link ∈ client.pool.links, next.token = link.token ∧
      link.Shift instant client.timeouts next) ∨
      client.pool.nextToken ≤ next.token ∧ next = Link.make next.server next.token := by
  have hsame (hold : next ∈ client.pool.links) :
      ∃ link ∈ client.pool.links, next.token = link.token ∧
        link.Shift instant client.timeouts next :=
    ⟨next, hold, rfl, .stayed rfl rfl rfl rfl⟩
  cases hturn with
  | looked => exact .inl (hsame hnext)
  | acted hlinks hstep hstays =>
      left
      rcases hordered.others hlinks hnext with rfl | ⟨hold, -⟩
      · refine ⟨_, ?_, hstep.token.1, hstep.shift hstays⟩
        rw [hlinks]
        exact List.mem_append_right _ List.mem_cons_self
      · exact hsame hold
  | waited => exact .inl (hsame hnext)
  | queued hqueue =>
      obtain ⟨front, link, back, hlinks, -, -, -, rfl⟩ := queue_cases hqueue
      left
      rcases hordered.others hlinks hnext with rfl | ⟨hold, -⟩
      · refine ⟨link, ?_, rfl, .stayed rfl rfl rfl rfl⟩
        rw [hlinks]
        exact List.mem_append_right _ List.mem_cons_self
      · exact hsame hold
  | rested _ hpool =>
      rw [hpool] at hnext
      exact .inl (hsame hnext)
  | installed hinstall =>
      rw [links_installServers hinstall] at hnext
      rcases Pool.mem_place hnext with ⟨link, hlink, -, heq⟩ | ⟨fresh, hlow, -, heq⟩
      · rw [heq]
        exact .inl ⟨link, hlink, rfl, .stayed rfl rfl rfl rfl⟩
      · have htoken : next.token = fresh := congrArg Link.token heq
        exact .inr ⟨htoken ▸ hlow, htoken.symm ▸ heq⟩

/-- **A link that stays in the pool makes at most one step in a turn.** -/
theorem Turn.shift {trace incidents : Trace} {client after : Client ω} {instant later : Nat}
    {doer : Option Token} (hordered : client.Ordered trace)
    (hturn : client.Turn instant doer incidents after later) {link next : Link}
    (hlink : link ∈ client.pool.links) (hnext : next ∈ after.pool.links)
    (htoken : next.token = link.token) : link.Shift instant client.timeouts next := by
  rcases hturn.link_cases hordered hnext with ⟨old, hold, hsame, hshift⟩ | ⟨hhigh, -⟩
  · rwa [List.inj_on_of_nodup_map hordered.distinct hlink hold (htoken.symm.trans hsame)]
  · exact absurd (hordered.known link hlink) (Nat.not_lt_of_le (htoken ▸ hhigh))

/-- A client that was just configured belongs to the history of one without servers. -/
theorem history_withConfig {net : ω} {config : Config} {start client : Client ω} {instant : Nat}
    {trace : Trace} (hconfig : withConfig net config = .ok start)
    (hhistory : start.History trace instant client) :
    (blank config.timeouts config.buffering net).History trace instant client := by
  induction hhistory with
  | start =>
      obtain ⟨-, addresses, -, hinstall⟩ := withConfig_installs hconfig
      obtain ⟨driven, hdrives, hplaced, -⟩ := installServers_cases hinstall .refl
      exact (History.start.turn
        (.installed hinstall (hdrives.steps.append (.single hplaced)))).turn .looked
  | turn _ hturn ih => exact ih.turn hturn
  | elapsed net _ ih => exact ih.elapsed net

/-- What the links of a history remember of their connects is in line. -/
theorem History.tried {timeouts : Timeouts} {buffering : Bool} {net : ω} {client : Client ω}
    {instant : Nat} {trace : Trace}
    (hhistory : (blank timeouts buffering net).History trace instant client) :
    ∀ link ∈ client.pool.links, link.Tried := by
  induction hhistory with
  | start =>
      intro _ hlink
      cases hlink
  | turn hhistory hturn ih =>
      intro next hnext
      rcases hturn.link_cases hhistory.reaches.ordered hnext with
        ⟨link, hlink, -, hshift⟩ | ⟨-, hmake⟩
      · exact hshift.tried (ih link hlink)
      · rw [hmake]
        exact ⟨fun _ => ⟨rfl, rfl, rfl⟩, fun hpositive => absurd hpositive (Nat.lt_irrefl 0)⟩
  | elapsed _ _ ih => exact ih

end Client

/-! ## All of it together -/

/-- What goes with the phase of a link. -/
structure Link.Sound (link : Link) : Prop where
  socket : link.phase.socket?.isSome ↔
    link.phase.health = .connecting ∨ link.phase.health = .connected
  deadline : link.phase.deadline?.isSome ↔ link.phase.health = .connecting
  unconnected : link.phase.health ≠ .connected →
    link.awaiting = [] ∧ link.inbound = [] ∧ link.headWritten = 0
  dead : link.phase.health = .dead → link.lastFailure.isSome
  disconnected : link.phase.health = .disconnected →
    link.attempts = 0 ∧ link.lastAttempt = none ∧ link.lastFailure = none
  connected : link.phase.health = .connected →
    Response.kind.decode link.inbound = .ok .incomplete
  /-- Only the first unsent command can be given up, and only when its frame is begun. -/
  abandoned : ∀ place slot, link.unsent[place]? = some slot → slot.abandoned = true →
    place = 0 ∧ 0 < link.headWritten
  ordered : (link.awaiting ++ link.unsent).Pairwise fun first second => first.seq < second.seq
  tagged : ∀ slot ∈ link.awaiting ++ link.unsent, slot.tag.toNat = slot.seq % 2 ^ 32

namespace Link

/-- Slots that are accepted commands in the order of issue are numbered upwards. -/
theorem Queues.ordered {trace : Trace} {link : Link} {count : Nat} (hqueues : link.Queues trace)
    (hplaces : trace.tickets.map (·.slot.seq) = List.range count) :
    (link.awaiting ++ link.unsent).Pairwise fun first second => first.seq < second.seq := by
  have hseqs := List.Sublist.map Slot.seq hqueues
  rw [List.map_map, List.map_map] at hseqs
  change List.Sublist _ (trace.tickets.map (·.slot.seq)) at hseqs
  rw [hplaces] at hseqs
  have hpairs := List.pairwise_lt_range.sublist hseqs
  rw [List.pairwise_map] at hpairs
  exact hpairs

/-- What holds of the slots of accepted commands holds of the slots that links carry. -/
theorem Queues.mem {trace : Trace} {link : Link} {slot : Slot} (hqueues : link.Queues trace)
    (hslot : slot ∈ link.awaiting ++ link.unsent) :
    ∃ ticket ∈ trace.tickets, ticket.slot = slot.original := by
  have hmem := List.Sublist.subset hqueues (List.mem_map_of_mem hslot)
  obtain ⟨ticket, hticket, hsame⟩ := List.mem_map.mp hmem
  exact ⟨ticket, hticket, hsame⟩

/-- Where all fresh slots are alive, only the first slot can be given up. -/
theorem abandoned_of_fresh {link : Link} (hfresh : ∀ slot ∈ link.fresh, slot.isLive = true)
    {place : Nat} {slot : Slot} (hslot : link.unsent[place]? = some slot)
    (habandoned : slot.abandoned = true) : place = 0 ∧ 0 < link.headWritten := by
  have hnot : slot ∉ link.fresh := by
    intro hmem
    have hlive := hfresh slot hmem
    rw [Slot.isLive, habandoned] at hlive
    cases hlive
  have hmem := List.mem_of_getElem? hslot
  unfold fresh at hnot
  split at hnot
  · exact absurd hmem hnot
  · rename_i hbegun
    refine ⟨?_, by omega⟩
    cases hunsent : link.unsent with
    | nil =>
        rw [hunsent] at hmem
        cases hmem
    | cons first others =>
        rw [hunsent] at hslot hnot
        cases place with
        | zero => rfl
        | succ place => exact absurd (@List.mem_of_getElem? _ others place slot hslot) hnot

end Link

namespace Client

variable {ω : Type} [Network ω]

/-- Every link of a history is sound. -/
theorem History.sound {timeouts : Timeouts} {buffering : Bool} {net : ω} {client : Client ω}
    {instant : Nat} {trace : Trace}
    (hhistory : (blank timeouts buffering net).History trace instant client) {link : Link}
    (hlink : link ∈ client.pool.links) : link.Sound := by
  have hreach := hhistory.reaches
  have hsettled := hreach.links (Link.settled_invariant ω) link hlink
  have hqueues := hreach.links (Link.queues_invariant ω) link hlink
  have htried := hhistory.tried link hlink
  refine ⟨?_, ?_, ?_, ?_, ?_, fun _ => hsettled.incomplete, ?_,
    hqueues.ordered hreach.ordered.places, ?_⟩
  · cases link.phase <;> simp [Phase.socket?, Phase.health]
  · cases link.phase <;> simp [Phase.deadline?, Phase.health]
  · intro hhealth
    apply hsettled.unconnected
    intro socket hphase
    rw [hphase] at hhealth
    exact hhealth rfl
  · intro hhealth
    cases hphase : link.phase with
    | dead => exact hsettled.failed hphase
    | _ =>
        rw [hphase] at hhealth
        cases hhealth
  · intro hhealth
    cases hphase : link.phase with
    | disconnected => exact htried.untried hphase
    | _ =>
        rw [hphase] at hhealth
        cases hhealth
  · intro place slot hslot habandoned
    exact Link.abandoned_of_fresh (hreach.links (Link.fresh_invariant ω) link hlink) hslot
      habandoned
  · intro slot hslot
    obtain ⟨ticket, hticket, hsame⟩ := hqueues.mem hslot
    have htag := hreach.tags.tickets ticket hticket
    rw [hsame] at htag
    change slot.tag = UInt32.ofNat slot.seq at htag
    rw [htag, UInt32.toNat_ofNat']

/-- **The states of a link.** At every moment of every history each link is sound: what its
fields hold goes with its phase.  While a link stays in the pool its phase stays as it is or
its health goes along an arrow, and when it dies it remembers the instant: only a link that
is dead already, and starts no connect, keeps the failure it remembers.  Every call is
such turns, with no other use of the network, and leaves the timeouts alone unless it sets
them. -/
theorem links_sound {net : ω} {config : Config} {start client : Client ω} {instant : Nat}
    {trace : Trace} (hconfig : withConfig net config = .ok start)
    (hhistory : start.History trace instant client) :
    (∀ link ∈ client.pool.links, link.Sound) ∧
    (∀ doer incidents after later, client.Turn instant doer incidents after later →
      ∀ link ∈ client.pool.links, ∀ next ∈ after.pool.links, next.token = link.token →
        (next.phase = link.phase ∨ next.phase.health ∈ link.phase.health.next) ∧
        (next.phase.health = .dead → next.lastFailure = some instant ∨
          link.phase.health = .dead ∧ next.lastFailure = link.lastFailure ∧
            next.attempts = link.attempts)) ∧
    ∀ call, ∃ incidents later,
      client.Turns (Keeping call) instant incidents (client.perform call).2 later ∧
      start.History (trace ++ incidents) later (client.perform call).2 := by
  have hblank := history_withConfig hconfig hhistory
  refine ⟨fun link hlink => hblank.sound hlink, ?_, fun call => history_perform hhistory call⟩
  intro doer incidents after later hturn link hlink next hnext htoken
  have hshift := hturn.shift hblank.reaches.ordered hlink hnext htoken
  refine ⟨hshift.phase, fun hhealth => ?_⟩
  have hdead : next.phase = .dead := by
    cases hphase : next.phase with
    | dead => rfl
    | _ =>
        rw [hphase] at hhealth
        cases hhealth
  refine (hshift.dead hdead).imp_right ?_
  rintro ⟨hbefore, hrest⟩
  exact ⟨by rw [hbefore]; rfl, hrest⟩

/-- The only link of a client does one thing. -/
theorem History.only {start client : Client ω} {link next : Link} {net : ω}
    {trace incidents : Trace} {instant : Nat} (hhistory : start.History trace instant client)
    (hlink : client.pool.links = [link])
    (hstep : link.Step instant client.timeouts client.net incidents next net)
    (hstays : ∀ incident ∈ incidents, incident.Stays) :
    start.History (trace ++ incidents) instant { client with
      pool := { client.pool with links := [next] }
      net := net
      ledger := client.ledger.absorb incidents.endings } :=
  hhistory.turn
    (@Turn.acted _ _ client instant [] [] link next incidents net hlink hstep hstays)

/-- The first command of a client is written in turns of one instant. -/
theorem history_wrote (script : Script) :
    script.opened.History Script.writing script.clock script.wrote := by
  have hstays {incident : Incident} (hstays : incident.Stays) :
      ∀ other ∈ [incident], other.Stays := List.forall_mem_singleton.mpr hstays
  have hqueued : script.opened.History [.issued Script.ping] script.clock script.queued :=
    .turn .start (@Turn.queued _ _ _ _ 0 0 (.noop 0) .direct _ script.queue_ping)
  have hopened := hqueued.only rfl (@Link.Step.opened _ _ _ _ _ _
    { address := .v4 127 0 0 1, port := 11211 } 0 script rfl (List.cons_ne_nil _ _) rfl rfl)
    (hstays trivial)
  have hestablished := hopened.only rfl (@Link.Step.established _ _ _ _ _ _ 0 _ script rfl rfl rfl)
    (hstays trivial)
  exact hestablished.only rfl (@Link.Step.took _ _ _ _ _ _ 0 24 script rfl rfl (by decide))
    (List.forall_mem_cons.mpr ⟨trivial, hstays trivial⟩)

/-- The link whose first command waits for its reply is sound. -/
theorem links_sound_waiting :
    (Script.mk 5 [] []).opened.History Script.writing 5 (Script.mk 5 [] []).wrote ∧
      (Script.waitingLink 5 false).Sound := by
  have hhistory := history_wrote (Script.mk 5 [] [])
  exact ⟨hhistory, (links_sound (Script.withConfig_opened _) hhistory).1 _
    (List.mem_singleton_self _)⟩

end Client

end CachePool
