/-
# Clients among hosts of stores

A client whose links attend to their servers, while it drives them: it keeps only results of
the responses of the stores, and as long as the target of a call is not met some server owes
something.  So every wait uses up patience, ends before the deadline, and the call meets its
target.

* `Client.Serves` : the invariant;
* `Client.Serves.waited` : what a wait leaves;
* `Client.Serves.drive` : a call meets its target.
-/
import CachePool.Proofs.Completions
import CachePool.Proofs.Queues
import CachePool.Proofs.Sweeping
import CachePool.Proofs.Waiting

namespace CachePool

/-! ## Results that are kept -/

/-- The outcome of a buffered command that ended. -/
def Finished.completion (finished : Finished) : Completion where
  server := finished.server
  opcode := finished.slot.opcode
  key := finished.slot.key
  result := finished.result

namespace Ledger

/-- Every result that is kept is that of a command that ended so. -/
structure Keeps (ended : Finished → Prop) (ledger : Ledger) : Prop where
  direct : ∀ entry ∈ ledger.direct, ∃ finished, ended finished ∧
    entry = (finished.slot.seq, finished.result)
  completed : ∀ entry ∈ ledger.completed, ∃ finished, ended finished ∧
    entry = (finished.slot.seq, finished.completion)

variable {ledger : Ledger} {ended later : Finished → Prop}

theorem Keeps.mono (himp : ∀ finished, ended finished → later finished)
    (hkeeps : ledger.Keeps ended) : ledger.Keeps later where
  direct entry hmem := by
    obtain ⟨finished, hended, hentry⟩ := hkeeps.direct entry hmem
    exact ⟨finished, himp _ hended, hentry⟩
  completed entry hmem := by
    obtain ⟨finished, hended, hentry⟩ := hkeeps.completed entry hmem
    exact ⟨finished, himp _ hended, hentry⟩

theorem Keeps.record {finished : Finished} (hended : ended finished) (hkeeps : ledger.Keeps ended) :
    (ledger.record finished).Keeps ended := by
  unfold Ledger.record
  dsimp only
  split
  · refine ⟨fun entry hmem => ?_, hkeeps.completed⟩
    rcases List.mem_cons.mp hmem with rfl | hmem
    · exact ⟨finished, hended, rfl⟩
    · exact hkeeps.direct entry hmem
  · refine ⟨hkeeps.direct, fun entry hmem => ?_⟩
    rcases List.mem_append.mp hmem with hmem | hmem
    · exact hkeeps.completed entry hmem
    · exact ⟨finished, hended, List.mem_singleton.mp hmem⟩

theorem Keeps.absorb {finished : List Finished} (hended : ∀ first ∈ finished, ended first)
    (hkeeps : ledger.Keeps ended) : (ledger.absorb finished).Keeps ended := by
  induction finished generalizing ledger with
  | nil => exact hkeeps
  | cons first others ih =>
      exact ih (fun other hmem => hended other (List.mem_cons_of_mem _ hmem))
        (hkeeps.record (hended first List.mem_cons_self))

end Ledger

/-! ## Commands that wait -/

namespace Link

variable {ω : Type} [Network ω] {hosts : Hosts ω} {net : ω} {issued : List Ticket} {ended : Nat}
  {link : Link}

/-- A link on which a command waits has not ended all its commands. -/
theorem Attends.behind (hattends : link.Attends hosts net issued ended)
    (hwaits : link.waiting ≠ []) : ended < issued.length := by
  cases hattends with
  | untouched _ huntouched =>
      refine List.length_pos_iff.mpr fun hnone => hwaits ?_
      rw [Link.waiting, huntouched.unsent, huntouched.awaiting, hnone]
      rfl
  | @speaking channel done waiting queued answered part _ hissued hspeaks =>
      rw [hissued, List.length_append, List.length_append]
      by_contra hall
      obtain ⟨rfl, rfl⟩ : waiting = [] ∧ queued = [] :=
        ⟨List.eq_nil_of_length_eq_zero (by omega), List.eq_nil_of_length_eq_zero (by omega)⟩
      apply hwaits
      rw [Link.waiting, hspeaks.unsent, hspeaks.awaits.2]
      rfl

/-- The poller knows a link by the token of its channel. -/
theorem Attends.token {channel : Channel} (hattends : link.Attends hosts net issued ended)
    (hchannel : hosts.channel net link.server.index = some channel) :
    channel.token = link.token := by
  cases hattends with
  | untouched hnone =>
      rw [hchannel] at hnone
      cases hnone
  | speaking hsame _ hspeaks =>
      rw [hchannel] at hsame
      cases hsame
      exact hspeaks.token

end Link

namespace Client

variable {ω : Type} [Network ω]

/-- Driving leaves the settings of a client, and the places of its commands. -/
theorem Drives.settings {allows : Incident → Prop} {client after : Client ω} {incidents : Trace}
    (hdrives : client.Drives allows incidents after) :
    after.timeouts = client.timeouts ∧ after.pool.ring = client.pool.ring ∧
      after.ledger.buffering = client.ledger.buffering ∧
      after.ledger.nextSeq = client.ledger.nextSeq ∧
      after.ledger.nextTag = client.ledger.nextTag := by
  have hbuffering (ledger : Ledger) (finished : List Finished) :
      (ledger.absorb finished).buffering = ledger.buffering := by
    induction finished generalizing ledger with
    | nil => rfl
    | cons first others ih =>
        refine (ih _).trans ?_
        unfold Ledger.record
        dsimp only
        split <;> rfl
  induction hdrives with
  | refl => exact ⟨rfl, rfl, rfl, rfl, rfl⟩
  | tail _ hmove _ ih =>
      cases hmove with
      | link =>
          obtain ⟨htimeouts, hring, hmode, hseq, htag⟩ := ih
          exact ⟨htimeouts, hring, (hbuffering _ _).trans hmode,
            (Ledger.nextSeq_absorb _ _).trans hseq, (Ledger.nextTag_absorb _ _).trans htag⟩
      | waited => exact ih
      | noted => exact ih

/-- **Driving without giving up** leaves every command waiting, or it ends. -/
theorem Drives.conserves {client after : Client ω} {incidents : Trace} (hapart : client.Apart)
    (hdrives : client.Drives Incident.Keeps incidents after) :
    after.Apart ∧ client.waiting.Perm (after.waiting ++ endedSlots incidents.endings) := by
  induction hdrives with
  | refl => exact ⟨hapart, List.Perm.of_eq (List.append_nil _).symm⟩
  | @tail between after incidents more _ hmove hallowed ih =>
      obtain ⟨hapart, hperm⟩ := ih
      refine ⟨Step.apart hapart (.move hmove), hperm.trans ?_⟩
      have hconserves := Step.conserves hapart (.move hmove)
      have htickets : more.tickets = [] := by
        cases hmove with
        | link _ hstep => exact Trace.tickets_of_about hstep.about
        | waited => rfl
        | noted => rfl
      have hdrops : more.drops = [] := by
        apply List.eq_nil_iff_forall_not_mem.mpr
        intro slot hmem
        exact hallowed _ (Trace.mem_drops.mp hmem) slot.seq rfl
      rw [htickets, hdrops, List.map_nil, List.map_nil, List.append_nil, List.append_nil]
        at hconserves
      rw [Trace.endings_append, endedSlots_append]
      refine (hconserves.append_right _).trans ?_
      rw [List.append_assoc]
      exact List.perm_append_comm.append_left _

/-- A call that waits for a command waits for one that is on some link. -/
theorem waits_of_command {client driven : Client ω} {incidents : Trace} {slot : Slot}
    (hapart : client.Apart) (hslot : slot ∈ client.waiting) (hdirect : slot.delivery = .direct)
    (hdrives : client.Drives Incident.Keeps incidents driven)
    (hunmet : driven.hasMet (.command slot.seq) = false) :
    ∃ link ∈ driven.pool.links, link.waiting ≠ [] := by
  rcases List.mem_append.mp (((hdrives.conserves hapart).2).subset hslot) with hwaits | hended
  · obtain ⟨link, hmem, hlink⟩ := List.mem_flatMap.mp hwaits
    exact ⟨link, hmem, List.ne_nil_of_mem hlink⟩
  · obtain ⟨finished, hmem, rfl⟩ := List.mem_map.mp hended
    have hkept := (hdrives.gathers (Ledger.gathers_nil _)).direct finished hmem hdirect
    have hmet : driven.hasMet (.command finished.slot.seq) = true := Ledger.hasDirect_of_mem hkept
    rw [show finished.slot.original.seq = finished.slot.seq from rfl, hmet] at hunmet
    cases hunmet

omit [Network ω] in
/-- A flush waits for commands that are on some link. -/
theorem waits_of_buffered {client : Client ω} (hunmet : client.hasMet .allBuffered = false) :
    ∃ link ∈ client.pool.links, link.waiting ≠ [] := by
  rw [hasMet, List.all_eq_false] at hunmet
  obtain ⟨link, hmem, hcount⟩ := hunmet
  refine ⟨link, hmem, fun hnone => hcount ?_⟩
  rw [Link.waiting, live, live, ← List.map_append, List.map_eq_nil_iff, ← List.filter_append,
    List.filter_eq_nil_iff] at hnone
  rw [decide_eq_true_iff, Link.liveCount, List.countP_eq_zero]
  intro slot hslot hlive
  rw [Bool.and_eq_true] at hlive
  exact hnone slot hslot hlive.1

end Client

/-! ## The invariant -/

namespace Client

variable {ω : Type} [Network ω] {hosts : Hosts ω} {servers : List ServerAddress}
  {issued : Nat → List Ticket} {client : Client ω}

/-- **A client among hosts of stores**: its links are those to the servers, each attends to the
commands issued to its server and has read what it was told of but for some events, and only
results of the responses are kept. -/
structure Serves (hosts : Hosts ω) (servers : List ServerAddress) (issued : Nat → List Ticket)
    (events : List Event) (client : Client ω) : Prop where
  lists : Lists servers client.pool.links
  tokens : (client.pool.links.map (·.token)).Nodup
  minds : ∀ link ∈ client.pool.links, link.Minds hosts issued client.net
  told : ∀ link ∈ client.pool.links, link.Told hosts events client.net
  kept : client.ledger.Keeps (hosts.Settled issued client.net)
  connect : 0 < client.timeouts.connect

/-- What bounds the waits of a client. -/
def effort (hosts : Hosts ω) (client : Client ω) : Nat :=
  hosts.price * workOf client.pool.links + hosts.patience client.net

/-- What a client gains by driving its links: nothing is lost, and what is to come gets no
dearer. -/
structure Gains (hosts : Hosts ω) (client after : Client ω) : Prop where
  onward : hosts.Extends client.net after.net
  effort : after.effort hosts ≤ client.effort hosts

omit [Network ω] in
theorem Gains.trans {between after : Client ω} (hfirst : client.Gains hosts between)
    (hsecond : between.Gains hosts after) : client.Gains hosts after where
  onward := hfirst.onward.trans hsecond.onward
  effort := Nat.le_trans hsecond.effort hfirst.effort

/-- Nothing is left unread when there are no events. -/
theorem Serves.heard (hserves : client.Serves hosts servers issued []) :
    ∀ link ∈ client.pool.links, link.Heard hosts client.net := by
  intro link hmem
  rcases hserves.told link hmem with hheard | ⟨event, hnone, -⟩
  · exact hheard
  · cases hnone

/-- Moving the links keeps the invariant. -/
theorem Serves.amid {pool : Pool} {around : Around ω} {events : List Event}
    (hlawful : hosts.Lawful servers) (hserves : client.Serves hosts servers issued events)
    (hsweeps : Sweeps hosts issued client.pool.links ⟨client.net, client.log, []⟩
      (pool.links, around))
    (hlinks : ∀ link ∈ pool.links,
      link.Minds hosts issued around.net ∧ link.Heard hosts around.net) :
    (client.amid pool around).Serves hosts servers issued [] where
  lists := hsweeps.servers.trans hserves.lists
  tokens := by
    show (pool.links.map (·.token)).Nodup
    rw [hsweeps.tokens]
    exact hserves.tokens
  minds link hmem := (hlinks link hmem).1
  told link hmem := .inl (hlinks link hmem).2
  kept := by
    obtain ⟨finished, hfinished, hsettled⟩ := hsweeps.settled
    show (client.ledger.absorb around.finished).Keeps _
    rw [show around.finished = finished from hfinished]
    exact (hserves.kept.mono fun _ hended =>
      hended.mono hlawful (fun _ => List.prefix_rfl) hsweeps.onward).absorb hsettled
  connect := hserves.connect

/-- **Pushing the links forward** leaves nothing that could be written. -/
theorem Serves.makeProgress (hlawful : hosts.Lawful servers)
    (hvalid : ∀ index, ∀ ticket ∈ issued index, ticket.Valid)
    (hserves : client.Serves hosts servers issued []) :
    (client.makeProgress (Network.now client.net)).Serves hosts servers issued [] ∧
      client.Gains hosts (client.makeProgress (Network.now client.net)) ∧
      Network.now (client.makeProgress (Network.now client.net)).net = Network.now client.net ∧
      ∀ link ∈ (client.makeProgress (Network.now client.net)).pool.links,
        link.Pushed hosts (client.makeProgress (Network.now client.net)).net := by
  obtain ⟨hsweeps, hlinks⟩ := @sweeps_makeProgress ω hosts servers issued client.pool.links
    ⟨client.net, client.log, []⟩ _ client.timeouts (Network.now client.net) hlawful hvalid
    hserves.connect hserves.lists rfl hserves.minds hserves.heard
  refine ⟨?_, ⟨hsweeps.onward, hsweeps.effort⟩, hsweeps.now, fun link hmem => (hlinks link hmem).2.2⟩
  exact @Serves.amid ω _ hosts servers issued client { client.pool with links := _ } _ [] hlawful
    hserves hsweeps fun link hmem => ⟨(hlinks link hmem).1, (hlinks link hmem).2.1⟩

/-- **Handling the events of a wait** leaves nothing unread. -/
theorem Serves.handleEvents {events : List Event} (hlawful : hosts.Lawful servers)
    (hvalid : ∀ index, ∀ ticket ∈ issued index, ticket.Valid)
    (hserves : client.Serves hosts servers issued events) :
    (client.handleEvents events).Serves hosts servers issued [] ∧
      client.Gains hosts (client.handleEvents events) ∧
      Network.now (client.handleEvents events).net = Network.now client.net := by
  obtain ⟨hsweeps, hlinks⟩ := @sweeps_handleEvents ω hosts servers issued
    ⟨client.net, client.log, []⟩ _ (Network.now client.net) events client.pool hlawful hvalid
    hserves.lists hserves.tokens rfl hserves.minds hserves.told
  exact ⟨hserves.amid hlawful hsweeps hlinks, ⟨hsweeps.onward, hsweeps.effort⟩, hsweeps.now⟩

/-! ## Waiting -/

/-- What the poller reports about a link that had read everything. -/
theorem told_of_reports {events : List Event} {link : Link} {net after : ω} {ended : Nat}
    (hattends : link.Attends hosts net (issued link.server.index) ended)
    (hheard : link.Heard hosts net)
    (hreports : Option.Rel (Channel.Reports events) (hosts.channel net link.server.index)
      (hosts.channel after link.server.index)) : link.Told hosts events after := by
  by_cases hevent : ∃ event ∈ events, event.token = link.token ∧ event.readable = true
  · exact .inr hevent
  refine .inl fun later hlater => ?_
  rw [hlater] at hreports
  generalize hchannel : hosts.channel net link.server.index = channel at hreports
  cases hreports with
  | some hreports =>
      rcases hreports.told with hdue | hread | ⟨hquiet, hsame⟩ | ⟨event, hmem, htoken, hreadable⟩
      · exact .inl hdue
      · exact .inr hread
      · refine .inr ?_
        rw [hreports.given, hsame]
        refine (hheard _ hchannel).resolve_left ?_
        rw [hquiet]
        exact Bool.false_ne_true
      · exact absurd ⟨event, hmem, htoken.trans (hattends.token hchannel), hreadable⟩ hevent

/-- **A wait** for something that is owed ends before the deadline and uses up patience. -/
theorem Serves.waited {outcome : PollOutcome} {after : ω} {deadline : Nat}
    (hlawful : hosts.Lawful servers) (hserves : client.Serves hosts servers issued [])
    (hpoll : Network.poll client.net (client.waitTime (Network.now client.net) deadline)
      = (outcome, after))
    (howes : hosts.Owes client.net) (htime : hosts.onTime after)
    (hearly : Network.now client.net < deadline) :
    Network.now after < deadline ∧ hosts.patience after < hosts.patience client.net ∧
      hosts.Extends client.net after ∧
      ∃ events, (outcome = .interrupted ∧ events = [] ∨ outcome = .ready events) ∧
        Serves hosts servers issued events { client with net := after } := by
  obtain ⟨hpositive, hdeadline, hconnects⟩ := client.waitTime_le hearly
  obtain ⟨hpatience, hnow⟩ := hlawful.waits hpoll howes hpositive htime
  have hgrown {index : Nat} {events : List Event}
      (hreports : Option.Rel (Channel.Reports events) (hosts.channel client.net index)
        (hosts.channel after index)) :
      Option.Rel Channel.Grows (hosts.channel client.net index) (hosts.channel after index) := by
    generalize hosts.channel client.net index = channel at hreports
    generalize hosts.channel after index = later at hreports
    cases hreports with
    | some hreports => exact .some hreports.toGrows
    | none => exact .none
  have hserved {events : List Event}
      (hgrows : ∀ index, Option.Rel Channel.Grows (hosts.channel client.net index)
        (hosts.channel after index))
      (htold : ∀ link ∈ client.pool.links, link.Told hosts events after) :
      hosts.Extends client.net after ∧
        Serves hosts servers issued events { client with net := after } := by
    have honward : hosts.Extends client.net after :=
      fun index channel hchannel => Hosts.extends_of_grows (hgrows index) hchannel
    refine ⟨honward, hserves.lists, hserves.tokens, fun link hmem => ?_, htold,
      hserves.kept.mono fun _ hended => hended.mono hlawful (fun _ => List.prefix_rfl) honward,
      hserves.connect⟩
    obtain ⟨ended, hattends⟩ := hserves.minds link hmem
    -- the wait ends before the connect is overdue
    refine ⟨ended, hattends.grows hlawful (hgrows _) fun connect hconnect => ?_⟩
    exact Nat.lt_of_lt_of_le hnow
      (hconnects link hmem connect hconnect (hattends.early connect hconnect))
  refine ⟨Nat.lt_of_lt_of_le hnow hdeadline, hpatience, ?_⟩
  rcases hlawful.polls hpoll with ⟨hinterrupted, hrests⟩ | ⟨events, hready, hreports⟩
  · obtain ⟨honward, hserves'⟩ := @hserved [] (fun index => Hosts.grows_of_rests (hrests index))
      fun link hmem => .inl ((hserves.heard link hmem).rests (hrests _))
    exact ⟨honward, [], .inl ⟨hinterrupted, rfl⟩, hserves'⟩
  · obtain ⟨honward, hserves'⟩ := @hserved events (fun index => hgrown (hreports index))
      fun link hmem => by
        obtain ⟨ended, hattends⟩ := hserves.minds link hmem
        exact told_of_reports hattends (hserves.heard link hmem) (hreports _)
    exact ⟨honward, events, .inr hready, hserves'⟩

/-- As long as a command waits on some link a server owes something. -/
theorem Serves.owes (hlawful : hosts.Lawful servers)
    (hvalid : ∀ index, ∀ ticket ∈ issued index, ticket.Valid)
    (hserves : client.Serves hosts servers issued [])
    (hpushed : ∀ link ∈ client.pool.links, link.Pushed hosts client.net)
    (hwaits : ∃ link ∈ client.pool.links, link.waiting ≠ []) : hosts.Owes client.net := by
  obtain ⟨link, hmem, hwaits⟩ := hwaits
  obtain ⟨ended, hattends⟩ := hserves.minds link hmem
  exact hattends.owes hlawful (hvalid _) (hpushed link hmem) (hserves.heard link hmem)
    (hattends.behind hwaits)

/-! ## Calls that wait -/

/-- A pause for something that is owed does not fail, and uses up effort before the
deadline. -/
theorem Serves.resumed {target : Target} {deadline : Nat} (hlawful : hosts.Lawful servers)
    (hvalid : ∀ index, ∀ ticket ∈ issued index, ticket.Valid)
    (hserves : client.Serves hosts servers issued []) (hpauses : client.Pauses target deadline)
    (hwaits : ∃ link ∈ client.pushed.pool.links, link.waiting ≠ [])
    (htime : hosts.onTime (client.pause deadline).resumed.net) :
    (client.pause deadline).resumed.Serves hosts servers issued [] ∧
      hosts.Extends client.net (client.pause deadline).resumed.net ∧
      (client.pause deadline).resumed.effort hosts < client.effort hosts ∧
      Network.now (client.pause deadline).resumed.net < deadline := by
  obtain ⟨hpushed, hgains, hnow, hwritten⟩ := hserves.makeProgress hlawful hvalid
  have howes := hpushed.owes hlawful hvalid hwritten hwaits
  have hnoticed : hosts.onTime (client.pause deadline).net := by
    unfold Pause.resumed at htime
    split at htime
    · rename_i events _
      obtain ⟨_, hhandled⟩ := drives_handleEvents
        { (client.pause deadline).client with net := (client.pause deadline).net } events
      exact hlawful.onTime hhandled.steps.leads htime
    · exact htime
    · exact htime
  have hearly := hpauses.early
  rw [← hnow] at hearly
  have hpoll : Network.poll client.pushed.net
      (client.pushed.waitTime (Network.now client.pushed.net) deadline)
        = ((client.pause deadline).outcome, (client.pause deadline).net) := by
    rw [show Network.now client.pushed.net = Network.now client.net from hnow]
    rfl
  obtain ⟨hbefore, hpatience, honward, events, houtcome, hserves'⟩ :=
    hpushed.waited hlawful hpoll howes hnoticed hearly
  have hless : Client.effort hosts { client.pushed with net := (client.pause deadline).net }
      < client.effort hosts :=
    Nat.lt_of_lt_of_le (Nat.add_lt_add_left hpatience _) hgains.effort
  have hextends := hgains.onward.trans honward
  unfold Pause.resumed
  rcases houtcome with ⟨hinterrupted, rfl⟩ | hready
  · rw [hinterrupted]
    exact ⟨hserves', hextends, hless, hbefore⟩
  · rw [hready]
    obtain ⟨hhandled, hgains', hnow'⟩ := hserves'.handleEvents hlawful hvalid
    exact ⟨hhandled, hextends.trans hgains'.onward, Nat.lt_of_le_of_lt hgains'.effort hless,
      Nat.lt_of_le_of_lt (Nat.le_of_eq hnow') hbefore⟩

/-- **A call meets its target** before its deadline, if as long as it is not met a command
waits on some link.  A call whose first round meets the target needs no time. -/
theorem Serves.drive {target : Target} {deadline waits : Nat} (hlawful : hosts.Lawful servers)
    (hvalid : ∀ index, ∀ ticket ∈ issued index, ticket.Valid)
    (hserves : client.Serves hosts servers issued [])
    (hearly : client.pushed.hasMet target = false → Network.now client.net < deadline)
    (hwaits : client.effort hosts < waits)
    (htime : hosts.onTime (drive target deadline waits client).2.net)
    (hunmet : ∀ incidents driven, client.Drives Incident.Keeps incidents driven →
      driven.hasMet target = false → ∃ link ∈ driven.pool.links, link.waiting ≠ []) :
    ∃ incidents driven, drive target deadline waits client = (.ok (), driven) ∧
      client.Drives Incident.Keeps incidents driven ∧ driven.hasMet target = true ∧
      driven.Serves hosts servers issued [] ∧ client.Gains hosts driven := by
  induction waits generalizing client with
  | zero => exact absurd hwaits (Nat.not_lt_zero _)
  | succ waits ih =>
      obtain ⟨hpushed, hgains, -, -⟩ := hserves.makeProgress hlawful hvalid
      obtain ⟨incidents, hdrives⟩ := drives_makeProgress client (Network.now client.net)
      cases hmet : client.pushed.hasMet target with
      | true => exact ⟨incidents, client.pushed, drive_met hmet _, hdrives, hmet, hpushed, hgains⟩
      | false =>
          have hpauses : client.Pauses target deadline := ⟨hmet, hearly hmet⟩
          have hwaited : ∀ error, (client.pause deadline).outcome ≠ .failed error := by
            intro error hfailed
            have hpoll : Network.poll client.pushed.net (client.pause deadline).time
              = ((client.pause deadline).outcome, (client.pause deadline).net) := rfl
            rcases hlawful.polls hpoll with ⟨hother, -⟩ | ⟨events, hother, -⟩
            all_goals
              rw [hfailed] at hother
              cases hother
          rw [hpauses.drive_resumed hwaited] at htime ⊢
          -- the rounds after the first, which has used up effort
          obtain ⟨more, hresumed⟩ := client.drives_resumed deadline
          obtain ⟨_, hrest⟩ := drives_drive target deadline waits (client.pause deadline).resumed
          obtain ⟨hserves', honward, hless, hearly'⟩ := hserves.resumed hlawful hvalid hpauses
            (hunmet _ _ hdrives hmet) (hlawful.onTime hrest.steps.leads htime)
          have hbefore := hdrives.append hresumed
          obtain ⟨last, driven, hdriven, hlast, hdone, hserves'', hgains'⟩ :=
            ih hserves' (fun _ => hearly') (by omega) htime
              fun incidents driven hdriven => hunmet _ _ (hbefore.append hdriven)
          exact ⟨_, driven, hdriven, hbefore.append hlast, hdone, hserves'',
            Gains.trans ⟨honward, Nat.le_of_lt hless⟩ hgains'⟩

end Client

end CachePool
