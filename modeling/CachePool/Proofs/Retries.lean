/-
# Retries

A server that failed is left alone for a while.  A connect to it is started again only when
the times after its last failure and after its last attempt are over, a run starts at most
one connect for each link, and commands that are queued for an excluded server end in the
run that finds them, without any work for its socket.

* `Link.Shift.spaced` : the times between two attempts;
* `Link.Once`, `Link.Shift.once` : a link without work starts no connect;
* `Link.Barred` : an excluded link leaves the network alone;
* `Client.retries_gated` : all of it for every history.
-/
import CachePool.Proofs.Health
import CachePool.Proofs.Waiting

namespace CachePool

namespace Link

/-! ## Times between attempts -/

/-- Who may be tried again has waited since its last failure and its last attempt. -/
theorem waited_of_isRetryEligible {link : Link} {now failure attempt : Nat} {timeouts : Timeouts}
    (hfailure : link.lastFailure = some failure) (hattempt : link.lastAttempt = some attempt)
    (heligible : link.isRetryEligible now timeouts = true) :
    failure + timeouts.dead ≤ now ∧ attempt + timeouts.reconnect ≤ now := by
  unfold isRetryEligible at heligible
  rw [hfailure, hattempt] at heligible
  simpa using heligible

/-- An attempt after the first comes late enough after the last failure and the last
attempt. -/
theorem Shift.spaced {now : Nat} {timeouts : Timeouts} {link after : Link}
    (hshift : link.Shift now timeouts after) (hsettled : link.Settled) (htried : link.Tried)
    (hagain : 0 < link.attempts) (hattempted : after.attempts ≠ link.attempts) :
    ∃ failure attempt, link.lastFailure = some failure ∧ link.lastAttempt = some attempt ∧
      failure + timeouts.dead ≤ now ∧ attempt + timeouts.reconnect ≤ now := by
  cases hshift with
  | attempted hidle _ heligible =>
      obtain ⟨attempt, hattempt⟩ := Option.isSome_iff_exists.mp (htried.attempt hagain)
      have hdead : link.phase = .dead := by
        cases hphase : link.phase with
        | dead => rfl
        | disconnected => exact absurd (htried.untried hphase).1 (Nat.ne_of_gt hagain)
        | connecting => exact absurd hidle (socket_ne_none_of_connecting hphase)
        | connected => exact absurd hidle (socket_ne_none hphase)
      obtain ⟨failure, hfailure⟩ := Option.isSome_iff_exists.mp (hsettled.failed hdead)
      exact ⟨failure, attempt, hfailure, hattempt,
        waited_of_isRetryEligible hfailure hattempt heligible⟩
  | stayed _ hattempts => exact absurd hattempts hattempted
  | established _ _ hattempts => exact absurd hattempts hattempted
  | failed _ _ hattempts => exact absurd hattempts hattempted

/-! ## One attempt -/

/-- A link that has started at most one connect since it had started so many, and will not
start another as long as no command is queued: its socket is open, or it has no work. -/
def Once (count : Nat) (link : Link) : Prop :=
  link.attempts = count ∨
    link.attempts = count + 1 ∧ (link.phase.socket? ≠ none ∨ link.unsent = [])

/-- A step queues no commands. -/
theorem Step.unsent_eq_nil {ω : Type} [Network ω] {now : Nat} {timeouts : Timeouts}
    {link after : Link} {net last : ω} {incidents : Trace}
    (hstep : link.Step now timeouts net incidents after last) (hunsent : link.unsent = []) :
    after.unsent = [] := by
  cases hstep with
  | took =>
      show (splitWritten _ link.unsent).2.2 = []
      rw [hunsent]
      rfl
  | received _ _ _ hanswers =>
      rw [hanswers.eq]
      exact hunsent
  | expired =>
      show (sweep _ _ link.unsent _).kept = []
      rw [hunsent]
      rfl
  | discarded =>
      show (sweep _ _ link.unsent _).kept = []
      rw [hunsent]
      rfl
  | quiet => exact hunsent
  | opened => exact hunsent
  | established => exact hunsent
  | examined => exact hunsent
  | _ => rfl

/-- A link that has no work left starts no second connect. -/
theorem Shift.once {now count : Nat} {timeouts : Timeouts} {link after : Link}
    (hshift : link.Shift now timeouts after) (hunsent : link.unsent = [] → after.unsent = [])
    (honce : link.Once count) : after.Once count := by
  cases hshift with
  | stayed hphase hattempts =>
      rw [Once, hattempts, hphase]
      exact honce.imp_right (And.imp_right (Or.imp_right hunsent))
  | attempted hidle hwork _ hattempts _ hend =>
      rcases honce with hfirst | ⟨-, hopen | hnone⟩
      · refine .inr ⟨by omega, ?_⟩
        rcases hend with ⟨socket, hend, -⟩ | ⟨-, -, hend⟩
        · exact .inl (socket_ne_none_of_connecting hend)
        · exact .inr hend
      · exact absurd hidle hopen
      · exact absurd hnone hwork
  | established _ hphase hattempts =>
      rw [Once, hattempts]
      exact honce.imp_right (And.imp_right fun _ => .inl (socket_ne_none hphase))
  | failed _ _ hattempts _ hnone =>
      rw [Once, hattempts]
      exact honce.imp_right (And.imp_right fun _ => .inr hnone)

/-! ## Excluded links -/

/-- A link that no connect may be started for at an instant, with nothing but whole
commands queued. -/
structure Barred (now : Nat) (timeouts : Timeouts) (link : Link) : Prop where
  dead : link.phase = .dead
  excluded : link.isRetryEligible now timeouts = false
  awaiting : link.awaiting = []
  begun : link.headWritten = 0
  live : ∀ slot ∈ link.unsent, slot.isLive = true

/-- A sound link that is dead and may not be tried is barred. -/
theorem Sound.barred {now : Nat} {timeouts : Timeouts} {link : Link} (hsound : link.Sound)
    (hdead : link.phase.health = .dead) (hexcluded : link.isRetryEligible now timeouts = false) :
    link.Barred now timeouts := by
  obtain ⟨hawaiting, -, hbegun⟩ := hsound.unconnected (by
    rw [hdead]
    exact fun hsame => nomatch hsame)
  refine ⟨?_, hexcluded, hawaiting, hbegun, ?_⟩
  · cases hphase : link.phase with
    | dead => rfl
    | _ =>
        rw [hphase] at hdead
        cases hdead
  · intro slot hslot
    obtain ⟨place, hplace⟩ := List.getElem?_of_mem hslot
    rw [Slot.isLive, Bool.not_eq_true', Bool.eq_false_iff]
    intro habandoned
    exact absurd (hsound.abandoned place slot hplace habandoned).2 (by omega)

/-- No slot is given up where all are alive. -/
theorem abandonedCount_eq_zero {link : Link} (hawaiting : link.awaiting = [])
    (hlive : ∀ slot ∈ link.unsent, slot.isLive = true) : link.abandonedCount = 0 := by
  rw [abandonedCount, hawaiting, List.append_nil, List.countP_eq_zero]
  intro slot hslot habandoned
  have hslot := hlive slot hslot
  rw [Slot.isLive, habandoned] at hslot
  cases hslot

/-- Giving up on commands of which nothing is written bars a link as before. -/
theorem Barred.abandon {now : Nat} {timeouts : Timeouts} {link : Link}
    (hbarred : link.Barred now timeouts) (condition : Slot → Bool) :
    (link.abandon condition).1.Barred now timeouts where
  dead := hbarred.dead
  excluded := hbarred.excluded
  awaiting := by
    show link.awaiting.map (abandonIf condition) = []
    rw [hbarred.awaiting]
    rfl
  begun := hbarred.begun
  live slot hslot := by
    have hkept : slot ∈ (sweep condition link.headWritten link.unsent link.outbound).kept := hslot
    rw [hbarred.begun] at hkept
    exact hbarred.live slot ((sublist_sweep_zero condition _ _).subset hkept)

section Steps

variable {ω : Type} [Network ω] {now : Nat} {timeouts : Timeouts} {link after : Link}
  {net last : ω} {incidents : Trace}

/-- Nothing costs a link without a socket that starts no connect. -/
theorem Loses.idle {losing : Link} {failure : Failure}
    (hloses : Loses now timeouts link net incidents losing failure last)
    (hidle : link.phase.socket? = none) :
    (link.unsent ≠ [] ∧ link.isRetryEligible now timeouts = true) ∨
      maxAbandoned < link.abandonedCount := by
  cases hloses with
  | unresolved _ hwork heligible => exact .inl ⟨hwork, heligible⟩
  | unopened _ hwork heligible => exact .inl ⟨hwork, heligible⟩
  | unresponsive hmany => exact .inr hmany
  | refused hphase => exact absurd hidle (socket_ne_none_of_connecting hphase)
  | peerless hphase => exact absurd hidle (socket_ne_none_of_connecting hphase)
  | late hphase => exact absurd hidle (socket_ne_none_of_connecting hphase)
  | unwritable hphase => exact absurd hidle (socket_ne_none hphase)
  | stuck hphase => exact absurd hidle (socket_ne_none hphase)
  | unreadable hphase => exact absurd hidle (socket_ne_none hphase)
  | refusing hphase => exact absurd hidle (socket_ne_none hphase)

/-- Nothing is asked of the network for a link without a socket. -/
theorem not_quiet (hidle : link.phase.socket? = none) : ¬ link.Quiet now net last := by
  intro hquiet
  cases hquiet with
  | pending hphase => exact socket_ne_none_of_connecting hphase hidle
  | interrupted hphase => exact socket_ne_none hphase hidle
  | blocked hphase => exact socket_ne_none hphase hidle

/-- **A barred link stays barred and leaves the network alone.** -/
theorem Step.barred (hstep : link.Step now timeouts net incidents after last)
    (hstays : ∀ incident ∈ incidents, incident.Stays) (hbarred : link.Barred now timeouts) :
    after.Barred now timeouts ∧ last = net := by
  have hidle : link.phase.socket? = none := by
    rw [hbarred.dead]
    rfl
  have hexcluded := hbarred.excluded
  cases hstep with
  | quiet hquiet => exact absurd hquiet (not_quiet hidle)
  | opened _ _ heligible => simp [hexcluded] at heligible
  | established hphase => exact absurd hidle (socket_ne_none_of_connecting hphase)
  | took hphase => exact absurd hidle (socket_ne_none hphase)
  | received hphase => exact absurd hidle (socket_ne_none hphase)
  | lost hloses =>
      rcases hloses.idle hidle with ⟨-, heligible⟩ | hmany
      · simp [hexcluded] at heligible
      · simp [abandonedCount_eq_zero hbarred.awaiting hbarred.live] at hmany
  | shortCircuited =>
      exact ⟨⟨hbarred.dead, hexcluded, hbarred.awaiting, rfl, fun _ hslot => nomatch hslot⟩, rfl⟩
  | expired target => exact ⟨hbarred.abandon target.covers, rfl⟩
  | discarded => exact ⟨hbarred.abandon fun slot => slot.delivery = .buffered, rfl⟩
  | examined => exact ⟨hbarred, rfl⟩
  | retired => exact absurd rfl (hstays _ List.mem_cons_self)

/-- Nothing becomes of a vacant link, and nothing of the network for it. -/
theorem Step.of_vacant (hstep : link.Step now timeouts net incidents after last)
    (hstays : ∀ incident ∈ incidents, incident.Stays) (hvacant : link.Vacant)
    (houtbound : link.outbound = []) : after = link ∧ last = net := by
  have hidle := hvacant.closed
  have habandon (condition : Slot → Bool) : (link.abandon condition).1 = link := by
    have hunsent := hvacant.unsent
    have hawaiting := hvacant.awaiting
    cases link
    subst hunsent hawaiting houtbound
    rfl
  cases hstep with
  | quiet hquiet => exact absurd hquiet (not_quiet hidle)
  | opened _ hwork => exact absurd hvacant.unsent hwork
  | established hphase => exact absurd hidle (socket_ne_none_of_connecting hphase)
  | took hphase => exact absurd hidle (socket_ne_none hphase)
  | received hphase => exact absurd hidle (socket_ne_none hphase)
  | lost hloses =>
      rcases hloses.idle hidle with ⟨hwork, -⟩ | hmany
      · exact absurd hvacant.unsent hwork
      · have hnone := abandonedCount_eq_zero hvacant.awaiting fun slot hslot => by
          rw [hvacant.unsent] at hslot
          cases hslot
        simp [hnone] at hmany
  | shortCircuited _ hwork => exact absurd hvacant.unsent hwork
  | expired target => exact ⟨habandon target.covers, rfl⟩
  | discarded => exact ⟨habandon fun slot => slot.delivery = .buffered, rfl⟩
  | examined => exact ⟨rfl, rfl⟩
  | retired => exact absurd rfl (hstays _ List.mem_cons_self)

end Steps

/-- The link whose queued commands were refused. -/
def refused (link : Link) : Link :=
  { link with outbound := [], headWritten := 0, unsent := [] }

/-- The ends of commands that are refused, as their server is excluded. -/
def refusals (link : Link) : List Finished :=
  link.unsent.map fun slot =>
    { server := link.server.index, slot, result := .error link.deadError }

/-- Moving a barred link forward refuses its commands. -/
theorem Barred.makeProgress {ω : Type} [Network ω] {now : Nat} {timeouts : Timeouts} {link : Link}
    (hbarred : link.Barred now timeouts) (hwork : link.unsent ≠ []) (around : Around ω) :
    link.makeProgress around now timeouts = (link.refused, around.finish link.refusals) := by
  have hrefusals : link.finishLive link.deadError link.unsent = link.refusals := by
    rw [finishLive, List.filter_eq_self.mpr hbarred.live]
    rfl
  unfold Link.makeProgress
  rw [hbarred.dead]
  dsimp only
  rw [if_neg hwork, hbarred.excluded, if_neg Bool.false_ne_true, shortCircuit, hrefusals]
  rfl

end Link

/-! ## A link in a sequence of turns -/

/-- A step on every link at the place of one of them: what it makes of the link, and the
ends of commands that it adds. -/
theorem Pool.getElem?_eachLink {ω : Type} {step : Link → Around ω → Link × Around ω}
    (hends : ∀ link around, ∃ ended, (step link around).2.finished = around.finished ++ ended)
    {links : List Link} {place : Nat} {link : Link} (hlink : links[place]? = some link)
    (around : Around ω) :
    ∃ between, (eachLink step links around).1[place]? = some (step link between).1 ∧
      ∀ ended, (step link between).2.finished = between.finished ++ ended →
        ended ⊆ (eachLink step links around).2.finished := by
  have hgrows (links : List Link) (around : Around ω) :
      around.finished ⊆ (eachLink step links around).2.finished := by
    induction links generalizing around with
    | nil => exact fun _ hmem => hmem
    | cons first others ih =>
        obtain ⟨ended, hended⟩ := hends first around
        refine List.Subset.trans ?_ (ih (step first around).2)
        rw [hended]
        exact List.subset_append_left _ _
  induction links generalizing place around with
  | nil => cases hlink
  | cons first others ih =>
      cases place with
      | zero =>
          obtain rfl : first = link := Option.some.inj hlink
          refine ⟨around, rfl, fun ended hended => ?_⟩
          refine List.Subset.trans ?_ (hgrows others (step first around).2)
          rw [hended]
          exact List.subset_append_right _ _
      | succ place => exact ih hlink (step first around).2

namespace Client

variable {ω : Type} [Network ω]

/-- What happens to the link at a place while a call drives the links: nothing, or a step of
its own. -/
theorem Turn.at_place {client after : Client ω} {instant later place : Nat}
    {doer : Option Token} {incidents : Trace} {link : Link}
    (hturn : client.Turn instant doer incidents after later)
    (hsteady : Steady instant client doer after)
    (hdistinct : (client.pool.links.map (·.token)).Nodup)
    (hlink : client.pool.links[place]? = some link) :
    (after.pool.links[place]? = some link ∧ doer ≠ some link.token) ∨
      ∃ next, after.pool.links[place]? = some next ∧
        link.Step instant client.timeouts client.net incidents next after.net ∧
        ∀ incident ∈ incidents, incident.Stays := by
  have hrests (hnone : doer = none) :
      after.pool.links[place]? = some link ∧ doer ≠ some link.token := by
    rw [(hsteady.rests hnone).1, hnone]
    exact ⟨hlink, fun hsome => nomatch hsome⟩
  cases hturn with
  | looked => exact .inl (hrests rfl)
  | waited => exact .inl (hrests rfl)
  | queued => exact .inl (hrests rfl)
  | rested => exact .inl (hrests rfl)
  | installed => exact .inl (hrests rfl)
  | @acted front back before next _ net hlinks hstep hstays =>
      rw [hlinks] at hlink hdistinct
      by_cases hplace : place = front.length
      · right
        subst hplace
        rw [List.getElem?_append_right (Nat.le_refl _), Nat.sub_self] at hlink
        obtain rfl : before = link := Option.some.inj hlink
        refine ⟨next, ?_, hstep, hstays⟩
        show (front ++ next :: back)[front.length]? = some next
        rw [List.getElem?_append_right (Nat.le_refl _), Nat.sub_self]
        rfl
      · left
        have hothers : (front ++ next :: back)[place]? = some link := by
          rw [← hlink, List.getElem?_append, List.getElem?_append]
          split
          · rfl
          · rw [List.getElem?_cons, List.getElem?_cons, if_neg (by omega), if_neg (by omega)]
        refine ⟨hothers, fun hsame => hplace ?_⟩
        -- two places with one token are the same place
        have hbefore : (front ++ before :: back)[front.length]? = some before := by
          rw [List.getElem?_append_right (Nat.le_refl _), Nat.sub_self]
          rfl
        obtain ⟨hshort, hget⟩ := List.getElem?_eq_some_iff.mp hlink
        obtain ⟨hlong, hget'⟩ := List.getElem?_eq_some_iff.mp hbefore
        have htoken : before.token = link.token := Option.some.inj hsame
        refine (@List.Nodup.getElem_inj_iff _ _ hdistinct place ?_ front.length ?_).mp ?_
        · rwa [List.length_map]
        · rwa [List.length_map]
        · rw [List.getElem_map, List.getElem_map, hget, hget', htoken]

/-- While a call drives the links their tokens stay. -/
theorem Turn.tokens {client after : Client ω} {instant later : Nat} {doer : Option Token}
    {incidents : Trace} (hturn : client.Turn instant doer incidents after later)
    (hsteady : Steady instant client doer after) :
    after.pool.links.map (·.token) = client.pool.links.map (·.token) := by
  cases hturn with
  | acted hlinks hstep hstays =>
      rw [hlinks, List.map_append, List.map_append, List.map_cons, List.map_cons, hstep.token.1]
  | looked => rfl
  | waited => rfl
  | _ => rw [(hsteady.rests rfl).1]

/-- What every step of the link at a place keeps holds of it after turns, and what every such
step does to the network is done in every turn of the link. -/
theorem Turns.at_place {allows : Nat → Client ω → Option Token → Client ω → Prop}
    {holds : Link → Prop} {does : ω → ω → Prop} {client after : Client ω}
    {instant later place : Nat} {incidents : Trace} {link : Link}
    (hturns : client.Turns allows instant incidents after later)
    (hsteady : ∀ {instant before doer after}, allows instant before doer after →
      Steady instant before doer after)
    (hkeeps : ∀ {instant before doer after incidents} {link next : Link},
      allows instant before doer after →
      link.Step instant client.timeouts before.net incidents next after.net →
      (∀ incident ∈ incidents, incident.Stays) → holds link →
      holds next ∧ does before.net after.net)
    (hdistinct : (client.pool.links.map (·.token)).Nodup)
    (hlink : client.pool.links[place]? = some link) (hholds : holds link) :
    (after.timeouts = client.timeouts ∧
      after.pool.links.map (·.token) = client.pool.links.map (·.token) ∧
      ∃ next, after.pool.links[place]? = some next ∧ next.token = link.token ∧ holds next) ∧
    client.Turns (fun _ before doer after => doer = some link.token → does before.net after.net)
      instant incidents after later := by
  induction hturns with
  | refl => exact ⟨⟨rfl, rfl, link, hlink, rfl, hholds⟩, .refl⟩
  | tail _ hturn hallowed ih =>
      obtain ⟨⟨htimeouts, htokens, between, hbetween, htoken, hheld⟩, hturns⟩ := ih
      have hnext := hturn.at_place (hsteady hallowed) (htokens ▸ hdistinct) hbetween
      rw [htimeouts, htoken] at hnext
      have hkept := (hsteady hallowed).timeouts.trans htimeouts
      have hnames := (hturn.tokens (hsteady hallowed)).trans htokens
      rcases hnext with ⟨hnext, hother⟩ | ⟨next, hnext, hstep, hstays⟩
      · exact ⟨⟨hkept, hnames, between, hnext, htoken, hheld⟩,
          hturns.tail hturn fun hsame => absurd hsame hother⟩
      · obtain ⟨hheld, hdone⟩ := hkeeps hallowed hstep hstays hheld
        exact ⟨⟨hkept, hnames, next, hnext, hstep.token.1.trans htoken, hheld⟩,
          hturns.tail hturn fun _ => hdone⟩

/-- While a call drives the links the results of commands are kept. -/
theorem Turns.gathers {client after : Client ω} {instant later : Nat} {incidents : Trace}
    {endings : List Finished} (hturns : client.Turns Steady instant incidents after later)
    (hgathers : client.ledger.Gathers endings) : after.ledger.Gathers endings := by
  refine @Turns.keeps ω _ _ _ _ _ _ _ (fun _ client => client.ledger.Gathers endings) hturns
    (fun hheld hturn hsteady => ?_) hgathers
  cases hturn with
  | acted => exact (Ledger.Gathers.absorb hheld _).subset (List.subset_append_left _ _)
  | looked => exact hheld
  | waited => exact hheld
  | _ =>
      rw [(hsteady.rests rfl).2]
      exact hheld

/-! ## Runs -/

/-- **A run starts at most one connect for each link.** -/
theorem run_once {client : Client ω} (hdistinct : (client.pool.links.map (·.token)).Nodup)
    (target : Target) (deadline : Nat) {place : Nat} {link : Link}
    (hlink : client.pool.links[place]? = some link) :
    ∃ next, (client.run target deadline).2.pool.links[place]? = some next ∧
      next.token = link.token ∧ next.attempts ≤ link.attempts + 1 := by
  obtain ⟨incidents, later, hturns⟩ :=
    turns_drive target deadline (Network.pollLimit client.net) client 0
  obtain ⟨⟨-, -, next, hnext, htoken, honce⟩, -⟩ :=
    @Turns.at_place ω _ Steady (Link.Once link.attempts) (fun _ _ => True) _ _ _ _ _ _ _ hturns
      (fun hsteady => hsteady)
      (fun _ hstep hstays honce =>
        ⟨(hstep.shift hstays).once hstep.unsent_eq_nil honce, trivial⟩)
      hdistinct hlink (.inl rfl)
  refine ⟨next, hnext, htoken, ?_⟩
  rcases honce with hnone | ⟨hone, -⟩ <;> omega

/-- Pushing every link forward refuses the commands of a barred one. -/
theorem makeProgress_barred {client : Client ω} {now place : Nat} {link : Link}
    (hlink : client.pool.links[place]? = some link) (hbarred : link.Barred now client.timeouts)
    (hwork : link.unsent ≠ []) :
    (client.makeProgress now).pool.links[place]? = some link.refused ∧
      (client.makeProgress now).ledger.Gathers link.refusals := by
  obtain ⟨between, hplace, hends⟩ := @Pool.getElem?_eachLink ω
    (fun link around => link.makeProgress around now client.timeouts)
    (fun link around => by
      obtain ⟨incidents, -, hfinished, -⟩ :=
        @Link.follows_makeProgress ω _ now client.timeouts link around
      exact ⟨_, hfinished⟩) _ _ _ hlink ⟨client.net, client.log, []⟩
  rw [hbarred.makeProgress hwork] at hplace hends
  have hgathers := (Ledger.gathers_nil client.ledger).absorb
    (Pool.eachLink (fun link around => link.makeProgress around now client.timeouts)
      client.pool.links ⟨client.net, client.log, []⟩).2.finished
  exact ⟨hplace, hgathers.subset (hends _ rfl)⟩

/-- A turn in which what is done for the link with a token leaves the network as it is. -/
def Spares (token : Token) (_instant : Nat) (before : Client ω) (doer : Option Token)
    (after : Client ω) : Prop :=
  doer = some token → after.net = before.net

/-- **A run refuses the commands of a barred link**, and does nothing for it on the network. -/
theorem run_barred {client : Client ω} (hdistinct : (client.pool.links.map (·.token)).Nodup)
    (target : Target) (deadline : Nat) {place : Nat} {link : Link}
    (hlink : client.pool.links[place]? = some link)
    (hbarred : link.Barred (Network.now client.net) client.timeouts) (hwork : link.unsent ≠ [])
    (instant : Nat) :
    (client.run target deadline).2.pool.links[place]? = some link.refused ∧
      (client.run target deadline).2.ledger.Gathers link.refusals ∧
      ∃ incidents later, client.Turns (Spares link.token) instant incidents
        (client.run target deadline).2 later := by
  rw [run]
  obtain ⟨hrefused, hgathers⟩ := makeProgress_barred hlink hbarred hwork
  obtain ⟨incidents, hpushed⟩ := turns_makeProgress client (Network.now client.net)
  obtain ⟨⟨-, htokens, -⟩, hspared⟩ :=
    @Turns.at_place ω _ (Prompt (Network.now client.net))
      (Link.Barred (Network.now client.net) client.timeouts) (fun before after => after = before)
      _ _ _ _ _ _ _ hpushed Prompt.toSteady
      (fun hprompt hstep hstays hbarred => by
        rw [hprompt.instant] at hstep
        exact hstep.barred hstays hbarred)
      hdistinct hlink hbarred
  obtain ⟨more, later, hrest⟩ :=
    turns_drive_pushed target deadline (Network.pollLimit client.net) client
  -- the link is vacant now, and stays as it is
  have hvacant : link.refused.Vacant :=
    ⟨by rw [show link.refused.phase = link.phase from rfl, hbarred.dead]; rfl, rfl,
      hbarred.awaiting⟩
  obtain ⟨⟨-, -, next, hnext, -, hsame⟩, hspared'⟩ :=
    @Turns.at_place ω _ Steady (· = link.refused) (fun before after => after = before)
      _ _ _ _ _ _ _ hrest (fun hsteady => hsteady)
      (fun _ hstep hstays hsame => by
        subst hsame
        exact hstep.of_vacant hstays hvacant rfl)
      (htokens ▸ hdistinct) hrefused rfl
  refine ⟨hsame ▸ hnext, hrest.gathers hgathers, _, later,
    (Turns.single .looked fun hnone => (nomatch hnone)).append (hspared.append hspared')⟩

/-- **Retry gating.** In every history, when a turn changes how often a link that stays in the
pool was tried, then it starts one connect at its instant, and if it is not the first one,
the times after the last failure and after the last attempt are over under the timeouts in
force; what the link remembers of both are the instants when they happened.  A run starts at
most one connect for each link.  A run that finds commands queued on a link that is dead and
may not be tried refuses them: they end with the error of an excluded server, the link stays
dead and is not tried, and nothing is done for it on the network.  A run is such turns under
one set of timeouts, and every call is such turns, with no other use of the network; only the
call that sets the timeouts changes them. -/
theorem retries_gated {net : ω} {config : Config} {start client : Client ω} {instant : Nat}
    {trace : Trace} (hconfig : withConfig net config = .ok start)
    (hhistory : start.History trace instant client) :
    (∀ doer incidents after later, client.Turn instant doer incidents after later →
      ∀ link ∈ client.pool.links, ∀ next ∈ after.pool.links, next.token = link.token →
        (next.attempts ≠ link.attempts → 0 < link.attempts →
          ∃ failure attempt, link.lastFailure = some failure ∧ link.lastAttempt = some attempt ∧
            failure + client.timeouts.dead ≤ instant ∧
            attempt + client.timeouts.reconnect ≤ instant) ∧
        (next.attempts = link.attempts ∧ next.lastAttempt = link.lastAttempt ∨
          next.attempts = link.attempts + 1 ∧ next.lastAttempt = some instant) ∧
        (next.lastFailure = link.lastFailure ∨ next.lastFailure = some instant)) ∧
    (∀ target deadline (place : Nat) (link : Link), client.pool.links[place]? = some link →
      ∃ next, (client.run target deadline).2.pool.links[place]? = some next ∧
        next.token = link.token ∧ next.attempts ≤ link.attempts + 1) ∧
    (∀ target deadline (place : Nat) (link : Link), client.pool.links[place]? = some link →
      link.phase.health = .dead →
      link.isRetryEligible (Network.now client.net) client.timeouts = false → link.unsent ≠ [] →
      (client.run target deadline).2.pool.links[place]?
          = some { link with outbound := [], headWritten := 0, unsent := [] } ∧
        (client.run target deadline).2.ledger.Gathers (link.unsent.map fun slot =>
          { server := link.server.index, slot, result := .error link.deadError }) ∧
        ∃ incidents later, client.Turns (Spares link.token) instant incidents
          (client.run target deadline).2 later) ∧
    (∀ target deadline, ∃ incidents later,
      client.Turns Steady instant incidents (client.run target deadline).2 later ∧
      start.History (trace ++ incidents) later (client.run target deadline).2) ∧
    ∀ call, ∃ incidents later,
      client.Turns (Keeping call) instant incidents (client.perform call).2 later ∧
      start.History (trace ++ incidents) later (client.perform call).2 := by
  have hblank := history_withConfig hconfig hhistory
  have hdistinct := hblank.reaches.ordered.distinct
  refine ⟨?_, fun target deadline _ _ hlink => run_once hdistinct target deadline hlink, ?_, ?_,
    fun call => history_perform hhistory call⟩
  · intro doer incidents after later hturn link hlink next hnext htoken
    have hshift := hturn.shift hblank.reaches.ordered hlink hnext htoken
    refine ⟨fun hattempted hagain => ?_, hshift.remembers⟩
    exact hshift.spaced (hblank.reaches.links (Link.settled_invariant ω) link hlink)
      (hblank.tried link hlink) hagain hattempted
  · intro target deadline place link hlink hdead hexcluded hwork
    have hbarred := (hblank.sound (List.mem_of_getElem? hlink)).barred hdead hexcluded
    exact run_barred hdistinct target deadline hlink hbarred hwork instant
  · intro target deadline
    obtain ⟨incidents, later, hturns⟩ :=
      turns_drive target deadline (Network.pollLimit client.net) client instant
    exact ⟨incidents, later, hturns, hhistory.turns hturns⟩

/-- A link whose socket fails is dead; a command that is queued later, when the link may be
tried again, is refused when the timeouts are raised before it is driven. -/
theorem retries_gated_raised : ∃ (client : Client Script) (link : Link) (trace : Trace),
    (Script.mk 0 [] []).opened.History trace 0 client ∧ client.pool.links[0]? = some link ∧
      link.unsent = [{ Script.ping.slot with seq := 1, tag := 1 }] ∧
      (client.run (.command 1) 0).2.pool.links[0]?
        = some { link with outbound := [], headWritten := 0, unsent := [] } := by
  have hwrote := (history_wrote (Script.mk 0 [] [])).elapsed
    (Script.mk 0 [.failed (.other "reset")] [])
  have hlost := hwrote.only rfl (@Link.Step.lost _ _ _ _ (Script.waitingLink 0 false) _ _ _ _ _
    (@Link.Loses.unreadable _ _ _ _ _ _ 0 [] (.other "reset") (Script.mk 0 [] []) rfl (by
      rw [Link.readAll]
      rfl))) (by simp [Link.loss, Link.casualties, Link.finishLive, Incident.Stays])
  have hlater := hlost.elapsed (Script.mk 1000000 [] [])
  have hqueued := hlater.turn
    (@Turn.queued _ _ _ _ 0 1 (.noop 0) .direct _ rfl)
  have hraised := hqueued.turn (.rested
    (.adjusted { Config.default.timeouts with dead := 2000000 } false) rfl rfl)
  refine ⟨_, _, _, hraised, rfl, rfl, ?_⟩
  exact ((retries_gated (Script.withConfig_opened _) hraised).2.2.1 _ _ 0 _ rfl rfl rfl
    (List.cons_ne_nil _ _)).1

end Client

end CachePool
