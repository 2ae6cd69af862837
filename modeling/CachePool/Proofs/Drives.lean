/-
# Driving is moving

What a client does while it drives its links is a sequence of `Client.Move`s: a step on
every link, the events of a wait, giving up at a deadline, and the loop of them all.

* `Client.drives_forEach` : a function that follows steps on every link;
* `Client.drive_concludes` : a call gives nothing up before it ends its wait;
* `Client.drives_drive` : the whole loop.
-/
import CachePool.Proofs.LinkSteps
import CachePool.Proofs.Rounds

namespace CachePool

/-- Results can be kept in two goes. -/
theorem Ledger.absorb_append (ledger : Ledger) (first second : List Finished) :
    ledger.absorb (first ++ second) = (ledger.absorb first).absorb second :=
  List.foldl_append

/-! ## From one link to all links -/

namespace Pool

variable {ω : Type} {step : Link → Around ω → Link × Around ω}
  {leads : List Link × Around ω → List Link × Around ω → Prop}

/-- Where a step on any one link leads, a step on every link leads. -/
theorem eachLink_leads (hrefl : ∀ state, leads state state)
    (htrans : ∀ first second third, leads first second → leads second third → leads first third)
    (hstep : ∀ front link back around, leads (front ++ link :: back, around)
      (front ++ (step link around).1 :: back, (step link around).2))
    (front links : List Link) (around : Around ω) :
    leads (front ++ links, around)
      (front ++ (eachLink step links around).1, (eachLink step links around).2) := by
  induction links generalizing front around with
  | nil => exact hrefl _
  | cons link links ih =>
      have hothers := ih (front ++ [(step link around).1]) (step link around).2
      rw [List.append_assoc, List.append_assoc] at hothers
      exact htrans _ _ _ (hstep front link links around) hothers

/-- Where a step on any one link leads, a step on the link with a token leads. -/
theorem onToken_leads (hrefl : ∀ state, leads state state)
    (hstep : ∀ front link back around, leads (front ++ link :: back, around)
      (front ++ (step link around).1 :: back, (step link around).2))
    (token : Token) (front links : List Link) (around : Around ω) :
    leads (front ++ links, around)
      (front ++ (onToken step token links around).1, (onToken step token links around).2) := by
  induction links generalizing front with
  | nil => exact hrefl _
  | cons link links ih =>
      unfold onToken
      split
      · exact hstep front link links around
      · have hothers := ih (front ++ [link])
        rw [List.append_assoc, List.append_assoc] at hothers
        exact hothers

end Pool

namespace Client

variable {ω : Type} [Network ω] {allows : Incident → Prop}

/-! ## Steps on links -/

/-- The client while it works on its links: what it has done so far is kept. -/
def amid (client : Client ω) (pool : Pool) (around : Around ω) : Client ω :=
  { client with
    pool := pool
    net := around.net
    log := around.log
    ledger := client.ledger.absorb around.finished }

/-- The steps of one link are moves of the client. -/
theorem drives_link {client : Client ω} {pool : Pool} {now : Nat} {front back : List Link}
    {before after : Link} {around : Around ω} {incidents : Trace} {net : ω}
    (hsteps : Link.Steps now client.timeouts before around.net incidents after net)
    (hallowed : ∀ incident ∈ incidents, allows incident) :
    (client.amid { pool with links := front ++ before :: back } around).Drives allows incidents
      (client.amid { pool with links := front ++ after :: back }
        { around with net, finished := around.finished ++ incidents.endings }) := by
  induction hsteps with
  | refl =>
      rw [show around.finished ++ Trace.endings [] = around.finished from List.append_nil _]
      exact .refl
  | @tail between after middle last incidents more _ hstep ih =>
      have hmove := @Move.link ω _ (client.amid { pool with links := front ++ between :: back }
        { around with net := middle, finished := around.finished ++ incidents.endings })
        now front back between after more last rfl hstep
      refine .tail (ih fun incident hmem => hallowed incident (List.mem_append_left _ hmem)) ?_
        fun incident hmem => hallowed incident (List.mem_append_right _ hmem)
      rw [Trace.endings_append, ← List.append_assoc]
      show Move _ more { client with
        pool := { pool with links := front ++ after :: back }
        net := last
        log := around.log
        ledger := client.ledger.absorb
          ((around.finished ++ incidents.endings) ++ more.endings) }
      rw [Ledger.absorb_append]
      exact hmove

/-- What a function makes of one link by steps moves the client. -/
theorem drives_steps {client : Client ω} {pool : Pool} {now : Nat} {front back : List Link}
    {link : Link} {around : Around ω} {result : Link × Around ω} {incidents : Trace}
    (hsteps : Link.Steps now client.timeouts link around.net incidents result.1 result.2.net)
    (hfinished : result.2.finished = around.finished ++ incidents.endings)
    (hallowed : ∀ incident ∈ incidents, allows incident) :
    (client.amid { pool with links := front ++ link :: back } around).Drives allows incidents
      (client.amid { pool with links := front ++ result.1 :: back } result.2) := by
  have hnoted := @Move.noted ω _ (client.amid { pool with links := front ++ result.1 :: back }
    { around with net := result.2.net, finished := around.finished ++ incidents.endings })
    result.2.log
  have hdrives := (drives_link hsteps hallowed).tail hnoted (fun _ hmem => nomatch hmem)
  rw [List.append_nil, ← hfinished] at hdrives
  exact hdrives

/-- A function that follows steps on one link moves the client. -/
theorem drives_follows {client : Client ω} {pool : Pool} {now : Nat} {front back : List Link}
    {link : Link} {around : Around ω} {result : Link × Around ω}
    (hfollows : Link.Follows now client.timeouts allows link around result) :
    ∃ incidents, (client.amid { pool with links := front ++ link :: back } around).Drives allows
      incidents (client.amid { pool with links := front ++ result.1 :: back } result.2) := by
  obtain ⟨incidents, hsteps, hfinished, hallowed⟩ := hfollows
  exact ⟨incidents, drives_steps hsteps hfinished hallowed⟩

variable {client : Client ω} {step : Link → Around ω → Link × Around ω}

/-- A function that follows steps on every link moves the client. -/
theorem drives_eachLink {pool : Pool}
    (hstep : ∀ link around, ∃ now,
      Link.Follows now client.timeouts allows link around (step link around))
    (front links : List Link) (around : Around ω) :
    ∃ incidents, (client.amid { pool with links := front ++ links } around).Drives allows incidents
      (client.amid { pool with links := front ++ (Pool.eachLink step links around).1 }
        (Pool.eachLink step links around).2) := by
  refine @Pool.eachLink_leads ω step (fun before after => ∃ incidents,
    (client.amid { pool with links := before.1 } before.2).Drives allows incidents
      (client.amid { pool with links := after.1 } after.2)) ?_ ?_ ?_ front links around
  · exact fun _ => ⟨[], .refl⟩
  · rintro _ _ _ ⟨incidents, hfirst⟩ ⟨more, hsecond⟩
    exact ⟨incidents ++ more, hfirst.append hsecond⟩
  · intro front link back around
    obtain ⟨now, hfollows⟩ := hstep link around
    exact drives_follows hfollows

/-- A function that follows steps on the link with a token moves the client. -/
theorem drives_onToken {pool : Pool} {now : Nat}
    (hstep : ∀ link around, Link.Follows now client.timeouts allows link around (step link around))
    (token : Token) (front links : List Link) (around : Around ω) :
    ∃ incidents, (client.amid { pool with links := front ++ links } around).Drives allows incidents
      (client.amid { pool with links := front ++ (Pool.onToken step token links around).1 }
        (Pool.onToken step token links around).2) := by
  refine @Pool.onToken_leads ω step (fun before after => ∃ incidents,
    (client.amid { pool with links := before.1 } before.2).Drives allows incidents
      (client.amid { pool with links := after.1 } after.2)) ?_ ?_ token front links around
  · exact fun _ => ⟨[], .refl⟩
  · exact fun front link back around => drives_follows (hstep link around)

/-- A function on every link, as a client applies it. -/
theorem drives_forEach {pool : Pool} {around : Around ω}
    (hstep : ∀ link around, ∃ now,
      Link.Follows now client.timeouts allows link around (step link around)) :
    ∃ incidents, (client.amid pool around).Drives allows incidents
      (client.amid (pool.forEach around step).1 (pool.forEach around step).2) :=
  drives_eachLink hstep [] pool.links around

/-! ## Driving -/

/-- Pushing every link forward. -/
theorem drives_makeProgress (client : Client ω) (now : Nat) :
    ∃ incidents, client.Drives Incident.Keeps incidents (client.makeProgress now) :=
  @drives_forEach ω _ Incident.Keeps client _ client.pool ⟨client.net, client.log, []⟩
    fun _ _ => ⟨now, Link.follows_makeProgress.mono fun _ => Incident.Routine.keeps⟩

/-- Handling the events of a wait. -/
theorem drives_handleEvents (client : Client ω) (events : List Event) :
    ∃ incidents, client.Drives Incident.Keeps incidents (client.handleEvents events) := by
  have hevents (now : Nat) (pool : Pool) (around : Around ω) :
      ∃ incidents, (client.amid pool around).Drives Incident.Keeps incidents
        (client.amid (pool.handleEvents around now events).1
          (pool.handleEvents around now events).2) := by
    induction events generalizing pool around with
    | nil => exact ⟨[], .refl⟩
    | cons event events ih =>
        obtain ⟨incidents, hfirst⟩ := @drives_onToken ω _ Incident.Keeps client _ pool now
          (fun link around => (Link.follows_onReady event).mono fun _ => Incident.Routine.keeps)
          event.token [] pool.links around
        obtain ⟨more, hothers⟩ := ih _ _
        exact ⟨incidents ++ more, hfirst.append hothers⟩
  exact hevents (Network.now client.net) client.pool ⟨client.net, client.log, []⟩

/-- The client that has given up on a target, before it looks for links that carry too much
of what was given up. -/
def forsaking (client : Client ω) (target : Target) : Client ω :=
  client.after fun pool around => pool.forEach around (expireLink target)

/-- Giving up on a target. -/
theorem drives_forsaking (client : Client ω) (target : Target) :
    ∃ incidents, client.Drives (MayDrop target) incidents (client.forsaking target) :=
  @drives_forEach ω _ (MayDrop target) client (expireLink target) client.pool
    ⟨client.net, client.log, []⟩
    fun _ _ => ⟨0, (Link.follows_expireLink target).mono fun _ => And.left⟩

/-- Failing the links that carry too much. -/
theorem drives_shedding (client : Client ω) (target : Target) :
    ∃ incidents, (client.forsaking target).Drives Incident.Keeps incidents
      (client.expire target) :=
  @drives_forEach ω _ Incident.Keeps client
    (fun link around => link.shedUnresponsive around (Network.now client.net))
    (client.pool.forEach ⟨client.net, client.log, []⟩ (expireLink target)).1
    (client.pool.forEach ⟨client.net, client.log, []⟩ (expireLink target)).2
    fun _ _ => ⟨Network.now client.net,
      Link.follows_shedUnresponsive.mono fun _ => Incident.Routine.keeps⟩

/-- Giving up at a deadline. -/
theorem drives_expire (client : Client ω) (target : Target) :
    ∃ incidents, client.Drives (MayDrop target) incidents (client.expire target) := by
  obtain ⟨incidents, hfirst⟩ := client.drives_forsaking target
  obtain ⟨more, hothers⟩ := client.drives_shedding target
  exact ⟨incidents ++ more,
    hfirst.append (hothers.mono fun _ => mayDrop_of_keeps target)⟩

/-- A wait, whatever it gave. -/
theorem drives_waited {client : Client ω} {time : Nat} {outcome : PollOutcome} {net : ω}
    (hpoll : Network.poll client.net time = (outcome, net)) :
    client.Drives allows [] { client with net } :=
  .tail .refl (.waited hpoll) fun _ hmem => nomatch hmem

/-! ## How a call ends its wait -/

/-- How a call that waits for a target until a deadline ends, after the links were driven:
the target is met, or it is not and the call gives up, as it looked at the clock when the
deadline had passed, as a wait failed, or as it has waited too often. -/
inductive Concludes (client : Client ω) (target : Target) (deadline : Nat) (driven : Client ω) :
    Except ClientError Unit × Client ω → Prop
  | met (hmet : driven.hasMet target = true) :
      Concludes client target deadline driven (.ok (), driven)
  | late {incidents : Trace} {looked : Client ω}
      (hdrives : client.Drives Incident.Keeps incidents looked)
      (hlate : deadline ≤ Network.now looked.net)
      (hdriven : driven = looked.makeProgress (Network.now looked.net))
      (hunmet : driven.hasMet target = false) :
      Concludes client target deadline driven (target.onExpiry, driven.expire target)
  | failed {incidents : Trace} {looked : Client ω} {time : Nat} {error : IoError} {net : ω}
      (hdrives : client.Drives Incident.Keeps incidents looked)
      (hpoll : Network.poll looked.net time = (.failed error, net))
      (hdriven : driven = { looked with net }) (hunmet : driven.hasMet target = false) :
      Concludes client target deadline driven (.error (.io error), driven.expire target)
  | exhausted (hunmet : driven.hasMet target = false) :
      Concludes client target deadline driven (.error tooManyWaits, driven.expire target)

/-- A pause, and the events it gave. -/
theorem drives_resumed (client : Client ω) (deadline : Nat) :
    ∃ incidents, client.pushed.Drives Incident.Keeps incidents
      (client.pause deadline).resumed := by
  have hwaited := @drives_waited ω _ Incident.Keeps client.pushed _ _ _
    (Prod.eta (Network.poll client.pushed.net
      (client.pushed.waitTime (Network.now client.net) deadline))).symm
  unfold Pause.resumed
  split
  · obtain ⟨incidents, hevents⟩ := drives_handleEvents
      { (client.pause deadline).client with net := (client.pause deadline).net } _
    exact ⟨_, hwaited.append hevents⟩
  · exact ⟨[], hwaited⟩
  · exact ⟨[], hwaited⟩

/-- The rounds of a call. -/
theorem Rounds.drives {target : Target} {deadline : Nat} {client looked : Client ω}
    {pauses : List (Pause ω)} (hrounds : Rounds target deadline client pauses looked) :
    ∃ incidents, client.Drives Incident.Keeps incidents looked := by
  induction hrounds with
  | refl client => exact ⟨[], .refl⟩
  | @head client _ _ _ _ _ ih =>
      obtain ⟨incidents, hpushed⟩ := drives_makeProgress client (Network.now client.net)
      obtain ⟨more, hresumed⟩ := client.drives_resumed deadline
      obtain ⟨last, hrest⟩ := ih
      exact ⟨_, (hpushed.append hresumed).append hrest⟩

/-- **A call drives the links, giving up nothing, until it ends its wait.** -/
theorem drive_concludes (target : Target) (deadline waits : Nat) (client : Client ω) :
    ∃ incidents driven, client.Drives Incident.Keeps incidents driven ∧
      client.Concludes target deadline driven (drive target deadline waits client) := by
  obtain ⟨pauses, looked, left, last, hrounds, hhalts, -⟩ :=
    drive_rounds target deadline waits client
  obtain ⟨incidents, hdrives⟩ := hrounds.drives
  obtain ⟨more, hprogress⟩ := drives_makeProgress looked (Network.now looked.net)
  have hpushed := hdrives.append hprogress
  generalize drive target deadline waits client = result at hhalts
  cases hhalts with
  | met hmet => exact ⟨_, _, hpushed, .met hmet⟩
  | late hunmet hlate => exact ⟨_, _, hpushed, .late hdrives hlate rfl hunmet⟩
  | @failed _ error hpauses hfailed =>
      have hpoll : Network.poll looked.pushed.net
          (looked.pushed.waitTime (Network.now looked.net) deadline)
            = (.failed error, (looked.pause deadline).net) :=
        Prod.ext hfailed rfl
      rw [Pause.resumed_of_failed hfailed]
      exact ⟨_, _, hpushed.append (drives_waited hpoll), .failed hpushed hpoll rfl hpauses.unmet⟩
  | exhausted hpauses => exact ⟨_, _, hpushed, .exhausted hpauses.unmet⟩

/-- The same of a call that waits as often as the network allows. -/
theorem run_concludes (client : Client ω) (target : Target) (deadline : Nat) :
    ∃ incidents driven, client.Drives Incident.Keeps incidents driven ∧
      client.Concludes target deadline driven (client.run target deadline) :=
  drive_concludes target deadline (Network.pollLimit client.net) client

/-- Driving until a target is met is a sequence of moves. -/
theorem drives_drive (target : Target) (deadline waits : Nat) (client : Client ω) :
    ∃ incidents, client.Drives (MayDrop target) incidents
      (drive target deadline waits client).2 := by
  obtain ⟨incidents, driven, hdrives, hend⟩ := drive_concludes target deadline waits client
  have hdriven := hdrives.mono fun _ => mayDrop_of_keeps target
  obtain ⟨more, hexpire⟩ := drives_expire driven target
  generalize drive target deadline waits client = result at hend
  cases hend with
  | met => exact ⟨incidents, hdriven⟩
  | late => exact ⟨incidents ++ more, hdriven.append hexpire⟩
  | failed => exact ⟨incidents ++ more, hdriven.append hexpire⟩
  | exhausted => exact ⟨incidents ++ more, hdriven.append hexpire⟩

end Client

end CachePool
