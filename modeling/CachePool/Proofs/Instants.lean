/-
# Instants

A client looks at the clock, and then acts on its links as of the instant it saw, until it
looks again.  Histories with instants know at what time every step of a link happens, and
replace the list of servers in one go, so that every link in them is one of the pool.

* `Client.Turn` : one thing a client does, at the instant at which it last looked;
* `Client.History` : the states a client passes through, with their traces and instants;
* `Client.History.reaches` : without its instants a history is one of steps;
* `Client.turns_perform` : every call is a sequence of turns.
-/
import CachePool.Proofs.Links

namespace CachePool

namespace Client

variable {ω : Type} [Network ω]

/-! ## Turns -/

/-- One thing a client does at an instant, the link that does it if it is done by one, and
the instant afterwards. -/
inductive Turn (client : Client ω) (instant : Nat) :
    Option Token → Trace → Client ω → Nat → Prop
  | looked : Turn client instant none [] client (Network.now client.net)
  | acted {front back : List Link} {before after : Link} {incidents : Trace} {net : ω}
      (hlinks : client.pool.links = front ++ before :: back)
      (hstep : before.Step instant client.timeouts client.net incidents after net)
      (hstays : ∀ incident ∈ incidents, incident.Stays) :
      Turn client instant (some before.token) incidents
        { client with
          pool := { client.pool with links := front ++ after :: back }
          net := net
          ledger := client.ledger.absorb incidents.endings } instant
  | waited {time : Nat} {outcome : PollOutcome} {net : ω}
      (hpoll : Network.poll client.net time = (outcome, net)) :
      Turn client instant none [] { client with net } instant
  | queued {server seq : Nat} {command : Command} {delivery : Delivery} {after : Client ω}
      (hqueue : client.queue server command.request command.expect = .ok (seq, delivery, after)) :
      Turn client instant none [.issued (client.nextTicket command)] after instant
  | rested {after : Client ω} (hstep : client.Step [] after) (hpool : after.pool = client.pool)
      (hnet : after.net = client.net) : Turn client instant none [] after instant
  | installed {addresses : List ServerAddress} {incidents : Trace} {after : Client ω}
      (hinstall : client.installServers addresses = .ok after)
      (hsteps : client.Steps incidents after) : Turn client instant none incidents after instant

/-- A turn is made of steps. -/
theorem Turn.steps {client after : Client ω} {instant later : Nat} {doer : Option Token}
    {incidents : Trace} (hturn : client.Turn instant doer incidents after later) :
    client.Steps incidents after := by
  cases hturn with
  | looked => exact .refl
  | acted hlinks hstep hstays => exact .single (.move (.link hlinks hstep))
  | waited hpoll => exact .single (.move (.waited hpoll))
  | queued hqueue => exact .single (.queued hqueue)
  | rested hstep hpool hnet => exact .single hstep
  | installed hinstall hsteps => exact hsteps

/-- Turns one after the other, each of which satisfies a condition on its instant, the client
before, the link that acts, and the client after. -/
inductive Turns (allows : Nat → Client ω → Option Token → Client ω → Prop) (client : Client ω)
    (instant : Nat) : Trace → Client ω → Nat → Prop
  | refl : Turns allows client instant [] client instant
  | tail {between after : Client ω} {middle later : Nat} {doer : Option Token}
      {incidents more : Trace} (hturns : Turns allows client instant incidents between middle)
      (hturn : between.Turn middle doer more after later)
      (hallowed : allows middle between doer after) :
      Turns allows client instant (incidents ++ more) after later

/-- The states that a client passes through from its start on, each with the trace so far
and the instant at which it last looked at the clock. Between two turns the world may change
in any way. -/
inductive History (start : Client ω) : Trace → Nat → Client ω → Prop
  | start : History start [] (Network.now start.net) start
  | turn {client after : Client ω} {instant later : Nat} {doer : Option Token}
      {trace incidents : Trace} (hhistory : History start trace instant client)
      (hturn : client.Turn instant doer incidents after later) :
      History start (trace ++ incidents) later after
  | elapsed {client : Client ω} {instant : Nat} {trace : Trace} (net : ω)
      (hhistory : History start trace instant client) :
      History start trace instant { client with net }

/-- Without its instants a history is one of steps. -/
theorem History.reaches {start client : Client ω} {instant : Nat} {trace : Trace}
    (hhistory : start.History trace instant client) : start.Reaches trace client := by
  induction hhistory with
  | start => exact .start
  | turn _ hturn ih => exact ih.steps hturn.steps
  | elapsed net _ ih => exact ih.elapsed net

section Turns

variable {allows : Nat → Client ω → Option Token → Client ω → Prop}
  {client between after : Client ω}
  {instant middle later : Nat} {trace incidents more : Trace}

/-- One turn. -/
theorem Turns.single {doer : Option Token} (hturn : client.Turn instant doer incidents after later)
    (hallowed : allows instant client doer after) : client.Turns allows instant incidents after later :=
  .tail .refl hturn hallowed

/-- Turns can go on where they stopped. -/
theorem Turns.append (hfirst : client.Turns allows instant incidents between middle)
    (hsecond : between.Turns allows middle more after later) :
    client.Turns allows instant (incidents ++ more) after later := by
  induction hsecond with
  | refl =>
      rw [List.append_nil]
      exact hfirst
  | tail _ hturn hallowed ih =>
      rw [← List.append_assoc]
      exact .tail ih hturn hallowed

/-- What is done under one condition is done under a weaker one. -/
theorem Turns.mono {weaker : Nat → Client ω → Option Token → Client ω → Prop}
    (hturns : client.Turns allows instant incidents after later)
    (hweaker : ∀ {instant before doer after}, allows instant before doer after →
      weaker instant before doer after) : client.Turns weaker instant incidents after later := by
  induction hturns with
  | refl => exact .refl
  | tail _ hturn hallowed ih => exact .tail ih hturn (hweaker hallowed)

/-- What every turn keeps holds after turns. -/
theorem Turns.keeps {holds : Nat → Client ω → Prop}
    (hturns : client.Turns allows instant incidents after later)
    (hkeeps : ∀ {client after instant doer incidents later}, holds instant client →
      client.Turn instant doer incidents after later → allows instant client doer after →
      holds later after)
    (hholds : holds instant client) : holds later after := by
  induction hturns with
  | refl => exact hholds
  | tail _ hturn hallowed ih => exact hkeeps ih hturn hallowed

/-- A history goes on with turns. -/
theorem History.turns {start : Client ω} (hhistory : start.History trace instant client)
    (hturns : client.Turns allows instant incidents after later) :
    start.History (trace ++ incidents) later after := by
  induction hturns with
  | refl =>
      rw [List.append_nil]
      exact hhistory
  | tail _ hturn _ ih =>
      rw [← List.append_assoc]
      exact ih.turn hturn

end Turns

/-! ## Links at an instant -/

/-- A turn while a call drives the links: links and results change only by what a link
does, and timeouts not at all. -/
structure Steady (_instant : Nat) (before : Client ω) (doer : Option Token) (after : Client ω) :
    Prop where
  timeouts : after.timeouts = before.timeouts
  rests : doer = none → after.pool = before.pool ∧ after.ledger = before.ledger

/-- A turn at one instant while a call drives the links. -/
structure Prompt (now instant : Nat) (before : Client ω) (doer : Option Token)
    (after : Client ω) : Prop extends Steady instant before doer after where
  instant : instant = now

omit [Network ω] in
/-- A turn in which no link does anything. -/
theorem steady_rest {instant : Nat} {before after : Client ω}
    (htimeouts : after.timeouts = before.timeouts) (hpool : after.pool = before.pool)
    (hledger : after.ledger = before.ledger) : Steady instant before none after :=
  ⟨htimeouts, fun _ => ⟨hpool, hledger⟩⟩

/-- A look at the clock. -/
theorem turns_looked (client : Client ω) (instant : Nat) :
    client.Turns Steady instant [] client (Network.now client.net) :=
  .single .looked (steady_rest rfl rfl rfl)

/-- The steps of one link are turns. -/
theorem turns_link {client : Client ω} {pool : Pool} {instant : Nat} {front back : List Link}
    {before after : Link} {around : Around ω} {incidents : Trace} {net : ω}
    (hsteps : Link.Steps instant client.timeouts before around.net incidents after net)
    (hstays : ∀ incident ∈ incidents, incident.Stays) :
    (client.amid { pool with links := front ++ before :: back } around).Turns (Prompt instant) instant
      incidents
      (client.amid { pool with links := front ++ after :: back }
        { around with net, finished := around.finished ++ incidents.endings }) instant := by
  induction hsteps with
  | refl =>
      rw [show around.finished ++ Trace.endings [] = around.finished from List.append_nil _]
      exact .refl
  | @tail between after middle last incidents more _ hstep ih =>
      have hturn := @Turn.acted ω _
        (client.amid { pool with links := front ++ between :: back }
          { around with net := middle, finished := around.finished ++ incidents.endings })
        instant front back between after more last rfl hstep
        fun incident hmem => hstays incident (List.mem_append_right _ hmem)
      have hturns :=
        (ih fun incident hmem => hstays incident (List.mem_append_left _ hmem)).tail hturn
          ⟨⟨rfl, fun hnone => nomatch hnone⟩, rfl⟩
      rw [Trace.endings_append, ← List.append_assoc]
      show Turns _ _ _ (incidents ++ more) { client with
        pool := { pool with links := front ++ after :: back }
        net := last
        log := around.log
        ledger := client.ledger.absorb
          ((around.finished ++ incidents.endings) ++ more.endings) } _
      rw [Ledger.absorb_append]
      exact hturns

/-- A function that follows steps on one link is made of turns. -/
theorem turns_follows {client : Client ω} {pool : Pool} {instant : Nat} {front back : List Link}
    {allows : Incident → Prop} {link : Link} {around : Around ω} {result : Link × Around ω}
    (hstays : ∀ incident, allows incident → incident.Stays)
    (hfollows : Link.Follows instant client.timeouts allows link around result) :
    ∃ incidents, (client.amid { pool with links := front ++ link :: back } around).Turns (Prompt instant)
      instant incidents (client.amid { pool with links := front ++ result.1 :: back } result.2)
      instant := by
  obtain ⟨incidents, hsteps, hfinished, hallowed⟩ := hfollows
  have hturns := @turns_link ω _ client pool instant front back _ _ around incidents _ hsteps
    fun incident hmem => hstays incident (hallowed incident hmem)
  have hnoted := @Turn.rested ω _ (client.amid { pool with links := front ++ result.1 :: back }
    { around with net := result.2.net, finished := around.finished ++ incidents.endings })
    instant _ (.move (.noted result.2.log)) rfl rfl
  rw [← hfinished] at hturns hnoted
  exact ⟨incidents ++ [], hturns.tail hnoted ⟨steady_rest rfl rfl rfl, rfl⟩⟩

variable {client : Client ω} {step : Link → Around ω → Link × Around ω}

/-- A function on every link at one instant. -/
theorem turns_forEach {pool : Pool} {around : Around ω} {instant : Nat}
    {allows : Incident → Prop} (hstays : ∀ incident, allows incident → incident.Stays)
    (hstep : ∀ link around,
      Link.Follows instant client.timeouts allows link around (step link around)) :
    ∃ incidents, (client.amid pool around).Turns (Prompt instant) instant incidents
      (client.amid (pool.forEach around step).1 (pool.forEach around step).2) instant := by
  refine @Pool.eachLink_leads ω step (fun before after => ∃ incidents,
    (client.amid { pool with links := before.1 } before.2).Turns (Prompt instant) instant incidents
      (client.amid { pool with links := after.1 } after.2) instant) ?_ ?_ ?_ [] pool.links around
  · exact fun _ => ⟨[], .refl⟩
  · rintro _ _ _ ⟨incidents, hfirst⟩ ⟨more, hsecond⟩
    exact ⟨incidents ++ more, hfirst.append hsecond⟩
  · exact fun front link back around => turns_follows hstays (hstep link around)

/-! ## Driving -/

/-- Pushing every link forward happens at one instant. -/
theorem turns_makeProgress (client : Client ω) (now : Nat) :
    ∃ incidents, client.Turns (Prompt now) now incidents (client.makeProgress now) now :=
  @turns_forEach ω _ client _ client.pool ⟨client.net, client.log, []⟩ now Incident.Routine
    (fun _ => Incident.Routine.stays) fun _ _ => Link.follows_makeProgress

/-- Handling the events of a wait happens at the instant after the wait. -/
theorem turns_handleEvents (client : Client ω) (events : List Event) (instant : Nat) :
    ∃ incidents, client.Turns Steady instant incidents (client.handleEvents events)
      (Network.now client.net) := by
  have hevents (now : Nat) (pool : Pool) (around : Around ω) :
      ∃ incidents, (client.amid pool around).Turns (Prompt now) now incidents
        (client.amid (pool.handleEvents around now events).1
          (pool.handleEvents around now events).2) now := by
    induction events generalizing pool around with
    | nil => exact ⟨[], .refl⟩
    | cons event events ih =>
        obtain ⟨incidents, hfirst⟩ := @Pool.onToken_leads ω
          (fun link around => link.onReady around now event) (fun before after => ∃ incidents,
          (client.amid { pool with links := before.1 } before.2).Turns (Prompt now) now incidents
            (client.amid { pool with links := after.1 } after.2) now)
          (fun _ => ⟨[], .refl⟩)
          (fun front link back around => turns_follows (fun _ => Incident.Routine.stays)
            (Link.follows_onReady event)) event.token [] pool.links around
        obtain ⟨more, hothers⟩ := ih _ _
        exact ⟨incidents ++ more, hfirst.append hothers⟩
  obtain ⟨incidents, hturns⟩ :=
    hevents (Network.now client.net) client.pool ⟨client.net, client.log, []⟩
  exact ⟨[] ++ incidents, (turns_looked _ _).append (hturns.mono Prompt.toSteady)⟩

/-- Giving up at a deadline happens at the instant of a look at the clock. -/
theorem turns_expire (client : Client ω) (target : Target) (instant : Nat) :
    ∃ incidents, client.Turns Steady instant incidents (client.expire target)
      (Network.now client.net) := by
  obtain ⟨incidents, hfirst⟩ := @turns_forEach ω _ client (expireLink target) client.pool
    ⟨client.net, client.log, []⟩ (Network.now client.net) _ (fun _ => And.right)
    fun _ _ => Link.follows_expireLink target
  obtain ⟨more, hothers⟩ := @turns_forEach ω _ client
    (fun link around => link.shedUnresponsive around (Network.now client.net))
    (client.pool.forEach ⟨client.net, client.log, []⟩ (expireLink target)).1
    (client.pool.forEach ⟨client.net, client.log, []⟩ (expireLink target)).2
    (Network.now client.net) Incident.Routine (fun _ => Incident.Routine.stays)
    fun _ _ => Link.follows_shedUnresponsive
  exact ⟨[] ++ (incidents ++ more),
    (turns_looked _ _).append ((hfirst.append hothers).mono Prompt.toSteady)⟩

/-- A wait, whatever it gave. -/
theorem turns_waited {client : Client ω} {time instant : Nat} {outcome : PollOutcome} {net : ω}
    (hpoll : Network.poll client.net time = (outcome, net)) :
    client.Turns Steady instant [] { client with net } instant :=
  .single (.waited hpoll) (steady_rest rfl rfl rfl)

/-- A pause, and the events it gave. -/
theorem turns_resumed (client : Client ω) (deadline instant : Nat) :
    ∃ incidents later, client.pushed.Turns Steady instant incidents
      (client.pause deadline).resumed later := by
  have hwaited := @turns_waited ω _ client.pushed _ instant _ _
    (Prod.eta (Network.poll client.pushed.net
      (client.pushed.waitTime (Network.now client.net) deadline))).symm
  unfold Pause.resumed
  split
  · obtain ⟨incidents, hevents⟩ := turns_handleEvents
      { (client.pause deadline).client with net := (client.pause deadline).net } _ instant
    exact ⟨_, _, hwaited.append hevents⟩
  · exact ⟨[], instant, hwaited⟩
  · exact ⟨[], instant, hwaited⟩

/-- A client looks at the clock and pushes every link forward. -/
theorem turns_pushed (client : Client ω) (instant : Nat) :
    ∃ incidents, client.Turns Steady instant incidents client.pushed (Network.now client.net) := by
  obtain ⟨incidents, hprogress⟩ := turns_makeProgress client (Network.now client.net)
  exact ⟨_, (turns_looked client instant).append (hprogress.mono Prompt.toSteady)⟩

/-- The rounds of a call, after it has pushed every link forward for the first time. -/
theorem Rounds.turns {target : Target} {deadline : Nat} {client looked : Client ω}
    {pauses : List (Pause ω)} (hrounds : Rounds target deadline client pauses looked) :
    ∃ incidents, client.pushed.Turns Steady (Network.now client.net) incidents looked.pushed
      (Network.now looked.net) := by
  induction hrounds with
  | refl client => exact ⟨[], .refl⟩
  | @head client _ _ _ _ _ ih =>
      obtain ⟨incidents, later, hresumed⟩ :=
        client.turns_resumed deadline (Network.now client.net)
      obtain ⟨more, hagain⟩ := turns_pushed (client.pause deadline).resumed later
      obtain ⟨last, hrest⟩ := ih
      exact ⟨_, (hresumed.append hagain).append hrest⟩

/-- How a call halts, after it has pushed every link forward. -/
theorem Halts.turns {target : Target} {deadline left : Nat} {looked : Client ω}
    {pauses : List (Pause ω)} {result : Except ClientError Unit × Client ω}
    (hhalts : looked.Halts target deadline left pauses result) (instant : Nat) :
    ∃ incidents later, looked.pushed.Turns Steady instant incidents result.2 later := by
  cases hhalts with
  | met hmet => exact ⟨[], instant, .refl⟩
  | late hunmet hlate =>
      obtain ⟨incidents, hexpire⟩ := turns_expire looked.pushed target instant
      exact ⟨incidents, _, hexpire⟩
  | failed hpauses hfailed =>
      obtain ⟨incidents, later, hresumed⟩ := looked.turns_resumed deadline instant
      obtain ⟨more, hexpire⟩ := turns_expire (looked.pause deadline).resumed target later
      exact ⟨_, _, hresumed.append hexpire⟩
  | exhausted hpauses =>
      obtain ⟨incidents, hexpire⟩ := turns_expire looked.pushed target instant
      exact ⟨incidents, _, hexpire⟩

/-- What a call does after it has pushed every link forward for the first time. -/
theorem turns_drive_pushed (target : Target) (deadline waits : Nat) (client : Client ω) :
    ∃ incidents later, client.pushed.Turns Steady (Network.now client.net) incidents
      (drive target deadline waits client).2 later := by
  obtain ⟨pauses, looked, left, last, hrounds, hhalts, -⟩ :=
    drive_rounds target deadline waits client
  obtain ⟨incidents, hturns⟩ := hrounds.turns
  obtain ⟨more, later, hend⟩ := hhalts.turns (Network.now looked.net)
  exact ⟨_, later, hturns.append hend⟩

/-- Driving until a target is met. -/
theorem turns_drive (target : Target) (deadline waits : Nat) (client : Client ω) (instant : Nat) :
    ∃ incidents later, client.Turns Steady instant incidents
      (drive target deadline waits client).2 later := by
  obtain ⟨incidents, hpushed⟩ := turns_pushed client instant
  obtain ⟨more, later, hrest⟩ := turns_drive_pushed target deadline waits client
  exact ⟨_, later, hpushed.append hrest⟩

/-! ## Calls -/

/-- A turn of a call: it leaves the timeouts as they are, unless the call sets them. -/
def Keeping (call : Call) (_instant : Nat) (before : Client ω) (_doer : Option Token)
    (after : Client ω) : Prop :=
  after.timeouts = before.timeouts ∨ call = .setTimeouts after.timeouts

omit [Network ω] in
/-- A turn while the links are driven is one of any call. -/
theorem Steady.keeping (call : Call) {instant : Nat} {before after : Client ω}
    {doer : Option Token} (hsteady : Steady instant before doer after) :
    Keeping call instant before doer after :=
  .inl hsteady.timeouts

/-- A data operation. -/
theorem turns_issue (client : Client ω) (command : Command) (timeout : Option Nat)
    (instant : Nat) :
    ∃ incidents later, client.Turns (Keeping (.issue command timeout)) instant incidents
      (client.issue command timeout).2 later := by
  rcases issue_cases client command timeout with
    ⟨error, -, hrefused⟩ | ⟨server, seq, delivery, queued, hqueue, hend⟩
  · rw [hrefused]
    exact ⟨[], instant, .refl⟩
  have hsame : queued.timeouts = client.timeouts := by
    obtain ⟨_, _, _, -, -, -, -, rfl⟩ := queue_cases hqueue
    rfl
  have hqueued : client.Turns (Keeping (.issue command timeout)) instant _ queued instant :=
    .single (.queued hqueue) (.inl hsame)
  rcases hend with ⟨-, hissue⟩ | ⟨-, hissue⟩
  · rw [hissue]
    exact ⟨_, _, hqueued⟩
  · rw [hissue]
    obtain ⟨incidents, later, hdrives⟩ := turns_drive (.command seq) (client.deadlineOf timeout)
      (Network.pollLimit queued.net) queued instant
    have hdriven := hqueued.append (hdrives.mono (Steady.keeping _))
    rcases hrun : queued.run (.command seq) (client.deadlineOf timeout) with
      ⟨error | ⟨⟨⟩⟩, driven⟩
    · rw [await_of_failed hrun]
      unfold run at hrun
      rw [hrun] at hdriven
      exact ⟨_, later, hdriven⟩
    · rw [snd_await_of_met hrun]
      unfold run at hrun
      rw [hrun] at hdriven
      exact ⟨_, later, hdriven.tail (.rested (.collected seq) rfl rfl) (.inl rfl)⟩

/-- A flush. -/
theorem turns_flush (client : Client ω) (timeout : Option Nat) (instant : Nat) :
    ∃ incidents later, client.Turns (Keeping (.flush timeout)) instant incidents
      (client.flush timeout).2 later := by
  obtain ⟨incidents, later, hdrives⟩ := turns_drive .allBuffered (client.deadlineOf timeout)
    (Network.pollLimit client.net) client instant
  unfold flush run
  rcases hrun : drive .allBuffered (client.deadlineOf timeout) (Network.pollLimit client.net)
    client with ⟨error | ⟨⟨⟩⟩, driven⟩
  all_goals rw [hrun] at hdrives
  · exact ⟨_, later, hdrives.mono (Steady.keeping _)⟩
  · exact ⟨_, later,
      (hdrives.mono (Steady.keeping _)).tail (.rested .emptied rfl rfl) (.inl rfl)⟩

/-- Giving up on the buffered commands of every link. -/
theorem turns_dropBuffered (client : Client ω) (pool : Pool) (front links : List Link)
    (instant : Nat) :
    ∃ incidents, Turns (Keeping .resetBuffers)
      { client with pool := { pool with links := front ++ links } } instant incidents
      { client with pool := { pool with links := front ++ (dropBuffered links).1 } } instant := by
  induction links generalizing front with
  | nil => exact ⟨[], .refl⟩
  | cons link links ih =>
      obtain ⟨incidents, hothers⟩ :=
        ih (front ++ [(link.abandon fun slot => slot.delivery = .buffered).1])
      rw [List.append_assoc, List.singleton_append, List.append_assoc] at hothers
      have hfirst := @Turn.acted ω _
        { client with pool := { pool with links := front ++ link :: links } }
        instant front links link _ _ client.net rfl .discarded (by
          intro incident hmem
          obtain ⟨slot, -, rfl⟩ := List.mem_map.mp hmem
          trivial)
      rw [Link.endings_map_dropped] at hfirst
      exact ⟨_, (Turns.single hfirst (.inl rfl)).append hothers⟩

/-- Dropping the buffered commands. -/
theorem turns_resetBuffers (client : Client ω) (instant : Nat) :
    ∃ incidents, client.Turns (Keeping .resetBuffers) instant incidents client.resetBuffers
      instant := by
  obtain ⟨incidents, hdropped⟩ :=
    turns_dropBuffered client client.pool [] client.pool.links instant
  exact ⟨_, (hdropped.tail (.rested .emptied rfl rfl) (.inl rfl)).tail
    (.rested (.move (.noted client.resetBuffers.log)) rfl rfl) (.inl rfl)⟩

/-- **Every call is a sequence of turns**, and only the one that sets the timeouts changes
them. -/
theorem turns_perform (client : Client ω) (call : Call) (instant : Nat) :
    ∃ incidents later, client.Turns (Keeping call) instant incidents
      (client.perform call).2 later := by
  cases call with
  | issue command timeout =>
      rw [(perform_issue client command timeout).1]
      exact turns_issue client command timeout instant
  | flush timeout =>
      have hflush := turns_flush client timeout instant
      show ∃ incidents later, client.Turns (Keeping _) instant incidents
        (outcomeOfFlush (client.flush timeout)).2 later
      generalize client.flush timeout = result at hflush ⊢
      rcases result with ⟨error | completions, after⟩
      all_goals exact hflush
  | resetBuffers =>
      obtain ⟨incidents, hreset⟩ := turns_resetBuffers client instant
      exact ⟨incidents, instant, hreset⟩
  | setBuffering buffering =>
      exact ⟨_, instant, .single (.rested (.adjusted client.timeouts buffering) rfl rfl) (.inl rfl)⟩
  | setServers servers =>
      show ∃ incidents later, client.Turns (Keeping _) instant incidents
        (outcomeOfUnit (client.setServers servers)).2 later
      unfold setServers
      split
      · exact ⟨_, instant, .refl⟩
      split
      · exact ⟨_, instant, .refl⟩
      · rename_i addresses hparse _ after hinstall
        obtain ⟨incidents, driven, hdrives, hplaced, -⟩ := installServers_drives hinstall
        exact ⟨_, instant, .single
          (.installed hinstall (hdrives.steps.append (.single hplaced)))
          (.inl (timeouts_installServers hinstall))⟩
  | setTimeouts timeouts =>
      show ∃ incidents later, client.Turns (Keeping _) instant incidents
        (outcomeOfUnit (client.setTimeouts timeouts)).2 later
      unfold setTimeouts
      split
      · exact ⟨_, instant, .refl⟩
      · exact ⟨_, instant,
          .single (.rested (.adjusted timeouts client.ledger.buffering) rfl rfl) (.inr rfl)⟩
  | setSink sink =>
      exact ⟨_, instant, .single (.rested (.move (.noted (.empty sink))) rfl rfl) (.inl rfl)⟩

/-- A history goes on with the turns of a call. -/
theorem history_perform {start client : Client ω} {instant : Nat} {trace : Trace}
    (hhistory : start.History trace instant client) (call : Call) :
    ∃ incidents later, client.Turns (Keeping call) instant incidents (client.perform call).2 later ∧
      start.History (trace ++ incidents) later (client.perform call).2 := by
  obtain ⟨incidents, later, hturns⟩ := turns_perform client call instant
  exact ⟨incidents, later, hturns, hhistory.turns hturns⟩

end Client

end CachePool
