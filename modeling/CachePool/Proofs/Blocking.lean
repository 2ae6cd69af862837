/-
# Bounded blocking

No call outlives its timeout on a punctual network, whatever the servers do.  A call pauses
only before its deadline, and only for as long as is left of it; every pause that does not end
early uses up time, so that there are no more pauses than milliseconds and early ends.

* `Link.inTime_makeProgress` : a link that was pushed forward does not connect for too long;
* `Client.Rounds.bounded` : the rounds of a call end by its deadline;
* `Client.blocking_bounded` : so do calls.
-/
import CachePool.Proofs.Clocks
import CachePool.Proofs.Sessions

namespace CachePool

/-- How long a call may take. -/
def Call.allowance (timeouts : Timeouts) : Call → Nat
  | .issue _ timeout | .flush timeout => timeout.getD timeouts.io
  | _ => 0

/-- Timeouts that are allowed leave time to connect. -/
theorem Timeouts.connect_pos {timeouts : Timeouts} (hvalid : timeouts.validate = .ok ()) :
    0 < timeouts.connect := by
  unfold validate at hvalid
  split at hvalid
  · cases hvalid
  · rename_i hconnect
    exact Nat.pos_of_ne_zero hconnect

/-! ## Links that connect -/

namespace Link

variable {ω : Type} [Network ω] {link : Link} {around : Around ω} {now : Nat}

/-- A link that connects has a deadline in the future. -/
def InTime (now : Nat) (link : Link) : Prop :=
  ∀ deadline, link.phase.deadline? = some deadline → now < deadline

/-- Writing leaves a link in its phase. -/
theorem phase_writePending (socket : Socket) (link : Link) (net : ω) :
    (link.writePending socket net).1.phase = link.phase := by
  fun_induction writePending socket link net with
  | case3 link net hempty count net' hoffer hcount ih => rw [ih]; rfl
  | _ => rfl

/-- A link without a deadline is in time. -/
theorem inTime_of_none (hnone : link.phase.deadline? = none) : link.InTime now := by
  intro deadline hsome
  rw [hnone] at hsome
  cases hsome

/-- Writing what is queued starts no connect. -/
theorem InTime.writeQueued (htime : link.InTime now) :
    (link.writeQueued around now).1.InTime now := by
  unfold Link.writeQueued
  split
  · rename_i socket hphase
    have hsame := phase_writePending socket link around.net
    rcases hwrite : link.writePending socket around.net with ⟨last, net, error⟩
    rw [hwrite] at hsame
    cases error with
    | none =>
        apply inTime_of_none
        rw [hsame, hphase]
        rfl
    | some error => exact inTime_of_none rfl
  · exact htime

/-- A connect that goes on after it was checked has time left. -/
theorem inTime_pollConnect {socket : Socket} {deadline : Nat}
    (hphase : link.phase = .connecting socket deadline) :
    (link.pollConnect around now socket deadline).1.InTime now := by
  unfold pollConnect
  split
  · exact inTime_of_none rfl
  · dsimp only
    split
    · exact inTime_of_none rfl
    · split
      · exact inTime_of_none rfl
      · rename_i hearly
        intro other hother
        rw [hphase] at hother
        cases hother
        exact Nat.not_le.mp hearly
    · exact inTime_of_none rfl

/-- A connect that was just started has time left. -/
theorem inTime_startConnect {timeouts : Timeouts} (hconnect : 0 < timeouts.connect) :
    (link.startConnect around now timeouts).1.InTime now := by
  unfold startConnect
  dsimp only
  split
  · exact inTime_of_none rfl
  · split
    · exact inTime_of_none rfl
    · intro deadline hdeadline
      cases hdeadline
      omega

/-- **A link that was pushed forward does not connect for too long.** -/
theorem inTime_makeProgress {timeouts : Timeouts} (hconnect : 0 < timeouts.connect) :
    (link.makeProgress around now timeouts).1.InTime now := by
  -- a link without a socket starts a connect, fails what is queued or does nothing
  have hidle (hnone : link.phase.deadline? = none) :
      (if link.unsent = [] then (link, around)
        else if link.isRetryEligible now timeouts then link.startConnect around now timeouts
        else link.shortCircuit around).1.InTime now := by
    split
    · exact inTime_of_none hnone
    split
    · exact inTime_startConnect hconnect
    · exact inTime_of_none hnone
  unfold makeProgress
  split
  · rename_i hphase
    exact hidle (by rw [hphase]; rfl)
  · rename_i hphase
    exact hidle (by rw [hphase]; rfl)
  · rename_i socket deadline hphase
    exact (inTime_pollConnect hphase).writeQueued
  · rename_i socket hphase
    exact (inTime_of_none (by rw [hphase]; rfl)).writeQueued

end Link

variable {ω : Type} [Network ω]

/-! ## Pauses -/

/-- A pause ended before its time was over. -/
def Pause.isEarly (pause : Pause ω) : Bool :=
  Network.now pause.net < Network.now pause.client.net + pause.time

/-- A pause that a call with a deadline may make: it begins before the deadline, after every
link was pushed forward, and with time left for every connect; and it ends early only when
there is something to do. -/
structure Pause.Held (deadline : Nat) (pause : Pause ω) : Prop where
  before : Network.now pause.client.net < deadline
  pushed : ∃ looked : Client ω, pause.client = looked.pushed
  connects : ∀ link ∈ pause.client.pool.links, link.InTime (Network.now pause.client.net)
  told : pause.isEarly = true → pause.outcome ≠ .ready []

namespace Client

variable {client : Client ω} {target : Target} {deadline : Nat}

/-- A pause of a call keeps the conditions. -/
theorem held_pause (hpunctual : Network.Punctual ω) (hconnect : 0 < client.timeouts.connect)
    (hearly : Network.now client.net < deadline) : (client.pause deadline).Held deadline where
  before := by
    show Network.now client.pushed.net < deadline
    rw [now_pushed hpunctual]
    exact hearly
  pushed := ⟨client, rfl⟩
  connects := by
    show ∀ link ∈ client.pushed.pool.links, link.InTime (Network.now client.pushed.net)
    rw [now_pushed hpunctual]
    exact @Pool.forall_eachLink ω
      (fun link around => link.makeProgress around (Network.now client.net) client.timeouts)
      (fun _ => True) (Link.InTime (Network.now client.net))
      (fun _ _ _ => Link.inTime_makeProgress hconnect) client.pool.links (fun _ _ => trivial)
      ⟨client.net, client.log, []⟩
  told hend := by
    apply hpunctual.early
    exact of_decide_eq_true hend

/-- A pause ends by the deadline, and takes a millisecond unless it ends early. -/
theorem now_pause (hpunctual : Network.Punctual ω) (hearly : Network.now client.net < deadline) :
    Network.now (client.pause deadline).net ≤ deadline ∧
      Network.now client.net ≤ Network.now (client.pause deadline).net ∧
      Network.now client.net + 1
        ≤ Network.now (client.pause deadline).net + (client.pause deadline).isEarly.toNat := by
  obtain ⟨hpositive, hends, -⟩ := client.pushed.waitTime_le hearly
  have hnow := now_pushed hpunctual client
  have hforward := hpunctual.forward client.pushed.net
    (client.pushed.waitTime (Network.now client.net) deadline)
  have hbounded := hpunctual.bounded client.pushed.net
    (client.pushed.waitTime (Network.now client.net) deadline)
  have hend : (client.pause deadline).isEarly
      = decide (Network.now (client.pause deadline).net
        < Network.now client.pushed.net
          + client.pushed.waitTime (Network.now client.net) deadline) := rfl
  rw [hend, hnow]
  rw [hnow] at hforward hbounded
  change _ ≤ Network.now (client.pause deadline).net at hforward
  change Network.now (client.pause deadline).net ≤ _ at hbounded
  refine ⟨by omega, hforward, ?_⟩
  by_cases htime : Network.now (client.pause deadline).net
    < Network.now client.net + client.pushed.waitTime (Network.now client.net) deadline
  · rw [decide_eq_true htime, Bool.toNat_true]
    omega
  · rw [decide_eq_false htime, Bool.toNat_false]
    omega

/-- What the pauses of a call keep, and how long they take all together. -/
structure Bounded (deadline start finish : Nat) (pauses : List (Pause ω)) : Prop where
  held : ∀ pause ∈ pauses, pause.Held deadline
  forward : start ≤ finish
  ends : finish ≤ max start deadline
  elapses : start + pauses.length ≤ finish + pauses.countP Pause.isEarly

/-- No pause takes no time. -/
theorem bounded_nil (deadline start : Nat) : Bounded deadline start start ([] : List (Pause ω)) where
  held _ hmem := nomatch hmem
  forward := Nat.le_refl _
  ends := Nat.le_max_left _ _
  elapses := Nat.le_refl _

/-- One pause. -/
theorem bounded_pause (hpunctual : Network.Punctual ω) (hconnect : 0 < client.timeouts.connect)
    (hearly : Network.now client.net < deadline) :
    Bounded deadline (Network.now client.net) (Network.now (client.pause deadline).net)
      [client.pause deadline] where
  held := List.forall_mem_singleton.mpr (held_pause hpunctual hconnect hearly)
  forward := (now_pause hpunctual hearly).2.1
  ends := Nat.le_trans (now_pause hpunctual hearly).1 (Nat.le_max_right _ _)
  elapses := by
    rw [List.length_singleton, List.countP_singleton]
    have htook := (now_pause hpunctual hearly).2.2
    cases hend : (client.pause deadline).isEarly <;> simpa [hend] using htook

/-- Pauses before others. -/
theorem Bounded.append {start middle finish : Nat} {pauses more : List (Pause ω)}
    (hfirst : Bounded deadline start middle pauses)
    (hsecond : Bounded deadline middle finish more) :
    Bounded deadline start finish (pauses ++ more) where
  held := List.forall_mem_append.mpr ⟨hfirst.held, hsecond.held⟩
  forward := Nat.le_trans hfirst.forward hsecond.forward
  ends := by
    have hmiddle := hfirst.ends
    have hfinish := hsecond.ends
    omega
  elapses := by
    have hmiddle := hfirst.elapses
    have hfinish := hsecond.elapses
    rw [List.length_append, List.countP_append]
    omega

/-! ## Driving -/

/-- A pause leaves the timeouts as they are. -/
theorem timeouts_resumed (client : Client ω) (deadline : Nat) :
    (client.pause deadline).resumed.timeouts = client.timeouts := by
  unfold Pause.resumed
  split <;> rfl

/-- So do the rounds of a call. -/
theorem Rounds.timeouts {looked : Client ω} {pauses : List (Pause ω)}
    (hrounds : Rounds target deadline client pauses looked) :
    looked.timeouts = client.timeouts := by
  induction hrounds with
  | refl client => rfl
  | head hpauses hwaited hrest ih => exact ih.trans (timeouts_resumed _ _)

/-- **Driving leaves the timeouts as they are.** -/
theorem timeouts_drive (target : Target) (deadline waits : Nat) (client : Client ω) :
    (drive target deadline waits client).2.timeouts = client.timeouts := by
  obtain ⟨pauses, looked, left, last, hrounds, hhalts, -⟩ :=
    drive_rounds target deadline waits client
  rw [← hrounds.timeouts]
  generalize drive target deadline waits client = result at hhalts
  cases hhalts with
  | failed => exact timeouts_resumed looked deadline
  | _ => rfl

/-- **The rounds of a call end by its deadline**, if it begins before. -/
theorem Rounds.bounded {looked : Client ω} {pauses : List (Pause ω)}
    (hpunctual : Network.Punctual ω) (hconnect : 0 < client.timeouts.connect)
    (hrounds : Rounds target deadline client pauses looked) :
    Bounded deadline (Network.now client.net) (Network.now looked.net) pauses := by
  induction hrounds with
  | refl client => exact bounded_nil deadline _
  | head hpauses hwaited hrest ih =>
      -- the other rounds begin when the first pause ends
      have hbounded := ih (by rw [timeouts_resumed]; exact hconnect)
      rw [now_resumed hpunctual] at hbounded
      exact (bounded_pause hpunctual hconnect hpauses.early).append hbounded

/-- The last round of a call takes no time but for a pause that fails. -/
theorem Halts.bounded {left : Nat} {pauses : List (Pause ω)}
    {result : Except ClientError Unit × Client ω} (hpunctual : Network.Punctual ω)
    (hconnect : 0 < client.timeouts.connect)
    (hhalts : client.Halts target deadline left pauses result) :
    Bounded deadline (Network.now client.net) (Network.now result.2.net) pauses := by
  cases hhalts with
  | met hmet =>
      rw [now_pushed hpunctual]
      exact bounded_nil deadline _
  | late hunmet hlate =>
      rw [now_expire hpunctual, now_pushed hpunctual]
      exact bounded_nil deadline _
  | failed hpauses hfailed =>
      rw [now_expire hpunctual, now_resumed hpunctual]
      exact bounded_pause hpunctual hconnect hpauses.early
  | exhausted hpauses =>
      rw [now_expire hpunctual, now_pushed hpunctual]
      exact bounded_nil deadline _

/-- **Driving ends by the deadline**, if it begins before. -/
theorem Runs.bounded {waits : Nat} {pauses : List (Pause ω)}
    {result : Except ClientError Unit × Client ω} (hpunctual : Network.Punctual ω)
    (hconnect : 0 < client.timeouts.connect)
    (hruns : client.Runs target deadline waits pauses result) :
    Bounded deadline (Network.now client.net) (Network.now result.2.net) pauses := by
  obtain ⟨before, looked, left, last, hrounds, hhalts, rfl, -⟩ := hruns
  exact (hrounds.bounded hpunctual hconnect).append
    (hhalts.bounded hpunctual (hrounds.timeouts ▸ hconnect))

/-! ## Calls -/

/-- A call leaves timeouts that are allowed. -/
theorem Performs.timeouts {after : Client ω} {call : Call}
    (hvalid : client.timeouts.validate = .ok ()) (hperforms : client.Performs call after) :
    after.timeouts.validate = .ok () := by
  cases hperforms with
  | refused | reset | switched | sunk => exact hvalid
  | timed hother => exact hother
  | queued hqueue =>
      obtain ⟨_, _, _, -, -, -, -, rfl⟩ := queue_cases hqueue
      exact hvalid
  | @awaited _ timeout _ seq queued hqueue =>
      obtain ⟨ledger, hawait⟩ := queued.await_run seq (client.deadlineOf timeout)
      obtain ⟨_, _, _, -, -, -, -, rfl⟩ := queue_cases hqueue
      rw [hawait]
      exact (congrArg Timeouts.validate (timeouts_drive _ _ _ _)).trans hvalid
  | flushed timeout =>
      obtain ⟨ledger, hflush⟩ := client.flush_run timeout
      rw [hflush]
      exact (congrArg Timeouts.validate (timeouts_drive _ _ _ _)).trans hvalid
  | installed hinstall =>
      rw [timeouts_installServers hinstall]
      exact hvalid

/-- The timeouts of a client are allowed throughout a session. -/
theorem Session.timeouts {net : ω} {config : Config} {start : Client ω} {books : Books}
    (hconfig : withConfig net config = .ok start) (hsession : start.Session books client) :
    client.timeouts.validate = .ok () := by
  refine @Session.keeps ω _ start client books (fun client => client.timeouts.validate = .ok ())
    hsession ?_ (fun _ _ hvalid => hvalid)
    fun _ _ _ hvalid hperforms => Performs.timeouts hvalid hperforms
  obtain ⟨hvalid, addresses, -, hinstall⟩ := withConfig_installs hconfig
  rw [timeouts_installServers hinstall]
  exact hvalid

/-- **A call ends within its allowance.** -/
theorem Performs.bounded {after : Client ω} {call : Call} (hpunctual : Network.Punctual ω)
    (hvalid : client.timeouts.validate = .ok ()) (hperforms : client.Performs call after) :
    Network.now after.net ≤ Network.now client.net + call.allowance client.timeouts := by
  have hconnect := Timeouts.connect_pos hvalid
  -- a call that drives the links until a deadline that its allowance leaves
  have hrun {busy : Client ω} {target : Target} {timeout : Option Nat}
      (hnow : Network.now busy.net = Network.now client.net)
      (htimeouts : busy.timeouts = client.timeouts) :
      Network.now (busy.run target (client.deadlineOf timeout)).2.net
        ≤ Network.now client.net + timeout.getD client.timeouts.io := by
    obtain ⟨pauses, hruns⟩ :=
      runs_drive target (client.deadlineOf timeout) (Network.pollLimit busy.net) busy
    have hends := (hruns.bounded hpunctual (htimeouts ▸ hconnect)).ends
    rw [hnow] at hends
    exact Nat.le_trans hends (Nat.max_le.mpr ⟨Nat.le_add_right _ _, Nat.le_refl _⟩)
  cases hperforms with
  | refused | reset | switched | timed | sunk => exact Nat.le_add_right _ _
  | queued hqueue =>
      obtain ⟨_, _, _, -, -, -, -, rfl⟩ := queue_cases hqueue
      exact Nat.le_add_right _ _
  | @awaited _ timeout _ seq queued hqueue =>
      obtain ⟨ledger, hawait⟩ := queued.await_run seq (client.deadlineOf timeout)
      obtain ⟨_, _, _, -, -, -, -, rfl⟩ := queue_cases hqueue
      rw [hawait]
      exact hrun rfl rfl
  | flushed timeout =>
      obtain ⟨ledger, hflush⟩ := client.flush_run timeout
      rw [hflush]
      exact hrun rfl rfl
  | installed hinstall =>
      rw [now_installServers hpunctual hinstall]
      exact Nat.le_add_right _ _

/-- **Bounded blocking.** On a punctual network, with the timeouts of any session and whatever
state the links and the ledger are in, driving ends by its deadline, or at once if the deadline
has passed. Each of its pauses begins before the deadline, when every link was pushed forward
and no connect is overdue; and there are at most as many pauses as milliseconds until the
deadline, beside those that end early because there is something to do, so that a call with a
wait left does not need it. No call takes longer than its timeout, and a call without one takes
no time. -/
theorem blocking_bounded {net : ω} {config : Config} {start : Client ω} {books : Books}
    (hpunctual : Network.Punctual ω) (hconfig : withConfig net config = .ok start)
    (hsession : start.Session books client) :
    (∀ busy : Client ω, busy.timeouts = client.timeouts → ∀ target deadline waits,
      ∃ pauses, busy.Runs target deadline waits pauses (drive target deadline waits busy) ∧
        Network.now (drive target deadline waits busy).2.net
          ≤ max (Network.now busy.net) deadline ∧
        (∀ pause ∈ pauses, pause.Held deadline) ∧
        pauses.length ≤ (deadline - Network.now busy.net) + pauses.countP Pause.isEarly ∧
        (pauses.length < waits → ∀ more, waits ≤ more →
          drive target deadline more busy = drive target deadline waits busy)) ∧
    ∀ (net : ω) (call : Call),
      Network.now (({ client with net }).perform call).2.net
        ≤ Network.now net + call.allowance client.timeouts := by
  have hvalid := Session.timeouts hconfig hsession
  constructor
  · intro busy htimeouts target deadline waits
    obtain ⟨pauses, hruns⟩ := runs_drive target deadline waits busy
    have hbounded := hruns.bounded hpunctual (htimeouts ▸ Timeouts.connect_pos hvalid)
    have hends := hbounded.ends
    have helapses := hbounded.elapses
    exact ⟨pauses, hruns, hends, hbounded.held, by omega, fun hleft more => hruns.drive_eq hleft⟩
  · intro net call
    exact @Performs.bounded ω _ { client with net } _ call hpunctual hvalid (performs _ call)

/-- A round trip to a server at which nobody listens ends within the default timeout. -/
theorem blocking_bounded_simulated : ∃ start : Client Simulation.World,
    withConfig (Simulation.World.empty []) Config.default = .ok start ∧
      Network.now (start.perform (.issue (.noop 0) none)).2.net
        ≤ Network.now start.net + start.timeouts.io := by
  obtain ⟨start, hstart⟩ : ∃ start : Client Simulation.World,
      withConfig (Simulation.World.empty []) Config.default = .ok start := ⟨_, rfl⟩
  have hbounded := blocking_bounded Simulation.World.punctual hstart .opened
  exact ⟨start, hstart, hbounded.2 start.net (.issue (.noop 0) none)⟩

end Client

end CachePool
