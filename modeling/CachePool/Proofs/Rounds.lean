/-
# Rounds

A call that waits looks at its links over and over.  In each round it pushes every link
forward, and then it halts or pauses for events.  `Client.Rounds` lists the pauses of a call
up to a round, and `Client.Halts` says how a round is the last one.

* `Client.drive_rounds` : driving is some rounds, and then one in which it halts;
* `Client.Rounds.drive` : driving goes on from every round it comes to.
-/
import CachePool.Client.Basic

namespace CachePool

/-- A pause of a call: the client that waits, how long it waits at most, what the wait gave,
and the network after it. -/
structure Pause (ω : Type) where
  client : Client ω
  time : Nat
  outcome : PollOutcome
  net : ω

variable {ω : Type} [Network ω]

/-- The client that goes on after a pause. -/
def Pause.resumed (pause : Pause ω) : Client ω :=
  match pause.outcome with
  | .ready events => ({ pause.client with net := pause.net }).handleEvents events
  | .interrupted | .failed _ => { pause.client with net := pause.net }

/-- After a pause that failed only the network is another one. -/
theorem Pause.resumed_of_failed {pause : Pause ω} {error : IoError}
    (hfailed : pause.outcome = .failed error) :
    pause.resumed = { pause.client with net := pause.net } := by
  unfold resumed
  rw [hfailed]

namespace Client

/-- The client with every link pushed forward, as a round finds it. -/
def pushed (client : Client ω) : Client ω :=
  client.makeProgress (Network.now client.net)

/-- The pause of a round. -/
def pause (client : Client ω) (deadline : Nat) : Pause ω :=
  let time := client.pushed.waitTime (Network.now client.net) deadline
  { client := client.pushed
    time := time
    outcome := (Network.poll client.pushed.net time).1
    net := (Network.poll client.pushed.net time).2 }

omit [Network ω] in
/-- A wait ends no later than the deadline and the connects that still have time. -/
theorem waitTime_le (client : Client ω) {now deadline : Nat} (hearly : now < deadline) :
    0 < client.waitTime now deadline ∧ now + client.waitTime now deadline ≤ deadline ∧
      ∀ link ∈ client.pool.links, ∀ connect, link.phase.deadline? = some connect →
        now < connect → now + client.waitTime now deadline ≤ connect := by
  unfold waitTime Pool.nextDeadline?
  refine ⟨Nat.lt_of_lt_of_le Nat.zero_lt_one (Nat.le_max_right _ _), ?_, ?_⟩
  · dsimp only
    split <;> omega
  · intro link hmem connect hconnect htime
    have hlisted : connect ∈ client.pool.links.filterMap fun link => link.phase.deadline? :=
      List.mem_filterMap.mpr ⟨link, hmem, hconnect⟩
    split
    · rename_i first hfirst
      have hle := (List.min?_eq_some_iff.mp hfirst).2 _ hlisted
      dsimp only
      omega
    · rename_i hnone
      rw [List.min?_eq_none_iff] at hnone
      rw [hnone] at hlisted
      cases hlisted

/-- A round ends in a pause: the target is not met, and the deadline has not passed. -/
structure Pauses (target : Target) (deadline : Nat) (client : Client ω) : Prop where
  unmet : client.pushed.hasMet target = false
  early : Network.now client.net < deadline

/-- The rounds of a call from a client to another, with the pauses between them. -/
inductive Rounds (target : Target) (deadline : Nat) :
    Client ω → List (Pause ω) → Client ω → Prop
  | refl (client : Client ω) : Rounds target deadline client [] client
  | head {client looked : Client ω} {pauses : List (Pause ω)}
      (hpauses : client.Pauses target deadline)
      (hwaited : ∀ error, (client.pause deadline).outcome ≠ .failed error)
      (hrest : Rounds target deadline (client.pause deadline).resumed pauses looked) :
      Rounds target deadline client (client.pause deadline :: pauses) looked

/-- How a call halts in a round, with so many waits left: after a pause that failed, or
without a pause. -/
inductive Halts (target : Target) (deadline : Nat) (looked : Client ω) :
    Nat → List (Pause ω) → Except ClientError Unit × Client ω → Prop
  | met {left : Nat} (hmet : looked.pushed.hasMet target = true) :
      Halts target deadline looked left [] (.ok (), looked.pushed)
  | late {left : Nat} (hunmet : looked.pushed.hasMet target = false)
      (hlate : deadline ≤ Network.now looked.net) :
      Halts target deadline looked left [] (target.onExpiry, looked.pushed.expire target)
  | failed {left : Nat} {error : IoError} (hpauses : looked.Pauses target deadline)
      (hfailed : (looked.pause deadline).outcome = .failed error) :
      Halts target deadline looked (left + 1) [looked.pause deadline]
        (.error (.io error), (looked.pause deadline).resumed.expire target)
  | exhausted (hpauses : looked.Pauses target deadline) :
      Halts target deadline looked 0 [] (.error tooManyWaits, looked.pushed.expire target)

variable {target : Target} {deadline : Nat}

/-- A round in which the target is met is the last one. -/
theorem drive_met {client : Client ω} (hmet : client.pushed.hasMet target = true) (waits : Nat) :
    drive target deadline waits client = (.ok (), client.pushed) := by
  unfold drive
  exact if_pos hmet

/-- So is a round after the deadline. -/
theorem drive_late {client : Client ω} (hunmet : client.pushed.hasMet target = false)
    (hlate : deadline ≤ Network.now client.net) (waits : Nat) :
    drive target deadline waits client = (target.onExpiry, client.pushed.expire target) := by
  unfold drive
  exact (if_neg (ne_true_of_eq_false hunmet)).trans (if_pos hlate)

/-- A round halts, or it ends in a pause. -/
theorem halts_or_pauses (target : Target) (deadline : Nat) (client : Client ω) :
    (∀ waits, client.Halts target deadline waits [] (drive target deadline waits client)) ∨
      client.Pauses target deadline := by
  cases hmet : client.pushed.hasMet target with
  | true => exact .inl fun waits => drive_met hmet waits ▸ .met hmet
  | false =>
      by_cases hlate : deadline ≤ Network.now client.net
      · exact .inl fun waits => drive_late hmet hlate waits ▸ .late hmet hlate
      · exact .inr ⟨hmet, Nat.not_le.mp hlate⟩

/-- Without a wait left a call ends where it would pause. -/
theorem Pauses.drive_zero {client : Client ω} (hpauses : client.Pauses target deadline) :
    drive target deadline 0 client = (.error tooManyWaits, client.pushed.expire target) := by
  unfold drive
  exact (if_neg (ne_true_of_eq_false hpauses.unmet)).trans
    (if_neg (Nat.not_le.mpr hpauses.early))

/-- A pause that failed ends the call, and every other pause lets it go on. -/
theorem Pauses.drive_succ {client : Client ω} (hpauses : client.Pauses target deadline)
    (waits : Nat) :
    drive target deadline (waits + 1) client =
      match (client.pause deadline).outcome with
      | .failed error => (.error (.io error), (client.pause deadline).resumed.expire target)
      | .interrupted | .ready _ => drive target deadline waits (client.pause deadline).resumed := by
  have hmet := ne_true_of_eq_false hpauses.unmet
  unfold pushed at hmet
  rw [drive, if_neg hmet, if_neg (Nat.not_le.mpr hpauses.early)]
  unfold Pause.resumed pause pushed
  rcases hpoll : Network.poll (client.makeProgress (Network.now client.net)).net
    ((client.makeProgress (Network.now client.net)).waitTime (Network.now client.net) deadline)
    with ⟨outcome, net⟩
  cases outcome <;> simp only [hpoll]

/-- After a pause that did not fail the call goes on. -/
theorem Pauses.drive_resumed {client : Client ω} (hpauses : client.Pauses target deadline)
    (hwaited : ∀ error, (client.pause deadline).outcome ≠ .failed error) (waits : Nat) :
    drive target deadline (waits + 1) client
      = drive target deadline waits (client.pause deadline).resumed := by
  rw [hpauses.drive_succ]
  split
  · rename_i error hfailed
    exact absurd hfailed (hwaited error)
  · rfl
  · rfl

/-- **Driving is some rounds, and then one in which it halts.** -/
theorem drive_rounds (target : Target) (deadline waits : Nat) (client : Client ω) :
    ∃ pauses looked left last, Rounds target deadline client pauses looked ∧
      looked.Halts target deadline left last (drive target deadline waits client) ∧
      waits = pauses.length + left := by
  induction waits generalizing client with
  | zero =>
      rcases halts_or_pauses target deadline client with hhalts | hpauses
      · exact ⟨[], client, 0, [], .refl client, hhalts 0, rfl⟩
      · exact ⟨[], client, 0, [], .refl client, hpauses.drive_zero ▸ .exhausted hpauses, rfl⟩
  | succ waits ih =>
      rcases halts_or_pauses target deadline client with hhalts | hpauses
      · exact ⟨[], client, waits + 1, [], .refl client, hhalts _, (Nat.zero_add _).symm⟩
      by_cases hends : ∃ error, (client.pause deadline).outcome = .failed error
      · obtain ⟨error, hfailed⟩ := hends
        rw [hpauses.drive_succ, hfailed]
        exact ⟨[], client, waits + 1, _, .refl client, .failed hpauses hfailed,
          (Nat.zero_add _).symm⟩
      · have hwaited : ∀ error, (client.pause deadline).outcome ≠ .failed error :=
          fun error hfailed => hends ⟨error, hfailed⟩
        obtain ⟨pauses, looked, left, last, hrest, hhalts, hcount⟩ :=
          ih (client.pause deadline).resumed
        rw [hpauses.drive_resumed hwaited]
        refine ⟨_, looked, left, last, .head hpauses hwaited hrest, hhalts, ?_⟩
        rw [List.length_cons]
        omega

/-- A call that may wait so often, with its pauses and its result. -/
def Runs (target : Target) (deadline waits : Nat) (client : Client ω) (pauses : List (Pause ω))
    (result : Except ClientError Unit × Client ω) : Prop :=
  ∃ before looked left last, Rounds target deadline client before looked ∧
    looked.Halts target deadline left last result ∧ pauses = before ++ last ∧
    waits = before.length + left

/-- Driving is such a call. -/
theorem runs_drive (target : Target) (deadline waits : Nat) (client : Client ω) :
    ∃ pauses, Runs target deadline waits client pauses (drive target deadline waits client) := by
  obtain ⟨before, looked, left, last, hrounds, hhalts, hcount⟩ :=
    drive_rounds target deadline waits client
  exact ⟨before ++ last, before, looked, left, last, hrounds, hhalts, rfl, hcount⟩

/-- **Driving goes on from every round it comes to.** -/
theorem Rounds.drive {client looked : Client ω} {pauses : List (Pause ω)}
    (hrounds : Rounds target deadline client pauses looked) (left : Nat) :
    drive target deadline (pauses.length + left) client = drive target deadline left looked := by
  induction hrounds with
  | refl client => rw [List.length_nil, Nat.zero_add]
  | head hpauses hwaited hrest ih =>
      rw [List.length_cons, Nat.add_right_comm, hpauses.drive_resumed hwaited, ih]

/-- **A call that has a wait left ends as it would with more.** -/
theorem Runs.drive_eq {client : Client ω} {waits more : Nat} {pauses : List (Pause ω)}
    {result : Except ClientError Unit × Client ω}
    (hruns : client.Runs target deadline waits pauses result) (hleft : pauses.length < waits)
    (hmore : waits ≤ more) : drive target deadline more client = result := by
  obtain ⟨before, looked, left, last, hrounds, hhalts, rfl, rfl⟩ := hruns
  rw [List.length_append] at hleft
  obtain ⟨extra, rfl⟩ := Nat.exists_eq_add_of_le hmore
  rw [Nat.add_assoc, hrounds.drive]
  cases hhalts with
  | met hmet => exact drive_met hmet _
  | late hunmet hlate => exact drive_late hunmet hlate _
  | @failed left error hpauses hfailed =>
      rw [Nat.add_right_comm, hpauses.drive_succ, hfailed]
  | exhausted hpauses => exact absurd hleft (by simp)

end Client

end CachePool
