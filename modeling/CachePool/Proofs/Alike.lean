/-
# Clients that nobody can tell apart

No call looks at the log, and none at the order in which outcomes wait for a flush, because a
flush sorts them by the order of issue.  So two clients that differ in these alone give the same
answers to the same calls among the same events.

* `Mute` : a step that writes the log but does not read it;
* `Client.Alike` : clients that differ in the log and the order of outcomes at most;
* `Client.Alike.drive` : driving leaves them alike;
* `Client.Alike.answer` : so does every call, which answers both in the same way;
* `Client.answers_congr` : any calls have the same answers.
-/
import CachePool.Proofs.Completions
import CachePool.Proofs.Ideal

namespace CachePool

/-! ## Steps that do not read the log -/

/-- A step that does the same whatever the log is, but for what it adds to the log. -/
def Mute {ω β : Type} (step : Around ω → β × Around ω) : Prop :=
  ∀ around log, ∃ last,
    step { around with log } = ((step around).1, { (step around).2 with log := last })

namespace Mute

variable {ω β γ : Type}

/-- What a step does, and then another one with what it gave. -/
theorem bind {first : Around ω → β × Around ω} {next : β → Around ω → γ × Around ω}
    (hfirst : Mute first) (hnext : ∀ value, Mute (next value)) :
    Mute fun around => next (first around).1 (first around).2 := by
  intro around log
  obtain ⟨between, hbetween⟩ := hfirst around log
  dsimp only
  rw [hbetween]
  exact hnext _ _ between

/-- A step that does nothing. -/
theorem pure (value : β) : Mute fun around : Around ω => (value, around) :=
  fun _ log => ⟨log, rfl⟩

end Mute

namespace Link

variable {ω : Type} [Network ω] (link : Link) (now : Nat) (timeouts : Timeouts)

theorem mute_fail (failure : Failure) :
    Mute fun around : Around ω => link.fail around now failure :=
  fun _ _ => ⟨_, rfl⟩

theorem mute_startConnect :
    Mute fun around : Around ω => link.startConnect around now timeouts := by
  intro around log
  unfold startConnect
  dsimp only
  cases Network.resolve around.net link.server.address.host link.server.address.port with
  | error error => exact mute_fail _ now _ around log
  | ok endpoint =>
      dsimp only
      rcases Network.connect around.net link.token endpoint with ⟨error | socket, net⟩
      · exact mute_fail _ now _ { around with net } log
      · exact ⟨_, rfl⟩

theorem mute_pollConnect (socket : Socket) (deadline : Nat) :
    Mute fun around : Around ω => link.pollConnect around now socket deadline := by
  intro around log
  unfold pollConnect
  dsimp only
  rcases Network.takeError around.net socket with ⟨_ | error, net⟩
  · dsimp only
    cases Network.peerState net socket with
    | established =>
        dsimp only [reportConnected]
        split <;> exact ⟨_, rfl⟩
    | notConnected =>
        dsimp only
        split
        · exact mute_fail _ now _ { around with net } log
        · exact ⟨_, rfl⟩
    | failed error => exact mute_fail _ now _ { around with net } log
  · exact mute_fail _ now _ { around with net } log

theorem mute_writeQueued : Mute fun around : Around ω => link.writeQueued around now := by
  intro around log
  unfold writeQueued
  cases link.phase with
  | connected socket =>
      dsimp only
      rcases link.writePending socket around.net with ⟨written, net, _ | error⟩
      · exact ⟨_, rfl⟩
      · exact mute_fail _ now _ { around with net } log
  | disconnected | connecting _ _ | dead => exact ⟨_, rfl⟩

theorem mute_makeProgress :
    Mute fun around : Around ω => link.makeProgress around now timeouts := by
  unfold makeProgress
  cases link.phase with
  | disconnected | dead =>
      dsimp only
      split
      · exact .pure _
      split
      · exact mute_startConnect link now timeouts
      · exact fun _ _ => ⟨_, rfl⟩
  | connecting socket deadline =>
      exact (mute_pollConnect link now socket deadline).bind fun next => mute_writeQueued next now
  | connected socket => exact mute_writeQueued link now

/-- Reading leaves the log as it is. -/
theorem readAvailable_log (around : Around ω) (log : Log) (socket : Socket) :
    link.readAvailable { around with log } socket
      = ((link.readAvailable around socket).1,
          { (link.readAvailable around socket).2.1 with log },
          (link.readAvailable around socket).2.2) := by
  unfold readAvailable
  dsimp only
  rcases readAll socket around.net with ⟨received, ending, net⟩
  cases ending <;> rfl

theorem mute_onReady (event : Event) :
    Mute fun around : Around ω => link.onReady around now event := by
  unfold onReady
  cases link.phase with
  | disconnected | dead => exact .pure _
  | connecting socket deadline =>
      exact (mute_pollConnect link now socket deadline).bind fun next => mute_writeQueued next now
  | connected socket =>
      intro around log
      dsimp only
      by_cases hreadable : event.readable = true
      · rw [if_pos hreadable, if_pos hreadable, readAvailable_log]
        rcases link.readAvailable around socket with ⟨next, between, _ | failure⟩
        · dsimp only
          split
          · exact mute_writeQueued next now between log
          · exact ⟨_, rfl⟩
        · exact mute_fail next now failure between log
      · rw [if_neg hreadable, if_neg hreadable]
        dsimp only
        split
        · exact mute_writeQueued link now around log
        · exact ⟨_, rfl⟩

theorem mute_shedUnresponsive (now : Nat) :
    Mute fun around : Around ω => link.shedUnresponsive around now := by
  intro around log
  unfold shedUnresponsive
  dsimp only
  split
  · exact mute_fail link _ _ around log
  · exact ⟨_, rfl⟩

omit [Network ω] in
theorem mute_expireLink (target : Target) :
    Mute fun around : Around ω => Client.expireLink target link around := by
  intro around log
  unfold Client.expireLink
  dsimp only
  split
  · exact ⟨_, rfl⟩
  · cases target <;> exact ⟨_, rfl⟩

end Link

namespace Pool

variable {ω : Type} {step : Link → Around ω → Link × Around ω}

theorem mute_eachLink (hstep : ∀ link, Mute (step link)) (links : List Link) :
    Mute (eachLink step links) := by
  induction links with
  | nil => exact .pure []
  | cons link links ih =>
      exact (hstep link).bind fun first => ih.bind fun others => .pure (first :: others)

theorem mute_onToken (hstep : ∀ link, Mute (step link)) (token : Token) (links : List Link) :
    Mute fun around => onToken step token links around := by
  induction links with
  | nil => exact .pure []
  | cons link links ih =>
      unfold onToken
      split
      · exact (hstep link).bind fun first => .pure (first :: links)
      · exact ih.bind fun others => .pure (link :: others)

theorem mute_forEach (hstep : ∀ link, Mute (step link)) (pool : Pool) :
    Mute fun around => pool.forEach around step :=
  (mute_eachLink hstep pool.links).bind fun links => .pure { pool with links }

theorem mute_handleEvents [Network ω] (pool : Pool) (now : Nat) (events : List Event) :
    Mute fun around : Around ω => pool.handleEvents around now events := by
  induction events generalizing pool with
  | nil => exact .pure pool
  | cons event events ih =>
      exact (mute_onToken (fun link => link.mute_onReady now event) event.token pool.links).bind
        fun links => ih { pool with links }

end Pool

/-! ## Clients that differ in the log and the order of outcomes -/

/-- Ledgers with the same outcomes, in any order. -/
structure Ledger.Alike (ledger twin : Ledger) : Prop where
  buffering : twin.buffering = ledger.buffering
  nextSeq : twin.nextSeq = ledger.nextSeq
  nextTag : twin.nextTag = ledger.nextTag
  direct : twin.direct = ledger.direct
  completed : ledger.completed.Perm twin.completed

namespace Ledger.Alike

variable {ledger twin : Ledger}

theorem record (halike : ledger.Alike twin) (finished : Finished) :
    (ledger.record finished).Alike (twin.record finished) := by
  obtain ⟨hbuffering, hseq, htag, hdirect, hcompleted⟩ := halike
  unfold Ledger.record
  dsimp only
  cases finished.slot.delivery with
  | direct => exact ⟨hbuffering, hseq, htag, by rw [hdirect], hcompleted⟩
  | buffered => exact ⟨hbuffering, hseq, htag, hdirect, hcompleted.append_right _⟩

theorem absorb (halike : ledger.Alike twin) (finished : List Finished) :
    (ledger.absorb finished).Alike (twin.absorb finished) := by
  induction finished generalizing ledger twin with
  | nil => exact halike
  | cons first others ih => exact ih (halike.record first)

theorem delivery (halike : ledger.Alike twin) : twin.delivery = ledger.delivery := by
  unfold Ledger.delivery
  rw [halike.buffering]

theorem slotFor (halike : ledger.Alike twin) (request : Request) (expect : Expect) :
    twin.slotFor request expect = ledger.slotFor request expect := by
  unfold Ledger.slotFor
  rw [halike.delivery, halike.nextSeq, halike.nextTag]

/-- **A flush returns the same outcomes**, as each has a place of its own in the order of
issue. -/
theorem drain (halike : ledger.Alike twin) (hdistinct : (ledger.completed.map Prod.fst).Nodup) :
    twin.drain.1 = ledger.drain.1 := by
  have hperm : (twin.completed.mergeSort fun a b => a.1 ≤ b.1).Perm
      (ledger.completed.mergeSort fun a b => a.1 ≤ b.1) :=
    (List.mergeSort_perm _ _).trans (halike.completed.symm.trans (List.mergeSort_perm _ _).symm)
  have hequal : (twin.completed.mergeSort fun a b => a.1 ≤ b.1)
      = ledger.completed.mergeSort fun a b => a.1 ≤ b.1 := by
    -- both are sorted, and no two outcomes have one place, so there is one order only
    refine List.Perm.eq_of_pairwise ?_ (Client.sorted_outcomes _) (Client.sorted_outcomes _) hperm
    intro a b ha hb hab hba
    exact List.inj_on_of_nodup_map hdistinct
      (halike.completed.symm.subset (List.mem_mergeSort.mp ha)) (List.mem_mergeSort.mp hb)
      (Nat.le_antisymm hab hba)
  unfold Ledger.drain
  rw [hequal]

end Ledger.Alike

namespace Client

variable {ω : Type}

/-- Clients that differ in their logs and in the order of the outcomes that wait for a flush,
if they differ at all. -/
structure Alike (client twin : Client ω) : Prop where
  timeouts : twin.timeouts = client.timeouts
  pool : twin.pool = client.pool
  net : twin.net = client.net
  ledger : client.ledger.Alike twin.ledger

variable [Network ω] {client twin : Client ω}

namespace Alike

omit [Network ω] in
/-- A step that does not read the log leaves them alike. -/
theorem after (halike : client.Alike twin) {step : Pool → Around ω → Pool × Around ω}
    (hstep : ∀ pool, Mute (step pool)) : (client.after step).Alike (twin.after step) := by
  obtain ⟨last, hlast⟩ := hstep client.pool ⟨client.net, client.log, []⟩ twin.log
  unfold Client.after
  dsimp only at hlast ⊢
  rw [halike.pool, halike.net, hlast]
  exact ⟨halike.timeouts, rfl, rfl, halike.ledger.absorb _⟩

theorem makeProgress (halike : client.Alike twin) (now : Nat) :
    (client.makeProgress now).Alike (twin.makeProgress now) := by
  unfold Client.makeProgress
  rw [halike.timeouts]
  exact halike.after (Pool.mute_forEach fun link => link.mute_makeProgress now client.timeouts)

theorem handleEvents (halike : client.Alike twin) (events : List Event) :
    (client.handleEvents events).Alike (twin.handleEvents events) := by
  exact halike.after fun pool around =>
    pool.mute_handleEvents (Network.now around.net) events around

theorem expire (halike : client.Alike twin) (target : Target) :
    (client.expire target).Alike (twin.expire target) :=
  halike.after fun pool around =>
    (Pool.mute_forEach (fun link => link.mute_expireLink target) pool).bind
      (Pool.mute_forEach fun link => link.mute_shedUnresponsive (Network.now around.net)) around

omit [Network ω] in
/-- Both have met their targets, or neither has. -/
theorem hasMet (halike : client.Alike twin) (target : Target) :
    twin.hasMet target = client.hasMet target := by
  unfold Client.hasMet Ledger.hasDirect
  rw [halike.pool, halike.ledger.direct]

omit [Network ω] in
theorem waitTime (halike : client.Alike twin) (now deadline : Nat) :
    twin.waitTime now deadline = client.waitTime now deadline := by
  unfold Client.waitTime
  rw [halike.pool]

omit [Network ω] in
/-- The world changes for both. -/
theorem elapsed (halike : client.Alike twin) (net : ω) :
    Alike { client with net } { twin with net } :=
  ⟨halike.timeouts, halike.pool, rfl, halike.ledger⟩

/-- In each round both push their links forward. -/
theorem pushed (halike : client.Alike twin) : client.pushed.Alike twin.pushed := by
  unfold Client.pushed
  rw [halike.net]
  exact halike.makeProgress _

/-- Both pause, or neither does. -/
theorem pauses (halike : client.Alike twin) {target : Target} {deadline : Nat}
    (hpauses : client.Pauses target deadline) : twin.Pauses target deadline where
  unmet := by rw [halike.pushed.hasMet, hpauses.unmet]
  early := by rw [halike.net]; exact hpauses.early

/-- Both pause for the same events, and go on alike. -/
theorem pause (halike : client.Alike twin) (deadline : Nat) :
    (twin.pause deadline).outcome = (client.pause deadline).outcome ∧
      (client.pause deadline).resumed.Alike (twin.pause deadline).resumed := by
  have hpoll : Network.poll twin.pushed.net
        (twin.pushed.waitTime (Network.now twin.net) deadline)
      = Network.poll client.pushed.net
        (client.pushed.waitTime (Network.now client.net) deadline) := by
    rw [halike.pushed.waitTime, halike.pushed.net, halike.net]
  unfold Pause.resumed Client.pause
  dsimp only
  rw [hpoll]
  refine ⟨rfl, ?_⟩
  have hwaited := halike.pushed.elapsed
    (Network.poll client.pushed.net (client.pushed.waitTime (Network.now client.net) deadline)).2
  split
  · exact hwaited.handleEvents _
  · exact hwaited
  · exact hwaited

end Alike

/-- Calls that return the same and leave clients alike. -/
structure Twins {α : Type} (result other : α × Client ω) : Prop where
  same : other.1 = result.1
  alike : result.2.Alike other.2

omit [Network ω] in
/-- Such calls give one value, and two clients. -/
theorem Twins.exists_eq {α : Type} {result other : α × Client ω} (htwins : Twins result other) :
    ∃ value after twin, result = (value, after) ∧ other = (value, twin) ∧ after.Alike twin :=
  ⟨result.1, result.2, other.2, rfl, Prod.ext htwins.same rfl, htwins.alike⟩

/-- A round that does not end in a pause is the last one for both. -/
theorem Alike.drive_of_not_pauses (halike : client.Alike twin) {target : Target} {deadline : Nat}
    (hlast : ¬client.Pauses target deadline) (waits : Nat) :
    Twins (drive target deadline waits client) (drive target deadline waits twin) := by
  have hpushed := halike.pushed
  cases hmet : client.pushed.hasMet target with
  | true =>
      rw [drive_met hmet, drive_met (by rw [hpushed.hasMet, hmet])]
      exact ⟨rfl, hpushed⟩
  | false =>
      have hlate : deadline ≤ Network.now client.net := by
        by_contra hearly
        exact hlast ⟨hmet, Nat.not_le.mp hearly⟩
      rw [drive_late hmet hlate,
        drive_late (by rw [hpushed.hasMet, hmet]) (by rw [halike.net]; exact hlate)]
      exact ⟨rfl, hpushed.expire target⟩

/-- **Driving leaves clients alike**, and ends for both in the same way. -/
theorem Alike.drive (halike : client.Alike twin) (target : Target) (deadline waits : Nat) :
    Twins (drive target deadline waits client) (drive target deadline waits twin) := by
  -- both pause in the same rounds and for the same events, so the rounds go in step
  induction waits generalizing client twin with
  | zero =>
      by_cases hpauses : client.Pauses target deadline
      · rw [hpauses.drive_zero, (halike.pauses hpauses).drive_zero]
        exact ⟨rfl, halike.pushed.expire target⟩
      · exact halike.drive_of_not_pauses hpauses 0
  | succ waits ih =>
      by_cases hpauses : client.Pauses target deadline
      · obtain ⟨houtcome, hresumed⟩ := halike.pause deadline
        rw [hpauses.drive_succ, (halike.pauses hpauses).drive_succ, houtcome]
        cases (client.pause deadline).outcome with
        | failed error => exact ⟨rfl, hresumed.expire target⟩
        | interrupted => exact ih hresumed
        | ready events => exact ih hresumed
      · exact halike.drive_of_not_pauses hpauses (waits + 1)

theorem Alike.run (halike : client.Alike twin) (target : Target) (deadline : Nat) :
    Twins (client.run target deadline) (twin.run target deadline) := by
  unfold Client.run
  rw [halike.net]
  exact halike.drive target deadline _

/-! ## Calls -/

/-- A command is queued for both, or refused for both. -/
theorem Alike.queue (halike : client.Alike twin) (server : Nat) (request : Request)
    (expect : Expect) :
    (∃ error, client.queue server request expect = .error error ∧
      twin.queue server request expect = .error error) ∨
    ∃ seq delivery queued other, client.queue server request expect = .ok (seq, delivery, queued) ∧
      twin.queue server request expect = .ok (seq, delivery, other) ∧ queued.Alike other := by
  obtain ⟨hbuffering, hseq, htag, hdirect, hcompleted⟩ := halike.ledger
  unfold Client.queue
  rw [halike.pool, halike.net, halike.timeouts]
  cases client.pool.link server with
  | error error => exact .inl ⟨_, rfl, rfl⟩
  | ok link =>
      dsimp only
      split
      · exact .inl ⟨_, rfl, rfl⟩
      unfold Ledger.submit
      rw [halike.ledger.slotFor, halike.ledger.delivery, hseq, htag]
      cases request.validate with
      | error error => exact .inl ⟨_, rfl, rfl⟩
      | ok =>
          refine .inr ⟨_, _, _, _, rfl, rfl, ?_⟩
          exact ⟨rfl, rfl, rfl, hbuffering, rfl, rfl, hdirect, hcompleted⟩

/-- Waiting for a command ends for both in the same way. -/
theorem Alike.await (halike : client.Alike twin) (seq deadline : Nat) :
    Twins (client.await seq deadline) (twin.await seq deadline) := by
  obtain ⟨result, driven, other, hrun, htwin, hdriven⟩ :=
    (halike.run (.command seq) deadline).exists_eq
  unfold Client.await
  rw [hrun, htwin]
  rcases result with error | ⟨⟨⟩⟩
  · exact ⟨rfl, hdriven⟩
  · obtain ⟨hbuffering, hseq, htag, hdirect, hcompleted⟩ := hdriven.ledger
    dsimp only [Ledger.takeDirect]
    rw [hdirect]
    have hcollected : Alike
        { driven with ledger := (driven.ledger.takeDirect seq).2 }
        { other with ledger := (other.ledger.takeDirect seq).2 } :=
      ⟨hdriven.timeouts, hdriven.pool, hdriven.net, hbuffering, hseq, htag,
        congrArg (List.filter _) hdirect, hcompleted⟩
    unfold Ledger.takeDirect at hcollected
    rw [hdirect] at hcollected
    rcases driven.ledger.direct.lookup seq with _ | error | output
    all_goals exact ⟨rfl, hcollected⟩

theorem Alike.dispatch (halike : client.Alike twin) (server : Nat) (request : Request)
    (expect : Expect) (timeout : Option Nat) :
    Twins (client.dispatch server request expect timeout)
      (twin.dispatch server request expect timeout) := by
  have hdeadline : twin.deadlineOf timeout = client.deadlineOf timeout := by
    unfold Client.deadlineOf
    rw [halike.net, halike.timeouts]
  unfold Client.dispatch
  rw [hdeadline]
  rcases halike.queue server request expect with
    ⟨error, hqueue, hother⟩ | ⟨seq, delivery, queued, other, hqueue, hother, hqueued⟩
  · rw [hqueue, hother]
    exact ⟨rfl, halike⟩
  · rw [hqueue, hother]
    cases delivery with
    | buffered => exact ⟨rfl, hqueued⟩
    | direct => exact hqueued.await seq _

theorem Alike.issue (halike : client.Alike twin) (command : Command) (timeout : Option Nat) :
    Twins (client.issue command timeout) (twin.issue command timeout) := by
  unfold Client.issue
  split
  · exact halike.dispatch _ _ _ _
  unfold dispatchKey
  rw [halike.pool]
  split
  · exact ⟨rfl, halike⟩
  split
  · exact ⟨rfl, halike⟩
  · exact halike.dispatch _ _ _ _

omit [Network ω] in
/-- Reading what a command returns looks at nothing else. -/
theorem Twins.readReply {α : Type} {outcome other : Except ClientError (Reply Output) × Client ω}
    (htwins : Twins outcome other) (opcode : Opcode) (extract : Output → Option α) :
    Twins (readReply opcode extract outcome) (readReply opcode extract other) := by
  obtain ⟨result, after, twin, rfl, rfl, halike⟩ := htwins.exists_eq
  rcases result with error | output | _
  · exact ⟨rfl, halike⟩
  · unfold Client.readReply
    dsimp only
    cases extract output <;> exact ⟨rfl, halike⟩
  · exact ⟨rfl, halike⟩

/-- A flush returns the same to both, if each outcome has a place of its own. -/
theorem Alike.flush (halike : client.Alike twin) (timeout : Option Nat)
    (hdistinct : ((client.run .allBuffered (client.deadlineOf timeout)).2.ledger.completed.map
      Prod.fst).Nodup) :
    Twins (client.flush timeout) (twin.flush timeout) := by
  have hdeadline : twin.deadlineOf timeout = client.deadlineOf timeout := by
    unfold Client.deadlineOf
    rw [halike.net, halike.timeouts]
  obtain ⟨result, driven, other, hrun, htwin, hdriven⟩ :=
    (halike.run .allBuffered (client.deadlineOf timeout)).exists_eq
  rw [hrun] at hdistinct
  unfold Client.flush
  rw [hdeadline, hrun, htwin]
  rcases result with error | ⟨⟨⟩⟩
  · exact ⟨rfl, hdriven⟩
  · obtain ⟨hbuffering, hseq, htag, hdirect, -⟩ := hdriven.ledger
    refine ⟨congrArg Except.ok (hdriven.ledger.drain hdistinct), ?_⟩
    exact ⟨hdriven.timeouts, hdriven.pool, hdriven.net, hbuffering, hseq, htag, hdirect, .refl _⟩

omit [Network ω] in
theorem Alike.resetBuffers (halike : client.Alike twin) :
    client.resetBuffers.Alike twin.resetBuffers := by
  obtain ⟨hbuffering, hseq, htag, hdirect, -⟩ := halike.ledger
  refine ⟨halike.timeouts, ?_, halike.net, hbuffering, hseq, htag, hdirect, .refl _⟩
  unfold Client.resetBuffers
  dsimp only
  rw [halike.pool]

/-- The same list of servers is placed for both, and the same links are closed. -/
theorem Alike.relist (halike : client.Alike twin) (addresses : List ServerAddress)
    (closing : List Link) :
    (client.relist addresses closing).Alike (twin.relist addresses closing) := by
  have hmute : Mute (Pool.eachLink Link.retire closing) :=
    @Pool.mute_eachLink ω _ (fun _ _ _ => ⟨_, rfl⟩) closing
  obtain ⟨last, hlast⟩ := hmute ⟨client.net, client.log, []⟩ twin.log
  unfold Client.relist
  dsimp only at hlast ⊢
  rw [halike.pool, halike.net, hlast]
  exact ⟨halike.timeouts, rfl, rfl, halike.ledger.absorb _⟩

theorem Alike.setServers (halike : client.Alike twin) (servers : ServerList) :
    Twins (client.setServers servers) (twin.setServers servers) := by
  unfold Client.setServers
  cases servers.parse with
  | error error => exact ⟨rfl, halike⟩
  | ok addresses =>
      dsimp only
      by_cases hinstalled : addresses ≠ [] ∧ addresses.Nodup
      · obtain ⟨hsome, hdistinct⟩ := hinstalled
        rw [installServers_eq hsome hdistinct, installServers_eq hsome hdistinct]
        refine ⟨rfl, ?_⟩
        rw [halike.pool]
        exact halike.relist _ _
      · obtain ⟨error, herror⟩ := @exists_installServers_eq_error ω _ addresses
          fun hsome hdistinct => hinstalled ⟨hsome, hdistinct⟩
        rw [herror client, herror twin]
        exact ⟨rfl, halike⟩

omit [Network ω] in
/-- The places of the outcomes that were not collected. -/
theorem seq_uncollected (client : Client ω) :
    client.uncollected.map Pledge.seq = client.ledger.completed.map Prod.fst := by
  rw [uncollected, List.map_map]
  rfl

omit [Network ω] in
/-- Every buffered command is in one place only. -/
theorem Agrees.nodup {books : Books} (hagrees : client.Agrees books) :
    ((client.buffered ++ client.uncollected).map Pledge.seq).Nodup := by
  have horder : (books.outstanding.map Pledge.seq).Pairwise (· < ·) :=
    hagrees.order.sublist (hagrees.outstanding.map _)
  exact (hagrees.accounts.map Pledge.seq).nodup_iff.mpr (horder.imp Nat.ne_of_lt)

/-- When a flush ends each outcome has a place of its own. -/
theorem Agrees.nodup_run {books : Books} (hagrees : client.Agrees books) (timeout : Option Nat) :
    ((client.run .allBuffered (client.deadlineOf timeout)).2.ledger.completed.map
      Prod.fst).Nodup := by
  obtain ⟨incidents, driven, hdrives, hdriven, -⟩ := flush_cases client timeout
  obtain ⟨haccounts, hapart, hseq⟩ := hagrees.accounts.drives hagrees.apart hdrives
    fun slot hdrop => nomatch hdrop.direct slot rfl
  have hnodup := (hagrees.moved haccounts hapart (Nat.le_of_eq hseq.symm)).nodup
  rw [List.map_append, seq_uncollected] at hnodup
  rw [← hdriven]
  exact (List.nodup_append.mp hnodup).2.1

/-- **Every call has the same answer for both**, and leaves them alike. -/
theorem Alike.answer {books : Books} (halike : client.Alike twin) (hagrees : client.Agrees books)
    (call : Call) : Twins (client.answer call) (twin.answer call) := by
  cases call with
  | issue command timeout =>
      unfold Client.answer
      dsimp only
      rw [ask_eq, ask_eq]
      obtain ⟨result, after, other, hleft, hright, hafter⟩ :=
        ((halike.issue command timeout).readReply command.request.opcode command.read).exists_eq
      rw [hleft, hright]
      rcases result with error | value | _
      all_goals exact ⟨rfl, hafter⟩
  | flush timeout =>
      -- the one call that shows the outcomes, and it sorts them first
      obtain ⟨result, after, other, hleft, hright, hafter⟩ :=
        (halike.flush timeout (hagrees.nodup_run timeout)).exists_eq
      unfold Client.answer Client.perform
      dsimp only
      rw [hleft, hright]
      cases result
      all_goals exact ⟨rfl, hafter⟩
  | resetBuffers => exact ⟨rfl, halike.resetBuffers⟩
  | setBuffering buffering =>
      obtain ⟨-, hseq, htag, hdirect, hcompleted⟩ := halike.ledger
      exact ⟨rfl, halike.timeouts, halike.pool, halike.net, rfl, hseq, htag, hdirect, hcompleted⟩
  | setServers servers =>
      obtain ⟨result, after, other, hleft, hright, hafter⟩ :=
        (halike.setServers servers).exists_eq
      unfold Client.answer Client.perform
      dsimp only
      rw [hleft, hright]
      cases result
      all_goals exact ⟨rfl, hafter⟩
  | setTimeouts timeouts =>
      unfold Client.answer Client.perform Client.setTimeouts
      dsimp only
      split
      · exact ⟨rfl, halike⟩
      · exact ⟨rfl, rfl, halike.pool, halike.net, halike.ledger⟩
  | setSink sink => exact ⟨rfl, halike.timeouts, halike.pool, halike.net, halike.ledger⟩

/-- What calls return, one after the other, each among what the world has come to by then. -/
def answers (client : Client ω) : List (ω × Call) → List Answer
  | [] => []
  | (net, call) :: calls =>
    let (answer, after) := ({ client with net }).answer call
    answer :: after.answers calls

/-- **Any calls have the same answers for both**, if the same happens in the world. -/
theorem answers_congr {books : Books}
    (halike : ∀ net : ω, Alike { client with net } { twin with net })
    (hagrees : client.Agrees books) (calls : List (ω × Call)) :
    twin.answers calls = client.answers calls := by
  induction calls generalizing client twin books with
  | nil => rfl
  | cons first calls ih =>
      obtain ⟨net, call⟩ := first
      have hnow : Agrees books { client with net } := hagrees.congr rfl rfl rfl
      obtain ⟨hsame, hafter⟩ := (halike net).answer hnow call
      have hnext := hnow.perform call
      rw [← answer_snd] at hnext
      unfold answers
      dsimp only
      rw [hsame, ih (fun net => hafter.elapsed net) hnext]

end Client

end CachePool
