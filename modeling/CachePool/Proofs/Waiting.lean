/-
# What a waiting call returns

The results of commands that end while a call waits are kept for it.  A call that waits
for a direct command returns the result of the command if the command ended before the
call ended its wait, and a flush returns every buffered command that ended meanwhile.

* `Ledger.Gathers` : a ledger keeps the results of some commands;
* `Client.Drives.gathers` : driving keeps the results of the commands that end;
* `Client.Waits.result` : what a data operation returns;
* `Client.flush_waits` : what a flush returns.
-/
import CachePool.Proofs.Replies

namespace CachePool

/-! ## Results that are kept -/

namespace Ledger

/-- The results of some commands are kept, each where its caller looks for it. -/
structure Gathers (ledger : Ledger) (endings : List Finished) : Prop where
  direct : ∀ finished ∈ endings, finished.slot.delivery = .direct →
    (finished.slot.seq, finished.result) ∈ ledger.direct
  completed : ∀ finished ∈ endings, finished.slot.delivery = .buffered →
    ∃ completion, (finished.slot.seq, completion) ∈ ledger.completed ∧
      completion.opcode = finished.slot.opcode ∧ completion.key = finished.slot.key ∧
      completion.result = finished.result

/-- Before a command has ended there is nothing to keep. -/
theorem gathers_nil (ledger : Ledger) : ledger.Gathers [] where
  direct _ hnone := nomatch hnone
  completed _ hnone := nomatch hnone

/-- The results of fewer commands are kept, too. -/
theorem Gathers.subset {endings fewer : List Finished} {ledger : Ledger}
    (hgathers : ledger.Gathers endings) (hfewer : fewer ⊆ endings) : ledger.Gathers fewer where
  direct finished hmem := hgathers.direct finished (hfewer hmem)
  completed finished hmem := hgathers.completed finished (hfewer hmem)

/-- One more result is kept with the others. -/
theorem Gathers.record {endings : List Finished} {ledger : Ledger}
    (hgathers : ledger.Gathers endings) (last : Finished) :
    (ledger.record last).Gathers (endings ++ [last]) := by
  unfold Ledger.record
  dsimp only
  constructor
  · intro finished hmem hdirect
    rcases List.mem_append.mp hmem with hold | hnew
    · have hkept := hgathers.direct finished hold hdirect
      split
      · exact List.mem_cons_of_mem _ hkept
      · exact hkept
    · rw [List.mem_singleton.mp hnew] at hdirect ⊢
      rw [hdirect]
      exact List.mem_cons_self
  · intro finished hmem hbuffered
    rcases List.mem_append.mp hmem with hold | hnew
    · obtain ⟨completion, hkept, hsame⟩ := hgathers.completed finished hold hbuffered
      refine ⟨completion, ?_, hsame⟩
      split
      · exact hkept
      · exact List.mem_append_left _ hkept
    · rw [List.mem_singleton.mp hnew] at hbuffered ⊢
      rw [hbuffered]
      exact ⟨_, List.mem_append_right _ List.mem_cons_self, rfl, rfl, rfl⟩

/-- More results are kept with the others. -/
theorem Gathers.absorb {endings : List Finished} {ledger : Ledger}
    (hgathers : ledger.Gathers endings) (finished : List Finished) :
    (ledger.absorb finished).Gathers (endings ++ finished) := by
  induction finished generalizing endings ledger with
  | nil =>
      rw [List.append_nil]
      exact hgathers
  | cons first others ih =>
      have hothers := ih (hgathers.record first)
      rw [List.append_assoc] at hothers
      exact hothers

/-- A result that is kept is found. -/
theorem hasDirect_of_mem {ledger : Ledger} {seq : Nat} {result : Except ClientError Output}
    (hmem : (seq, result) ∈ ledger.direct) : ledger.hasDirect seq = true := by
  rw [hasDirect, Option.isSome_iff_ne_none]
  intro hnone
  rw [List.lookup_eq_none_iff] at hnone
  have hother := hnone _ hmem
  simp at hother

end Ledger

namespace Client

variable {ω : Type} [Network ω]

/-- Driving keeps the results of the commands that end. -/
theorem Drives.gathers {allows : Incident → Prop} {client after : Client ω} {incidents : Trace}
    {endings : List Finished} (hgathers : client.ledger.Gathers endings)
    (hdrives : client.Drives allows incidents after) :
    after.ledger.Gathers (endings ++ incidents.endings) := by
  induction hdrives with
  | refl =>
      show client.ledger.Gathers (endings ++ [])
      rw [List.append_nil]
      exact hgathers
  | tail _ hmove _ ih =>
      rw [Trace.endings_append, ← List.append_assoc]
      cases hmove with
      | link => exact ih.absorb _
      | waited =>
          show Ledger.Gathers _ (_ ++ [])
          rw [List.append_nil]
          exact ih
      | noted =>
          show Ledger.Gathers _ (_ ++ [])
          rw [List.append_nil]
          exact ih

/-! ## Direct commands -/

/-- A data operation that queued its command and waits for it: what happens while it drives
the links, and the client when it ends its wait. -/
structure Waits (client : Client ω) (command : Command) (timeout : Option Nat) (queued : Client ω)
    (incidents : Trace) (driven : Client ω) : Prop where
  queues : ∃ server, client.queue server command.request command.expect
    = .ok (client.ledger.nextSeq, .direct, queued)
  drives : queued.Drives Incident.Keeps incidents driven
  concludes : queued.Concludes (.command client.ledger.nextSeq) (client.deadlineOf timeout) driven
    (queued.run (.command client.ledger.nextSeq) (client.deadlineOf timeout))
  returns : client.issue command timeout
    = queued.await client.ledger.nextSeq (client.deadlineOf timeout)

/-- **A data operation is refused, or queues its command for the next flush, or waits for
it**, and gives nothing up while it waits. -/
theorem issue_waits (client : Client ω) (command : Command) (timeout : Option Nat) :
    (client.issue command timeout).2 = client ∨
      (client.issue command timeout).1 = .ok .buffered ∨
      ∃ queued incidents driven, client.Waits command timeout queued incidents driven := by
  rcases issue_cases client command timeout with
    ⟨error, -, hrefused⟩ |
      ⟨server, seq, delivery, queued, hqueue, ⟨-, hissue⟩ | ⟨rfl, hissue⟩⟩
  · exact .inl (congrArg Prod.snd hrefused)
  · exact .inr (.inl (congrArg Prod.fst hissue))
  · obtain ⟨_, _, _, -, -, rfl, -, -⟩ := queue_cases hqueue
    obtain ⟨incidents, driven, hdrives, hconcludes⟩ :=
      queued.run_concludes (.command client.ledger.nextSeq) (client.deadlineOf timeout)
    exact .inr (.inr ⟨queued, incidents, driven, ⟨server, hqueue⟩, hdrives, hconcludes, hissue⟩)

/-- A call that waits for a command returns the one result that is kept for it. -/
theorem await_of_mem {queued driven : Client ω} {seq deadline : Nat}
    {result : Except ClientError Output}
    (hconcludes : queued.Concludes (.command seq) deadline driven
      (queued.run (.command seq) deadline))
    (hkept : (seq, result) ∈ driven.ledger.direct)
    (honly : ∀ other, (seq, other) ∈ driven.ledger.direct → other = result) :
    (queued.await seq deadline).1 = result.map .ready ∨
      (queued.await seq deadline).1 = .error tooManyWaits := by
  have hmet : driven.hasMet (.command seq) = true := Ledger.hasDirect_of_mem hkept
  generalize hrun : queued.run (.command seq) deadline = run at hconcludes
  cases hconcludes with
  | met =>
      obtain ⟨other, hfound⟩ := Option.isSome_iff_exists.mp hmet
      rw [await_of_found hrun hfound, honly other (mem_of_lookup hfound)]
      exact .inl rfl
  | late _ _ _ hunmet =>
      rw [hmet] at hunmet
      cases hunmet
  | failed _ _ _ hunmet =>
      rw [hmet] at hunmet
      cases hunmet
  | exhausted => exact .inr (by rw [await_of_failed hrun])

variable {timeouts : Timeouts} {buffering : Bool} {net : ω} {trace incidents : Trace}
  {client queued driven : Client ω} {command : Command} {timeout : Option Nat}

/-- A command that ended was accepted, as it was issued. -/
theorem Reaches.ticket_of_ended {finished : Finished}
    (hreach : (blank timeouts buffering net).Reaches trace client)
    (hmem : finished ∈ trace.endings) :
    ∃ ticket ∈ trace.tickets, ticket.slot = finished.slot.original := by
  obtain ⟨-, hconserves⟩ := hreach.conserves
  have hslot : finished.slot.original ∈ trace.tickets.map (·.slot) := by
    apply hconserves.symm.subset
    refine List.mem_append_right _ (List.mem_append_left _ ?_)
    exact List.mem_map.mpr ⟨finished, hmem, rfl⟩
  obtain ⟨ticket, hticket, hsame⟩ := List.mem_map.mp hslot
  exact ⟨ticket, hticket, hsame⟩

/-- Of the commands that ended only one has a place. -/
theorem Reaches.eq_of_ended {first second : Finished}
    (hreach : (blank timeouts buffering net).Reaches trace client)
    (hfirst : first ∈ trace.endings) (hsecond : second ∈ trace.endings)
    (hseq : first.slot.seq = second.slot.seq) : first = second :=
  List.inj_on_of_nodup_map hreach.nodup_ends.of_append_left hfirst hsecond hseq

/-- The client when a call ends its wait is reached. -/
theorem Waits.reaches {start : Client ω} (hreach : start.Reaches trace client)
    (hwaits : client.Waits command timeout queued incidents driven) :
    start.Reaches (trace ++ .issued (client.nextTicket command) :: incidents) driven := by
  obtain ⟨server, hqueue⟩ := hwaits.queues
  have hdriven := (hreach.step (.queued hqueue)).steps hwaits.drives.steps
  rw [List.append_assoc] at hdriven
  exact hdriven

/-- **A data operation returns the result of its own command, if the command ended before
the operation ended its wait.** -/
theorem Waits.result {finished : Finished}
    (hreach : (blank timeouts buffering net).Reaches trace client)
    (hwaits : client.Waits command timeout queued incidents driven)
    (hmem : finished ∈ (trace ++ .issued (client.nextTicket command) :: incidents).endings)
    (hseq : finished.slot.seq = client.ledger.nextSeq) :
    (client.issue command timeout).1 = finished.result.map .ready ∨
      (client.issue command timeout).1 = .error tooManyWaits := by
  have hdriven := hwaits.reaches hreach
  obtain ⟨server, hqueue⟩ := hwaits.queues
  obtain ⟨_, _, _, -, -, -, hdelivery, -⟩ := queue_cases hqueue
  -- the command ended while the call waited, as it was not there before
  have hnow : finished ∈ incidents.endings := by
    rw [Trace.endings_append, Trace.endings_cons] at hmem
    rcases List.mem_append.mp hmem with hold | hnow
    · obtain ⟨ticket, hticket, hslot⟩ := hreach.ticket_of_ended hold
      have hlt := hreach.ordered.seq_lt hticket
      rw [hslot, Slot.seq_original, hseq] at hlt
      exact absurd hlt (Nat.lt_irrefl _)
    · exact hnow
  have hdirect : finished.slot.delivery = .direct := by
    obtain ⟨ticket, hticket, hslot⟩ := hdriven.ticket_of_ended hmem
    have hissued : client.nextTicket command
        ∈ (trace ++ .issued (client.nextTicket command) :: incidents).tickets := by
      rw [Trace.tickets_append, Trace.tickets_cons]
      exact List.mem_append_right _ List.mem_cons_self
    have hsame : ticket = client.nextTicket command := by
      apply List.inj_on_of_nodup_map hdriven.ordered.nodup hticket hissued
      rw [hslot, Slot.seq_original, hseq]
      rfl
    have hkept : ticket.slot.delivery = finished.slot.delivery := by
      rw [hslot]
      rfl
    rw [← hkept, hsame]
    exact hdelivery.symm
  have hgathers := hwaits.drives.gathers (Ledger.gathers_nil queued.ledger)
  have hkept := hgathers.direct finished hnow hdirect
  rw [hseq] at hkept
  rw [hwaits.returns]
  apply await_of_mem hwaits.concludes hkept
  intro other hother
  obtain ⟨ended, hended, hplace, rfl⟩ := hdriven.kept.1 _ hother
  rw [hdriven.eq_of_ended hended hmem (hplace.trans hseq.symm)]

/-! ## Flushes -/

/-- **A flush drives the links, giving nothing up before it ends its wait, and returns every
buffered command that ended meanwhile.** -/
theorem flush_waits (client : Client ω) (timeout : Option Nat) :
    ∃ incidents driven, client.Drives Incident.Keeps incidents driven ∧
      client.Concludes .allBuffered (client.deadlineOf timeout) driven
        (client.run .allBuffered (client.deadlineOf timeout)) ∧
      ∀ completions, (client.flush timeout).1 = .ok completions →
        ∀ finished ∈ incidents.endings, finished.slot.delivery = .buffered →
          ∃ completion ∈ completions, completion.opcode = finished.slot.opcode ∧
            completion.key = finished.slot.key ∧ completion.result = finished.result := by
  obtain ⟨incidents, driven, hdrives, hconcludes⟩ :=
    client.run_concludes .allBuffered (client.deadlineOf timeout)
  refine ⟨incidents, driven, hdrives, hconcludes, ?_⟩
  intro completions hflush finished hmem hbuffered
  have hgathers := hdrives.gathers (Ledger.gathers_nil client.ledger)
  have hreturned {after : Client ω} {endings : List Finished}
      (hkeeps : after.ledger.Gathers endings)
      (hended : finished ∈ endings) (hdrain : after.ledger.drain.1 = completions) :
      ∃ completion ∈ completions, completion.opcode = finished.slot.opcode ∧
        completion.key = finished.slot.key ∧ completion.result = finished.result := by
    obtain ⟨completion, hcompleted, hsame⟩ := hkeeps.completed finished hended hbuffered
    refine ⟨completion, ?_, hsame⟩
    rw [← hdrain]
    exact List.mem_map.mpr ⟨_, List.mem_mergeSort.mpr hcompleted, rfl⟩
  unfold flush at hflush
  generalize client.run .allBuffered (client.deadlineOf timeout) = run at hconcludes hflush
  cases hconcludes with
  | met => exact hreturned hgathers hmem (Except.ok.inj hflush)
  | late =>
      -- what the call gives up on at its deadline is kept behind what has ended
      obtain ⟨more, hexpire⟩ := drives_expire driven .allBuffered
      exact hreturned (hexpire.gathers hgathers) (List.mem_append_left _ hmem)
        (Except.ok.inj hflush)
  | failed => cases hflush
  | exhausted => cases hflush

end Client

end CachePool
