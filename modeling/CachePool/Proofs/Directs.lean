/-
# Direct commands leave nothing behind

A call that waits for its own command finds the result of this command, in the shape it
reads, or gives the command up; either way nothing of it is left.  Between calls no result
waits to be collected, and no live command on any link has a caller that waits.

* `Client.Idle` : nothing is left of direct commands;
* `Client.Tracks` : during a call its command is in one place;
* `Client.Tracks.move` : whatever happens while the call waits;
* `Client.directs_settled` : throughout a session.
-/
import CachePool.Proofs.Sessions

namespace CachePool

/-! ## Results that a caller can read -/

/-- Whether an output has the shape in which a command is read. -/
def Expect.suits : Expect → Output → Bool
  | .done, .done => true
  | .stored, .stored _ => true
  | .item _, .item _ => true
  | .counter, .counter _ => true
  | .stats, .stats _ => true
  | _, _ => false

/-- A result that the caller of a command can read as it is. -/
def Expect.Admits (expect : Expect) : Except ClientError Output → Prop
  | .ok output => expect.suits output = true
  | .error error => ∀ opcode, error ≠ .protocol (.unexpectedReply opcode)

/-- A reply gives a result of the shape that was asked for. -/
theorem Slot.accept_admits {slot : Slot} {response : Response}
    {result : Except ClientError Output} (haccept : slot.accept response = .final result) :
    slot.expect.Admits result := by
  unfold accept at haccept
  split at haccept
  · cases haccept
    intro opcode
    cases response.status <;> exact fun hsame => nomatch hsame
  split at haccept
  · rename_i hexpect
    cases haccept
    rw [hexpect]
    rfl
  · rename_i hexpect
    cases haccept
    rw [hexpect]
    rfl
  · rename_i hexpect
    cases haccept
    rw [hexpect]
    rfl
  · rename_i hexpect
    rw [hexpect]
    unfold Response.counter at haccept
    split at haccept
    · rename_i value hvalue
      cases haccept
      rfl
    · rename_i error herror
      cases haccept
      split at herror
      · cases herror
        exact fun opcode hsame => nomatch hsame
      · cases herror
  · rename_i hexpect
    rw [hexpect]
    split at haccept
    · cases haccept
      rfl
    · cases haccept

/-- The front of a buffer is never refused for the shape of a reply. -/
theorem Response.decode_ne (buffer : Bytes) (opcode : Opcode) :
    kind.decode buffer ≠ .error (.unexpectedReply opcode) := by
  intro hdecode
  unfold FrameKind.decode at hdecode
  split at hdecode
  · cases hdecode
  split at hdecode
  · rename_i error hlength
    cases hdecode
    unfold Header.frameLength at hlength
    dsimp only at hlength
    repeat' split at hlength
    all_goals cases hlength
  split at hdecode
  · cases hdecode
  dsimp only [kind] at hdecode
  split at hdecode
  · cases hdecode
  · cases hdecode

/-- Nor is a reply refused for its shape when it is given to a slot. -/
theorem Link.matchReply_ne (link : Link) (response : Response) (opcode : Opcode) :
    link.matchReply response ≠ .error (.unexpectedReply opcode) := by
  intro hmatch
  unfold matchReply at hmatch
  repeat' split at hmatch
  all_goals cases hmatch

namespace Link

variable {ω : Type} [Network ω] {now : Nat} {timeouts : Timeouts} {link last : Link}
  {net after : ω} {incidents : Trace}

/-- Commands that end with an error of the connection. -/
theorem admits_finishLive {error : ClientError}
    (herror : ∀ opcode, error ≠ .protocol (.unexpectedReply opcode)) (link : Link)
    (slots : List Slot) :
    ∀ finished ∈ link.finishLive error slots, finished.slot.expect.Admits finished.result := by
  intro finished hmem
  obtain ⟨slot, -, rfl⟩ := List.mem_map.mp hmem
  exact herror

/-- Commands that a failure costs. -/
theorem admits_casualties {failure : Failure}
    (hfailure : ∀ opcode, failure ≠ .protocol (.unexpectedReply opcode)) (link : Link) :
    ∀ finished ∈ link.casualties failure, finished.slot.expect.Admits finished.result := by
  have hconnection : ∀ opcode,
      link.connectionError failure.message ≠ .protocol (.unexpectedReply opcode) :=
    fun opcode hsame => nomatch hsame
  have hfirst : ∀ opcode, link.firstError failure ≠ .protocol (.unexpectedReply opcode) := by
    intro opcode hsame
    cases failure with
    | protocol error =>
        cases hsame
        exact hfailure opcode rfl
    | _ => cases hsame
  unfold casualties
  split
  · exact fun _ hmem => nomatch hmem
  · intro finished hmem
    rcases List.mem_append.mp hmem with hmem | hmem
    · exact admits_finishLive hfirst link _ finished hmem
    · exact admits_finishLive hconnection link _ finished hmem

/-- Replies give results that can be read. -/
theorem Answers.admits {responses : List Response}
    (hanswers : Answers link responses incidents last) :
    ∀ finished ∈ incidents.endings, finished.slot.expect.Admits finished.result := by
  induction hanswers with
  | nil => exact fun _ hmem => nomatch hmem
  | @cons link next last slot queue response responses ended incidents hqueue hmatch hothers ih =>
      intro finished hmem
      rw [Trace.endings_append, Trace.endings_cons, Trace.endings_map_ended] at hmem
      rcases List.mem_append.mp hmem with hmem | hmem
      · unfold matchReply at hmatch
        rw [hqueue] at hmatch
        dsimp only at hmatch
        split at hmatch
        · cases hmatch
        split at hmatch
        · cases hmatch
        split at hmatch
        · cases hmatch
          cases hmem
        · rename_i result haccept
          cases hmatch
          split at hmem
          · cases List.mem_singleton.mp hmem
            exact Slot.accept_admits haccept
          · cases hmem
      · exact ih finished hmem

/-- No link is torn down because a reply had another shape. -/
theorem Loses.failure_ne {losing : Link} {failure : Failure}
    (hloses : Loses now timeouts link net incidents losing failure after) (opcode : Opcode) :
    failure ≠ .protocol (.unexpectedReply opcode) := by
  rintro rfl
  cases hloses with
  | refusing _ _ _ _ _ hwhy =>
      generalize hfault : (Response.kind.split _).fault = fault at hwhy
      cases hwhy with
      | mismatch hmatch => exact matchReply_ne _ _ _ hmatch
      | malformed => exact Response.decode_ne _ opcode (Response.kind.decode_of_fault hfault)

/-- Before a link is torn down only replies end commands. -/
theorem Loses.admits {losing : Link} {failure : Failure}
    (hloses : Loses now timeouts link net incidents losing failure after) :
    ∀ finished ∈ incidents.endings, finished.slot.expect.Admits finished.result := by
  cases hloses with
  | refusing _ _ _ _ hanswers _ =>
      intro finished hmem
      rw [Trace.endings_append, Trace.endings_cons, endings_report] at hmem
      exact hanswers.admits finished hmem
  | _ => exact fun _ hmem => nomatch hmem

/-- **Whatever ends a command, its caller can read the result.** -/
theorem Step.admits (hstep : link.Step now timeouts net incidents last after) :
    ∀ finished ∈ incidents.endings, finished.slot.expect.Admits finished.result := by
  cases hstep with
  | took =>
      intro finished hmem
      rw [Trace.endings_cons, endings_map_sent] at hmem
      cases hmem
  | received _ _ _ hanswers =>
      intro finished hmem
      rw [Trace.endings_cons] at hmem
      exact hanswers.admits finished hmem
  | lost hloses =>
      intro finished hmem
      rw [Trace.endings_append, endings_loss] at hmem
      rcases List.mem_append.mp hmem with hmem | hmem
      · exact hloses.admits finished hmem
      · exact admits_casualties hloses.failure_ne _ finished hmem
  | shortCircuited =>
      rw [Trace.endings_map_ended]
      exact @admits_finishLive link.deadError (fun _ hsame => nomatch hsame) link _
  | expired target =>
      unfold expiry
      split
      · rw [endings_map_dropped]
        exact fun _ hmem => nomatch hmem
      · rw [Trace.endings_map_ended]
        exact @admits_finishLive .timeout (fun _ hsame => nomatch hsame) _ _
  | discarded =>
      rw [endings_map_dropped]
      exact fun _ hmem => nomatch hmem
  | retired =>
      rw [endings_loss]
      exact @admits_casualties .removed (fun _ hsame => nomatch hsame) link
  | _ => exact fun _ hmem => nomatch hmem

end Link

/-! ## Direct commands of a client -/

/-- The direct commands among slots. -/
def direct (slots : List Slot) : List Slot :=
  slots.filter fun slot => slot.delivery = .direct

@[simp] theorem direct_append (front back : List Slot) :
    direct (front ++ back) = direct front ++ direct back :=
  List.filter_append _ _

/-- The direct commands that ended. -/
def Trace.answered (trace : Trace) : List Finished :=
  trace.endings.filter fun finished => finished.slot.delivery = .direct

/-- The direct commands among those that ended. -/
theorem direct_endedSlots (trace : Trace) :
    direct (endedSlots trace.endings) = endedSlots trace.answered :=
  List.filter_map

/-- The results of direct commands wait to be collected, the last one first. -/
theorem Ledger.direct_absorb (ledger : Ledger) (finished : List Finished) :
    (ledger.absorb finished).direct
      = ((finished.filter fun ended => ended.slot.delivery = .direct).map fun ended =>
          (ended.slot.seq, ended.result)).reverse ++ ledger.direct := by
  induction finished generalizing ledger with
  | nil => rfl
  | cons first others ih =>
      refine (ih (ledger.record first)).trans ?_
      unfold record
      dsimp only
      cases hdelivery : first.slot.delivery with
      | direct =>
          rw [List.filter_cons_of_pos (by simpa using hdelivery), List.map_cons, List.reverse_cons,
            List.append_assoc]
          rfl
      | buffered => rw [List.filter_cons_of_neg (by simp [hdelivery])]

namespace Client

variable {ω : Type}

/-- The direct commands that wait on the links. -/
def directs (client : Client ω) : List Slot :=
  direct client.waiting

/-- Nothing is left of direct commands: none waits on a link, and no result waits to be
collected. -/
structure Idle (client : Client ω) : Prop where
  directs : client.directs = []
  ledger : client.ledger.direct = []

/-- The direct commands look at the links and the results only. -/
theorem Idle.congr {client after : Client ω} (hidle : client.Idle)
    (hlinks : after.pool.links = client.pool.links)
    (hdirect : after.ledger.direct = client.ledger.direct) : after.Idle where
  directs := by
    rw [Client.directs, waiting, hlinks]
    exact hidle.directs
  ledger := hdirect.trans hidle.ledger

/-- The only direct command of a client is in one place: it waits on one link, or its result
waits to be collected. -/
inductive Tracks (client : Client ω) (slot : Slot) : Prop
  | waits (hdirects : client.directs = [slot]) (hresults : client.ledger.direct = [])
  | ended {result : Except ClientError Output} (hdirects : client.directs = [])
      (hresults : client.ledger.direct = [(slot.seq, result)])
      (hadmits : slot.expect.Admits result) (htimely : result ≠ .error .timeout)

/-- The target of a call is met when the result of its command is there. -/
theorem Tracks.ended_of_met {client : Client ω} {slot : Slot} (htracks : client.Tracks slot)
    (hmet : client.hasMet (.command slot.seq) = true) :
    ∃ result, client.directs = [] ∧ client.ledger.direct = [(slot.seq, result)] ∧
      slot.expect.Admits result ∧ result ≠ .error .timeout := by
  cases htracks with
  | waits _ hresults =>
      rw [hasMet, Ledger.hasDirect, hresults] at hmet
      cases hmet
  | ended hdirects hresults hadmits htimely => exact ⟨_, hdirects, hresults, hadmits, htimely⟩

/-- Until then its command waits on one link. -/
theorem Tracks.waits_of_unmet {client : Client ω} {slot : Slot} (htracks : client.Tracks slot)
    (hunmet : client.hasMet (.command slot.seq) = false) :
    client.directs = [slot] ∧ client.ledger.direct = [] := by
  cases htracks with
  | waits hdirects hresults => exact ⟨hdirects, hresults⟩
  | ended _ hresults =>
      rw [hasMet, Ledger.hasDirect, hresults, List.lookup_cons_self] at hunmet
      cases hunmet

/-- Giving up on slots leaves the other direct commands, and none that satisfies the
condition. -/
theorem directs_abandoned {client after : Client ω} {condition : Slot → Bool}
    (hlinks : after.pool.links = client.pool.links.map fun link => (link.abandon condition).1)
    {slot : Slot} (hmem : slot ∈ after.directs) :
    slot ∈ client.directs ∧ ∃ given, given.original = slot ∧ condition given = false := by
  obtain ⟨hwaiting, hdirect⟩ := List.mem_filter.mp hmem
  rw [waiting, hlinks, List.flatMap_map] at hwaiting
  obtain ⟨link, hlink, hslot⟩ := List.mem_flatMap.mp hwaiting
  constructor
  · refine List.mem_filter.mpr ⟨List.mem_flatMap.mpr ⟨link, hlink, ?_⟩, hdirect⟩
    exact (link.conserves_abandon condition).symm.subset (List.mem_append_left _ hslot)
  · have hsettled := link.liveCount_abandon condition
    rw [Link.liveCount, List.countP_eq_zero] at hsettled
    rw [Link.waiting, ← live_append] at hslot
    obtain ⟨given, hgiven, rfl⟩ := List.mem_map.mp hslot
    obtain ⟨hqueued, hlive⟩ := List.mem_filter.mp hgiven
    refine ⟨given, rfl, ?_⟩
    have hnot := hsettled given hqueued
    rw [hlive, Bool.true_and] at hnot
    exact eq_false_of_ne_true hnot

variable [Network ω]

/-! ## What happens to them -/

/-- The direct commands before a step and the one it accepts are those after it and those that
the step ends or gives up. -/
theorem Step.directs {client after : Client ω} {incidents : Trace} (hapart : client.Apart)
    (hstep : client.Step incidents after) :
    (client.directs ++ direct (incidents.tickets.map (·.slot))).Perm
      (after.directs ++ (endedSlots incidents.answered
        ++ direct (incidents.drops.map Slot.original))) := by
  have hconserves := (Step.conserves hapart hstep).filter fun slot => slot.delivery = .direct
  change (direct _).Perm (direct _) at hconserves
  rw [direct_append, direct_append, direct_append, direct_endedSlots] at hconserves
  exact hconserves

/-- A move keeps the results of the direct commands that it ends. -/
theorem Move.results {client after : Client ω} {incidents : Trace}
    (hmove : client.Move incidents after) :
    after.ledger.direct = (incidents.answered.map fun finished =>
      (finished.slot.seq, finished.result)).reverse ++ client.ledger.direct := by
  cases hmove with
  | link => exact Ledger.direct_absorb _ _
  | waited => rfl
  | noted => rfl

/-- A move accepts no command. -/
theorem Move.tickets {client after : Client ω} {incidents : Trace}
    (hmove : client.Move incidents after) : incidents.tickets = [] := by
  cases hmove with
  | link _ hstep => exact Trace.tickets_of_about hstep.about
  | waited => rfl
  | noted => rfl

/-- The commands that a move ends give results that can be read. -/
theorem Move.admits {client after : Client ω} {incidents : Trace}
    (hmove : client.Move incidents after) :
    ∀ finished ∈ incidents.endings, finished.slot.expect.Admits finished.result := by
  cases hmove with
  | link _ hstep => exact hstep.admits
  | waited => exact fun _ hmem => nomatch hmem
  | noted => exact fun _ hmem => nomatch hmem

/-- Without direct commands there are none after a step that accepts none. -/
theorem Idle.step {client after : Client ω} {incidents : Trace} (hidle : client.Idle)
    (hapart : client.Apart) (hstep : client.Step incidents after)
    (htickets : direct (incidents.tickets.map (·.slot)) = []) : after.Idle := by
  have hperm := Step.directs hapart hstep
  rw [hidle.directs, htickets] at hperm
  obtain ⟨hdirects, hothers⟩ := List.append_eq_nil_iff.mp (List.nil_perm.mp hperm)
  refine ⟨hdirects, ?_⟩
  have hsame := hidle.ledger
  cases hstep with
  | move hmove =>
      have hnone := List.map_eq_nil_iff.mp (List.append_eq_nil_iff.mp hothers).1
      rw [hmove.results, hnone, hsame]
      rfl
  | queued hqueue =>
      obtain ⟨_, _, _, -, -, -, -, rfl⟩ := queue_cases hqueue
      exact hsame
  | collected seq =>
      show client.ledger.direct.filter _ = []
      rw [hsame]
      rfl
  | _ => exact hsame

/-- Driving leaves no direct commands where there were none. -/
theorem Idle.drives {client after : Client ω} {incidents : Trace} {allows : Incident → Prop}
    (hidle : client.Idle) (hapart : client.Apart)
    (hdrives : client.Drives allows incidents after) : after.Idle ∧ after.Apart := by
  induction hdrives with
  | refl => exact ⟨hidle, hapart⟩
  | tail _ hmove _ ih =>
      obtain ⟨hidle, hapart⟩ := ih
      refine ⟨hidle.step hapart (.move hmove) ?_, Step.apart hapart (.move hmove)⟩
      rw [hmove.tickets]
      rfl

/-- **A move that gives no command up keeps the direct command in one place.** -/
theorem Tracks.move {client after : Client ω} {incidents : Trace} {slot : Slot}
    (htracks : client.Tracks slot) (hapart : client.Apart) (hmove : client.Move incidents after)
    (hkeeps : ∀ incident ∈ incidents, incident.Keeps) : after.Tracks slot := by
  have hperm := Step.directs hapart (.move hmove)
  have hdrops : incidents.drops = [] := List.eq_nil_iff_forall_not_mem.mpr fun slot hmem =>
    hkeeps _ (Trace.mem_drops.mp hmem) slot.seq rfl
  have hresults := hmove.results
  -- without commands accepted or given up, the one that waited still waits or has ended
  rw [hmove.tickets, hdrops] at hperm
  change (client.directs ++ []).Perm (after.directs ++ (_ ++ [])) at hperm
  rw [List.append_nil, List.append_nil] at hperm
  cases htracks with
  | waits hdirects hnone =>
      rw [hdirects] at hperm
      rw [hnone, List.append_nil] at hresults
      rcases List.append_eq_singleton_iff.mp (List.singleton_perm.mp hperm).symm with
        ⟨hmoved, hended⟩ | ⟨hstays, hnothing⟩
      · -- the command ended
        obtain ⟨finished, hanswered, rfl⟩ := List.map_eq_singleton_iff.mp hended
        rw [hanswered] at hresults
        have hmem : finished ∈ incidents.endings :=
          (List.mem_filter.mp (hanswered ▸ List.mem_singleton_self finished)).1
        refine .ended hmoved hresults (hmove.admits finished hmem) fun htimeout => ?_
        exact hkeeps _ (Trace.mem_endings.mp hmem) finished.slot.seq ⟨rfl, htimeout⟩
      · rw [List.map_eq_nil_iff.mp hnothing] at hresults
        exact .waits hstays hresults
  | ended hdirects hentry hadmits htimely =>
      rw [hdirects] at hperm
      obtain ⟨hstill, hnothing⟩ := List.append_eq_nil_iff.mp (List.nil_perm.mp hperm)
      rw [List.map_eq_nil_iff.mp hnothing, hentry] at hresults
      exact .ended hstill hresults hadmits htimely

/-- So does driving that gives no command up. -/
theorem Tracks.drives {client after : Client ω} {incidents : Trace} {slot : Slot}
    (htracks : client.Tracks slot) (hapart : client.Apart)
    (hdrives : client.Drives Incident.Keeps incidents after) :
    after.Tracks slot ∧ after.Apart := by
  induction hdrives with
  | refl => exact ⟨htracks, hapart⟩
  | tail _ hmove hkeeps ih =>
      obtain ⟨htracks, hapart⟩ := ih
      exact ⟨htracks.move hapart hmove hkeeps, Step.apart hapart (.move hmove)⟩

/-! ## Giving up -/

omit [Network ω] in
/-- Giving up on a direct command keeps no result of it. -/
theorem ledger_forsaking (client : Client ω) (seq : Nat) :
    (client.forsaking (.command seq)).ledger = client.ledger := by
  have hfinished (link : Link) (around : Around ω) :
      (expireLink (.command seq) link around).2.finished = around.finished := by
    unfold expireLink
    dsimp only
    split <;> rfl
  have hnone := @Pool.eachLink_leads ω (expireLink (.command seq))
    (fun before after => after.2.finished = before.2.finished) (fun _ => rfl)
    (fun _ _ _ hfirst hsecond => hsecond.trans hfirst)
    (fun _ link _ around => hfinished link around) [] client.pool.links
    ⟨client.net, client.log, []⟩
  show client.ledger.absorb (Pool.eachLink _ _ _).2.finished = client.ledger
  rw [hnone]
  rfl

/-- **Giving up on the direct command leaves nothing of it.** -/
theorem Tracks.expire {client : Client ω} {slot : Slot} (htracks : client.Tracks slot)
    (hapart : client.Apart) (hunmet : client.hasMet (.command slot.seq) = false) :
    (client.expire (.command slot.seq)).Idle := by
  obtain ⟨hdirects, hresults⟩ := htracks.waits_of_unmet hunmet
  have hlinks := client.links_forsaking (.command slot.seq)
  have hidle : (client.forsaking (.command slot.seq)).Idle := by
    refine ⟨List.eq_nil_iff_forall_not_mem.mpr fun left hmem => ?_, ?_⟩
    · obtain ⟨hleft, given, hgiven, hother⟩ := directs_abandoned hlinks hmem
      rw [hdirects] at hleft
      rw [← List.mem_singleton.mp hleft, ← hgiven] at hother
      exact of_decide_eq_false hother rfl
    · rw [ledger_forsaking]
      exact hresults
  -- shedding what does not answer ends live commands only, and of these none is direct now
  have hstill : (client.forsaking (.command slot.seq)).Apart := by
    unfold Apart
    rw [hlinks, List.map_map]
    exact hapart
  obtain ⟨_, hshedding⟩ := client.drives_shedding (.command slot.seq)
  exact (hidle.drives hstill hshedding).1

/-! ## A call that waits for its command -/

/-- The command of a call is in one place in each of its rounds, and after every link was
pushed forward in it. -/
theorem Tracks.rounds {client looked : Client ω} {slot : Slot} {target : Target} {deadline : Nat}
    {pauses : List (Pause ω)} (htracks : client.Tracks slot) (hapart : client.Apart)
    (hrounds : Rounds target deadline client pauses looked) :
    looked.Tracks slot ∧ looked.pushed.Tracks slot ∧ looked.pushed.Apart := by
  obtain ⟨_, hdrives⟩ := hrounds.drives
  obtain ⟨hlooked, hapart⟩ := htracks.drives hapart hdrives
  obtain ⟨_, hprogress⟩ := looked.drives_makeProgress (Network.now looked.net)
  exact ⟨hlooked, hlooked.drives hapart hprogress⟩

/-- What holds of a call that waits for its own command. -/
structure Settles (queued : Client ω) (slot : Slot) (deadline : Nat) : Prop where
  /-- In each of its rounds the command is in one place. -/
  tracks : ∀ pauses looked, Rounds (.command slot.seq) deadline queued pauses looked →
    looked.Tracks slot ∧ looked.pushed.Tracks slot
  /-- When the target is met the result is there, and the call returns it. -/
  found : ∀ driven, queued.run (.command slot.seq) deadline = (.ok (), driven) →
    ∃ result, driven.directs = [] ∧ driven.ledger.direct = [(slot.seq, result)] ∧
      slot.expect.Admits result ∧
      queued.await slot.seq deadline
        = (result.map .ready, { driven with ledger := { driven.ledger with direct := [] } })
  /-- It returns every result that a round finds, also one after the deadline. -/
  prevails : ∀ pauses looked result, Rounds (.command slot.seq) deadline queued pauses looked →
    pauses.length ≤ Network.pollLimit queued.net →
    looked.pushed.ledger.direct = [(slot.seq, result)] →
    (queued.await slot.seq deadline).1 = result.map .ready
  /-- It times out only after a round that found the deadline passed and the command
  unanswered. -/
  late : (queued.await slot.seq deadline).1 = .error .timeout →
    ∃ pauses looked, Rounds (.command slot.seq) deadline queued pauses looked ∧
      deadline ≤ Network.now looked.net ∧ looked.pushed.directs = [slot] ∧
      looked.pushed.ledger.direct = []
  /-- What it returns can be read. -/
  admits : ∀ output, (queued.await slot.seq deadline).1 = .ok (.ready output) →
    slot.expect.suits output = true
  /-- It fails with no error about the shape of a reply. -/
  shaped : ∀ opcode, (queued.await slot.seq deadline).1
    ≠ .error (.protocol (.unexpectedReply opcode))
  /-- Nothing is left of the command. -/
  idle : (queued.await slot.seq deadline).2.Idle

/-- A call that finds its target met returns the result, and keeps nothing of it. -/
theorem await_of_run {queued driven : Client ω} {seq deadline : Nat}
    {result : Except ClientError Output} (hrun : queued.run (.command seq) deadline = (.ok (), driven))
    (hresult : driven.ledger.direct = [(seq, result)]) :
    queued.await seq deadline
      = (result.map .ready, { driven with ledger := { driven.ledger with direct := [] } }) := by
  rw [await_of_found hrun (by rw [hresult, List.lookup_cons_self]), Ledger.takeDirect, hresult,
    List.filter_cons_of_neg (by simp)]
  rfl

/-- A call returns the result that a round finds, if the network allows as many waits. -/
theorem Rounds.await {queued looked : Client ω} {seq deadline : Nat} {pauses : List (Pause ω)}
    {result : Except ClientError Output}
    (hrounds : Rounds (.command seq) deadline queued pauses looked)
    (hlimit : pauses.length ≤ Network.pollLimit queued.net)
    (hresult : looked.pushed.ledger.direct = [(seq, result)]) :
    (queued.await seq deadline).1 = result.map .ready := by
  obtain ⟨left, hleft⟩ := Nat.exists_eq_add_of_le hlimit
  have hmet : looked.pushed.hasMet (.command seq) = true := by
    rw [hasMet, Ledger.hasDirect, hresult, List.lookup_cons_self]
    rfl
  have hrun : queued.run (.command seq) deadline = (.ok (), looked.pushed) := by
    rw [run, hleft, hrounds.drive, drive_met hmet]
  rw [await_of_run hrun hresult]

/-- How driving for the command ends: its result is there, or nothing is left of it. -/
theorem Tracks.run_cases {queued : Client ω} {slot : Slot} (htracks : queued.Tracks slot)
    (hapart : queued.Apart) (deadline : Nat) :
    ∃ pauses looked, Rounds (.command slot.seq) deadline queued pauses looked ∧
      ((queued.run (.command slot.seq) deadline = (.ok (), looked.pushed) ∧
          looked.pushed.hasMet (.command slot.seq) = true) ∨
        ∃ error after, queued.run (.command slot.seq) deadline = (.error error, after) ∧
          after.Idle ∧ (∀ opcode, error ≠ .protocol (.unexpectedReply opcode)) ∧
          (error = .timeout → deadline ≤ Network.now looked.net ∧
            looked.pushed.hasMet (.command slot.seq) = false)) := by
  obtain ⟨pauses, looked, left, last, hrounds, hhalts, -⟩ :=
    drive_rounds (.command slot.seq) deadline (Network.pollLimit queued.net) queued
  obtain ⟨-, hpushed, hapart⟩ := htracks.rounds hapart hrounds
  refine ⟨pauses, looked, hrounds, ?_⟩
  rw [← run] at hhalts
  generalize queued.run (.command slot.seq) deadline = result at hhalts
  cases hhalts with
  | met hmet => exact .inl ⟨rfl, hmet⟩
  | late hunmet hlate =>
      refine .inr ⟨_, _, rfl, hpushed.expire hapart hunmet, ?_, fun _ => ⟨hlate, hunmet⟩⟩
      intro opcode hsame
      cases hsame
  | failed hpauses hfailed =>
      obtain ⟨_, hresumed⟩ := looked.drives_resumed deadline
      obtain ⟨htracks, hapart⟩ := hpushed.drives hapart hresumed
      -- a pause that fails brings no events, and so no result
      have hunmet : (looked.pause deadline).resumed.hasMet (.command slot.seq) = false := by
        rw [Pause.resumed_of_failed hfailed]
        exact hpauses.unmet
      refine .inr ⟨_, _, rfl, htracks.expire hapart hunmet, ?_, ?_⟩
      · intro opcode hsame
        cases hsame
      · intro hsame
        cases hsame
  | exhausted hpauses =>
      refine .inr ⟨_, _, rfl, hpushed.expire hapart hpauses.unmet, ?_, ?_⟩
      · intro opcode hsame
        cases hsame
      · intro hsame
        cases hsame

/-- A call that finds the result of its command settles it. -/
theorem Settles.of_found {queued driven : Client ω} {slot : Slot} {deadline : Nat}
    {result : Except ClientError Output}
    (htracks : ∀ pauses looked, Rounds (.command slot.seq) deadline queued pauses looked →
      looked.Tracks slot ∧ looked.pushed.Tracks slot)
    (hrun : queued.run (.command slot.seq) deadline = (.ok (), driven))
    (hdirects : driven.directs = []) (hresult : driven.ledger.direct = [(slot.seq, result)])
    (hadmits : slot.expect.Admits result) (htimely : result ≠ .error .timeout) :
    queued.Settles slot deadline := by
  have hawait := await_of_run hrun hresult
  have hgives : (queued.await slot.seq deadline).1 = result.map .ready := by rw [hawait]
  refine ⟨htracks, ?_, fun _ _ _ => Rounds.await, ?_, ?_, ?_, ?_⟩
  · intro other hother
    rw [hrun] at hother
    cases hother
    exact ⟨result, hdirects, hresult, hadmits, hawait⟩
  · intro htimeout
    rw [hgives] at htimeout
    cases result with
    | ok output => cases htimeout
    | error error =>
        cases htimeout
        exact absurd rfl htimely
  · intro output hready
    rw [hgives] at hready
    cases result with
    | ok output =>
        cases hready
        exact hadmits
    | error error => cases hready
  · intro opcode hfailed
    rw [hgives] at hfailed
    cases result with
    | ok output => cases hfailed
    | error error =>
        cases hfailed
        exact hadmits opcode rfl
  · rw [hawait]
    exact ⟨hdirects, rfl⟩

/-- So does a call that fails and leaves nothing of its command. -/
theorem Settles.of_failed {queued driven : Client ω} {slot : Slot} {deadline : Nat}
    {error : ClientError}
    (htracks : ∀ pauses looked, Rounds (.command slot.seq) deadline queued pauses looked →
      looked.Tracks slot ∧ looked.pushed.Tracks slot)
    (hrun : queued.run (.command slot.seq) deadline = (.error error, driven))
    (hidle : driven.Idle) (hshaped : ∀ opcode, error ≠ .protocol (.unexpectedReply opcode))
    (hlate : error = .timeout →
      ∃ pauses looked, Rounds (.command slot.seq) deadline queued pauses looked ∧
        deadline ≤ Network.now looked.net ∧ looked.pushed.directs = [slot] ∧
        looked.pushed.ledger.direct = []) :
    queued.Settles slot deadline := by
  have hawait := await_of_failed hrun
  refine ⟨htracks, ?_, fun _ _ _ => Rounds.await, ?_, ?_, ?_, ?_⟩
  · intro other hother
    rw [hrun] at hother
    cases hother
  · intro htimeout
    rw [hawait] at htimeout
    exact hlate (Except.error.inj htimeout)
  · intro output hready
    rw [hawait] at hready
    cases hready
  · intro opcode hfailed
    rw [hawait] at hfailed
    exact hshaped opcode (Except.error.inj hfailed)
  · rw [hawait]
    exact hidle

/-- **A call settles its command**, if it is the only direct one when the call begins. -/
theorem Tracks.settles {queued : Client ω} {slot : Slot} (htracks : queued.Tracks slot)
    (hapart : queued.Apart) (deadline : Nat) : queued.Settles slot deadline := by
  obtain ⟨pauses, looked, hrounds, hends⟩ := htracks.run_cases hapart deadline
  obtain ⟨-, hpushed, -⟩ := htracks.rounds hapart hrounds
  have htracked : ∀ pauses looked, Rounds (.command slot.seq) deadline queued pauses looked →
      looked.Tracks slot ∧ looked.pushed.Tracks slot := by
    intro pauses looked hrounds
    obtain ⟨hlooked, hpushed, -⟩ := htracks.rounds hapart hrounds
    exact ⟨hlooked, hpushed⟩
  rcases hends with ⟨hrun, hmet⟩ | ⟨error, after, hrun, hidle, hshaped, hlate⟩
  · obtain ⟨result, hdirects, hresult, hadmits, htimely⟩ := hpushed.ended_of_met hmet
    exact .of_found htracked hrun hdirects hresult hadmits htimely
  · refine .of_failed htracked hrun hidle hshaped fun htimeout => ?_
    obtain ⟨hpassed, hunmet⟩ := hlate htimeout
    obtain ⟨hdirects, hresults⟩ := hpushed.waits_of_unmet hunmet
    exact ⟨pauses, looked, hrounds, hpassed, hdirects, hresults⟩

/-! ## Sessions -/

variable {client : Client ω}

/-- A client without direct commands that queues one has this one on a link. -/
theorem Idle.tracks {queued : Client ω} {server seq : Nat} {command : Command}
    (hidle : client.Idle) (hapart : client.Apart)
    (hqueue : client.queue server command.request command.expect = .ok (seq, .direct, queued)) :
    queued.Tracks (client.nextTicket command).slot := by
  have hperm := Step.directs hapart (.queued hqueue)
  obtain ⟨_, _, _, -, -, -, hdelivery, hqueued⟩ := queue_cases hqueue
  have hslot : direct [(client.nextTicket command).slot] = [(client.nextTicket command).slot] :=
    List.filter_cons_of_pos (decide_eq_true hdelivery.symm)
  rw [hidle.directs] at hperm
  change (direct [(client.nextTicket command).slot]).Perm (queued.directs ++ []) at hperm
  rw [hslot, List.append_nil] at hperm
  refine .waits (List.singleton_perm.mp hperm).symm ?_
  rw [hqueued]
  exact hidle.ledger

/-- A call that waits for its command settles it. -/
theorem Idle.settles {queued : Client ω} {server seq : Nat} {command : Command}
    (hidle : client.Idle) (hapart : client.Apart)
    (hqueue : client.queue server command.request command.expect = .ok (seq, .direct, queued))
    (deadline : Nat) : queued.Settles (client.nextTicket command).slot deadline :=
  (hidle.tracks hapart hqueue).settles (Step.apart hapart (.queued hqueue)) deadline

/-- Replacing the list of servers leaves no direct commands where there were none. -/
theorem Idle.installed {after : Client ω} {addresses : List ServerAddress} (hidle : client.Idle)
    (hapart : client.Apart) (hinstall : client.installServers addresses = .ok after) :
    after.Idle := by
  obtain ⟨_, driven, hdrives, hplaced, -⟩ := installServers_drives hinstall
  obtain ⟨hdriven, hapart⟩ := hidle.drives hapart hdrives
  exact hdriven.step hapart hplaced rfl

/-- **Every call leaves nothing behind.** -/
theorem Performs.idle {after : Client ω} {call : Call} (hidle : client.Idle)
    (hapart : client.Apart) (hperforms : client.Performs call after) : after.Idle := by
  cases hperforms with
  | refused | switched | timed | sunk => exact hidle.congr rfl rfl
  | queued hqueue =>
      obtain ⟨_, _, _, -, -, -, hdelivery, -⟩ := queue_cases hqueue
      refine hidle.step hapart (.queued hqueue) (List.filter_cons_of_neg ?_)
      simp [nextTicket, Ledger.slotFor, ← hdelivery]
  | awaited hqueue =>
      have hsettles := hidle.settles hapart hqueue
      obtain ⟨_, _, _, -, -, rfl, -, -⟩ := queue_cases hqueue
      exact (hsettles _).idle
  | flushed timeout =>
      obtain ⟨_, driven, hdrives, -, hends⟩ := client.flush_cases timeout
      have hdriven := (hidle.drives hapart hdrives).1
      rcases hends with ⟨_, -, hflush⟩ | ⟨-, hflush⟩
      · rw [hflush]
        exact hdriven
      · rw [hflush]
        exact hdriven.congr rfl rfl
  | reset =>
      refine ⟨List.eq_nil_iff_forall_not_mem.mpr fun slot hmem => ?_, hidle.ledger⟩
      have hold := (directs_abandoned (links_dropBuffered client.pool.links) hmem).1
      rw [hidle.directs] at hold
      cases hold
  | installed hinstall => exact hidle.installed hapart hinstall

/-- Nothing is left of direct commands between any two calls. -/
theorem Session.idle {net : ω} {config : Config} {start : Client ω} {books : Books}
    (hconfig : withConfig net config = .ok start) (hsession : start.Session books client) :
    client.Idle := by
  induction hsession with
  | opened =>
      obtain ⟨-, addresses, -, hinstall⟩ := withConfig_installs hconfig
      exact @Idle.installed ω _ (blank config.timeouts config.buffering net) start _ ⟨rfl, rfl⟩
        List.nodup_nil hinstall
  | @called _ client hsession net call ih =>
      have hnow : Idle { client with net } := ih.congr rfl rfl
      exact Performs.idle hnow (Session.agrees hconfig hsession).apart (performs _ call)

/-! ## What a data operation gives -/

/-- A command that is refused fails with neither a timeout nor an error about the shape of a
reply. -/
theorem Refuses.plain {command : Command} {error : ClientError}
    (hrefuses : Refuses command error) :
    error ≠ .timeout ∧ ∀ opcode, error ≠ .protocol (.unexpectedReply opcode) := by
  cases hrefuses with
  | invalid hinvalid =>
      refine ⟨fun hsame => (nomatch hsame), ?_⟩
      rintro opcode hsame
      cases hsame
      unfold Request.validate at hinvalid
      repeat' split at hinvalid
      all_goals cases hinvalid
  | unrouted | excluded => exact ⟨fun hsame => (nomatch hsame), fun _ hsame => nomatch hsame⟩

/-- What a data operation returns can be read, and it times out only if it waits for its
command. -/
theorem Idle.issue (hidle : client.Idle) (hapart : client.Apart) (command : Command)
    (timeout : Option Nat) :
    (∀ output, (client.issue command timeout).1 = .ok (.ready output) →
      command.expect.suits output = true) ∧
    (∀ opcode, (client.issue command timeout).1 ≠ .error (.protocol (.unexpectedReply opcode))) ∧
    ((client.issue command timeout).1 = .error .timeout →
      ∃ server queued, client.queue server command.request command.expect
          = .ok (client.ledger.nextSeq, .direct, queued) ∧
        (queued.await client.ledger.nextSeq (client.deadlineOf timeout)).1 = .error .timeout) := by
  rcases issue_cases client command timeout with
    ⟨error, hrefuses, hissue⟩ |
      ⟨server, seq, delivery, queued, hqueue, ⟨rfl, hissue⟩ | ⟨rfl, hissue⟩⟩
  · rw [hissue]
    refine ⟨fun _ hready => (nomatch hready), fun opcode hfailed => ?_, fun htimeout => ?_⟩
    · exact hrefuses.plain.2 opcode (Except.error.inj hfailed)
    · exact absurd (Except.error.inj htimeout) hrefuses.plain.1
  · rw [hissue]
    exact ⟨fun _ hready => (nomatch hready), fun _ hfailed => (nomatch hfailed),
      fun htimeout => (nomatch htimeout)⟩
  · have hsettles := hidle.settles hapart hqueue (client.deadlineOf timeout)
    obtain ⟨_, _, _, -, -, rfl, -, -⟩ := queue_cases hqueue
    rw [hissue]
    exact ⟨hsettles.admits, hsettles.shaped, fun htimeout => ⟨server, queued, hqueue, htimeout⟩⟩

omit [Network ω] in
/-- Reading an output of the right shape fails only as the command fails. -/
theorem outcomeOf_readReply_failed {α : Type} {opcode : Opcode} {extract : Output → Option α}
    {outcome : Except ClientError (Reply Output) × Client ω} {error : ClientError}
    (hextract : ∀ output, outcome.1 = .ok (.ready output) → (extract output).isSome = true)
    (hfailed : (outcomeOf (readReply opcode extract outcome)).1 = .failed error) :
    outcome.1 = .error error := by
  rcases outcome with ⟨other | output | _, after⟩
  · cases hfailed
    rfl
  · obtain ⟨value, hvalue⟩ := Option.isSome_iff_exists.mp (hextract output rfl)
    simp only [readReply, hvalue, outcomeOf] at hfailed
    cases hfailed
  · cases hfailed

/-- A data operation fails as its command fails: its output has the shape that is read. -/
theorem Idle.perform (hidle : client.Idle) (hapart : client.Apart) {command : Command}
    {timeout : Option Nat} {error : ClientError}
    (hfailed : (client.perform (.issue command timeout)).1 = .failed error) :
    (client.issue command timeout).1 = .error error := by
  have hsuits := (hidle.issue hapart command timeout).1
  cases command <;>
    refine outcomeOf_readReply_failed (fun output hready => ?_) hfailed <;>
    · have hshape := hsuits output hready
      cases output <;> first | rfl | cases hshape

/-- **Direct calls leave nothing behind.** Between any two calls no direct command waits on a
link and no result waits to be collected.  While a call waits for its command, this command is
in one place in each of its rounds: it waits on one link, or its result is there.  When the
target of the call is met the result is found and has the shape that the call reads, so that no
data operation fails over the shape of a reply; a call times out only when a round finds its
deadline passed and the command unanswered, and a result that a round finds is returned even
then. -/
theorem directs_settled {net : ω} {config : Config} {start client : Client ω} {books : Books}
    (hconfig : withConfig net config = .ok start) (hsession : start.Session books client) :
    client.Idle ∧
    ∀ (net : ω) (command : Command) (timeout : Option Nat),
      (∀ opcode, (({ client with net }).perform (.issue command timeout)).1
        ≠ .failed (.protocol (.unexpectedReply opcode))) ∧
      ((({ client with net }).perform (.issue command timeout)).1 = .failed .timeout →
        ∃ server queued pauses looked,
          ({ client with net }).queue server command.request command.expect
            = .ok (client.ledger.nextSeq, .direct, queued) ∧
          Rounds (.command client.ledger.nextSeq) (({ client with net }).deadlineOf timeout) queued
            pauses looked ∧
          ({ client with net }).deadlineOf timeout ≤ Network.now looked.net ∧
          looked.pushed.directs = [(client.nextTicket command).slot] ∧
          looked.pushed.ledger.direct = []) ∧
      ∀ server seq queued, ({ client with net }).queue server command.request command.expect
          = .ok (seq, .direct, queued) →
        ∀ deadline, queued.Settles (client.nextTicket command).slot deadline := by
  have hidle := Session.idle hconfig hsession
  have hapart := (Session.agrees hconfig hsession).apart
  refine ⟨hidle, fun net command timeout => ?_⟩
  have hnow : Idle { client with net } := hidle.congr rfl rfl
  obtain ⟨-, hshaped, htimeout⟩ := hnow.issue hapart command timeout
  refine ⟨fun opcode hfailed => hshaped opcode (hnow.perform hapart hfailed), fun hfailed => ?_,
    fun server seq queued hqueue => hnow.settles hapart hqueue⟩
  obtain ⟨server, queued, hqueue, hawait⟩ := htimeout (hnow.perform hapart hfailed)
  obtain ⟨pauses, looked, hrounds, hlate, hdirects, hresults⟩ :=
    (hnow.settles hapart hqueue _).late hawait
  exact ⟨server, queued, pauses, looked, hqueue, hrounds, hlate, hdirects, hresults⟩

/-- The first round trip of a client is settled. -/
theorem directs_settled_ping : (Script.mk 0 [] []).opened.Idle ∧
    ∀ deadline, (Script.mk 0 [] []).queued.Settles Script.ping.slot deadline := by
  obtain ⟨hidle, hcalls⟩ := directs_settled (Script.withConfig_opened (Script.mk 0 [] [])) .opened
  obtain ⟨-, -, hsettles⟩ := hcalls (Script.mk 0 [] []) (.noop 0) none
  exact ⟨hidle, hsettles 0 0 _ (Script.queue_ping _)⟩

end Client

end CachePool
