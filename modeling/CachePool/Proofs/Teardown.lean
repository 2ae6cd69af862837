/-
# What a loss costs

A link is torn down for one of many reasons: in the middle of a read whose first replies
have ended commands, at a deadline, or because its server leaves the list.  Whatever the
reason, what the loss adds to the trace comes after all that happened in the same step, and
it ends the commands that the link still carries at that moment: each of them once, and
none that was given up.

* `Link.Costs` : how the commands of a link end when it is torn down;
* `Link.Step.teardown` : a step that tears a link down, taken apart;
* `Client.Tears` : such a step of a client;
* `Client.Step.keeps_open` : a socket is closed only by tearing its link down;
* `Client.teardown_exact` : every command that a loss costs ends once.
-/
import CachePool.Proofs.Lines
import CachePool.Proofs.Script
import CachePool.Proofs.Standing

namespace CachePool

/-! ## The commands of a link that is torn down -/

/-- How the commands of a link end when it is torn down. -/
structure Link.Costs (link : Link) (failure : Failure) (ended : List Finished) : Prop where
  /-- Just those end that someone waits for, written ones first, each queue in its order. -/
  slots : ended.map (·.slot) = (link.awaiting ++ link.unsent).filter Slot.isLive
  server : ∀ finished ∈ ended, finished.server = link.server.index
  /-- A refused frame is reported to the first of them, -/
  refused : ∀ error, failure = .protocol error →
    ∀ first ∈ ended.head?, first.result = .error (.protocol error)
  /-- and to the others that the connection is lost. -/
  others : ∀ finished ∈ ended.tail,
    finished.result = .error (.connection link.server.address.text failure.message)
  /-- After any other failure the first of them is told this, too. -/
  first : (∀ error, failure ≠ .protocol error) → ∀ first ∈ ended.head?,
    first.result = .error (.connection link.server.address.text failure.message)
  retryable :
    (ClientError.connection link.server.address.text failure.message).isRetryable = true

namespace Link

/-- Commands that end with one error, each with its slot. -/
theorem map_slot_finishLive (link : Link) (error : ClientError) {slots : List Slot}
    (hlive : ∀ slot ∈ slots, slot.isLive = true) :
    (link.finishLive error slots).map (·.slot) = slots := by
  rw [finishLive, List.filter_eq_self.mpr hlive, List.map_map]
  exact List.map_id _

/-- What such a command gets. -/
theorem of_mem_finishLive {link : Link} {error : ClientError} {slots : List Slot}
    {finished : Finished} (hmem : finished ∈ link.finishLive error slots) :
    finished.server = link.server.index ∧ finished.result = .error error := by
  obtain ⟨slot, -, rfl⟩ := List.mem_map.mp hmem
  exact ⟨rfl, rfl⟩

/-- The live slots of a link that is torn down end so. -/
theorem costs_casualties (link : Link) (failure : Failure) :
    link.Costs failure (link.casualties failure) := by
  unfold casualties
  split
  · rename_i hnone
    refine ⟨hnone.symm, ?_, ?_, ?_, ?_, rfl⟩ <;> simp
  · rename_i first others hsome
    have hlive : ∀ slot ∈ first :: others, slot.isLive = true := by
      intro slot hmem
      rw [← hsome] at hmem
      exact (List.mem_filter.mp hmem).2
    have hsingle : link.finishLive (link.firstError failure) [first]
        = [{ server := link.server.index, slot := first
             result := .error (link.firstError failure) }] := by
      rw [finishLive, List.filter_cons_of_pos (hlive first List.mem_cons_self)]
      rfl
    rw [hsingle, List.singleton_append]
    refine ⟨?_, ?_, ?_, fun finished hmem => (of_mem_finishLive hmem).2, ?_, rfl⟩
    · rw [List.map_cons, hsome]
      exact congrArg (first :: ·)
        (link.map_slot_finishLive _ fun slot hmem => hlive slot (List.mem_cons_of_mem _ hmem))
    · intro finished hmem
      rcases List.mem_cons.mp hmem with rfl | hmem
      · rfl
      · exact (of_mem_finishLive hmem).1
    · rintro error rfl finished hmem
      cases hmem
      rfl
    · intro hother finished hmem
      cases hmem
      cases failure with
      | protocol error => exact absurd rfl (hother error)
      | _ => rfl

end Link

/-! ## Steps that tear a link down -/

/-- A place of a command that was given up is taken. -/
theorem Trace.mem_places_of_gives {trace : Trace} {incident : Incident} {seq : Nat}
    (hmem : incident ∈ trace) (hgives : incident.GivesUp seq) :
    seq ∈ trace.endings.map (·.slot.seq) ++ trace.drops.map (·.seq) := by
  cases incident with
  | ended finished =>
      obtain ⟨rfl, -⟩ := hgives
      exact List.mem_append_left _ (List.mem_map.mpr
        ⟨finished, mem_endings.mpr hmem, rfl⟩)
  | dropped slot =>
      obtain rfl : slot.seq = seq := hgives
      exact List.mem_append_right _ (List.mem_map.mpr
        ⟨slot, mem_drops.mpr hmem, rfl⟩)
  | _ => cases hgives

namespace Link

/-- A link that is torn down for a reason, after some of its commands may have ended in the
same step. -/
structure Teardown (trace : Trace) (link : Link) (matched : Trace) (losing : Link)
    (failure : Failure) (after : Link) : Prop where
  server : losing.server = link.server
  token : losing.token = link.token
  /-- Those someone waited for have ended in the step, or they wait still. -/
  before : link.waiting.Perm (endedSlots matched.endings ++ losing.waiting)
  /-- Those that have ended were answered. -/
  replied : ∀ finished ∈ matched.endings, ∃ response,
    .answered losing.line finished.slot.seq response ∈ matched ∧
      finished.slot.accept response = .final finished.result
  /-- Those that are abandoned were given up. -/
  gone : ∀ slot ∈ losing.awaiting ++ losing.unsent, slot.isLive = false →
    slot.seq ∈ (trace ++ matched).endings.map (·.slot.seq) ++ (trace ++ matched).drops.map (·.seq)
  /-- Only a connected link refuses frames. -/
  connected : ∀ error, failure = .protocol error → ∃ socket, losing.phase = .connected socket
  /-- The link is left on its line, empty and without a socket. -/
  line : after.line = losing.line
  phase : after.phase = if failure = .removed then .disconnected else .dead
  empty : after.unsent = [] ∧ after.awaiting = [] ∧ after.outbound = [] ∧ after.inbound = []

variable {ω : Type} [Network ω] {now : Nat} {timeouts : Timeouts} {link after : Link}
  {net last : ω} {incidents trace : Trace} {done waiting queued : List Ticket}

/-- The abandoned slots of a link were given up before. -/
theorem Converses.given_up {more : Trace} (hconverses : link.Converses trace done waiting queued) :
    ∀ slot ∈ link.awaiting ++ link.unsent, slot.isLive = false →
      slot.seq ∈ (trace ++ more).endings.map (·.slot.seq) ++ (trace ++ more).drops.map (·.seq) := by
  intro slot hmem habandoned
  obtain ⟨before, incident, behind, rfl, hgives, -⟩ :=
    hconverses.marked slot (List.mem_append.mpr (List.mem_append.mp hmem).symm)
      (by simpa [Slot.isLive] using habandoned)
  exact Trace.mem_places_of_gives
    (List.mem_append_left _ (List.mem_append_right _ List.mem_cons_self)) hgives

/-- Those that a failing link carries were given up before, or between the replies of the
same read. -/
theorem Loses.given_up {losing : Link} {failure : Failure}
    (hvalid : ∀ ticket ∈ trace.tickets, ticket.Valid)
    (htickets : (trace.tickets.map (·.slot.seq)).Nodup)
    (hconverses : link.Converses trace done waiting queued)
    (hloses : Loses now timeouts link net incidents losing failure last) :
    ∀ slot ∈ losing.awaiting ++ losing.unsent, slot.isLive = false →
      slot.seq ∈ (trace ++ incidents).endings.map (·.slot.seq)
        ++ (trace ++ incidents).drops.map (·.seq) := by
  cases hloses with
  | refusing hphase hread hlooked hframes hanswers hwhy =>
      obtain ⟨-, ⟨done', waiting', htalks⟩, -⟩ :=
        hconverses.answers hvalid htickets (socket_ne_none hphase) hframes hanswers
      intro slot hmem habandoned
      obtain ⟨before, incident, behind, hsplit, hgives, -⟩ :=
        htalks.marked slot (List.mem_append.mpr (List.mem_append.mp hmem).symm)
          (by simpa [Slot.isLive] using habandoned)
      refine @Trace.mem_places_of_gives _ incident _ ?_ hgives
      show incident ∈ trace ++ (hearing link.line _ _ ++ _)
      rw [hsplit]
      exact List.mem_append_right _ List.mem_cons_self
  | _ => exact hconverses.given_up

/-- A command that ends while replies are given was answered. -/
theorem Answers.replied {responses : List Response} {last : Link}
    (hanswers : Answers link responses incidents last) :
    ∀ finished ∈ incidents.endings, ∃ response,
      .answered link.line finished.slot.seq response ∈ incidents ∧
        finished.slot.accept response = .final finished.result := by
  induction hanswers with
  | nil =>
      intro _ hmem
      cases hmem
  | @cons link next last slot queue response responses ended incidents hqueue hmatch hothers ih =>
      have hline : next.line = link.line := by
        rw [matchReply_eq hmatch]
        rfl
      intro finished hmem
      rw [Trace.endings_append, Trace.endings_cons, Trace.endings_map_ended,
        List.mem_append] at hmem
      rcases hmem with hmem | hmem
      · obtain ⟨-, -, ⟨more, -, rfl, -⟩ | ⟨result, haccept, -, rfl⟩⟩ :=
          matchReply_cases hqueue hmatch
        · cases hmem
        · by_cases hlive : slot.isLive = true
          · rw [if_pos hlive] at hmem
            cases List.mem_singleton.mp hmem
            exact ⟨response, List.mem_cons_self, haccept⟩
          · rw [if_neg hlive] at hmem
            cases hmem
      · obtain ⟨response, hmember, haccept⟩ := ih finished hmem
        rw [hline] at hmember
        exact ⟨response, List.mem_append_right _ hmember, haccept⟩

/-- What ends before a loss in the same step was answered. -/
theorem Loses.replied {losing : Link} {failure : Failure}
    (hloses : Loses now timeouts link net incidents losing failure last) :
    ∀ finished ∈ incidents.endings, ∃ response,
      .answered losing.line finished.slot.seq response ∈ incidents ∧
        finished.slot.accept response = .final finished.result := by
  cases hloses with
  | @refusing _ octets ending _ _ _ _ _ _ _ _ _ _ hanswers =>
      have hline : losing.line = link.line := by
        rw [hanswers.eq]
        rfl
      intro finished hmem
      rw [Trace.endings_append, Trace.endings_cons, endings_report] at hmem
      obtain ⟨response, hmember, haccept⟩ := hanswers.replied finished hmem
      rw [hline]
      exact ⟨response, List.mem_append_right _ hmember, haccept⟩
  | _ =>
      intro _ hmem
      cases hmem

/-- A frame is refused on a connected link. -/
theorem Loses.connected {losing : Link} {failure : Failure}
    (hloses : Loses now timeouts link net incidents losing failure last) (error : WireError)
    (hfailure : failure = .protocol error) : ∃ socket, losing.phase = .connected socket := by
  cases hloses with
  | refusing hphase _ _ _ hanswers =>
      rw [hanswers.eq]
      exact ⟨_, hphase⟩
  | _ => cases hfailure

/-- Only the first incident of a loss tears a link down. -/
theorem eq_of_mem_loss {losing : Link} {line : Line} {failure other : Failure}
    (hmem : .lost line failure ∈ losing.loss other) : line = losing.line ∧ failure = other := by
  rcases List.mem_cons.mp hmem with hsame | hmem
  · cases hsame
    exact ⟨rfl, rfl⟩
  · obtain ⟨finished, -, hsame⟩ := List.mem_map.mp hmem
    cases hsame

/-- **A step that tears a link down** ends the commands that the link carries then. -/
theorem Step.teardown {line : Line} {failure : Failure}
    (hvalid : ∀ ticket ∈ trace.tickets, ticket.Valid)
    (htickets : (trace.tickets.map (·.slot.seq)).Nodup)
    (hconverses : link.Converses trace done waiting queued)
    (hstep : link.Step now timeouts net incidents after last)
    (hlost : .lost line failure ∈ incidents) :
    ∃ losing matched, losing.line = line ∧ incidents = matched ++ losing.loss failure ∧
      link.Teardown trace matched losing failure after ∧
      ∃ middle, last = losing.closeSocket middle := by
  cases hstep with
  | @lost before losing other _ hloses =>
      rcases List.mem_append.mp hlost with hmem | hmem
      · exact absurd hmem (hloses.spares line failure)
      · obtain ⟨rfl, rfl⟩ := eq_of_mem_loss hmem
        obtain ⟨htoken, hserver, -⟩ := hloses.token
        obtain ⟨hwaiting, -⟩ := hloses.conserves
        refine ⟨losing, before, rfl, rfl, ⟨hserver, htoken, ?_, hloses.replied,
          hloses.given_up hvalid htickets hconverses, hloses.connected, rfl, ?_, rfl, rfl, rfl,
          rfl⟩, _, rfl⟩
        · rw [hwaiting, Link.waiting]
          refine List.perm_append_comm.trans ?_
          rw [List.append_assoc]
          exact List.perm_append_comm.append_left _
        · rw [if_neg hloses.ne_removed]
          rfl
  | retired =>
      obtain ⟨rfl, rfl⟩ := eq_of_mem_loss hlost
      refine ⟨link, [], rfl, rfl, ⟨rfl, rfl, .refl _, ?_, hconverses.given_up, ?_, rfl, rfl, rfl,
        rfl, rfl, rfl⟩, net, rfl⟩
      · intro _ hmem
        cases hmem
      · intro _ hfailure
        cases hfailure
  | received _ _ _ hanswers =>
      rcases List.mem_cons.mp hlost with hsame | hmem
      · cases hsame
      · exact absurd hmem (hanswers.spares line failure)
  | expired target => cases target <;> simp [expiry] at hlost
  | _ => simp at hlost

/-- A step closes the socket of a link only by tearing it down. -/
theorem Step.keeps_open (hstep : link.Step now timeouts net incidents after last)
    (hopen : link.phase.socket? ≠ none) :
    after.phase.socket? = link.phase.socket? ∧ after.line = link.line ∨
      ∃ failure, .lost link.line failure ∈ incidents := by
  cases hstep with
  | opened hidle => exact absurd hidle hopen
  | shortCircuited hidle => exact absurd hidle hopen
  | established hphase =>
      rw [hphase]
      exact .inl ⟨rfl, rfl⟩
  | received _ _ _ hanswers =>
      rw [hanswers.eq]
      exact .inl ⟨rfl, rfl⟩
  | retired => exact .inr ⟨.removed, List.mem_cons_self⟩
  | @lost before losing failure _ hloses =>
      refine .inr ⟨failure, List.mem_append_right _ ?_⟩
      have hline : losing.line = link.line := by
        cases hloses with
        | unresolved hidle => exact absurd hidle hopen
        | unopened hidle => exact absurd hidle hopen
        | refusing _ _ _ _ hanswers =>
            rw [hanswers.eq]
            rfl
        | _ => rfl
      rw [← hline]
      exact List.mem_cons_self
  | _ => exact .inl ⟨rfl, rfl⟩

end Link

/-! ## A stream that is no stream of frames -/

namespace Script

/-- The second command, another round trip. -/
def second : Ticket :=
  trip false 1

/-- The link when the frame of the first command is taken and the second one is queued. -/
def pairLink (clock : Nat) : Link :=
  (waitingLink clock false).enqueue second.request second.slot

/-- The client then. -/
def pair (script : Script) : Client Script :=
  holding script (entered false 2) (pairLink script.clock) script.opened.log

/-- **A command waits, and another is queued behind it.** -/
theorem reaches_pair (script : Script) :
    script.opened.Reaches (writing ++ [.issued second]) script.pair :=
  script.reaches_wrote.step
    (@Client.Step.queued _ _ script.wrote 0 1 (.noop 0) .direct script.pair rfl)

/-- Octets that are no frame. -/
def garbage : Bytes :=
  List.replicate headerLength 0

theorem split_garbage : Response.kind.split garbage
    = { frames := [], rest := garbage, fault := some (.badMagic 0) } :=
  Response.kind.split_of_error rfl

/-- The link of the two commands is torn down when its socket gives such octets. -/
theorem step_garbage (clock : Nat) (waits : List PollOutcome) :
    (pairLink clock).Step clock Config.default.timeouts (Script.mk clock [.data garbage] waits)
      (.gave wire garbage :: (pairLink clock).loss (.protocol (.badMagic 0)))
      (((pairLink clock).receiving garbage).torn clock) (Script.mk clock [] waits) := by
  have hcut : Response.kind.split ((pairLink clock).receiving garbage).inbound
      = { frames := [], rest := garbage, fault := some (.badMagic 0) } := split_garbage
  have hloses := @Link.Loses.refusing _ _ clock Config.default.timeouts (pairLink clock)
    (Script.mk clock [.data garbage] waits) 0 garbage .drained (Script.mk clock [] waits) [] [] []
    ((pairLink clock).receiving garbage) (.protocol (.badMagic 0)) rfl
    (readAll_eq garbage 0 clock waits) (fun _ hsame => nomatch hsame) (by rw [hcut]; rfl)
    (.nil _) (by rw [hcut]; exact .malformed)
  exact .lost hloses

end Script

/-! ## Clients -/

namespace Client

variable {ω : Type} [Network ω]

/-- A step of a client that tears a link down: the link before and after the step and at the
moment of the loss, what happened on it before, and the commands that the loss ends. -/
structure Tears (trace : Trace) (client : Client ω) (incidents : Trace) (after : Client ω)
    (line : Line) (failure : Failure) (losing : Link) (matched : Trace) (ended : List Finished) :
    Prop where
  /-- The other links stay as they are, and so do their commands. -/
  links : ∃ front link last back, client.pool.links = front ++ link :: back ∧
    after.pool.links = front ++ last :: back ∧ link.Teardown trace matched losing failure last
  onLine : losing.line = line
  /-- The loss comes last. -/
  split : incidents = matched ++ .lost line failure :: ended.map .ended
  costs : losing.Costs failure ended
  /-- The socket is closed. -/
  closed : ∃ net, after.net = losing.closeSocket net
  /-- The results are kept for those who wait for them. -/
  ledger : after.ledger = client.ledger.absorb incidents.endings

/-- A step of a client that tears a link down is one of this link. -/
theorem Step.tears {timeouts : Timeouts} {buffering : Bool} {net : ω} {trace incidents : Trace}
    {client after : Client ω} {line : Line} {failure : Failure}
    (hreach : (blank timeouts buffering net).Reaches trace client)
    (hstep : client.Step incidents after) (hlost : .lost line failure ∈ incidents) :
    ∃ losing matched ended,
      client.Tears trace incidents after line failure losing matched ended := by
  cases hstep with
  | move hmove =>
      cases hmove with
      | @link now front back before last _ next hlinks hlink =>
          obtain ⟨done, waiting, queued, hconverses⟩ :=
            hreach.links (Link.converses_invariant ω) before
              (List.mem_iff_append.mpr ⟨front, back, hlinks⟩)
          obtain ⟨losing, matched, rfl, rfl, htears, hclosed⟩ :=
            hlink.teardown hreach.ordered.valid hreach.ordered.nodup hconverses hlost
          exact ⟨losing, matched, losing.casualties failure,
            ⟨front, before, last, back, hlinks, rfl, htears⟩, rfl, rfl,
            losing.costs_casualties failure, hclosed, rfl⟩
      | waited => cases hlost
      | noted => cases hlost
  | queued => simp at hlost
  | collected => cases hlost
  | emptied => cases hlost
  | placed => cases hlost
  | adjusted => cases hlost

/-- **A socket is closed only by tearing its link down.** -/
theorem Step.keeps_open {incidents : Trace} {client after : Client ω} (hapart : client.Apart)
    (hstep : client.Step incidents after) {link : Link} (hlink : link ∈ client.pool.links)
    (hopen : link.phase.socket? ≠ none) :
    (∃ last ∈ after.pool.links,
      last.phase.socket? = link.phase.socket? ∧ last.line = link.line) ∨
      ∃ failure, .lost link.line failure ∈ incidents := by
  rcases hstep.follow hapart hlink with
    ⟨last, hlast, hline, hphase⟩ | ⟨_, _, last, hlast, hstep⟩ | hvacant
  · exact .inl ⟨last, hlast, congrArg _ hphase, hline⟩
  · exact (hstep.keeps_open hopen).imp_left fun hsame => ⟨last, hlast, hsame⟩
  · exact absurd hvacant.closed hopen

/-! ## Places that are taken -/

/-- A command that has ended ends no second time, is not given up and is waited for by nobody,
whatever happens later. -/
theorem Reaches.ended_once {timeouts : Timeouts} {buffering : Bool} {net : ω} {trace : Trace}
    {client : Client ω} (hreach : (blank timeouts buffering net).Reaches trace client)
    {finished : Finished} (hended : finished ∈ trace.endings) :
    (trace.endings.map (·.slot.seq)).count finished.slot.seq = 1 ∧
      finished.slot.seq ∉ trace.drops.map (·.seq) ∧
      finished.slot.seq ∉ client.waiting.map (·.seq) := by
  have hseq : finished.slot.seq ∈ trace.endings.map (·.slot.seq) := List.mem_map_of_mem hended
  obtain ⟨-, hplaces, hwaiting⟩ := List.nodup_append.mp hreach.nodup_places
  obtain ⟨hends, -, hdrops⟩ := List.nodup_append.mp hplaces
  exact ⟨List.count_eq_one_of_mem hends hseq, fun hmem => hdrops _ hseq _ hmem rfl,
    fun hmem => hwaiting _ hmem _ (List.mem_append_left _ hseq) rfl⟩

/-- A command whose place is taken ends no more. -/
theorem Reaches.ends_no_more {timeouts : Timeouts} {buffering : Bool} {net : ω}
    {trace more : Trace} {client : Client ω}
    (hreach : (blank timeouts buffering net).Reaches (trace ++ more) client) {seq : Nat}
    (htaken : seq ∈ trace.endings.map (·.slot.seq) ++ trace.drops.map (·.seq)) :
    seq ∉ more.endings.map (·.slot.seq) := by
  intro hmem
  have hplaces := (List.nodup_append.mp hreach.nodup_places).2.1
  rw [Trace.endings_append, Trace.drops_append, List.map_append, List.map_append] at hplaces
  obtain ⟨hends, -, hapart⟩ := List.nodup_append.mp hplaces
  rcases List.mem_append.mp htaken with hended | hdropped
  · exact (List.nodup_append.mp hends).2.2 _ hended _ hmem rfl
  · exact hapart _ (List.mem_append_right _ hmem) _ (List.mem_append_left _ hdropped) rfl

/-- What became of the commands of a link since it was torn down: those someone waited for have
ended once, in the loss, and nobody waits for them; those that were given up end no more. -/
structure Aftermath (past : Trace) (losing : Link) (ended : List Finished) (more : Trace)
    (later : Client ω) : Prop where
  live : ∀ slot ∈ losing.awaiting ++ losing.unsent, slot.isLive = true →
    (∃ finished ∈ ended, finished.slot = slot) ∧
      ((past ++ more).endings.map (·.slot.seq)).count slot.seq = 1 ∧
      slot.seq ∉ (past ++ more).drops.map (·.seq) ∧ slot.seq ∉ later.waiting.map (·.seq)
  abandoned : ∀ slot ∈ losing.awaiting ++ losing.unsent, slot.isLive = false →
    slot.seq ∉ ended.map (·.slot.seq) ∧ slot.seq ∉ more.endings.map (·.slot.seq)

/-- In such a step commands end before the loss, or in it. -/
theorem Tears.endings {trace incidents : Trace} {client after : Client ω} {line : Line}
    {failure : Failure} {losing : Link} {matched : Trace} {ended : List Finished}
    (htears : client.Tears trace incidents after line failure losing matched ended) :
    incidents.endings = matched.endings ++ ended := by
  rw [htears.split, Trace.endings_append, Trace.endings_cons, Trace.endings_map_ended]
  rfl

/-- Nothing that happens later changes what became of the commands. -/
theorem Tears.aftermath {timeouts : Timeouts} {buffering : Bool} {net : ω}
    {trace incidents more : Trace} {client after later : Client ω} {line : Line}
    {failure : Failure} {losing : Link} {matched : Trace} {ended : List Finished}
    (htears : client.Tears trace incidents after line failure losing matched ended)
    (hreach : (blank timeouts buffering net).Reaches (trace ++ incidents ++ more) later) :
    later.Aftermath (trace ++ incidents) losing ended more := by
  obtain ⟨front, link, last, back, -, -, htorn⟩ := htears.links
  refine ⟨?_, ?_⟩
  · intro slot hmem hlive
    have hslot : slot ∈ ended.map (·.slot) := by
      rw [htears.costs.slots]
      exact List.mem_filter.mpr ⟨hmem, hlive⟩
    obtain ⟨finished, hended, rfl⟩ := List.mem_map.mp hslot
    refine ⟨⟨finished, hended, rfl⟩, hreach.ended_once ?_⟩
    rw [Trace.endings_append, Trace.endings_append, htears.endings]
    exact List.mem_append_left _ (List.mem_append_right _ (List.mem_append_right _ hended))
  · intro slot hmem habandoned
    have hgone := htorn.gone slot hmem habandoned
    rw [htears.split, List.append_assoc trace, List.append_assoc, List.cons_append,
      ← List.append_assoc trace] at hreach
    have hends := hreach.ends_no_more hgone
    rw [Trace.endings_cons, Trace.endings_append, Trace.endings_map_ended, List.map_append,
      List.map_append, List.mem_append, List.mem_append, not_or, not_or] at hends
    exact hends.2

/-- **Every command that a loss costs ends once.**  A step that tears a link down, for whatever
reason and whatever replies were matched before in the same step, ends just the live commands
that the link carries at that moment, written ones first.  When a reply was refused the first
of them gets this error; each other, and each after any other failure, gets a connection error
that names the server and may be retried.  Abandoned commands do not end, and the links to
other servers stay as they are.  The link is left without socket and commands.  Nothing that a
client does later ends one of these commands again or gives it up.  A socket is closed in no
other way, and all that calls do are such steps. -/
theorem teardown_exact {net : ω} {config : Config} {start client : Client ω} {trace : Trace}
    (hconfig : withConfig net config = .ok start) (hreach : start.Reaches trace client) :
    (∀ incidents after line failure, client.Step incidents after →
      .lost line failure ∈ incidents →
      ∃ losing matched ended,
        client.Tears trace incidents after line failure losing matched ended ∧
        ∀ more later, after.Reaches more later →
          later.Aftermath (trace ++ incidents) losing ended more) ∧
    (∀ incidents after, client.Step incidents after →
      ∀ link ∈ client.pool.links, link.phase.socket? ≠ none →
      (∃ last ∈ after.pool.links,
        last.phase.socket? = link.phase.socket? ∧ last.line = link.line) ∨
        ∃ failure, .lost link.line failure ∈ incidents) ∧
    ∀ call, ∃ incidents, client.Steps incidents (client.perform call).2 := by
  have hblank := reaches_withConfig hconfig hreach
  refine ⟨?_, ?_, ?_⟩
  · intro incidents after line failure hstep hlost
    obtain ⟨losing, matched, ended, htears⟩ := hstep.tears hblank hlost
    exact ⟨losing, matched, ended, htears, fun more later hlater =>
      htears.aftermath ((hblank.step hstep).trans hlater)⟩
  · intro incidents after hstep link hlink hopen
    exact hstep.keeps_open hblank.conserves.1 hlink hopen
  · exact client.steps_perform

/-- Octets that are no frame end the command that waits with this error, and the one behind it
with a connection error. -/
theorem teardown_exact_garbage :
    (Trace.endings (.gave Script.wire Script.garbage ::
        (Script.pairLink 0).loss (.protocol (.badMagic 0)))).map
          (fun finished => (finished.slot.seq, finished.result))
      = [(0, .error (.protocol (.badMagic 0))),
        (1, .error (.connection "127.0.0.1:11211" "protocol desync: bad magic byte 0x00"))] ∧
    ∃ after losing matched ended,
      Tears (Script.writing ++ [.issued Script.second])
        (Script.mk 0 [.data Script.garbage] []).pair
        (.gave Script.wire Script.garbage :: (Script.pairLink 0).loss (.protocol (.badMagic 0)))
        after Script.wire (.protocol (.badMagic 0)) losing matched ended ∧
      after.Aftermath (Script.writing ++ [.issued Script.second] ++
        .gave Script.wire Script.garbage :: (Script.pairLink 0).loss (.protocol (.badMagic 0)))
        losing ended [] := by
  have hstep := @Client.Step.only _ _ (Script.mk 0 [.data Script.garbage] []).pair _ _ _ _ _ rfl
    (Script.step_garbage 0 [])
  obtain ⟨htears, -, -⟩ := teardown_exact (Script.withConfig_opened _)
    (Script.mk 0 [.data Script.garbage] []).reaches_pair
  obtain ⟨losing, matched, ended, htorn, hafter⟩ := htears _ _ Script.wire
    (.protocol (.badMagic 0)) hstep (List.mem_cons_of_mem _ List.mem_cons_self)
  exact ⟨rfl, _, losing, matched, ended, htorn, hafter [] _ .start⟩

end Client

end CachePool
