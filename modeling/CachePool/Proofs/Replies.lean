/-
# Replies answer their own commands

Whatever octets a peer sends, a result that is computed from replies rests on replies to
its own command: each was the next frame of the socket that took the command's frame,
carried its tag and opcode, and came when the command was the first in line.  And what a
call returns as such a result is the result of the command it issued.

* `Link.Step.founded` : what a step of a link adds to the trace is founded;
* `Client.Reaches.founded` : and so is every trace;
* `Client.Reaches.kept` : results that wait to be collected are those of commands that ended;
* `Client.replies_sound` : results computed from replies rest on the right replies.
-/
import Mathlib.Data.List.Induction
import CachePool.Proofs.Hearing
import CachePool.Proofs.Script

namespace CachePool

/-! ## Errors that are no results -/

/-- An error of a frame or of its place in the stream, which no reply gives as a result. -/
def WireError.IsFault (error : WireError) : Prop :=
  ∀ length, error ≠ .badCounter length

/-- A fault is no result of a reply. -/
theorem WireError.IsFault.not_fromReply {error : WireError} (hfault : error.IsFault) :
    ¬ FromReply (.error (.protocol error)) := by
  intro hresult
  cases hresult with
  | badCounter length => exact hfault length rfl

/-- A limit of the protocol is a fault. -/
theorem Request.isFault_of_validate {request : Request} {error : WireError}
    (hvalidate : request.validate = .error error) : error.IsFault := by
  unfold validate at hvalidate
  repeat' split at hvalidate
  all_goals cases hvalidate
  all_goals
    intro _ hsame
    cases hsame

/-- A header without a frame length is a fault. -/
theorem Header.isFault_of_frameLength {header : Header} {magic : UInt8} {error : WireError}
    (hlength : header.frameLength magic = .error error) : error.IsFault := by
  unfold frameLength at hlength
  dsimp only at hlength
  repeat' split at hlength
  all_goals cases hlength
  all_goals
    intro _ hsame
    cases hsame

/-- Octets that are no frame of a response are a fault. -/
theorem Response.isFault_of_decode {buffer : Bytes} {error : WireError}
    (hdecode : kind.decode buffer = .error error) : error.IsFault := by
  unfold FrameKind.decode at hdecode
  split at hdecode
  · cases hdecode
  split at hdecode
  · rename_i hlength
    cases hdecode
    exact Header.isFault_of_frameLength hlength
  split at hdecode
  · cases hdecode
  dsimp only at hdecode
  split at hdecode
  · cases hdecode
    intro _ hsame
    cases hsame
  split at hdecode
  · rename_i hinterpret
    cases hinterpret
  · cases hdecode

/-- A stream of responses ends in faults only. -/
theorem Response.isFault_of_split {buffer : Bytes} {error : WireError}
    (hfault : (kind.split buffer).fault = some error) : error.IsFault := by
  induction buffer using FrameKind.split.induct kind with
  | case1 buffer other hdecode =>
      rw [kind.split_of_error hdecode] at hfault
      cases hfault
      exact isFault_of_decode hdecode
  | case2 buffer hdecode =>
      rw [kind.split_of_incomplete hdecode] at hfault
      cases hfault
  | case3 buffer value length hdecode ih =>
      rw [kind.split_of_frame hdecode] at hfault
      exact ih hfault

namespace Link

variable {ω : Type} [Network ω] {now : Nat} {timeouts : Timeouts} {link after : Link}
  {net last : ω} {trace incidents : Trace} {done waiting queued : List Ticket}

/-- A reply that does not fit is a fault. -/
theorem isFault_of_matchReply {response : Response} {error : WireError}
    (hmatch : link.matchReply response = .error error) : error.IsFault := by
  unfold matchReply at hmatch
  repeat' split at hmatch
  all_goals cases hmatch
  all_goals
    intro _ hsame
    cases hsame

/-- A failure whose reason is no result of a reply. -/
def NoResult (failure : Failure) : Prop :=
  ∀ error, failure = .protocol error → error.IsFault

/-- No link is torn down for what is the result of a reply. -/
theorem Loses.noResult {losing : Link} {failure : Failure}
    (hloses : Loses now timeouts link net incidents losing failure last) : NoResult failure := by
  intro error hfailure
  cases hloses with
  | @refusing _ _ _ _ _ _ _ _ _ _ _ _ _ _ hwhy =>
      subst hfailure
      generalize hcut : (Response.kind.split (link.receiving _).inbound).fault = fault at hwhy
      cases hwhy with
      | mismatch hmatch => exact isFault_of_matchReply hmatch
      | malformed => exact Response.isFault_of_split hcut
  | _ => cases hfailure

/-- Commands that end by an error which no reply gives are founded. -/
theorem founded_finishLive {error : ClientError} (herror : ¬ FromReply (.error error))
    (link : Link) (slots : List Slot) :
    Trace.Each Incident.Founded trace ((link.finishLive error slots).map .ended) := by
  apply Trace.each_of_forall
  intro incident hmem before
  obtain ⟨finished, hfinished, rfl⟩ := List.mem_map.mp hmem
  obtain ⟨slot, -, rfl⟩ := List.mem_map.mp hfinished
  exact fun hresult => absurd hresult herror

/-- The commands that a failure costs are founded. -/
theorem founded_loss {failure : Failure} (hfailure : NoResult failure) (link : Link) :
    Trace.Each Incident.Founded trace (link.loss failure) := by
  refine ⟨trivial, ?_⟩
  have hconnection : ¬ FromReply (.error (link.connectionError failure.message)) :=
    fun hresult => nomatch hresult
  have hfirst : ¬ FromReply (.error (link.firstError failure)) := by
    cases failure with
    | protocol error => exact (hfailure error rfl).not_fromReply
    | _ => exact hconnection
  unfold casualties
  split
  · trivial
  · rw [List.map_append]
    exact (founded_finishLive hfirst link _).append (founded_finishLive hconnection link _)

/-! ## Founded traces -/

/-- What a loss adds to the trace is founded. -/
theorem Loses.founded {losing : Link} {failure : Failure}
    (hvalid : ∀ ticket ∈ trace.tickets, ticket.Valid)
    (htickets : (trace.tickets.map (·.slot.seq)).Nodup)
    (hconverses : link.Converses trace done waiting queued)
    (hloses : Loses now timeouts link net incidents losing failure last) :
    Trace.Each Incident.Founded trace incidents := by
  have hreported {line : Line} : Trace.Each Incident.Founded trace [.reported line] :=
    ⟨trivial, trivial⟩
  cases hloses with
  | refusing hphase hread hlooked hframes hanswers hwhy =>
      exact (hconverses.answers hvalid htickets (socket_ne_none hphase) hframes hanswers).1
  | unreadable => exact ⟨trivial, trivial, trivial⟩
  | unresponsive => exact ⟨trivial, trivial⟩
  | unresolved => trivial
  | unopened => trivial
  | late => trivial
  | refused => exact hreported
  | peerless => exact hreported
  | unwritable => exact hreported
  | stuck => exact hreported

/-- **What a step of a link adds to the trace is founded.** -/
theorem Step.founded (hvalid : ∀ ticket ∈ trace.tickets, ticket.Valid)
    (htickets : (trace.tickets.map (·.slot.seq)).Nodup)
    (hconverses : link.Converses trace done waiting queued)
    (hstep : link.Step now timeouts net incidents after last) :
    Trace.Each Incident.Founded trace incidents := by
  cases hstep with
  | quiet => trivial
  | opened => exact ⟨trivial, trivial⟩
  | established => exact ⟨trivial, trivial⟩
  | examined => exact ⟨trivial, trivial⟩
  | took =>
      refine ⟨trivial, Trace.each_of_forall fun incident hmem before => ?_⟩
      obtain ⟨slot, -, rfl⟩ := List.mem_map.mp hmem
      trivial
  | received hphase hread hfault hanswers =>
      exact (hconverses.received hvalid htickets (socket_ne_none hphase) hfault hanswers).1
  | lost hloses =>
      exact (hloses.founded hvalid htickets hconverses).append (founded_loss hloses.noResult _)
  | retired =>
      have hremoved : NoResult .removed := by
        intro _ hfailure
        cases hfailure
      exact founded_loss hremoved link
  | shortCircuited =>
      have hdead : ¬ FromReply (.error link.deadError) := by
        intro hresult
        cases hresult
      exact founded_finishLive hdead link _
  | expired target =>
      cases target with
      | command seq =>
          apply Trace.each_of_forall
          intro incident hmem before
          obtain ⟨slot, -, rfl⟩ := List.mem_map.mp hmem
          trivial
      | allBuffered =>
          have htimeout : ¬ FromReply (.error .timeout) := by
            intro hresult
            cases hresult
          exact founded_finishLive htimeout _ _
  | discarded =>
      apply Trace.each_of_forall
      intro incident hmem before
      obtain ⟨slot, -, rfl⟩ := List.mem_map.mp hmem
      trivial

end Link

namespace Trace

variable {holds : Trace → Incident → Prop} {before first second trace : Trace}

/-- What stands first in a trace has the same incidents before it. -/
theorem Each.left (heach : Each holds before (first ++ second)) : Each holds before first := by
  induction first generalizing before with
  | nil => trivial
  | cons incident first ih => exact ⟨heach.1, ih heach.2⟩

/-- What a line gives next takes no reply back. -/
theorem replies_mono (first second : Trace) (line : Line) :
    first.replies line <+: (first ++ second).replies line := by
  rw [replies, replies, given_append]
  exact (Response.kind.frames_append _ _).map _

/-- The replies that were given to commands are the first ones of their line, each once. -/
theorem Each.answers_prefix (hfounded : Each Incident.Founded [] trace) (line : Line) :
    (trace.answers line).map (·.2) <+: trace.replies line := by
  induction trace using List.reverseRecOn with
  | nil => exact List.nil_prefix
  | append_singleton trace incident ih =>
      have hmono := replies_mono trace [incident] line
      have hsame (hnone : incident.answers line = []) :
          (answers (trace ++ [incident]) line).map (·.2)
            <+: replies (trace ++ [incident]) line := by
        rw [answers_append, answers_cons, hnone]
        show (answers trace line ++ []).map _ <+: _
        rw [List.append_nil]
        exact (ih hfounded.left).trans hmono
      cases incident with
      | answered other seq response =>
          by_cases hline : other = line
          · subst hline
            obtain ⟨_, _, _, -, hmatched⟩ := hfounded.of_split
            rw [answers_append, answers_cons, Incident.answers, if_pos rfl, List.map_append]
            exact hmatched.next.trans hmono
          · exact hsame (if_neg hline)
      | _ => exact hsame rfl

end Trace

namespace Client

variable {ω : Type} [Network ω]

/-- Every trace is founded, whatever the peers send. -/
theorem Reaches.founded {timeouts : Timeouts} {buffering : Bool} {net : ω} {trace : Trace}
    {client : Client ω} (hreach : (blank timeouts buffering net).Reaches trace client) :
    Trace.Each Incident.Founded [] trace := by
  induction hreach with
  | start => trivial
  | elapsed _ _ ih => exact ih
  | @step client after trace incidents hreach hstep ih =>
      apply ih.append
      rw [List.nil_append]
      cases hstep with
      | move hmove =>
          cases hmove with
          | link hlinks hlink =>
              obtain ⟨done, waiting, queued, hconverses⟩ :=
                hreach.links (Link.converses_invariant ω) _ (by
                  rw [hlinks]
                  exact List.mem_append_right _ List.mem_cons_self)
              exact hlink.founded hreach.ordered.valid hreach.ordered.nodup hconverses
          | waited => trivial
          | noted => trivial
      | queued => exact ⟨trivial, trivial⟩
      | _ => trivial

/-! ## Results that wait to be collected -/

omit [Network ω] in
/-- Every result that a ledger keeps is that of a command that ended. -/
def Kept (endings : List Finished) (ledger : Ledger) : Prop :=
  (∀ entry ∈ ledger.direct, ∃ finished ∈ endings,
      finished.slot.seq = entry.1 ∧ finished.result = entry.2) ∧
    ∀ entry ∈ ledger.completed, ∃ finished ∈ endings,
      finished.slot.seq = entry.1 ∧ finished.slot.opcode = entry.2.opcode ∧
        finished.slot.key = entry.2.key ∧ finished.result = entry.2.result

omit [Network ω] in
/-- More commands that end take no result away. -/
theorem Kept.mono {endings more : List Finished} {ledger : Ledger} (hkept : Kept endings ledger)
    (hsub : endings ⊆ more) : Kept more ledger := by
  constructor
  · intro entry hentry
    obtain ⟨finished, hmem, hfinished⟩ := hkept.1 entry hentry
    exact ⟨finished, hsub hmem, hfinished⟩
  · intro entry hentry
    obtain ⟨finished, hmem, hfinished⟩ := hkept.2 entry hentry
    exact ⟨finished, hsub hmem, hfinished⟩

omit [Network ω] in
/-- A ledger keeps the results of commands that end. -/
theorem Kept.absorb {endings finished : List Finished} {ledger : Ledger}
    (hkept : Kept endings ledger) : Kept (endings ++ finished) (ledger.absorb finished) := by
  induction finished generalizing endings ledger with
  | nil =>
      rw [List.append_nil]
      exact hkept
  | cons first others ih =>
      have hrecord : Kept (endings ++ [first]) (ledger.record first) := by
        have hfirst : first ∈ endings ++ [first] := List.mem_append_right _ List.mem_cons_self
        obtain ⟨hdirect, hcompleted⟩ := hkept.mono (List.subset_append_left endings [first])
        unfold Ledger.record
        dsimp only
        split
        · refine ⟨fun entry hentry => ?_, hcompleted⟩
          rcases List.mem_cons.mp hentry with rfl | hentry
          · exact ⟨first, hfirst, rfl, rfl⟩
          · exact hdirect entry hentry
        · refine ⟨hdirect, fun entry hentry => ?_⟩
          rcases List.mem_append.mp hentry with hentry | hentry
          · exact hcompleted entry hentry
          · rw [List.mem_singleton.mp hentry]
            exact ⟨first, hfirst, rfl, rfl, rfl, rfl⟩
      have hothers := ih hrecord
      rw [List.append_assoc] at hothers
      exact hothers

/-- Every result that waits to be collected is that of a command that ended. -/
theorem Reaches.kept {timeouts : Timeouts} {buffering : Bool} {net : ω} {trace : Trace}
    {client : Client ω} (hreach : (blank timeouts buffering net).Reaches trace client) :
    Kept trace.endings client.ledger := by
  induction hreach with
  | start => exact ⟨fun _ hentry => (nomatch hentry), fun _ hentry => nomatch hentry⟩
  | elapsed _ _ ih => exact ih
  | @step client after trace incidents _ hstep ih =>
      rw [Trace.endings_append]
      have hkept := ih.mono (List.subset_append_left trace.endings incidents.endings)
      cases hstep with
      | move hmove =>
          cases hmove with
          | link => exact ih.absorb
          | waited => exact hkept
          | noted => exact hkept
      | queued hqueue =>
          obtain ⟨_, _, _, -, -, -, -, rfl⟩ := queue_cases hqueue
          exact hkept
      | collected seq =>
          refine ⟨fun entry hentry => ?_, hkept.2⟩
          exact hkept.1 entry (List.mem_filter.mp hentry).1
      | emptied => exact ⟨hkept.1, fun _ hentry => nomatch hentry⟩
      | placed => exact hkept
      | adjusted => exact hkept

/-! ## Results that calls return -/

omit [Network ω] in
/-- A call that fails has the error as its result. -/
theorem eq_error_of_map {result : Except ClientError Output} {error : ClientError}
    (hmap : .error error = result.map Reply.ready) : result = .error error := by
  cases result with
  | ok output => cases hmap
  | error other =>
      cases hmap
      rfl

omit [Network ω] in
/-- A call that succeeds has its output as its result. -/
theorem eq_ok_of_map {result : Except ClientError Output} {output : Output}
    (hmap : .ok (.ready output) = result.map Reply.ready) : result = .ok output := by
  cases result with
  | ok other =>
      cases hmap
      rfl
  | error error => cases hmap

/-- A wait ends with an error of its own only. -/
theorem not_fromReply_drive {target : Target} {deadline waits : Nat} {client : Client ω}
    {error : ClientError} (hdrive : (drive target deadline waits client).1 = .error error) :
    ¬ FromReply (.error error) := by
  obtain ⟨pauses, looked, left, last, -, hhalts, -⟩ := drive_rounds target deadline waits client
  intro hresult
  generalize drive target deadline waits client = result at hhalts hdrive
  cases hhalts with
  | met => cases hdrive
  | late =>
      cases target with
      | command seq =>
          cases hdrive
          cases hresult
      | allBuffered => cases hdrive
  | failed =>
      cases hdrive
      cases hresult
  | exhausted =>
      cases hdrive
      cases hresult

omit [Network ω] in
/-- A result that is found was kept. -/
theorem mem_of_lookup {ledger : Ledger} {seq : Nat} {result : Except ClientError Output}
    (hfound : ledger.direct.lookup seq = some result) : (seq, result) ∈ ledger.direct := by
  obtain ⟨front, back, hsplit, -⟩ := List.lookup_eq_some_iff.mp hfound
  rw [hsplit]
  exact List.mem_append_right _ List.mem_cons_self

/-- A result of a reply that a direct command returns was kept for it. -/
theorem await_result {client : Client ω} {seq deadline : Nat} {result : Except ClientError Output}
    (hresult : FromReply result) (hawait : (client.await seq deadline).1 = result.map .ready) :
    ∃ incidents driven, client.Drives (MayDrop (.command seq)) incidents driven ∧
      (client.await seq deadline).2 = { driven with ledger := (driven.ledger.takeDirect seq).2 } ∧
      (seq, result) ∈ driven.ledger.direct := by
  obtain ⟨incidents, hdrives⟩ :=
    drives_drive (.command seq) deadline (Network.pollLimit client.net) client
  rcases hrun : client.run (.command seq) deadline with ⟨error | ⟨⟨⟩⟩, driven⟩
  · rw [await_of_failed hrun] at hawait
    rw [eq_error_of_map hawait] at hresult
    exact absurd hresult (not_fromReply_drive (congrArg Prod.fst hrun))
  · have hdriven := congrArg Prod.snd hrun
    change (drive (.command seq) deadline (Network.pollLimit client.net) client).2 = driven at hdriven
    rw [hdriven] at hdrives
    refine ⟨incidents, driven, hdrives, snd_await_of_met hrun, mem_of_lookup ?_⟩
    cases hfound : driven.ledger.direct.lookup seq with
    | none =>
        unfold await at hawait
        rw [hrun] at hawait
        dsimp only [Ledger.takeDirect] at hawait
        rw [hfound] at hawait
        rw [eq_error_of_map hawait] at hresult
        cases hresult
    | some other =>
        rw [await_of_found hrun hfound] at hawait
        cases other with
        | error error => rw [eq_error_of_map hawait]
        | ok output => rw [eq_ok_of_map hawait]

omit [Network ω] in
/-- A command that is refused has no result of a reply. -/
theorem Refuses.not_fromReply {command : Command} {error : ClientError}
    (hrefuses : Refuses command error) : ¬ FromReply (.error error) := by
  cases hrefuses with
  | invalid hinvalid => exact (Request.isFault_of_validate hinvalid).not_fromReply
  | unrouted | excluded => exact fun hresult => nomatch hresult

/-- A data operation that returns a result of a reply queued its command and waited for
it. -/
theorem issue_result {client : Client ω} {command : Command} {timeout : Option Nat}
    {result : Except ClientError Output} (hresult : FromReply result)
    (hissue : (client.issue command timeout).1 = result.map .ready) :
    ∃ server seq queued,
      client.queue server command.request command.expect = .ok (seq, .direct, queued) ∧
      client.issue command timeout = queued.await seq (client.deadlineOf timeout) := by
  rcases issue_cases client command timeout with
    ⟨error, hrefuses, hrefused⟩ |
      ⟨server, seq, delivery, queued, hqueue, ⟨-, hqueued⟩ | ⟨rfl, hawait⟩⟩
  · rw [hrefused] at hissue
    rw [eq_error_of_map hissue] at hresult
    exact absurd hresult hrefuses.not_fromReply
  · rw [hqueued] at hissue
    cases result <;> cases hissue
  · exact ⟨server, seq, queued, hqueue, hawait⟩

/-- A data operation that returns a result of a reply issues its command, drives the links
until the result is kept for it, and collects the result. -/
theorem issue_steps {client : Client ω} {command : Command} {timeout : Option Nat}
    {result : Except ClientError Output} (hresult : FromReply result)
    (hissue : (client.issue command timeout).1 = result.map .ready) :
    ∃ incidents driven, client.Steps (.issued (client.nextTicket command) :: incidents) driven ∧
      driven.Step [] (client.issue command timeout).2 ∧
      (client.ledger.nextSeq, result) ∈ driven.ledger.direct := by
  obtain ⟨server, seq, queued, hqueue, hawait⟩ := issue_result hresult hissue
  rw [hawait] at hissue ⊢
  obtain ⟨incidents, driven, hdrives, hend, hmem⟩ := await_result hresult hissue
  obtain ⟨_, _, _, -, -, rfl, -, -⟩ := queue_cases hqueue
  refine ⟨incidents, driven, (Steps.single (.queued hqueue)).append hdrives.steps, ?_, hmem⟩
  rw [hend]
  exact .collected _

/-- The client after a data operation is reached by steps, and a result of a reply that it returns is
that of its own command. -/
theorem Reaches.issue {start client : Client ω} {trace : Trace} {command : Command}
    {timeout : Option Nat} {result : Except ClientError Output}
    (hkept : ∀ {trace client}, start.Reaches trace client → Kept trace.endings client.ledger)
    (hreach : start.Reaches trace client) (hresult : FromReply result)
    (hissue : (client.issue command timeout).1 = result.map .ready) :
    ∃ incidents, client.Steps incidents (client.issue command timeout).2 ∧
      start.Reaches (trace ++ incidents) (client.issue command timeout).2 ∧
      ∃ finished ∈ (trace ++ incidents).endings,
        finished.slot.seq = client.ledger.nextSeq ∧ finished.result = result := by
  obtain ⟨incidents, driven, hsteps, hcollected, hmem⟩ := issue_steps hresult hissue
  have hissued := hsteps.tail hcollected
  rw [List.append_nil] at hissued
  exact ⟨_, hissued, hreach.steps hissued, (hkept (hreach.steps hsteps)).1 _ hmem⟩

/-- The client after a flush is reached by steps, and what it returns are results of commands that
ended. -/
theorem Reaches.flush {start client : Client ω} {trace : Trace} {timeout : Option Nat}
    {completions : List Completion}
    (hkept : ∀ {trace client}, start.Reaches trace client → Kept trace.endings client.ledger)
    (hreach : start.Reaches trace client) (hflush : (client.flush timeout).1 = .ok completions) :
    ∃ incidents, client.Steps incidents (client.flush timeout).2 ∧
      start.Reaches (trace ++ incidents) (client.flush timeout).2 ∧
      ∀ completion ∈ completions, ∃ finished ∈ (trace ++ incidents).endings,
        finished.slot.opcode = completion.opcode ∧ finished.slot.key = completion.key ∧
          finished.result = completion.result := by
  obtain ⟨incidents, driven, hdrives, -, ⟨error, -, hfailed⟩ | ⟨-, hdone⟩⟩ :=
    flush_cases client timeout
  · rw [hfailed] at hflush
    cases hflush
  · have hflushed := hdrives.steps.tail .emptied
    rw [List.append_nil] at hflushed
    rw [hdone] at hflush ⊢
    cases hflush
    refine ⟨incidents, hflushed, hreach.steps hflushed, fun completion hmem => ?_⟩
    obtain ⟨entry, hentry, rfl⟩ := List.mem_map.mp hmem
    obtain ⟨finished, hfinished, -, hsame⟩ :=
      (hkept (hreach.steps hdrives.steps)).2 entry (List.mem_mergeSort.mp hentry)
    exact ⟨finished, hfinished, hsame⟩

/-! ## Soundness -/

/-- No command ends twice, and none that was given up without a result ends. -/
theorem Reaches.nodup_ends {timeouts : Timeouts} {buffering : Bool} {net : ω} {trace : Trace}
    {client : Client ω} (hreach : (blank timeouts buffering net).Reaches trace client) :
    (trace.endings.map (·.slot.seq) ++ trace.drops.map (·.seq)).Nodup :=
  (List.nodup_append.mp hreach.nodup_places).2.1

/-- **Replies are sound.** Whatever the peers send: every reply that is given to a command
is the next frame of its socket, carries the tag and the opcode of the command, and comes
when the frame of the command was wholly taken by this socket, all commands before it on
the socket were answered and the command was not.  A result that is computed from replies
is that of all replies to its own command.  No frame is used twice, and no command ends
twice or after it was given up.  What a call returns as a result of replies is the result
of the command it issued, and what a flush returns are results of commands that ended. -/
theorem replies_sound {net : ω} {config : Config} {start client : Client ω} {trace : Trace}
    (hconfig : withConfig net config = .ok start) (hreach : start.Reaches trace client) :
    (∀ (before : Trace) line seq response after,
      trace = before ++ .answered line seq response :: after →
      ∃ done ticket others, ticket.slot.seq = seq ∧
        before.Matched line response done ticket others) ∧
    (∀ (before : Trace) finished after, trace = before ++ .ended finished :: after →
      FromReply finished.result → ∃ line, ∃ ticket ∈ before.tickets,
        ticket.slot = finished.slot.original ∧
        ticket.slot.outcome? (before.answersTo line ticket.slot.seq) = some finished.result) ∧
    (∀ line, (trace.answers line).map (·.2) <+: trace.replies line) ∧
    (trace.endings.map (·.slot.seq) ++ trace.drops.map (·.seq)).Nodup ∧
    (∀ command timeout result, FromReply result →
      (client.issue command timeout).1 = result.map .ready →
      ∃ incidents, client.Steps incidents (client.issue command timeout).2 ∧
        start.Reaches (trace ++ incidents) (client.issue command timeout).2 ∧
        ∃ finished ∈ (trace ++ incidents).endings,
          finished.slot.seq = client.ledger.nextSeq ∧ finished.result = result) ∧
    ∀ timeout completions, (client.flush timeout).1 = .ok completions →
      ∃ incidents, client.Steps incidents (client.flush timeout).2 ∧
        start.Reaches (trace ++ incidents) (client.flush timeout).2 ∧
        ∀ completion ∈ completions, ∃ finished ∈ (trace ++ incidents).endings,
          finished.slot.opcode = completion.opcode ∧ finished.slot.key = completion.key ∧
            finished.result = completion.result := by
  have hblank := reaches_withConfig hconfig hreach
  have hfounded := hblank.founded
  have hkept {trace : Trace} {client : Client ω} (hreach : start.Reaches trace client) :
      Kept trace.endings client.ledger := (reaches_withConfig hconfig hreach).kept
  refine ⟨?_, ?_, hfounded.answers_prefix, hblank.nodup_ends, ?_, ?_⟩
  · rintro before line seq response after rfl
    exact hfounded.of_split
  · rintro before finished after rfl hresult
    exact hfounded.of_split hresult
  · intro command timeout result hresult hissue
    exact hreach.issue hkept hresult hissue
  · intro timeout completions hflush
    exact hreach.flush hkept hflush

/-- The first command ends with the result of its own reply. -/
theorem replies_sound_first :
    ∃ client, (Script.mk 0 [] []).opened.Reaches (Script.writing ++ Script.arrival false) client ∧
      (∃ done ticket others, ticket.slot.seq = 0 ∧
        Trace.Matched (Script.writing ++ [.gave Script.wire Script.pong.frame]) Script.wire
          Script.pong done ticket others) ∧
      ∃ line, ∃ ticket ∈ [Script.ping],
        ticket.slot.outcome? (Trace.answersTo (Script.writing ++ Script.arrival false) line 0)
          = some (.ok .done) := by
  obtain ⟨client, hreach, -⟩ := (Script.mk 0 [] []).reaches_answered 50
  obtain ⟨hmatched, hended, -⟩ := replies_sound (Script.withConfig_opened _) hreach
  obtain ⟨line, ticket, hticket, hslot, houtcome⟩ :=
    hended
      (Script.writing ++
        [.gave Script.wire Script.pong.frame, .answered Script.wire 0 Script.pong])
      { server := 0, slot := Script.ping.slot, result := .ok .done } [] rfl (.ok _)
  refine ⟨client, hreach, hmatched _ _ _ _ _ rfl, line, ticket, hticket, ?_⟩
  rw [hslot] at houtcome ⊢
  exact houtcome

end Client

end CachePool
