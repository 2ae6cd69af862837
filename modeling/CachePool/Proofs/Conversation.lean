/-
# Conversations

The replies on a line belong to the commands whose frames were written on it, in this
order.  A conversation splits these commands into those that are answered and those that
wait, and says which replies each of them has.

* `Slot.outcome?` : the result of a command, given all its replies;
* `Trace.Matched`, `Incident.Founded` : what a reply and a result rest on;
* `Trace.GaveUp`, `Trace.Settled` : how a command that is answered came to its end;
* `Trace.Spoken` : the conversation on a line.
-/
import CachePool.Proofs.Wire
import CachePool.Proofs.Conservation

namespace CachePool

/-! ## Commands and their replies -/

namespace Slot

/-- The slot after replies of which none was the last one. -/
def progress? (slot : Slot) : List Response → Option Slot
  | [] => some slot
  | response :: responses =>
    match slot.accept response with
    | .more next => next.progress? responses
    | .final _ => none

/-- The result of a command, when the last of some replies is its last one. -/
def outcome? (slot : Slot) : List Response → Option (Except ClientError Output)
  | [] => none
  | response :: responses =>
    match slot.accept response with
    | .more next => next.outcome? responses
    | .final result => if responses = [] then some result else none

/-- One more reply to a command that waits. -/
theorem progress?_append {slot next : Slot} {responses : List Response}
    (hprogress : slot.progress? responses = some next) (more : List Response) :
    slot.progress? (responses ++ more) = next.progress? more := by
  induction responses generalizing slot with
  | nil =>
      cases hprogress
      rfl
  | cons response responses ih =>
      rw [progress?] at hprogress
      rw [List.cons_append, progress?]
      split at hprogress
      · exact ih hprogress
      · cases hprogress

/-- The last reply to a command that waits. -/
theorem outcome?_append {slot next : Slot} {responses : List Response}
    (hprogress : slot.progress? responses = some next) (more : List Response) :
    slot.outcome? (responses ++ more) = next.outcome? more := by
  induction responses generalizing slot with
  | nil =>
      cases hprogress
      rfl
  | cons response responses ih =>
      rw [progress?] at hprogress
      rw [List.cons_append, outcome?]
      split at hprogress
      · exact ih hprogress
      · cases hprogress

/-- A command that waits has no result. -/
theorem outcome?_of_progress {slot next : Slot} {responses : List Response}
    (hprogress : slot.progress? responses = some next) : slot.outcome? responses = none := by
  have hnone := outcome?_append hprogress []
  rw [List.append_nil] at hnone
  exact hnone

/-- Replies change nothing of a command but its statistics. -/
theorem original_of_progress {slot next : Slot} {responses : List Response}
    (hprogress : slot.progress? responses = some next) : next.original = slot.original := by
  induction responses generalizing slot with
  | nil =>
      cases hprogress
      rfl
  | cons response responses ih =>
      rw [progress?] at hprogress
      split at hprogress
      · rename_i more haccept
        obtain ⟨-, -, -, rfl⟩ := accept_more haccept
        rw [ih hprogress]
        rfl
      · cases hprogress

/-- Whether the caller gave up does not matter to a reply. -/
theorem accept_unmarked (slot : Slot) (response : Response) :
    slot.unmarked.accept response = match slot.accept response with
      | .more next => .more next.unmarked
      | .final result => .final result := by
  unfold accept
  rw [show slot.unmarked.expect = slot.expect from rfl]
  split
  · rfl
  · cases slot.expect with
    | done => rfl
    | stored => rfl
    | item fields => rfl
    | counter =>
        dsimp only
        split <;> rfl
    | stats =>
        dsimp only
        split <;> rfl

end Slot

/-- A result that is computed from a reply. -/
inductive FromReply : Except ClientError Output → Prop
  | ok (output : Output) : FromReply (.ok output)
  | notFound : FromReply (.error .notFound)
  | keyExists : FromReply (.error .keyExists)
  | server (status : Status) : FromReply (.error (.server status))
  | badCounter (length : Nat) : FromReply (.error (.protocol (.badCounter length)))

/-! ## Incidents with what came before -/

/-- Every incident of a trace satisfies a condition, together with the trace before it. -/
def Trace.Each (holds : Trace → Incident → Prop) : Trace → Trace → Prop
  | _, [] => True
  | before, incident :: after => holds before incident ∧ Each holds (before ++ [incident]) after

namespace Trace

variable {holds : Trace → Incident → Prop} {before first second : Trace}

theorem Each.append (hfirst : Each holds before first)
    (hsecond : Each holds (before ++ first) second) : Each holds before (first ++ second) := by
  induction first generalizing before with
  | nil =>
      rw [List.append_nil] at hsecond
      exact hsecond
  | cons incident first ih =>
      obtain ⟨hincident, hfirst⟩ := hfirst
      refine ⟨hincident, ih hfirst ?_⟩
      rw [List.append_assoc]
      exact hsecond

/-- Any one incident, with what came before it. -/
theorem Each.of_split {incident : Incident}
    (heach : Each holds before (first ++ incident :: second)) :
    holds (before ++ first) incident := by
  induction first generalizing before with
  | nil =>
      rw [List.append_nil]
      exact heach.1
  | cons other first ih =>
      have hincident := ih heach.2
      rw [List.append_assoc] at hincident
      exact hincident

/-- A condition that holds whatever came before. -/
theorem each_of_forall (hall : ∀ incident ∈ first, ∀ before, holds before incident) :
    Each holds before first := by
  induction first generalizing before with
  | nil => trivial
  | cons incident first ih =>
      exact ⟨hall incident List.mem_cons_self before,
        ih fun other hmem => hall other (List.mem_cons_of_mem _ hmem)⟩

/-- A reply that is given to a command: it is the next frame of its line, it carries the tag
and the opcode of the command, and the frames of the command and of all before it on the
line were wholly taken.  Those before are answered, and the command is not. -/
structure Matched (before : Trace) (line : Line) (response : Response) (done : List Ticket)
    (ticket : Ticket) (others : List Ticket) : Prop where
  tag : response.tag = ticket.slot.tag
  opcode : response.opcode = ticket.slot.opcode
  order : (done ++ ticket :: others).Sublist before.tickets
  places : (done ++ ticket :: others).map (·.slot.seq) = before.sent line
  written : frames (done ++ ticket :: others) <+: before.taken line
  next : (before.answers line).map (·.2) ++ [response] <+: before.replies line
  answered : ∀ other ∈ done,
    (other.slot.outcome? (before.answersTo line other.slot.seq)).isSome
  unanswered : ticket.slot.outcome? (before.answersTo line ticket.slot.seq) = none

end Trace

/-- What every incident rests on: a reply on its command, and a result of a reply on all
replies to its command. -/
def Incident.Founded (before : Trace) : Incident → Prop
  | answered line seq response =>
    ∃ done ticket others, ticket.slot.seq = seq ∧
      before.Matched line response done ticket others
  | ended finished =>
    FromReply finished.result → ∃ line, ∃ ticket ∈ before.tickets,
      ticket.slot = finished.slot.original ∧
      ticket.slot.outcome? (before.answersTo line ticket.slot.seq) = some finished.result
  | _ => True

/-! ## Commands that end -/

namespace Trace

/-- A command was given up before it had all its replies. -/
def GaveUp (trace : Trace) (line : Line) (slot : Slot) : Prop :=
  ∃ (before : Trace) (incident : Incident) (after : Trace),
    trace = before ++ incident :: after ∧ incident.GivesUp slot.seq ∧
    slot.original.outcome? (before.answersTo line slot.seq) = none

/-- A command that is answered has ended with the result of its replies, or it was given up
before it had them all. -/
def Settled (trace : Trace) (line : Line) (ticket : Ticket) : Prop :=
  trace.GaveUp line ticket.slot ∨ ∃ finished ∈ trace.endings,
    ticket.slot = finished.slot.original ∧
    ticket.slot.outcome? (trace.answersTo line ticket.slot.seq) = some finished.result

/-- What was said on a line to the commands whose frames were written on it: those that
are answered, and those that wait. -/
structure Spoken (trace : Trace) (line : Line) (done waiting : List Ticket) : Prop where
  /-- The replies come in the order of the commands. -/
  inOrder : trace.answers line = (done ++ waiting).flatMap fun ticket =>
    (trace.answersTo line ticket.slot.seq).map (ticket.slot.seq, ·)
  /-- Of the commands that wait only the first one has replies. -/
  fresh : ∀ ticket ∈ waiting.tail, trace.answersTo line ticket.slot.seq = []
  answered : ∀ ticket ∈ done,
    (ticket.slot.outcome? (trace.answersTo line ticket.slot.seq)).isSome
  settled : ∀ ticket ∈ done, trace.Settled line ticket

/-! ## Silence -/

variable {trace more : Trace} {line : Line}

theorem answersTo_of_silent (hsilent : trace.Silent line) (seq : Nat) :
    trace.answersTo line seq = [] := by
  rw [answersTo, answers_of_silent hsilent]
  rfl

/-- A command that is not among the answered ones has no replies. -/
theorem answersTo_eq_nil {seq : Nat} (hnone : ∀ answer ∈ trace.answers line, answer.1 ≠ seq) :
    trace.answersTo line seq = [] := by
  rw [answersTo, List.map_eq_nil_iff, List.filter_eq_nil_iff]
  intro answer hmem
  simpa using hnone answer hmem

/-- Incidents that give no replies leave those of every command as they are. -/
theorem answersTo_aside (hnone : more.answers line = []) (seq : Nat) :
    (trace ++ more).answersTo line seq = trace.answersTo line seq := by
  rw [answersTo, answers_append, hnone, List.append_nil, answersTo]

/-- One more reply to a command. -/
theorem answersTo_reply {seq : Nat} {response : Response}
    (hreply : more.answers line = [(seq, response)]) (other : Nat) :
    (trace ++ more).answersTo line other
      = trace.answersTo line other ++ if seq = other then [response] else [] := by
  rw [answersTo_append]
  refine congrArg (trace.answersTo line other ++ ·) ?_
  rw [answersTo, hreply]
  by_cases hseq : seq = other
  · rw [List.filter_cons_of_pos (by simpa using hseq), if_pos hseq]
    rfl
  · rw [List.filter_cons_of_neg (by simpa using hseq), if_neg hseq]
    rfl

/-! ## Conversations go on -/

/-- What was given up stays given up. -/
theorem GaveUp.append {slot : Slot} (hgave : trace.GaveUp line slot) (more : Trace) :
    GaveUp (trace ++ more) line slot := by
  obtain ⟨before, incident, after, rfl, hincident⟩ := hgave
  refine ⟨before, incident, after ++ more, ?_, hincident⟩
  rw [List.append_assoc, List.cons_append]

/-- On a line where nothing was said the command had no replies either. -/
theorem GaveUp.anew {other : Line} {slot : Slot} (hsilent : trace.Silent line)
    (hgave : trace.GaveUp other slot) : trace.GaveUp line slot := by
  obtain ⟨before, incident, after, rfl, hincident, -⟩ := hgave
  refine ⟨before, incident, after, rfl, hincident, ?_⟩
  have hbefore : before.Silent line :=
    fun other hother => hsilent other (List.mem_append_left _ hother)
  rw [answersTo_of_silent hbefore]
  rfl

/-- A command that gets no more replies stays settled. -/
theorem Settled.append {ticket : Ticket} (hsettled : trace.Settled line ticket)
    (hsame : (trace ++ more).answersTo line ticket.slot.seq
      = trace.answersTo line ticket.slot.seq) : Settled (trace ++ more) line ticket := by
  rcases hsettled with hgave | ⟨finished, hfinished, hslot, hresult⟩
  · exact .inl (hgave.append more)
  · refine .inr ⟨finished, ?_, hslot, ?_⟩
    · rw [endings_append]
      exact List.mem_append_left _ hfinished
    · rw [hsame]
      exact hresult

variable {done waiting : List Ticket}

/-- The first replies of a line are those of the first commands. -/
theorem Spoken.map_snd (hspoken : trace.Spoken line done waiting) :
    (trace.answers line).map (·.2)
      = (done ++ waiting).flatMap fun ticket => trace.answersTo line ticket.slot.seq := by
  have hpairs := congrArg (List.map Prod.snd) hspoken.inOrder
  rw [List.map_flatMap] at hpairs
  rw [hpairs]
  refine congrArg (List.flatMap · (done ++ waiting)) (funext fun ticket => ?_)
  rw [List.map_map]
  exact List.map_id _

/-- Only written commands have replies. -/
theorem Spoken.known (hspoken : trace.Spoken line done waiting) :
    ∀ answer ∈ trace.answers line, answer.1 ∈ (done ++ waiting).map (·.slot.seq) := by
  intro answer hmem
  rw [hspoken.inOrder] at hmem
  obtain ⟨ticket, hticket, hanswer⟩ := List.mem_flatMap.mp hmem
  obtain ⟨response, -, rfl⟩ := List.mem_map.mp hanswer
  exact List.mem_map.mpr ⟨ticket, hticket, rfl⟩

/-- Nothing was said on a silent line. -/
theorem spoken_nil (hnone : trace.answers line = []) : trace.Spoken line [] [] where
  inOrder := hnone
  fresh _ hmem := nomatch hmem
  answered _ hmem := nomatch hmem
  settled _ hmem := nomatch hmem

/-- Incidents that give no replies leave a conversation as it is. -/
theorem Spoken.aside (hnone : more.answers line = []) (hspoken : trace.Spoken line done waiting) :
    Spoken (trace ++ more) line done waiting where
  inOrder := by
    rw [answers_append, hnone, List.append_nil]
    refine hspoken.inOrder.trans (congrArg (List.flatMap · (done ++ waiting)) ?_)
    exact funext fun ticket => by rw [answersTo_aside hnone]
  fresh ticket hmem := by
    rw [answersTo_aside hnone]
    exact hspoken.fresh ticket hmem
  answered ticket hmem := by
    rw [answersTo_aside hnone]
    exact hspoken.answered ticket hmem
  settled ticket hmem := (hspoken.settled ticket hmem).append (answersTo_aside hnone _)

/-- Commands without replies join those that wait. -/
theorem Spoken.sent {sent : List Ticket}
    (hnone : ∀ ticket ∈ sent, trace.answersTo line ticket.slot.seq = [])
    (hspoken : trace.Spoken line done waiting) : trace.Spoken line done (waiting ++ sent) where
  inOrder := by
    rw [← List.append_assoc, List.flatMap_append, ← hspoken.inOrder]
    have hsent : (sent.flatMap fun ticket =>
        (trace.answersTo line ticket.slot.seq).map (ticket.slot.seq, ·)) = [] := by
      apply List.flatMap_eq_nil_iff.mpr
      intro ticket hmem
      rw [hnone ticket hmem]
      rfl
    rw [hsent, List.append_nil]
  fresh ticket hmem := by
    cases waiting with
    | nil => exact hnone ticket (List.mem_of_mem_tail hmem)
    | cons first waiting =>
        rcases List.mem_append.mp hmem with hmem | hmem
        · exact hspoken.fresh ticket hmem
        · exact hnone ticket hmem
  answered := hspoken.answered
  settled := hspoken.settled

variable {ticket : Ticket} {others : List Ticket}

/-- A reply to one command leaves those of the others as they are. -/
theorem answersTo_others {other : Ticket} {response : Response}
    (hdistinct : ((done ++ ticket :: others).map (·.slot.seq)).Nodup)
    (hreply : more.answers line = [(ticket.slot.seq, response)]) (hother : other ∈ done ++ others) :
    (trace ++ more).answersTo line other.slot.seq = trace.answersTo line other.slot.seq := by
  rw [List.map_append, List.map_cons, List.nodup_middle, List.nodup_cons, ← List.map_append]
    at hdistinct
  have hne : ticket.slot.seq ≠ other.slot.seq := by
    intro hseq
    exact hdistinct.1 (List.mem_map.mpr ⟨other, hother, hseq.symm⟩)
  rw [answersTo_reply hreply, if_neg hne, List.append_nil]

/-- The first command that waits gets a reply. -/
theorem Spoken.reply {response : Response}
    (hdistinct : ((done ++ ticket :: others).map (·.slot.seq)).Nodup)
    (hreply : more.answers line = [(ticket.slot.seq, response)])
    (hspoken : trace.Spoken line done (ticket :: others)) :
    Spoken (trace ++ more) line done (ticket :: others) := by
  have hsame {other : Ticket} (hother : other ∈ done ++ others) :=
    @answersTo_others trace more line done ticket others other response hdistinct hreply hother
  refine ⟨?_, ?_, ?_, ?_⟩
  · have hpairs {tickets : List Ticket} (hsub : tickets ⊆ done ++ others) :
        (tickets.flatMap fun other =>
            ((trace ++ more).answersTo line other.slot.seq).map (other.slot.seq, ·))
          = tickets.flatMap fun other =>
            (trace.answersTo line other.slot.seq).map (other.slot.seq, ·) := by
      apply List.flatMap_congr
      intro other hother
      rw [hsame (hsub hother)]
    have hnone : (others.flatMap fun other =>
        (trace.answersTo line other.slot.seq).map (other.slot.seq, ·)) = [] := by
      apply List.flatMap_eq_nil_iff.mpr
      intro other hother
      rw [hspoken.fresh other hother]
      rfl
    have hbefore := hspoken.inOrder
    rw [List.flatMap_append, List.flatMap_cons, hnone, List.append_nil] at hbefore
    rw [answers_append, hreply, hbefore, List.flatMap_append, List.flatMap_cons,
      hpairs (List.subset_append_left _ _), hpairs (List.subset_append_right _ _), hnone,
      answersTo_reply hreply, if_pos rfl, List.map_append, List.append_nil, List.append_assoc]
    rfl
  · intro other hother
    rw [hsame (List.mem_append_right _ hother)]
    exact hspoken.fresh other hother
  · intro other hother
    rw [hsame (List.mem_append_left _ hother)]
    exact hspoken.answered other hother
  · intro other hother
    exact (hspoken.settled other hother).append (hsame (List.mem_append_left _ hother))

/-- The first command that waits is answered. -/
theorem Spoken.finish (hspoken : trace.Spoken line done (ticket :: others))
    (hanswered : (ticket.slot.outcome? (trace.answersTo line ticket.slot.seq)).isSome)
    (hsettled : trace.Settled line ticket) : trace.Spoken line (done ++ [ticket]) others where
  inOrder := by
    rw [List.append_assoc]
    exact hspoken.inOrder
  fresh other hother := hspoken.fresh other (List.mem_of_mem_tail hother)
  answered other hother := by
    rcases List.mem_append.mp hother with hother | hother
    · exact hspoken.answered other hother
    · rw [List.mem_singleton.mp hother]
      exact hanswered
  settled other hother := by
    rcases List.mem_append.mp hother with hother | hother
    · exact hspoken.settled other hother
    · rw [List.mem_singleton.mp hother]
      exact hsettled

end Trace

end CachePool
