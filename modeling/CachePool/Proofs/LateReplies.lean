/-
# Late replies

When its peer answers in order, however late, a line never gets out of step: every reply
belongs to the first command that waits, also when its caller has given up long ago.  So
no reply is refused, and every command whose replies were read has ended with them, unless
it was given up before.

* `Link.Last.in_step` : a line whose peer answers is in step;
* `Link.Last.arrived` : a command whose replies were all read is answered;
* `Client.late_replies_in_step` : what this means for every history of calls.
-/
import CachePool.Proofs.Answering
import CachePool.Proofs.Lines
import CachePool.Proofs.Script
import CachePool.Proofs.Standing
import CachePool.Proofs.Waiting

namespace CachePool

namespace Link

variable {trace : Trace} {link : Link} {done waiting queued : List Ticket}
  {others : List Response} {line : Line} {groups : List (List Response)}

/-! ## The peer's side and the link's side -/

/-- The replies that a line gave to commands, and those that it still owes. -/
structure InStep (trace : Trace) (line : Line) (done waiting : List Ticket)
    (others : List Response) (groups later : List (List Response)) : Prop where
  requests : trace.requests line = (done ++ waiting).map (·.request)
  given : groups.take (trace.requests line).length
    = (done.map fun ticket => trace.answersTo line ticket.slot.seq) ++ later
  owed : List.Forall₂ (fun ticket group => IsReplyTo ticket.request group) waiting later
  begun : (waiting.flatMap fun ticket => trace.answersTo line ticket.slot.seq) ++ others
    <+: later.flatten

/-- The replies that the peer owes first are those of the first command that waits. -/
theorem InStep.through {ticket : Ticket} {tickets : List Ticket} {group : List Response}
    {later : List (List Response)}
    (hstep : InStep trace line done (ticket :: tickets) others groups (group :: later)) :
    groups.take (done.length + 1)
      = (done.map fun other => trace.answersTo line other.slot.seq) ++ [group] := by
  have hcount := congrArg List.length hstep.requests
  rw [List.length_map, List.length_append, List.length_cons] at hcount
  have htake := congrArg (List.take (done.length + 1)) hstep.given
  rw [List.take_take, Nat.min_eq_left (by omega)] at htake
  rw [htake, List.take_append, List.length_map, Nat.add_sub_cancel_left,
    List.take_of_length_le (by rw [List.length_map]; omega)]
  rfl

/-- What a line gave are the replies to the answered commands, those to the commands that
wait, and those that nobody got. -/
theorem Last.replies (hlast : link.Last trace line done waiting queued others) :
    trace.replies line = (done.flatMap fun ticket => trace.answersTo line ticket.slot.seq)
      ++ ((waiting.flatMap fun ticket => trace.answersTo line ticket.slot.seq) ++ others) := by
  obtain ⟨rfl, hopen, htalks, hheard, -⟩ := hlast
  rw [← hheard, (htalks.spoken hopen).map_snd, List.flatMap_append, List.append_assoc]

/-- What the peer sent is cut between the commands as the link has cut it. -/
theorem Last.cut (hvalid : ∀ ticket ∈ trace.tickets, ticket.Valid)
    (hanswering : trace.Answering line groups)
    (hlast : link.Last trace line done waiting queued others) :
    ∃ later, InStep trace line done waiting others groups later := by
  have hreplied := hlast.replies
  obtain ⟨rfl, hopen, htalks, -, -⟩ := hlast
  have hwritten : ∀ ticket ∈ done ++ waiting, ticket.Valid :=
    fun ticket hmem => hvalid ticket (htalks.carries.order.subset (List.mem_append_left _ hmem))
  have hrequests := htalks.carries.requests hvalid hopen
  obtain ⟨hreplies, -, hleads⟩ := hanswering trace List.prefix_rfl
  generalize hall : groups.take (trace.requests link.line).length = all at hreplies hleads
  rw [hrequests, List.forall₂_map_left_iff] at hreplies
  obtain ⟨first, later, rfl, hfirst, hlater⟩ := exists_append_of_forall₂ hreplies
  rw [hreplied, List.flatten_append] at hleads
  have hends : List.Forall₂ (fun ticket group => (ticket.slot.outcome? group).isSome) done
      first := by
    have hboth := (List.forall₂_and_left (p := (· ∈ done ++ waiting)) done first).mpr
      ⟨fun _ hmem => List.mem_append_left _ hmem, hfirst⟩
    exact hboth.imp fun ticket group h => h.2.isSome_outcome? (hwritten ticket h.1)
  obtain ⟨rfl, hbegun⟩ := groups_eq (htalks.spoken hopen).answered hends hleads
  exact ⟨later, hrequests, hall, hlater, hbegun⟩

/-- Of the commands that wait only the first one has got replies, and not all of them. -/
theorem Last.first (hlast : link.Last trace line done waiting queued others) {ticket : Ticket}
    {tickets : List Ticket} (hwaiting : waiting = ticket :: tickets) :
    (waiting.flatMap fun other => trace.answersTo line other.slot.seq)
        = trace.answersTo line ticket.slot.seq ∧
      ∃ slot queue, link.awaiting = slot :: queue ∧ Progress trace line ticket slot := by
  obtain ⟨rfl, hopen, htalks, -, -⟩ := hlast
  subst hwaiting
  constructor
  · have hnone : (tickets.flatMap fun other =>
        trace.answersTo link.line other.slot.seq) = [] :=
      List.flatMap_eq_nil_iff.mpr (htalks.spoken hopen).fresh
    rw [List.flatMap_cons, hnone, List.append_nil]
  · obtain ⟨slot, queue, hprogress, -, hqueue⟩ := List.forall₂_cons_left_iff.mp htalks.waits
    exact ⟨slot, queue, hqueue, hprogress⟩

/-- **A line whose peer answers is in step**: every reply it gave was given to a command. -/
theorem Last.in_step (hvalid : ∀ ticket ∈ trace.tickets, ticket.Valid)
    (hanswering : trace.Answering line groups)
    (hlast : link.Last trace line done waiting queued others) : others = [] := by
  obtain ⟨later, hstep⟩ := hlast.cut hvalid hanswering
  by_contra hsome
  obtain ⟨response, rest, rfl⟩ := List.exists_cons_of_ne_nil hsome
  obtain ⟨error, hrefused⟩ := hlast.refused response rest rfl
  have hbegun := hstep.begun
  cases hstep.owed with
  | nil =>
      -- nobody waits, so that the peer owes nothing
      cases hbegun.length_le
  | @cons ticket group tickets groups' hreply _ =>
      obtain ⟨hgiven, slot, queue, hqueue, hprogress⟩ := hlast.first rfl
      have hticket : ticket ∈ trace.tickets :=
        hlast.talks.carries.order.subset (by simp)
      have hvalidTicket := hvalid ticket hticket
      rw [hgiven, List.flatten_cons] at hbegun
      -- the reply belongs to the first command that waits, and so it fits
      have hmem : response ∈ group := Slot.mem_of_progress hprogress
        (hreply.isSome_outcome? hvalidTicket) (List.prefix_append _ _) hbegun
      obtain ⟨htag, hopcode⟩ := hreply.own response hmem
      have horiginal := hprogress.original hvalidTicket
      rw [hvalidTicket.tag, horiginal] at htag
      rw [hvalidTicket.opcode, horiginal] at hopcode
      obtain ⟨matched, hfits⟩ := matchReply_fits hqueue htag hopcode
      rw [hfits] at hrefused
      cases hrefused

/-- **A command whose replies were all read is answered.** -/
theorem Last.arrived {i : Nat} (hvalid : ∀ ticket ∈ trace.tickets, ticket.Valid)
    (hanswering : trace.Answering line groups)
    (hlast : link.Last trace line done waiting queued others)
    (hwritten : i < (trace.requests line).length)
    (hread : (groups.take (i + 1)).flatten <+: trace.replies line) : i < done.length := by
  have hnone := hlast.in_step hvalid hanswering
  subst hnone
  obtain ⟨later, hstep⟩ := hlast.cut hvalid hanswering
  by_contra hlong
  have hcount : (trace.requests line).length = done.length + waiting.length := by
    rw [hstep.requests, List.length_map, List.length_append]
  cases hstep.owed with
  | nil =>
      rw [List.length_nil] at hcount
      omega
  | @cons ticket group tickets groups' hreply _ =>
      obtain ⟨hgiven, slot, queue, -, hprogress⟩ := hlast.first rfl
      have hticket : ticket ∈ trace.tickets :=
        hlast.talks.carries.order.subset (by simp)
      -- all replies to the first command that waits would be among those it got
      have hgroup : group <+: trace.answersTo line ticket.slot.seq := by
        have hfirst : groups.take (done.length + 1) <+: groups.take (i + 1) :=
          List.take_prefix_take_left (by omega)
        obtain ⟨rest, hrest⟩ := hfirst
        rw [← hrest, hstep.through, hlast.replies, hgiven, List.append_nil, List.flatten_append,
          List.flatten_append, List.append_assoc, ← List.flatMap_def,
          List.prefix_append_right_inj, List.flatten_singleton] at hread
        exact (List.prefix_append _ _).trans hread
      obtain ⟨more, hmore⟩ := hgroup
      have hdone := hreply.isSome_outcome? (hvalid ticket hticket)
      rw [Progress, ← hmore, Slot.progress?_of_outcome? hdone] at hprogress
      cases hprogress

/-- The `i`-th command that was answered: its request, its place and its replies are the
`i`-th ones of the line. -/
theorem Last.nth {i : Nat} (hvalid : ∀ ticket ∈ trace.tickets, ticket.Valid)
    (hanswering : trace.Answering line groups)
    (hlast : link.Last trace line done waiting queued others) (hdone : i < done.length) :
    (trace.requests line)[i]? = some done[i].request ∧
      (trace.sent line)[i]? = some done[i].slot.seq ∧
      groups[i]? = some (trace.answersTo line done[i].slot.seq) := by
  obtain ⟨later, hstep⟩ := hlast.cut hvalid hanswering
  have hsent := hlast.talks.carries.places hlast.opened
  rw [hlast.onLine] at hsent
  have hcount := congrArg List.length hstep.requests
  rw [List.length_map, List.length_append] at hcount
  refine ⟨?_, ?_, ?_⟩
  · rw [hstep.requests, List.map_append,
      List.getElem?_append_left (by rw [List.length_map]; exact hdone), List.getElem?_map,
      List.getElem?_eq_getElem hdone]
    rfl
  · rw [← hsent, List.map_append,
      List.getElem?_append_left (by rw [List.length_map]; exact hdone), List.getElem?_map,
      List.getElem?_eq_getElem hdone]
    rfl
  · have htake := congrArg (fun all => all[i]?) hstep.given
    rw [List.getElem?_take_of_lt (by omega),
      List.getElem?_append_left (by rw [List.length_map]; exact hdone), List.getElem?_map,
      List.getElem?_eq_getElem hdone] at htake
    exact htake

end Link

/-! ## Histories -/

/-- A silent line took no request. -/
theorem Trace.requests_of_silent {trace : Trace} {line : Line} (hsilent : trace.Silent line) :
    trace.requests line = [] := by
  rw [requests, taken_of_silent hsilent,
    Request.kind.split_of_incomplete (show Request.kind.decode [] = _ from rfl)]
  rfl

/-- A silent line gave no reply. -/
theorem Trace.replies_of_silent {trace : Trace} {line : Line} (hsilent : trace.Silent line) :
    trace.replies line = [] := by
  rw [replies, given_of_silent hsilent,
    Response.kind.split_of_incomplete (show Response.kind.decode [] = _ from rfl)]
  rfl

/-- Before anything happens there is nothing to answer. -/
theorem Trace.answering_nil (line : Line) (groups : List (List Response)) :
    Trace.Answering [] line groups := by
  intro before hbefore
  cases List.prefix_nil.mp hbefore
  constructor
  · rw [requests_of_silent (silent_nil line)]
    exact .nil
  · rw [given_of_silent (silent_nil line),
      Response.kind.split_of_incomplete (show Response.kind.decode [] = _ from rfl)]
  · rw [replies_of_silent (silent_nil line)]
    exact List.nil_prefix

namespace Script

/-! ## A wait that fails -/

/-- The first wait is interrupted and the second one fails. -/
def failing (error : IoError) : Script where
  clock := 0
  reads := []
  waits := [.interrupted, .failed error]

/-- A wait that fails ends the driving, at whatever time. -/
theorem drive_failing (error : IoError) :
    ∃ log, (failing error).queued.run (.command 0) 1000
      = (.error (.io error),
          (driving ⟨0, [], []⟩ (waitingLink 0 false) log).expire (.command 0)) := by
  obtain ⟨log, hconnecting⟩ : ∃ log, (failing error).queued.makeProgress 0
      = driving (failing error) (connectingLink 0) log := ⟨_, rfl⟩
  -- the connect that completes is followed by the frame
  obtain ⟨note, hwrote⟩ := @makeProgress_connecting (connectingLink 0) 1000 rfl (by decide)
    ⟨0, [], [.failed error]⟩ log 0 Config.default.timeouts
  refine ⟨note, ?_⟩
  -- Up to the wait that is interrupted.
  show Client.drive (.command 0) 1000 (3 + 1) (failing error).queued = _
  rw [Client.drive, show Network.now (failing error).queued.net = 0 from rfl, hconnecting]
  -- Up to the wait that fails.
  show Client.drive (.command 0) 1000 (2 + 1)
    (driving ⟨0, [], [.failed error]⟩ (connectingLink 0) log) = _
  rw [Client.drive, show Network.now (driving _ (connectingLink 0) log).net = 0 from rfl,
    driving, makeProgress_holding hwrote]
  rfl

/-- A round trip during which a wait fails returns the error of the wait. -/
theorem issue_failing (error : IoError) :
    ∃ log, (failing error).opened.issue (.noop 0) none
      = (.error (.io error),
          (driving ⟨0, [], []⟩ (waitingLink 0 false) log).expire (.command 0)) := by
  obtain ⟨log, hrun⟩ := drive_failing error
  refine ⟨log, ?_⟩
  show Client.await (failing error).queued 0 1000 = _
  unfold Client.await
  rw [hrun]

/-- What has happened when the wait has failed. -/
def abandoned : Trace := writing ++ [.dropped ping.slot, .examined wire 1]

/-- The round trip gives its command up. -/
theorem reaches_issue (error : IoError) : (failing error).opened.Reaches abandoned
    ((failing error).opened.issue (.noop 0) none).2 := by
  obtain ⟨log, hissue⟩ := issue_failing error
  rw [hissue]
  have hwrote : (failing error).opened.Reaches writing
      (driving ⟨0, [], []⟩ (waitingLink 0 false) log) :=
    ((reaches_wrote (failing error)).elapsed ⟨0, [], []⟩).step (.move (.noted log))
  have hgiven : (failing error).opened.Reaches (writing ++ [.dropped ping.slot])
      (driving ⟨0, [], []⟩ (waitingLink 0 true) log) :=
    hwrote.only rfl (@Link.Step.expired _ _ 0 _ _ _ (.command 0))
  have hexamined : (failing error).opened.Reaches abandoned
      (driving ⟨0, [], []⟩ (waitingLink 0 true) log) :=
    hgiven.only rfl (@Link.Step.examined _ _ 0 _ (waitingLink 0 true) _ (by decide))
  exact hexamined.step (.move (.noted _))

/-! ## The reply that comes late -/

/-- The reply is read behind the command that was given up, at any later time. -/
theorem reaches_arrival (error : IoError) (clock : Nat) :
    ∃ client, ((failing error).opened.issue (.noop 0) none).2.Reaches (arrival true) client ∧
      client.net.clock = clock := by
  obtain ⟨log, hissue⟩ := issue_failing error
  rw [hissue]
  have hlater := (@Client.Reaches.start _ _
    ((driving ⟨0, [], []⟩ (waitingLink 0 false) log).expire (.command 0))).elapsed
      ⟨clock, [.data pong.frame], []⟩
  exact ⟨_, hlater.only rfl (step_pong 0 clock true []), rfl⟩

/-- The reply belongs to the command. -/
theorem isReplyTo_pong : IsReplyTo ping.request [pong] where
  own := by
    intro response hmem
    cases List.mem_singleton.mp hmem
    exact ⟨rfl, rfl⟩
  shape := by
    refine ⟨[], pong, rfl, ?_, ?_⟩
    · intro entry hmem
      cases hmem
    · intro hstat
      cases hstat

/-- A peer that has received the first command and has sent no more than its reply. -/
theorem answersSoFar_of_taken {trace : Trace} (htaken : trace.taken wire = ping.request.frame)
    (hgiven : trace.given wire = [] ∨ trace.given wire = pong.frame) :
    trace.AnswersSoFar wire [[pong]] := by
  have hvalid : ∀ request ∈ [ping.request], request.validate = .ok () := by
    intro request hmem
    cases List.mem_singleton.mp hmem
    rfl
  have hrequests : trace.requests wire = [ping.request] := by
    rw [Trace.requests, htaken]
    exact (@Request.split_frames _ [] hvalid rfl).1
  have hsplit : (Response.kind.split (trace.given wire)).fault = none ∧
      trace.replies wire <+: [pong] := by
    rw [Trace.replies]
    rcases hgiven with hnone | hpong
    · rw [hnone, Response.kind.split_of_incomplete rfl]
      exact ⟨rfl, List.nil_prefix⟩
    · rw [hpong, split_pong]
      exact ⟨rfl, List.prefix_rfl⟩
  constructor
  · rw [hrequests]
    exact .cons isReplyTo_pong .nil
  · exact hsplit.1
  · rw [hrequests]
    exact hsplit.2

/-- The peer answers all the time, whatever the client does before the reply comes. -/
theorem answering_late {idle : Trace} (htaken : idle.taken wire = [])
    (hgiven : idle.given wire = []) :
    Trace.Answering (writing ++ idle ++ arrival true) wire [[pong]] := by
  have hopened : Trace.Answering [.issued ping, .opened wire, .established wire] wire [[pong]] :=
    Trace.Answering.aside rfl rfl (Trace.answering_nil wire _)
  have htook : Trace.Answering
      ([.issued ping, .opened wire, .established wire] ++ [.took wire ping.request.frame]) wire
      [[pong]] :=
    hopened.snoc (answersSoFar_of_taken (by rfl) (.inl (by rfl)))
  have hwrote : Trace.Answering writing wire [[pong]] :=
    @Trace.Answering.aside _ [.sent wire 0] _ _ rfl rfl htook
  have hread : Trace.taken (writing ++ idle ++ [.gave wire pong.frame]) wire
      = ping.request.frame := by
    rw [Trace.taken_append, Trace.taken_append, htaken]
    rfl
  have hgave : Trace.Answering (writing ++ idle ++ [.gave wire pong.frame]) wire [[pong]] := by
    refine (hwrote.aside htaken hgiven).snoc (answersSoFar_of_taken hread (.inr ?_))
    rw [Trace.given_append, Trace.given_append, hgiven]
    rfl
  have hall := @Trace.Answering.aside _ [.answered wire 0 pong] _ _ rfl rfl hgave
  rw [List.append_assoc] at hall
  exact hall

/-- The reply comes when the call has failed. -/
theorem answering_arrival : Trace.Answering (abandoned ++ arrival true) wire [[pong]] :=
  @answering_late [.dropped ping.slot, .examined wire 1] rfl rfl

end Script

namespace Client

variable {ω : Type} [Network ω] {timeouts : Timeouts} {buffering : Bool} {net : ω}
  {trace : Trace} {client : Client ω} {line : Line} {groups : List (List Response)}

/-- Every reply of a peer that answers is given to a command. -/
theorem Reaches.answers_eq (hreach : (blank timeouts buffering net).Reaches trace client)
    (hanswering : trace.Answering line groups) :
    (trace.answers line).map (·.2) = trace.replies line := by
  rcases hreach.last line with hsilent | ⟨link, done, waiting, queued, others, hlast⟩
  · rw [Trace.replies_of_silent hsilent, Trace.answers_of_silent hsilent]
    rfl
  · have hheard := hlast.heard
    rw [hlast.in_step hreach.ordered.valid hanswering, List.append_nil] at hheard
    exact hheard

/-- No reply of a peer that answers is refused. -/
theorem Reaches.not_refused (hreach : (blank timeouts buffering net).Reaches trace client)
    (hanswering : trace.Answering line groups) (error : WireError) :
    Incident.lost line (.protocol error) ∉ trace := by
  intro hmem
  obtain ⟨before, after, rfl⟩ := List.append_of_mem hmem
  have hvalid : ∀ ticket ∈ Trace.tickets before, ticket.Valid :=
    fun ticket hticket => hreach.ordered.valid ticket (Trace.tickets_subset _ _ hticket)
  rcases hreach.justified.of_split with
    hfault | ⟨link, done, waiting, queued, response, rest, hlast⟩
  · exact hfault (hanswering _ (List.prefix_append _ _)).whole
  · cases hlast.in_step hvalid hanswering.left

/-- A command whose replies were all read has ended with their result, unless it was given
up before. -/
theorem Reaches.settled {i : Nat} {request : Request} {group : List Response}
    (hreach : (blank timeouts buffering net).Reaches trace client)
    (hanswering : trace.Answering line groups)
    (hrequest : (trace.requests line)[i]? = some request) (hgroup : groups[i]? = some group)
    (hread : (groups.take (i + 1)).flatten <+: trace.replies line) :
    ∃ ticket ∈ trace.tickets, ticket.request = request ∧
      (trace.sent line)[i]? = some ticket.slot.seq ∧
      (trace.GaveUp line ticket.slot ∨ ∃ finished ∈ trace.endings,
        ticket.slot = finished.slot.original ∧
        ticket.slot.outcome? group = some finished.result) := by
  have hwritten : i < (trace.requests line).length := (List.getElem?_eq_some_iff.mp hrequest).1
  rcases hreach.last line with hsilent | ⟨link, done, waiting, queued, others, hlast⟩
  · rw [Trace.requests_of_silent hsilent] at hwritten
    cases hwritten
  have hdone := hlast.arrived hreach.ordered.valid hanswering hwritten hread
  obtain ⟨hnth, hsent, hreplies⟩ := hlast.nth hreach.ordered.valid hanswering hdone
  rw [hnth] at hrequest
  rw [hreplies] at hgroup
  cases hrequest
  cases hgroup
  have hticket : done[i] ∈ trace.tickets :=
    hlast.talks.carries.order.subset (by simp)
  have hspoken := hlast.talks.spoken hlast.opened
  rw [hlast.onLine] at hspoken
  exact ⟨done[i], hticket, rfl, hsent, hspoken.settled _ (List.getElem_mem hdone)⟩

/-- Every request that a peer has read is that of a command whose frame was wholly taken. -/
theorem Reaches.length_sent (hreach : (blank timeouts buffering net).Reaches trace client)
    (line : Line) : (trace.sent line).length = (trace.requests line).length := by
  rcases hreach.last line with hsilent | ⟨link, done, waiting, queued, others, hlast⟩
  · rw [Trace.requests_of_silent hsilent, Trace.sent_of_silent hsilent]
    rfl
  · have hsent := hlast.talks.carries.places hlast.opened
    have hrequests := hlast.talks.carries.requests hreach.ordered.valid hlast.opened
    rw [hlast.onLine] at hsent hrequests
    rw [← hsent, hrequests, List.length_map, List.length_map]

/-- Only commands that were accepted are given up. -/
theorem Reaches.seq_lt_of_gives {incident : Incident} {seq : Nat}
    (hreach : (blank timeouts buffering net).Reaches trace client) (hmem : incident ∈ trace)
    (hgives : incident.GivesUp seq) : seq < client.ledger.nextSeq := by
  obtain ⟨-, hconserves⟩ := hreach.conserves
  have hplace {slot : Slot}
      (hslot : slot.original ∈ endedSlots trace.endings ++ trace.drops.map Slot.original) :
      slot.seq < client.ledger.nextSeq := by
    obtain ⟨ticket, hticket, hsame⟩ :=
      List.mem_map.mp (hconserves.symm.subset (List.mem_append_right _ hslot))
    have hlt := hreach.ordered.seq_lt hticket
    rw [hsame] at hlt
    exact hlt
  cases incident with
  | dropped slot =>
      cases hgives
      exact hplace (List.mem_append_right _ (List.mem_map_of_mem (Trace.mem_drops.mpr hmem)))
  | ended finished =>
      obtain ⟨rfl, -⟩ := hgives
      exact hplace (List.mem_append_left _ (List.mem_map.mpr
        ⟨finished, Trace.mem_endings.mpr hmem, rfl⟩))
  | _ => cases hgives

/-- A data operation gives its own command up only when it ends its wait. -/
theorem Waits.not_gaveUp {queued driven : Client ω} {incidents : Trace} {command : Command}
    {timeout : Option Nat} {slot : Slot}
    (hreach : (blank timeouts buffering net).Reaches trace client)
    (hwaits : client.Waits command timeout queued incidents driven)
    (hseq : slot.seq = client.ledger.nextSeq) :
    ¬ Trace.GaveUp (trace ++ .issued (client.nextTicket command) :: incidents) line slot := by
  rintro ⟨before, incident, after, hsplit, hgives, -⟩
  have hmem : incident ∈ trace ++ .issued (client.nextTicket command) :: incidents :=
    List.mem_iff_append.mpr ⟨_, _, hsplit⟩
  rw [hseq] at hgives
  rcases List.mem_append.mp hmem with hold | hmem
  · exact absurd (hreach.seq_lt_of_gives hold hgives) (Nat.lt_irrefl _)
  rcases List.mem_cons.mp hmem with rfl | hnow
  · exact hgives
  · exact hwaits.drives.allowed incident hnow _ hgives

/-- **A data operation whose replies were all read before it ended its wait returns their
result.** -/
theorem Waits.completes {queued driven : Client ω} {incidents : Trace} {command : Command}
    {timeout : Option Nat} {i : Nat} {group : List Response}
    (hreach : (blank timeouts buffering net).Reaches trace client)
    (hwaits : client.Waits command timeout queued incidents driven)
    (hanswering : Trace.Answering (trace ++ .issued (client.nextTicket command) :: incidents) line
      groups)
    (hsent : (Trace.sent (trace ++ .issued (client.nextTicket command) :: incidents) line)[i]?
      = some client.ledger.nextSeq)
    (hgroup : groups[i]? = some group)
    (hread : (groups.take (i + 1)).flatten
      <+: Trace.replies (trace ++ .issued (client.nextTicket command) :: incidents) line) :
    ∃ result, (client.nextTicket command).slot.outcome? group = some result ∧
      ((client.issue command timeout).1 = result.map .ready ∨
        (client.issue command timeout).1 = .error tooManyWaits) := by
  have hdriven := hwaits.reaches hreach
  have hwritten := (List.getElem?_eq_some_iff.mp hsent).1
  rw [hdriven.length_sent] at hwritten
  obtain ⟨ticket, hticket, -, hplace, hsettled⟩ :=
    hdriven.settled hanswering (List.getElem?_eq_getElem hwritten) hgroup hread
  rw [hsent, Option.some.injEq] at hplace
  rcases hsettled with hgave | ⟨finished, hfinished, hslot, hresult⟩
  · exact absurd hgave (hwaits.not_gaveUp hreach hplace.symm)
  have hseq : finished.slot.seq = client.ledger.nextSeq := by
    rw [← Slot.seq_original, ← hslot, hplace]
  have hissued : client.nextTicket command
      ∈ Trace.tickets (trace ++ .issued (client.nextTicket command) :: incidents) := by
    rw [Trace.tickets_append, Trace.tickets_cons]
    exact List.mem_append_right _ List.mem_cons_self
  have hsame : ticket = client.nextTicket command :=
    List.inj_on_of_nodup_map hdriven.ordered.nodup hticket hissued hplace.symm
  rw [hsame] at hresult
  exact ⟨finished.result, hresult, hwaits.result hreach hfinished hseq⟩

/-- **Late replies never put a line out of step.** The peer of a line answers every whole
request it receives, in order and however late.  Then every reply is given to a command and
none is refused.  A command whose replies were all read has ended with their result, unless
it was given up before they were all read, and a data operation whose replies were all read
before it ended its wait returns their result.  Data operations and flushes give nothing up
before they end their wait: at their deadline, after a wait that failed, or when the network
allows no more waits.  Then a data operation gives up its own command only, and a flush
buffered ones, as does a reset; no other call gives up anything.  A connected link stays
connected as long as its socket reports nothing, its server stays listed and no more than so
many abandoned slots are found on it. -/
theorem late_replies_in_step {net : ω} {config : Config} {start client : Client ω}
    {trace : Trace} {line : Line} {groups : List (List Response)}
    (hconfig : withConfig net config = .ok start) (hreach : start.Reaches trace client)
    (hanswering : trace.Answering line groups) :
    (trace.answers line).map (·.2) = trace.replies line ∧
    (∀ error, .lost line (.protocol error) ∉ trace) ∧
    (∀ i request group, (trace.requests line)[i]? = some request → groups[i]? = some group →
      (groups.take (i + 1)).flatten <+: trace.replies line →
      ∃ ticket ∈ trace.tickets, ticket.request = request ∧
        (trace.sent line)[i]? = some ticket.slot.seq ∧
        (trace.GaveUp line ticket.slot ∨ ∃ finished ∈ trace.endings,
          ticket.slot = finished.slot.original ∧
          ticket.slot.outcome? group = some finished.result)) ∧
    (∀ command timeout, (client.issue command timeout).2 = client ∨
      (client.issue command timeout).1 = .ok .buffered ∨
      ∃ queued incidents driven, client.Waits command timeout queued incidents driven ∧
        start.Reaches (trace ++ .issued (client.nextTicket command) :: incidents) driven ∧
        ∀ line groups i group,
          Trace.Answering (trace ++ .issued (client.nextTicket command) :: incidents) line groups →
          (Trace.sent (trace ++ .issued (client.nextTicket command) :: incidents) line)[i]?
            = some client.ledger.nextSeq →
          groups[i]? = some group →
          (groups.take (i + 1)).flatten
            <+: Trace.replies (trace ++ .issued (client.nextTicket command) :: incidents) line →
          ∃ result, (client.nextTicket command).slot.outcome? group = some result ∧
            ((client.issue command timeout).1 = result.map .ready ∨
              (client.issue command timeout).1 = .error tooManyWaits)) ∧
    (∀ timeout, ∃ incidents driven, start.Reaches (trace ++ incidents) driven ∧
      client.Drives Incident.Keeps incidents driven ∧
      client.Concludes .allBuffered (client.deadlineOf timeout) driven
        (client.run .allBuffered (client.deadlineOf timeout)) ∧
      ∀ completions, (client.flush timeout).1 = .ok completions →
        ∀ finished ∈ incidents.endings, finished.slot.delivery = .buffered →
          ∃ completion ∈ completions, completion.opcode = finished.slot.opcode ∧
            completion.key = finished.slot.key ∧ completion.result = finished.result) ∧
    (∀ call, ∃ incidents, client.Steps incidents (client.perform call).2 ∧
      start.Reaches (trace ++ incidents) (client.perform call).2 ∧
      ∀ incident ∈ incidents, incident.GivesUpOnly (call.forsakes client.ledger.nextSeq)) ∧
    ∀ more after groups, client.StandsOn line → client.Reaches more after →
      Trace.Answering (trace ++ more) line groups → .reported line ∉ more →
      (∀ count, .examined line count ∈ more → count ≤ maxAbandoned) →
      .lost line .removed ∉ more → after.StandsOn line := by
  have hblank := reaches_withConfig hconfig hreach
  refine ⟨hblank.answers_eq hanswering, hblank.not_refused hanswering, ?_, ?_, ?_, ?_, ?_⟩
  · intro i request group hrequest hgroup hread
    exact hblank.settled hanswering hrequest hgroup hread
  · intro command timeout
    rcases issue_waits client command timeout with
      hrefused | hbuffered | ⟨queued, incidents, driven, hwaits⟩
    · exact .inl hrefused
    · exact .inr (.inl hbuffered)
    · refine .inr (.inr ⟨queued, incidents, driven, hwaits, hwaits.reaches hreach, ?_⟩)
      intro line groups i group hanswering hsent hgroup hread
      exact hwaits.completes hblank hanswering hsent hgroup hread
  · intro timeout
    obtain ⟨incidents, driven, hdrives, hconcludes, hcompletions⟩ := flush_waits client timeout
    exact ⟨incidents, driven, hreach.steps hdrives.steps, hdrives, hconcludes, hcompletions⟩
  · intro call
    obtain ⟨incidents, hsteps, hgives⟩ := proceeds_perform client call
    exact ⟨incidents, hsteps, hreach.steps hsteps, hgives⟩
  · intro more after groups hstands hmore hanswering hreported hexamined hremoved
    have hall := reaches_withConfig hconfig (hreach.trans hmore)
    obtain ⟨-, hafter | hbroke⟩ := Reaches.stands hblank.conserves.1 hstands hmore
    · exact hafter
    · cases hbroke with
      | reported hmem => exact absurd hmem hreported
      | examined hmany hmem => exact absurd hmany (Nat.not_lt_of_le (hexamined _ hmem))
      | removed hmem => exact absurd hmem hremoved
      | refused hmem =>
          exact absurd (List.mem_append_right trace hmem) (hall.not_refused hanswering _)

/-- The reply that comes after its command was given up leaves the line connected. -/
theorem late_replies_in_step_after_failed_wait :
    ∃ client : Client Script,
      (Script.failing (.os 5 "Input/output error")).opened.Reaches
        (Script.abandoned ++ Script.arrival true) client ∧
      Trace.Answering (Script.abandoned ++ Script.arrival true) Script.wire [[Script.pong]] ∧
      (Trace.answers (Script.abandoned ++ Script.arrival true) Script.wire).map (·.2)
        = Trace.replies (Script.abandoned ++ Script.arrival true) Script.wire ∧
      (∀ error, .lost Script.wire (.protocol error) ∉ Script.abandoned ++ Script.arrival true) ∧
      client.StandsOn Script.wire := by
  have hissue := Script.reaches_issue (.os 5 "Input/output error")
  obtain ⟨client, harrival, -⟩ := Script.reaches_arrival (.os 5 "Input/output error") 50
  have hreach := hissue.trans harrival
  obtain ⟨hanswers, hrefused, -⟩ :=
    late_replies_in_step (Script.withConfig_opened _) hreach Script.answering_arrival
  obtain ⟨-, -, -, -, -, -, hstands⟩ :=
    late_replies_in_step (Script.withConfig_opened _) hissue Script.answering_arrival.left
  obtain ⟨log, hfailing⟩ := Script.issue_failing (.os 5 "Input/output error")
  have hstood : StandsOn
      ((Script.failing (.os 5 "Input/output error")).opened.issue (.noop 0) none).2
      Script.wire := by
    rw [hfailing]
    exact ⟨Script.waitingLink 0 true, List.mem_singleton_self _, rfl, 0, rfl⟩
  refine ⟨client, hreach, Script.answering_arrival, hanswers, hrefused, ?_⟩
  refine hstands _ client _ hstood harrival Script.answering_arrival ?_ ?_ ?_
  · simp [Script.arrival]
  · simp [Script.arrival]
  · simp [Script.arrival]

/-- A command whose reply is there long before its deadline fails when a wait fails: the
peer answers, the reply is read at time 50 and belongs to the command, whose deadline is
1000, but the call has returned the error of the wait, and the reply ends nothing. -/
theorem reply_without_command_after_failed_wait :
    ∃ client : Client Script,
      withConfig (Script.failing (.os 5 "Input/output error")) Config.default
        = .ok (Script.failing (.os 5 "Input/output error")).opened ∧
      (Script.failing (.os 5 "Input/output error")).opened.deadlineOf none = 1000 ∧
      ((Script.failing (.os 5 "Input/output error")).opened.issue (.noop 0) none).1
        = .error (.io (.os 5 "Input/output error")) ∧
      (Script.failing (.os 5 "Input/output error")).opened.Reaches Script.abandoned
        ((Script.failing (.os 5 "Input/output error")).opened.issue (.noop 0) none).2 ∧
      ((Script.failing (.os 5 "Input/output error")).opened.issue (.noop 0) none).2.Reaches
        (Script.arrival true) client ∧
      client.net.clock = 50 ∧
      Trace.Answering (Script.abandoned ++ Script.arrival true) Script.wire [[Script.pong]] ∧
      Trace.answersTo (Script.abandoned ++ Script.arrival true) Script.wire Script.ping.slot.seq
        = [Script.pong] ∧
      Script.ping.slot.outcome? [Script.pong] = some (.ok .done) ∧
      Trace.endings (Script.abandoned ++ Script.arrival true) = [] := by
  obtain ⟨client, harrival, hclock⟩ := Script.reaches_arrival (.os 5 "Input/output error") 50
  obtain ⟨log, hfailing⟩ := Script.issue_failing (.os 5 "Input/output error")
  refine ⟨client, Script.withConfig_opened _, rfl, ?_, Script.reaches_issue _, harrival, hclock,
    Script.answering_arrival, rfl, rfl, rfl⟩
  rw [hfailing]

end Client

end CachePool
