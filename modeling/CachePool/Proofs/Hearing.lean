/-
# What a link has heard

The invariant of a link that its replies are given to its commands in order: the commands
whose frames are written are those that are answered and those that wait, and the slots
that wait are as far as the replies so far have brought them.

* `Link.Talks` : the invariant while replies are given to commands;
* `Link.Converses` : and between two reads;
* `Link.converses_invariant` : every step of a link keeps it.
-/
import CachePool.Proofs.Conversation

namespace CachePool

namespace Link

/-! ## The invariant -/

/-- How far the replies on a line have brought a command that waits. -/
def Progress (trace : Trace) (line : Line) (ticket : Ticket) (slot : Slot) : Prop :=
  ticket.slot.progress? (trace.answersTo line ticket.slot.seq) = some slot.unmarked

/-- The commands whose frames are written: those that are answered and those that wait,
with the frames that are queued. -/
structure Talks (trace : Trace) (link : Link) (done waiting queued : List Ticket) : Prop where
  carries : link.Carries trace (done ++ waiting) queued
  waits : List.Forall₂ (Progress trace link.line) waiting link.awaiting
  marked : ∀ slot ∈ link.unsent ++ link.awaiting, slot.abandoned = true →
    trace.GaveUp link.line slot
  spoken : link.phase.socket? ≠ none → trace.Spoken link.line done waiting

/-- Between two reads all whole frames were given to commands. -/
structure Converses (trace : Trace) (link : Link) (done waiting queued : List Ticket) : Prop
    extends Talks trace link done waiting queued where
  heard : link.phase.socket? ≠ none →
    (trace.answers link.line).map (·.2) = trace.replies link.line ∧
      link.inbound = (Response.kind.split (trace.given link.line)).rest ∧
      (Response.kind.split (trace.given link.line)).fault = none
  /-- Nothing is left over for the next socket. -/
  deaf : link.phase.socket? = none → link.inbound = []

variable {trace incidents : Trace} {link : Link} {done waiting queued : List Ticket}

/-- Incidents that take nothing from a line and give no replies change nothing. -/
theorem Talks.aside {more : Trace} (htaken : more.taken link.line = [])
    (hsent : more.sent link.line = []) (hnone : more.answers link.line = [])
    (htalks : link.Talks trace done waiting queued) :
    link.Talks (trace ++ more) done waiting queued where
  carries := htalks.carries.aside htaken hsent
  waits := by
    apply htalks.waits.imp
    intro ticket slot hprogress
    rw [Progress, Trace.answersTo_aside hnone]
    exact hprogress
  marked slot hmem hslot := (htalks.marked slot hmem hslot).append more
  spoken hopen := (htalks.spoken hopen).aside hnone

/-- Incidents that leave a line alone change nothing. -/
theorem Converses.aside {more : Trace} (hsilent : more.Silent link.line)
    (hconverses : link.Converses trace done waiting queued) :
    link.Converses (trace ++ more) done waiting queued where
  toTalks := hconverses.toTalks.aside (Trace.taken_of_silent hsilent)
    (Trace.sent_of_silent hsilent) (Trace.answers_of_silent hsilent)
  heard := by
    rw [Trace.replies, Trace.answers_append, Trace.given_append, Trace.answers_of_silent hsilent,
      Trace.given_of_silent hsilent, List.append_nil, List.append_nil]
    exact hconverses.heard
  deaf := hconverses.deaf

/-- A link without a socket on which no command waits. -/
theorem converses_vacant (hidle : link.phase.socket? = none) (hunsent : link.unsent = [])
    (hawaiting : link.awaiting = []) (houtbound : link.outbound = [])
    (hhead : link.headWritten = 0) (hinbound : link.inbound = []) :
    link.Converses trace [] [] [] where
  carries := carries_vacant hidle hunsent houtbound hhead
  waits := by rw [hawaiting]; exact .nil
  marked := by
    rw [hunsent, hawaiting]
    intro _ hmem
    cases hmem
  spoken hopen := absurd hidle hopen
  heard hopen := absurd hidle hopen
  deaf _ := hinbound

/-- Commands that were written have places of their own. -/
theorem Talks.nodup (htickets : (trace.tickets.map (·.slot.seq)).Nodup)
    (htalks : link.Talks trace done waiting queued) :
    ((done ++ waiting).map (·.slot.seq)).Nodup :=
  htickets.sublist (((List.sublist_append_left _ _).trans htalks.carries.order).map _)

/-! ## Giving replies -/

/-- What matching a reply says: the first command waits for it, and it either takes one
more text or ends. -/
theorem matchReply_cases {next : Link} {slot : Slot} {queue : List Slot} {response : Response}
    {finished : List Finished} (hqueue : link.awaiting = slot :: queue)
    (hmatch : link.matchReply response = .ok (next, finished)) :
    response.tag = slot.tag ∧ response.opcode = slot.opcode ∧
      ((∃ more, slot.accept response = .more more ∧ finished = [] ∧
          next = { link with awaiting := more :: queue }) ∨
        ∃ result, slot.accept response = .final result ∧
          next = { link with awaiting := queue } ∧
          finished
            = if slot.isLive then [{ server := link.server.index, slot, result }] else []) := by
  unfold matchReply at hmatch
  rw [hqueue] at hmatch
  dsimp only at hmatch
  split at hmatch
  · cases hmatch
  rename_i htag
  split at hmatch
  · cases hmatch
  rename_i hopcode
  refine ⟨not_not.mp htag, not_not.mp hopcode, ?_⟩
  split at hmatch
  · rename_i more haccept
    cases hmatch
    exact .inl ⟨more, haccept, rfl, rfl⟩
  · rename_i result haccept
    cases hmatch
    exact .inr ⟨result, haccept, rfl, rfl⟩

/-- A reply with the tag and the opcode of the first command that waits fits. -/
theorem matchReply_fits {slot : Slot} {queue : List Slot} {response : Response}
    (hqueue : link.awaiting = slot :: queue) (htag : response.tag = slot.tag)
    (hopcode : response.opcode = slot.opcode) :
    ∃ matched, link.matchReply response = .ok matched := by
  unfold matchReply
  rw [hqueue]
  dsimp only
  rw [if_neg (not_not.mpr htag), if_neg (not_not.mpr hopcode)]
  split
  · exact ⟨_, rfl⟩
  · exact ⟨_, rfl⟩

/-- What a reply adds to the trace: it is given to a command, which may end. -/
def reply (line : Line) (seq : Nat) (response : Response) (finished : List Finished) : Trace :=
  .answered line seq response :: finished.map .ended

theorem answers_reply (line : Line) (seq : Nat) (response : Response) (finished : List Finished) :
    (reply line seq response finished).answers line = [(seq, response)] := by
  rw [reply, Trace.answers_cons, Trace.answers_of_silent (Trace.silent_map_ended _ line),
    Incident.answers, if_pos rfl, List.append_nil]

theorem tickets_reply (line : Line) (seq : Nat) (response : Response) (finished : List Finished) :
    (reply line seq response finished).tickets = [] := by
  apply @Trace.tickets_of_about _ line
  intro incident hmem
  rcases List.mem_cons.mp hmem with rfl | hmem
  · exact .on rfl rfl
  · exact .of_ended hmem

/-- A slot that waits is the command's, but for its statistics and who gave up. -/
theorem Progress.original {line : Line} {ticket : Ticket} {slot : Slot} (hvalid : ticket.Valid)
    (hprogress : Progress trace line ticket slot) : ticket.slot = slot.original := by
  rw [← hvalid.original, ← Slot.original_of_progress hprogress, Slot.original_unmarked]

/-- The first command that waits, with its ticket. -/
theorem Talks.head {slot : Slot} {queue : List Slot}
    (hvalid : ∀ ticket ∈ trace.tickets, ticket.Valid)
    (htalks : link.Talks trace done waiting queued) (hqueue : link.awaiting = slot :: queue) :
    ∃ ticket others, waiting = ticket :: others ∧ ticket.slot = slot.original ∧
      Progress trace link.line ticket slot ∧
      List.Forall₂ (Progress trace link.line) others queue := by
  have hwaits := htalks.waits
  rw [hqueue] at hwaits
  obtain ⟨ticket, others, hprogress, hothers, rfl⟩ := List.forall₂_cons_right_iff.mp hwaits
  have hticket : ticket ∈ trace.tickets := htalks.carries.order.subset (by simp)
  exact ⟨ticket, others, rfl, hprogress.original (hvalid ticket hticket), hprogress, hothers⟩

/-- The next frame of a line is matched with the first command that waits. -/
theorem Talks.matched {ticket : Ticket} {others : List Ticket} {slot : Slot} {response : Response}
    (hopen : link.phase.socket? ≠ none) (htalks : link.Talks trace done (ticket :: others) queued)
    (hslot : ticket.slot = slot.original) (hprogress : Progress trace link.line ticket slot)
    (htag : response.tag = slot.tag) (hopcode : response.opcode = slot.opcode)
    (hnext : (trace.answers link.line).map (·.2) ++ [response] <+: trace.replies link.line) :
    trace.Matched link.line response done ticket others where
  tag := by rw [htag, hslot]; rfl
  opcode := by rw [hopcode, hslot]; rfl
  order := (List.sublist_append_left _ _).trans htalks.carries.order
  places := htalks.carries.places hopen
  written := by
    rw [htalks.carries.taken hopen]
    exact List.prefix_append _ _
  next := hnext
  answered := (htalks.spoken hopen).answered
  unanswered := Slot.outcome?_of_progress hprogress

/-- Replies take nothing on any line, and leave the frames of a link as they are. -/
theorem Carries.reply {written : List Ticket} (awaiting : List Slot) (seq : Nat)
    (response : Response) (finished : List Finished)
    (hcarries : link.Carries trace written queued) :
    ({ link with awaiting }).Carries (trace ++ Link.reply link.line seq response finished) written
      queued := by
  have hended := Trace.silent_map_ended finished link.line
  have h := @Carries.aside _ _ _ _ (Link.reply link.line seq response finished)
    (by rw [Link.reply, Trace.taken_cons, Trace.taken_of_silent hended]; rfl)
    (by rw [Link.reply, Trace.sent_cons, Trace.sent_of_silent hended]; rfl) hcarries
  exact ⟨h.order, h.slots, h.outbound, h.head, h.idle, h.places, h.taken⟩

/-- A reply to one command leaves the others where they are. -/
theorem progress_others {more : Trace} {line : Line} {ticket : Ticket} {others : List Ticket}
    {queue : List Slot} {response : Response}
    (hdistinct : ((done ++ ticket :: others).map (·.slot.seq)).Nodup)
    (hreply : more.answers line = [(ticket.slot.seq, response)])
    (hothers : List.Forall₂ (Progress trace line) others queue) :
    List.Forall₂ (Progress (trace ++ more) line) others queue := by
  have hboth := (List.forall₂_and_left (p := (· ∈ done ++ others)) others queue).mpr
    ⟨fun _ hother => List.mem_append_right _ hother, hothers⟩
  apply hboth.imp
  intro other slot hother
  rw [Progress, Trace.answersTo_others hdistinct hreply hother.1]
  exact hother.2

/-- A command with its last reply has ended, or was given up before. -/
theorem settled_by_reply {ticket : Ticket} {slot : Slot} {response : Response}
    {result : Except ClientError Output} {finished : List Finished}
    (hslot : ticket.slot = slot.original)
    (hmarked : slot.abandoned = true → trace.GaveUp link.line slot)
    (hfinished : finished
      = if slot.isLive then [{ server := link.server.index, slot, result }] else [])
    (hresult : ticket.slot.outcome? (Trace.answersTo
      (trace ++ Link.reply link.line slot.seq response finished) link.line ticket.slot.seq)
        = some result) :
    (trace ++ Link.reply link.line slot.seq response finished).Settled link.line ticket := by
  cases hlive : slot.isLive with
  | true =>
      rw [hlive, if_pos rfl] at hfinished
      refine .inr ⟨{ server := link.server.index, slot, result }, ?_, hslot, hresult⟩
      rw [Trace.endings_append, Link.reply, Trace.endings_cons, hfinished]
      exact List.mem_append_right _ List.mem_cons_self
  | false =>
      have habandoned : slot.abandoned = true := by simpa [Slot.isLive] using hlive
      rw [Trace.Settled, hslot]
      exact .inl ((hmarked habandoned).append _)

/-- A reply brings the first command that waits one step further, and no other. -/
theorem Talks.reply {next : Link} {slot : Slot} {queue : List Slot} {response : Response}
    {finished : List Finished} {ticket : Ticket} {others : List Ticket}
    (htickets : (trace.tickets.map (·.slot.seq)).Nodup) (hopen : link.phase.socket? ≠ none)
    (htalks : link.Talks trace done (ticket :: others) queued) (hslot : ticket.slot = slot.original)
    (hprogress : Progress trace link.line ticket slot)
    (hothers : List.Forall₂ (Progress trace link.line) others queue)
    (hqueue : link.awaiting = slot :: queue)
    (hmatch : link.matchReply response = .ok (next, finished)) :
    ∃ done' waiting',
      next.Talks (trace ++ Link.reply link.line slot.seq response finished)
        done' waiting' queued := by
  have hseq : ticket.slot.seq = slot.seq := by
    rw [hslot]
    rfl
  have hdistinct := htalks.nodup htickets
  have hreply : (Link.reply link.line slot.seq response finished).answers link.line
      = [(ticket.slot.seq, response)] := by
    rw [answers_reply, hseq]
  have hspoken := (htalks.spoken hopen).reply hdistinct hreply
  have hself := @Trace.answersTo_reply trace _ _ _ _ hreply ticket.slot.seq
  rw [if_pos rfl] at hself
  have hwaits := progress_others hdistinct hreply hothers
  have hmarked {slots : List Slot} (hsub : slots ⊆ link.awaiting) (slot' : Slot)
      (hmem : slot' ∈ link.unsent ++ slots) (habandoned : slot'.abandoned = true) :
      (trace ++ Link.reply link.line slot.seq response finished).GaveUp link.line slot' :=
    (htalks.marked slot' (List.append_subset.mpr ⟨List.subset_append_left _ _,
      List.Subset.trans hsub (List.subset_append_right _ _)⟩ hmem) habandoned).append _
  -- more replies to the command follow, or it ends with this one
  obtain ⟨-, -, ⟨more, haccept, -, rfl⟩ | ⟨result, haccept, rfl, hfinished⟩⟩ :=
    matchReply_cases hqueue hmatch
  · refine ⟨done, ticket :: others, htalks.carries.reply _ _ _ _, .cons ?_ hwaits, ?_,
      fun _ => hspoken⟩
    · show ticket.slot.progress? (Trace.answersTo _ link.line ticket.slot.seq) = _
      rw [hself, Slot.progress?_append hprogress, Slot.progress?, Slot.accept_unmarked, haccept]
      rfl
    · intro slot' hmem habandoned
      rcases List.mem_append.mp hmem with hunsent | hawaiting
      · exact hmarked (List.nil_subset _) slot' (List.mem_append_left _ hunsent) habandoned
      rcases List.mem_cons.mp hawaiting with rfl | hrest
      · obtain ⟨-, -, -, rfl⟩ := Slot.accept_more haccept
        exact hmarked (List.Subset.refl _) slot
          (List.mem_append_right _ (hqueue ▸ List.mem_cons_self)) habandoned
      · exact hmarked (hqueue ▸ List.subset_cons_self _ _) slot' (List.mem_append_right _ hrest)
          habandoned
  · have hresult : ticket.slot.outcome? (Trace.answersTo
        (trace ++ Link.reply link.line slot.seq response finished) link.line ticket.slot.seq)
          = some result := by
      rw [hself, Slot.outcome?_append hprogress, Slot.outcome?, Slot.accept_unmarked, haccept]
      rfl
    have hsettled := settled_by_reply hslot
      (htalks.marked slot (List.mem_append_right _ (hqueue ▸ List.mem_cons_self))) hfinished hresult
    refine ⟨done ++ [ticket], others, ?_, hwaits, ?_, fun _ => ?_⟩
    · rw [List.append_assoc]
      exact htalks.carries.reply _ _ _ _
    · exact hmarked (hqueue ▸ List.subset_cons_self _ _)
    · exact hspoken.finish (by rw [hresult]; rfl) hsettled

/-- What a reply adds to the trace is founded. -/
theorem Talks.founded {next : Link} {slot : Slot} {queue : List Slot} {response : Response}
    {finished : List Finished} {ticket : Ticket} {others : List Ticket}
    (hmatched : trace.Matched link.line response done ticket others)
    (hslot : ticket.slot = slot.original) (hprogress : Progress trace link.line ticket slot)
    (hqueue : link.awaiting = slot :: queue)
    (hmatch : link.matchReply response = .ok (next, finished)) :
    Trace.Each Incident.Founded trace (Link.reply link.line slot.seq response finished) := by
  have hseq : ticket.slot.seq = slot.seq := by
    rw [hslot]
    rfl
  refine ⟨⟨done, ticket, others, hseq, hmatched⟩, ?_⟩
  obtain ⟨-, -, ⟨more, -, rfl, -⟩ | ⟨result, haccept, -, rfl⟩⟩ := matchReply_cases hqueue hmatch
  · trivial
  split
  · have hanswers : Trace.answersTo (trace ++ [.answered link.line slot.seq response]) link.line
        slot.seq = trace.answersTo link.line slot.seq ++ [response] := by
      have hreply := answers_reply link.line slot.seq response []
      have hself := @Trace.answersTo_reply trace _ _ _ _ hreply slot.seq
      rw [if_pos rfl] at hself
      exact hself
    refine ⟨fun _ => ⟨link.line, ticket, ?_, hslot, ?_⟩, trivial⟩
    · rw [Trace.tickets_append]
      exact List.mem_append_left _ (hmatched.order.subset (by simp))
    · rw [hseq, hanswers, ← hseq, Slot.outcome?_append hprogress, Slot.outcome?,
        Slot.accept_unmarked, haccept]
      rfl
  · trivial

/-- **Replies that are given to commands one after the other are founded**, and bring the
commands further in their order. -/
theorem Answers.talks {last : Link} {responses : List Response} (rest : List Response)
    (hanswers : Answers link responses incidents last)
    (hvalid : ∀ ticket ∈ trace.tickets, ticket.Valid)
    (htickets : (trace.tickets.map (·.slot.seq)).Nodup) (hopen : link.phase.socket? ≠ none)
    (htalks : link.Talks trace done waiting queued)
    (hheard : (trace.answers link.line).map (·.2) ++ (responses ++ rest)
      = trace.replies link.line) :
    Trace.Each Incident.Founded trace incidents ∧
      (∃ done' waiting', last.Talks (trace ++ incidents) done' waiting' queued) ∧
      ((trace ++ incidents).answers link.line).map (·.2) ++ rest
        = (trace ++ incidents).replies link.line := by
  induction hanswers generalizing trace done waiting with
  | nil =>
      rw [List.append_nil]
      exact ⟨trivial, ⟨done, waiting, htalks⟩, hheard⟩
  | @cons link next last slot queue response responses finished incidents hqueue hmatch hothers
      ih =>
      obtain ⟨ticket, others, rfl, hslot, hprogress, hwaits⟩ := htalks.head hvalid hqueue
      obtain ⟨htag, hopcode, -⟩ := matchReply_cases hqueue hmatch
      have hmatched := htalks.matched hopen hslot hprogress htag hopcode
        ⟨responses ++ rest, by rw [← hheard]; simp⟩
      obtain ⟨done', waiting', hnext⟩ :=
        htalks.reply htickets hopen hslot hprogress hwaits hqueue hmatch
      have hended := Trace.silent_map_ended finished link.line
      have hgiven : (Link.reply link.line slot.seq response finished).given link.line = [] := by
        rw [Link.reply, Trace.given_cons, Trace.given_of_silent hended]
        rfl
      have htickets' := tickets_reply link.line slot.seq response finished
      have hline : next.line = link.line := by
        rw [matchReply_eq hmatch]
        rfl
      have hrest := @ih (trace ++ Link.reply link.line slot.seq response finished) done' waiting'
        (by rw [Trace.tickets_append, htickets', List.append_nil]; exact hvalid)
        (by rw [Trace.tickets_append, htickets', List.append_nil]; exact htickets)
        (by rw [matchReply_eq hmatch]; exact hopen) hnext (by
          rw [hline, Trace.answers_append, answers_reply, Trace.replies, Trace.given_append, hgiven,
            List.append_nil, ← Trace.replies, ← hheard]
          simp)
      rw [hline, List.append_assoc] at hrest
      exact ⟨(Talks.founded hmatched hslot hprogress hqueue hmatch).append hrest.1, hrest.2⟩

/-! ## Steps of a link -/

/-- A queue and its tickets, one by one. -/
theorem forall₂_of_holds {tickets : List Ticket} {slots : List Slot}
    (hholds : Holds tickets slots) :
    List.Forall₂ (fun ticket slot => ticket.slot = slot.unmarked) tickets slots := by
  induction slots generalizing tickets with
  | nil =>
      rw [List.map_eq_nil_iff.mp hholds]
      exact .nil
  | cons slot slots ih =>
      obtain ⟨ticket, others, rfl, hslot, hothers⟩ := holds_cons hholds
      exact .cons hslot (ih hothers)

theorem answers_map_sent (line : Line) (slots : List Slot) :
    Trace.answers (slots.map fun slot => .sent line slot.seq) line = [] := by
  rw [Trace.answers, List.flatMap_eq_nil_iff]
  intro incident hmem
  obtain ⟨slot, -, rfl⟩ := List.mem_map.mp hmem
  rfl

/-- Giving replies to commands reads nothing. -/
theorem Answers.ungiven {last : Link} {responses : List Response} {line : Line}
    (hanswers : Answers link responses incidents last) : incidents.given line = [] := by
  induction hanswers with
  | nil => rfl
  | cons _ _ _ ih =>
      rw [Trace.given_append, Trace.given_cons, ih,
        Trace.given_of_silent (Trace.silent_map_ended _ line)]
      rfl

/-- Octets that a socket takes bring commands to those that wait. -/
theorem Talks.wrote {count : Nat} (hvalid : ∀ ticket ∈ trace.tickets, ticket.Valid)
    (htickets : (trace.tickets.map (·.slot.seq)).Nodup) (hopen : link.phase.socket? ≠ none)
    (htalks : link.Talks trace done waiting queued) :
    ∃ sent kept,
      (link.wrote count).Talks
        (trace ++ (.took link.line (link.outbound.take count)
          :: (link.finishedBy count).map fun slot => .sent link.line slot.seq))
        done (waiting ++ sent) kept := by
  obtain ⟨sent, kept, rfl, hsent, hcarries⟩ :=
    @Carries.wrote _ _ _ _ count hvalid hopen htalks.carries
  have hnone : Trace.answers (.took link.line (link.outbound.take count)
      :: (link.finishedBy count).map fun slot => .sent link.line slot.seq) link.line = [] := by
    rw [Trace.answers_cons, answers_map_sent]
    rfl
  have hspoken := htalks.spoken hopen
  have hdistinct := htickets.sublist (htalks.carries.order.map _)
  -- a command whose frame ends only now has no reply yet
  have hfresh : ∀ ticket ∈ sent, trace.answersTo link.line ticket.slot.seq = [] := by
    intro ticket hticket
    apply Trace.answersTo_eq_nil
    intro answer hmem hseq
    have hknown := hspoken.known answer hmem
    rw [List.map_append, List.nodup_append] at hdistinct
    refine hdistinct.2.2 _ hknown _ ?_ hseq
    exact List.mem_map.mpr ⟨ticket, List.mem_append_left _ hticket, rfl⟩
  rw [List.append_assoc] at hcarries
  refine ⟨sent, kept, hcarries, List.rel_append ?_ ?_, ?_, fun _ => ?_⟩
  · apply htalks.waits.imp
    intro ticket slot hprogress
    show ticket.slot.progress? (Trace.answersTo _ link.line ticket.slot.seq) = _
    rw [Trace.answersTo_aside hnone]
    exact hprogress
  · have hboth := (List.forall₂_and_left (p := (· ∈ sent)) sent _).mpr
      ⟨fun _ hmem => hmem, forall₂_of_holds hsent⟩
    apply hboth.imp
    intro ticket slot hticket
    show ticket.slot.progress? (Trace.answersTo _ link.line ticket.slot.seq) = _
    rw [Trace.answersTo_aside hnone, hfresh ticket hticket.1, ← hticket.2]
    rfl
  · intro slot hmem habandoned
    have hslots : (link.wrote count).unsent ++ (link.wrote count).awaiting
        ⊆ link.unsent ++ link.awaiting := by
      have hunsent := append_splitWritten (link.headWritten + (link.outbound.take count).length)
        link.unsent
      intro slot hmem
      rw [← hunsent]
      simp only [wrote, List.mem_append] at hmem ⊢
      tauto
    exact (htalks.marked slot (hslots hmem) habandoned).append _
  · exact (hspoken.sent hfresh).aside hnone

/-- Slots that are kept when others are given up were there before, or are given up now. -/
theorem mem_sweep_kept {condition : Slot → Bool} {written : Nat} {slots : List Slot}
    {octets : Bytes} {slot : Slot} (hmem : slot ∈ (sweep condition written slots octets).kept) :
    slot ∈ slots ∨ 0 < written ∧ ∃ given ∈ (sweep condition written slots octets).dropped,
      slot = { given with abandoned := true } := by
  induction slots generalizing written octets with
  | nil => cases hmem
  | cons first slots ih =>
      -- behind the first slot nothing is written, so that no slot there is kept and given up
      have hbehind {octets : Bytes} (hmem : slot ∈ (sweep condition 0 slots octets).kept) :
          slot ∈ first :: slots := by
        rcases ih hmem with hold | ⟨hnone, -⟩
        · exact List.mem_cons_of_mem _ hold
        · exact absurd hnone (Nat.lt_irrefl 0)
      unfold sweep at hmem ⊢
      dsimp only at hmem ⊢
      split at hmem
      · rcases List.mem_cons.mp hmem with rfl | hmem
        · exact .inl List.mem_cons_self
        · exact .inl (hbehind hmem)
      rename_i hgiven
      rw [if_neg hgiven]
      split at hmem
      · rename_i hpart
        rw [if_pos hpart]
        rcases List.mem_cons.mp hmem with rfl | hmem
        · exact .inr ⟨hpart, first, List.mem_cons_self, rfl⟩
        · exact .inl (hbehind hmem)
      · exact .inl (hbehind hmem)

/-- Slots that stay when others are given up were there before, or are given up now. -/
theorem mem_kept_abandon {condition : Slot → Bool} {slot : Slot}
    (hmem : slot ∈ (link.abandon condition).1.unsent ++ (link.abandon condition).1.awaiting) :
    slot ∈ link.unsent ++ link.awaiting ∨ (0 < link.headWritten ∨ link.awaiting ≠ []) ∧
      ∃ given ∈ (link.abandon condition).2, slot = { given with abandoned := true } := by
  rcases List.mem_append.mp hmem with hmem | hmem
  · rcases mem_sweep_kept hmem with hold | ⟨hpart, given, hdropped, heq⟩
    · exact .inl (List.mem_append_left _ hold)
    · exact .inr ⟨.inl hpart, given, List.mem_append_left _ hdropped, heq⟩
  · obtain ⟨old, hold, rfl⟩ := List.mem_map.mp hmem
    unfold abandonIf
    split
    · rename_i hgiven
      exact .inr ⟨.inr (List.ne_nil_of_mem hold), old,
        List.mem_append_right _ (List.mem_filter.mpr ⟨hold, hgiven⟩), rfl⟩
    · exact .inl (List.mem_append_right _ hold)

/-- A link without a socket waits for nobody. -/
theorem Talks.idle (htalks : link.Talks trace done waiting queued)
    (hidle : link.phase.socket? = none) : done = [] ∧ waiting = [] ∧ link.awaiting = [] := by
  obtain ⟨hnone, -⟩ := htalks.carries.idle hidle
  obtain ⟨rfl, rfl⟩ := List.append_eq_nil_iff.mp hnone
  exact ⟨rfl, rfl, List.forall₂_nil_left_iff.mp htalks.waits⟩

/-- Whatever stands in the second of two lists that go together has its partner in the first. -/
theorem exists_of_forall₂ {α β : Type} {relates : α → β → Prop} {front : List α} {back : List β}
    (hboth : List.Forall₂ relates front back) {second : β} (hmem : second ∈ back) :
    ∃ first ∈ front, relates first second := by
  induction hboth with
  | nil => cases hmem
  | @cons first other _ _ hrelates _ ih =>
      rcases List.mem_cons.mp hmem with rfl | hmem
      · exact ⟨first, List.mem_cons_self, hrelates⟩
      · obtain ⟨partner, hpartner, hrelates⟩ := ih hmem
        exact ⟨partner, List.mem_cons_of_mem _ hpartner, hrelates⟩

/-- A command that waits or whose frame is queued does not have all its replies. -/
theorem Talks.unanswered (hvalid : ∀ ticket ∈ trace.tickets, ticket.Valid)
    (htickets : (trace.tickets.map (·.slot.seq)).Nodup) (hopen : link.phase.socket? ≠ none)
    (htalks : link.Talks trace done waiting queued) {slot : Slot}
    (hmem : slot ∈ link.unsent ++ link.awaiting) :
    slot.original.outcome? (trace.answersTo link.line slot.seq) = none := by
  rcases List.mem_append.mp hmem with hunsent | hawaiting
  · have hseq : slot.seq ∈ queued.map (·.slot.seq) := by
      rw [htalks.carries.slots.seqs]
      exact List.mem_map.mpr ⟨slot, hunsent, rfl⟩
    have hdistinct := htickets.sublist (htalks.carries.order.map _)
    rw [List.map_append, List.nodup_append] at hdistinct
    have hnone : trace.answersTo link.line slot.seq = [] := by
      apply Trace.answersTo_eq_nil
      intro answer hanswer
      exact hdistinct.2.2 _ ((htalks.spoken hopen).known answer hanswer) _ hseq
    rw [hnone]
    rfl
  · obtain ⟨ticket, hticket, hprogress⟩ := exists_of_forall₂ htalks.waits hawaiting
    have horiginal := hprogress.original (hvalid ticket (htalks.carries.order.subset
      (List.mem_append_left _ (List.mem_append_right _ hticket))))
    have hnone := Slot.outcome?_of_progress hprogress
    rw [horiginal] at hnone
    exact hnone

/-- Giving up on slots marks those that wait, and those whose frames are partly written. -/
theorem Talks.abandon {condition : Slot → Bool} {more : Trace}
    (hvalid : ∀ ticket ∈ trace.tickets, ticket.Valid)
    (htickets : (trace.tickets.map (·.slot.seq)).Nodup) (hsilent : more.Silent link.line)
    (hgives : ∀ slot ∈ (link.abandon condition).2, ∃ incident ∈ more, incident.GivesUp slot.seq)
    (htalks : link.Talks trace done waiting queued) :
    ∃ kept, (link.abandon condition).1.Talks (trace ++ more) done waiting kept := by
  obtain ⟨kept, hcarries⟩ := @Carries.abandon _ _ _ _ condition hvalid htalks.carries
  have hnone := Trace.answers_of_silent hsilent
  refine ⟨kept, hcarries.aside (Trace.taken_of_silent hsilent) (Trace.sent_of_silent hsilent),
    ?_, ?_, fun hopen => (htalks.spoken hopen).aside hnone⟩
  · show List.Forall₂ _ waiting (link.awaiting.map (abandonIf condition))
    rw [List.forall₂_map_right_iff]
    apply htalks.waits.imp
    intro ticket slot hprogress
    have hsame : (abandonIf condition slot).unmarked = slot.unmarked := by
      unfold abandonIf
      split <;> rfl
    show ticket.slot.progress? (Trace.answersTo _ link.line ticket.slot.seq) = _
    rw [Trace.answersTo_aside hnone, hsame]
    exact hprogress
  · intro slot hmem habandoned
    rcases mem_kept_abandon hmem with hold | ⟨hbusy, given, hdropped, rfl⟩
    · exact (htalks.marked slot hold habandoned).append more
    · have hopen : link.phase.socket? ≠ none := by
        intro hidle
        rcases hbusy with hpart | hwaits
        · exact absurd (htalks.carries.idle hidle).2 (Nat.ne_of_gt hpart)
        · exact hwaits (htalks.idle hidle).2.2
      obtain ⟨incident, hincident, hgave⟩ := hgives given hdropped
      obtain ⟨front, back, rfl⟩ := List.append_of_mem hincident
      refine ⟨trace ++ front, incident, back, by rw [List.append_assoc], hgave, ?_⟩
      have hfront : Trace.Silent front link.line :=
        fun other hother => hsilent other (List.mem_append_left _ hother)
      show given.original.outcome? (Trace.answersTo _ link.line given.seq) = none
      rw [Trace.answersTo_aside (Trace.answers_of_silent hfront)]
      exact htalks.unanswered hvalid htickets hopen (mem_abandon hdropped).1

/-- Nothing was said on a new socket. -/
theorem Converses.opened {now deadline : Nat} {socket : Socket}
    (hsilent : trace.Silent (link.attempting now).line) (hidle : link.phase.socket? = none)
    (hconverses : link.Converses trace done waiting queued) :
    ({ link.attempting now with phase := .connecting socket deadline }).Converses
      (trace ++ [Incident.opened (link.attempting now).line]) [] [] queued := by
  obtain ⟨rfl, rfl, hawaiting⟩ := hconverses.idle hidle
  have hanswers : Trace.answers (trace ++ [Incident.opened (link.attempting now).line])
      (link.attempting now).line = [] := by
    rw [Trace.answers_append, Trace.answers_of_silent hsilent]
    rfl
  have hgiven : Trace.given (trace ++ [Incident.opened (link.attempting now).line])
      (link.attempting now).line = [] := by
    rw [Trace.given_append, Trace.given_of_silent hsilent]
    rfl
  have hsplit := Response.kind.split_of_incomplete (show Response.kind.decode [] = _ from rfl)
  refine ⟨⟨(hconverses.carries.opened hsilent hidle).2, ?_, ?_, fun _ => Trace.spoken_nil hanswers⟩,
    ?_, fun hnone => (nomatch hnone)⟩
  · show List.Forall₂ _ [] link.awaiting
    rw [hawaiting]
    exact .nil
  · intro slot hmem habandoned
    exact ((hconverses.marked slot hmem habandoned).anew hsilent).append _
  · intro _
    show (Trace.answers _ (link.attempting now).line).map _
        = Trace.replies _ (link.attempting now).line ∧
      link.inbound = (Response.kind.split (Trace.given _ (link.attempting now).line)).rest ∧
      (Response.kind.split (Trace.given _ (link.attempting now).line)).fault = none
    rw [Trace.replies, hanswers, hgiven, hsplit, hconverses.deaf hidle]
    exact ⟨rfl, rfl, rfl⟩

/-- A connect that completes says nothing. -/
theorem Converses.established {socket : Socket} {deadline : Nat}
    (hphase : link.phase = .connecting socket deadline)
    (hconverses : link.Converses trace done waiting queued) :
    ({ link with phase := .connected socket }).Converses
      (trace ++ [Incident.established link.line]) done waiting queued := by
  have hopen := socket_ne_none_of_connecting hphase
  have h := hconverses.aside (@Trace.silent_singleton (.established link.line) rfl link.line)
  exact ⟨⟨hconverses.carries.established hphase, h.waits, h.marked, fun _ => h.spoken hopen⟩,
    fun _ => h.heard hopen, fun hidle => (nomatch hidle)⟩

/-- Octets that a socket takes say nothing. -/
theorem Converses.wrote {count : Nat} (hvalid : ∀ ticket ∈ trace.tickets, ticket.Valid)
    (htickets : (trace.tickets.map (·.slot.seq)).Nodup) (hopen : link.phase.socket? ≠ none)
    (hconverses : link.Converses trace done waiting queued) :
    ∃ sent kept,
      (link.wrote count).Converses
        (trace ++ (.took link.line (link.outbound.take count)
          :: (link.finishedBy count).map fun slot => .sent link.line slot.seq))
        done (waiting ++ sent) kept := by
  obtain ⟨sent, kept, htalks⟩ := @Talks.wrote _ _ _ _ _ count hvalid htickets hopen
    hconverses.toTalks
  refine ⟨sent, kept, htalks, fun _ => ?_, fun hidle => absurd hidle hopen⟩
  have hgiven : Trace.given (trace ++ (.took link.line (link.outbound.take count)
      :: (link.finishedBy count).map fun slot => .sent link.line slot.seq)) link.line
        = trace.given link.line := by
    rw [Trace.given_append, Trace.given_cons, given_map_sent]
    exact List.append_nil _
  have hanswers : Trace.answers (trace ++ (.took link.line (link.outbound.take count)
      :: (link.finishedBy count).map fun slot => .sent link.line slot.seq)) link.line
        = trace.answers link.line := by
    rw [Trace.answers_append, Trace.answers_cons, answers_map_sent]
    exact List.append_nil _
  show (Trace.answers _ link.line).map _ = Trace.replies _ link.line ∧
    link.inbound = (Response.kind.split (Trace.given _ link.line)).rest ∧
    (Response.kind.split (Trace.given _ link.line)).fault = none
  rw [Trace.replies, hgiven, hanswers]
  exact hconverses.heard hopen

/-- What the end of a read says passes on no line. -/
theorem silent_report (ending : ReadEnd) (other line : Line) :
    (ending.report other).Silent line := by
  cases ending with
  | drained => exact Trace.silent_nil line
  | closed => exact Trace.silent_singleton rfl line
  | failed error => exact Trace.silent_singleton rfl line

/-- What a read adds to the trace before its replies are looked at. -/
def hearing (line : Line) (octets : Bytes) (ending : ReadEnd) : Trace :=
  .gave line octets :: ending.report line

theorem given_hearing (line : Line) (octets : Bytes) (ending : ReadEnd) :
    (hearing line octets ending).given line = octets := by
  rw [hearing, Trace.given_cons, Trace.given_of_silent (silent_report ending line line),
    Incident.given, if_pos rfl, List.append_nil]

theorem answers_hearing (line : Line) (octets : Bytes) (ending : ReadEnd) :
    (hearing line octets ending).answers line = [] := by
  rw [hearing, Trace.answers_cons, Trace.answers_of_silent (silent_report ending line line)]
  rfl

theorem tickets_hearing (line : Line) (octets : Bytes) (ending : ReadEnd) :
    (hearing line octets ending).tickets = [] := by
  cases ending <;> rfl

/-- What a socket gives continues what it gave before. -/
theorem Converses.hears {octets : Bytes} (ending : ReadEnd) (hopen : link.phase.socket? ≠ none)
    (hconverses : link.Converses trace done waiting queued) :
    Response.kind.split ((trace ++ hearing link.line octets ending).given link.line)
      = { Response.kind.split (link.receiving octets).inbound with
          frames := (Response.kind.split (trace.given link.line)).frames
            ++ (Response.kind.split (link.receiving octets).inbound).frames } := by
  obtain ⟨-, hinbound, hfault⟩ := hconverses.heard hopen
  rw [Trace.given_append, given_hearing, Response.kind.split_append _ octets hfault, ← hinbound]
  rfl

/-- Octets that a socket gives bring no command further. -/
theorem Talks.hearing {octets : Bytes} (ending : ReadEnd)
    (htalks : link.Talks trace done waiting queued) :
    (link.receiving octets).Talks (trace ++ hearing link.line octets ending) done waiting
      queued := by
  have hreport := silent_report ending link.line link.line
  have h := @Talks.aside _ _ _ _ _ (Link.hearing link.line octets ending)
    (by rw [Link.hearing, Trace.taken_cons, Trace.taken_of_silent hreport]; rfl)
    (by rw [Link.hearing, Trace.sent_cons, Trace.sent_of_silent hreport]; rfl)
    (answers_hearing link.line octets ending) htalks
  exact ⟨⟨h.carries.order, h.carries.slots, h.carries.outbound, h.carries.head, h.carries.idle,
    h.carries.places, h.carries.taken⟩, h.waits, h.marked, h.spoken⟩

/-- The replies found in what a socket gives, as far as they fit, are given to commands. -/
theorem Converses.answers {octets : Bytes} {ending : ReadEnd} {last : Link}
    {fitting others : List Response} (hvalid : ∀ ticket ∈ trace.tickets, ticket.Valid)
    (htickets : (trace.tickets.map (·.slot.seq)).Nodup) (hopen : link.phase.socket? ≠ none)
    (hconverses : link.Converses trace done waiting queued)
    (hframes : (Response.kind.split (link.receiving octets).inbound).frames.map (·.1)
      = fitting ++ others)
    (hanswers : Answers (link.receiving octets) fitting incidents last) :
    Trace.Each Incident.Founded trace (hearing link.line octets ending ++ incidents) ∧
      (∃ done' waiting',
        last.Talks (trace ++ (hearing link.line octets ending ++ incidents)) done' waiting'
          queued) ∧
      ((trace ++ (hearing link.line octets ending ++ incidents)).answers link.line).map (·.2)
          ++ others
        = (trace ++ (hearing link.line octets ending ++ incidents)).replies link.line := by
  have htickets' : (trace ++ hearing link.line octets ending).tickets = trace.tickets := by
    rw [Trace.tickets_append, tickets_hearing, List.append_nil]
  have h := hanswers.talks others (by rw [htickets']; exact hvalid)
    (by rw [htickets']; exact htickets) hopen (hconverses.toTalks.hearing ending) (by
      show (Trace.answers _ link.line).map _ ++ _ = Trace.replies _ link.line
      rw [Trace.answers_append, answers_hearing, List.append_nil, (hconverses.heard hopen).1,
        Trace.replies, Trace.replies, hconverses.hears ending hopen, List.map_append, ← hframes])
  rw [List.append_assoc] at h
  refine ⟨Trace.Each.append (Trace.each_of_forall ?_) h.1, h.2⟩
  intro incident hmem before
  rcases List.mem_cons.mp hmem with rfl | hmem
  · trivial
  · cases ending with
    | drained => cases hmem
    | closed => rw [List.mem_singleton.mp hmem]; trivial
    | failed error => rw [List.mem_singleton.mp hmem]; trivial

/-- After a read whose replies all fit nothing is left but a part of a frame. -/
theorem Converses.received {octets : Bytes} {last : Link}
    (hvalid : ∀ ticket ∈ trace.tickets, ticket.Valid)
    (htickets : (trace.tickets.map (·.slot.seq)).Nodup) (hopen : link.phase.socket? ≠ none)
    (hconverses : link.Converses trace done waiting queued)
    (hfault : (Response.kind.split (link.receiving octets).inbound).fault = none)
    (hanswers : Answers (link.receiving octets)
      ((Response.kind.split (link.receiving octets).inbound).frames.map (·.1)) incidents last) :
    Trace.Each Incident.Founded trace (Incident.gave link.line octets :: incidents) ∧
      ∃ done' waiting' queued',
        ({ last with inbound := (Response.kind.split (link.receiving octets).inbound).rest }
          ).Converses (trace ++ Incident.gave link.line octets :: incidents)
          done' waiting' queued' := by
  obtain ⟨hfounded, ⟨done', waiting', htalks⟩, hheard⟩ :=
    @Converses.answers _ _ _ _ _ _ octets .drained _ _ _ hvalid htickets hopen hconverses
      (List.append_nil _).symm hanswers
  have hlast := hanswers.eq
  have hgiven : (trace ++ Incident.gave link.line octets :: incidents).given link.line
      = (trace ++ hearing link.line octets .drained).given link.line := by
    rw [Trace.given_append, Trace.given_append, Trace.given_cons, hanswers.ungiven]
    rfl
  refine ⟨hfounded, done', waiting', queued, ⟨⟨htalks.carries.order, htalks.carries.slots,
    htalks.carries.outbound, htalks.carries.head, htalks.carries.idle, htalks.carries.places,
    htalks.carries.taken⟩, htalks.waits, htalks.marked, htalks.spoken⟩, fun _ => ?_, ?_⟩
  · have hline : last.line = link.line := by
      rw [hlast]
      rfl
    show (Trace.answers _ last.line).map _ = Trace.replies _ last.line ∧
      _ = (Response.kind.split (Trace.given _ last.line)).rest ∧
      (Response.kind.split (Trace.given _ last.line)).fault = none
    rw [List.append_nil] at hheard
    rw [hline, hgiven, hconverses.hears .drained hopen]
    exact ⟨hheard, rfl, hfault⟩
  · intro hidle
    have hidle : last.phase.socket? = none := hidle
    rw [hlast] at hidle
    exact absurd hidle hopen

/-- Giving up on slots says nothing. -/
theorem Converses.abandon {condition : Slot → Bool} {more : Trace}
    (hvalid : ∀ ticket ∈ trace.tickets, ticket.Valid)
    (htickets : (trace.tickets.map (·.slot.seq)).Nodup) (hsilent : more.Silent link.line)
    (hgives : ∀ slot ∈ (link.abandon condition).2, ∃ incident ∈ more, incident.GivesUp slot.seq)
    (hconverses : link.Converses trace done waiting queued) :
    ∃ kept, (link.abandon condition).1.Converses (trace ++ more) done waiting kept := by
  obtain ⟨kept, htalks⟩ := hconverses.toTalks.abandon hvalid htickets hsilent hgives
  have h := hconverses.aside hsilent
  exact ⟨kept, htalks, h.heard, h.deaf⟩

/-- Every slot that is given up at a deadline is among the incidents. -/
theorem gives_expiry (link : Link) (target : Target) {given : List Slot}
    (hlive : ∀ slot ∈ given, slot.isLive = true) :
    ∀ slot ∈ given, ∃ incident ∈ link.expiry target given, incident.GivesUp slot.seq := by
  intro slot hslot
  cases target with
  | command seq => exact ⟨.dropped slot, List.mem_map.mpr ⟨slot, hslot, rfl⟩, rfl⟩
  | allBuffered =>
      refine ⟨.ended { server := link.server.index, slot, result := .error .timeout }, ?_, rfl, rfl⟩
      refine List.mem_map.mpr ⟨_, ?_, rfl⟩
      exact List.mem_map.mpr ⟨slot, List.mem_filter.mpr ⟨hslot, hlive slot hslot⟩, rfl⟩

/-- The queue of an excluded server is ended. -/
theorem Converses.shortCircuited (hidle : link.phase.socket? = none)
    (hconverses : link.Converses trace done waiting queued) {more : Trace} :
    ({ link with outbound := [], headWritten := 0, unsent := [] }).Converses more [] [] [] :=
  converses_vacant hidle rfl (hconverses.idle hidle).2.2 rfl rfl (hconverses.deaf hidle)

end Link

/-- **Every link converses in order**, whatever it does. -/
theorem Link.converses_invariant (ω : Type) [Network ω] :
    Link.Invariant ω fun trace link =>
      ∃ done waiting queued, link.Converses trace done waiting queued where
  make server _ _ := ⟨[], [], [], converses_vacant rfl rfl rfl rfl rfl rfl⟩
  moved := by
    rintro trace link server ⟨done, waiting, queued, h⟩
    exact ⟨done, waiting, queued, ⟨⟨h.carries.order, h.carries.slots, h.carries.outbound,
      h.carries.head, h.carries.idle, h.carries.places, h.carries.taken⟩, h.waits, h.marked,
      h.spoken⟩, h.heard, h.deaf⟩
  aside := by
    rintro trace more link hsilent ⟨done, waiting, queued, hconverses⟩
    exact ⟨done, waiting, queued, hconverses.aside hsilent⟩
  queued := by
    rintro trace link ticket hvalid - ⟨done, waiting, queued, hconverses⟩
    have h := hconverses.aside (@Trace.silent_singleton (.issued ticket) rfl link.line)
    refine ⟨done, waiting, queued ++ [ticket], ⟨hconverses.carries.enqueue hvalid, h.waits, ?_,
      h.spoken⟩, h.heard, h.deaf⟩
    intro slot hmem habandoned
    rcases List.mem_append.mp hmem with hunsent | hawaiting
    · rcases List.mem_append.mp hunsent with hold | hnew
      · exact h.marked slot (List.mem_append_left _ hold) habandoned
      · rw [List.mem_singleton.mp hnew, ← hvalid.unmarked] at habandoned
        cases habandoned
    · exact h.marked slot (List.mem_append_right _ hawaiting) habandoned
  step := by
    rintro trace incidents now timeouts link after net last hvalid htickets hlater hstep
      ⟨done, waiting, queued, hconverses⟩
    cases hstep with
    | quiet =>
        rw [List.append_nil]
        exact ⟨done, waiting, queued, hconverses⟩
    | opened hidle hwork heligible hconnect =>
        have hsilent := hlater _ (Nat.lt_succ_self _)
        exact ⟨[], [], queued, hconverses.opened hsilent hidle⟩
    | established hphase => exact ⟨done, waiting, queued, hconverses.established hphase⟩
    | took hphase hwrite hcount =>
        obtain ⟨sent, kept, h⟩ := hconverses.wrote hvalid htickets (socket_ne_none hphase)
        exact ⟨done, waiting ++ sent, kept, h⟩
    | received hphase hread hfault hanswers =>
        obtain ⟨-, h⟩ :=
          hconverses.received hvalid htickets (socket_ne_none hphase) hfault hanswers
        exact h
    | lost => exact ⟨[], [], [], converses_vacant rfl rfl rfl rfl rfl rfl⟩
    | shortCircuited hidle => exact ⟨[], [], [], hconverses.shortCircuited hidle⟩
    | expired target =>
        obtain ⟨kept, h⟩ := hconverses.abandon hvalid htickets
          (silent_expiry (link.abandon target.covers).1 target (link.abandon target.covers).2 _)
          (gives_expiry _ target fun slot hslot => (mem_abandon hslot).2.1)
        exact ⟨done, waiting, kept, h⟩
    | discarded =>
        obtain ⟨kept, h⟩ := hconverses.abandon hvalid htickets
          (Trace.silent_map_dropped (link.abandon fun slot => slot.delivery = .buffered).2 _)
          (fun slot hslot => ⟨.dropped slot, List.mem_map.mpr ⟨slot, hslot, rfl⟩, rfl⟩)
        exact ⟨done, waiting, kept, h⟩
    | examined => exact ⟨done, waiting, queued, hconverses.aside (Trace.silent_singleton rfl _)⟩
    | retired => exact ⟨[], [], [], converses_vacant rfl rfl rfl rfl rfl rfl⟩

end CachePool
