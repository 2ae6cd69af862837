/-
# Whole frames on the wire

What a socket took and what is still queued for it are whole frames of accepted
commands, in the order of issue.  The invariant keeps two lists of tickets for a link:
those whose frames are written and those whose frames are queued; the octet up to which
the socket took them may lie anywhere in the first queued frame.

* `Link.Carries` : the invariant;
* `Link.carries_invariant` : every step of a link keeps it;
* `Client.whole_frames` : whole frames on the wire.
-/
import Mathlib.Algebra.GroupWithZero.Nat
import Mathlib.Data.List.Sublists
import CachePool.Proofs.Links
import CachePool.Proofs.Script

namespace CachePool

/-! ## The head of the queue -/

/-- So many octets of the first frame are written, but not all of them. -/
def HeadWithin (written : Nat) : List Ticket → Prop
  | [] => written = 0
  | ticket :: _ => written < ticket.request.frame.length

/-- Nothing is written of a queue. -/
theorem headWithin_zero (tickets : List Ticket) : HeadWithin 0 tickets := by
  cases tickets with
  | nil => rfl
  | cons ticket tickets => exact Ticket.Valid.frame_pos ticket

/-- What is written of the first frame are octets of the queue. -/
theorem HeadWithin.le {written : Nat} {tickets : List Ticket} (hhead : HeadWithin written tickets) :
    written ≤ (Trace.frames tickets).length := by
  cases tickets with
  | nil => exact Nat.le_of_eq hhead
  | cons ticket tickets =>
      have hlt : written < ticket.request.frame.length := hhead
      rw [Trace.frames, List.flatMap_cons, List.length_append]
      omega

/-- A frame joins the end of the queue. -/
theorem HeadWithin.append {written : Nat} {tickets : List Ticket}
    (hhead : HeadWithin written tickets) (ticket : Ticket) :
    HeadWithin written (tickets ++ [ticket]) := by
  cases tickets with
  | nil =>
      rw [show written = 0 from hhead]
      exact headWithin_zero _
  | cons first tickets => exact hhead

/-! ## Queues with their tickets -/

/-- The slots of a queue are those of its tickets, but for who gave up. -/
def Holds (tickets : List Ticket) (slots : List Slot) : Prop :=
  tickets.map (·.slot) = slots.map Slot.unmarked

/-- The queue of a ticket and others. -/
theorem holds_cons {tickets : List Ticket} {slot : Slot} {slots : List Slot}
    (hholds : Holds tickets (slot :: slots)) :
    ∃ ticket others, tickets = ticket :: others ∧ ticket.slot = slot.unmarked ∧
      Holds others slots := by
  cases tickets with
  | nil => cases hholds
  | cons ticket others =>
      obtain ⟨hfirst, hothers⟩ := List.cons.inj hholds
      exact ⟨ticket, others, rfl, hfirst, hothers⟩

/-- A queue and its tickets are at the same places. -/
theorem Holds.seqs {tickets : List Ticket} {slots : List Slot} (hholds : Holds tickets slots) :
    tickets.map (·.slot.seq) = slots.map (·.seq) := by
  have hseqs := congrArg (List.map Slot.seq) hholds
  rw [List.map_map, List.map_map] at hseqs
  exact hseqs

theorem holds_append {first second : List Ticket} {front back : List Slot}
    (hfirst : Holds first front) (hsecond : Holds second back) :
    Holds (first ++ second) (front ++ back) := by
  rw [Holds, List.map_append, List.map_append, hfirst, hsecond]

/-- The tickets of a queue in two parts are those of the parts. -/
theorem holds_split {tickets : List Ticket} {front back : List Slot}
    (hholds : Holds tickets (front ++ back)) :
    ∃ first rest, tickets = first ++ rest ∧ Holds first front ∧ Holds rest back := by
  rw [Holds, List.map_append] at hholds
  exact List.map_eq_append_iff.mp hholds

/-- The lengths that are kept with the slots add up to that of the frames. -/
theorem Holds.length_frames {tickets : List Ticket} {slots : List Slot}
    (hvalid : ∀ ticket ∈ tickets, ticket.Valid) (hholds : Holds tickets slots) :
    (Trace.frames tickets).length = (slots.map Slot.frameLength).sum := by
  have hlengths := congrArg (List.map Slot.frameLength) hholds
  rw [List.map_map, List.map_map] at hlengths
  rw [Trace.frames, List.length_flatMap]
  refine congrArg List.sum (Eq.trans ?_ hlengths)
  exact List.map_congr_left fun ticket hmem => (hvalid ticket hmem).length.symm

/-- The octets are those of the frames that end in them, and what is left. -/
theorem Link.sum_splitWritten (written : Nat) (slots : List Slot) :
    ((splitWritten written slots).1.map Slot.frameLength).sum + (splitWritten written slots).2.1
      = written := by
  fun_induction splitWritten written slots with
  | case1 | case2 => exact Nat.zero_add _
  | case3 written slot rest hwhole sent left unsent hrest ih =>
      simp only [hrest] at ih
      simp only [List.map_cons, List.sum_cons]
      omega

/-- Octets that a socket takes end frames, and leave a part of the next one. -/
theorem split_queue {tickets : List Ticket} {slots : List Slot} {count : Nat}
    (hvalid : ∀ ticket ∈ tickets, ticket.Valid) (hholds : Holds tickets slots)
    (hcount : count ≤ (Trace.frames tickets).length) :
    ∃ sent kept, tickets = sent ++ kept ∧ Holds sent (Link.splitWritten count slots).1 ∧
      Holds kept (Link.splitWritten count slots).2.2 ∧
      (Trace.frames sent).length + (Link.splitWritten count slots).2.1 = count ∧
      HeadWithin (Link.splitWritten count slots).2.1 kept := by
  have hslots := Link.append_splitWritten count slots
  have hsum := Link.sum_splitWritten count slots
  have hnext := @Link.splitWritten_lt count slots
  generalize Link.splitWritten count slots = split at hslots hsum hnext ⊢
  obtain ⟨ended, left, others⟩ := split
  dsimp only at hslots hsum hnext ⊢
  subst hslots
  obtain ⟨sent, kept, rfl, hsent, hkept⟩ := holds_split hholds
  have hlength := hsent.length_frames fun ticket hmem =>
    hvalid ticket (List.mem_append_left _ hmem)
  refine ⟨sent, kept, rfl, hsent, hkept, by omega, ?_⟩
  cases others with
  | nil =>
      obtain rfl : kept = [] := List.map_eq_nil_iff.mp hkept
      rw [List.append_nil] at hcount
      show left = 0
      omega
  | cons slot others =>
      obtain ⟨ticket, behind, rfl, hslot, -⟩ := holds_cons hkept
      have hframe := (hvalid ticket (List.mem_append_right _ List.mem_cons_self)).length
      rw [hslot] at hframe
      exact Nat.lt_of_lt_of_eq (hnext rfl) hframe

namespace Link

/-- What a stream has given, and what it gives next. -/
theorem take_stream {stream rest : Bytes} {start count : Nat} (hrest : rest = stream.drop start) :
    stream.take start ++ rest.take count = stream.take (start + (rest.take count).length) := by
  rw [List.take_add, ← hrest, List.length_take, ← List.take_eq_take_min]

/-- What a stream has left after it gave more. -/
theorem drop_stream {stream rest : Bytes} {start count : Nat} (hrest : rest = stream.drop start) :
    rest.drop count = stream.drop (start + (rest.take count).length) := by
  rw [← List.drop_drop, ← hrest, List.drop_eq_drop_iff, List.length_take]
  omega

/-- The octets a socket takes end frames at the front of the queue, and leave a part of the
next one. -/
theorem split_wrote {link : Link} {queued : List Ticket} (count : Nat)
    (hvalid : ∀ ticket ∈ queued, ticket.Valid) (hholds : Holds queued link.unsent)
    (houtbound : link.outbound = (Trace.frames queued).drop link.headWritten)
    (hhead : HeadWithin link.headWritten queued) :
    ∃ sent kept, queued = sent ++ kept ∧ Holds sent (link.finishedBy count) ∧
      Holds kept (link.wrote count).unsent ∧ HeadWithin (link.wrote count).headWritten kept ∧
      (Trace.frames queued).take link.headWritten ++ link.outbound.take count
        = Trace.frames sent ++ (Trace.frames kept).take (link.wrote count).headWritten ∧
      link.outbound.drop count = (Trace.frames kept).drop (link.wrote count).headWritten := by
  have hwithin := hhead.le
  have htotal : link.headWritten + link.outbound.length = (Trace.frames queued).length := by
    rw [houtbound, List.length_drop]
    omega
  have hshort : (link.outbound.take count).length ≤ link.outbound.length := by
    rw [List.length_take]
    exact Nat.min_le_right _ _
  obtain ⟨sent, kept, rfl, hsent, hkept, hsum, hnext⟩ :=
    @split_queue queued link.unsent (link.headWritten + (link.outbound.take count).length)
      hvalid hholds (by omega)
  refine ⟨sent, kept, rfl, hsent, hkept, hnext, ?_, ?_⟩
  · rw [take_stream houtbound, ← hsum, Trace.frames_append, List.take_length_add_append]
    rfl
  · rw [drop_stream houtbound, ← hsum, Trace.frames_append, List.drop_length_add_append]
    rfl

end Link

/-- Giving up on unsent slots cuts whole frames out of the queue, but for the first one
when octets of it are written. -/
theorem sweep_queue {condition : Slot → Bool} {tickets : List Ticket} {slots : List Slot}
    {written : Nat} (hvalid : ∀ ticket ∈ tickets, ticket.Valid) (hholds : Holds tickets slots)
    (hhead : HeadWithin written tickets) :
    ∃ kept, kept.Sublist tickets ∧
      Holds kept (Link.sweep condition written slots ((Trace.frames tickets).drop written)).kept ∧
      (Link.sweep condition written slots ((Trace.frames tickets).drop written)).outbound
        = (Trace.frames kept).drop written ∧
      HeadWithin written kept ∧
      (Trace.frames kept).take written = (Trace.frames tickets).take written := by
  induction slots generalizing tickets written with
  | nil =>
      have hnone : tickets = [] := List.map_eq_nil_iff.mp hholds
      subst hnone
      exact ⟨[], .slnil, rfl, List.drop_nil.symm, hhead, rfl⟩
  | cons slot slots ih =>
      obtain ⟨ticket, others, rfl, hslot, hothers⟩ := holds_cons hholds
      have hlt : written < ticket.request.frame.length := hhead
      have hlength : slot.frameLength - written = (ticket.request.frame.drop written).length := by
        rw [List.length_drop, ← (hvalid ticket List.mem_cons_self).length, hslot]
        rfl
      obtain ⟨kept, hsub, hkept, hout, hfirst, -⟩ :=
        @ih others 0 (fun other hmem => hvalid other (List.mem_cons_of_mem _ hmem)) hothers
          (headWithin_zero others)
      rw [List.drop_zero] at hkept hout
      rw [List.drop_zero] at hout
      -- what the first frame has left stands in front of the others
      have hoctets (tail : List Ticket) : (Trace.frames (ticket :: tail)).drop written
          = ticket.request.frame.drop written ++ Trace.frames tail := by
        rw [Trace.frames, List.flatMap_cons, List.drop_append_of_le_length (Nat.le_of_lt hlt)]
        rfl
      have htaken (tail : List Ticket) : (Trace.frames (ticket :: tail)).take written
          = ticket.request.frame.take written := by
        rw [Trace.frames, List.flatMap_cons, List.take_append_of_le_length (Nat.le_of_lt hlt)]
      unfold Link.sweep
      rw [hoctets others]
      dsimp only
      rw [List.take_left' hlength.symm, List.drop_left' hlength.symm]
      split
      · refine ⟨ticket :: kept, hsub.cons_cons ticket, ?_, ?_, hlt, ?_⟩
        · exact congrArg₂ List.cons hslot hkept
        · rw [hoctets kept, ← hout]
        · rw [htaken, htaken]
      split
      · refine ⟨ticket :: kept, hsub.cons_cons ticket, ?_, ?_, hlt, ?_⟩
        · exact congrArg₂ List.cons hslot hkept
        · rw [hoctets kept, ← hout]
        · rw [htaken, htaken]
      · rename_i hnone
        have hzero : written = 0 := by omega
        subst hzero
        exact ⟨kept, hsub.cons ticket, hkept, hout, hfirst, rfl⟩

/-! ## The invariant -/

/-- The tickets of a link whose frames are written, and those whose frames are queued. -/
structure Link.Carries (trace : Trace) (link : Link) (written queued : List Ticket) : Prop where
  order : (written ++ queued).Sublist trace.tickets
  slots : Holds queued link.unsent
  outbound : link.outbound = (Trace.frames queued).drop link.headWritten
  head : HeadWithin link.headWritten queued
  /-- Nothing is written without a socket. -/
  idle : link.phase.socket? = none → written = [] ∧ link.headWritten = 0
  places : link.phase.socket? ≠ none → written.map (·.slot.seq) = trace.sent link.line
  taken : link.phase.socket? ≠ none →
    trace.taken link.line
      = Trace.frames written ++ (Trace.frames queued).take link.headWritten

namespace Link

variable {trace incidents : Trace} {link : Link} {written queued : List Ticket}

/-- The tickets of a link are accepted commands. -/
theorem Carries.valid (hcarries : link.Carries trace written queued)
    (hvalid : ∀ ticket ∈ trace.tickets, ticket.Valid) : ∀ ticket ∈ queued, ticket.Valid :=
  fun ticket hmem => hvalid ticket (hcarries.order.subset (List.mem_append_right _ hmem))

/-- A link without a socket whose queue is empty. -/
theorem carries_vacant (hidle : link.phase.socket? = none) (hunsent : link.unsent = [])
    (houtbound : link.outbound = []) (hhead : link.headWritten = 0) :
    link.Carries trace [] [] where
  order := List.nil_sublist _
  slots := by rw [hunsent]; rfl
  outbound := by rw [houtbound]; exact List.drop_nil.symm
  head := hhead
  idle _ := ⟨rfl, hhead⟩
  places hopen := absurd hidle hopen
  taken hopen := absurd hidle hopen

/-- Incidents that take nothing on the line of the link change nothing. -/
theorem Carries.aside {more : Trace} (htaken : more.taken link.line = [])
    (hsent : more.sent link.line = []) (hcarries : link.Carries trace written queued) :
    link.Carries (trace ++ more) written queued where
  order := by
    rw [Trace.tickets_append]
    exact hcarries.order.trans (List.sublist_append_left _ _)
  slots := hcarries.slots
  outbound := hcarries.outbound
  head := hcarries.head
  idle := hcarries.idle
  places hopen := by rw [Trace.sent_append, hsent, List.append_nil]; exact hcarries.places hopen
  taken hopen := by rw [Trace.taken_append, htaken, List.append_nil]; exact hcarries.taken hopen

/-- A command joins the queue. -/
theorem Carries.enqueue {ticket : Ticket} (hvalid : ticket.Valid)
    (hcarries : link.Carries trace written queued) :
    (link.enqueue ticket.request ticket.slot).Carries (trace ++ [.issued ticket]) written
      (queued ++ [ticket]) where
  order := by
    rw [Trace.tickets_append, ← List.append_assoc]
    exact hcarries.order.append (.refl _)
  slots := holds_append hcarries.slots (by rw [Holds, List.map_singleton, List.map_singleton,
    hvalid.unmarked])
  outbound := by
    show link.outbound ++ ticket.request.frame
      = (Trace.frames (queued ++ [ticket])).drop link.headWritten
    rw [Trace.frames_append, List.drop_append_of_le_length hcarries.head.le, hcarries.outbound,
      Trace.frames_cons]
    exact congrArg _ (List.append_nil _).symm
  head := hcarries.head.append ticket
  idle := hcarries.idle
  places hopen := by
    rw [Trace.sent_append, show Trace.sent [.issued ticket] _ = [] from rfl, List.append_nil]
    exact hcarries.places hopen
  taken hopen := by
    show Trace.taken (trace ++ [.issued ticket]) link.line
      = Trace.frames written ++ (Trace.frames (queued ++ [ticket])).take link.headWritten
    rw [Trace.taken_append, show Trace.taken [.issued ticket] _ = [] from rfl, List.append_nil,
      Trace.frames_append, List.take_append_of_le_length hcarries.head.le]
    exact hcarries.taken hopen

theorem tickets_map_sent (line : Line) (slots : List Slot) :
    Trace.tickets (slots.map fun slot => .sent line slot.seq) = [] := by
  rw [Trace.tickets, List.flatMap_eq_nil_iff]
  intro incident hmem
  obtain ⟨slot, -, rfl⟩ := List.mem_map.mp hmem
  rfl

theorem taken_map_sent (line : Line) (slots : List Slot) :
    Trace.taken (slots.map fun slot => .sent line slot.seq) line = [] := by
  rw [Trace.taken, List.flatMap_eq_nil_iff]
  intro incident hmem
  obtain ⟨slot, -, rfl⟩ := List.mem_map.mp hmem
  rfl

theorem sent_map_sent (line : Line) (slots : List Slot) :
    Trace.sent (slots.map fun slot => .sent line slot.seq) line = slots.map (·.seq) := by
  induction slots with
  | nil => rfl
  | cons slot slots ih =>
      rw [List.map_cons, Trace.sent_cons, ih, Incident.sentOn, if_pos rfl]
      rfl

/-- A socket takes octets: the frames that end in them are written. -/
theorem Carries.wrote {count : Nat} (hvalid : ∀ ticket ∈ trace.tickets, ticket.Valid)
    (hopen : link.phase.socket? ≠ none) (hcarries : link.Carries trace written queued) :
    ∃ sent kept, queued = sent ++ kept ∧
      Holds sent (link.finishedBy count) ∧
      (link.wrote count).Carries
        (trace ++ (.took link.line (link.outbound.take count)
          :: (link.finishedBy count).map fun slot => .sent link.line slot.seq))
        (written ++ sent) kept := by
  obtain ⟨sent, kept, rfl, hsent, hkept, hhead, htake, hdrop⟩ :=
    split_wrote count (hcarries.valid hvalid) hcarries.slots hcarries.outbound hcarries.head
  refine ⟨sent, kept, rfl, hsent, ?_, hkept, hdrop, hhead, ?_, ?_, ?_⟩
  · rw [Trace.tickets_append, Trace.tickets_cons, tickets_map_sent, List.append_assoc]
    exact (List.append_nil trace.tickets).symm ▸ hcarries.order
  · exact fun hidle => absurd hidle hopen
  · intro _
    show _ = Trace.sent _ link.line
    rw [List.map_append, hcarries.places hopen, hsent.seqs, Trace.sent_append, Trace.sent_cons,
      sent_map_sent]
    rfl
  · intro _
    show Trace.taken _ link.line = _
    rw [Trace.taken_append, hcarries.taken hopen, Trace.taken_cons, taken_map_sent,
      Incident.taken, if_pos rfl, List.append_nil, List.append_assoc, htake, Trace.frames_append,
      List.append_assoc]

/-- Giving up on slots keeps whole frames. -/
theorem Carries.abandon {condition : Slot → Bool}
    (hvalid : ∀ ticket ∈ trace.tickets, ticket.Valid)
    (hcarries : link.Carries trace written queued) :
    ∃ kept, (link.abandon condition).1.Carries trace written kept := by
  obtain ⟨kept, hsub, hkept, hout, hhead, htake⟩ :=
    @sweep_queue condition queued link.unsent link.headWritten (hcarries.valid hvalid)
      hcarries.slots hcarries.head
  rw [← hcarries.outbound] at hkept hout
  refine ⟨kept, ?_, hkept, hout, hhead, hcarries.idle, hcarries.places, ?_⟩
  · exact ((List.Sublist.refl written).append hsub).trans hcarries.order
  · intro hopen
    show Trace.taken trace link.line
      = Trace.frames written ++ (Trace.frames kept).take link.headWritten
    rw [htake]
    exact hcarries.taken hopen

/-- A new socket has taken nothing. -/
theorem Carries.opened {now deadline : Nat} {socket : Socket}
    (hsilent : trace.Silent (link.attempting now).line) (hidle : link.phase.socket? = none)
    (hcarries : link.Carries trace written queued) :
    written = [] ∧
      ({ link.attempting now with phase := .connecting socket deadline }).Carries
        (trace ++ [Incident.opened (link.attempting now).line]) [] queued := by
  obtain ⟨rfl, hhead⟩ := hcarries.idle hidle
  refine ⟨rfl, ⟨?_, hcarries.slots, hcarries.outbound, hcarries.head, fun _ => ⟨rfl, hhead⟩, ?_,
    ?_⟩⟩
  · rw [Trace.tickets_append]
    exact (List.append_nil trace.tickets).symm ▸ hcarries.order
  · intro _
    rw [Trace.sent_append]
    exact (List.append_eq_nil_iff.mpr ⟨Trace.sent_of_silent hsilent, rfl⟩).symm
  · intro _
    show Trace.taken _ (link.attempting now).line
      = [] ++ (Trace.frames queued).take link.headWritten
    rw [hhead, Trace.taken_append, Trace.taken_of_silent hsilent]
    rfl

/-- A connect that completes takes nothing. -/
theorem Carries.established {socket : Socket} {deadline : Nat}
    (hphase : link.phase = .connecting socket deadline)
    (hcarries : link.Carries trace written queued) :
    ({ link with phase := .connected socket }).Carries (trace ++ [Incident.established link.line])
      written queued := by
  have hopen := socket_ne_none_of_connecting hphase
  have h := @Carries.aside _ _ _ _ [Incident.established link.line] rfl rfl hcarries
  exact ⟨h.order, h.slots, h.outbound, h.head, fun hidle => (nomatch hidle),
    fun _ => h.places hopen, fun _ => h.taken hopen⟩

/-- Giving replies to commands takes nothing. -/
theorem Answers.untaken {last : Link} {responses : List Response} {line : Line}
    (hanswers : Answers link responses incidents last) :
    incidents.taken line = [] ∧ incidents.sent line = [] := by
  induction hanswers with
  | nil => exact ⟨rfl, rfl⟩
  | @cons _ _ _ _ _ _ _ finished _ _ _ _ ih =>
      have hended := Trace.silent_map_ended finished line
      constructor
      · rw [Trace.taken_append, Trace.taken_cons, ih.1, Trace.taken_of_silent hended]
        rfl
      · rw [Trace.sent_append, Trace.sent_cons, ih.2, Trace.sent_of_silent hended]
        rfl

end Link

/-- **Every link carries whole frames**, whatever it does. -/
theorem Link.carries_invariant (ω : Type) [Network ω] :
    Link.Invariant ω fun trace link => ∃ written queued, link.Carries trace written queued where
  make server _ _ := ⟨[], [], carries_vacant rfl rfl rfl rfl⟩
  moved := by
    rintro trace link server ⟨written, queued, h⟩
    exact ⟨written, queued, h.order, h.slots, h.outbound, h.head, h.idle, h.places, h.taken⟩
  aside := by
    rintro trace more link hsilent ⟨written, queued, hcarries⟩
    exact ⟨written, queued, hcarries.aside (Trace.taken_of_silent hsilent)
      (Trace.sent_of_silent hsilent)⟩
  queued := by
    rintro trace link ticket hvalid - ⟨written, queued, hcarries⟩
    exact ⟨written, queued ++ [ticket], hcarries.enqueue hvalid⟩
  step := by
    rintro trace incidents now timeouts link after net last hvalid - hlater hstep
      ⟨written, queued, hcarries⟩
    cases hstep with
    | quiet => exact ⟨written, queued, hcarries.aside rfl rfl⟩
    | opened hidle hwork heligible hconnect =>
        exact ⟨[], queued, (hcarries.opened (hlater _ (Nat.lt_succ_self _)) hidle).2⟩
    | established hphase => exact ⟨written, queued, hcarries.established hphase⟩
    | took hphase hwrite hcount =>
        obtain ⟨sent, kept, -, -, hwrote⟩ := hcarries.wrote hvalid (socket_ne_none hphase)
        exact ⟨_, _, hwrote⟩
    | @received _ octets _ incidents _ hphase hread hfault hanswers =>
        obtain ⟨htaken, hsent⟩ := @Answers.untaken _ _ _ _ link.line hanswers
        have h := @Carries.aside _ _ _ _ (.gave link.line octets :: incidents) htaken hsent hcarries
        rw [hanswers.eq]
        exact ⟨written, queued, h.order, h.slots, h.outbound, h.head, h.idle, h.places, h.taken⟩
    | lost => exact ⟨[], [], carries_vacant rfl rfl rfl rfl⟩
    | shortCircuited hidle => exact ⟨[], [], carries_vacant hidle rfl rfl rfl⟩
    | expired target =>
        obtain ⟨kept, h⟩ := @Carries.abandon _ _ _ _ target.covers hvalid hcarries
        have hsilent := (link.abandon target.covers).1.silent_expiry target
          (link.abandon target.covers).2 link.line
        exact ⟨written, kept, h.aside (Trace.taken_of_silent hsilent)
          (Trace.sent_of_silent hsilent)⟩
    | discarded =>
        obtain ⟨kept, h⟩ :=
          @Carries.abandon _ _ _ _ (fun slot => slot.delivery = .buffered) hvalid hcarries
        have hsilent := Trace.silent_map_dropped
          (link.abandon fun slot => slot.delivery = .buffered).2 link.line
        exact ⟨written, kept, h.aside (Trace.taken_of_silent hsilent)
          (Trace.sent_of_silent hsilent)⟩
    | examined =>
        exact ⟨written, queued, hcarries.aside rfl rfl⟩
    | retired => exact ⟨[], [], carries_vacant rfl rfl rfl rfl⟩

/-! ## Every line -/

namespace Link

variable {ω : Type} [Network ω] {now : Nat} {timeouts : Timeouts} {link after : Link}
  {net last : ω} {incidents : Trace}

/-- Tearing a link down takes nothing. -/
theorem Loses.untaken {losing : Link} {failure : Failure} (line : Line)
    (hloses : Loses now timeouts link net incidents losing failure last) :
    Trace.taken (incidents ++ losing.loss failure) line = [] ∧
      Trace.sent (incidents ++ losing.loss failure) line = [] := by
  have hloss := silent_loss losing failure line
  rw [Trace.taken_append, Trace.sent_append, Trace.taken_of_silent hloss,
    Trace.sent_of_silent hloss, List.append_nil, List.append_nil]
  cases hloses with
  | @refusing _ _ ending _ _ _ _ _ _ _ _ _ _ hanswers =>
      rw [Trace.taken_append, Trace.sent_append, (hanswers.untaken).1, (hanswers.untaken).2,
        List.append_nil, List.append_nil, Trace.taken_cons, Trace.sent_cons]
      cases ending <;> exact ⟨rfl, rfl⟩
  | _ => exact ⟨rfl, rfl⟩

/-- Only a socket that takes octets adds to what its line took. -/
theorem Step.taken_cases (line : Line) (hstep : link.Step now timeouts net incidents after last) :
    incidents.taken line = [] ∨ line = after.line ∧ after.phase.socket? ≠ none := by
  cases hstep with
  | took hphase hwrite hcount =>
      by_cases hline : link.line = line
      · exact .inr ⟨hline.symm, socket_ne_none hphase⟩
      · refine .inl ?_
        rw [Trace.taken_cons, Incident.taken, if_neg hline]
        apply Trace.taken_of_silent
        intro incident hmem
        obtain ⟨slot, -, rfl⟩ := List.mem_map.mp hmem
        exact fun hother => hline (Option.some.inj hother)
  | received hphase hread hfault hanswers =>
      refine .inl ?_
      rw [Trace.taken_cons, (hanswers.untaken).1]
      rfl
  | lost hloses => exact .inl (hloses.untaken line).1
  | retired =>
      refine .inl ?_
      rw [loss, Trace.taken_cons, Trace.taken_of_silent (Trace.silent_map_ended _ line)]
      rfl
  | shortCircuited => exact .inl (Trace.taken_of_silent (Trace.silent_map_ended _ line))
  | expired target => exact .inl (Trace.taken_of_silent (silent_expiry _ target _ line))
  | discarded => exact .inl (Trace.taken_of_silent (Trace.silent_map_dropped _ line))
  | _ => exact .inl rfl

/-- A peer reads the commands back from their frames, and sees nothing wrong with a part of
one more. -/
theorem read_frames {tickets : List Ticket} {part : Bytes}
    (hvalid : ∀ ticket ∈ tickets, ticket.Valid)
    (hpart : Request.kind.decode part = .ok .incomplete) :
    (Request.kind.split (Trace.frames tickets ++ part)).frames.map (·.1)
        = tickets.map (·.request) ∧
      (Request.kind.split (Trace.frames tickets ++ part)).fault = none := by
  have hread := @Request.split_frames (tickets.map (·.request)) part (by
    intro request hmem
    obtain ⟨ticket, hticket, rfl⟩ := List.mem_map.mp hmem
    exact (hvalid ticket hticket).limits) hpart
  rw [List.flatMap_map] at hread
  exact hread

/-- The octets that are written of a queue are a part of its first frame. -/
theorem decode_written {headWritten : Nat} {tickets : List Ticket}
    (hvalid : ∀ ticket ∈ tickets, ticket.Valid) (hhead : HeadWithin headWritten tickets) :
    Request.kind.decode ((Trace.frames tickets).take headWritten) = .ok .incomplete := by
  cases tickets with
  | nil =>
      rw [Trace.frames, List.flatMap_nil, List.take_nil]
      rfl
  | cons ticket tickets =>
      have hlt : headWritten < ticket.request.frame.length := hhead
      rw [Trace.frames_cons, List.take_append_of_le_length (Nat.le_of_lt hlt)]
      exact Request.decode_part (hvalid ticket List.mem_cons_self).limits hlt

/-- The peer of an open socket has read the commands whose frames are written. -/
theorem Carries.requests (hvalid : ∀ ticket ∈ trace.tickets, ticket.Valid)
    (hopen : link.phase.socket? ≠ none) (hcarries : link.Carries trace written queued) :
    trace.requests link.line = written.map (·.request) := by
  have hwritten : ∀ ticket ∈ written, ticket.Valid :=
    fun ticket hmem => hvalid ticket (hcarries.order.subset (List.mem_append_left _ hmem))
  rw [Trace.requests, hcarries.taken hopen]
  exact (read_frames hwritten (decode_written (hcarries.valid hvalid) hcarries.head)).1

/-- What an open socket took are octets of the frames its link carries. -/
theorem Carries.taken_prefix {trace : Trace} {written queued : List Ticket}
    (hcarries : link.Carries trace written queued) (hopen : link.phase.socket? ≠ none) :
    trace.taken link.line <+: Trace.frames (written ++ queued) := by
  rw [hcarries.taken hopen, Trace.frames_append, List.prefix_append_right_inj]
  exact List.take_prefix _ _

end Link

/-- Octets of valid frames are whole frames and a part of the next one. -/
theorem prefix_frames {tickets : List Ticket} {octets : Bytes}
    (hvalid : ∀ ticket ∈ tickets, ticket.Valid) (hleads : octets <+: Trace.frames tickets) :
    ∃ whole part, whole <+: tickets ∧ octets = Trace.frames whole ++ part ∧
      Request.kind.decode part = .ok .incomplete := by
  apply Request.kind.exists_of_prefix_flatMap ?_ hleads
  intro ticket hmem
  have hframe := Request.decode_frame (hvalid ticket hmem).limits []
  rw [List.append_nil, ← Request.length_frame] at hframe
  exact ⟨_, hframe⟩

namespace Client

variable {ω : Type} [Network ω]

/-- Whatever became of a line, what it took are octets of whole frames. -/
theorem Reaches.taken_prefix {timeouts : Timeouts} {buffering : Bool} {net : ω} {trace : Trace}
    {client : Client ω} (hreach : (blank timeouts buffering net).Reaches trace client)
    (line : Line) :
    ∃ carried, carried.Sublist trace.tickets ∧ trace.taken line <+: Trace.frames carried := by
  induction hreach with
  | start => exact ⟨[], List.nil_sublist _, List.nil_prefix⟩
  | elapsed _ _ ih => exact ih
  | @step client after trace incidents hreach hstep ih =>
      obtain ⟨carried, hsub, hleads⟩ := ih
      have hsame (htaken : incidents.taken line = []) : ∃ carried,
          carried.Sublist (trace ++ incidents).tickets ∧
            (trace ++ incidents).taken line <+: Trace.frames carried := by
        refine ⟨carried, ?_, ?_⟩
        · rw [Trace.tickets_append]
          exact hsub.trans (List.sublist_append_left _ _)
        · rw [Trace.taken_append, htaken, List.append_nil]
          exact hleads
      cases hstep with
      | move hmove =>
          cases hmove with
          | @link now front back before last _ net hlinks hlink =>
              rcases hlink.taken_cases line with htaken | ⟨rfl, hopen⟩
              · exact hsame htaken
              · have hreached := Reaches.step hreach (.move (.link hlinks hlink))
                obtain ⟨written, queued, hcarries⟩ := hreached.links (Link.carries_invariant ω) last
                  (List.mem_append_right _ List.mem_cons_self)
                exact ⟨_, hcarries.order, hcarries.taken_prefix hopen⟩
          | waited => exact hsame rfl
          | noted => exact hsame rfl
      | _ => exact hsame rfl

/-- **Whole frames on the wire.** What an open socket took since it was opened and what is
queued for it are, one behind the other, whole frames of accepted commands in the order of
issue.  The queued octets are the frames of the unsent slots without the part of the first
one that is written, and that part is never the whole frame.  So what any socket ever took
are whole frames of accepted commands and a part of one more, and its peer reads just
these commands.  The trace tells all that a socket takes: a client is opened without the
network, and a call is a sequence of steps that use the network in no other way. -/
theorem whole_frames {net : ω} {config : Config} {start client : Client ω} {trace : Trace}
    (hconfig : withConfig net config = .ok start) (hreach : start.Reaches trace client) :
    (∀ link ∈ client.pool.links, ∀ socket, link.phase.socket? = some socket →
      ∃ written queued : List Ticket,
        (written ++ queued).Sublist trace.tickets ∧
        trace.taken link.line ++ link.outbound = Trace.frames (written ++ queued) ∧
        queued.map (·.slot) = link.unsent.map Slot.unmarked ∧
        link.outbound = (Trace.frames queued).drop link.headWritten ∧
        (∀ first ∈ queued.head?, link.headWritten < first.request.frame.length) ∧
        (link.unsent = [] → link.headWritten = 0)) ∧
    (∀ line, ∃ carried : List Ticket, carried.Sublist trace.tickets ∧
      trace.taken line <+: Trace.frames carried ∧
      (Request.kind.split (trace.taken line)).fault = none ∧
      trace.requests line <+: carried.map (·.request)) ∧
    start.net = net ∧
    ∀ call, ∃ incidents, client.Steps incidents (client.perform call).2 ∧
      start.Reaches (trace ++ incidents) (client.perform call).2 := by
  have hblank := reaches_withConfig hconfig hreach
  refine ⟨?_, ?_, net_withConfig hconfig, reaches_perform hreach⟩
  · intro link hlink socket hsocket
    obtain ⟨written, queued, hcarries⟩ := hblank.links (Link.carries_invariant ω) link hlink
    have hopen : link.phase.socket? ≠ none := by
      rw [hsocket]
      intro hnone
      cases hnone
    refine ⟨written, queued, hcarries.order, ?_, hcarries.slots, hcarries.outbound, ?_, ?_⟩
    · rw [hcarries.taken hopen, hcarries.outbound, List.append_assoc, List.take_append_drop,
        Trace.frames_append]
    · intro first hfirst
      have hhead := hcarries.head
      cases queued with
      | nil => cases hfirst
      | cons ticket others =>
          cases hfirst
          exact hhead
    · intro hempty
      have hslots := hcarries.slots
      have hhead := hcarries.head
      rw [hempty] at hslots
      rw [List.map_eq_nil_iff.mp hslots] at hhead
      exact hhead
  · intro line
    obtain ⟨carried, hsub, hleads⟩ := hblank.taken_prefix line
    have hvalid : ∀ ticket ∈ carried, ticket.Valid :=
      fun ticket hmem => hblank.ordered.valid ticket (hsub.subset hmem)
    obtain ⟨whole, part, hwhole, hoctets, hpart⟩ := prefix_frames hvalid hleads
    have hread := Link.read_frames (fun ticket hmem => hvalid ticket (hwhole.subset hmem)) hpart
    refine ⟨carried, hsub, hleads, ?_, ?_⟩
    · rw [hoctets]
      exact hread.2
    · rw [Trace.requests, hoctets, hread.1]
      exact hwhole.map _

/-- A socket took the first frame and sixteen octets of the second, and all but the last of five
commands were given up.  What it took and what is queued are the frames of the first, the second
and the last command, and the second one is begun. -/
theorem whole_frames_parted :
    (Valve.mk 0 [.took 40]).opened.Reaches Valve.parting (Valve.parted ⟨0, []⟩) ∧
    ∃ written queued : List Ticket,
      (written ++ queued).map (·.slot.seq) = [0, 1, 4] ∧
      (Trace.taken Valve.parting Script.wire).length = 40 ∧
      Trace.taken Valve.parting Script.wire ++ Valve.partedLink.outbound
        = Trace.frames (written ++ queued) ∧
      queued.map (·.slot) = Valve.partedLink.unsent.map Slot.unmarked ∧
      Valve.partedLink.unsent.map (fun slot => (slot.seq, slot.abandoned))
        = [(1, true), (4, false)] ∧
      Valve.partedLink.outbound = (Trace.frames queued).drop 16 := by
  have hreach := Valve.reaches_parted
  obtain ⟨hopen, -⟩ := whole_frames (Valve.withConfig_opened _) hreach
  obtain ⟨written, queued, horder, hframes, hslots, hqueued, -⟩ :=
    hopen Valve.partedLink (List.mem_singleton_self _) 0 rfl
  -- of all choices among the five commands only one has these octets
  have hunique : ∀ tickets ∈ (Trace.tickets Valve.parting).sublists,
      Trace.taken Valve.parting Script.wire ++ Valve.partedLink.outbound = Trace.frames tickets →
        tickets.map (·.slot.seq) = [0, 1, 4] := by decide +kernel
  exact ⟨hreach, written, queued, hunique _ (List.mem_sublists.mpr horder) hframes, rfl, hframes,
    hslots, rfl, hqueued⟩

end Client

end CachePool
