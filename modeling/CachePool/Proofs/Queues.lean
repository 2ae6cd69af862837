/-
# The queues of a link

The slots that a link carries are accepted commands in the order of issue: those that wait
for replies, and behind them those that are not wholly written.  Steps only take slots
away, so that what holds of a slot when it is queued holds as long as the link carries it.
Of the unsent slots only the first can be given up and stay, when a part of its frame is
on the wire.

* `Link.Step.sublist` : a step takes slots away and keeps the order of the others;
* `Link.queues_invariant` : the slots of a link are accepted commands;
* `Link.fresh` : the slots of which nothing is written, all of them alive;
* `Client.Reaches.tags` : tags count the commands, modulo the number of tags.
-/
import CachePool.Proofs.Links

namespace CachePool

namespace Link

/-! ## Steps take slots away -/

/-- A reply takes at most the first slot away. -/
theorem sublist_matchReply {link next : Link} {response : Response} {finished : List Finished}
    (hmatch : link.matchReply response = .ok (next, finished)) :
    (next.awaiting.map Slot.original).Sublist (link.awaiting.map Slot.original) := by
  unfold matchReply at hmatch
  split at hmatch
  · cases hmatch
  rename_i slot rest hqueue
  split at hmatch
  · cases hmatch
  split at hmatch
  · cases hmatch
  rw [hqueue]
  split at hmatch
  · rename_i more haccept
    cases hmatch
    have horiginal : more.original = slot.original := by
      unfold Slot.accept at haccept
      repeat' split at haccept
      all_goals cases haccept
      rfl
    rw [List.map_cons, List.map_cons, horiginal]
  · cases hmatch
    exact List.sublist_cons_self _ _

/-- Replies take slots away from the front. -/
theorem Answers.sublist {link last : Link} {responses : List Response} {incidents : Trace}
    (hanswers : Answers link responses incidents last) :
    (last.awaiting.map Slot.original).Sublist (link.awaiting.map Slot.original) := by
  induction hanswers with
  | nil => exact .refl _
  | cons _ hmatch _ ih => exact ih.trans (sublist_matchReply hmatch)

/-- A sweep takes slots away. -/
theorem sublist_sweep (condition : Slot → Bool) (written : Nat) (slots : List Slot)
    (octets : Bytes) :
    ((sweep condition written slots octets).kept.map Slot.original).Sublist
      (slots.map Slot.original) := by
  induction slots generalizing written octets with
  | nil => exact .slnil
  | cons slot slots ih =>
      have hbehind := ih 0 (octets.drop (slot.frameLength - written))
      unfold sweep
      dsimp only
      split
      · exact hbehind.cons_cons _
      split
      · exact hbehind.cons_cons slot.original
      · exact hbehind.cons _

/-- A sweep over frames that are not begun marks none of them. -/
theorem sublist_sweep_zero (condition : Slot → Bool) (slots : List Slot) (octets : Bytes) :
    (sweep condition 0 slots octets).kept.Sublist slots := by
  induction slots generalizing octets with
  | nil => exact .slnil
  | cons slot slots ih =>
      have hbehind := ih (octets.drop (slot.frameLength - 0))
      unfold sweep
      dsimp only
      split
      · exact hbehind.cons_cons _
      · exact hbehind.cons _

/-- Marking slots leaves them the commands they were. -/
theorem map_original_abandonIf (condition : Slot → Bool) (slots : List Slot) :
    (slots.map (abandonIf condition)).map Slot.original = slots.map Slot.original := by
  rw [List.map_map]
  apply List.map_congr_left
  intro slot _
  unfold Function.comp abandonIf
  split <;> rfl

/-- Giving up on slots keeps the order of the others. -/
theorem sublist_abandon (link : Link) (condition : Slot → Bool) :
    (((link.abandon condition).1.awaiting ++ (link.abandon condition).1.unsent).map
      Slot.original).Sublist ((link.awaiting ++ link.unsent).map Slot.original) := by
  rw [List.map_append, List.map_append]
  show ((link.awaiting.map (abandonIf condition)).map Slot.original ++ _).Sublist _
  rw [map_original_abandonIf]
  exact (List.Sublist.refl _).append (sublist_sweep _ _ _ _)

section Steps

variable {ω : Type} [Network ω] {now : Nat} {timeouts : Timeouts} {link after : Link}
  {net last : ω} {incidents : Trace}

/-- **A step takes slots away** and keeps the order of the others. -/
theorem Step.sublist (hstep : link.Step now timeouts net incidents after last) :
    ((after.awaiting ++ after.unsent).map Slot.original).Sublist
      ((link.awaiting ++ link.unsent).map Slot.original) := by
  cases hstep with
  | @took socket count =>
      have hsplit :=
        append_splitWritten (link.headWritten + (link.outbound.take count).length) link.unsent
      show ((link.awaiting ++ (splitWritten _ link.unsent).1
        ++ (splitWritten _ link.unsent).2.2).map Slot.original).Sublist _
      rw [List.append_assoc, hsplit]
  | received hphase hread hfault hanswers =>
      have hunsent := congrArg Link.unsent hanswers.eq
      show ((_ ++ Link.unsent _).map Slot.original).Sublist _
      rw [hunsent, List.map_append, List.map_append]
      exact hanswers.sublist.append (.refl _)
  | lost => exact List.nil_sublist _
  | retired => exact List.nil_sublist _
  | shortCircuited =>
      show ((link.awaiting ++ []).map Slot.original).Sublist _
      rw [List.append_nil, List.map_append]
      exact List.sublist_append_left _ _
  | expired target => exact sublist_abandon link target.covers
  | discarded => exact sublist_abandon link fun slot => slot.delivery = .buffered
  | _ => exact .refl _

end Steps

/-- The slots of a link are accepted commands, in the order of issue. -/
def Queues (trace : Trace) (link : Link) : Prop :=
  ((link.awaiting ++ link.unsent).map Slot.original).Sublist (trace.tickets.map (·.slot))

/-- Every step of a link keeps its slots in the order of issue. -/
theorem queues_invariant (ω : Type) [Network ω] : Link.Invariant ω Queues where
  make _ _ _ := List.nil_sublist _
  moved _ hqueues := hqueues
  aside {trace more _} _ hqueues := by
    have hmore := List.sublist_append_left trace.tickets more.tickets
    rw [← Trace.tickets_append] at hmore
    exact hqueues.trans (hmore.map _)
  queued {trace link ticket} hvalid _ hqueues := by
    show ((link.awaiting ++ (link.unsent ++ [ticket.slot])).map Slot.original).Sublist _
    rw [Trace.tickets_append, ← List.append_assoc, List.map_append,
      @List.map_append _ _ _ trace.tickets, List.map_singleton, hvalid.original]
    exact List.Sublist.append hqueues (.refl _)
  step _ _ _ hstep hqueues := by
    rw [Queues, Trace.tickets_append, Trace.tickets_of_about hstep.about, List.append_nil]
    exact hstep.sublist.trans hqueues

/-! ## Frames that are not begun -/

/-- The slots of which no octet is written. -/
def fresh (link : Link) : List Slot :=
  if link.headWritten = 0 then link.unsent else link.unsent.tail

/-- The unsent slots behind the first are fresh. -/
theorem suffix_fresh (link : Link) : link.unsent.tail <:+ link.fresh := by
  unfold fresh
  split
  · exact List.tail_suffix _
  · exact List.suffix_rfl

/-- Fresh slots are unsent. -/
theorem fresh_suffix (link : Link) : link.fresh <:+ link.unsent := by
  unfold fresh
  split
  · exact List.suffix_rfl
  · exact List.tail_suffix _

/-- Octets that end no frame are written of the first one. -/
theorem splitWritten_none {written : Nat} {slots : List Slot}
    (hnone : (splitWritten written slots).1 = []) :
    splitWritten written slots = ([], written, slots) := by
  unfold splitWritten at hnone ⊢
  split at hnone
  · rfl
  split at hnone
  · rename_i hshort
    rw [if_pos hshort]
  · cases hnone

/-- Writing begins frames, and ends none that it does not begin. -/
theorem fresh_wrote (link : Link) (count : Nat) : (link.wrote count).fresh <:+ link.fresh := by
  generalize htotal : link.headWritten + (link.outbound.take count).length = total
  have hwrote : (link.wrote count).fresh
      = if (splitWritten total link.unsent).2.1 = 0 then (splitWritten total link.unsent).2.2
        else (splitWritten total link.unsent).2.2.tail := by
    rw [← htotal]
    rfl
  have hsplit := append_splitWritten total link.unsent
  rw [hwrote]
  cases hsent : (splitWritten total link.unsent).1 with
  | nil =>
      rw [splitWritten_none hsent, fresh]
      dsimp only
      split
      · have hnothing : link.headWritten = 0 := by omega
        exact (if_pos hnothing).symm ▸ List.suffix_rfl
      · split
        · exact List.tail_suffix _
        · exact List.suffix_rfl
  | cons slot sent =>
      rw [hsent] at hsplit
      have hkept : (splitWritten total link.unsent).2.2 <:+ link.unsent.tail := by
        rw [congrArg List.tail hsplit.symm]
        exact ⟨sent, rfl⟩
      apply List.IsSuffix.trans _ link.suffix_fresh
      split
      · exact hkept
      · exact (List.tail_suffix _).trans hkept

/-- Giving up on slots begins no frame. -/
theorem fresh_abandon (link : Link) (condition : Slot → Bool) :
    (link.abandon condition).1.fresh.Sublist link.fresh := by
  show List.Sublist (if link.headWritten = 0
    then (sweep condition link.headWritten link.unsent link.outbound).kept
    else (sweep condition link.headWritten link.unsent link.outbound).kept.tail) link.fresh
  unfold fresh
  by_cases hzero : link.headWritten = 0
  · rw [if_pos hzero, if_pos hzero, hzero]
    exact sublist_sweep_zero condition link.unsent link.outbound
  rw [if_neg hzero, if_neg hzero]
  cases link.unsent with
  | nil => exact .slnil
  | cons slot slots =>
      unfold sweep
      dsimp only
      split
      · exact sublist_sweep_zero condition slots _
      · rw [if_pos (by omega)]
        exact sublist_sweep_zero condition slots _

/-- A command that joins the queue is the only new one. -/
theorem fresh_enqueue (link : Link) (request : Request) (slot : Slot) :
    (link.enqueue request slot).fresh.Sublist (link.fresh ++ [slot]) := by
  show List.Sublist (if link.headWritten = 0 then link.unsent ++ [slot]
    else (link.unsent ++ [slot]).tail) (link.fresh ++ [slot])
  unfold fresh
  split
  · exact .refl _
  · cases link.unsent with
    | nil => exact List.nil_sublist _
    | cons first slots => exact .refl _

section Steps

variable {ω : Type} [Network ω] {now : Nat} {timeouts : Timeouts} {link after : Link}
  {net last : ω} {incidents : Trace}

/-- A step makes no slot fresh. -/
theorem Step.fresh (hstep : link.Step now timeouts net incidents after last) :
    after.fresh.Sublist link.fresh := by
  cases hstep with
  | took => exact (fresh_wrote link _).sublist
  | received hphase hread hfault hanswers =>
      rw [hanswers.eq]
      exact .refl _
  | lost => exact List.nil_sublist _
  | retired => exact List.nil_sublist _
  | shortCircuited => exact List.nil_sublist _
  | expired target => exact fresh_abandon link target.covers
  | discarded => exact fresh_abandon link fun slot => slot.delivery = .buffered
  | _ => exact .refl _

end Steps

/-- Someone waits for every command of which nothing is written. -/
theorem fresh_invariant (ω : Type) [Network ω] :
    Link.Invariant ω fun _ link => ∀ slot ∈ link.fresh, slot.isLive = true where
  make _ _ _ := fun _ hslot => nomatch hslot
  moved _ hlive := hlive
  aside _ hlive := hlive
  queued {_ link ticket} hvalid _ hlive := by
    intro slot hslot
    rcases List.mem_append.mp ((fresh_enqueue link _ _).subset hslot) with hold | hnew
    · exact hlive slot hold
    · rw [List.mem_singleton.mp hnew, ← hvalid.original]
      rfl
  step _ _ _ hstep hlive := fun slot hslot => hlive slot (hstep.fresh.subset hslot)

end Link

/-! ## Tags -/

/-- Keeping results uses up no tags. -/
@[simp] theorem Ledger.nextTag_absorb (ledger : Ledger) (finished : List Finished) :
    (ledger.absorb finished).nextTag = ledger.nextTag := by
  induction finished generalizing ledger with
  | nil => rfl
  | cons first others ih =>
      show ((ledger.record first).absorb others).nextTag = _
      rw [ih, Ledger.record]
      dsimp only
      split <;> rfl

namespace Client

variable {ω : Type}

/-- Tags count commands: the next one, and those that were accepted. -/
structure Tagged (trace : Trace) (client : Client ω) : Prop where
  next : client.ledger.nextTag = UInt32.ofNat client.ledger.nextSeq
  tickets : ∀ ticket ∈ trace.tickets, ticket.slot.tag = UInt32.ofNat ticket.slot.seq

/-- A step that accepts no command counts none. -/
theorem Tagged.quiet {trace incidents : Trace} {client after : Client ω}
    (htagged : client.Tagged trace) (hincidents : incidents.tickets = [])
    (hseq : after.ledger.nextSeq = client.ledger.nextSeq)
    (htag : after.ledger.nextTag = client.ledger.nextTag) : after.Tagged (trace ++ incidents) where
  next := by rw [htag, hseq, htagged.next]
  tickets := by
    rw [Trace.tickets_append, hincidents, List.append_nil]
    exact htagged.tickets

variable [Network ω]

/-- A step of a client counts the command it accepts. -/
theorem Tagged.step {trace incidents : Trace} {client after : Client ω}
    (htagged : client.Tagged trace) (hstep : client.Step incidents after) :
    after.Tagged (trace ++ incidents) := by
  cases hstep with
  | move hmove =>
      cases hmove with
      | link hlinks hstep =>
          exact htagged.quiet (Trace.tickets_of_about hstep.about) (Ledger.nextSeq_absorb _ _)
            (Ledger.nextTag_absorb _ _)
      | waited => exact htagged.quiet rfl rfl rfl
      | noted => exact htagged.quiet rfl rfl rfl
  | queued hqueue =>
      obtain ⟨front, link, back, -, -, -, -, rfl⟩ := queue_cases hqueue
      refine ⟨?_, ?_⟩
      · show client.ledger.nextTag + 1 = UInt32.ofNat (client.ledger.nextSeq + 1)
        rw [htagged.next, UInt32.ofNat_add]
        rfl
      · intro ticket hticket
        rw [Trace.tickets_append, List.mem_append] at hticket
        rcases hticket with hold | hnew
        · exact htagged.tickets ticket hold
        · rw [List.mem_singleton.mp hnew]
          exact htagged.next
  | collected => exact htagged.quiet rfl rfl rfl
  | emptied => exact htagged.quiet rfl rfl rfl
  | placed => exact htagged.quiet rfl rfl rfl
  | adjusted => exact htagged.quiet rfl rfl rfl

/-- The tags of every client that is reached count its commands. -/
theorem Reaches.tags {timeouts : Timeouts} {buffering : Bool} {net : ω} {trace : Trace}
    {client : Client ω} (hreach : (blank timeouts buffering net).Reaches trace client) :
    client.Tagged trace := by
  induction hreach with
  | start => exact ⟨rfl, fun _ hticket => nomatch hticket⟩
  | step _ hstep ih => exact ih.step hstep
  | elapsed net _ ih => exact ⟨ih.next, ih.tickets⟩

end Client

end CachePool
