/-
# What giving up cuts out

Giving up on commands walks along the unsent slots and the queued octets together.  A
queue is taken apart into parcels, each a slot with its whole frame; the octets are the
frames one behind the other, without the part of the first one that is written.  What is
left of a queue is described by its parcels alone: the first one stays when octets of it
are on the wire, and of the others those stay that are not given up.  The octets are again
the frames of what is left.

* `Link.Aligned` : a link whose octets are the frames of its unsent slots;
* `Link.spared` : the parcels that giving up leaves;
* `Link.sweep_parcels` : what a walk along slots and octets leaves;
* `Link.abandonWithin` : the walk with every offset checked against the octets;
* `Client.abandon_exact` : giving up cuts out just the frames it should.
-/
import Mathlib.Algebra.GroupWithZero.Nat
import CachePool.Proofs.Chunks
import CachePool.Proofs.Completions
import CachePool.Proofs.Wire

namespace CachePool

/-! ## Whom it concerns -/

/-- Whether giving up on a condition concerns a slot: someone waits for it, and it satisfies
the condition. -/
def Slot.meets (slot : Slot) (condition : Slot → Bool) : Bool :=
  slot.isLive && condition slot

namespace Link

variable {condition : Slot → Bool} {slot : Slot}

/-- A slot that is concerned is abandoned. -/
theorem abandonIf_of_meets (hmeets : slot.meets condition = true) :
    abandonIf condition slot = { slot with abandoned := true } := if_pos hmeets

/-- A slot that is not concerned stays as it is. -/
theorem abandonIf_of_not_meets (hother : slot.meets condition = false) :
    abandonIf condition slot = slot := if_neg (Bool.eq_false_iff.mp hother)

/-- Giving up leaves the length of a frame. -/
theorem frameLength_abandonIf (condition : Slot → Bool) (slot : Slot) :
    (abandonIf condition slot).frameLength = slot.frameLength := by
  unfold abandonIf
  split <;> rfl

end Link

/-! ## Parcels -/

/-- A queued command with the octets of its whole frame. -/
structure Parcel where
  slot : Slot
  frame : Bytes
  deriving DecidableEq

namespace Parcel

/-- The frames of a queue, one behind the other. -/
def octets (parcels : List Parcel) : Bytes :=
  parcels.flatMap Parcel.frame

theorem octets_cons (parcel : Parcel) (parcels : List Parcel) :
    octets (parcel :: parcels) = parcel.frame ++ octets parcels := List.flatMap_cons

theorem octets_append (first rest : List Parcel) :
    octets (first ++ rest) = octets first ++ octets rest := List.flatMap_append

/-- The parcel, abandoned if it is live and satisfies a condition. -/
def abandonIf (condition : Slot → Bool) (parcel : Parcel) : Parcel :=
  { parcel with slot := Link.abandonIf condition parcel.slot }

/-- A ticket as a parcel, with its slot as it is in a queue. -/
def ofTicket (ticket : Ticket) (slot : Slot) : Parcel where
  slot := slot
  frame := ticket.request.frame

end Parcel

/-- The lengths that are kept with the slots are those of the frames. -/
structure Parcel.Measured (parcel : Parcel) : Prop where
  length : parcel.frame.length = parcel.slot.frameLength
  filled : parcel.frame ≠ []

/-- So many octets of the first frame are written, but not all of them. -/
def Parcel.Within (written : Nat) : List Parcel → Prop
  | [] => written = 0
  | parcel :: _ => written < parcel.frame.length

namespace Parcel

variable {parcels : List Parcel}

/-- What is written of the first frame are octets of the queue. -/
theorem Within.le {written : Nat} (hwithin : Within written parcels) :
    written ≤ (octets parcels).length := by
  cases parcels with
  | nil => exact Nat.le_of_eq hwithin
  | cons parcel others =>
      have hlt : written < parcel.frame.length := hwithin
      rw [octets_cons, List.length_append]
      omega

/-- The lengths that are kept with the slots add up to that of the queue. -/
theorem length_octets (hmeasured : ∀ parcel ∈ parcels, parcel.Measured) :
    (octets parcels).length = ((parcels.map Parcel.slot).map Slot.frameLength).sum := by
  rw [octets, List.length_flatMap, List.map_map]
  exact congrArg List.sum (List.map_congr_left fun parcel hmem => (hmeasured parcel hmem).length)

end Parcel

/-- The queue of a link, taken apart: its slots, and behind the part that is written the
octets of their frames. -/
structure Link.Aligned (link : Link) (parcels : List Parcel) : Prop where
  slots : parcels.map Parcel.slot = link.unsent
  measured : ∀ parcel ∈ parcels, parcel.Measured
  outbound : link.outbound = (Parcel.octets parcels).drop link.headWritten
  head : Parcel.Within link.headWritten parcels

/-! ## Every link that is reached -/

/-- The tickets of a queue with its slots are parcels. -/
theorem parcels_of_holds {tickets : List Ticket} {slots : List Slot}
    (hvalid : ∀ ticket ∈ tickets, ticket.Valid) (hholds : Holds tickets slots) :
    ∃ parcels : List Parcel, parcels.map Parcel.slot = slots ∧
      parcels.map Parcel.frame = tickets.map (·.request.frame) ∧
      ∀ parcel ∈ parcels, parcel.Measured := by
  induction slots generalizing tickets with
  | nil =>
      rw [show tickets = [] from List.map_eq_nil_iff.mp hholds]
      exact ⟨[], rfl, rfl, fun _ hmem => nomatch hmem⟩
  | cons slot slots ih =>
      obtain ⟨ticket, others, rfl, hslot, hothers⟩ := holds_cons hholds
      obtain ⟨parcels, hslots, hframes, hmeasured⟩ :=
        ih (fun other hmem => hvalid other (List.mem_cons_of_mem _ hmem)) hothers
      refine ⟨.ofTicket ticket slot :: parcels, congrArg (slot :: ·) hslots,
        congrArg (ticket.request.frame :: ·) hframes, ?_⟩
      intro parcel hmem
      rcases List.mem_cons.mp hmem with rfl | hmem
      · have hlength := (hvalid ticket List.mem_cons_self).length
        rw [hslot] at hlength
        exact ⟨hlength.symm, List.ne_nil_of_length_pos (Ticket.Valid.frame_pos ticket)⟩
      · exact hmeasured parcel hmem

/-- A link that carries whole frames is aligned. -/
theorem Link.Carries.aligned {trace : Trace} {link : Link} {written queued : List Ticket}
    (hcarries : link.Carries trace written queued)
    (hvalid : ∀ ticket ∈ trace.tickets, ticket.Valid) : ∃ parcels, link.Aligned parcels := by
  obtain ⟨parcels, hslots, hframes, hmeasured⟩ :=
    parcels_of_holds (hcarries.valid hvalid) hcarries.slots
  have hoctets : Parcel.octets parcels = Trace.frames queued := by
    rw [Parcel.octets, Trace.frames, List.flatMap_def, List.flatMap_def, hframes]
  refine ⟨parcels, hslots, hmeasured, ?_, ?_⟩
  · rw [hoctets]
    exact hcarries.outbound
  · have hhead := hcarries.head
    cases parcels with
    | nil =>
        rw [List.map_eq_nil_iff.mp hframes.symm] at hhead
        exact hhead
    | cons parcel parcels =>
        cases queued with
        | nil => cases hframes
        | cons ticket queued =>
            have hframe : parcel.frame = ticket.request.frame := (List.cons.inj hframes).1
            rw [Parcel.Within, hframe]
            exact hhead

/-! ## What is left of a queue -/

namespace Link

variable {condition : Slot → Bool} {written : Nat} {parcels : List Parcel} {link : Link}

/-- The parcels that giving up leaves when so many octets of the first frame are written: a
frame that is begun is finished, and of the others those are kept whose slots are not
concerned. -/
def spared (condition : Slot → Bool) (written : Nat) (parcels : List Parcel) : List Parcel :=
  let begun := min written 1
  (parcels.take begun).map (Parcel.abandonIf condition) ++
    (parcels.drop begun).filter fun parcel => !parcel.slot.meets condition

/-- Nothing of the first frame is written. -/
theorem spared_zero (condition : Slot → Bool) (parcels : List Parcel) :
    spared condition 0 parcels = parcels.filter fun parcel => !parcel.slot.meets condition := rfl

/-- The first frame is begun. -/
theorem spared_begun (condition : Slot → Bool) (hwritten : 0 < written) (parcel : Parcel)
    (parcels : List Parcel) : spared condition written (parcel :: parcels)
      = parcel.abandonIf condition :: spared condition 0 parcels := by
  unfold spared
  rw [Nat.min_eq_right hwritten]
  rfl

/-- A parcel that is not concerned is left as it is, begun or not. -/
theorem spared_of_not_meets {parcel : Parcel} (hother : parcel.slot.meets condition = false) :
    spared condition written (parcel :: parcels) = parcel :: spared condition 0 parcels := by
  rcases Nat.eq_zero_or_pos written with rfl | hwritten
  · rw [spared_zero, spared_zero, List.filter_cons, hother]
    rfl
  · rw [spared_begun condition hwritten, Parcel.abandonIf, abandonIf_of_not_meets hother]

/-- A parcel that is concerned goes if nothing of it is written. -/
theorem spared_of_meets {parcel : Parcel} (hmeets : parcel.slot.meets condition = true) :
    spared condition 0 (parcel :: parcels) = spared condition 0 parcels := by
  rw [spared_zero, spared_zero, List.filter_cons, hmeets]
  rfl

/-- What is left of parcels is measured as they are. -/
theorem measured_spared (hmeasured : ∀ parcel ∈ parcels, parcel.Measured) :
    ∀ parcel ∈ spared condition written parcels, parcel.Measured := by
  intro parcel hmem
  rcases List.mem_append.mp hmem with hmem | hmem
  · obtain ⟨old, hold, rfl⟩ := List.mem_map.mp hmem
    obtain ⟨hlength, hfilled⟩ := hmeasured old (List.mem_of_mem_take hold)
    exact ⟨hlength.trans (frameLength_abandonIf condition old.slot).symm, hfilled⟩
  · exact hmeasured parcel (List.mem_of_mem_drop (List.mem_filter.mp hmem).1)

/-- Nothing is written of parcels of which nothing is written. -/
theorem within_zero (hmeasured : ∀ parcel ∈ parcels, parcel.Measured) :
    Parcel.Within 0 parcels := by
  cases parcels with
  | nil => rfl
  | cons parcel others =>
      exact List.length_pos_iff.mpr (hmeasured parcel List.mem_cons_self).filled

/-- What is written belongs to the first frame that is left. -/
theorem within_spared (hmeasured : ∀ parcel ∈ parcels, parcel.Measured)
    (hhead : Parcel.Within written parcels) :
    Parcel.Within written (spared condition written parcels) := by
  rcases Nat.eq_zero_or_pos written with rfl | hwritten
  · exact within_zero (measured_spared hmeasured)
  · cases parcels with
    | nil => exact absurd hhead (Nat.ne_of_gt hwritten)
    | cons parcel others =>
        rw [spared_begun condition hwritten]
        exact hhead

/-- **What a walk along slots and octets leaves.**  It gives up the slots that are concerned,
and leaves the slots and the octets of the parcels that are spared. -/
theorem sweep_parcels (hmeasured : ∀ parcel ∈ parcels, parcel.Measured)
    (hhead : Parcel.Within written parcels) :
    sweep condition written (parcels.map Parcel.slot) ((Parcel.octets parcels).drop written)
      = { dropped := (parcels.map Parcel.slot).filter (·.meets condition)
          kept := (spared condition written parcels).map Parcel.slot
          outbound := (Parcel.octets (spared condition written parcels)).drop written } := by
  induction parcels generalizing written with
  | nil =>
      rw [show written = 0 from hhead]
      rfl
  | cons parcel parcels ih =>
      have hlt : written < parcel.frame.length := hhead
      obtain ⟨hlength, -⟩ := hmeasured parcel List.mem_cons_self
      have hothers : ∀ other ∈ parcels, other.Measured :=
        fun other hmem => hmeasured other (List.mem_cons_of_mem _ hmem)
      have hbehind := ih hothers (within_zero hothers)
      rw [List.drop_zero, List.drop_zero] at hbehind
      -- what the first frame has left stands in front of the others
      have hfront (first : Parcel) (others : List Parcel) (hframe : first.frame = parcel.frame) :
          (Parcel.octets (first :: others)).drop written
            = parcel.frame.drop written ++ Parcel.octets others := by
        rw [Parcel.octets_cons, hframe, List.drop_append_of_le_length (Nat.le_of_lt hlt)]
      have hrest : parcel.slot.frameLength - written = (parcel.frame.drop written).length := by
        rw [List.length_drop, hlength]
      rw [List.map_cons, sweep, hfront parcel parcels rfl, List.take_left' hrest.symm,
        List.drop_left' hrest.symm, hbehind, ← Bool.not_and, ← Slot.meets, List.filter_cons]
      cases hmeets : parcel.slot.meets condition with
      | false => rw [spared_of_not_meets hmeets, hfront parcel _ rfl]; rfl
      | true =>
          rcases Nat.eq_zero_or_pos written with rfl | hbegun
          · rw [spared_of_meets hmeets, List.drop_zero]
            rfl
          · rw [spared_begun condition hbegun, hfront (parcel.abandonIf condition) _ rfl,
              List.map_cons, Parcel.abandonIf, abandonIf_of_meets hmeets]
            rw [if_pos hbegun]
            rfl

/-! ## Offsets into the octets -/

/-- The walk along the unsent slots with every offset checked: the octets of a frame are
those from `offset` on, all of them must be there, and no more of a frame may be written
than it has. -/
def sweepWithin (condition : Slot → Bool) (outbound : Bytes) :
    Nat → Nat → List Slot → Option Sweep
  | _, _, [] => some { dropped := [], kept := [], outbound := [] }
  | written, offset, slot :: rest =>
    if written ≤ slot.frameLength then do
      let stop := offset + (slot.frameLength - written)
      let frame ← outbound.range? offset stop
      let behind ← sweepWithin condition outbound 0 stop rest
      return if !slot.isLive || !condition slot then
        { behind with kept := slot :: behind.kept, outbound := frame ++ behind.outbound }
      else if 0 < written then
        { dropped := slot :: behind.dropped
          kept := { slot with abandoned := true } :: behind.kept
          outbound := frame ++ behind.outbound }
      else { behind with dropped := slot :: behind.dropped }
    else none

/-- Giving up, with every offset checked. -/
def abandonWithin (link : Link) (condition : Slot → Bool) : Option (Link × List Slot) := do
  let swept ← sweepWithin condition link.outbound link.headWritten 0 link.unsent
  return ({ link with
      outbound := swept.outbound
      unsent := swept.kept
      awaiting := link.awaiting.map (abandonIf condition) },
    swept.dropped ++ link.awaiting.filter (·.meets condition))

/-- The offsets lie within octets that hold what is left of every frame. -/
theorem sweepWithin_eq (condition : Slot → Bool) {outbound : Bytes} {offset : Nat}
    {slots : List Slot} (hhead : ∀ first ∈ slots.head?, written ≤ first.frameLength)
    (hroom : offset + (slots.map Slot.frameLength).sum ≤ outbound.length + written) :
    sweepWithin condition outbound written offset slots
      = some (sweep condition written slots (outbound.drop offset)) := by
  induction slots generalizing written offset with
  | nil => rfl
  | cons slot slots ih =>
      have hwritten : written ≤ slot.frameLength := hhead slot rfl
      rw [List.map_cons, List.sum_cons] at hroom
      have hbehind := @ih 0 (offset + (slot.frameLength - written))
        (fun _ _ => Nat.zero_le _) (by omega)
      rw [sweepWithin, if_pos hwritten]
      dsimp only
      rw [Bytes.range?_eq (Nat.le_add_right offset _) (by omega), hbehind, sweep, slice,
        List.drop_drop, Nat.add_sub_cancel_left]
      rfl

/-- **No offset leaves the octets.** -/
theorem Aligned.abandonWithin_eq (haligned : link.Aligned parcels) (condition : Slot → Bool) :
    link.abandonWithin condition = some (link.abandon condition) := by
  have hlengths := Parcel.length_octets haligned.measured
  rw [haligned.slots] at hlengths
  have hhead : ∀ first ∈ link.unsent.head?, link.headWritten ≤ first.frameLength := by
    intro first hfirst
    have hwithin := haligned.head
    rw [← haligned.slots] at hfirst
    cases parcels with
    | nil => cases hfirst
    | cons parcel parcels =>
        cases hfirst
        rw [← (haligned.measured parcel List.mem_cons_self).length]
        exact Nat.le_of_lt hwithin
  have hroom : 0 + (link.unsent.map Slot.frameLength).sum
      ≤ link.outbound.length + link.headWritten := by
    rw [← hlengths, haligned.outbound, List.length_drop]
    omega
  rw [abandonWithin, sweepWithin_eq condition hhead hroom]
  rfl

/-! ## Slots that are not concerned -/

/-- Slots that are not concerned stay in their order. -/
theorem sublist_map_abandonIf (condition : Slot → Bool) (slots : List Slot) :
    (slots.filter fun slot => !slot.meets condition).Sublist
      (slots.map (abandonIf condition)) := by
  induction slots with
  | nil => exact .slnil
  | cons slot slots ih =>
      rw [List.map_cons, List.filter_cons]
      cases hmeets : slot.meets condition with
      | true => exact ih.cons _
      | false =>
          rw [abandonIf_of_not_meets hmeets]
          exact ih.cons_cons slot

/-- So they do in what is left of a queue. -/
theorem sublist_spared (condition : Slot → Bool) (written : Nat) (parcels : List Parcel) :
    ((parcels.map Parcel.slot).filter fun slot => !slot.meets condition).Sublist
      ((spared condition written parcels).map Parcel.slot) := by
  rw [← List.take_append_drop (min written 1) parcels, List.map_append, List.filter_append,
    List.take_append_drop, spared, List.map_append, List.map_map]
  refine .append ?_ ?_
  · have hbegun := sublist_map_abandonIf condition
      ((parcels.take (min written 1)).map Parcel.slot)
    rw [List.map_map] at hbegun
    exact hbegun
  · rw [List.filter_map]
    exact .refl _

/-- A slot that is concerned is none of the others, abandoned or not. -/
theorem not_meets_others {condition : Slot → Bool} {slot : Slot} (other : Slot → Bool)
    (hmeets : slot.meets condition = true) :
    (slot.meets fun slot => other slot && !condition slot) = false ∧
      ((abandonIf condition slot).meets fun slot => other slot && !condition slot) = false := by
  obtain ⟨-, hcondition⟩ := Bool.and_eq_true_iff.mp hmeets
  rw [abandonIf_of_meets hmeets]
  refine ⟨?_, rfl⟩
  rw [Slot.meets, hcondition, Bool.not_true, Bool.and_false, Bool.and_false]

/-- Giving up changes nothing for those who look at other live slots. -/
theorem filter_others_abandonIf (condition other : Slot → Bool) (slots : List Slot) :
    (slots.map (abandonIf condition)).filter (·.meets fun slot => other slot && !condition slot)
      = slots.filter (·.meets fun slot => other slot && !condition slot) := by
  induction slots with
  | nil => rfl
  | cons slot slots ih =>
      rw [List.map_cons, List.filter_cons, List.filter_cons, ih]
      cases hmeets : slot.meets condition with
      | false => rw [abandonIf_of_not_meets hmeets]
      | true =>
          obtain ⟨hslot, habandoned⟩ := not_meets_others other hmeets
          rw [hslot, habandoned]
          rfl

/-- Nor does it in a queue. -/
theorem filter_others_spared (condition other : Slot → Bool) (written : Nat)
    (parcels : List Parcel) :
    ((spared condition written parcels).map Parcel.slot).filter
        (·.meets fun slot => other slot && !condition slot)
      = (parcels.map Parcel.slot).filter (·.meets fun slot => other slot && !condition slot) := by
  induction parcels generalizing written with
  | nil => rw [spared, List.take_nil, List.drop_nil]; rfl
  | cons parcel parcels ih =>
      rw [List.map_cons, List.filter_cons]
      cases hmeets : parcel.slot.meets condition with
      | false => rw [spared_of_not_meets hmeets, List.map_cons, List.filter_cons, ih]
      | true =>
          obtain ⟨hslot, habandoned⟩ := not_meets_others other hmeets
          rcases Nat.eq_zero_or_pos written with rfl | hbegun
          · rw [spared_of_meets hmeets, hslot, ih]
            rfl
          · rw [spared_begun condition hbegun, List.map_cons, List.filter_cons, ih, hslot]
            show (if (abandonIf condition parcel.slot).meets _ = true then _ else _) = _
            rw [habandoned]
            rfl

/-! ## Giving up on a link -/

/-- Slots that meet a condition are those that are counted. -/
theorem liveCount_eq (link : Link) (condition : Slot → Bool) :
    link.liveCount condition = (link.unsent.filter (·.meets condition)).length
      + (link.awaiting.filter (·.meets condition)).length := by
  rw [liveCount, List.countP_append, List.countP_eq_length_filter, List.countP_eq_length_filter]
  rfl

/-- Parcels of which none is concerned are all left. -/
theorem spared_eq_self (hothers : ∀ parcel ∈ parcels, parcel.slot.meets condition = false) :
    spared condition written parcels = parcels := by
  induction parcels generalizing written with
  | nil => rw [spared, List.take_nil, List.drop_nil]; rfl
  | cons parcel parcels ih =>
      rw [spared_of_not_meets (hothers parcel List.mem_cons_self),
        ih fun other hmem => hothers other (List.mem_cons_of_mem _ hmem)]

/-- What giving up leaves of a link whose queue is taken apart, and whom it gives up. -/
theorem Aligned.abandon_eq (haligned : link.Aligned parcels) (condition : Slot → Bool) :
    link.abandon condition
      = ({ link with
            outbound :=
              (Parcel.octets (spared condition link.headWritten parcels)).drop link.headWritten
            unsent := (spared condition link.headWritten parcels).map Parcel.slot
            awaiting := link.awaiting.map (abandonIf condition) },
          link.unsent.filter (·.meets condition) ++ link.awaiting.filter (·.meets condition)) := by
  have hswept := @sweep_parcels condition _ _ haligned.measured haligned.head
  rw [haligned.slots, ← haligned.outbound] at hswept
  unfold abandon
  rw [hswept]
  rfl

/-- Where nobody is concerned, giving up changes nothing. -/
theorem Aligned.abandon_eq_self (haligned : link.Aligned parcels)
    (hcount : link.liveCount condition = 0) : link.abandon condition = (link, []) := by
  rw [liveCount_eq, Nat.add_eq_zero_iff, List.length_eq_zero_iff, List.length_eq_zero_iff] at hcount
  obtain ⟨hunsent, hawaiting⟩ := hcount
  have hspared : spared condition link.headWritten parcels = parcels := by
    apply spared_eq_self
    intro parcel hmem
    rw [← haligned.slots, List.filter_eq_nil_iff] at hunsent
    exact Bool.eq_false_iff.mpr (hunsent parcel.slot (List.mem_map_of_mem hmem))
  have hmarked : link.awaiting.map (abandonIf condition) = link.awaiting := by
    refine (List.map_congr_left fun slot hmem => ?_).trans (List.map_id _)
    exact abandonIf_of_not_meets
      (Bool.eq_false_iff.mpr (List.filter_eq_nil_iff.mp hawaiting slot hmem))
  rw [haligned.abandon_eq, hspared, hunsent, hawaiting, hmarked, haligned.slots,
    ← haligned.outbound]
  rfl

/-- What giving up on a condition does to a link whose queue is taken apart. -/
structure GivesUp (link : Link) (condition : Slot → Bool) (parcels : List Parcel) (after : Link)
    (given : List Slot) : Prop where
  /-- Just the slots that are concerned are given up, unsent ones first, in their order. -/
  given : given
    = link.unsent.filter (·.meets condition) ++ link.awaiting.filter (·.meets condition)
  /-- Then none is concerned any more. -/
  settled : after.liveCount condition = 0
  /-- As many others are waited for as before. -/
  others : ∀ other : Slot → Bool, after.liveCount (fun slot => other slot && !condition slot)
    = link.liveCount fun slot => other slot && !condition slot
  /-- The unsent slots that are not concerned stay in their order. -/
  unsent : (link.unsent.filter fun slot => !slot.meets condition).Sublist after.unsent
  /-- Unsent slots that are concerned go with just the octets of their frames; one whose
  frame is begun stays, marked, with the octets that its frame has left. -/
  aligned : after.Aligned (spared condition link.headWritten parcels)
  /-- The awaiting slots all stay, and those concerned are marked.  What is written of the
  first frame is the same as before, and nothing else changes. -/
  link : after = { link with
    outbound := after.outbound
    unsent := after.unsent
    awaiting := link.awaiting.map (abandonIf condition) }

/-- Giving up does so. -/
theorem Aligned.givesUp (haligned : link.Aligned parcels) (condition : Slot → Bool) :
    link.GivesUp condition parcels (link.abandon condition).1 (link.abandon condition).2 where
  given := by rw [haligned.abandon_eq]
  settled := link.liveCount_abandon condition
  others other := by
    rw [haligned.abandon_eq, liveCount_eq, liveCount_eq]
    dsimp only
    rw [filter_others_spared, filter_others_abandonIf, haligned.slots]
  unsent := by
    rw [haligned.abandon_eq, ← haligned.slots]
    exact sublist_spared condition link.headWritten parcels
  aligned := by
    rw [haligned.abandon_eq]
    exact ⟨rfl, measured_spared haligned.measured, rfl,
      within_spared haligned.measured haligned.head⟩
  link := rfl

end Link

/-! ## A queue of which a part is cut out -/

namespace Script

/-- A command like the first one. -/
def parcel (seq : Nat) (abandoned : Bool) : Parcel where
  slot := { ping.slot with seq, abandoned }
  frame := ping.request.frame

/-- Four such commands, the third given up. -/
def crowd : List Parcel :=
  [parcel 2 false, parcel 3 false, parcel 4 true, parcel 5 false]

/-- A link that has two more on the wire, and five octets of the third command. -/
def crowded : Link :=
  { waitingLink 0 false with
    outbound := (Parcel.octets crowd).drop 5
    headWritten := 5
    unsent := crowd.map Parcel.slot
    awaiting := [(parcel 0 false).slot, (parcel 1 false).slot] }

theorem aligned_crowded : crowded.Aligned crowd where
  slots := rfl
  measured := by
    have hmeasured (seq : Nat) (abandoned : Bool) : (parcel seq abandoned).Measured :=
      ⟨rfl, List.cons_ne_nil _ _⟩
    intro member hmem
    simp only [crowd, List.mem_cons, List.not_mem_nil, or_false] at hmem
    rcases hmem with rfl | rfl | rfl | rfl <;> exact hmeasured _ _
  outbound := rfl
  head := show 5 < 24 by decide

/-- A condition that two of the commands do not satisfy. -/
def early (slot : Slot) : Bool :=
  slot.seq != 1 && slot.seq != 5

end Script

/-! ## Every client -/

namespace Client

variable {ω : Type} [Network ω]

/-- **Giving up cuts out just the frames it should.**  The queue of every link that a client
reaches can be taken apart into slots with their frames.  Giving up on any condition on any
such link gives up just the live slots that satisfy it, unsent ones first and each queue in
its order.  The others stay as they are, in their order, and as many of them are counted as
before.  An unsent frame goes with its slot, unless it is begun; a slot whose frame is begun
or written stays, abandoned.  What is queued afterwards are the frames of the slots that are
left, behind as many octets of the first one as were written before.  No offset leaves the
queued octets on the way, and giving up once more gives up nobody and changes nothing. -/
theorem abandon_exact {net : ω} {config : Config} {start client : Client ω} {trace : Trace}
    (hconfig : withConfig net config = .ok start) (hreach : start.Reaches trace client) :
    (∀ link ∈ client.pool.links, ∃ parcels, link.Aligned parcels) ∧
    ∀ (link : Link) (parcels : List Parcel) (condition : Slot → Bool), link.Aligned parcels →
      link.GivesUp condition parcels (link.abandon condition).1 (link.abandon condition).2 ∧
      link.abandonWithin condition = some (link.abandon condition) ∧
      (link.abandon condition).1.abandon condition = ((link.abandon condition).1, []) := by
  have hblank := reaches_withConfig hconfig hreach
  refine ⟨?_, ?_⟩
  · intro link hlink
    obtain ⟨written, queued, hcarries⟩ := hblank.links (Link.carries_invariant ω) link hlink
    exact hcarries.aligned hblank.ordered.valid
  · intro link parcels condition haligned
    have hgives := haligned.givesUp condition
    exact ⟨hgives, haligned.abandonWithin_eq condition,
      hgives.aligned.abandon_eq_self hgives.settled⟩

/-- Of six commands three are given up; the one that is begun and the one on the wire stay,
marked, and only the frame of the other is cut out. -/
theorem abandon_exact_crowded : Script.crowded.Aligned Script.crowd ∧
    (Script.crowded.abandon Script.early).2.map (·.seq) = [2, 3, 0] ∧
    (Script.crowded.abandon Script.early).1.unsent.map (fun slot => (slot.seq, slot.abandoned))
      = [(2, true), (4, true), (5, false)] ∧
    (Script.crowded.abandon Script.early).1.outbound
      = Script.ping.request.frame.drop 5 ++ Script.ping.request.frame
        ++ Script.ping.request.frame := by
  obtain ⟨hgives, -, -⟩ := (abandon_exact (Script.withConfig_opened ⟨0, [], []⟩)
    (Script.mk 0 [] []).reaches_wrote).2 _ _ Script.early Script.aligned_crowded
  refine ⟨Script.aligned_crowded, ?_, ?_, ?_⟩
  · rw [hgives.given]
    rfl
  · rw [← hgives.aligned.slots]
    rfl
  · rw [hgives.aligned.outbound]
    rfl

end Client

end CachePool
