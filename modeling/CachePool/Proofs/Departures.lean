/-
# How octets leave

A socket takes what a link has queued in pieces of any length, with interruptions, and blocks
whenever it likes; the link goes on in its next call.  One piece may end no frame, one or many,
and leave a part of another.  What becomes of the link does not depend on the pieces but on how
many octets they have together, however they are spread over calls, and replies that are read
in between do not change this.

* `Network.Takes` : what a socket answers in a call, until it would block or has all octets;
* `Link.Sends` : what a link is when its socket has taken so many octets;
* `Link.wrote_wrote` : two pieces are as good as one;
* `Link.Exchanges` : calls that write, and reads between them;
* `Link.departures_unseen` : however octets leave, the same is left.
-/
import CachePool.Proofs.Abandoning
import CachePool.Proofs.Draining

namespace CachePool

/-! ## What a socket takes -/

namespace WriteOutcome

/-- How many octets were taken. -/
def count : WriteOutcome → Nat
  | took count => count
  | interrupted => 0
  | wouldBlock => 0
  | failed _ => 0

/-- How many octets were taken in several writes. -/
def total (outcomes : List WriteOutcome) : Nat :=
  (outcomes.map count).sum

theorem total_cons (outcome : WriteOutcome) (outcomes : List WriteOutcome) :
    total (outcome :: outcomes) = outcome.count + total outcomes := List.sum_cons

theorem total_append (first later : List WriteOutcome) :
    total (first ++ later) = total first + total later := by
  rw [total, List.map_append, List.sum_append]
  rfl

end WriteOutcome

section Sockets

variable {ω : Type} [Network ω]

/-- The outcomes of the writes of octets, until the socket would block or has all of them, and
the network after that.  A socket takes no octet that it is not offered. -/
inductive Network.Takes (socket : Socket) : ω → Bytes → List WriteOutcome → ω → Prop
  | emptied (net : ω) : Takes socket net [] [] net
  | blocked {net after : ω} {octets : Bytes} (hsome : octets ≠ [])
      (hwrite : Network.write net socket octets = (.wouldBlock, after)) :
      Takes socket net octets [.wouldBlock] after
  | interrupted {net after last : ω} {octets : Bytes} {outcomes : List WriteOutcome}
      (hsome : octets ≠ []) (hwrite : Network.write net socket octets = (.interrupted, after))
      (hlater : Takes socket after octets outcomes last) :
      Takes socket net octets (.interrupted :: outcomes) last
  | took {net after last : ω} {octets : Bytes} {count : Nat} {outcomes : List WriteOutcome}
      (hcount : 0 < count) (hoffered : count ≤ octets.length)
      (hwrite : Network.write net socket octets = (.took count, after))
      (hlater : Takes socket after (octets.drop count) outcomes last) :
      Takes socket net octets (.took count :: outcomes) last

/-- No more octets are taken than there are. -/
theorem Network.Takes.total_le {socket : Socket} {net after : ω} {octets : Bytes}
    {outcomes : List WriteOutcome} (htakes : Network.Takes socket net octets outcomes after) :
    WriteOutcome.total outcomes ≤ octets.length := by
  induction htakes with
  | emptied | blocked => exact Nat.zero_le _
  | interrupted _ _ _ ih =>
      rw [WriteOutcome.total_cons, WriteOutcome.count, Nat.zero_add]
      exact ih
  | took _ hoffered _ _ ih =>
      rw [List.length_drop] at ih
      rw [WriteOutcome.total_cons, WriteOutcome.count]
      omega

end Sockets

/-! ## Frames that end -/

namespace Parcel

variable {sent kept parcels : List Parcel} {written : Nat}

/-- The first frames of a queue have no more octets than all of them. -/
theorem length_octets_take_le (parcels : List Parcel) (place : Nat) :
    (octets (parcels.take place)).length ≤ (octets parcels).length := by
  conv_rhs => rw [← List.take_append_drop place parcels, octets_append, List.length_append]
  exact Nat.le_add_right _ _

/-- Where the octets that are written end in the next frame, just the frames before it end in
them. -/
theorem ends_iff (hsent : (octets sent).length ≤ written)
    (hnext : Within (written - (octets sent).length) kept) {place : Nat}
    (hplace : place < (sent ++ kept).length) :
    place < sent.length ↔ (octets ((sent ++ kept).take (place + 1))).length ≤ written := by
  constructor
  · intro hbefore
    rw [List.take_append_of_le_length hbefore]
    exact Nat.le_trans (length_octets_take_le sent _) hsent
  · intro hends
    by_contra hbehind
    cases kept with
    | nil =>
        rw [List.append_nil] at hplace
        exact hbehind hplace
    | cons next others =>
        -- the next frame is among the first ones, and it does not end
        have hlt : written - (octets sent).length < next.frame.length := hnext
        rw [List.take_append, List.take_of_length_le (by omega),
          show place + 1 - sent.length = place - sent.length + 1 by omega, List.take_succ_cons,
          octets_append, octets_cons, List.length_append, List.length_append] at hends
        omega

end Parcel

namespace Link

/-- What a link is when its socket has taken so many more octets: the frames of some parcels
are sent, and the others are kept. -/
structure Sends (link : Link) (sent kept : List Parcel) (count : Nat) (after : Link) : Prop where
  /-- The octets are queued ones. -/
  queued : count ≤ link.outbound.length
  /-- Just the frames whose last octet is written are sent. -/
  ends : ∀ place < (sent ++ kept).length, place < sent.length ↔
    (Parcel.octets ((sent ++ kept).take (place + 1))).length ≤ link.headWritten + count
  /-- What is written behind them is of the next frame. -/
  head : (Parcel.octets sent).length + after.headWritten = link.headWritten + count
  /-- The queue is that of the frames that are kept. -/
  aligned : after.Aligned kept
  /-- The octets that were taken are at the front of the queue, the slots of the frames that
  are sent wait for replies behind those that do, and nothing else changes. -/
  link : after = { link with
    outbound := link.outbound.drop count
    headWritten := after.headWritten
    unsent := kept.map Parcel.slot
    awaiting := link.awaiting ++ sent.map Parcel.slot }

/-! ## Octets in two goes -/

/-- Octets that are written in two goes end the frames that they end at once. -/
theorem splitWritten_add (written more : Nat) (slots : List Slot) :
    splitWritten (written + more) slots =
      let (sent, left, unsent) := splitWritten written slots
      let (later, left, unsent) := splitWritten (left + more) unsent
      (sent ++ later, left, unsent) := by
  fun_induction splitWritten written slots with
  | case1 written => rfl
  | case2 written slot rest hpart => rfl
  | case3 written slot rest hwhole sent left unsent hrest ih =>
      rw [hrest] at ih
      have hless : ¬written + more < slot.frameLength := by omega
      rw [splitWritten, if_neg hless, Nat.sub_add_comm (Nat.not_lt.mp hwhole), ih]
      rfl

/-- **Two pieces are as good as one.** -/
theorem wrote_wrote (link : Link) (first second : Nat) :
    (link.wrote first).wrote second = link.wrote (first + second) := by
  have hlength : (link.outbound.take (first + second)).length
      = (link.outbound.take first).length + ((link.outbound.drop first).take second).length := by
    rw [List.take_add, List.length_append]
  have hsplit := splitWritten_add (link.headWritten + (link.outbound.take first).length)
    ((link.outbound.drop first).take second).length link.unsent
  rw [Nat.add_assoc, ← hlength] at hsplit
  unfold wrote
  dsimp only
  rw [hsplit, List.drop_drop]
  simp only [List.append_assoc]

/-! ## What a socket leaves -/

/-- Octets that are written end the frames of the first parcels, and leave a part of the next
one. -/
theorem split_parcels {parcels : List Parcel} {written : Nat}
    (hmeasured : ∀ parcel ∈ parcels, parcel.Measured)
    (hwritten : written ≤ (Parcel.octets parcels).length) :
    ∃ sent kept, parcels = sent ++ kept ∧ (Parcel.octets sent).length ≤ written ∧
      Parcel.Within (written - (Parcel.octets sent).length) kept ∧
      splitWritten written (parcels.map Parcel.slot)
        = (sent.map Parcel.slot, written - (Parcel.octets sent).length,
          kept.map Parcel.slot) := by
  have hslots := append_splitWritten written (parcels.map Parcel.slot)
  have hsum := sum_splitWritten written (parcels.map Parcel.slot)
  have hnext := @splitWritten_lt written (parcels.map Parcel.slot)
  generalize splitWritten written (parcels.map Parcel.slot) = split at hslots hsum hnext ⊢
  obtain ⟨slots, left, others⟩ := split
  dsimp only at hslots hsum hnext
  obtain ⟨sent, kept, rfl, rfl, rfl⟩ := List.map_eq_append_iff.mp hslots.symm
  rw [← Parcel.length_octets fun parcel hmem => hmeasured parcel (List.mem_append_left _ hmem)]
    at hsum
  have hleft : written - (Parcel.octets sent).length = left := by omega
  refine ⟨sent, kept, rfl, by omega, ?_, by rw [hleft]⟩
  rw [hleft]
  cases kept with
  | nil =>
      rw [List.append_nil] at hwritten
      show left = 0
      omega
  | cons parcel kept =>
      have hlength := (hmeasured parcel (List.mem_append_right _ List.mem_cons_self)).length
      rw [Parcel.Within, hlength]
      exact hnext rfl

variable {link : Link} {parcels : List Parcel} {count : Nat}

/-- **Octets that are taken leave what the queue says.** -/
theorem Aligned.sends (haligned : link.Aligned parcels) (hcount : count ≤ link.outbound.length) :
    ∃ sent kept, parcels = sent ++ kept ∧ link.Sends sent kept count (link.wrote count) := by
  have hqueued := hcount
  rw [haligned.outbound, List.length_drop] at hqueued
  have hwithin := Parcel.Within.le haligned.head
  obtain ⟨sent, kept, rfl, hsent, hnext, hsplit⟩ :=
    @split_parcels parcels (link.headWritten + count) haligned.measured (by omega)
  have hwrote : link.wrote count = { link with
      outbound := link.outbound.drop count
      headWritten := link.headWritten + count - (Parcel.octets sent).length
      unsent := kept.map Parcel.slot
      awaiting := link.awaiting ++ sent.map Parcel.slot } := by
    unfold wrote
    dsimp only
    rw [List.length_take, Nat.min_eq_left hcount, ← haligned.slots, hsplit]
  refine ⟨sent, kept, rfl, hcount, fun place hplace => Parcel.ends_iff hsent hnext hplace, ?_, ?_,
    ?_⟩
  · rw [hwrote]
    dsimp only
    omega
  · rw [hwrote]
    refine ⟨rfl, fun parcel hmem => haligned.measured parcel (List.mem_append_right _ hmem), ?_,
      hnext⟩
    dsimp only
    rw [haligned.outbound, List.drop_drop, Parcel.octets_append, List.drop_append,
      List.drop_eq_nil_of_le hsent, List.nil_append]
  · rw [hwrote]

/-- Nothing becomes of a link whose socket takes nothing. -/
theorem Aligned.wrote_zero (haligned : link.Aligned parcels) : link.wrote 0 = link := by
  have hnone : splitWritten link.headWritten link.unsent = ([], link.headWritten, link.unsent) := by
    have hhead := haligned.head
    rw [← haligned.slots]
    cases parcels with
    | nil => rfl
    | cons parcel parcels =>
        have hlength := (haligned.measured parcel List.mem_cons_self).length
        rw [Parcel.Within, hlength] at hhead
        rw [List.map_cons, splitWritten, if_pos hhead]
  unfold wrote
  dsimp only
  rw [List.take_zero, List.length_nil, Nat.add_zero, hnone, List.drop_zero, List.append_nil]

/-! ## One call -/

section Calls

variable {ω : Type} [Network ω] {socket : Socket} {net after : ω} {outcomes : List WriteOutcome}

/-- An interruption does not matter for a call. -/
theorem writePending_of_interrupted (hsome : link.outbound ≠ [])
    (hwrite : Network.write net socket link.outbound = (.interrupted, after)) :
    link.writePending socket net = link.writePending socket after := by
  have hoffer : offer socket link.outbound net = offer socket link.outbound after := by
    rw [offer]
    split <;> simp_all
  rw [writePending, writePending, dif_neg hsome, dif_neg hsome, hoffer]

/-- A call goes on after a piece was taken. -/
theorem writePending_of_took (hcount : 0 < count) (hoffered : count ≤ link.outbound.length)
    (hwrite : Network.write net socket link.outbound = (.took count, after)) :
    link.writePending socket net = (link.wrote count).writePending socket after := by
  have hsome : link.outbound ≠ [] := List.length_pos_iff.mp (Nat.lt_of_lt_of_le hcount hoffered)
  have hoffer : offer socket link.outbound net = (.took count, after) := by
    rw [offer]
    split <;> simp_all
  rw [writePending, dif_neg hsome, hoffer]
  exact if_neg (Nat.ne_of_gt hcount)

/-- A call ends when the socket would block. -/
theorem writePending_of_blocked (hsome : link.outbound ≠ [])
    (hwrite : Network.write net socket link.outbound = (.wouldBlock, after)) :
    link.writePending socket net = (link, after, none) := by
  have hoffer : offer socket link.outbound net = (.wouldBlock, after) := by
    rw [offer]
    split <;> simp_all
  rw [writePending, dif_neg hsome, hoffer]

/-- **A call leaves what all octets that it could write leave at once.** -/
theorem writePending_of_takes (haligned : link.Aligned parcels)
    (htakes : Network.Takes socket net link.outbound outcomes after) :
    link.writePending socket net = (link.wrote (WriteOutcome.total outcomes), after, none) := by
  generalize houtbound : link.outbound = octets at htakes
  induction htakes generalizing link parcels with
  | emptied net =>
      rw [writePending, dif_pos houtbound]
      exact congrArg (·, net, none) haligned.wrote_zero.symm
  | @blocked net after _ hsome hwrite =>
      subst houtbound
      rw [writePending_of_blocked hsome hwrite]
      exact congrArg (·, after, none) haligned.wrote_zero.symm
  | interrupted hsome hwrite _ ih =>
      subst houtbound
      rw [writePending_of_interrupted hsome hwrite, ih haligned rfl, WriteOutcome.total_cons,
        WriteOutcome.count, Nat.zero_add]
  | took hcount hoffered hwrite _ ih =>
      subst houtbound
      obtain ⟨sent, kept, -, hsends⟩ := haligned.sends hoffered
      rw [writePending_of_took hcount hoffered hwrite, ih hsends.aligned rfl, wrote_wrote,
        WriteOutcome.total_cons, WriteOutcome.count]

end Calls

/-! ## Reads in between -/

/-- A link that reads pieces of octets one after the other, if none of the reads fails. -/
def readPieces (link : Link) : List Bytes → Option Link
  | [] => some link
  | piece :: pieces =>
    let reading := link.reading piece .drained
    if reading.failure = none then readPieces reading.link pieces else none

/-- One more piece is read. -/
theorem readPieces_snoc {between : Link} {pieces : List Bytes} {piece : Bytes}
    (hearlier : link.readPieces pieces = some between)
    (hfits : (between.reading piece .drained).failure = none) :
    link.readPieces (pieces ++ [piece]) = some (between.reading piece .drained).link := by
  induction pieces generalizing link with
  | nil =>
      cases hearlier
      exact if_pos hfits
  | cons first pieces ih =>
      rw [readPieces] at hearlier
      rw [List.cons_append, readPieces]
      split at hearlier
      · rename_i hfirst
        rw [if_pos hfirst, ih hearlier]
      · cases hearlier

/-- Reading leaves what is queued. -/
theorem Aligned.reading (haligned : link.Aligned parcels) (octets : Bytes) (ending : ReadEnd) :
    (link.reading octets ending).link.Aligned parcels ∧
      (link.reading octets ending).link.outbound = link.outbound := by
  obtain ⟨awaiting, inbound, hlink⟩ := link.link_reading octets ending
  rw [hlink]
  exact ⟨⟨haligned.slots, haligned.measured, haligned.outbound, haligned.head⟩, rfl⟩

theorem Aligned.readPieces {last : Link} {pieces : List Bytes} (haligned : link.Aligned parcels)
    (hread : link.readPieces pieces = some last) :
    last.Aligned parcels ∧ last.outbound = link.outbound := by
  induction pieces generalizing link with
  | nil =>
      cases hread
      exact ⟨haligned, rfl⟩
  | cons piece pieces ih =>
      rw [Link.readPieces] at hread
      split at hread
      · obtain ⟨hreading, hsame⟩ := haligned.reading piece .drained
        obtain ⟨hlast, houtbound⟩ := ih hreading hread
        exact ⟨hlast, houtbound.trans hsame⟩
      · cases hread

/-- A reply is given to the same command when more frames are sent before. -/
theorem matchReply_wrote {next : Link} {response : Response} {finished : List Finished}
    (hmatch : link.matchReply response = .ok (next, finished)) (count : Nat) :
    (link.wrote count).matchReply response = .ok (next.wrote count, finished) := by
  have hwaiting : (link.wrote count).awaiting = link.awaiting ++ link.finishedBy count := rfl
  unfold matchReply at hmatch ⊢
  rw [hwaiting]
  cases hawaiting : link.awaiting with
  | nil =>
      rw [hawaiting] at hmatch
      cases hmatch
  | cons slot rest =>
      rw [hawaiting] at hmatch
      rw [List.cons_append]
      dsimp only at hmatch ⊢
      split at hmatch
      · cases hmatch
      rename_i htag
      rw [if_neg htag]
      split at hmatch
      · cases hmatch
      rename_i hopcode
      rw [if_neg hopcode]
      cases haccept : slot.accept response with
      | more slot =>
          rw [haccept] at hmatch
          cases hmatch
          rfl
      | final result =>
          rw [haccept] at hmatch
          cases hmatch
          rfl

/-- So are replies. -/
theorem matchReplies_wrote {next : Link} {responses : List Response} {finished : List Finished}
    (hmatch : link.matchReplies responses = (next, finished, none)) (count : Nat) :
    (link.wrote count).matchReplies responses = (next.wrote count, finished, none) := by
  induction responses generalizing link finished with
  | nil =>
      cases hmatch
      rfl
  | cons response responses ih =>
      rw [matchReplies] at hmatch ⊢
      cases hfirst : link.matchReply response with
      | error error => simp [hfirst] at hmatch
      | ok result =>
          rcases hothers : result.1.matchReplies responses with ⟨last, more, fault⟩
          simp only [hfirst, hothers, Prod.mk.injEq] at hmatch
          obtain ⟨rfl, rfl, rfl⟩ := hmatch
          rw [matchReply_wrote hfirst]
          dsimp only
          rw [ih hothers]

/-- A read that does not fail would not have failed later. -/
theorem reading_wrote {piece : Bytes} (hfits : (link.reading piece .drained).failure = none)
    (count : Nat) :
    (link.wrote count).reading piece .drained
      = { link.reading piece .drained with
          link := (link.reading piece .drained).link.wrote count } := by
  have hinbound : (link.wrote count).inbound = link.inbound := rfl
  have hnone := (failure_readCut_eq_none_iff.mp hfits).1
  unfold reading
  rw [hinbound]
  rcases hmatched : link.matchReplies
    ((Response.kind.split (link.inbound ++ piece)).frames.map (·.1)) with ⟨next, finished, fault⟩
  rw [hmatched] at hnone
  cases hnone
  rw [readCut_eq hmatched, readCut_eq (matchReplies_wrote hmatched count)]
  rfl

theorem readPieces_wrote {last : Link} {pieces : List Bytes}
    (hread : link.readPieces pieces = some last) (count : Nat) :
    (link.wrote count).readPieces pieces = some (last.wrote count) := by
  induction pieces generalizing link with
  | nil =>
      cases hread
      rfl
  | cons piece pieces ih =>
      rw [readPieces] at hread ⊢
      split at hread
      · rename_i hfits
        rw [reading_wrote hfits]
        dsimp only
        rw [if_pos hfits]
        exact ih hread
      · cases hread

end Link

/-! ## Calls in a row -/

namespace Link

variable {ω : Type} [Network ω] {link : Link} {parcels : List Parcel} {socket : Socket}
  {outcomes : List WriteOutcome}

/-- Calls that write what is queued, one after the other, and reads between them that do not
fail: the outcomes of all writes, and the pieces that were read. -/
inductive Exchanges (ω : Type) [Network ω] (socket : Socket) (link : Link) :
    List WriteOutcome → List Bytes → Link → Prop
  | start : Exchanges ω socket link [] [] link
  | write {outcomes more : List WriteOutcome} {pieces : List Bytes} {between : Link}
      {net after : ω} (hearlier : Exchanges ω socket link outcomes pieces between)
      (htakes : Network.Takes socket net between.outbound more after) :
      Exchanges ω socket link (outcomes ++ more) pieces (between.writePending socket net).1
  | read {outcomes : List WriteOutcome} {pieces : List Bytes} {between next : Link}
      {around behind : Around ω} (hearlier : Exchanges ω socket link outcomes pieces between)
      (hread : between.readAvailable around socket = (next, behind, none)) :
      Exchanges ω socket link outcomes (pieces ++ [(readAll socket around.net).1]) next

/-- A read that does not fail makes of what it gets what the link makes of it. -/
theorem reading_of_readAvailable {next : Link} {around behind : Around ω}
    (hread : link.readAvailable around socket = (next, behind, none)) :
    (link.reading (readAll socket around.net).1 .drained).failure = none ∧
      next = (link.reading (readAll socket around.net).1 .drained).link := by
  obtain ⟨octets, drained, -, -, hall, -⟩ :=
    @readAvailable_drained _ _ link around socket (by rw [hread])
  obtain ⟨inbound, net, hresult, hinbound⟩ :=
    @readAvailable_of_gives _ _ link _ around _ _ (Network.gives_of_readAll hall)
  rw [hread, Prod.mk.injEq, Prod.mk.injEq] at hresult
  obtain ⟨rfl, -, hfits⟩ := hresult
  rw [hall]
  exact ⟨hfits.symm, by rw [hinbound hfits.symm]⟩

/-- **Calls in a row leave what one piece leaves**, and then what was read. -/
theorem Exchanges.eq (haligned : link.Aligned parcels) {last : Link} {pieces : List Bytes}
    (hexchanges : Exchanges ω socket link outcomes pieces last) :
    WriteOutcome.total outcomes ≤ link.outbound.length ∧
      (link.wrote (WriteOutcome.total outcomes)).readPieces pieces = some last := by
  induction hexchanges with
  | start =>
      refine ⟨Nat.zero_le _, ?_⟩
      rw [show WriteOutcome.total [] = 0 from rfl, haligned.wrote_zero]
      rfl
  | @write outcomes more pieces between net after _ htakes ih =>
      obtain ⟨hqueued, hread⟩ := ih
      obtain ⟨sent, kept, -, hsends⟩ := haligned.sends hqueued
      obtain ⟨hbetween, houtbound⟩ := hsends.aligned.readPieces hread
      have hmore := htakes.total_le
      rw [houtbound, outbound_wrote, List.length_drop] at hmore
      rw [writePending_of_takes hbetween htakes, WriteOutcome.total_append, ← wrote_wrote]
      exact ⟨by omega, readPieces_wrote hread _⟩
  | read _ hread ih =>
      obtain ⟨hqueued, hbetween⟩ := ih
      obtain ⟨hfits, rfl⟩ := reading_of_readAvailable hread
      exact ⟨hqueued, readPieces_snoc hbetween hfits⟩

/-- **How octets leave is not seen.**  Let the queue of a link be taken apart into slots with
their frames.  However its socket takes octets, in one call or in several, and in whatever
pieces and with whatever interruptions, until it would block or has all: no call fails.  The
queue loses just as many octets at its front as were taken in all; just the frames whose last
octet is written are sent, and their slots wait for replies behind those that do, in their
order; and the rest of what is written is of the next frame.  Replies that are read between
the calls are matched as they would be behind the last one.  So two ways to take octets that
take as many in all, and read the same, leave the same. -/
theorem departures_unseen (haligned : link.Aligned parcels) (socket : Socket) :
    (∀ (net after : ω) (outcomes : List WriteOutcome),
      Network.Takes socket net link.outbound outcomes after →
      ∃ sent kept written, parcels = sent ++ kept ∧
        link.Sends sent kept (WriteOutcome.total outcomes) written ∧
        link.writePending socket net = (written, after, none)) ∧
    ∀ (outcomes : List WriteOutcome) (pieces : List Bytes) (last : Link),
      Exchanges ω socket link outcomes pieces last →
      (∃ sent kept written, parcels = sent ++ kept ∧
        link.Sends sent kept (WriteOutcome.total outcomes) written ∧
        written.readPieces pieces = some last ∧ last.Aligned kept) ∧
      ∀ (others : List WriteOutcome) (other : Link), Exchanges ω socket link others pieces other →
        WriteOutcome.total others = WriteOutcome.total outcomes → other = last := by
  constructor
  · intro net after outcomes htakes
    obtain ⟨sent, kept, hparcels, hsends⟩ := haligned.sends htakes.total_le
    exact ⟨sent, kept, _, hparcels, hsends, writePending_of_takes haligned htakes⟩
  · intro outcomes pieces last hexchanges
    obtain ⟨hqueued, hread⟩ := hexchanges.eq haligned
    refine ⟨?_, fun others other hother htotal => ?_⟩
    · obtain ⟨sent, kept, hparcels, hsends⟩ := haligned.sends hqueued
      exact ⟨sent, kept, _, hparcels, hsends, hread, (hsends.aligned.readPieces hread).1⟩
    · have hother := (hother.eq haligned).2
      rw [htotal, hread] at hother
      exact (Option.some.inj hother).symm

/-- Forty octets are taken, in one call or in two: they end the frame that is begun, and leave
twenty-one octets of the next one. -/
theorem departures_unseen_crowded :
    let once : List WriteOutcome := [.interrupted, .took 10, .took 30, .wouldBlock]
    let first : List WriteOutcome := [.took 1, .wouldBlock]
    let second : List WriteOutcome := [.took 39, .interrupted, .wouldBlock]
    Script.crowded.Aligned Script.crowd ∧
    ∃ last, Exchanges Valve 0 Script.crowded once [] last ∧
      Exchanges Valve 0 Script.crowded (first ++ second) [] last ∧
      last.outbound = Script.crowded.outbound.drop 40 ∧ last.headWritten = 21 ∧
      last.awaiting.map (·.seq) = [0, 1, 2] ∧ last.unsent.map (·.seq) = [3, 4, 5] := by
  intro once first second
  have haligned := Script.aligned_crowded
  have honce : Network.Takes 0 (Valve.mk 0 once) Script.crowded.outbound once ⟨0, []⟩ :=
    .interrupted (by decide) rfl (.took (by decide) (by decide) rfl
      (.took (by decide) (by decide) rfl (.blocked (by decide) rfl)))
  have hfirst : Network.Takes 0 (Valve.mk 0 first) Script.crowded.outbound first ⟨0, []⟩ :=
    .took (by decide) (by decide) rfl (.blocked (by decide) rfl)
  have hsecond : Network.Takes 0 (Valve.mk 0 second)
      (Script.crowded.writePending 0 (Valve.mk 0 first)).1.outbound second ⟨0, []⟩ := by
    rw [writePending_of_takes haligned hfirst]
    exact .took (by decide) (by decide) rfl
      (.interrupted (by decide) rfl (.blocked (by decide) rfl))
  have hone : Exchanges Valve 0 Script.crowded once [] _ := .write .start honce
  have htwo : Exchanges Valve 0 Script.crowded (first ++ second) [] _ :=
    .write (.write .start hfirst) hsecond
  obtain ⟨hcall, hcalls⟩ := @departures_unseen Valve _ _ _ haligned 0
  obtain ⟨sent, kept, written, hparcels, hsends, hwrites⟩ := hcall _ _ _ honce
  have hsame := (hcalls _ _ _ hone).2 _ _ htwo rfl
  rw [hwrites] at hone hsame
  rw [hsame] at htwo
  -- of the octets written so far the first frame has twenty-four, and the second as many
  have hplaces := hsends.ends
  rw [← hparcels] at hplaces
  have hsome : 0 < sent.length := (hplaces 0 (by decide)).mpr (by decide)
  have hfew : ¬1 < sent.length := fun hmany =>
    absurd ((hplaces 1 (by decide)).mp hmany) (by decide)
  obtain ⟨parcel, rfl⟩ := List.length_eq_one_iff.mp (show sent.length = 1 by omega)
  obtain ⟨rfl, rfl⟩ := List.cons.inj hparcels
  refine ⟨haligned, written, hone, htwo, ?_, ?_, ?_, ?_⟩
  · rw [hsends.link]
    rfl
  · exact Nat.add_left_cancel (hsends.head.trans (show 5 + 40 = 24 + 21 from rfl))
  · rw [hsends.link]
    rfl
  · rw [hsends.link]
    rfl

end Link

end CachePool
