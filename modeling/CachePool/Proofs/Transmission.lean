/-
# No command is sent twice

Each socket takes the frames of some commands, and of the last of them perhaps only a part.
No command is among those of two sockets, whatever fails and is connected again: what a
link loses with its socket it never offers to the next one.  The commands that a socket
takes are taken off the fresh slots of its link, which nobody gave up and of which no octet
was written, so that a command that ended before it was begun is never begun.

* `Link.started`, `Link.fresh` : the unsent slots, with and without octets on the wire;
* `Trace.Transmits` : which commands every socket took;
* `Client.Reaches.begins` : every socket took commands of its own;
* `Client.Reaches.opens` : every socket is opened once;
* `Client.at_most_once` : no command is sent twice.
-/
import Mathlib.Data.List.Pairwise
import CachePool.Proofs.Conservation
import CachePool.Proofs.Health
import CachePool.Proofs.Wire

namespace CachePool

/-! ## The end of a command -/

/-- A command ends, or it is given up without a result. -/
def Incident.Finishes (seq : Nat) : Incident → Prop
  | ended finished => finished.slot.seq = seq
  | dropped slot => slot.seq = seq
  | _ => False

/-- An entry of a list that is made longer stands in the old part or in the new one. -/
theorem split_append {α : Type} {first second before after : List α} {entry : α}
    (hsplit : first ++ second = before ++ entry :: after) :
    (∃ rest, first = before ++ entry :: rest) ∨
      ∃ earlier, before = first ++ earlier ∧ second = earlier ++ entry :: after := by
  rcases List.append_eq_append_iff.mp hsplit with ⟨earlier, hbefore, hsecond⟩ | ⟨rest, hfirst, hrest⟩
  · exact .inr ⟨earlier, hbefore, hsecond⟩
  · cases rest with
    | nil => exact .inr ⟨[], by simpa using hfirst.symm, by simpa using hrest.symm⟩
    | cons other rest =>
        obtain ⟨rfl, -⟩ := List.cons.inj hrest
        exact .inl ⟨rest, hfirst⟩

/-! ## Commands whose frames are begun -/

namespace Link

/-- The unsent slot of which octets are written, if there is one. -/
def started (link : Link) : List Slot :=
  if link.headWritten = 0 then [] else link.unsent.take 1

/-- An unsent slot is started or fresh. -/
theorem started_append_fresh (link : Link) : link.started ++ link.fresh = link.unsent := by
  unfold started fresh
  split
  · rfl
  · rw [← List.drop_one]
    exact List.take_append_drop 1 link.unsent

/-- At most one slot is started. -/
theorem length_started (link : Link) : link.started.length ≤ 1 := by
  unfold started
  split
  · exact Nat.zero_le 1
  · rw [List.length_take]
    exact Nat.min_le_left _ _

/-- A sweep keeps the slot that is started. -/
theorem started_abandon (link : Link) (condition : Slot → Bool) :
    (link.abandon condition).1.started.map (·.seq) = link.started.map (·.seq) := by
  show List.map _ (if link.headWritten = 0 then []
    else (sweep condition link.headWritten link.unsent link.outbound).kept.take 1) = _
  unfold started
  by_cases hzero : link.headWritten = 0
  · rw [if_pos hzero, if_pos hzero]
  rw [if_neg hzero, if_neg hzero]
  cases link.unsent with
  | nil => rfl
  | cons slot slots =>
      unfold sweep
      dsimp only
      split
      · rfl
      · rw [if_pos (by omega)]
        rfl

/-- What a step does to the octets on the wire: a socket takes some, or none pass.  Then a
link whose socket stays open keeps the slot that is started, and a socket that was just
opened has none. -/
theorem Step.transmission {ω : Type} [Network ω] {now : Nat} {timeouts : Timeouts}
    {link after : Link} {net last : ω} {incidents : Trace} (hsettled : link.Settled)
    (hstep : link.Step now timeouts net incidents after last) :
    (∃ count, link.phase.socket? ≠ none ∧ after = link.wrote count ∧
      incidents = .took link.line (link.outbound.take count)
        :: (link.finishedBy count).map fun slot => .sent link.line slot.seq) ∨
    (∀ line, incidents.taken line = [] ∧ incidents.sent line = []) ∧
      (after.phase.socket? = none ∨
        (link.phase.socket? ≠ none ∧ after.line = link.line ∧
          after.started.map (·.seq) = link.started.map (·.seq)) ∨
        (after.line = (link.attempting now).line ∧ after.started = [])) := by
  have hsilent {more : Trace} (hmore : ∀ line, more.Silent line) (line : Line) :
      more.taken line = [] ∧ more.sent line = [] :=
    ⟨Trace.taken_of_silent (hmore line), Trace.sent_of_silent (hmore line)⟩
  -- giving up marks slots, and the one that is started stays the one
  have hopen_or {condition : Slot → Bool} :
      (link.abandon condition).1.phase.socket? = none ∨
        (link.phase.socket? ≠ none ∧ (link.abandon condition).1.line = link.line ∧
          (link.abandon condition).1.started.map (·.seq) = link.started.map (·.seq)) := by
    by_cases hidle : link.phase.socket? = none
    · exact .inl hidle
    · exact .inr ⟨hidle, rfl, link.started_abandon condition⟩
  cases hstep with
  | quiet hquiet =>
      refine .inr ⟨hsilent Trace.silent_nil, .inr (.inl ⟨?_, rfl, rfl⟩)⟩
      intro hidle
      cases hquiet with
      | pending hphase => exact socket_ne_none_of_connecting hphase hidle
      | interrupted hphase => exact socket_ne_none hphase hidle
      | blocked hphase => exact socket_ne_none hphase hidle
  | opened hidle =>
      refine .inr ⟨hsilent (Trace.silent_singleton rfl), .inr (.inr ⟨rfl, ?_⟩)⟩
      obtain ⟨-, -, hnothing⟩ := hsettled.unconnected (ne_connected hidle)
      exact if_pos hnothing
  | established hphase =>
      exact .inr ⟨hsilent (Trace.silent_singleton rfl),
        .inr (.inl ⟨socket_ne_none_of_connecting hphase, rfl, rfl⟩)⟩
  | took hphase => exact .inl ⟨_, socket_ne_none hphase, rfl, rfl⟩
  | @received _ octets _ more _ hphase _ _ hanswers =>
      refine .inr ⟨fun line => ?_, .inr (.inl ⟨socket_ne_none hphase, ?_, ?_⟩)⟩
      · obtain ⟨htaken, hsent⟩ := @Answers.untaken _ _ _ _ line hanswers
        exact ⟨htaken, hsent⟩
      · rw [hanswers.eq]
        rfl
      · rw [hanswers.eq]
        rfl
  | lost hloses => exact .inr ⟨hloses.untaken, .inl rfl⟩
  | shortCircuited hidle => exact .inr ⟨hsilent (Trace.silent_map_ended _), .inl hidle⟩
  | expired target => exact .inr ⟨hsilent (silent_expiry _ target _), hopen_or.imp_right .inl⟩
  | discarded => exact .inr ⟨hsilent (Trace.silent_map_dropped _), hopen_or.imp_right .inl⟩
  | examined =>
      refine .inr ⟨hsilent (Trace.silent_singleton rfl), ?_⟩
      by_cases hidle : link.phase.socket? = none
      · exact .inl hidle
      · exact .inr (.inl ⟨hidle, rfl, rfl⟩)
  | retired => exact .inr ⟨hsilent (silent_loss link .removed), .inl rfl⟩

/-! ## What an open socket took -/

/-- The octets that are written of a queue are those of the slot that is started. -/
theorem take_started {written : Nat} {first rest : List Ticket}
    (hhead : HeadWithin written (first ++ rest)) (hlength : first.length ≤ 1)
    (hnone : written = 0 → first = []) (hsome : written ≠ 0 → first ≠ []) :
    (Trace.frames (first ++ rest)).take written <+: Trace.frames first := by
  cases first with
  | nil =>
      have hzero : written = 0 := by
        by_contra hwritten
        exact hsome hwritten rfl
      rw [hzero]
      exact List.nil_prefix
  | cons ticket others =>
      have hothers : others = [] := by
        cases others with
        | nil => rfl
        | cons second others => simp at hlength
      subst hothers
      have hlt : written < ticket.request.frame.length := hhead
      rw [List.singleton_append, Trace.frames_cons,
        List.take_append_of_le_length (Nat.le_of_lt hlt), Trace.frames_cons]
      exact (List.take_prefix _ _).trans (List.prefix_append _ _)

/-- Octets are written of some slot. -/
theorem Carries.unsent_ne_nil {trace : Trace} {link : Link} {written queued : List Ticket}
    (hcarries : link.Carries trace written queued) (hwritten : link.headWritten ≠ 0) :
    link.unsent ≠ [] := by
  intro hunsent
  have hslots := hcarries.slots
  have hhead := hcarries.head
  rw [hunsent] at hslots
  rw [List.map_eq_nil_iff.mp hslots] at hhead
  exact hwritten hhead

/-- What a link carries whose socket is open: the commands that the socket took, in whole or
in part, and behind them its fresh ones. -/
theorem Carries.transmitted {trace : Trace} {link : Link} {written queued : List Ticket}
    (hcarries : link.Carries trace written queued) (hopen : link.phase.socket? ≠ none) :
    ∃ carried rest, carried ++ rest = written ++ queued ∧ Holds rest link.fresh ∧
      carried.map (·.slot.seq) = trace.sent link.line ++ link.started.map (·.seq) ∧
      trace.taken link.line <+: Trace.frames carried ∧
      ∀ front ticket back, carried = front ++ ticket :: back →
        (Trace.frames front).length < (trace.taken link.line).length := by
  have hslots := hcarries.slots
  rw [← link.started_append_fresh] at hslots
  obtain ⟨first, rest, rfl, hfirst, hrest⟩ := holds_split hslots
  have hlength : first.length ≤ 1 := by
    rw [← List.length_map (·.slot), hfirst, List.length_map]
    exact link.length_started
  have hnone (hzero : link.headWritten = 0) : first = [] := by
    rw [Holds, started, if_pos hzero] at hfirst
    exact List.map_eq_nil_iff.mp hfirst
  have hsome (hwritten : link.headWritten ≠ 0) : first ≠ [] := by
    rintro rfl
    rw [Holds, started, if_neg hwritten, eq_comm, List.map_nil, List.map_eq_nil_iff,
      List.take_eq_nil_iff] at hfirst
    exact hfirst.elim Nat.one_ne_zero (hcarries.unsent_ne_nil hwritten)
  have htaken := hcarries.taken hopen
  have hlong : (trace.taken link.line).length
      = (Trace.frames written).length + link.headWritten := by
    have hle := hcarries.head.le
    rw [htaken, List.length_append, List.length_take]
    omega
  refine ⟨written ++ first, rest, List.append_assoc _ _ _, hrest, ?_, ?_, ?_⟩
  · rw [List.map_append, hcarries.places hopen, hfirst.seqs]
  · rw [htaken, Trace.frames_append written first, List.prefix_append_right_inj]
    exact take_started hcarries.head hlength hnone hsome
  · intro front ticket back hsplit
    rw [hlong]
    rcases split_append hsplit with ⟨others, rfl⟩ | ⟨earlier, rfl, hstarted⟩
    · have hframe := Ticket.Valid.frame_pos ticket
      rw [Trace.frames_append, Trace.frames_cons, List.length_append, List.length_append]
      omega
    · -- the command is the one that is started, and octets of it are written
      have hpositive : link.headWritten ≠ 0 := by
        intro hzero
        rw [hnone hzero] at hstarted
        exact List.append_ne_nil_of_right_ne_nil _ (List.cons_ne_nil _ _) hstarted.symm
      have hearlier : earlier = [] := by
        rw [hstarted, List.length_append, List.length_cons] at hlength
        exact List.length_eq_zero_iff.mp (by omega)
      rw [hearlier, List.append_nil]
      omega

/-- Accepted commands are known by their places. -/
theorem eq_of_seqs {tickets first second : List Ticket}
    (hnodup : (tickets.map (·.slot.seq)).Nodup) (hfirst : first.Sublist tickets)
    (hsecond : second.Sublist tickets)
    (hseqs : first.map (·.slot.seq) = second.map (·.slot.seq)) : first = second := by
  have hsame {one other : Ticket} (hone : one ∈ first) (hother : other ∈ second)
      (hseq : one.slot.seq = other.slot.seq) : one = other :=
    List.inj_on_of_nodup_map hnodup (hfirst.subset hone) (hsecond.subset hother) hseq
  clear hfirst hsecond
  induction first generalizing second with
  | nil => exact (List.map_eq_nil_iff.mp hseqs.symm).symm
  | cons one others ih =>
      obtain ⟨other, rest, rfl, hseq, hrest⟩ := List.map_eq_cons_iff.mp hseqs.symm
      rw [hsame List.mem_cons_self List.mem_cons_self hseq.symm]
      exact congrArg _ (ih hrest.symm fun hone hother =>
        hsame (List.mem_cons_of_mem _ hone) (List.mem_cons_of_mem _ hother))

/-- A socket takes octets of fresh commands, behind those that it took before. -/
theorem Carries.begins {trace : Trace} {link : Link} {written queued old : List Ticket}
    {count : Nat} (hvalid : ∀ ticket ∈ trace.tickets, ticket.Valid)
    (hnodup : (trace.tickets.map (·.slot.seq)).Nodup)
    (hcarries : link.Carries trace written queued) (hopen : link.phase.socket? ≠ none)
    (horder : old.Sublist trace.tickets)
    (hold : old.map (·.slot.seq) = trace.sent link.line ++ link.started.map (·.seq)) {after : Trace}
    (hafter : after = trace ++ (.took link.line (link.outbound.take count)
      :: (link.finishedBy count).map fun slot => .sent link.line slot.seq)) :
    ∃ added rest, Holds (added ++ rest) link.fresh ∧ Holds rest (link.wrote count).fresh ∧
      ((old ++ added) ++ rest).Sublist trace.tickets ∧
      (old ++ added).map (·.slot.seq)
        = after.sent link.line ++ (link.wrote count).started.map (·.seq) ∧
      after.taken link.line <+: Trace.frames (old ++ added) ∧
      ∀ front ticket back, old ++ added = front ++ ticket :: back →
        (Trace.frames front).length < (after.taken link.line).length := by
  obtain ⟨first, behind, hfirst, hbehind, hseqs, -⟩ := hcarries.transmitted hopen
  have hbefore : (first ++ behind).Sublist trace.tickets := hfirst ▸ hcarries.order
  obtain rfl : old = first :=
    eq_of_seqs hnodup horder ((List.sublist_append_left _ _).trans hbefore) (hold.trans hseqs.symm)
  obtain ⟨sent, kept, rfl, -, hnow⟩ := @Carries.wrote _ _ _ _ count hvalid hopen hcarries
  rw [← hafter] at hnow
  obtain ⟨carried, rest, hcarried, hrest, hplaces, htaken, hbegun⟩ := hnow.transmitted hopen
  have hsplit : old ++ behind = carried ++ rest := by
    rw [hfirst, hcarried, List.append_assoc]
  have hshort : rest.length ≤ behind.length := by
    have hfew := (link.fresh_wrote count).length_le
    rw [← List.length_map Slot.unmarked, ← hrest, List.length_map] at hfew
    rwa [← @List.length_map _ _ link.fresh Slot.unmarked, ← hbehind, List.length_map] at hfew
  obtain ⟨added, rfl, rfl⟩ : ∃ added, carried = old ++ added ∧ behind = added ++ rest := by
    rcases List.append_eq_append_iff.mp hsplit with ⟨added, hnew, hrest⟩ | ⟨added, hnew, hrest⟩
    · exact ⟨added, hnew, hrest⟩
    · have hnone : added = [] := by
        rw [hrest, List.length_append] at hshort
        exact List.length_eq_zero_iff.mp (by omega)
      subst hnone
      exact ⟨[], by rw [hnew, List.append_nil, List.append_nil], hrest.symm⟩
  rw [← List.append_assoc] at hbefore
  exact ⟨added, rest, hbehind, hrest, hbefore, hplaces, htaken, hbegun⟩

end Link

/-! ## What every socket took -/

namespace Trace

/-- Which commands' frames every socket took, in whole or in part. -/
structure Transmits (trace : Trace) (carried : Line → List Ticket) : Prop where
  order : ∀ line, (carried line).Sublist trace.tickets
  taken : ∀ line, trace.taken line <+: frames (carried line)
  /-- Octets of each of them were taken. -/
  begun : ∀ line front ticket back, carried line = front ++ ticket :: back →
    (frames front).length < (trace.taken line).length
  /-- All of their frames but the last one were wholly taken. -/
  sent : ∀ line, ∃ part : List Nat, part.length ≤ 1 ∧
    (carried line).map (·.slot.seq) = trace.sent line ++ part
  apart : ∀ line other ticket, ticket ∈ carried line → ticket ∈ carried other → line = other
  /-- When a command ended that a socket took, octets of it had been taken before. -/
  finished : ∀ (before : Trace) incident after seq, trace = before ++ incident :: after →
    incident.Finishes seq → ∀ line front ticket back, carried line = front ++ ticket :: back →
      ticket.slot.seq = seq → (frames front).length < (before.taken line).length

variable {trace more : Trace} {carried : Line → List Ticket}

/-- At first no socket took anything. -/
theorem transmits_nil : Transmits [] fun _ => [] where
  order _ := List.nil_sublist _
  taken _ := List.nil_prefix
  begun _ _ _ _ hsplit := absurd hsplit.symm (List.append_ne_nil_of_right_ne_nil _ (by simp))
  sent _ := ⟨[], Nat.zero_le 1, rfl⟩
  apart _ _ _ hmem := nomatch hmem
  finished before _ _ _ hsplit :=
    absurd hsplit.symm (List.append_ne_nil_of_right_ne_nil before (List.cons_ne_nil _ _))

/-- A socket that took nothing took no command. -/
theorem Transmits.eq_nil (htransmits : trace.Transmits carried) {line : Line}
    (hnothing : trace.taken line = []) : carried line = [] := by
  cases hcarried : carried line with
  | nil => rfl
  | cons ticket others =>
      have hbegun := htransmits.begun line [] ticket others hcarried
      rw [hnothing] at hbegun
      exact absurd hbegun (Nat.lt_irrefl 0)

/-- While no socket takes octets the commands that were taken stay the same. -/
theorem Transmits.aside (htransmits : trace.Transmits carried)
    (hquiet : ∀ line, more.taken line = [] ∧ more.sent line = []) :
    (trace ++ more).Transmits carried where
  order line := by
    rw [tickets_append]
    exact (htransmits.order line).trans (List.sublist_append_left _ _)
  taken line := by
    rw [taken_append, (hquiet line).1, List.append_nil]
    exact htransmits.taken line
  begun line := by
    rw [taken_append, (hquiet line).1, List.append_nil]
    exact htransmits.begun line
  sent line := by
    rw [sent_append, (hquiet line).2, List.append_nil]
    exact htransmits.sent line
  apart := htransmits.apart
  finished before incident after seq hsplit hfinishes line front ticket back hcarried hseq := by
    rcases split_append hsplit with ⟨rest, htrace⟩ | ⟨earlier, rfl, -⟩
    · exact htransmits.finished before incident rest seq htrace hfinishes line front ticket back
        hcarried hseq
    · have hbegun := htransmits.begun line front ticket back hcarried
      rw [taken_append, List.length_append]
      omega

/-- A command that a socket took was taken by it before, behind the same commands, or this is the
socket that takes more, and took it just now. -/
theorem split_update_append {line other : Line} {added front back : List Ticket} {ticket : Ticket}
    (hsplit : Function.update carried line (carried line ++ added) other
      = front ++ ticket :: back) :
    (∃ others, carried other = front ++ ticket :: others) ∨ other = line ∧ ticket ∈ added := by
  by_cases hne : other = line
  · rw [hne, Function.update_self] at hsplit
    rw [hne]
    rcases split_append hsplit with hold | ⟨earlier, -, hadded⟩
    · exact .inl hold
    · exact .inr ⟨rfl, List.mem_iff_append.mpr ⟨_, _, hadded⟩⟩
  · rw [Function.update_of_ne hne] at hsplit
    exact .inl ⟨back, hsplit⟩

/-- What any socket took is what it took before, or what one of them took just now. -/
theorem mem_update_append {line other : Line} {added : List Ticket} {ticket : Ticket}
    (hmem : ticket ∈ Function.update carried line (carried line ++ added) other) :
    ticket ∈ carried other ∨ other = line ∧ ticket ∈ added := by
  obtain ⟨front, back, hsplit⟩ := List.append_of_mem hmem
  refine (split_update_append hsplit).imp_left ?_
  rintro ⟨others, hold⟩
  exact List.mem_iff_append.mpr ⟨front, others, hold⟩

/-- A socket takes octets of commands that no socket took before, and that had not ended. -/
theorem Transmits.took {line : Line} {added : List Ticket} {part : List Nat}
    (htransmits : trace.Transmits carried) (hothers : ∀ other, other ≠ line → more.Silent other)
    (hnone : ∀ incident ∈ more, ∀ seq, ¬ incident.Finishes seq)
    (horder : (carried line ++ added).Sublist trace.tickets)
    (htaken : (trace ++ more).taken line <+: frames (carried line ++ added))
    (hbegun : ∀ front ticket back, carried line ++ added = front ++ ticket :: back →
      (frames front).length < ((trace ++ more).taken line).length)
    (hpart : part.length ≤ 1)
    (hsent : (carried line ++ added).map (·.slot.seq) = (trace ++ more).sent line ++ part)
    (hnew : ∀ ticket ∈ added, ∀ other, ticket ∉ carried other)
    (hopen : ∀ ticket ∈ added, ∀ incident ∈ trace, ¬ incident.Finishes ticket.slot.seq) :
    (trace ++ more).Transmits (Function.update carried line (carried line ++ added)) := by
  have hstill {other : Line} (hne : other ≠ line) :
      (trace ++ more).taken other = trace.taken other ∧
        (trace ++ more).sent other = trace.sent other := by
    rw [taken_append, sent_append, taken_of_silent (hothers other hne),
      sent_of_silent (hothers other hne), List.append_nil, List.append_nil]
    exact ⟨rfl, rfl⟩
  have hwider : trace.tickets.Sublist (trace ++ more).tickets := by
    rw [tickets_append]
    exact List.sublist_append_left _ _
  -- what is said of each socket is said of this one anew, and of the others as before
  have heach (holds : Line → List Ticket → Prop) (hline : holds line (carried line ++ added))
      (hrest : ∀ other, other ≠ line → holds other (carried other)) (other : Line) :
      holds other (Function.update carried line (carried line ++ added) other) :=
    (Function.forall_update_iff carried holds).mpr ⟨hline, hrest⟩ other
  refine ⟨?_, ?_, ?_, ?_, ?_, ?_⟩
  · exact heach (fun _ tickets => tickets.Sublist (trace ++ more).tickets) (horder.trans hwider)
      fun other _ => (htransmits.order other).trans hwider
  · refine heach (fun other tickets => (trace ++ more).taken other <+: frames tickets) htaken
      fun other hne => ?_
    rw [(hstill hne).1]
    exact htransmits.taken other
  · refine heach (fun other tickets => ∀ front ticket back, tickets = front ++ ticket :: back →
      (frames front).length < ((trace ++ more).taken other).length) hbegun fun other hne => ?_
    rw [(hstill hne).1]
    exact htransmits.begun other
  · refine heach (fun other tickets => ∃ part : List Nat, part.length ≤ 1 ∧
      tickets.map (·.slot.seq) = (trace ++ more).sent other ++ part) ⟨part, hpart, hsent⟩
      fun other hne => ?_
    rw [(hstill hne).2]
    exact htransmits.sent other
  · -- a command that was added is nowhere else
    intro first second ticket hfirst hsecond
    rcases mem_update_append hfirst with hfirst | ⟨hline, hfirst⟩
    · rcases mem_update_append hsecond with hsecond | ⟨-, hsecond⟩
      · exact htransmits.apart first second ticket hfirst hsecond
      · exact absurd hfirst (hnew ticket hsecond first)
    · rcases mem_update_append hsecond with hsecond | ⟨hline', -⟩
      · exact absurd hsecond (hnew ticket hfirst second)
      · exact hline.trans hline'.symm
  · intro before incident after seq hsplit hfinishes other front ticket back hcarried hseq
    rcases split_append hsplit with ⟨rest, htrace⟩ | ⟨earlier, -, hmore⟩
    · rcases split_update_append hcarried with ⟨others, hold⟩ | ⟨-, hadded⟩
      · exact htransmits.finished before incident rest seq htrace hfinishes other front ticket others
          hold hseq
      · -- the command was added just now, and has not ended
        refine absurd hfinishes (hseq ▸ hopen ticket hadded incident ?_)
        rw [htrace]
        exact List.mem_append_right _ List.mem_cons_self
    · refine absurd hfinishes (hnone incident ?_ seq)
      rw [hmore]
      exact List.mem_append_right _ List.mem_cons_self

end Trace

/-! ## Fresh slots -/

namespace Link

/-- Someone waits for a command of which nothing is written. -/
theorem seq_mem_waiting {link : Link} {slot : Slot}
    (hlive : ∀ slot ∈ link.fresh, slot.isLive = true) (hslot : slot ∈ link.fresh) :
    slot.seq ∈ link.waiting.map (·.seq) := by
  have hmem : slot.original ∈ live link.unsent :=
    List.mem_map.mpr
      ⟨slot, List.mem_filter.mpr ⟨link.fresh_suffix.subset hslot, hlive slot hslot⟩, rfl⟩
  exact List.mem_map.mpr ⟨slot.original, List.mem_append_left _ hmem, rfl⟩

end Link

namespace Client

variable {ω : Type} [Network ω] {timeouts : Timeouts} {buffering : Bool} {net : ω}
  {trace : Trace} {client : Client ω}

/-- A command of which nothing is written has not ended. -/
theorem Reaches.unfinished (hreach : (blank timeouts buffering net).Reaches trace client)
    {link : Link} (hlink : link ∈ client.pool.links) {slot : Slot} (hslot : slot ∈ link.fresh) :
    ∀ incident ∈ trace, ¬ incident.Finishes slot.seq := by
  have hwaiting := Link.seq_mem_waiting (hreach.links (Link.fresh_invariant ω) link hlink) hslot
  have hmem : slot.seq ∈ client.waiting.map (·.seq) := by
    rw [waiting, List.map_flatMap]
    exact List.mem_flatMap.mpr ⟨link, hlink, hwaiting⟩
  have hapart := (List.nodup_append'.mp hreach.nodup_places).2.2 hmem
  intro incident hincident hfinishes
  apply hapart
  rw [List.mem_append]
  cases incident with
  | ended finished =>
      exact .inl (List.mem_map.mpr
        ⟨finished, Trace.mem_endings.mpr hincident, hfinishes⟩)
  | dropped given =>
      exact .inr (List.mem_map.mpr
        ⟨given, Trace.mem_drops.mpr hincident, hfinishes⟩)
  | _ => exact hfinishes.elim

/-- A command of which nothing is written is on one link only. -/
theorem Reaches.fresh_apart (hreach : (blank timeouts buffering net).Reaches trace client)
    {link other : Link} (hlink : link ∈ client.pool.links) (hother : other ∈ client.pool.links)
    (hne : link ≠ other) {slot second : Slot} (hslot : slot ∈ link.fresh)
    (hsecond : second ∈ other.fresh) : slot.seq ≠ second.seq := by
  have hlive := hreach.links (Link.fresh_invariant ω)
  have hnodup := (List.nodup_append'.mp hreach.nodup_places).1
  rw [waiting, List.map_flatMap, List.nodup_flatMap] at hnodup
  have hsymm : Std.Symm (Function.onFun List.Disjoint fun link : Link =>
      link.waiting.map (·.seq)) := ⟨fun _ _ hdisjoint _ hfirst hlast =>
        hdisjoint hlast hfirst⟩
  intro hseq
  exact hnodup.2.forall hlink hother hne (Link.seq_mem_waiting (hlive link hlink) hslot)
    (hseq ▸ Link.seq_mem_waiting (hlive other hother) hsecond)

end Client

/-! ## The invariant -/

/-- What the socket of a link took ends with the slot that is started, and no socket took
anything of its fresh slots. -/
structure Link.Begins (trace : Trace) (carried : Line → List Ticket) (link : Link) : Prop where
  started : link.phase.socket? ≠ none → (carried link.line).map (·.slot.seq)
    = trace.sent link.line ++ link.started.map (·.seq)
  fresh : ∀ slot ∈ link.fresh, ∀ line, ∀ ticket ∈ carried line, ticket.slot.seq ≠ slot.seq

namespace Link

variable {trace more : Trace} {carried : Line → List Ticket} {link : Link}

/-- A link to a new server has begun nothing. -/
theorem begins_make (server : Server) (token : Token) : (make server token).Begins trace carried where
  started hopen := absurd rfl hopen
  fresh _ hslot := nomatch hslot

/-- While no socket takes octets every other link stays as it is. -/
theorem Begins.aside (hbegins : link.Begins trace carried) (hsent : more.sent link.line = []) :
    link.Begins (trace ++ more) carried where
  started hopen := by
    rw [Trace.sent_append, hsent, List.append_nil]
    exact hbegins.started hopen
  fresh := hbegins.fresh

/-- A command that is accepted is begun on no socket. -/
theorem Begins.enqueue {ticket : Ticket} (hbegins : link.Begins trace carried)
    (hstarted : link.headWritten ≠ 0 → link.unsent ≠ [])
    (hnew : ∀ line, ∀ other ∈ carried line, other.slot.seq ≠ ticket.slot.seq) :
    (link.enqueue ticket.request ticket.slot).Begins (trace ++ [.issued ticket]) carried where
  started hopen := by
    have hsame : (link.enqueue ticket.request ticket.slot).started = link.started := by
      show (if link.headWritten = 0 then [] else (link.unsent ++ [ticket.slot]).take 1) = _
      unfold Link.started
      split
      · rfl
      · rename_i hwritten
        cases hunsent : link.unsent with
        | nil => exact absurd hunsent (hstarted hwritten)
        | cons first slots => rfl
    rw [Trace.sent_append, hsame]
    exact (hbegins.started hopen).trans (congrArg (· ++ _) (List.append_nil _).symm)
  fresh slot hslot line other hother := by
    rcases List.mem_append.mp ((fresh_enqueue link _ _).subset hslot) with hold | hlast
    · exact hbegins.fresh slot hold line other hother
    · rw [List.mem_singleton.mp hlast]
      exact hnew line other hother

end Link

namespace Client

variable {ω : Type}

/-- Which commands every socket took, and that the links go on where they stopped. -/
structure Begins (trace : Trace) (carried : Line → List Ticket) (client : Client ω) : Prop where
  transmits : trace.Transmits carried
  links : ∀ link ∈ client.pool.links, link.Begins trace carried

/-- What sockets took until now they took before, or it was fresh on a link of the client. -/
def Adds (client : Client ω) (carried now : Line → List Ticket) : Prop :=
  ∀ line, ∀ ticket ∈ now line, ticket ∈ carried line ∨
    ∃ link ∈ client.pool.links, ∃ slot ∈ link.fresh, slot.seq = ticket.slot.seq

variable [Network ω] {timeouts : Timeouts} {buffering : Bool} {start : ω}
  {trace : Trace} {client : Client ω} {carried : Line → List Ticket}

/-- A step of a link in which no octet is written begins no command. -/
theorem Begins.unwritten {now : Nat} {front back : List Link} {before after : Link}
    {incidents : Trace} {last : ω} {ledger : Ledger}
    (hordered : client.Ordered trace) (hbegins : client.Begins trace carried)
    (hlinks : client.pool.links = front ++ before :: back)
    (hstep : before.Step now client.timeouts client.net incidents after last)
    (hquiet : ∀ line, incidents.taken line = [] ∧ incidents.sent line = [])
    (hsame : after.phase.socket? = none ∨
      (before.phase.socket? ≠ none ∧ after.line = before.line ∧
        after.started.map (·.seq) = before.started.map (·.seq)) ∨
      (after.line = (before.attempting now).line ∧ after.started = [])) :
    Begins (trace ++ incidents) carried
      { client with
        pool := { client.pool with links := front ++ after :: back }
        net := last
        ledger } := by
  have hmem : before ∈ client.pool.links := List.mem_iff_append.mpr ⟨_, _, hlinks⟩
  refine ⟨hbegins.transmits.aside hquiet, fun link hlink => ?_⟩
  rcases hordered.others hlinks hlink with rfl | ⟨hold, -⟩
  · refine ⟨fun hopen => ?_, fun slot hslot =>
      (hbegins.links before hmem).fresh slot (hstep.fresh.subset hslot)⟩
    rw [Trace.sent_append, (hquiet link.line).2, List.append_nil]
    rcases hsame with hidle | ⟨hbefore, hline, hstarted⟩ | ⟨hline, hstarted⟩
    · exact absurd hidle hopen
    · rw [hline, hstarted]
      exact (hbegins.links before hmem).started hbefore
    · -- nothing was taken on the new line
      have hsilent : trace.Silent link.line := by
        rw [hline]
        exact hordered.later before hmem _ (Nat.lt_succ_self _)
      rw [hbegins.transmits.eq_nil (Trace.taken_of_silent hsilent), Trace.sent_of_silent hsilent,
        hstarted]
      rfl
  · exact (hbegins.links link hold).aside (hquiet link.line).2

/-- **A socket takes octets of commands that no socket took before.** -/
theorem Begins.wrote {now : Nat} {front back : List Link} {before : Link} {count : Nat}
    {ledger : Ledger} {last : ω} {incidents : Trace}
    (hreach : (blank timeouts buffering start).Reaches trace client)
    (hbegins : client.Begins trace carried)
    (hlinks : client.pool.links = front ++ before :: back) (hopen : before.phase.socket? ≠ none)
    (hincidents : incidents = .took before.line (before.outbound.take count)
      :: (before.finishedBy count).map fun slot => .sent before.line slot.seq)
    (hstep : before.Step now client.timeouts client.net incidents (before.wrote count) last) :
    ∃ now, client.Adds carried now ∧ Begins (trace ++ incidents) now
      { client with
        pool := { client.pool with links := front ++ before.wrote count :: back }
        net := last
        ledger } := by
  have hordered := hreach.ordered
  have hmem : before ∈ client.pool.links := List.mem_iff_append.mpr ⟨_, _, hlinks⟩
  have hbefore := hbegins.links before hmem
  obtain ⟨written, queued, hcarries⟩ := hreach.links (Link.carries_invariant ω) before hmem
  obtain ⟨added, rest, hfresh, hrest, horder, hseqs, htaken, hbegun⟩ :=
    @Link.Carries.begins trace before written queued _ count hordered.valid hordered.nodup
      hcarries hopen (hbegins.transmits.order before.line) (hbefore.started hopen) _
      (congrArg (trace ++ ·) hincidents)
  -- the added commands were fresh slots of this link
  have hslot {ticket : Ticket} (hticket : ticket ∈ added ++ rest) :
      ∃ slot ∈ before.fresh, slot.seq = ticket.slot.seq := by
    have hseq : ticket.slot.seq ∈ (added ++ rest).map (·.slot.seq) :=
      List.mem_map.mpr ⟨ticket, hticket, rfl⟩
    rw [hfresh.seqs] at hseq
    exact List.mem_map.mp hseq
  have hnew {ticket : Ticket} (hticket : ticket ∈ added) (other : Line) :
      ticket ∉ carried other := by
    obtain ⟨slot, hmember, hseq⟩ := hslot (List.mem_append_left _ hticket)
    exact fun hold => hbefore.fresh slot hmember other ticket hold hseq.symm
  have hsilent {other : Line} (hne : other ≠ before.line) : incidents.Silent other :=
    Trace.silent_of_about hstep.about hne
  have htransmits := @Trace.Transmits.took trace incidents carried before.line added _
    hbegins.transmits (fun other => hsilent) ?_ ((List.sublist_append_left _ _).trans horder) htaken
    hbegun (by rw [List.length_map]; exact (before.wrote count).length_started) hseqs
    (fun ticket hticket => hnew hticket) ?_
  · refine ⟨_, fun line ticket hticket => ?_, htransmits, fun link hlink => ?_⟩
    · rcases Trace.mem_update_append hticket with hold | ⟨-, hadded⟩
      · exact .inl hold
      · exact .inr ⟨before, hmem, hslot (List.mem_append_left _ hadded)⟩
    rcases hordered.others hlinks hlink with rfl | ⟨hold, hne⟩
    · refine ⟨fun _ => ?_, fun slot hslot line ticket hticket => ?_⟩
      · exact (congrArg _ (Function.update_self _ _ _)).trans hseqs
      · rcases Trace.mem_update_append hticket with hcarried | ⟨-, hadded⟩
        · exact hbefore.fresh slot ((before.fresh_wrote count).subset hslot) line ticket hcarried
        · have hplaces := hordered.nodup.sublist (horder.map _)
          rw [List.append_assoc, List.map_append, List.nodup_append', List.map_append,
            hrest.seqs, List.nodup_append'] at hplaces
          exact fun hseq => hplaces.2.1.2.2 (List.mem_map.mpr ⟨ticket, hadded, rfl⟩)
            (List.mem_map.mpr ⟨slot, hslot, hseq.symm⟩)
    · have hother := hbegins.links link hold
      have hline := Link.line_ne hne
      refine ⟨fun hopen => ?_, fun slot hslot' line ticket hticket => ?_⟩
      · rw [Function.update_of_ne hline, Trace.sent_append, Trace.sent_of_silent (hsilent hline),
          List.append_nil]
        exact hother.started hopen
      · rcases Trace.mem_update_append hticket with hcarried | ⟨-, hadded⟩
        · exact hother.fresh slot hslot' line ticket hcarried
        · obtain ⟨first, hmember, hseq⟩ := hslot (List.mem_append_left _ hadded)
          rw [← hseq]
          exact hreach.fresh_apart hmem hold (fun hsame => hne (congrArg Link.token hsame.symm))
            hmember hslot'
  · rw [hincidents]
    intro incident hincident seq hfinishes
    rcases List.mem_cons.mp hincident with rfl | hsent
    · exact hfinishes
    · obtain ⟨slot, -, rfl⟩ := List.mem_map.mp hsent
      exact hfinishes
  · intro ticket hticket
    obtain ⟨slot, hmember, hseq⟩ := hslot (List.mem_append_left _ hticket)
    rw [← hseq]
    exact hreach.unfinished hmem hmember

/-- A step of a client keeps what the sockets took apart. -/
theorem Begins.step {incidents : Trace} {after : Client ω}
    (hreach : (blank timeouts buffering start).Reaches trace client)
    (hbegins : client.Begins trace carried) (hstep : client.Step incidents after) :
    ∃ now, client.Adds carried now ∧ after.Begins (trace ++ incidents) now := by
  have hordered := hreach.ordered
  have hquiet : ∀ line, Trace.taken [] line = [] ∧ Trace.sent [] line = [] :=
    fun _ => ⟨rfl, rfl⟩
  have hnone : client.Adds carried carried := fun _ _ hold => .inl hold
  -- a step that leaves the links as they are
  have hstays {other : Client ω} (hsame : other.pool.links = client.pool.links) :
      ∃ now, client.Adds carried now ∧ other.Begins (trace ++ []) now :=
    ⟨carried, hnone, hbegins.transmits.aside hquiet,
      fun link hlink => (hbegins.links link (hsame ▸ hlink)).aside rfl⟩
  cases hstep with
  | move hmove =>
      cases hmove with
      | @link now front back before last _ net hlinks hlink =>
          have hmem : before ∈ client.pool.links := List.mem_iff_append.mpr ⟨_, _, hlinks⟩
          have hsettled := hreach.links (Link.settled_invariant ω) before hmem
          rcases hlink.transmission hsettled with
            ⟨count, hopen, rfl, hincidents⟩ | ⟨hnothing, hsame⟩
          · exact hbegins.wrote hreach hlinks hopen hincidents hlink
          · exact ⟨carried, hnone, hbegins.unwritten hordered hlinks hlink hnothing hsame⟩
      | waited => exact hstays rfl
      | noted => exact hstays rfl
  | @queued server seq command delivery _ hqueue =>
      obtain ⟨front, old, back, hlinks, hvalid, -, -, rfl⟩ := queue_cases hqueue
      have hmem : old ∈ client.pool.links := List.mem_iff_append.mpr ⟨_, _, hlinks⟩
      refine ⟨carried, hnone, hbegins.transmits.aside fun _ => ⟨rfl, rfl⟩, fun link hlink => ?_⟩
      rcases hordered.others hlinks hlink with rfl | ⟨hold, -⟩
      · obtain ⟨written, queued, hcarries⟩ := hreach.links (Link.carries_invariant ω) old hmem
        exact @Link.Begins.enqueue _ _ _ (client.nextTicket command) (hbegins.links old hmem)
          hcarries.unsent_ne_nil fun line other hother =>
            Nat.ne_of_lt (hordered.seq_lt ((hbegins.transmits.order line).subset hother))
      · exact (hbegins.links link hold).aside rfl
  | collected => exact hstays rfl
  | emptied => exact hstays rfl
  | placed hsome hdistinct hvacant =>
      refine ⟨carried, hnone, hbegins.transmits.aside hquiet, fun link hlink => ?_⟩
      rcases Pool.mem_place hlink with ⟨old, hold, -, heq⟩ | ⟨token, -, -, heq⟩
      · rw [heq]
        exact ⟨((hbegins.links old hold).aside rfl).started, (hbegins.links old hold).fresh⟩
      · rw [heq]
        exact Link.begins_make link.server token
  | adjusted => exact hstays rfl

/-- **Every socket took commands of its own**, in every state that is reached. -/
theorem Reaches.begins (hreach : (blank timeouts buffering start).Reaches trace client) :
    ∃ carried, client.Begins trace carried := by
  induction hreach with
  | start => exact ⟨fun _ => [], Trace.transmits_nil, fun _ hlink => nomatch hlink⟩
  | step hreach hstep ih =>
      obtain ⟨carried, hbegins⟩ := ih
      obtain ⟨now, -, hnow⟩ := hbegins.step hreach hstep
      exact ⟨now, hnow⟩
  | elapsed net _ ih =>
      obtain ⟨carried, hbegins⟩ := ih
      exact ⟨carried, hbegins.transmits, hbegins.links⟩

end Client

/-! ## Sockets are opened once -/

namespace Link

variable {ω : Type} [Network ω] {now : Nat} {timeouts : Timeouts} {link after : Link}
  {net last : ω} {incidents : Trace}

/-- Giving replies to commands opens nothing. -/
theorem Answers.unopened {last : Link} {responses : List Response} {line : Line}
    (hanswers : Answers link responses incidents last) : .opened line ∉ incidents := by
  induction hanswers with
  | nil => exact List.not_mem_nil
  | cons _ _ _ ih => simpa using ih

/-- Nothing that comes before a loss opens a socket. -/
theorem Loses.opens_nothing {losing : Link} {failure : Failure} {line : Line}
    (hloses : Loses now timeouts link net incidents losing failure last) :
    .opened line ∉ incidents := by
  cases hloses with
  | @refusing _ _ ending _ _ _ _ _ _ _ _ _ _ hanswers _ =>
      have hreport : .opened line ∉ ending.report link.line := by
        cases ending <;> simp [ReadEnd.report]
      simpa using ⟨hreport, hanswers.unopened⟩
  | _ => simp

/-- A step opens a new socket of its link, or none; then only a socket that was open is
open. -/
theorem Step.openings (hstep : link.Step now timeouts net incidents after last) :
    (incidents = [.opened (link.attempting now).line] ∧
        after.line = (link.attempting now).line) ∨
      (∀ line, .opened line ∉ incidents) ∧
        (after.phase.socket? ≠ none → link.phase.socket? ≠ none ∧ after.line = link.line) := by
  cases hstep with
  | opened => exact .inl ⟨rfl, rfl⟩
  | quiet => exact .inr ⟨fun _ => List.not_mem_nil, fun hopen => ⟨hopen, rfl⟩⟩
  | established hphase =>
      exact .inr ⟨by simp, fun _ => ⟨socket_ne_none_of_connecting hphase, rfl⟩⟩
  | took => exact .inr ⟨by simp, fun hopen => ⟨hopen, rfl⟩⟩
  | received hphase hread hfault hanswers =>
      refine .inr ⟨fun line hmem => ?_, fun _ => ⟨socket_ne_none hphase, ?_⟩⟩
      · exact hanswers.unopened (by simpa using hmem)
      · rw [hanswers.eq]
        rfl
  | @lost _ losing failure _ hloses =>
      refine .inr ⟨fun line hmem => ?_, fun hopen => absurd rfl hopen⟩
      rcases List.mem_append.mp hmem with hmem | hmem
      · exact hloses.opens_nothing hmem
      · simp [loss] at hmem
  | shortCircuited hidle => exact .inr ⟨by simp, fun hopen => absurd hidle hopen⟩
  | expired target =>
      refine .inr ⟨fun line => ?_, fun hopen => ⟨hopen, rfl⟩⟩
      cases target <;> simp [expiry]
  | discarded => exact .inr ⟨by simp, fun hopen => ⟨hopen, rfl⟩⟩
  | examined => exact .inr ⟨by simp, fun hopen => ⟨hopen, rfl⟩⟩
  | retired => exact .inr ⟨by simp [loss], fun hopen => absurd rfl hopen⟩

end Link

namespace Client

variable {ω : Type}

/-- Every socket was opened once, and nothing passed on it before. -/
structure Opens (trace : Trace) (client : Client ω) : Prop where
  known : ∀ line, .opened line ∈ trace → line.token < client.pool.nextToken
  counted : ∀ link ∈ client.pool.links, ∀ attempt, .opened ⟨link.token, attempt⟩ ∈ trace →
    attempt ≤ link.attempts
  current : ∀ link ∈ client.pool.links, link.phase.socket? ≠ none → .opened link.line ∈ trace
  once : ∀ (before : Trace) line after, trace = before ++ .opened line :: after →
    before.Silent line ∧ .opened line ∉ before

/-- Where nothing is opened the sockets are the old ones. -/
theorem Opens.aside {trace more : Trace} {client after : Client ω} (hopens : client.Opens trace)
    (hmore : ∀ line, .opened line ∉ more) (hnext : client.pool.nextToken ≤ after.pool.nextToken)
    (hlinks : ∀ link ∈ after.pool.links,
      (∃ old ∈ client.pool.links, link.token = old.token ∧ old.attempts ≤ link.attempts ∧
        (link.phase.socket? ≠ none → old.phase.socket? ≠ none ∧ link.line = old.line)) ∨
      client.pool.nextToken ≤ link.token ∧ link.phase.socket? = none) :
    after.Opens (trace ++ more) where
  known line hmem := by
    rcases List.mem_append.mp hmem with hmem | hmem
    · exact Nat.lt_of_lt_of_le (hopens.known line hmem) hnext
    · exact absurd hmem (hmore line)
  counted link hlink attempt hmem := by
    rcases List.mem_append.mp hmem with hmem | hmem
    · rcases hlinks link hlink with ⟨old, hold, htoken, hattempts, -⟩ | ⟨hfresh, -⟩
      · rw [htoken] at hmem
        exact Nat.le_trans (hopens.counted old hold attempt hmem) hattempts
      · exact absurd (hopens.known _ hmem) (Nat.not_lt_of_le hfresh)
    · exact absurd hmem (hmore _)
  current link hlink hopen := by
    rcases hlinks link hlink with ⟨old, hold, -, -, hsame⟩ | ⟨-, hidle⟩
    · obtain ⟨hbefore, hline⟩ := hsame hopen
      rw [hline]
      exact List.mem_append_left _ (hopens.current old hold hbefore)
    · exact absurd hidle hopen
  once before line after hsplit := by
    rcases split_append hsplit with ⟨rest, htrace⟩ | ⟨earlier, -, hnow⟩
    · exact hopens.once before line rest htrace
    · refine absurd ?_ (hmore line)
      rw [hnow]
      exact List.mem_append_right _ List.mem_cons_self

variable [Network ω] {timeouts : Timeouts} {buffering : Bool} {start : ω} {trace : Trace}
  {client : Client ω}

/-- A step of a link opens a socket that was not opened before. -/
theorem Opens.link {now : Nat} {front back : List Link} {before after : Link}
    {incidents : Trace} {last : ω} {ledger : Ledger} (hordered : client.Ordered trace)
    (hopens : client.Opens trace) (hlinks : client.pool.links = front ++ before :: back)
    (hstep : before.Step now client.timeouts client.net incidents after last) :
    Opens (trace ++ incidents)
      { client with
        pool := { client.pool with links := front ++ after :: back }
        net := last
        ledger } := by
  obtain ⟨htoken, -, hattempts⟩ := hstep.token
  have hmem : before ∈ client.pool.links := List.mem_iff_append.mpr ⟨_, _, hlinks⟩
  rcases hstep.openings with ⟨rfl, hline⟩ | ⟨hnone, hsame⟩
  · have hattempt : after.attempts = before.attempts + 1 := congrArg Line.attempt hline
    -- attempts are counted, so that the new line is none of those before
    have hnew {line : Line} (hother : Incident.opened line ∈ trace) : line ≠ after.line := by
      rintro rfl
      have hle := hopens.counted before hmem after.attempts (htoken ▸ hother)
      omega
    refine ⟨fun line hline' => ?_, fun link hlink attempt hline' => ?_, fun link hlink hopen => ?_,
      fun earlier line later hsplit => ?_⟩
    · rcases List.mem_append.mp hline' with hold | hlast
      · exact hopens.known line hold
      · cases List.mem_singleton.mp hlast
        exact hordered.known before hmem
    · rcases hordered.others hlinks hlink with rfl | ⟨hold, hne⟩
      · rcases List.mem_append.mp hline' with hold | hlast
        · rw [htoken] at hold
          exact Nat.le_trans (hopens.counted before hmem attempt hold) hattempts
        · have hsame := Incident.opened.inj (List.mem_singleton.mp hlast)
          exact Nat.le_of_eq ((congrArg Line.attempt hsame).trans hattempt.symm)
      · rcases List.mem_append.mp hline' with hline' | hlast
        · exact hopens.counted link hold attempt hline'
        · exact absurd (congrArg Line.token (Incident.opened.inj (List.mem_singleton.mp hlast))) hne
    · rcases hordered.others hlinks hlink with rfl | ⟨hold, -⟩
      · rw [hline]
        exact List.mem_append_right _ List.mem_cons_self
      · exact List.mem_append_left _ (hopens.current link hold hopen)
    · rcases split_append hsplit with ⟨rest, htrace⟩ | ⟨middle, rfl, hnow⟩
      · exact hopens.once earlier line rest htrace
      · cases middle with
        | nil =>
            obtain ⟨hopened, -⟩ := List.cons.inj hnow
            cases hopened
            rw [List.append_nil]
            refine ⟨?_, fun hold => hnew hold hline.symm⟩
            exact hordered.later before hmem _ (Nat.lt_succ_self _)
        | cons incident middle => simp at hnow
  · refine hopens.aside hnone (Nat.le_refl _) fun link hlink => .inl ?_
    rcases hordered.others hlinks hlink with rfl | ⟨hold, -⟩
    · exact ⟨before, hmem, htoken, hattempts, hsame⟩
    · exact ⟨link, hold, rfl, Nat.le_refl _, fun hopen => ⟨hopen, rfl⟩⟩

end Client

end CachePool
