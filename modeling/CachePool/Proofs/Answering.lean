/-
# Peers that answer

A peer that answers every request in order with the replies that belong to it, however
late.  The replies to a command tell by themselves where they end, so that what such a
peer sends can be cut into the replies to each command in one way only.

* `IsReplyTo` : the replies that belong to a request;
* `Trace.Answering` : all that a line gives are such replies, in order;
* `groups_eq` : replies in order are those of the commands in order.
-/
import Mathlib.Data.List.Induction
import CachePool.Proofs.Conversation

namespace CachePool

/-! ## Replies that belong to a request -/

/-- The replies that belong to a request: one, or for statistics the entries and then
either the terminator or an error. -/
structure IsReplyTo (request : Request) (responses : List Response) : Prop where
  own : ∀ response ∈ responses, response.tag = request.tag ∧ response.opcode = request.opcode
  shape : ∃ entries last, responses = entries ++ [last] ∧
    (∀ entry ∈ entries,
      request.opcode = .stat ∧ entry.status.isSuccess = true ∧ entry.endsStats = false) ∧
    (request.opcode = .stat → last.status.isSuccess = true → last.endsStats = true)

/-- What a line gave are replies to the whole requests it took, in order: a part of them
from the first one on. -/
structure Trace.AnswersSoFar (trace : Trace) (line : Line) (groups : List (List Response)) :
    Prop where
  own : List.Forall₂ IsReplyTo (trace.requests line) (groups.take (trace.requests line).length)
  whole : (Response.kind.split (trace.given line)).fault = none
  begun : trace.replies line <+: (groups.take (trace.requests line).length).flatten

/-- The peer of a line answers the whole requests it received, in order and however late,
with the replies that belong to them, at any time. -/
def Trace.Answering (trace : Trace) (line : Line) (groups : List (List Response)) : Prop :=
  ∀ before : Trace, before <+: trace → before.AnswersSoFar line groups

namespace Trace

variable {first second : Trace} {line : Line} {groups : List (List Response)}

/-- What a peer sent before are answers, too. -/
theorem Answering.left (hanswering : Trace.Answering (first ++ second) line groups) :
    first.Answering line groups :=
  fun before hbefore => hanswering before (hbefore.trans (List.prefix_append _ _))

/-- A peer that has answered so far and answers now. -/
theorem Answering.snoc {incident : Incident} (hanswering : first.Answering line groups)
    (hnow : Trace.AnswersSoFar (first ++ [incident]) line groups) :
    Trace.Answering (first ++ [incident]) line groups := by
  intro before hbefore
  rcases List.prefix_concat_iff.mp hbefore with rfl | hearlier
  · exact hnow
  · exact hanswering before hearlier

/-- Where nothing is taken or given there is nothing to answer. -/
theorem Answering.aside (htaken : second.taken line = []) (hgiven : second.given line = [])
    (hanswering : first.Answering line groups) :
    Trace.Answering (first ++ second) line groups := by
  induction second using List.reverseRecOn with
  | nil =>
      rw [List.append_nil]
      exact hanswering
  | append_singleton second incident ih =>
      rw [taken_append, List.append_eq_nil_iff] at htaken
      rw [given_append, List.append_eq_nil_iff] at hgiven
      have hbefore := ih htaken.1 hgiven.1
      rw [← List.append_assoc]
      apply hbefore.snoc
      obtain ⟨hown, hwhole, hbegun⟩ := hbefore _ List.prefix_rfl
      have hrequests : Trace.requests (first ++ second ++ [incident]) line
          = Trace.requests (first ++ second) line := by
        rw [requests, taken_append, htaken.2, List.append_nil, requests]
      constructor
      · rw [hrequests]
        exact hown
      · rw [given_append, hgiven.2, List.append_nil]
        exact hwhole
      · rw [replies, given_append, hgiven.2, List.append_nil, hrequests]
        exact hbegun

end Trace

namespace Slot

/-- An entry of statistics is followed by more replies. -/
theorem accept_of_entry {slot : Slot} {entry : Response} (hstats : slot.expect = .stats)
    (hsuccess : entry.status.isSuccess = true) (hentry : entry.endsStats = false) :
    ∃ next, slot.accept entry = .more next ∧ next.expect = .stats := by
  unfold accept
  rw [hsuccess, hstats, hentry]
  exact ⟨_, rfl, rfl⟩

/-- Every reply but an entry of statistics is the last one. -/
theorem accept_of_last {slot : Slot} {last : Response}
    (hlast : slot.expect = .stats → last.status.isSuccess = true → last.endsStats = true) :
    ∃ result, slot.accept last = .final result := by
  cases haccept : slot.accept last with
  | final result => exact ⟨result, rfl⟩
  | more next =>
      obtain ⟨hstats, hsuccess, hentry, -⟩ := accept_more haccept
      rw [hlast hstats hsuccess] at hentry
      cases hentry

/-- Replies that end a command are not followed by more of them. -/
theorem eq_nil_of_outcome? {slot : Slot} {responses more : List Response}
    (houtcome : (slot.outcome? responses).isSome)
    (hmore : (slot.outcome? (responses ++ more)).isSome) : more = [] := by
  induction responses generalizing slot with
  | nil => cases houtcome
  | cons response responses ih =>
      rw [outcome?] at houtcome
      rw [List.cons_append, outcome?] at hmore
      cases haccept : slot.accept response with
      | more next =>
          rw [haccept] at houtcome hmore
          exact ih houtcome hmore
      | final result =>
          rw [haccept] at hmore
          dsimp only at hmore
          split at hmore
          · rename_i hnone
            exact (List.append_eq_nil_iff.mp hnone).2
          · cases hmore

/-- Of two ways to end a command neither goes on where the other ends. -/
theorem eq_of_outcome? {slot : Slot} {first second stream : List Response}
    (hfirst : (slot.outcome? first).isSome) (hsecond : (slot.outcome? second).isSome)
    (hstart : first <+: stream) (hstart' : second <+: stream) : first = second := by
  rcases List.prefix_or_prefix_of_prefix hstart hstart' with ⟨more, rfl⟩ | ⟨more, rfl⟩
  · rw [eq_nil_of_outcome? hfirst hsecond, List.append_nil]
  · rw [eq_nil_of_outcome? hsecond hfirst, List.append_nil]

/-- A command that has got all its replies waits no more. -/
theorem progress?_of_outcome? {slot : Slot} {responses : List Response}
    (houtcome : (slot.outcome? responses).isSome) (more : List Response) :
    slot.progress? (responses ++ more) = none := by
  induction responses generalizing slot with
  | nil => cases houtcome
  | cons response responses ih =>
      rw [outcome?] at houtcome
      rw [List.cons_append, progress?]
      cases haccept : slot.accept response with
      | more next =>
          rw [haccept] at houtcome
          exact ih houtcome
      | final result => rfl

/-- What follows the replies to a command that waits is one of those that end it. -/
theorem mem_of_progress {slot next : Slot} {responses more group stream : List Response}
    {response : Response} (hprogress : slot.progress? responses = some next)
    (hgroup : (slot.outcome? group).isSome) (hstart : group <+: stream)
    (hresponses : responses ++ response :: more <+: stream) : response ∈ group := by
  have hfirst : responses ++ [response] <+: stream := by
    refine List.IsPrefix.trans ?_ hresponses
    rw [List.prefix_append_right_inj]
    exact ⟨more, rfl⟩
  rcases List.prefix_or_prefix_of_prefix hstart hfirst with hshorter | hlonger
  · rcases List.prefix_concat_iff.mp hshorter with rfl | ⟨rest, rfl⟩
    · exact List.mem_append_right _ List.mem_cons_self
    · rw [progress?_of_outcome? hgroup] at hprogress
      cases hprogress
  · exact hlonger.subset (List.mem_append_right _ List.mem_cons_self)

end Slot

/-- The replies that belong to the request of a command end the command. -/
theorem IsReplyTo.isSome_outcome? {ticket : Ticket} {responses : List Response}
    (hvalid : ticket.Valid) (hreply : IsReplyTo ticket.request responses) :
    (ticket.slot.outcome? responses).isSome := by
  obtain ⟨entries, last, rfl, hentries, hlast⟩ := hreply.shape
  rw [hvalid.opcode] at hentries hlast
  have hstats := hvalid.stats
  generalize ticket.slot.opcode = opcode at hentries hlast hstats
  have hexpect : ∀ slot : Slot, (slot.expect = .stats ↔ opcode = .stat) →
      (slot.outcome? (entries ++ [last])).isSome := by
    clear hstats hreply
    induction entries with
    | nil =>
        intro slot hstats
        obtain ⟨result, haccept⟩ := slot.accept_of_last fun h => hlast (hstats.mp h)
        rw [List.nil_append, Slot.outcome?, haccept]
        rfl
    | cons entry entries ih =>
        intro slot hstats
        obtain ⟨hstat, hsuccess, hentry⟩ := hentries entry List.mem_cons_self
        obtain ⟨next, haccept, hnext⟩ := Slot.accept_of_entry (hstats.mpr hstat) hsuccess hentry
        rw [List.cons_append, Slot.outcome?, haccept]
        exact ih (fun other hmem => hentries other (List.mem_cons_of_mem _ hmem)) next
          (iff_of_true hnext hstat)
  exact hexpect ticket.slot hstats

/-! ## Replies in order -/

/-- Replies that end some commands in order, one behind the other, are those of the
commands, whatever follows. -/
theorem groups_eq {given : Ticket → List Response} {tickets : List Ticket}
    {groups : List (List Response)} {rest back : List Response}
    (hgiven : ∀ ticket ∈ tickets, (ticket.slot.outcome? (given ticket)).isSome)
    (hgroups :
      List.Forall₂ (fun ticket group => (ticket.slot.outcome? group).isSome) tickets groups)
    (hleads : tickets.flatMap given ++ rest <+: groups.flatten ++ back) :
    groups = tickets.map given ∧ rest <+: back := by
  induction hgroups with
  | nil => exact ⟨rfl, hleads⟩
  | @cons ticket group tickets groups hgroup _ ih =>
      rw [List.flatMap_cons, List.flatten_cons, List.append_assoc, List.append_assoc] at hleads
      have hsame : given ticket = group :=
        Slot.eq_of_outcome? (hgiven ticket List.mem_cons_self) hgroup
          ((List.prefix_append _ _).trans hleads) (List.prefix_append _ _)
      rw [hsame, List.prefix_append_right_inj] at hleads
      obtain ⟨hothers, hrest⟩ :=
        ih (fun other hmem => hgiven other (List.mem_cons_of_mem _ hmem)) hleads
      rw [List.map_cons, hsame, hothers]
      exact ⟨rfl, hrest⟩

/-- A list that goes together with two lists, one behind the other, has two such parts. -/
theorem exists_append_of_forall₂ {α β : Type} {relates : α → β → Prop} {front back : List α}
    {both : List β} (hboth : List.Forall₂ relates (front ++ back) both) :
    ∃ first second, both = first ++ second ∧ List.Forall₂ relates front first ∧
      List.Forall₂ relates back second := by
  induction front generalizing both with
  | nil => exact ⟨[], both, rfl, .nil, hboth⟩
  | cons first front ih =>
      obtain ⟨other, others, hrelates, hothers, rfl⟩ := List.forall₂_cons_left_iff.mp hboth
      obtain ⟨left, right, rfl, hleft, hright⟩ := ih hothers
      exact ⟨other :: left, right, rfl, .cons hrelates hleft, hright⟩

end CachePool
