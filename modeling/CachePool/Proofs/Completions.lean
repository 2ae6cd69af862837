/-
# Every buffered command is completed once

The books of a caller: which commands it buffered, which of them are outstanding, and
which flush returned or which reset discarded the others.  The client agrees with the
books between any two calls: the outstanding commands are those that wait on a link and
those whose outcome was not collected yet, each in one place.

* `Books.after` : what a call and its outcome write into the books;
* `Client.Session` : the clients after any calls, with the books;
* `Client.Agrees` : what the client and the books have in common;
* `Client.completions_exact` : every buffered command is completed once, in the order of
  issue.
-/
import CachePool.Proofs.Conservation
import CachePool.Proofs.Script

namespace CachePool

/-! ## Books -/

/-- A buffered command: its place in the order of issue, its opcode and its key. -/
structure Pledge where
  seq : Nat
  opcode : Opcode
  key : Bytes
  deriving DecidableEq

/-- What a flush gave for the commands that were outstanding. -/
structure Settlement where
  pledges : List Pledge
  completions : List Completion

/-- The outcomes are those of the commands, one for each, in the order of issue. -/
def Settlement.Exact (settlement : Settlement) : Prop :=
  settlement.completions.map (fun completion => (completion.opcode, completion.key))
      = settlement.pledges.map (fun pledge => (pledge.opcode, pledge.key)) ∧
    (settlement.pledges.map Pledge.seq).Pairwise (· < ·)

/-- What a caller knows of its buffered commands. -/
structure Books where
  /-- All that were accepted. -/
  accepted : List Pledge
  /-- Those whose outcome was neither returned nor discarded. -/
  outstanding : List Pledge
  /-- What each flush that succeeded gave. -/
  settlements : List Settlement
  /-- For each reset, those it dropped. -/
  discarded : List (List Pledge)

namespace Books

/-- Books without commands. -/
def empty : Books where
  accepted := []
  outstanding := []
  settlements := []
  discarded := []

/-- The books after one more command was accepted. -/
def accept (books : Books) (pledge : Pledge) : Books :=
  { books with
    accepted := books.accepted ++ [pledge]
    outstanding := books.outstanding ++ [pledge] }

/-- The books after a flush that succeeded. -/
def settle (books : Books) (completions : List Completion) : Books :=
  { books with
    outstanding := []
    settlements := books.settlements ++ [{ pledges := books.outstanding, completions }] }

/-- The books after a reset. -/
def discard (books : Books) : Books :=
  { books with outstanding := [], discarded := books.discarded ++ [books.outstanding] }

/-- The books after a call that gave the command it accepts the place `seq`. -/
def after (books : Books) (seq : Nat) : Call → Outcome → Books
  | .issue command _, .buffered =>
    books.accept { seq, opcode := command.request.opcode, key := command.request.key }
  | .flush _, .flushed completions => books.settle completions
  | .resetBuffers, _ => books.discard
  | _, _ => books

/-- The commands that a flush returned. -/
def returned (books : Books) : List Pledge :=
  books.settlements.flatMap Settlement.pledges

/-- The commands that a reset dropped. -/
def dropped (books : Books) : List Pledge :=
  books.discarded.flatten

end Books

/-! ## Buffered commands of a client -/

/-- The pledge of a slot. -/
def Slot.pledge (slot : Slot) : Pledge where
  seq := slot.seq
  opcode := slot.opcode
  key := slot.key

/-- The buffered commands among slots. -/
def pledges (slots : List Slot) : List Pledge :=
  (slots.filter fun slot => slot.delivery = .buffered).map Slot.pledge

@[simp] theorem pledges_append (front back : List Slot) :
    pledges (front ++ back) = pledges front ++ pledges back := by
  rw [pledges, List.filter_append, List.map_append, pledges, pledges]

theorem perm_pledges {slots others : List Slot} (hperm : slots.Perm others) :
    (pledges slots).Perm (pledges others) :=
  (hperm.filter _).map _

theorem pledges_map_original (slots : List Slot) :
    pledges (slots.map Slot.original) = pledges slots := by
  rw [pledges, List.filter_map, List.map_map]
  rfl

/-- The buffered commands that wait on a link, unsent ones first. -/
def Link.buffered (link : Link) : List Pledge :=
  ((link.unsent ++ link.awaiting).filter fun slot =>
    slot.isLive && slot.delivery = .buffered).map Slot.pledge

theorem Link.buffered_eq (link : Link) : link.buffered = pledges link.waiting := by
  rw [waiting, ← live_append, live, pledges_map_original, pledges, List.filter_filter, buffered]
  congr 2
  funext slot
  exact Bool.and_comm _ _

namespace Client

variable {ω : Type}

/-- The buffered commands that wait on the links. -/
def buffered (client : Client ω) : List Pledge :=
  client.pool.links.flatMap Link.buffered

/-- The buffered commands that ended and were not collected. -/
def uncollected (client : Client ω) : List Pledge :=
  client.ledger.completed.map fun entry =>
    { seq := entry.1, opcode := entry.2.opcode, key := entry.2.key }

theorem buffered_eq (client : Client ω) : client.buffered = pledges client.waiting := by
  rw [buffered, waiting]
  induction client.pool.links with
  | nil => rfl
  | cons link links ih =>
      rw [List.flatMap_cons, List.flatMap_cons, pledges_append, ih, Link.buffered_eq]

/-- The result of a buffered command waits to be collected. -/
theorem uncollected_record (client : Client ω) (finished : Finished) :
    uncollected { client with ledger := client.ledger.record finished }
      = client.uncollected ++ pledges [finished.slot.original] := by
  unfold Ledger.record
  dsimp only
  cases hdelivery : finished.slot.delivery with
  | direct =>
      rw [pledges, List.filter_cons_of_neg (by simp [Slot.original, hdelivery])]
      exact (List.append_nil _).symm
  | buffered =>
      rw [pledges, List.filter_cons_of_pos (by simp [Slot.original, hdelivery])]
      exact List.map_append

/-- Results of buffered commands wait to be collected. -/
theorem uncollected_absorb (client : Client ω) (finished : List Finished) :
    uncollected { client with ledger := client.ledger.absorb finished }
      = client.uncollected ++ pledges (endedSlots finished) := by
  induction finished generalizing client with
  | nil => exact (List.append_nil _).symm
  | cons first others ih =>
      show uncollected { client with ledger := (client.ledger.record first).absorb others } = _
      rw [ih { client with ledger := client.ledger.record first }, uncollected_record,
        List.append_assoc, ← pledges_append]
      rfl

/-! ## Agreement -/

/-- The outstanding commands wait on a link or were not collected. -/
def Accounts (client : Client ω) (outstanding : List Pledge) : Prop :=
  (client.buffered ++ client.uncollected).Perm outstanding

/-- The accounts look at the links and the outcomes only. -/
theorem Accounts.congr {client after : Client ω} {outstanding : List Pledge}
    (haccounts : client.Accounts outstanding) (hlinks : after.pool.links = client.pool.links)
    (hcompleted : after.ledger.completed = client.ledger.completed) :
    after.Accounts outstanding := by
  rw [Accounts, buffered, uncollected, hlinks, hcompleted]
  exact haccounts

variable [Network ω]

/-- A move that gives up no outstanding command keeps the accounts. -/
theorem Accounts.move {client after : Client ω} {incidents : Trace} {outstanding : List Pledge}
    (haccounts : client.Accounts outstanding) (hapart : client.Apart)
    (hmove : client.Move incidents after)
    (hdrops : ∀ slot ∈ incidents.drops, slot.delivery = .buffered → slot.pledge ∉ outstanding) :
    after.Accounts outstanding := by
  have hconserves := Step.conserves hapart (.move hmove)
  have htickets : incidents.tickets = [] := by
    cases hmove with
    | link _ hstep => exact Trace.tickets_of_about hstep.about
    | waited => rfl
    | noted => rfl
  have huncollected : after.uncollected
      = client.uncollected ++ pledges (endedSlots incidents.endings) := by
    cases hmove with
    | link _ hstep => exact uncollected_absorb _ _
    | waited => exact (List.append_nil _).symm
    | noted => exact (List.append_nil _).symm
  rw [htickets, List.map_nil, List.append_nil] at hconserves
  have hpledges := perm_pledges hconserves
  rw [pledges_append, pledges_append, pledges_map_original, ← buffered_eq, ← buffered_eq]
    at hpledges
  have hnone : pledges incidents.drops = [] := by
    rw [List.eq_nil_iff_forall_not_mem]
    intro pledge hmem
    have hold : pledge ∈ outstanding := haccounts.subset (List.mem_append_left _
      (hpledges.symm.subset (List.mem_append_right _ (List.mem_append_right _ hmem))))
    obtain ⟨slot, hslot, rfl⟩ := List.mem_map.mp hmem
    obtain ⟨hdropped, hbuffered⟩ := List.mem_filter.mp hslot
    exact hdrops slot hdropped (by simpa using hbuffered) hold
  rw [hnone, List.append_nil] at hpledges
  rw [Accounts, huncollected]
  refine List.Perm.trans ?_ haccounts
  refine (List.Perm.trans ?_ (hpledges.append_right _).symm)
  rw [List.append_assoc]
  exact List.perm_append_comm.append_left _

/-- Driving keeps the accounts if it gives up no outstanding command. -/
theorem Accounts.drives {client after : Client ω} {incidents : Trace} {allows : Incident → Prop}
    {outstanding : List Pledge} (haccounts : client.Accounts outstanding) (hapart : client.Apart)
    (hdrives : client.Drives allows incidents after)
    (hdrops : ∀ slot, allows (.dropped slot) → slot.delivery = .buffered →
      slot.pledge ∉ outstanding) :
    after.Accounts outstanding ∧ after.Apart ∧ after.ledger.nextSeq = client.ledger.nextSeq := by
  induction hdrives with
  | refl => exact ⟨haccounts, hapart, rfl⟩
  | tail _ hmove hallowed ih =>
      obtain ⟨hbetween, hapart, hseq⟩ := ih
      refine ⟨hbetween.move hapart hmove fun slot hslot =>
        hdrops slot (hallowed _ (Trace.mem_drops.mp hslot)),
        Step.apart hapart (.move hmove), ?_⟩
      rw [← hseq]
      cases hmove with
      | link => exact Ledger.nextSeq_absorb _ _
      | waited => rfl
      | noted => rfl

/-- Accepting a command: a buffered one is outstanding from now on. -/
theorem Accounts.queued {client after : Client ω} {server seq : Nat} {command : Command}
    {delivery : Delivery} {outstanding : List Pledge} (haccounts : client.Accounts outstanding)
    (hapart : client.Apart)
    (hqueue : client.queue server command.request command.expect = .ok (seq, delivery, after)) :
    (delivery = .direct → after.Accounts outstanding) ∧
      (delivery = .buffered → after.Accounts (outstanding ++
        [{ seq, opcode := command.request.opcode, key := command.request.key }])) := by
  have hconserves := perm_pledges (Step.conserves hapart (.queued hqueue))
  obtain ⟨front, link, back, hlinks, -, rfl, hdelivery, hafter⟩ := queue_cases hqueue
  have huncollected : after.uncollected = client.uncollected := by
    rw [hafter]
    rfl
  rw [pledges_append, pledges_append, ← buffered_eq, ← buffered_eq] at hconserves
  have hbuffered : (after.buffered).Perm
      (client.buffered ++ pledges [(client.nextTicket command).slot]) :=
    (hconserves.trans (.of_eq (List.append_nil _))).symm
  have hslot : (client.nextTicket command).slot.delivery = delivery := hdelivery.symm
  rw [Accounts] at haccounts
  constructor
  · rintro rfl
    rw [pledges, List.filter_cons_of_neg (by simp [hslot])] at hbuffered
    rw [Accounts, huncollected]
    exact (hbuffered.append_right _).trans
      ((List.Perm.of_eq (by rw [List.filter_nil, List.map_nil, List.append_nil])).trans haccounts)
  · rintro rfl
    rw [pledges, List.filter_cons_of_pos (by simp [hslot])] at hbuffered
    rw [Accounts, huncollected]
    apply (hbuffered.append_right _).trans
    rw [List.append_assoc]
    apply (List.perm_append_comm.append_left _).trans
    rw [← List.append_assoc]
    exact haccounts.append_right _

/-- Replacing the list of servers keeps the accounts. -/
theorem Accounts.installed {client after : Client ω} {addresses : List ServerAddress}
    {outstanding : List Pledge} (haccounts : client.Accounts outstanding) (hapart : client.Apart)
    (hinstall : client.installServers addresses = .ok after) :
    after.Accounts outstanding ∧ after.Apart ∧ after.ledger.nextSeq = client.ledger.nextSeq := by
  obtain ⟨incidents, driven, hdrives, hplaced, hledger⟩ := installServers_drives hinstall
  obtain ⟨hdriven, hapart, hseq⟩ := haccounts.drives hapart hdrives
    fun slot hkeeps => absurd rfl (hkeeps slot.seq)
  have hconserves := perm_pledges (hplaced.conserves hapart)
  rw [pledges_append, pledges_append, ← buffered_eq, ← buffered_eq] at hconserves
  have hbuffered : after.buffered.Perm driven.buffered := by
    refine (hconserves.trans (.of_eq (List.append_nil _))).symm.trans (.of_eq (List.append_nil _))
  refine ⟨?_, hplaced.apart hapart, by rw [hledger, hseq]⟩
  rw [Accounts, uncollected, hledger]
  exact (hbuffered.append_right _).trans hdriven

end Client

/-! ## When a flush is done -/

namespace Pool

/-- What a function makes true of each link is true of all of them afterwards. -/
theorem forall_eachLink {ω : Type} {step : Link → Around ω → Link × Around ω}
    {before after : Link → Prop} (hstep : ∀ link around, before link → after (step link around).1)
    {links : List Link} (hlinks : ∀ link ∈ links, before link) (around : Around ω) :
    ∀ link ∈ (eachLink step links around).1, after link := by
  induction links generalizing around with
  | nil =>
      intro _ hmem
      cases hmem
  | cons first links ih =>
      intro link hmem
      rcases List.mem_cons.mp hmem with rfl | hmem
      · exact hstep first around (hlinks first List.mem_cons_self)
      · exact ih (fun other hother => hlinks other (List.mem_cons_of_mem _ hother))
          (step first around).2 link hmem

end Pool

namespace Link

/-- A sweep keeps no live slot that satisfies its condition. -/
theorem settled_sweep {condition : Slot → Bool} {written : Nat} {slots : List Slot}
    {octets : Bytes} :
    ∀ slot ∈ (sweep condition written slots octets).kept,
      ¬ (slot.isLive && condition slot) = true := by
  induction slots generalizing written octets with
  | nil =>
      intro _ hmem
      cases hmem
  | cons first slots ih =>
      intro slot hmem
      unfold sweep at hmem
      dsimp only at hmem
      split at hmem
      · rename_i hkept
        rcases List.mem_cons.mp hmem with rfl | hmem
        · cases hlive : slot.isLive <;> cases hcondition : condition slot <;> simp_all
        · exact ih slot hmem
      split at hmem
      · rcases List.mem_cons.mp hmem with rfl | hmem
        · simp [Slot.isLive]
        · exact ih slot hmem
      · exact ih slot hmem

/-- Nobody waits for slots that were given up. -/
theorem liveCount_abandon (link : Link) (condition : Slot → Bool) :
    (link.abandon condition).1.liveCount condition = 0 := by
  rw [liveCount, List.countP_eq_zero]
  intro slot hmem
  rcases List.mem_append.mp hmem with hmem | hmem
  · exact settled_sweep slot hmem
  · obtain ⟨old, -, rfl⟩ := List.mem_map.mp hmem
    unfold abandonIf
    split
    · simp [Slot.isLive]
    · assumption

/-- A link on which nobody waits for a buffered command. -/
theorem buffered_eq_nil {link : Link} (hcount : link.liveCount Target.allBuffered.covers = 0) :
    link.buffered = [] := by
  rw [liveCount, List.countP_eq_zero] at hcount
  rw [buffered, List.map_eq_nil_iff, List.filter_eq_nil_iff]
  exact hcount

end Link

namespace Client

variable {ω : Type} [Network ω]

omit [Network ω] in
/-- A link on which a target was given up. -/
theorem expireLink_link (target : Target) (link : Link) (around : Around ω) :
    (expireLink target link around).1 = (link.abandon target.covers).1 := by
  unfold expireLink
  dsimp only
  split
  · rfl
  · cases target <;> rfl

omit [Network ω] in
/-- The links of a client that has given up on a target. -/
theorem links_forsaking (client : Client ω) (target : Target) :
    (client.forsaking target).pool.links
      = client.pool.links.map fun link => (link.abandon target.covers).1 := by
  have hlinks (links : List Link) (around : Around ω) :
      (Pool.eachLink (expireLink target) links around).1
        = links.map fun link => (link.abandon target.covers).1 := by
    induction links generalizing around with
    | nil => rfl
    | cons link links ih =>
        exact congrArg₂ (· :: ·) (expireLink_link target link around) (ih _)
  exact hlinks client.pool.links _

omit [Network ω] in
/-- Giving up on a target leaves no live slot that it covers. -/
theorem settled_forsaking (client : Client ω) (target : Target) :
    ∀ link ∈ (client.forsaking target).pool.links, link.liveCount target.covers = 0 := by
  rw [links_forsaking]
  exact List.forall_mem_map.mpr fun link _ => link.liveCount_abandon _

/-- The links of a client that has dropped what is buffered. -/
theorem links_dropBuffered (links : List Link) :
    (dropBuffered links).1 = links.map fun link =>
      (link.abandon fun slot => slot.delivery = .buffered).1 := by
  induction links with
  | nil => rfl
  | cons link links ih => exact congrArg (_ :: ·) ih

omit [Network ω] in
/-- The links after a reset. -/
theorem links_resetBuffers (client : Client ω) :
    client.resetBuffers.pool.links = client.pool.links.map fun link =>
      (link.abandon fun slot => slot.delivery = .buffered).1 :=
  links_dropBuffered client.pool.links

/-- Failing the links that carry too much leaves none, either. -/
theorem settled_expire (client : Client ω) (target : Target) :
    ∀ link ∈ (client.expire target).pool.links, link.liveCount target.covers = 0 := by
  refine Pool.forall_eachLink ?_ (client.settled_forsaking target) _
  intro link around hcount
  unfold Link.shedUnresponsive
  split
  · rfl
  · exact hcount

/-- A flush ends with an error of the network, or when nobody waits for a buffered command
any more. -/
theorem drive_allBuffered (deadline waits : Nat) (client : Client ω) :
    (∃ error, (drive .allBuffered deadline waits client).1 = .error (.io error)) ∨
      (drive .allBuffered deadline waits client).1 = .ok () ∧
        (drive .allBuffered deadline waits client).2.buffered = [] := by
  have hsettled {after : Client ω}
      (hall : ∀ link ∈ after.pool.links, link.liveCount Target.allBuffered.covers = 0) :
      after.buffered = [] :=
    List.flatMap_eq_nil_iff.mpr fun link hmem => Link.buffered_eq_nil (hall link hmem)
  obtain ⟨pauses, looked, left, last, -, hhalts, -⟩ :=
    drive_rounds .allBuffered deadline waits client
  generalize drive .allBuffered deadline waits client = result at hhalts
  cases hhalts with
  | met hmet =>
      refine .inr ⟨rfl, hsettled fun link hmem => ?_⟩
      have hcount := List.all_eq_true.mp hmet link hmem
      simpa using hcount
  | late => exact .inr ⟨rfl, hsettled (settled_expire _ _)⟩
  | failed => exact .inl ⟨_, rfl⟩
  | exhausted => exact .inl ⟨_, rfl⟩

/-- The pledge that an outcome which was not collected belongs to. -/
def pledgeOf (entry : Nat × Completion) : Pledge where
  seq := entry.1
  opcode := entry.2.opcode
  key := entry.2.key

/-- Collecting outcomes sorts them by the order of issue. -/
theorem sorted_outcomes (entries : List (Nat × Completion)) :
    (entries.mergeSort fun a b => a.1 ≤ b.1).Pairwise fun a b => a.1 ≤ b.1 := by
  refine (List.pairwise_mergeSort ?_ ?_ _).imp fun h => of_decide_eq_true h
  · intro a b c hab hbc
    simp only [decide_eq_true_eq] at *
    omega
  · intro a b
    simp only [Bool.or_eq_true, decide_eq_true_eq]
    omega

omit [Network ω] in
/-- Outcomes are collected in the order of issue, one for every outstanding command. -/
theorem collected_exact {client : Client ω} {outstanding : List Pledge}
    (haccounts : client.Accounts outstanding) (hbuffered : client.buffered = [])
    (horder : (outstanding.map Pledge.seq).Pairwise (· < ·)) :
    (client.ledger.completed.mergeSort fun a b => a.1 ≤ b.1).map pledgeOf = outstanding := by
  have hperm : ((client.ledger.completed.mergeSort fun a b => a.1 ≤ b.1).map pledgeOf).Perm
      outstanding := by
    rw [Accounts, hbuffered, List.nil_append] at haccounts
    exact ((List.mergeSort_perm _ _).map _).trans haccounts
  have hsorted : ((client.ledger.completed.mergeSort fun a b => a.1 ≤ b.1).map
      pledgeOf).Pairwise fun a b => a.seq ≤ b.seq :=
    List.pairwise_map.mpr (sorted_outcomes _)
  have hstrict : outstanding.Pairwise fun a b => a.seq < b.seq := List.pairwise_map.mp horder
  refine List.Perm.eq_of_pairwise ?_ hsorted (hstrict.imp Nat.le_of_lt) hperm
  intro a b ha hb hab hba
  exact List.inj_on_of_nodup_map (horder.imp Nat.ne_of_lt) (hperm.subset ha) hb
    (Nat.le_antisymm hab hba)

omit [Network ω] in
/-- So they are those of the outstanding commands. -/
theorem drain_exact {client : Client ω} {outstanding : List Pledge}
    (haccounts : client.Accounts outstanding) (hbuffered : client.buffered = [])
    (horder : (outstanding.map Pledge.seq).Pairwise (· < ·)) :
    client.ledger.drain.1.map (fun completion => (completion.opcode, completion.key))
      = outstanding.map fun pledge => (pledge.opcode, pledge.key) := by
  rw [← collected_exact haccounts hbuffered horder, List.map_map]
  exact List.map_map

/-! ## Sessions -/

/-- The clients after any calls, with the books of the caller. Between two calls the world
may change in any way. -/
inductive Session (start : Client ω) : Books → Client ω → Prop
  | opened : Session start .empty start
  | called {books : Books} {client : Client ω} (hsession : Session start books client) (net : ω)
      (call : Call) :
      Session start
        (books.after client.ledger.nextSeq call (({ client with net }).perform call).1)
        (({ client with net }).perform call).2

/-- What the client and the books have in common between two calls. -/
structure Agrees (books : Books) (client : Client ω) : Prop where
  order : (books.accepted.map Pledge.seq).Pairwise (· < ·)
  below : ∀ pledge ∈ books.accepted, pledge.seq < client.ledger.nextSeq
  parts : books.accepted.Perm (books.outstanding ++ (books.returned ++ books.dropped))
  outstanding : books.outstanding.Sublist books.accepted
  exact : ∀ settlement ∈ books.settlements, settlement.Exact
  accounts : client.Accounts books.outstanding
  apart : client.Apart

omit [Network ω] in
/-- The books agree with every client that keeps the accounts. -/
theorem Agrees.moved {books : Books} {client after : Client ω} (hagrees : client.Agrees books)
    (haccounts : after.Accounts books.outstanding) (hapart : after.Apart)
    (hseq : client.ledger.nextSeq ≤ after.ledger.nextSeq) : after.Agrees books where
  order := hagrees.order
  below pledge hmem := Nat.lt_of_lt_of_le (hagrees.below pledge hmem) hseq
  parts := hagrees.parts
  outstanding := hagrees.outstanding
  exact := hagrees.exact
  accounts := haccounts
  apart := hapart

omit [Network ω] in
/-- A call that changes neither links nor outcomes. -/
theorem Agrees.congr {books : Books} {client after : Client ω} (hagrees : client.Agrees books)
    (hlinks : after.pool.links = client.pool.links)
    (hcompleted : after.ledger.completed = client.ledger.completed)
    (hseq : after.ledger.nextSeq = client.ledger.nextSeq) : after.Agrees books :=
  hagrees.moved (hagrees.accounts.congr hlinks hcompleted)
    (by rw [Apart, hlinks]; exact hagrees.apart) (Nat.le_of_eq hseq.symm)

omit [Network ω] in
/-- A command that was accepted is outstanding. -/
theorem Agrees.accept {books : Books} {client after : Client ω} {pledge : Pledge}
    (hagrees : client.Agrees books) (hseq : pledge.seq = client.ledger.nextSeq)
    (hnext : after.ledger.nextSeq = client.ledger.nextSeq + 1)
    (haccounts : after.Accounts (books.outstanding ++ [pledge])) (hapart : after.Apart) :
    after.Agrees (books.accept pledge) where
  order := by
    rw [Books.accept, List.map_append, List.pairwise_append]
    refine ⟨hagrees.order, List.pairwise_singleton _ _, ?_⟩
    intro seq hseq' other hother
    obtain ⟨old, hold, rfl⟩ := List.mem_map.mp hseq'
    rw [List.mem_singleton.mp hother, hseq]
    exact hagrees.below old hold
  below := by
    intro other hother
    rw [hnext]
    rcases List.mem_append.mp hother with hother | hother
    · exact Nat.lt_succ_of_lt (hagrees.below other hother)
    · rw [List.mem_singleton.mp hother, hseq]
      exact Nat.lt_succ_self _
  parts := by
    show (books.accepted ++ [pledge]).Perm (books.outstanding ++ [pledge] ++ _)
    apply (hagrees.parts.append_right _).trans
    rw [List.append_assoc, List.append_assoc books.outstanding [pledge]]
    exact List.perm_append_comm.append_left _
  outstanding := hagrees.outstanding.append (.refl _)
  exact := hagrees.exact
  accounts := haccounts
  apart := hapart

/-- A data operation that is not buffered leaves the books as they are. -/
theorem books_after_issue {books : Books} {client : Client ω} {command : Command}
    {timeout : Option Nat} (hnone : (client.issue command timeout).1 ≠ .ok .buffered) :
    books.after client.ledger.nextSeq (.issue command timeout)
      (client.perform (.issue command timeout)).1 = books := by
  have houtcome := (perform_issue client command timeout).2.1.not.mpr hnone
  cases hresult : (client.perform (.issue command timeout)).1 with
  | buffered => exact absurd hresult houtcome
  | flushed completions => rfl
  | failed error => rfl
  | done => rfl

/-- A data operation agrees with the books. -/
theorem Agrees.issue {books : Books} {client : Client ω} (hagrees : client.Agrees books)
    (command : Command) (timeout : Option Nat) :
    (client.perform (.issue command timeout)).2.Agrees
      (books.after client.ledger.nextSeq (.issue command timeout)
        (client.perform (.issue command timeout)).1) := by
  obtain ⟨hafter, hbuffered, -⟩ := perform_issue client command timeout
  rw [hafter]
  rcases issue_cases client command timeout with
    ⟨error, -, hrefused⟩ |
      ⟨server, seq, delivery, queued, hqueue, ⟨rfl, hissue⟩ | ⟨rfl, hissue⟩⟩
  · rw [books_after_issue (by rw [hrefused]; exact fun hsome => nomatch hsome), hrefused]
    exact hagrees
  · obtain ⟨-, haccounts⟩ := hagrees.accounts.queued hagrees.apart hqueue
    have hapart := Step.apart hagrees.apart (.queued hqueue)
    obtain ⟨_, _, _, -, -, rfl, -, hqueued⟩ := queue_cases hqueue
    rw [hbuffered.mpr (by rw [hissue]), hissue]
    exact hagrees.accept rfl (by rw [hqueued]) (haccounts rfl) hapart
  · obtain ⟨haccounts, -⟩ := hagrees.accounts.queued hagrees.apart hqueue
    have hapart := Step.apart hagrees.apart (.queued hqueue)
    obtain ⟨_, _, _, -, -, rfl, -, hqueued⟩ := queue_cases hqueue
    obtain ⟨hnone, incidents, driven, hdrives, hend⟩ :=
      await_cases queued client.ledger.nextSeq (client.deadlineOf timeout)
    rw [books_after_issue (by rw [hissue]; exact hnone), hissue]
    -- only the command itself may be given up, and it is not one of the buffered ones
    obtain ⟨hdriven, hapart, hseq⟩ := (haccounts rfl).drives hapart hdrives (by
      intro slot hdrop _ hmem
      have hlt := hagrees.below slot.pledge (hagrees.outstanding.subset hmem)
      have hsame : client.ledger.nextSeq = slot.seq := Target.command.inj (hdrop.direct slot rfl)
      exact absurd hlt (Nat.not_lt_of_le (Nat.le_of_eq hsame)))
    have hagree : driven.Agrees books :=
      hagrees.moved hdriven hapart (by rw [hseq, hqueued]; exact Nat.le_succ _)
    rcases hend with hend | hend
    · rw [hend]
      exact hagree
    · rw [hend]
      exact hagree.congr rfl rfl rfl

/-- What a flush gives when the client agrees with the books. -/
theorem Agrees.flush {books : Books} {client : Client ω} (hagrees : client.Agrees books)
    (timeout : Option Nat) :
    (∃ error after, client.perform (.flush timeout) = (.failed (.io error), after) ∧
      after.Agrees books) ∨
    ∃ completions after, client.perform (.flush timeout) = (.flushed completions, after) ∧
      Settlement.Exact { pledges := books.outstanding, completions } ∧
      after.buffered = [] ∧ after.uncollected = [] ∧
      after.Agrees (books.settle completions) := by
  obtain ⟨incidents, driven, hdrives, hdriven, hend⟩ := flush_cases client timeout
  obtain ⟨haccounts, hapart, hseq⟩ := hagrees.accounts.drives hagrees.apart hdrives
    fun slot hdrop => nomatch hdrop.direct slot rfl
  have hstill : driven.Agrees books := hagrees.moved haccounts hapart (Nat.le_of_eq hseq.symm)
  -- a flush that returns has driven until nothing buffered waits
  have hrun := drive_allBuffered (client.deadlineOf timeout) (Network.pollLimit client.net) client
  rw [← run, ← hdriven] at hrun
  rcases hend with ⟨error, herror, hflush⟩ | ⟨hok, hflush⟩
  · rcases hrun with ⟨io, hio⟩ | ⟨hok, -⟩
    · rw [herror] at hio
      cases hio
      refine .inl ⟨io, driven, ?_, hstill⟩
      rw [perform, hflush]
      rfl
    · rw [herror] at hok
      cases hok
  · rcases hrun with ⟨io, hio⟩ | ⟨-, hbuffered⟩
    · rw [hok] at hio
      cases hio
    have horder : (books.outstanding.map Pledge.seq).Pairwise (· < ·) :=
      hagrees.order.sublist (hagrees.outstanding.map _)
    have hexact : Settlement.Exact
        { pledges := books.outstanding, completions := driven.ledger.drain.1 } :=
      ⟨drain_exact haccounts hbuffered horder, horder⟩
    refine .inr ⟨driven.ledger.drain.1, { driven with ledger := driven.ledger.forget }, ?_,
      hexact, hbuffered, rfl, ?_⟩
    · rw [perform, hflush]
      rfl
    · refine ⟨hagrees.order, hstill.below, ?_, List.nil_sublist _, ?_, ?_, hapart⟩
      · apply hagrees.parts.trans
        rw [Books.settle, Books.returned, Books.returned, List.flatMap_append,
          List.flatMap_singleton, List.append_assoc]
        exact List.perm_append_comm_assoc _ _ _
      · intro settlement hmem
        rcases List.mem_append.mp hmem with hmem | hmem
        · exact hagrees.exact settlement hmem
        · rw [List.mem_singleton.mp hmem]
          exact hexact
      · show (driven.buffered ++ []).Perm []
        rw [hbuffered]
        exact .refl _

omit [Network ω] in
/-- A reset leaves no buffered command. -/
theorem Agrees.reset {books : Books} {client : Client ω} (hagrees : client.Agrees books) :
    client.resetBuffers.Agrees books.discard := by
  have hbuffered : client.resetBuffers.buffered = [] := by
    apply List.flatMap_eq_nil_iff.mpr
    rw [links_resetBuffers]
    exact List.forall_mem_map.mpr fun old _ => Link.buffered_eq_nil (old.liveCount_abandon _)
  refine ⟨hagrees.order, hagrees.below, ?_, List.nil_sublist _, hagrees.exact, ?_, ?_⟩
  · apply hagrees.parts.trans
    rw [Books.discard, Books.dropped, Books.dropped, List.flatten_append, List.flatten_singleton]
    exact List.perm_append_comm.trans (.of_eq (List.append_assoc _ _ _))
  · show (client.resetBuffers.buffered ++ []).Perm []
    rw [hbuffered]
    exact .refl _
  · have hapart := hagrees.apart
    unfold Apart at hapart ⊢
    rw [links_resetBuffers, List.map_map]
    exact hapart

/-- Replacing the list of servers agrees with the books. -/
theorem Agrees.installed {books : Books} {client after : Client ω}
    {addresses : List ServerAddress} (hagrees : client.Agrees books)
    (hinstall : client.installServers addresses = .ok after) : after.Agrees books := by
  obtain ⟨haccounts, hapart, hseq⟩ := hagrees.accounts.installed hagrees.apart hinstall
  exact hagrees.moved haccounts hapart (Nat.le_of_eq hseq.symm)

/-- Every call agrees with the books. -/
theorem Agrees.perform {books : Books} {client : Client ω} (hagrees : client.Agrees books)
    (call : Call) :
    (client.perform call).2.Agrees
      (books.after client.ledger.nextSeq call (client.perform call).1) := by
  cases call with
  | issue command timeout => exact hagrees.issue command timeout
  | flush timeout =>
      rcases hagrees.flush timeout with
        ⟨error, after, hflush, hafter⟩ | ⟨completions, after, hflush, -, -, -, hafter⟩
      · rw [hflush]
        exact hafter
      · rw [hflush]
        exact hafter
  | resetBuffers => exact hagrees.reset
  | setBuffering buffering => exact hagrees.congr rfl rfl rfl
  | setServers servers =>
      show (outcomeOfUnit (client.setServers servers)).2.Agrees
        (books.after _ _ (outcomeOfUnit (client.setServers servers)).1)
      unfold setServers
      split
      · exact hagrees
      split
      · exact hagrees
      · rename_i addresses hparse _ after hinstall
        exact hagrees.installed hinstall
  | setTimeouts timeouts =>
      show (outcomeOfUnit (client.setTimeouts timeouts)).2.Agrees
        (books.after _ _ (outcomeOfUnit (client.setTimeouts timeouts)).1)
      unfold setTimeouts
      split
      · exact hagrees
      · exact hagrees.congr rfl rfl rfl
  | setSink sink => exact hagrees.congr rfl rfl rfl

/-- A client that was just configured agrees with empty books. -/
theorem agrees_withConfig {net : ω} {config : Config} {start : Client ω}
    (hconfig : withConfig net config = .ok start) : start.Agrees .empty := by
  obtain ⟨-, addresses, -, hinstall⟩ := withConfig_installs hconfig
  obtain ⟨haccounts, hapart, -⟩ :=
    @Accounts.installed ω _ (blank config.timeouts config.buffering net) start _ [] (.refl _)
      List.nodup_nil hinstall
  exact ⟨.nil, fun _ hmem => (nomatch hmem), .refl _, .refl _, fun _ hmem => (nomatch hmem),
    haccounts, hapart⟩

/-- The client agrees with the books between any two calls. -/
theorem Session.agrees {net : ω} {config : Config} {start client : Client ω} {books : Books}
    (hconfig : withConfig net config = .ok start) (hsession : start.Session books client) :
    client.Agrees books := by
  induction hsession with
  | opened => exact agrees_withConfig hconfig
  | @called books client _ net call ih =>
      have hnow : Agrees books { client with net } := ih.congr rfl rfl rfl
      exact hnow.perform call

/-- **Every buffered command is completed once, in the order of issue.** Between any two
calls, each buffered command that was accepted waits on one link, or has an outcome that
was not collected, or was returned by one flush, or was dropped by one reset.  A flush
gives exactly the commands that are outstanding, each with its own opcode and key in the
order of issue, and leaves none waiting; or it fails with an error of the network and all
of them stay outstanding. -/
theorem completions_exact {net : ω} {config : Config} {start client : Client ω} {books : Books}
    (hconfig : withConfig net config = .ok start) (hsession : start.Session books client) :
    (books.accepted.map Pledge.seq).Pairwise (· < ·) ∧
    books.accepted.Perm
      (client.buffered ++ (client.uncollected ++ (books.returned ++ books.dropped))) ∧
    books.outstanding.Sublist books.accepted ∧
    books.outstanding.Perm (client.buffered ++ client.uncollected) ∧
    (∀ settlement ∈ books.settlements, settlement.Exact) ∧
    ∀ (net : ω) (timeout : Option Nat),
      (∃ error after,
        ({ client with net }).perform (.flush timeout) = (.failed (.io error), after) ∧
        books.outstanding.Perm (after.buffered ++ after.uncollected)) ∨
      ∃ completions after,
        ({ client with net }).perform (.flush timeout) = (.flushed completions, after) ∧
        Settlement.Exact { pledges := books.outstanding, completions } ∧
        after.buffered = [] ∧ after.uncollected = [] := by
  have hagrees := Session.agrees hconfig hsession
  refine ⟨hagrees.order, ?_, hagrees.outstanding, hagrees.accounts.symm, hagrees.exact, ?_⟩
  · rw [← List.append_assoc]
    exact hagrees.parts.trans (hagrees.accounts.symm.append_right _)
  intro net timeout
  have hnow : Agrees books { client with net } := hagrees.congr rfl rfl rfl
  rcases hnow.flush timeout with
    ⟨error, after, hflush, hafter⟩ | ⟨completions, after, hflush, hexact, hnone, hempty, -⟩
  · exact .inl ⟨error, after, hflush, hafter.accounts.symm⟩
  · exact .inr ⟨completions, after, hflush, hexact, hnone, hempty⟩

/-- The books and the client after some calls, each in a world of its own. -/
def recording (state : Books × Client ω) : List (ω × Call) → Books × Client ω
  | [] => state
  | (net, call) :: calls =>
    let result := ({ state.2 with net }).perform call
    recording (state.1.after state.2.ledger.nextSeq call result.1, result.2) calls

/-- A session goes on with any calls. -/
theorem Session.recording {start : Client ω} {state : Books × Client ω}
    (hsession : start.Session state.1 state.2) (calls : List (ω × Call)) :
    start.Session (recording state calls).1 (recording state calls).2 := by
  induction calls generalizing state with
  | nil => exact hsession
  | cons entry calls ih => exact ih (hsession.called entry.1 entry.2)

end Client

/-! ## A session with two flushes -/

namespace Script

/-- A key. -/
def word : Bytes := [107]

/-- The replies to a store, a round trip and a fetch. -/
def replies : Bytes :=
  (Response.make .set .noError 0).frame ++ (Response.make .noop .noError 1).frame
    ++ { Response.make .get .noError 2 with extras := Response.flagsExtras 0, value := [1] }.frame

/-- Three commands are buffered, a first flush fails when it waits for the second time, another
one finds the replies, one more command is buffered and dropped, and a last one waits. -/
def diary : List (Script × Call) :=
  [(⟨0, [], []⟩, .setBuffering true),
    (⟨0, [], []⟩, .issue (.set word [1] { flags := 0, expiration := 0, cas := 0 }) none),
    (⟨0, [], []⟩, .issue (.noop 0) none),
    (⟨0, [], []⟩, .issue (.get word { flags := true, cas := true }) none),
    (⟨0, [], [.ready [], .failed (.os 5 "Input/output error")]⟩, .flush none),
    (⟨0, [.data replies], [.ready [readable true]]⟩, .flush none),
    (⟨0, [], []⟩, .issue (.noop 0) none),
    (⟨0, [], []⟩, .resetBuffers),
    (⟨0, [], []⟩, .issue (.delete word) none)]

/-- The books and the client then. -/
def recorded : Books × Client Script :=
  Client.recording (.empty, (Script.mk 0 [] []).opened) diary

end Script

namespace Client

/-- Of five buffered commands three are returned by the flush that succeeds, in the order of
issue, one is dropped, and one waits. -/
theorem completions_exact_diary :
    (Script.mk 0 [] []).opened.Session Script.recorded.1 Script.recorded.2 ∧
    Script.recorded.1.accepted.map Pledge.seq = [0, 1, 2, 3, 4] ∧
    (∃ settlement, Script.recorded.1.settlements = [settlement] ∧
      settlement.completions.map (fun completion => (completion.opcode, completion.key))
        = [(.set, Script.word), (.noop, []), (.get, Script.word)]) ∧
    Script.recorded.1.returned.map Pledge.seq = [0, 1, 2] ∧
    Script.recorded.1.dropped.map Pledge.seq = [3] ∧
    Script.recorded.2.buffered.map Pledge.seq = [4] ∧
    Script.recorded.1.accepted.Perm (Script.recorded.2.buffered ++ (Script.recorded.2.uncollected
      ++ (Script.recorded.1.returned ++ Script.recorded.1.dropped))) := by
  have hsession : (Script.mk 0 [] []).opened.Session Script.recorded.1 Script.recorded.2 :=
    @Session.recording _ _ _ (.empty, _) .opened Script.diary
  obtain ⟨-, hplaces, -, -, hexact, -⟩ := completions_exact (Script.withConfig_opened _) hsession
  obtain ⟨settlement, hsettled⟩ := List.length_eq_one_iff.mp
    (show Script.recorded.1.settlements.length = 1 by decide +kernel)
  refine ⟨hsession, by decide +kernel, ⟨settlement, hsettled, ?_⟩, by decide +kernel,
    by decide +kernel, by decide +kernel, hplaces⟩
  -- the outcomes are those of the commands that were outstanding
  have hpledges : Script.recorded.1.returned.map (fun pledge => (pledge.opcode, pledge.key))
      = [(.set, Script.word), (.noop, []), (.get, Script.word)] := by decide +kernel
  rw [Books.returned, hsettled, List.flatMap_singleton] at hpledges
  exact (hexact settlement (hsettled ▸ List.mem_singleton_self _)).1.trans hpledges

end Client

end CachePool
