/-
# The backlog of commands that were given up

A link whose server is slow carries slots that were given up: their replies have to be read
before others.  A call that gives up looks at every link, and tears down those that carry too
many such slots; the other calls raise no count.  Only a reset gives up on slots and does not
look, so the commands that resets dropped may come on top.

* `Link.Step.abandonedCount_le` : steps that give nothing up raise no count;
* `Client.expire_sheds` : giving up leaves no connected link with too many;
* `Client.backlog_bounded` : the bound throughout a session;
* `Client.reset_exceeds_backlog` : a reset that goes beyond the limit.
-/
import CachePool.Proofs.Sessions

namespace CachePool

namespace Link

/-! ## Giving up -/

/-- A sweep abandons at most the slots that it gives up on. -/
theorem abandoned_sweep_le (condition : Slot → Bool) (written : Nat) (slots : List Slot)
    (octets : Bytes) :
    (sweep condition written slots octets).kept.countP (·.abandoned)
      ≤ slots.countP (·.abandoned) + (sweep condition written slots octets).dropped.length := by
  induction slots generalizing written octets with
  | nil => exact Nat.zero_le _
  | cons slot slots ih =>
      have hbehind := ih 0 (octets.drop (slot.frameLength - written))
      unfold sweep
      dsimp only
      split
      · rw [List.countP_cons, List.countP_cons]
        dsimp only
        omega
      · split
        · rw [List.countP_cons, List.countP_cons, if_pos rfl, List.length_cons]
          omega
        · rw [List.countP_cons, List.length_cons]
          dsimp only
          omega

/-- So does marking slots. -/
theorem abandoned_abandonIf_le (condition : Slot → Bool) (slots : List Slot) :
    (slots.map (abandonIf condition)).countP (·.abandoned)
      ≤ slots.countP (·.abandoned)
        + (slots.filter fun slot => slot.isLive && condition slot).length := by
  induction slots with
  | nil => exact Nat.zero_le _
  | cons slot slots ih =>
      rw [List.map_cons, List.countP_cons, List.countP_cons, List.filter_cons]
      by_cases hgiven : (slot.isLive && condition slot) = true
      · rw [abandonIf, if_pos hgiven, if_pos hgiven, if_pos rfl, List.length_cons]
        omega
      · rw [abandonIf, if_neg hgiven, if_neg hgiven]
        omega

/-- **Giving up abandons at most the slots given up on.** -/
theorem abandonedCount_abandon_le (link : Link) (condition : Slot → Bool) :
    (link.abandon condition).1.abandonedCount
      ≤ link.abandonedCount + (link.abandon condition).2.length := by
  have hunsent := abandoned_sweep_le condition link.headWritten link.unsent link.outbound
  have hawaiting := abandoned_abandonIf_le condition link.awaiting
  simp only [abandonedCount, abandon, List.countP_append, List.length_append]
  omega

/-! ## Steps that give nothing up -/

/-- Writing abandons nothing. -/
theorem abandonedCount_wrote (link : Link) (count : Nat) :
    (link.wrote count).abandonedCount = link.abandonedCount := by
  refine List.Perm.countP_eq _ (List.perm_append_comm.trans ?_)
  have hslots :=
    append_splitWritten (link.headWritten + (link.outbound.take count).length) link.unsent
  refine (List.Perm.of_eq (List.append_assoc _ _ _)).trans ?_
  exact (List.Perm.of_eq (congrArg (link.awaiting ++ ·) hslots)).trans List.perm_append_comm

/-- When octets end as many frames of one length as there are, all slots are sent. -/
theorem splitWritten_all {length : Nat} {slots : List Slot}
    (hslots : ∀ slot ∈ slots, slot.frameLength = length) :
    splitWritten (length * slots.length) slots = (slots, 0, []) := by
  induction slots with
  | nil => rfl
  | cons slot slots ih =>
      have hfirst := hslots slot List.mem_cons_self
      have hmore : length * (slots.length + 1) - length = length * slots.length := by
        rw [Nat.mul_succ, Nat.add_sub_cancel]
      rw [List.length_cons, splitWritten, hfirst,
        if_neg (Nat.not_lt.mpr (Nat.le_mul_of_pos_right length (Nat.succ_pos _))), hmore,
        ih fun other hother => hslots other (List.mem_cons_of_mem _ hother)]

/-- Replies abandon nothing. -/
theorem Answers.abandoned_le {link last : Link} {responses : List Response} {incidents : Trace}
    (hanswers : Answers link responses incidents last) :
    last.awaiting.countP (·.abandoned) ≤ link.awaiting.countP (·.abandoned) := by
  induction hanswers with
  | nil => exact Nat.le_refl _
  | @cons link next last slot queue response responses finished incidents hqueue hmatch _ ih =>
      refine Nat.le_trans ih ?_
      unfold matchReply at hmatch
      rw [hqueue] at hmatch ⊢
      dsimp only at hmatch
      split at hmatch
      · cases hmatch
      split at hmatch
      · cases hmatch
      split at hmatch
      · rename_i more haccept
        cases hmatch
        obtain ⟨-, -, -, rfl⟩ := Slot.accept_more haccept
        simp only [List.countP_cons, Nat.le_refl]
      · cases hmatch
        rw [List.countP_cons]
        exact Nat.le_add_right _ _

variable {ω : Type} [Network ω] {now : Nat} {timeouts : Timeouts} {link after : Link}
  {net last : ω} {incidents : Trace}

/-- **A step that gives no command up abandons nothing.** -/
theorem Step.abandonedCount_le (hstep : link.Step now timeouts net incidents after last)
    (hkeeps : ∀ incident ∈ incidents, incident.Keeps) :
    after.abandonedCount ≤ link.abandonedCount := by
  have hgave {condition : Slot → Bool} (hnone : (link.abandon condition).2 = []) :
      (link.abandon condition).1.abandonedCount ≤ link.abandonedCount := by
    have hcount := link.abandonedCount_abandon_le condition
    rw [hnone] at hcount
    exact hcount
  cases hstep with
  | quiet | opened | established | examined => exact Nat.le_refl _
  | took => exact Nat.le_of_eq (link.abandonedCount_wrote _)
  | received _ _ _ hanswers =>
      have hawaiting := hanswers.abandoned_le
      rw [hanswers.eq]
      simp only [abandonedCount, receiving, List.countP_append] at hawaiting ⊢
      omega
  | lost | retired => exact Nat.zero_le _
  | shortCircuited =>
      simp only [abandonedCount, List.countP_append, List.countP_nil]
      omega
  | expired target =>
      refine hgave (List.eq_nil_iff_forall_not_mem.mpr fun slot hmem => ?_)
      cases target with
      | command seq => exact hkeeps _ (List.mem_map_of_mem hmem) slot.seq rfl
      | allBuffered =>
          have hlive := (mem_abandon hmem).2.1
          refine hkeeps _ (List.mem_map_of_mem (List.mem_map_of_mem
            (List.mem_filter.mpr ⟨hmem, hlive⟩))) slot.seq ⟨rfl, rfl⟩
  | discarded =>
      exact hgave (List.eq_nil_iff_forall_not_mem.mpr fun slot hmem =>
        hkeeps _ (List.mem_map_of_mem hmem) slot.seq rfl)

end Link

/-! ## Looking at every link -/

namespace Pool

variable {ω : Type} {step : Link → Around ω → Link × Around ω} {related : Link → Link → Prop}

/-- What relates every link to what a function makes of it relates the links before and
after. -/
theorem forall₂_eachLink (hstep : ∀ link around, related link (step link around).1)
    (links : List Link) (around : Around ω) :
    List.Forall₂ related links (eachLink step links around).1 := by
  induction links generalizing around with
  | nil => exact .nil
  | cons link links ih => exact .cons (hstep link around) (ih (step link around).2)

end Pool

/-- What giving up makes of a link: it stays with few enough abandoned slots, or it is torn
down as it carries too many. -/
inductive Link.Sheds (target : Target) (before after : Link) : Prop
  | stays (hafter : after = (before.abandon target.covers).1)
      (hfew : (before.abandon target.covers).1.abandonedCount ≤ maxAbandoned)
  | torn {now : Nat} (hafter : after = (before.abandon target.covers).1.torn now)
      (hmany : maxAbandoned < (before.abandon target.covers).1.abandonedCount)

/-- Either way it carries few enough. -/
theorem Link.Sheds.few {target : Target} {before after : Link} (hsheds : Sheds target before after) :
    after.abandonedCount ≤ maxAbandoned := by
  cases hsheds with
  | stays hafter hfew =>
      rw [hafter]
      exact hfew
  | torn hafter =>
      rw [hafter]
      exact Nat.zero_le _

/-- What a reset makes of a link: it gives up on what is buffered, and looks at nothing. -/
structure Link.Resets (before after : Link) : Prop where
  awaiting : after.awaiting = before.awaiting.map
    (abandonIf fun slot => slot.delivery = .buffered)
  phase : after.phase = before.phase
  count : after.abandonedCount ≤ before.abandonedCount + before.buffered.length

/-- A reset abandons at most the commands that it drops. -/
theorem Link.resets_abandon (link : Link) :
    link.Resets (link.abandon fun slot => slot.delivery = .buffered).1 where
  awaiting := rfl
  phase := rfl
  count := by
    refine Nat.le_trans (link.abandonedCount_abandon_le _) (Nat.add_le_add_left ?_ _)
    have hperm := perm_pledges (link.conserves_abandon fun slot => slot.delivery = .buffered)
    have hdropped : pledges ((link.abandon fun slot => slot.delivery = .buffered).2)
        = (link.abandon fun slot => slot.delivery = .buffered).2.map Slot.pledge := by
      refine congrArg (List.map Slot.pledge) (List.filter_eq_self.mpr fun slot hmem => ?_)
      exact (mem_abandon hmem).2.2
    rw [pledges_append, pledges_map_original, hdropped] at hperm
    rw [buffered_eq, hperm.length_eq, List.length_append, List.length_map]
    exact Nat.le_add_left _ _

namespace Client

variable {ω : Type} [Network ω]

/-- **Giving up looks at every link**, and tears down those with too many abandoned slots. -/
theorem expire_sheds (client : Client ω) (target : Target) :
    List.Forall₂ (Link.Sheds target) client.pool.links (client.expire target).pool.links := by
  have hshed : List.Forall₂
      (fun before after => after = before ∧ before.abandonedCount ≤ maxAbandoned ∨
        ∃ now, after = before.torn now ∧ maxAbandoned < before.abandonedCount)
      (client.forsaking target).pool.links (client.expire target).pool.links := by
    refine Pool.forall₂_eachLink (fun link around => ?_) _ _
    unfold Link.shedUnresponsive
    split
    · rename_i hmany
      exact .inr ⟨_, rfl, hmany⟩
    · rename_i hfew
      exact .inl ⟨rfl, Nat.not_lt.mp hfew⟩
  rw [links_forsaking, List.forall₂_map_left_iff] at hshed
  refine List.Forall₂.imp ?_ hshed
  rintro before after (⟨hafter, hfew⟩ | ⟨now, hafter, hmany⟩)
  · exact .stays hafter hfew
  · exact .torn hafter hmany

/-- So no link carries too many. -/
theorem expire_few (client : Client ω) (target : Target) :
    ∀ link ∈ (client.expire target).pool.links, link.abandonedCount ≤ maxAbandoned := by
  have hsheds := client.expire_sheds target
  generalize client.pool.links = before, (client.expire target).pool.links = after at hsheds ⊢
  induction hsheds with
  | nil => exact fun _ hmem => nomatch hmem
  | cons hlink _ ih => exact List.forall_mem_cons.mpr ⟨hlink.few, ih⟩

/-! ## Calls -/

/-- No link carries too many abandoned slots but for those that it carried before. -/
def Eases (client after : Client ω) : Prop :=
  ∀ link ∈ after.pool.links, link.abandonedCount ≤ maxAbandoned ∨
    ∃ old ∈ client.pool.links, old.token = link.token ∧ link.abandonedCount ≤ old.abandonedCount

omit [Network ω] in
/-- Links that are the same carry the same. -/
theorem eases_of_links {client after : Client ω} (hlinks : after.pool.links = client.pool.links) :
    client.Eases after := by
  intro link hmem
  rw [hlinks] at hmem
  exact .inr ⟨link, hmem, rfl, Nat.le_refl _⟩

omit [Network ω] in
theorem Eases.trans {client between after : Client ω} (hfirst : client.Eases between)
    (hsecond : between.Eases after) : client.Eases after := by
  intro link hmem
  rcases hsecond link hmem with hfew | ⟨middle, hmiddle, htoken, hcount⟩
  · exact .inl hfew
  rcases hfirst middle hmiddle with hfew | ⟨old, hold, hsame, hless⟩
  · exact .inl (Nat.le_trans hcount hfew)
  · exact .inr ⟨old, hold, hsame.trans htoken, Nat.le_trans hcount hless⟩

omit [Network ω] in
/-- When one link is replaced by one that carries no more, the others stay. -/
theorem eases_replace {client after : Client ω} {front back : List Link} {old new : Link}
    (hbefore : client.pool.links = front ++ old :: back)
    (hafter : after.pool.links = front ++ new :: back) (htoken : old.token = new.token)
    (hcount : new.abandonedCount ≤ old.abandonedCount) : client.Eases after := by
  intro link hmem
  refine .inr ?_
  rw [hafter] at hmem
  rw [hbefore]
  rcases List.mem_append.mp hmem with hmem | hmem
  · exact ⟨link, List.mem_append_left _ hmem, rfl, Nat.le_refl _⟩
  rcases List.mem_cons.mp hmem with rfl | hmem
  · exact ⟨old, List.mem_append_right _ List.mem_cons_self, htoken, hcount⟩
  · exact ⟨link, List.mem_append_right _ (List.mem_cons_of_mem _ hmem), rfl, Nat.le_refl _⟩

/-- **A step that gives nothing up raises no count.** -/
theorem Step.eases {client after : Client ω} {incidents : Trace}
    (hstep : client.Step incidents after) (hkeeps : ∀ incident ∈ incidents, incident.Keeps) :
    client.Eases after := by
  cases hstep with
  | move hmove =>
      cases hmove with
      | link hlinks hstep =>
          exact eases_replace hlinks rfl hstep.token.1.symm (hstep.abandonedCount_le hkeeps)
      | waited | noted => exact eases_of_links rfl
  | queued hqueue =>
      obtain ⟨front, old, back, hlinks, -, -, -, rfl⟩ := queue_cases hqueue
      refine eases_replace hlinks rfl rfl ?_
      simp [Link.abandonedCount, Link.enqueue, Ledger.slotFor]
  | placed =>
      intro link hmem
      rcases Pool.mem_place hmem with ⟨old, hold, -, hlink⟩ | ⟨fresh, -, -, hlink⟩
      · rw [hlink]
        exact .inr ⟨old, hold, rfl, Nat.le_refl _⟩
      · rw [hlink]
        exact .inl (Nat.zero_le _)
  | collected | emptied | adjusted => exact eases_of_links rfl

/-- Neither does driving that gives nothing up. -/
theorem Drives.eases {client after : Client ω} {incidents : Trace}
    (hdrives : client.Drives Incident.Keeps incidents after) : client.Eases after := by
  induction hdrives with
  | refl => exact eases_of_links rfl
  | tail _ hmove hkeeps ih => exact ih.trans (Step.eases (.move hmove) hkeeps)

/-- **A call that waits raises no count, or leaves all links with few enough.** -/
theorem eases_drive (target : Target) (deadline waits : Nat) (client : Client ω) :
    client.Eases (drive target deadline waits client).2 := by
  obtain ⟨_, driven, hdrives, hconcludes⟩ := drive_concludes target deadline waits client
  have hexpire : client.Eases (driven.expire target) :=
    fun link hmem => .inl (driven.expire_few target link hmem)
  generalize drive target deadline waits client = result at hconcludes
  cases hconcludes with
  | met => exact hdrives.eases
  | late => exact hexpire
  | failed => exact hexpire
  | exhausted => exact hexpire

/-- Replacing the list of servers raises no count. -/
theorem eases_installServers {client after : Client ω} {addresses : List ServerAddress}
    (hinstall : client.installServers addresses = .ok after) : client.Eases after := by
  obtain ⟨_, driven, hdrives, hplaced, -⟩ := installServers_drives hinstall
  exact hdrives.eases.trans (hplaced.eases fun _ hmem => nomatch hmem)

/-- **Every call but a reset raises no count, or leaves all links with few enough.** -/
theorem Performs.eases {client after : Client ω} {call : Call} (hreset : call ≠ .resetBuffers)
    (hperforms : client.Performs call after) : client.Eases after := by
  have hissued (ticket : Ticket) : ∀ incident ∈ [Incident.issued ticket], incident.Keeps :=
    List.forall_mem_singleton.mpr fun _ hgives => hgives
  cases hperforms with
  | refused | switched | timed | sunk => exact eases_of_links rfl
  | reset => exact absurd rfl hreset
  | queued hqueue => exact Step.eases (.queued hqueue) (hissued _)
  | @awaited _ timeout _ seq queued hqueue =>
      obtain ⟨ledger, hawait⟩ := queued.await_run seq (client.deadlineOf timeout)
      rw [hawait]
      exact (Step.eases (.queued hqueue) (hissued _)).trans (eases_drive _ _ _ queued)
  | flushed timeout =>
      obtain ⟨ledger, hflush⟩ := client.flush_run timeout
      rw [hflush]
      exact eases_drive _ _ _ client
  | installed hinstall => exact eases_installServers hinstall

omit [Network ω] in
/-- What a reset makes of the links. -/
theorem resets_resetBuffers (client : Client ω) :
    List.Forall₂ Link.Resets client.pool.links client.resetBuffers.pool.links := by
  rw [links_resetBuffers, List.forall₂_map_right_iff]
  exact List.forall₂_same.mpr fun link _ => link.resets_abandon

/-! ## Sessions -/

/-- Books forget no command that was dropped. -/
theorem dropped_grows (books : Books) (seq : Nat) (call : Call) (outcome : Outcome) :
    books.dropped <+: (books.after seq call outcome).dropped := by
  cases call with
  | issue command timeout => cases outcome <;> exact List.prefix_rfl
  | flush timeout => cases outcome <;> exact List.prefix_rfl
  | resetBuffers =>
      refine ⟨books.outstanding, ?_⟩
      show books.discarded.flatten ++ _ = (books.discarded ++ [books.outstanding]).flatten
      rw [List.flatten_append, List.flatten_singleton]
  | _ => exact List.prefix_rfl

/-- **The backlog throughout a session**: at most as many abandoned slots as the limit says, and
one for each command that a reset dropped. -/
theorem Session.abandonedCount_le {net : ω} {config : Config} {start client : Client ω}
    {books : Books} (hconfig : withConfig net config = .ok start)
    (hsession : start.Session books client) :
    ∀ link ∈ client.pool.links, link.abandonedCount ≤ maxAbandoned + books.dropped.length := by
  induction hsession with
  | opened =>
      obtain ⟨-, addresses, -, hinstall⟩ := withConfig_installs hconfig
      intro link hmem
      rcases eases_installServers hinstall link hmem with hfew | ⟨_, hold, -⟩
      · exact hfew
      · cases hold
  | @called books client hsession net call ih =>
      intro link hmem
      by_cases hreset : call = .resetBuffers
      · -- a reset abandons no more on a link than it drops
        subst hreset
        change link ∈ (dropBuffered client.pool.links).1 at hmem
        rw [links_dropBuffered] at hmem
        obtain ⟨old, hold, rfl⟩ := List.mem_map.mp hmem
        have hbefore := ih old hold
        have hcount := old.resets_abandon.count
        have hpart : old.buffered.length ≤ client.buffered.length :=
          (List.sublist_flatten_of_mem (List.mem_map_of_mem hold)).length_le
        have hdropped := (Session.agrees hconfig hsession).accounts.length_eq
        rw [List.length_append] at hdropped
        show _ ≤ maxAbandoned + (books.discarded ++ [books.outstanding]).flatten.length
        rw [List.flatten_append, List.length_append, List.flatten_singleton]
        change _ ≤ maxAbandoned + books.discarded.flatten.length at hbefore
        omega
      · have hmore := (dropped_grows books client.ledger.nextSeq call
          (({ client with net }).perform call).1).length_le
        rcases Performs.eases hreset (performs _ call) link hmem with hfew | ⟨old, hold, -, hless⟩
        · exact Nat.le_trans hfew (Nat.le_add_right _ _)
        · exact Nat.le_trans hless (Nat.le_trans (ih old hold) (Nat.add_le_add_left hmore _))

end Client

/-! ## Commands that pile up -/

namespace Script

/-- A link with one more round trip queued. -/
def pinged (buffering : Bool) (count : Nat) (link : Link) : Link :=
  link.enqueue (trip buffering count).request (trip buffering count).slot

/-- The link on which so many round trips were buffered. -/
def pile : Nat → Link
  | 0 => Link.make home 0
  | count + 1 => pinged true count (pile count)

/-- A link that was never reached for, with so many buffered round trips. -/
structure Piled (count : Nat) (link : Link) : Prop where
  phase : link.phase = .disconnected
  failure : link.lastFailure = none
  written : link.headWritten = 0
  awaiting : link.awaiting = []
  outbound : link.outbound.length = 24 * count
  unsent : link.unsent.length = count
  slots : ∀ slot ∈ link.unsent, slot.frameLength = 24 ∧ slot.delivery = .buffered ∧
    slot.abandoned = false ∧ slot.seq < count

/-- Round trips pile up. -/
theorem piled (count : Nat) : Piled count (pile count) := by
  induction count with
  | zero => exact ⟨rfl, rfl, rfl, rfl, rfl, rfl, fun _ hmem => nomatch hmem⟩
  | succ count ih =>
      refine ⟨ih.phase, ih.failure, ih.written, ih.awaiting, ?_, ?_, ?_⟩
      · show ((pile count).outbound ++ _).length = _
        rw [List.length_append, ih.outbound, Request.length_frame]
        rfl
      · show ((pile count).unsent ++ [_]).length = _
        rw [List.length_append, ih.unsent]
        rfl
      · intro slot hmem
        rcases List.mem_append.mp hmem with hmem | hmem
        · obtain ⟨hlength, hdelivery, hlive, hseq⟩ := ih.slots slot hmem
          exact ⟨hlength, hdelivery, hlive, Nat.lt_succ_of_lt hseq⟩
        · rw [List.mem_singleton.mp hmem]
          exact ⟨rfl, rfl, rfl, Nat.lt_succ_self count⟩

/-- One more round trip is queued. -/
theorem queue_pile (script : Script) (buffering : Bool) (count : Nat) (log : Log) :
    (holding script (entered buffering count) (pile count) log).queue 0 .noop .done
      = .ok (count, (entered buffering count).delivery,
          holding script (entered buffering (count + 1)) (pinged buffering count (pile count))
            log) := by
  have halive : ¬ ((pile count).phase.health = .dead ∧
      !(pile count).isRetryEligible script.clock Config.default.timeouts) := by
    rw [(piled count).phase]
    exact fun hdead => nomatch hdead.1
  exact if_neg halive

/-- As many round trips are buffered as a caller likes. -/
theorem session_pile (script : Script) (count : Nat) :
    ∃ books, script.opened.Session books
      (holding script (entered true count) (pile count) script.opened.log) := by
  induction count with
  | zero => exact ⟨_, (@Client.Session.opened _ _ script.opened).called script (.setBuffering true)⟩
  | succ count ih =>
      obtain ⟨books, hsession⟩ := ih
      have hcalled := hsession.called script (.issue (.noop 0) none)
      have hissue : ((holding script (entered true count) (pile count) script.opened.log).perform
          (.issue (.noop 0) none)).2
          = holding script (entered true (count + 1)) (pile (count + 1)) script.opened.log := by
        rw [(Client.perform_issue _ _ _).1]
        show (Client.dispatch _ 0 .noop .done none).2 = _
        unfold Client.dispatch
        rw [queue_pile]
        rfl
      exact ⟨_, hissue ▸ hcalled⟩

/-- The link when its connect is started. -/
def reaching (link : Link) : Link :=
  { link with
    phase := .connecting 0 Config.default.timeouts.connect
    lastAttempt := some 0
    attempts := link.attempts + 1 }

/-- The link when its connect is established and all frames are taken. -/
def reached (link : Link) : Link :=
  { reaching link with
    phase := .connected 0
    outbound := []
    unsent := []
    awaiting := link.unsent }

/-- All frames that have piled up are taken at once. -/
theorem wrote_pile (count : Nat) :
    ({ reaching (pinged false count (pile count)) with phase := .connected 0 }).wrote
        (reaching (pinged false count (pile count))).outbound.length
      = reached (pinged false count (pile count)) := by
  have hpiled := piled count
  generalize pile count = link at hpiled ⊢
  have hlength : (pinged false count link).outbound.length
      = 24 * (pinged false count link).unsent.length := by
    show (link.outbound ++ _).length = 24 * (link.unsent ++ [_]).length
    rw [List.length_append, List.length_append, hpiled.outbound, hpiled.unsent,
      Request.length_frame]
    rfl
  have hslots : ∀ slot ∈ (pinged false count link).unsent, slot.frameLength = 24 := by
    intro slot hmem
    rcases List.mem_append.mp hmem with hmem | hmem
    · exact (hpiled.slots slot hmem).1
    · rw [List.mem_singleton.mp hmem]
      rfl
  have hwritten : (pinged false count link).headWritten = 0 := hpiled.written
  have hawaiting : (pinged false count link).awaiting = [] := hpiled.awaiting
  have hsplit := Link.splitWritten_all hslots
  rw [← hlength] at hsplit
  generalize pinged false count link = last at hwritten hawaiting hsplit
  unfold Link.wrote reached reaching
  dsimp only
  rw [hwritten, hawaiting, List.take_length, List.drop_length, Nat.zero_add, hsplit]
  rfl

/-- A direct round trip that times out at once writes what has piled up. -/
theorem run_pile (count : Nat) (log : Log) :
    ∃ note, (holding ⟨0, [], []⟩ (entered false (count + 1)) (pinged false count (pile count))
        log).run (.command count) 1
      = (.error .timeout, (holding ⟨1, [], []⟩ (entered false (count + 1))
          (reached (pinged false count (pile count))) note).expire (.command count)) := by
  have hphase : (pinged false count (pile count)).phase = .disconnected := (piled count).phase
  have hfailure : (pinged false count (pile count)).lastFailure = none := (piled count).failure
  have hunsent : (pinged false count (pile count)).unsent ≠ [] :=
    List.append_ne_nil_of_right_ne_nil _ (List.cons_ne_nil _ _)
  have houtbound : (pinged false count (pile count)).outbound ≠ [] :=
    List.append_ne_nil_of_right_ne_nil _ (List.cons_ne_nil _ _)
  have hwrote := wrote_pile count
  generalize pinged false count (pile count) = link at *
  -- the first round starts the connect, and ends in a pause until the deadline
  obtain ⟨begun, hbegun⟩ := makeProgress_disconnected hphase hfailure hunsent ⟨0, [], []⟩ log 0
    Config.default.timeouts
  have hfirst : (holding ⟨0, [], []⟩ (entered false (count + 1)) link log).pushed
      = holding ⟨0, [], []⟩ (entered false (count + 1)) (reaching link) begun :=
    makeProgress_holding hbegun
  have hpauses : (holding ⟨0, [], []⟩ (entered false (count + 1)) link log).Pauses
      (.command count) 1 := ⟨by rw [hfirst]; rfl, Nat.one_pos⟩
  have hpause : ((holding ⟨0, [], []⟩ (entered false (count + 1)) link log).pause 1)
      = { client := holding ⟨0, [], []⟩ (entered false (count + 1)) (reaching link) begun
          time := 1
          outcome := .ready []
          net := ⟨1, [], []⟩ } := by
    unfold Client.pause
    rw [hfirst]
    rfl
  -- the second round establishes it, and finds the deadline passed
  obtain ⟨note, hnote⟩ := @makeProgress_connecting (reaching link) _ rfl houtbound ⟨1, [], []⟩ begun 1
    Config.default.timeouts
  rw [hwrote] at hnote
  have hsecond : (holding ⟨1, [], []⟩ (entered false (count + 1)) (reaching link) begun).pushed
      = holding ⟨1, [], []⟩ (entered false (count + 1)) (reached link) note :=
    makeProgress_holding hnote
  refine ⟨note, ?_⟩
  show Client.drive (.command count) 1 (1 + 1) _ = _
  rw [hpauses.drive_succ, hpause]
  show Client.drive (.command count) 1 1
    (holding ⟨1, [], []⟩ (entered false (count + 1)) (reaching link) begun) = _
  rw [Client.drive_late (by rw [hsecond]; rfl) (Nat.le_refl 1), hsecond]
  rfl

/-- What a direct round trip leaves that timed out: it is given up, and what has piled up waits
for replies. -/
theorem issue_pile (count : Nat) (log : Log) :
    ∃ link, ((holding ⟨0, [], []⟩ (entered false count) (pile count) log).perform
        (.issue (.noop 0) (some 1))).2.pool.links = [link] ∧
      link.phase = .connected 0 ∧ link.abandonedCount ≤ maxAbandoned ∧
      ∃ slot, link.awaiting = (pile count).unsent ++ [slot] := by
  obtain ⟨note, hrun⟩ := run_pile count log
  have hissue : ((holding ⟨0, [], []⟩ (entered false count) (pile count) log).perform
      (.issue (.noop 0) (some 1))).2
      = (holding ⟨1, [], []⟩ (entered false (count + 1))
          (reached (pinged false count (pile count))) note).expire (.command count) := by
    rw [(Client.perform_issue _ _ _).1]
    show (Client.dispatch _ 0 .noop .done (some 1)).2 = _
    unfold Client.dispatch
    rw [queue_pile]
    show (Client.await _ count 1).2 = _
    unfold Client.await
    rw [hrun]
  have hawaiting : ((reached (pinged false count (pile count))).abandon
        (Target.covers (.command count))).1.awaiting
      = (pile count).unsent ++ [Link.abandonIf (Target.covers (.command count))
          ((entered false count).slotFor .noop .done)] := by
    show ((pile count).unsent ++ [_]).map (Link.abandonIf (Target.covers (.command count))) = _
    rw [List.map_append, List.map_singleton]
    refine congrArg (· ++ _) (.trans (List.map_congr_left fun slot hmem => ?_) (List.map_id _))
    have hother : slot.seq ≠ count := Nat.ne_of_lt ((piled count).slots slot hmem).2.2.2
    exact if_neg (by simp [Target.covers, hother])
  have hfew : ((reached (pinged false count (pile count))).abandon
      (Target.covers (.command count))).1.abandonedCount ≤ maxAbandoned := by
    refine Nat.le_trans (Nat.le_of_eq (congrArg (List.countP _) hawaiting)) ?_
    rw [List.countP_append, List.countP_eq_zero.mpr fun slot hmem => by
      simp [((piled count).slots slot hmem).2.2.1]]
    exact Nat.le_trans (Nat.add_le_add_left List.countP_le_length 0)
      (by decide : 0 + 1 ≤ maxAbandoned)
  have hsheds := Client.expire_sheds (holding ⟨1, [], []⟩ (entered false (count + 1))
    (reached (pinged false count (pile count))) note) (.command count)
  obtain ⟨after, rest, hlink, hnone, hlinks⟩ := List.forall₂_cons_left_iff.mp hsheds
  cases List.forall₂_nil_left_iff.mp hnone
  rw [hissue]
  refine ⟨after, hlinks, ?_⟩
  cases hlink with
  | stays hafter =>
      rw [hafter]
      exact ⟨rfl, hfew, _, hawaiting⟩
  | torn _ hmany => exact absurd hmany (Nat.not_lt.mpr hfew)

/-- **A reset leaves any number of abandoned slots on a connected link**: those of buffered
commands that were written while another call waited. -/
theorem reset_pile (count : Nat) :
    ∃ books client, (Script.mk 0 [] []).opened.Session books client ∧
      (∀ link ∈ client.pool.links, link.abandonedCount ≤ maxAbandoned) ∧
      ∃ link ∈ (client.perform .resetBuffers).2.pool.links,
        link.phase.health = .connected ∧ count ≤ link.abandonedCount := by
  obtain ⟨books, hsession⟩ := session_pile ⟨0, [], []⟩ count
  have hdirect := (hsession.called ⟨0, [], []⟩ (.setBuffering false)).called ⟨0, [], []⟩
    (.issue (.noop 0) (some 1))
  obtain ⟨link, hlinks, hphase, hfew, slot, hawaiting⟩ :=
    issue_pile count (Script.mk 0 [] []).opened.log
  refine ⟨_, _, hdirect, ?_, (link.abandon fun slot => slot.delivery = .buffered).1, ?_, ?_, ?_⟩
  · intro other hmem
    rw [show other = link from List.mem_singleton.mp (hlinks ▸ hmem)]
    exact hfew
  · show _ ∈ (Client.dropBuffered _).1
    rw [Client.links_dropBuffered]
    exact List.mem_map_of_mem (hlinks.symm ▸ List.mem_singleton_self link)
  · show Phase.health link.phase = _
    rw [hphase]
    rfl
  · -- every buffered command that waits for its reply is given up
    have hgiven : (((pile count).unsent.map
        (Link.abandonIf fun slot => slot.delivery = .buffered)).countP (·.abandoned)) = count := by
      refine (List.countP_eq_length.mpr ?_).trans ((List.length_map _).trans (piled count).unsent)
      refine List.forall_mem_map.mpr fun other hmem => ?_
      obtain ⟨-, hbuffered, hlive, -⟩ := (piled count).slots other hmem
      simp [Link.abandonIf, Slot.isLive, hlive, hbuffered]
    show count ≤ List.countP _ (_ ++ link.awaiting.map _)
    rw [hawaiting, List.map_append, List.countP_append, List.countP_append]
    omega

end Script

/-! ## The bound -/

namespace Client

variable {ω : Type} [Network ω]

/-- **The backlog is bounded, but for resets.** Throughout a session no link carries more
abandoned slots than the limit says and one for each command that a reset has dropped.  A call
other than a reset leaves every link with few enough, or with no more than it carried before.
Giving up, in any state, looks at every link: one with too many abandoned slots is dead
afterwards, and the others stay.  A reset gives up on what is buffered and leaves the phase of
every link as it is. -/
theorem backlog_bounded {net : ω} {config : Config} {start client : Client ω} {books : Books}
    (hconfig : withConfig net config = .ok start) (hsession : start.Session books client) :
    (∀ link ∈ client.pool.links, link.abandonedCount ≤ maxAbandoned + books.dropped.length) ∧
    (∀ (net : ω) (call : Call), call ≠ .resetBuffers →
      ∀ link ∈ (({ client with net }).perform call).2.pool.links,
        link.abandonedCount ≤ maxAbandoned ∨
          ∃ old ∈ client.pool.links, old.token = link.token ∧
            link.abandonedCount ≤ old.abandonedCount) ∧
    (∀ (busy : Client ω) (target : Target),
      List.Forall₂ (Link.Sheds target) busy.pool.links (busy.expire target).pool.links) ∧
    List.Forall₂ Link.Resets client.pool.links client.resetBuffers.pool.links :=
  ⟨Session.abandonedCount_le hconfig hsession,
    fun net call hother => @Performs.eases ω _ { client with net } _ call hother (performs _ call),
    expire_sheds, client.resets_resetBuffers⟩

/-- A client that has piled up round trips and lets a direct one time out carries few enough. -/
theorem backlog_bounded_piled : ∃ books client, (Script.mk 0 [] []).opened.Session books client ∧
    ∀ link ∈ client.pool.links, link.abandonedCount ≤ maxAbandoned + books.dropped.length := by
  obtain ⟨books, client, hsession, -⟩ := Script.reset_pile 33
  exact ⟨books, client, hsession, (backlog_bounded (Script.withConfig_opened _) hsession).1⟩

/-- **A reset can leave a connected link with too many abandoned slots**: the caller buffers
thirty-three round trips, a direct one that times out writes their frames, and the reset gives
them up. Each link carried few enough before. -/
theorem reset_exceeds_backlog :
    ∃ books client, (Script.mk 0 [] []).opened.Session books client ∧
      (∀ link ∈ client.pool.links, link.abandonedCount ≤ maxAbandoned) ∧
      ∃ link ∈ (client.perform .resetBuffers).2.pool.links,
        link.phase.health = .connected ∧ maxAbandoned < link.abandonedCount := by
  obtain ⟨books, client, hsession, hbefore, link, hmem, hconnected, hmany⟩ := Script.reset_pile 33
  exact ⟨books, client, hsession, hbefore, link, hmem, hconnected, hmany⟩

end Client

end CachePool
