/-
# No command is lost or doubled

Every accepted command is, in every state, in exactly one place: someone waits for it on
one link, or it has ended, or it was given up without a result.  The places are counted:
the commands of a link before a step are those after it and those that ended or were given
up in it, and so on for a client.

* `Link.Step.conserves` : a step of a link;
* `Client.Step.conserves` : a step of a client;
* `Client.Reaches.conserves` : every state that is reached.
-/
import CachePool.Proofs.Links

namespace CachePool

/-! ## Commands someone waits for -/

/-- The live slots of a queue, as they were issued. -/
def live (slots : List Slot) : List Slot :=
  (slots.filter Slot.isLive).map Slot.original

@[simp] theorem live_nil : live [] = [] := rfl

@[simp] theorem live_append (front back : List Slot) :
    live (front ++ back) = live front ++ live back := by
  rw [live, List.filter_append, List.map_append, live, live]

theorem live_cons_of_live {slot : Slot} (hlive : slot.isLive = true) (slots : List Slot) :
    live (slot :: slots) = slot.original :: live slots := by
  rw [live, List.filter_cons_of_pos hlive, List.map_cons, live]

theorem live_cons_of_not_live {slot : Slot} (hlive : ¬ slot.isLive = true) (slots : List Slot) :
    live (slot :: slots) = live slots := by
  rw [live, List.filter_cons_of_neg hlive, live]

/-- A slot that is alive, whatever its statistics. -/
theorem live_cons_congr {slot other : Slot} (hlive : slot.isLive = other.isLive)
    (horiginal : slot.original = other.original) (slots : List Slot) :
    live (slot :: slots) = live (other :: slots) := by
  by_cases hslot : slot.isLive = true
  · rw [live_cons_of_live hslot, live_cons_of_live (hlive ▸ hslot), horiginal]
  · rw [live_cons_of_not_live hslot, live_cons_of_not_live (hlive ▸ hslot)]

/-- The slots of commands that ended, as they were issued. -/
def endedSlots (finished : List Finished) : List Slot :=
  finished.map fun ended => ended.slot.original

@[simp] theorem endedSlots_append (front back : List Finished) :
    endedSlots (front ++ back) = endedSlots front ++ endedSlots back :=
  List.map_append

/-- More replies belong to a command only when they are statistics; then one more text is
known. -/
theorem Slot.accept_more {slot more : Slot} {response : Response}
    (haccept : slot.accept response = .more more) :
    slot.expect = .stats ∧ response.status.isSuccess = true ∧ response.endsStats = false ∧
      more = { slot with
        stats := slot.stats.insert (Utf8.decodeLossy response.key)
          (Utf8.decodeLossy response.value) } := by
  unfold accept at haccept
  split at haccept
  · cases haccept
  rename_i hsuccess
  split at haccept
  · cases haccept
  · cases haccept
  · cases haccept
  · split at haccept <;> cases haccept
  rename_i hexpect
  split at haccept
  · cases haccept
  rename_i hends
  cases haccept
  exact ⟨hexpect, by simpa using hsuccess, by simpa using hends, rfl⟩

namespace Link

/-- The commands of a link that someone waits for, as they were issued. -/
def waiting (link : Link) : List Slot :=
  live link.unsent ++ live link.awaiting

/-- Ending the live commands among slots ends all of them. -/
theorem endedSlots_finishLive (link : Link) (error : ClientError) (slots : List Slot) :
    endedSlots (link.finishLive error slots) = live slots := by
  rw [endedSlots, finishLive, List.map_map, live]
  rfl

/-- Tearing a link down ends every command that someone waits for. -/
theorem endedSlots_casualties (link : Link) (failure : Failure) :
    endedSlots (link.casualties failure) = live link.awaiting ++ live link.unsent := by
  rw [← live_append]
  unfold casualties
  split
  · rename_i hnone
    rw [live, hnone]
    rfl
  · rename_i first others hsome
    have hall : ∀ slot ∈ first :: others, slot.isLive = true := by
      intro slot hmem
      rw [← hsome] at hmem
      exact (List.mem_filter.mp hmem).2
    rw [endedSlots_append, endedSlots_finishLive, endedSlots_finishLive, ← live_append, live, live,
      hsome, List.singleton_append, List.filter_eq_self.mpr hall]

/-- A command that is queued waits. -/
theorem waiting_enqueue (link : Link) (request : Request) (slot : Slot)
    (hlive : slot.isLive = true) (horiginal : slot.original = slot) :
    (link.enqueue request slot).waiting.Perm (link.waiting ++ [slot]) := by
  show (live (link.unsent ++ [slot]) ++ live link.awaiting).Perm
    (live link.unsent ++ live link.awaiting ++ [slot])
  rw [live_append, live_cons_of_live hlive, horiginal, live_nil, List.append_assoc,
    List.append_assoc]
  exact List.perm_append_comm.append_left _

/-! ## Replies -/

/-- A reply either leaves its command waiting or ends it. -/
theorem conserves_matchReply {link next : Link} {response : Response} {finished : List Finished}
    (hmatch : link.matchReply response = .ok (next, finished)) :
    live link.awaiting = endedSlots finished ++ live next.awaiting := by
  unfold matchReply at hmatch
  split at hmatch
  · cases hmatch
  rename_i slot rest hqueue
  split at hmatch
  · cases hmatch
  split at hmatch
  · cases hmatch
  rw [hqueue]
  split at hmatch
  · rename_i more haccept
    cases hmatch
    obtain ⟨-, -, -, rfl⟩ := Slot.accept_more haccept
    have hsame (stats : Stats) : live (slot :: rest) = live ({ slot with stats } :: rest) :=
      @live_cons_congr slot { slot with stats } rfl rfl rest
    exact hsame _
  · rename_i result haccept
    cases hmatch
    split
    · rename_i hlive
      rw [live_cons_of_live hlive]
      rfl
    · rename_i hdead
      rw [live_cons_of_not_live hdead]
      rfl

/-- Replies either leave their commands waiting or end them. -/
theorem Answers.conserves {link last : Link} {responses : List Response} {incidents : Trace}
    (hanswers : Answers link responses incidents last) :
    live link.awaiting = endedSlots incidents.endings ++ live last.awaiting := by
  induction hanswers with
  | nil => rfl
  | cons hqueue hmatch hothers ih =>
      rw [conserves_matchReply hmatch, ih, Trace.endings_append, Trace.endings_cons,
        Trace.endings_map_ended, endedSlots_append, List.append_assoc]
      rfl

/-- Giving replies gives up nothing. -/
theorem Answers.drops {link last : Link} {responses : List Response} {incidents : Trace}
    (hanswers : Answers link responses incidents last) : incidents.drops = [] := by
  induction hanswers with
  | nil => rfl
  | cons hqueue hmatch hothers ih =>
      rw [Trace.drops_append, ih, Trace.drops_cons, drops_map_ended]
      rfl

/-! ## Giving up -/

/-- A slot that was given up is not alive. -/
theorem live_cons_abandoned (slot : Slot) (slots : List Slot) :
    live ({ slot with abandoned := true } :: slots) = live slots :=
  live_cons_of_not_live (by simp [Slot.isLive]) slots

/-- A sweep keeps the live slots that it does not give up on. -/
theorem conserves_sweep (condition : Slot → Bool) (written : Nat) (slots : List Slot)
    (octets : Bytes) :
    (live slots).Perm
      (live (sweep condition written slots octets).kept
        ++ (sweep condition written slots octets).dropped.map Slot.original) := by
  induction slots generalizing written octets with
  | nil => exact .refl _
  | cons slot slots ih =>
      have hbehind := ih 0 (octets.drop (slot.frameLength - written))
      unfold sweep
      dsimp only
      split
      · by_cases hlive : slot.isLive = true
        · rw [live_cons_of_live hlive, live_cons_of_live hlive, List.cons_append]
          exact hbehind.cons _
        · rw [live_cons_of_not_live hlive, live_cons_of_not_live hlive]
          exact hbehind
      · rename_i hgiven
        have hlive : slot.isLive = true := by
          by_contra hdead
          exact hgiven (by simp [hdead])
        rw [live_cons_of_live hlive]
        split
        · rw [live_cons_abandoned, List.map_cons]
          exact (hbehind.cons _).trans List.perm_middle.symm
        · rw [List.map_cons]
          exact (hbehind.cons _).trans List.perm_middle.symm

/-- Marking slots as given up leaves the other live ones. -/
theorem conserves_abandonIf (condition : Slot → Bool) (slots : List Slot) :
    (live slots).Perm
      (live (slots.map (abandonIf condition))
        ++ (slots.filter fun slot => slot.isLive && condition slot).map Slot.original) := by
  induction slots with
  | nil => exact .refl _
  | cons slot slots ih =>
      by_cases hgiven : (slot.isLive && condition slot) = true
      · have hlive : slot.isLive = true := (Bool.and_eq_true_iff.mp hgiven).1
        rw [live_cons_of_live hlive, List.map_cons, abandonIf, if_pos hgiven, live_cons_abandoned,
          List.filter_cons, if_pos hgiven, List.map_cons]
        exact (ih.cons _).trans List.perm_middle.symm
      · rw [List.map_cons, abandonIf, if_neg hgiven, List.filter_cons, if_neg hgiven]
        by_cases hlive : slot.isLive = true
        · rw [live_cons_of_live hlive, live_cons_of_live hlive, List.cons_append]
          exact ih.cons _
        · rw [live_cons_of_not_live hlive, live_cons_of_not_live hlive]
          exact ih

/-- Giving up on slots leaves the other live ones. -/
theorem conserves_abandon (link : Link) (condition : Slot → Bool) :
    link.waiting.Perm
      ((link.abandon condition).1.waiting ++ (link.abandon condition).2.map Slot.original) := by
  have hunsent := conserves_sweep condition link.headWritten link.unsent link.outbound
  have hawaiting := conserves_abandonIf condition link.awaiting
  rw [List.perm_iff_count] at hunsent hawaiting ⊢
  intro slot
  have hfirst := hunsent slot
  have hsecond := hawaiting slot
  simp only [waiting, abandon, List.map_append, List.count_append] at *
  omega

/-- What giving up at a deadline ends or drops are the slots given up on. -/
theorem expiry_slots (link : Link) (target : Target) {given : List Slot}
    (hlive : ∀ slot ∈ given, slot.isLive = true) :
    (endedSlots (link.expiry target given).endings
      ++ (link.expiry target given).drops.map Slot.original) = given.map Slot.original := by
  cases target with
  | command seq =>
      dsimp only [expiry]
      rw [endings_map_dropped, drops_map_dropped]
      rfl
  | allBuffered =>
      dsimp only [expiry]
      rw [Trace.endings_map_ended, drops_map_ended, endedSlots_finishLive, live,
        List.filter_eq_self.mpr hlive, List.map_nil, List.append_nil]

/-! ## Steps of a link -/

variable {ω : Type} [Network ω] {now : Nat} {timeouts : Timeouts} {link after : Link}
  {net last : ω} {incidents : Trace}

/-- The commands that a loss leaves to be torn down, and those that ended before. -/
theorem Loses.conserves {losing : Link} {failure : Failure}
    (hloses : Loses now timeouts link net incidents losing failure last) :
    link.waiting = live losing.unsent ++ (endedSlots incidents.endings ++ live losing.awaiting) ∧
      incidents.drops = [] := by
  cases hloses with
  | @refusing _ _ ending _ _ _ _ _ _ _ _ _ _ hanswers =>
      have hawaiting := hanswers.conserves
      rw [Trace.endings_append, Trace.endings_cons, endings_report, Trace.drops_append,
        Trace.drops_cons, drops_report, hanswers.drops]
      refine ⟨?_, rfl⟩
      rw [waiting, show link.awaiting = (link.receiving _).awaiting from rfl, hawaiting,
        hanswers.eq]
      rfl
  | _ => exact ⟨rfl, rfl⟩

/-- The commands of a link before a step are those after it, and those that the step ends
or gives up. -/
theorem Step.conserves (hstep : link.Step now timeouts net incidents after last) :
    link.waiting.Perm
      (after.waiting ++ (endedSlots incidents.endings ++ incidents.drops.map Slot.original)) := by
  have hsame : link.waiting.Perm (link.waiting ++ ([] ++ [])) := by
    rw [List.append_nil, List.append_nil]
  cases hstep with
  | quiet => exact hsame
  | opened => exact hsame
  | established => exact hsame
  | examined => exact hsame
  | @took socket count _ hphase hwrite hcount =>
      have hunsent :=
        append_splitWritten (link.headWritten + (link.outbound.take count).length) link.unsent
      rw [Trace.endings_cons, endings_map_sent, Trace.drops_cons, drops_map_sent]
      show (live link.unsent ++ live link.awaiting).Perm
        ((live _ ++ live (link.awaiting ++ link.finishedBy count)) ++ ([] ++ []))
      rw [← hunsent, live_append, live_append, List.append_nil, List.append_nil, List.append_assoc]
      apply List.perm_append_comm.trans
      rw [List.append_assoc]
      exact .refl _
  | @received _ octets _ _ _ hphase hread hfault hanswers =>
      rw [Trace.endings_cons, Trace.drops_cons, hanswers.drops, waiting,
        show link.awaiting = (link.receiving octets).awaiting from rfl, hanswers.conserves,
        hanswers.eq]
      show (live link.unsent ++ (_ ++ _)).Perm ((live link.unsent ++ _) ++ (_ ++ []))
      rw [List.append_nil, List.append_assoc]
      exact List.perm_append_comm.append_left _
  | lost hloses =>
      obtain ⟨hwaiting, hdrops⟩ := hloses.conserves
      rw [hwaiting, Trace.endings_append, endings_loss, Trace.drops_append, hdrops, drops_loss,
        endedSlots_append, endedSlots_casualties]
      show (live _ ++ (_ ++ live _)).Perm ([] ++ (_ ++ (live _ ++ live _) ++ []))
      rw [List.append_nil, List.nil_append]
      apply List.perm_append_comm.trans
      rw [List.append_assoc]
  | retired =>
      rw [endings_loss, drops_loss, endedSlots_casualties]
      show (live _ ++ live _).Perm ([] ++ (live _ ++ live _ ++ []))
      rw [List.append_nil, List.nil_append]
      exact List.perm_append_comm
  | shortCircuited =>
      rw [Trace.endings_map_ended, drops_map_ended, endedSlots_finishLive]
      show (live _ ++ live _).Perm (([] ++ live _) ++ (live _ ++ []))
      rw [List.append_nil, List.nil_append]
      exact List.perm_append_comm
  | expired target =>
      rw [expiry_slots _ target fun slot hmem => (mem_abandon hmem).2.1]
      exact conserves_abandon link target.covers
  | discarded =>
      rw [endings_map_dropped, drops_map_dropped]
      exact conserves_abandon link fun slot => slot.delivery = .buffered

end Link

/-! ## Placing links -/

namespace Pool

/-- The commands that wait on the link to an address. -/
def waitingAt (links : List Link) (address : ServerAddress) : List Slot :=
  match links.find? (·.server.address = address) with
  | some link => link.waiting
  | none => []

/-- Placed links carry the commands of the links to their addresses. -/
theorem waiting_place (existing : List Link) (index : Nat) (token : Token)
    (addresses : List ServerAddress) :
    (place existing index token addresses).1.flatMap Link.waiting
      = addresses.flatMap (waitingAt existing) := by
  induction addresses generalizing index token with
  | nil => rfl
  | cons address addresses ih =>
      unfold place
      rw [List.flatMap_cons, waitingAt]
      cases existing.find? (·.server.address = address) with
      | none =>
          dsimp only
          rw [List.flatMap_cons, ih]
          rfl
      | some link =>
          dsimp only
          rw [List.flatMap_cons, ih]
          rfl

/-- The addresses of placed links are those of the list. -/
theorem addresses_place (existing : List Link) (index : Nat) (token : Token)
    (addresses : List ServerAddress) :
    (place existing index token addresses).1.map (·.server.address) = addresses := by
  have hservers := congrArg (List.map (·.address)) (servers_place existing index token addresses)
  rw [List.map_map, List.map_map] at hservers
  exact hservers.trans (List.zipIdx_map_fst index addresses)

/-- Commands are found at the addresses of their links, if every link on which commands
wait is listed. -/
theorem waiting_listed {links : List Link} {addresses : List ServerAddress}
    (hapart : (links.map (·.server.address)).Nodup) (hdistinct : addresses.Nodup)
    (hvacant : ∀ link ∈ links, link.server.address ∉ addresses → link.Vacant) :
    (links.flatMap Link.waiting).Perm (addresses.flatMap (waitingAt links)) := by
  induction links with
  | nil =>
      have hnone : addresses.flatMap (waitingAt []) = [] :=
        List.flatMap_eq_nil_iff.mpr fun _ _ => rfl
      rw [hnone]
      exact .refl _
  | cons link links ih =>
      obtain ⟨hnew, hapart⟩ := List.nodup_cons.mp hapart
      have hrest := ih hapart fun other hmem => hvacant other (List.mem_cons_of_mem _ hmem)
      have hother {address : ServerAddress} (hne : link.server.address ≠ address) :
          waitingAt (link :: links) address = waitingAt links address := by
        rw [waitingAt, List.find?_cons_of_neg (by simpa using hne), ← waitingAt]
      rw [List.flatMap_cons]
      -- a listed link is found at its own address and at no other
      by_cases hlisted : link.server.address ∈ addresses
      · obtain ⟨front, back, rfl⟩ := List.append_of_mem hlisted
        have hself : waitingAt (link :: links) link.server.address = link.waiting := by
          rw [waitingAt, List.find?_cons_of_pos (by simp)]
        have hnothing : waitingAt links link.server.address = [] := by
          rw [waitingAt, List.find?_eq_none.mpr]
          intro other hmem haddress
          exact hnew (List.mem_map.mpr ⟨other, hmem, by simpa using haddress⟩)
        rw [List.nodup_middle, List.nodup_cons] at hdistinct
        have hsame (part : List ServerAddress) (hpart : ∀ address ∈ part, address ∈ front ++ back) :
            part.flatMap (waitingAt (link :: links)) = part.flatMap (waitingAt links) := by
          refine List.flatMap_congr fun address hmem => hother ?_
          rintro rfl
          exact hdistinct.1 (hpart _ hmem)
        rw [List.flatMap_append, List.flatMap_cons, hnothing] at hrest
        rw [List.flatMap_append, List.flatMap_cons, hself,
          hsame front fun _ hmem => List.mem_append_left _ hmem,
          hsame back fun _ hmem => List.mem_append_right _ hmem]
        exact (hrest.append_left _).trans (List.perm_append_comm_assoc _ _ _)
      · have hnothing : link.waiting = [] := by
          have hempty := hvacant link List.mem_cons_self hlisted
          rw [Link.waiting, hempty.unsent, hempty.awaiting]
          rfl
        rw [hnothing, List.nil_append]
        refine hrest.trans (.of_eq ?_)
        refine List.flatMap_congr fun address hmem => (hother ?_).symm
        rintro rfl
        exact hlisted hmem

end Pool

/-! ## Steps of a client -/

namespace Client

variable {ω : Type}

/-- The commands that someone waits for, as they were issued. -/
def waiting (client : Client ω) : List Slot :=
  client.pool.links.flatMap Link.waiting

/-- No two links lead to one server. -/
def Apart (client : Client ω) : Prop :=
  (client.pool.links.map (·.server.address)).Nodup

/-- When one link is replaced, the other commands stay. -/
theorem waiting_replace {front back : List Link} {before after : Link} {ended : List Slot}
    (hlink : before.waiting.Perm (after.waiting ++ ended)) :
    ((front ++ before :: back).flatMap Link.waiting).Perm
      ((front ++ after :: back).flatMap Link.waiting ++ ended) := by
  rw [List.flatMap_append, List.flatMap_cons, List.flatMap_append, List.flatMap_cons,
    List.append_assoc, List.append_assoc]
  refine List.Perm.append_left _ ((hlink.append_right _).trans ?_)
  rw [List.append_assoc]
  exact List.perm_append_comm.append_left _

variable [Network ω]

/-- The servers stay apart. -/
theorem Step.apart {incidents : Trace} {client after : Client ω} (hapart : client.Apart)
    (hstep : client.Step incidents after) : after.Apart := by
  unfold Apart at hapart ⊢
  cases hstep with
  | move hmove =>
      cases hmove with
      | link hlinks hstep =>
          rw [hlinks] at hapart
          simpa only [List.map_append, List.map_cons, hstep.token.2.1] using hapart
      | waited => exact hapart
      | noted => exact hapart
  | queued hqueue =>
      obtain ⟨front, link, back, hlinks, -, -, -, rfl⟩ := queue_cases hqueue
      rw [hlinks, List.map_append] at hapart
      rw [List.map_append]
      exact hapart
  | placed hsome hdistinct hvacant =>
      rw [Pool.addresses_place]
      exact Pool.firstDuplicate?_nil_iff.mp hdistinct
  | collected => exact hapart
  | emptied => exact hapart
  | adjusted => exact hapart

/-- **Conservation.** The commands before a step and the one it accepts are those after it
and those that the step ends or gives up. -/
theorem Step.conserves {incidents : Trace} {client after : Client ω} (hapart : client.Apart)
    (hstep : client.Step incidents after) :
    (client.waiting ++ incidents.tickets.map (·.slot)).Perm
      (after.waiting ++ (endedSlots incidents.endings ++ incidents.drops.map Slot.original)) := by
  have hsame : (client.waiting ++ []).Perm (client.waiting ++ ([] ++ [])) := .refl _
  cases hstep with
  | move hmove =>
      cases hmove with
      | link hlinks hstep =>
          rw [Trace.tickets_of_about hstep.about, List.map_nil, List.append_nil, waiting, hlinks]
          exact waiting_replace hstep.conserves
      | waited => exact hsame
      | noted => exact hsame
  | @queued server seq command delivery _ hqueue =>
      obtain ⟨front, link, back, hlinks, -, -, -, rfl⟩ := queue_cases hqueue
      rw [waiting, hlinks]
      show ((front ++ link :: back).flatMap Link.waiting ++ [(client.nextTicket command).slot]).Perm
        (_ ++ ([] ++ []))
      rw [List.append_nil, List.append_nil]
      exact (waiting_replace (Link.waiting_enqueue link (client.nextTicket command).request
        (client.nextTicket command).slot rfl rfl)).symm
  | placed hsome hdistinct hvacant =>
      have hlisted := Pool.waiting_listed hapart (Pool.firstDuplicate?_nil_iff.mp hdistinct) hvacant
      rw [← Pool.waiting_place client.pool.links 0 client.pool.nextToken] at hlisted
      show (client.waiting ++ []).Perm (_ ++ ([] ++ []))
      rw [List.append_nil, List.append_nil, List.append_nil]
      exact hlisted
  | collected => exact hsame
  | emptied => exact hsame
  | adjusted => exact hsame

/-- **Every accepted command is in one place.** Someone waits for it on one link, or it
has ended once, or it was given up once. -/
theorem Reaches.conserves {timeouts : Timeouts} {buffering : Bool} {net : ω} {trace : Trace}
    {client : Client ω} (hreach : (blank timeouts buffering net).Reaches trace client) :
    client.Apart ∧
      (trace.tickets.map (·.slot)).Perm
        (client.waiting ++ (endedSlots trace.endings ++ trace.drops.map Slot.original)) := by
  induction hreach with
  | start => exact ⟨List.nodup_nil, .refl _⟩
  | elapsed _ _ ih => exact ih
  | @step client after trace incidents hreach hstep ih =>
      obtain ⟨hapart, hbefore⟩ := ih
      refine ⟨hstep.apart hapart, ?_⟩
      have hnow := hstep.conserves hapart
      rw [List.perm_iff_count] at hbefore hnow ⊢
      intro slot
      have hfirst := hbefore slot
      have hsecond := hnow slot
      simp only [Trace.tickets_append, Trace.endings_append, Trace.drops_append, List.map_append,
        endedSlots_append, List.count_append] at *
      omega

/-- No place in the order of issue is taken twice: by a command that someone waits for, by
one that ended, or by one that was given up. -/
theorem Reaches.nodup_places {timeouts : Timeouts} {buffering : Bool} {net : ω} {trace : Trace}
    {client : Client ω} (hreach : (blank timeouts buffering net).Reaches trace client) :
    (client.waiting.map (·.seq)
      ++ (trace.endings.map (·.slot.seq) ++ trace.drops.map (·.seq))).Nodup := by
  obtain ⟨-, hconserves⟩ := hreach.conserves
  have hseqs := hconserves.map Slot.seq
  rw [List.map_map] at hseqs
  have hnodup := hseqs.nodup_iff.mp hreach.ordered.nodup
  rw [List.map_append, List.map_append, endedSlots, List.map_map, List.map_map] at hnodup
  exact hnodup

end Client

end CachePool
