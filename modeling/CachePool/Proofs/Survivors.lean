/-
# Servers that stay and servers that leave

Replacing the list of servers is all or nothing.  A link to a server that stays is carried over
as it is, to its new place; a link to a server that leaves is closed, and the commands that wait
on it end, each once.  Its token is never given to another link, so what the poller still tells
about its socket reaches nobody.

The order in which links are closed is left open.  It can be seen in the log alone: the outcomes
of the commands are sorted when they are flushed.

* `Link.removals`, `Client.Idle.ledger_relist` : the outcomes of the commands of closed links;
* `Client.Gone` : a token that no link has, and that none will get;
* `Client.Relisted` : what replacing the list makes of a client;
* `Client.relisting_exact` : it makes this of it, or nothing.
-/
import CachePool.Proofs.Alike
import CachePool.Proofs.Directs

namespace CachePool

/-! ## Links that are closed -/

/-- The outcomes of the commands that someone waits for when the server of a link leaves. -/
def Link.removals (link : Link) : List (Nat × Completion) :=
  ((link.awaiting ++ link.unsent).filter Slot.isLive).map fun slot =>
    (slot.seq, {
      server := link.server.index
      opcode := slot.opcode
      key := slot.key
      result := .error (.connection link.address "server removed from pool") })

namespace Link

/-- The commands of a link whose server leaves end with one error. -/
theorem casualties_removed (link : Link) :
    link.casualties .removed
      = link.finishLive (link.connectionError Failure.removed.message)
          (link.awaiting ++ link.unsent) := by
  have hfilter (slots : List Slot) : link.finishLive (link.connectionError Failure.removed.message)
      (slots.filter Slot.isLive)
        = link.finishLive (link.connectionError Failure.removed.message) slots := by
    rw [finishLive, List.filter_filter, finishLive]
    simp
  rw [← hfilter]
  unfold casualties
  split
  · rename_i hnone
    rw [hnone]
    rfl
  · rename_i first others hsome
    have herror : link.firstError .removed = link.connectionError Failure.removed.message := rfl
    rw [hsome, herror, finishLive, finishLive, finishLive, ← List.map_append, ← List.filter_append]
    rfl

end Link

/-- The outcome of a buffered command, with its place in the order of issue. -/
def Finished.outcome (finished : Finished) : Nat × Completion :=
  (finished.slot.seq, {
    server := finished.server
    opcode := finished.slot.opcode
    key := finished.slot.key
    result := finished.result })

/-- Closing a link gives the outcomes of its commands. -/
theorem Link.outcome_casualties (link : Link) :
    (link.casualties .removed).map Finished.outcome = link.removals := by
  rw [casualties_removed, finishLive, List.map_map]
  rfl

/-- The outcomes of buffered commands are kept for the next flush. -/
theorem Ledger.absorb_buffered {finished : List Finished}
    (hbuffered : ∀ first ∈ finished, first.slot.delivery = .buffered) (ledger : Ledger) :
    ledger.absorb finished
      = { ledger with completed := ledger.completed ++ finished.map Finished.outcome } := by
  induction finished generalizing ledger with
  | nil =>
      rw [List.map_nil, List.append_nil]
      rfl
  | cons first others ih =>
      obtain ⟨hfirst, hothers⟩ := List.forall_mem_cons.mp hbuffered
      have hrecord : ledger.record first
          = { ledger with completed := ledger.completed ++ [first.outcome] } := by
        unfold record
        dsimp only
        rw [hfirst]
        rfl
      show (ledger.record first).absorb others = _
      rw [ih hothers, hrecord, List.map_cons, List.append_cons _ _ (others.map Finished.outcome)]

namespace Pool

variable {ω : Type} [Network ω]

/-- Closing links one by one closes their sockets and ends their commands. -/
theorem eachLink_retire (closing : List Link) (around : Around ω) :
    (eachLink Link.retire closing around).2.finished
        = around.finished ++ closing.flatMap (·.casualties .removed) ∧
      (eachLink Link.retire closing around).2.net
        = closing.foldl (fun net link => link.closeSocket net) around.net := by
  induction closing generalizing around with
  | nil => exact ⟨(List.append_nil _).symm, rfl⟩
  | cons link closing ih =>
      obtain ⟨hfinished, hnet⟩ := ih (link.retire around).2
      refine ⟨?_, hnet⟩
      rw [List.flatMap_cons, ← List.append_assoc]
      exact hfinished

end Pool

namespace Client

variable {ω : Type} [Network ω] {client : Client ω}

omit [Network ω] in
/-- Between two calls only buffered commands wait. -/
theorem Idle.buffered (hidle : client.Idle) {link : Link} (hlink : link ∈ client.pool.links)
    {slot : Slot} (hslot : slot ∈ link.awaiting ++ link.unsent) (hlive : slot.isLive = true) :
    slot.delivery = .buffered := by
  cases hdelivery : slot.delivery with
  | buffered => rfl
  | direct =>
      have hwaits : slot.original ∈ link.waiting := by
        have hcase (slots : List Slot) (hmem : slot ∈ slots) : slot.original ∈ live slots :=
          List.mem_map.mpr ⟨slot, List.mem_filter.mpr ⟨hmem, hlive⟩, rfl⟩
        rcases List.mem_append.mp hslot with hmem | hmem
        · exact List.mem_append_right _ (hcase _ hmem)
        · exact List.mem_append_left _ (hcase _ hmem)
      have hdirect : slot.original ∈ client.directs :=
        List.mem_filter.mpr ⟨List.mem_flatMap.mpr ⟨link, hlink, hwaits⟩, by
          exact decide_eq_true hdelivery⟩
      rw [hidle.directs] at hdirect
      cases hdirect

/-- **The commands of closed links wait for the next flush, each with one error.** -/
theorem Idle.ledger_relist (hidle : client.Idle) (addresses : List ServerAddress)
    {closing : List Link} (hclosing : ∀ link ∈ closing, link ∈ client.pool.links) :
    (client.relist addresses closing).ledger = { client.ledger with
      completed := client.ledger.completed ++ closing.flatMap Link.removals } := by
  have hfinished := (Pool.eachLink_retire closing ⟨client.net, client.log, []⟩).1
  rw [List.nil_append] at hfinished
  have hbuffered : ∀ finished ∈ closing.flatMap (·.casualties .removed),
      finished.slot.delivery = .buffered := by
    intro finished hmem
    obtain ⟨link, hlink, hended⟩ := List.mem_flatMap.mp hmem
    rw [Link.casualties_removed] at hended
    obtain ⟨slot, hslot, rfl⟩ := List.mem_map.mp hended
    obtain ⟨hslot, hlive⟩ := List.mem_filter.mp hslot
    exact hidle.buffered (hclosing link hlink) hslot hlive
  have houtcomes : (closing.flatMap (·.casualties .removed)).map Finished.outcome
      = closing.flatMap Link.removals := by
    rw [List.map_flatMap]
    simp only [Link.outcome_casualties]
  show client.ledger.absorb
      (Pool.eachLink Link.retire closing ⟨client.net, client.log, []⟩).2.finished = _
  rw [hfinished, Ledger.absorb_buffered hbuffered, houtcomes]

end Client

/-! ## Tokens that are gone -/

namespace Link

variable {ω : Type} [Network ω] {now : Nat} {timeouts : Timeouts} {link after : Link}

/-- A link keeps its token in all its steps. -/
theorem Steps.token {net last : ω} {incidents : Trace}
    (hsteps : Steps now timeouts link net incidents after last) : after.token = link.token := by
  induction hsteps with
  | refl => rfl
  | tail _ hstep ih => exact hstep.token.1.trans ih

/-- An event leaves a link its token. -/
theorem token_onReady (link : Link) (around : Around ω) (now : Nat) (event : Event) :
    (link.onReady around now event).1.token = link.token := by
  obtain ⟨incidents, hsteps, -⟩ := @follows_onReady ω _ now (.default) link around event
  exact hsteps.token

end Link

namespace Pool

variable {ω : Type} {step : Link → Around ω → Link × Around ω} {token : Token}

/-- A step under a token that no link has is not made. -/
theorem onToken_of_gone {links : List Link} (hgone : ∀ link ∈ links, link.token ≠ token)
    (around : Around ω) : onToken step token links around = (links, around) := by
  induction links with
  | nil => rfl
  | cons link links ih =>
      obtain ⟨hlink, hothers⟩ := List.forall_mem_cons.mp hgone
      rw [onToken, if_neg hlink, ih hothers]

/-- A step on one link leaves all links their tokens. -/
theorem tokens_onToken (hstep : ∀ link around, (step link around).1.token = link.token)
    (links : List Link) (around : Around ω) :
    (onToken step token links around).1.map (·.token) = links.map (·.token) := by
  induction links generalizing around with
  | nil => rfl
  | cons link links ih =>
      unfold onToken
      split
      · exact congrArg (· :: links.map (·.token)) (hstep link around)
      · exact congrArg (link.token :: ·) (ih around)

/-- A token that no link has stays so when a link is replaced by one with its token. -/
theorem unused_replace {front back : List Link} {old next : Link}
    (hunused : ∀ link ∈ front ++ old :: back, link.token ≠ token)
    (hsame : next.token = old.token) :
    ∀ link ∈ front ++ next :: back, link.token ≠ token := by
  rw [List.forall_mem_append, List.forall_mem_cons] at hunused ⊢
  rw [hsame]
  exact hunused

/-- No placed link has a token that was given out before, unless a link that stays has it. -/
theorem unused_place {existing : List Link} {addresses : List ServerAddress} {index : Nat}
    {first : Token} (hpast : token < first)
    (hunused : ∀ link ∈ existing, link.server.address ∈ addresses → link.token ≠ token) :
    ∀ link ∈ (place existing index first addresses).1, link.token ≠ token := by
  intro link hmem
  rcases mem_place hmem with ⟨old, hold, hlisted, hlink⟩ | ⟨fresh, hlow, -, hlink⟩
  · rw [hlink]
    exact hunused old hold hlisted
  · rw [hlink]
    exact Nat.ne_of_gt (Nat.lt_of_lt_of_le hpast hlow)

/-- **Events under a token that no link has are passed over.** -/
theorem handleEvents_of_gone [Network ω] {pool : Pool}
    (hgone : token ∉ pool.links.map (·.token)) (around : Around ω) (now : Nat)
    (events : List Event) :
    pool.handleEvents around now events
      = pool.handleEvents around now (events.filter (·.token ≠ token)) := by
  induction events generalizing pool around with
  | nil => rfl
  | cons event events ih =>
      by_cases htoken : event.token = token
      · have hnone : ∀ link ∈ pool.links, link.token ≠ event.token := by
          intro link hmem hsame
          exact hgone (List.mem_map.mpr ⟨link, hmem, hsame.trans htoken⟩)
        rw [List.filter_cons_of_neg (by simpa using htoken), handleEvents, onToken_of_gone hnone]
        exact ih hgone around
      · rw [List.filter_cons_of_pos (by simpa using htoken), handleEvents, handleEvents]
        refine ih ?_ _
        rw [tokens_onToken fun link around => link.token_onReady around now event]
        exact hgone

end Pool

namespace Client

variable {ω : Type} [Network ω] {client later : Client ω} {trace : Trace} {token : Token}

/-- No link has a token, and none will get it. -/
structure Gone (client : Client ω) (token : Token) : Prop where
  past : token < client.pool.nextToken
  unused : ∀ link ∈ client.pool.links, link.token ≠ token

/-- A step leaves a token gone. -/
theorem Step.gone (hgone : client.Gone token) {incidents : Trace} {after : Client ω}
    (hstep : client.Step incidents after) : after.Gone token := by
  obtain ⟨hpast, hunused⟩ := hgone
  cases hstep with
  | move hmove =>
      cases hmove with
      | link hlinks hstep =>
          rw [hlinks] at hunused
          exact ⟨hpast, Pool.unused_replace hunused hstep.token.1⟩
      | waited | noted => exact ⟨hpast, hunused⟩
  | queued hqueue =>
      obtain ⟨front, old, back, hlinks, -, -, -, rfl⟩ := queue_cases hqueue
      rw [hlinks] at hunused
      exact ⟨hpast, Pool.unused_replace hunused rfl⟩
  | placed hsome hdistinct hvacant =>
      exact ⟨Nat.lt_of_lt_of_le hpast (Pool.le_place _ _ _ _),
        Pool.unused_place hpast fun link hmem _ => hunused link hmem⟩
  | collected | emptied | adjusted => exact ⟨hpast, hunused⟩

/-- **A token that is gone stays so.** -/
theorem Gone.reaches (hgone : client.Gone token) (hreach : client.Reaches trace later) :
    later.Gone token := by
  induction hreach with
  | start => exact hgone
  | step _ hstep ih => exact hstep.gone ih
  | elapsed _ _ ih => exact ⟨ih.past, ih.unused⟩

/-- Its events are passed over. -/
theorem Gone.handleEvents (hgone : client.Gone token) (events : List Event) :
    client.handleEvents events = client.handleEvents (events.filter (·.token ≠ token)) := by
  have hunused : token ∉ client.pool.links.map (·.token) := by
    intro hmem
    obtain ⟨link, hlink, hsame⟩ := List.mem_map.mp hmem
    exact hgone.unused link hlink hsame
  unfold Client.handleEvents after
  dsimp only
  rw [Pool.handleEvents_of_gone hunused]

/-- The next token does not go back. -/
theorem Reaches.nextToken_le (hreach : client.Reaches trace later) :
    client.pool.nextToken ≤ later.pool.nextToken := by
  induction hreach with
  | start => exact Nat.le_refl _
  | step _ hstep ih =>
      refine Nat.le_trans ih ?_
      cases hstep with
      | move hmove => cases hmove <;> exact Nat.le_refl _
      | queued hqueue =>
          obtain ⟨_, _, _, -, -, -, -, rfl⟩ := queue_cases hqueue
          exact Nat.le_refl _
      | placed => exact Pool.le_place _ _ _ _
      | collected | emptied | adjusted => exact Nat.le_refl _
  | elapsed _ _ ih => exact ih

/-! ## Replacing the list -/

/-- What replacing the list of servers makes of a client. -/
structure Relisted (start before : Client ω) (addresses : List ServerAddress)
    (after : Client ω) : Prop where
  /-- The servers are those of the list, in its order. -/
  servers : after.servers
    = addresses.zipIdx.map fun entry => { index := entry.2, address := entry.1 }
  /-- Keys are spread over the servers of the list. -/
  ring : after.pool.ring = .build addresses
  /-- The timeouts are the same. -/
  timeouts : after.timeouts = before.timeouts
  /-- A link to a server that stays is as it was, but for its place. -/
  kept : ∀ link ∈ before.pool.links, ∀ index, addresses[index]? = some link.server.address →
    after.pool.links[index]?
      = some { link with server := { index, address := link.server.address } }
  /-- A server that is new has a link that was never used, under a token that no link had before. -/
  fresh : ∀ index address, addresses[index]? = some address →
    (∀ link ∈ before.pool.links, link.server.address ≠ address) →
    ∃ token, after.pool.links[index]? = some (Link.make { index, address } token) ∧
      ∀ past early more, start.Reaches past early → early.Reaches more before →
        ∀ link ∈ early.pool.links, link.token ≠ token
  /-- No two links have one token. -/
  distinct : (after.pool.links.map (·.token)).Nodup
  /-- A token of a server that left is never used again, and its events reach no link. -/
  gone : ∀ left ∈ before.pool.leaving addresses, ∀ future later, after.Reaches future later →
    (∀ link ∈ later.pool.links, link.token ≠ left.token) ∧
      ∀ events, later.handleEvents events
        = later.handleEvents (events.filter (·.token ≠ left.token))
  /-- The commands that someone waited for on a link that left have ended with an error. -/
  ended : after.ledger = { before.ledger with
    completed := before.ledger.completed
      ++ (before.pool.leaving addresses).flatMap Link.removals }
  /-- No buffered command has two outcomes, or still waits on a link when it has one. -/
  once : ((after.buffered ++ after.uncollected).map Pledge.seq).Nodup
  /-- The links that left were closed in the order in which they were listed. -/
  closed : after = before.relist addresses (before.pool.leaving addresses)
  /-- In any other order all later calls would have the same answers. -/
  unordered : ∀ order, order.Perm (before.pool.leaving addresses) →
    ∀ calls, (before.relist addresses order).answers calls = after.answers calls
  /-- So would the network be the same, if it does not see in which order sockets are closed. -/
  commutes : (∀ (net : ω) first second, Network.close (Network.close net first) second
      = Network.close (Network.close net second) first) →
    ∀ order, order.Perm (before.pool.leaving addresses) →
      (before.relist addresses order).net = after.net

variable {start before : Client ω} {books : Books} {addresses : List ServerAddress}

/-- A link to a server that stays is found where the list names it. -/
theorem getElem?_relist_of_mem (hapart : before.Apart) {link : Link}
    (hmem : link ∈ before.pool.links) {index : Nat}
    (hlisted : addresses[index]? = some link.server.address) (closing : List Link) :
    (before.relist addresses closing).pool.links[index]?
      = some { link with server := { index, address := link.server.address } } := by
  have hplace := Pool.getElem?_place_of_mem hapart hmem hlisted 0 before.pool.nextToken
  rw [Nat.zero_add] at hplace
  exact hplace

/-- In any order of closing the clients can be told apart by the log and the network only. -/
theorem Idle.alike_relist (hidle : before.Idle) {order : List Link}
    (hperm : order.Perm (before.pool.leaving addresses)) (net : ω) :
    Alike { before.relist addresses (before.pool.leaving addresses) with net }
      { before.relist addresses order with net } := by
  have hleaving : ∀ link ∈ before.pool.leaving addresses, link ∈ before.pool.links :=
    fun link hmem => (Pool.mem_leaving.mp hmem).1
  have hledger := hidle.ledger_relist addresses hleaving
  have hother := hidle.ledger_relist addresses
    fun link hmem => hleaving link (hperm.subset hmem)
  refine ⟨rfl, rfl, rfl, ?_⟩
  dsimp only
  rw [hledger, hother]
  exact ⟨rfl, rfl, rfl, rfl, (hperm.symm.flatMap_right Link.removals).append_left _⟩

/-- Closing sockets in another order leaves the same network, if the network does not see it. -/
theorem net_relist (hcommutes : ∀ (net : ω) first second,
      Network.close (Network.close net first) second
        = Network.close (Network.close net second) first)
    {order closing : List Link} (hperm : order.Perm closing) :
    (before.relist addresses order).net = (before.relist addresses closing).net := by
  have hclose (closing : List Link) : (before.relist addresses closing).net
      = closing.foldl (fun net link => link.closeSocket net) before.net :=
    (Pool.eachLink_retire closing ⟨before.net, before.log, []⟩).2
  rw [hclose, hclose]
  refine hperm.foldl_eq' (fun first _ second _ net => ?_) _
  unfold Link.closeSocket
  cases first.phase.socket? <;> cases second.phase.socket? <;> simp [hcommutes]

/-- **A list that is installed keeps the links to the servers that stay.** -/
theorem relisted (hagrees : before.Agrees books) (hidle : before.Idle)
    (hordered : before.Ordered trace)
    (hearly : ∀ past early, start.Reaches past early → ∃ trace, early.Ordered trace)
    (hsome : addresses ≠ []) (hdistinct : addresses.Nodup) :
    Relisted start before addresses
      (before.relist addresses (before.pool.leaving addresses)) := by
  have hinstall : before.installServers addresses
      = .ok (before.relist addresses (before.pool.leaving addresses)) :=
    installServers_eq hsome hdistinct
  have hafter := hagrees.installed hinstall
  have hleaving : ∀ link ∈ before.pool.leaving addresses, link ∈ before.pool.links :=
    fun link hmem => (Pool.mem_leaving.mp hmem).1
  exact {
    servers := Pool.servers_place _ _ _ _
    ring := rfl
    timeouts := rfl
    kept := fun link hmem index hlisted => getElem?_relist_of_mem hagrees.apart hmem hlisted _
    fresh := by
      intro index address hlisted hnew
      obtain ⟨token, hlow, hplace⟩ :=
        Pool.getElem?_place_of_new hnew hlisted 0 before.pool.nextToken
      rw [Nat.zero_add] at hplace
      refine ⟨token, hplace, fun past early more hpast hmore link hlink => ?_⟩
      -- tokens are given out in order, and this one is not below the next one
      obtain ⟨trace, hordered⟩ := hearly past early hpast
      exact Nat.ne_of_lt (Nat.lt_of_lt_of_le (hordered.known link hlink)
        (Nat.le_trans hmore.nextToken_le hlow))
    distinct := Pool.nodup_place hordered.distinct hordered.known hdistinct
    gone := by
      intro left hmem future later hfuture
      obtain ⟨hold, hunlisted⟩ := Pool.mem_leaving.mp hmem
      have hpast : left.token < before.pool.nextToken := hordered.known left hold
      have hgone : (before.relist addresses (before.pool.leaving addresses)).Gone left.token := by
        refine ⟨Nat.lt_of_lt_of_le hpast (Pool.le_place _ _ _ _),
          Pool.unused_place hpast fun other hother hlisted hsame => ?_⟩
        -- tokens tell links apart, so a link that stays would be the one that leaves
        rw [List.inj_on_of_nodup_map hordered.distinct hother hold hsame] at hlisted
        exact hunlisted hlisted
      have hlater := hgone.reaches hfuture
      exact ⟨hlater.unused, hlater.handleEvents⟩
    ended := hidle.ledger_relist addresses hleaving
    once := hafter.nodup
    closed := rfl
    unordered := fun order hperm calls =>
      answers_congr (fun net => hidle.alike_relist hperm net) hafter calls
    commutes := fun hcommutes order hperm => net_relist hcommutes hperm }

/-- **Replacing the list of servers is all or nothing.**  If the list cannot be read, is empty or
names a server twice, the call fails with an error about the configuration and the client is
what it was.  Otherwise the servers are those of the list; the links to servers that stay are
what they were but for their places, and so are their tokens; those to new servers are new and
have new tokens; and the commands that wait for a server that left end with an error, each of
them once, whatever the order in which its links are closed. -/
theorem relisting_exact {opening : ω} {config : Config} {start client : Client ω} {books : Books}
    (hconfig : withConfig opening config = .ok start) (hsession : start.Session books client)
    (net : ω) (servers : ServerList) :
    (∀ error, servers.parse = .error error →
      ({ client with net }).setServers servers = (.error (.config error), { client with net })) ∧
    ∀ addresses, servers.parse = .ok addresses →
      (addresses = [] ∨ ¬addresses.Nodup → ∃ error,
        ({ client with net }).setServers servers = (.error (.config error), { client with net })) ∧
      (addresses ≠ [] → addresses.Nodup → ∃ after,
        ({ client with net }).setServers servers = (.ok (), after) ∧
          Relisted start { client with net } addresses after) := by
  obtain ⟨trace, hreach⟩ := hsession.reaches
  have hordered := (reaches_withConfig hconfig (hreach.elapsed net)).ordered
  have hagrees : Agrees books { client with net } :=
    (Session.agrees hconfig hsession).congr rfl rfl rfl
  have hidle : Idle { client with net } := (Session.idle hconfig hsession).congr rfl rfl
  unfold setServers
  refine ⟨fun error hparse => ?_, fun addresses hparse =>
    ⟨fun hrefused => ?_, fun hsome hdistinct => ?_⟩⟩
  · rw [hparse]
  · obtain ⟨error, herror⟩ := @exists_installServers_eq_error ω _ addresses
      fun hsome => hrefused.resolve_left hsome
    refine ⟨error, ?_⟩
    rw [hparse]
    dsimp only
    rw [herror]
  · rw [hparse]
    dsimp only
    rw [installServers_eq hsome hdistinct]
    exact ⟨_, rfl, relisted hagrees hidle hordered
      (fun past early hpast => ⟨past, (reaches_withConfig hconfig hpast).ordered⟩)
      hsome hdistinct⟩

/-- A round trip that is buffered ends when its server leaves the list. -/
theorem relisting_exact_spare :
    ∃ before after : Client Script,
      before.buffered = [{ seq := 0, opcode := .noop, key := [] }] ∧
      before.setServers (.entries ["127.0.0.1:11212"]) = (.ok (), after) ∧
      after.servers = [{ index := 0, address := Script.spare }] ∧
      after.ledger.completed = [(0, {
        server := 0
        opcode := .noop
        key := []
        result := .error (.connection "127.0.0.1:11211" "server removed from pool") })] := by
  have hbuffering := (@Session.opened _ _ (Script.mk 0 [] []).opened).called (Script.mk 0 [] [])
    (.setBuffering true)
  have hsession := hbuffering.called (Script.mk 0 [] []) (.issue (.noop 0) none)
  obtain ⟨-, hparsed⟩ := relisting_exact (Script.withConfig_opened _) hsession (Script.mk 0 [] [])
    (.entries ["127.0.0.1:11212"])
  obtain ⟨-, hinstalled⟩ := hparsed [Script.spare] rfl
  obtain ⟨after, hset, hrelisted⟩ := hinstalled (List.cons_ne_nil _ _) (List.nodup_singleton _)
  refine ⟨_, after, rfl, hset, hrelisted.servers, ?_⟩
  rw [hrelisted.ended]
  rfl

end Client

end CachePool
