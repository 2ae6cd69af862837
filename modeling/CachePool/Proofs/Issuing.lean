/-
# Calls among hosts of stores

What a data operation and a flush do when the servers are stores.  A command joins those that
were issued to its server; if it is direct, the call returns the result of its responses, and a
flush collects the results of all commands that are held back.

* `Numbered` : commands are told apart by their places in the order of issue;
* `Client.Serves.queue` : queueing a command;
* `Client.Affords` : a call has time for what it waits for;
* `Client.Serves.issue` : a data operation;
* `Client.Serves.flush` : a flush.
-/
import CachePool.Proofs.Completions
import CachePool.Proofs.Serving

namespace CachePool

/-! ## Commands and their places -/

/-- The commands issued to servers when one more is issued to one of them. -/
def issuing (issued : Nat → List Ticket) (server : Nat) (ticket : Ticket) : Nat → List Ticket :=
  Function.update issued server (issued server ++ [ticket])

theorem issuing_self (issued : Nat → List Ticket) (server : Nat) (ticket : Ticket) :
    issuing issued server ticket server = issued server ++ [ticket] :=
  Function.update_self ..

theorem issuing_other (issued : Nat → List Ticket) {server other : Nat} (ticket : Ticket)
    (hother : other ≠ server) : issuing issued server ticket other = issued other :=
  Function.update_of_ne hother ..

theorem prefix_issuing (issued : Nat → List Ticket) (server : Nat) (ticket : Ticket)
    (index : Nat) : issued index <+: issuing issued server ticket index := by
  by_cases hindex : index = server
  · rw [hindex, issuing_self]
    exact List.prefix_append _ _
  · exact (issuing_other issued ticket hindex).symm ▸ List.prefix_rfl

/-- The last command. -/
theorem getElem?_issuing_last (issued : Nat → List Ticket) (server : Nat) (ticket : Ticket) :
    (issuing issued server ticket server)[(issued server).length]? = some ticket := by
  rw [issuing_self, List.getElem?_append_right (Nat.le_refl _), Nat.sub_self]
  rfl

/-- What was issued to a server is what was issued before, or the last command. -/
theorem getElem?_issuing {issued : Nat → List Ticket} {server index place : Nat}
    {ticket other : Ticket} (hplace : (issuing issued server ticket index)[place]? = some other) :
    (issued index)[place]? = some other ∨
      index = server ∧ place = (issued server).length ∧ other = ticket := by
  by_cases hindex : index = server
  · rw [hindex, issuing_self] at hplace
    rw [hindex]
    by_cases hlast : place < (issued server).length
    · rw [List.getElem?_append_left hlast] at hplace
      exact .inl hplace
    · rw [List.getElem?_append_right (Nat.le_of_not_lt hlast)] at hplace
      obtain ⟨hzero, hsame⟩ := List.getElem?_eq_some_iff.mp hplace
      rw [List.length_singleton] at hzero
      have hends : place = (issued server).length := by omega
      refine .inr ⟨rfl, hends, ?_⟩
      subst hends
      simpa using hsame.symm
  · rw [issuing_other issued ticket hindex] at hplace
    exact .inl hplace

/-- The commands issued to some servers, told apart by their places in the order of issue. -/
structure Numbered (count servers : Nat) (issued : Nat → List Ticket) : Prop where
  valid : ∀ index, ∀ ticket ∈ issued index, ticket.Valid
  listed : ∀ index, ∀ ticket ∈ issued index, index < servers
  below : ∀ index, ∀ ticket ∈ issued index, ticket.slot.seq < count
  apart : ∀ {first second place other : Nat} {ticket later : Ticket},
    (issued first)[place]? = some ticket → (issued second)[other]? = some later →
    ticket.slot.seq = later.slot.seq → first = second ∧ place = other

/-- One more command is issued. -/
theorem Numbered.add {count servers server : Nat} {issued : Nat → List Ticket} {ticket : Ticket}
    (hnumbered : Numbered count servers issued) (hvalid : ticket.Valid)
    (hserver : server < servers) (hseq : ticket.slot.seq = count) :
    Numbered (count + 1) servers (issuing issued server ticket) := by
  have hcases {index : Nat} {other : Ticket} (hmem : other ∈ issuing issued server ticket index) :
      other ∈ issued index ∨ index = server ∧ other = ticket := by
    obtain ⟨place, hplace⟩ := List.getElem?_of_mem hmem
    rcases getElem?_issuing hplace with hold | ⟨hindex, -, hnew⟩
    · exact .inl (List.mem_of_getElem? hold)
    · exact .inr ⟨hindex, hnew⟩
  refine ⟨fun index other hmem => ?_, fun index other hmem => ?_, fun index other hmem => ?_, ?_⟩
  · rcases hcases hmem with hold | ⟨-, rfl⟩
    · exact hnumbered.valid index other hold
    · exact hvalid
  · rcases hcases hmem with hold | ⟨rfl, -⟩
    · exact hnumbered.listed index other hold
    · exact hserver
  · rcases hcases hmem with hold | ⟨-, rfl⟩
    · exact Nat.lt_succ_of_lt (hnumbered.below index other hold)
    · rw [hseq]
      exact Nat.lt_succ_self _
  · intro first second place other early later hearly hlater hsame
    rcases getElem?_issuing hearly with hold | ⟨rfl, rfl, rfl⟩
    · rcases getElem?_issuing hlater with hold' | ⟨rfl, rfl, rfl⟩
      · exact hnumbered.apart hold hold' hsame
      · have hbelow := hnumbered.below _ _ (List.mem_of_getElem? hold)
        omega
    · rcases getElem?_issuing hlater with hold' | ⟨rfl, rfl, rfl⟩
      · have hbelow := hnumbered.below _ _ (List.mem_of_getElem? hold')
        omega
      · exact ⟨rfl, rfl⟩

/-! ## Queueing -/

/-- A link that attends to its server is not dead. -/
theorem Link.Attends.alive {ω : Type} [Network ω] {hosts : Hosts ω} {net : ω}
    {issued : List Ticket} {ended : Nat} {link : Link}
    (hattends : link.Attends hosts net issued ended) : link.phase.health ≠ .dead := by
  cases hattends with
  | untouched _ huntouched =>
      rw [huntouched.phase]
      exact nofun
  | speaking _ _ hspeaks =>
      cases hspeaks.holding with
      | connecting hphase =>
          rw [hphase]
          exact nofun
      | connected hphase =>
          rw [hphase]
          exact nofun

/-- A command adds its octets to the work of its link. -/
theorem Link.work_enqueue (link : Link) (request : Request) (slot : Slot) :
    (link.enqueue request slot).work = link.work + request.frameLength := by
  show (link.outbound ++ request.frame).length + _ = link.outbound.length + _ + _
  rw [List.length_append, Request.length_frame]
  exact Nat.add_right_comm ..

/-- The index of the server that gets a command. -/
def Pool.serverOf (pool : Pool) (command : Command) : Option Nat :=
  match command.server? with
  | some server => some server
  | none => (pool.route command.request.key).toOption

namespace Client

variable {ω : Type} [Network ω] {hosts : Hosts ω} {servers : List ServerAddress}
  {issued : Nat → List Ticket} {client : Client ω} {command : Command} {server : Nat}

/-- **Queueing a command**: it joins those issued to its server. -/
theorem Serves.queue (hlawful : hosts.Lawful servers)
    (hserves : client.Serves hosts servers issued []) (hserver : server < servers.length)
    (hlimits : command.request.validate = .ok ()) :
    ∃ queued, client.queue server command.request command.expect
        = .ok (client.ledger.nextSeq, client.ledger.delivery, queued) ∧
      queued.Serves hosts servers (issuing issued server (client.nextTicket command)) [] ∧
      queued.net = client.net ∧ queued.timeouts = client.timeouts ∧
      queued.pool.ring = client.pool.ring ∧
      queued.ledger = { client.ledger with
        nextSeq := client.ledger.nextSeq + 1, nextTag := client.ledger.nextTag + 1 } ∧
      queued.effort hosts = client.effort hosts + hosts.price * command.request.frameLength ∧
      (client.nextTicket command).slot ∈ queued.waiting := by
  obtain ⟨link, hlink, hindex⟩ := hserves.lists.link hserver
  obtain ⟨front, back, hsplit, hset⟩ := exists_set_split hlink
  have hmem : link ∈ client.pool.links := List.mem_of_getElem? hlink
  obtain ⟨ended, hattends⟩ := hserves.minds link hmem
  let ticket := client.nextTicket command
  let last := link.enqueue ticket.request ticket.slot
  have hqueue := Client.queue_of_link hlink hattends.alive hlimits
  rw [hset] at hqueue
  have hothers : ∀ other ∈ front ++ back, other.server.index ≠ server := by
    have hapart := hserves.lists.apart
    rw [hsplit, List.map_append, List.map_cons, List.nodup_middle, List.nodup_cons,
      ← List.map_append] at hapart
    intro other hother hsame
    exact hapart.1 (List.mem_map.mpr ⟨other, hother, hsame.trans hindex.symm⟩)
  have hsides {other : Link} (hother : other ∈ front ++ back) : other ∈ client.pool.links := by
    rw [hsplit]
    exact List.perm_middle.mem_iff.mpr (List.mem_cons_of_mem _ hother)
  -- what is true of the links before is true of those that stay as they are
  have hlinks {holds : Link → Prop} (hlast : holds last)
      (hrest : ∀ other ∈ front ++ back, holds other) :
      ∀ other ∈ front ++ last :: back, holds other := fun other hother =>
    List.forall_mem_cons.mpr ⟨hlast, hrest⟩ other (List.perm_middle.mem_iff.mp hother)
  refine ⟨_, hqueue, ⟨?_, ?_, hlinks ?_ fun other hother => ?_, hlinks ?_ fun other hother => ?_,
    ?_, hserves.connect⟩, rfl, rfl, rfl, rfl, ?_, ?_⟩
  · have hlists := hserves.lists
    rw [Lists, hsplit, List.map_append, List.map_cons] at hlists
    rw [Lists, List.map_append, List.map_cons]
    exact hlists
  · have htokens := hserves.tokens
    rw [hsplit, List.map_append, List.map_cons] at htokens
    rw [List.map_append, List.map_cons]
    exact htokens
  · refine ⟨ended, ?_⟩
    rw [show last.server = link.server from rfl, hindex, issuing_self]
    rw [hindex] at hattends
    exact hattends.enqueue ticket
  · obtain ⟨ended, hattends⟩ := hserves.minds other (hsides hother)
    refine ⟨ended, ?_⟩
    rw [issuing_other issued _ (hothers other hother)]
    exact hattends
  · exact hserves.told link hmem
  · exact hserves.told other (hsides hother)
  · have hkept := hserves.kept.mono fun _ hended =>
      hended.mono hlawful (prefix_issuing issued server ticket) (.refl client.net)
    exact ⟨hkept.direct, hkept.completed⟩
  · have hwork : last.work = link.work + command.request.frameLength :=
      link.work_enqueue ticket.request ticket.slot
    show hosts.price * workOf (front ++ last :: back) + hosts.patience client.net
      = hosts.price * workOf client.pool.links + hosts.patience client.net + _
    rw [hsplit, workOf_middle, workOf_middle, hwork, Nat.add_right_comm link.work, Nat.mul_add]
    exact Nat.add_right_comm ..
  · refine List.mem_flatMap.mpr ⟨last, List.mem_append_right _ List.mem_cons_self, ?_⟩
    exact (Link.waiting_enqueue link ticket.request ticket.slot rfl rfl).symm.subset
      (List.mem_append_right _ List.mem_cons_self)

/-! ## Data operations -/

/-- What a call leaves as it is, and how many commands were issued. -/
structure Stays (client : Client ω) (more : Nat) (after : Client ω) : Prop where
  timeouts : after.timeouts = client.timeouts
  ring : after.pool.ring = client.pool.ring
  buffering : after.ledger.buffering = client.ledger.buffering
  nextSeq : after.ledger.nextSeq = client.ledger.nextSeq + more
  nextTag : after.ledger.nextTag = client.ledger.nextTag + UInt32.ofNat more

omit [Network ω] in
theorem Stays.refl (client : Client ω) : client.Stays 0 client :=
  ⟨rfl, rfl, rfl, rfl, (UInt32.add_zero _).symm⟩

/-- Driving leaves the settings as they are. -/
theorem Stays.drives {allows : Incident → Prop} {queued after : Client ω} {incidents : Trace}
    {more : Nat} (hstays : client.Stays more queued)
    (hdrives : queued.Drives allows incidents after) : client.Stays more after := by
  obtain ⟨htimeouts, hring, hbuffering, hseq, htag⟩ := hdrives.settings
  exact ⟨htimeouts.trans hstays.timeouts, hring.trans hstays.ring,
    hbuffering.trans hstays.buffering, hseq.trans hstays.nextSeq, htag.trans hstays.nextTag⟩

/-- A data operation within limits is a dispatch to the server that gets it. -/
theorem issue_eq_dispatch (timeout : Option Nat) (hroute : client.pool.serverOf command = some server)
    (hlimits : command.request.validate = .ok ()) :
    client.issue command timeout
      = client.dispatch server command.request command.expect timeout := by
  unfold Pool.serverOf at hroute
  unfold Client.issue
  cases hserver : command.server? with
  | some other =>
      rw [hserver] at hroute
      cases hroute
      rfl
  | none =>
      rw [hserver] at hroute
      dsimp only at hroute ⊢
      unfold dispatchKey
      rw [hlimits]
      cases hkey : client.pool.route command.request.key with
      | error error =>
          rw [hkey] at hroute
          cases hroute
      | ok other =>
          rw [hkey] at hroute
          cases hroute
          rfl

/-- A call has time for what it waits for: if it has none at all, its first round leaves nothing
to wait for. -/
def Affords (client : Client ω) : Call → Prop
  | .issue command timeout =>
    timeout = some 0 → ∀ {server seq : Nat} {queued : Client ω},
      client.pool.serverOf command = some server →
      client.queue server command.request command.expect = .ok (seq, .direct, queued) →
      queued.pushed.hasMet (.command seq) = true
  | .flush timeout => timeout = some 0 → client.pushed.hasMet .allBuffered = true
  | _ => True

/-- A call with time to wait has its deadline ahead. -/
theorem early_deadlineOf {timeout : Option Nat} (htimeout : timeout ≠ some 0)
    (hio : 0 < client.timeouts.io) : Network.now client.net < client.deadlineOf timeout := by
  unfold deadlineOf
  cases timeout with
  | none => exact Nat.lt_add_of_pos_right hio
  | some time =>
      refine Nat.lt_add_of_pos_right (Nat.pos_of_ne_zero fun hzero => htimeout ?_)
      rw [← hzero]
      rfl

/-- **A data operation** queues its command for a flush, or returns the result of its
responses. -/
theorem Serves.issue {timeout : Option Nat} (hlawful : hosts.Lawful servers)
    (hserves : client.Serves hosts servers issued [])
    (hnumbered : Numbered client.ledger.nextSeq servers.length issued) (hapart : client.Apart)
    (hroute : client.pool.serverOf command = some server) (hserver : server < servers.length)
    (hlimits : command.request.validate = .ok ())
    (haffords : client.Affords (.issue command timeout)) (hio : 0 < client.timeouts.io)
    (hwaits : client.effort hosts + hosts.price * command.request.frameLength
      < Network.pollLimit client.net)
    (htime : hosts.onTime (client.issue command timeout).2.net) :
    ∃ after, after.Serves hosts servers (issuing issued server (client.nextTicket command)) [] ∧
      client.Stays 1 after ∧ hosts.Extends client.net after.net ∧
      after.effort hosts
        ≤ client.effort hosts + hosts.price * command.request.frameLength ∧
      (client.ledger.buffering = true → client.issue command timeout = (.ok .buffered, after)) ∧
      (client.ledger.buffering = false → ∃ finished,
        hosts.Settled (issuing issued server (client.nextTicket command)) after.net finished ∧
        finished.slot.seq = client.ledger.nextSeq ∧
        client.issue command timeout = (finished.result.map .ready, after)) := by
  obtain ⟨queued, hqueue, hqueued, hnet, htimeouts, hring, hledger, heffort, hslot⟩ :=
    hserves.queue hlawful hserver hlimits
  have hnumbered' := hnumbered.add (@valid_nextTicket ω client command hlimits) hserver rfl
  have hstays : client.Stays 1 queued := by
    refine ⟨htimeouts, hring, ?_, ?_, ?_⟩
    all_goals rw [hledger]
    rfl
  rw [issue_eq_dispatch timeout hroute hlimits] at htime ⊢
  unfold dispatch at htime ⊢
  rw [hqueue] at htime ⊢
  cases hmode : client.ledger.buffering with
  | true =>
      rw [show client.ledger.delivery = .buffered by rw [Ledger.delivery, hmode]; rfl]
      exact ⟨queued, hqueued, hstays, by rw [hnet]; exact .refl _, Nat.le_of_eq heffort,
        fun _ => rfl, fun hnone => (nomatch hnone)⟩
  | false =>
      have hdelivery : client.ledger.delivery = .direct := by
        rw [Ledger.delivery, hmode]
        rfl
      have hearly (hunmet : queued.pushed.hasMet (.command client.ledger.nextSeq) = false) :
          Network.now queued.net < client.deadlineOf timeout := by
        rw [hnet]
        refine early_deadlineOf (fun htimeout => ?_) hio
        rw [haffords htimeout hroute (hdelivery ▸ hqueue)] at hunmet
        cases hunmet
      rw [hdelivery] at htime ⊢
      dsimp only at htime ⊢
      -- what the call does after driving leaves the network as it is
      have hnoticed : hosts.onTime (Client.drive (.command client.ledger.nextSeq)
          (client.deadlineOf timeout) (Network.pollLimit queued.net) queued).2.net := by
        obtain ⟨_, hawait⟩ := queued.await_run client.ledger.nextSeq (client.deadlineOf timeout)
        rw [hawait] at htime
        exact htime
      obtain ⟨incidents, driven, hdrive, hdrives, hmet, hdriven, hgains⟩ :=
        hqueued.drive hlawful hnumbered'.valid hearly (by rw [heffort, hnet]; exact hwaits) hnoticed
          fun incidents driven hdrives hunmet => waits_of_command
            (Step.apart hapart (.queued hqueue)) hslot hdelivery hdrives hunmet
      obtain ⟨result, hresult⟩ := Option.isSome_iff_exists.mp hmet
      obtain ⟨finished, hsettled, hentry⟩ := hdriven.kept.direct _ (mem_of_lookup hresult)
      obtain ⟨hseq, rfl⟩ := Prod.mk.inj hentry
      have hcollected :
          { driven with ledger := (driven.ledger.takeDirect client.ledger.nextSeq).2 }.Serves hosts
            servers (issuing issued server (client.nextTicket command)) [] :=
        ⟨hdriven.lists, hdriven.tokens, hdriven.minds, hdriven.told,
          ⟨fun entry hmem => hdriven.kept.direct entry (List.mem_filter.mp hmem).1,
            hdriven.kept.completed⟩, hdriven.connect⟩
      obtain ⟨htimeouts', hring', hmode', hseq', htag'⟩ := hstays.drives hdrives
      refine ⟨_, hcollected, ⟨htimeouts', hring', hmode', hseq', htag'⟩,
        by rw [← hnet]; exact hgains.onward, by rw [← heffort]; exact hgains.effort,
        fun hnone => (nomatch hnone),
        fun _ => ⟨finished, hsettled, hseq.symm, await_of_found hdrive hresult⟩⟩

/-! ## Flushes -/

/-- **A flush** collects the results of the commands that were held back. -/
theorem Serves.flush {timeout : Option Nat} {outstanding : List Pledge}
    (hlawful : hosts.Lawful servers)
    (hvalid : ∀ index, ∀ ticket ∈ issued index, ticket.Valid)
    (hserves : client.Serves hosts servers issued []) (hapart : client.Apart)
    (haccounts : client.Accounts outstanding)
    (horder : (outstanding.map Pledge.seq).Pairwise (· < ·))
    (haffords : client.Affords (.flush timeout))
    (hio : 0 < client.timeouts.io) (hwaits : client.effort hosts < Network.pollLimit client.net)
    (htime : hosts.onTime (client.flush timeout).2.net) :
    ∃ (entries : List (Nat × Completion)) (after : Client ω),
      client.flush timeout = (.ok (entries.map (·.2)), after) ∧
      after.Serves hosts servers issued [] ∧ client.Stays 0 after ∧
      hosts.Extends client.net after.net ∧ after.effort hosts ≤ client.effort hosts ∧
      entries.map pledgeOf = outstanding ∧
      ∀ entry ∈ entries, ∃ finished, hosts.Settled issued after.net finished ∧
        entry = (finished.slot.seq, finished.completion) := by
  have hnoticed : hosts.onTime (client.run .allBuffered (client.deadlineOf timeout)).2.net := by
    obtain ⟨_, hflush⟩ := client.flush_run timeout
    rw [hflush] at htime
    exact htime
  have hearly (hunmet : client.pushed.hasMet .allBuffered = false) :
      Network.now client.net < client.deadlineOf timeout := by
    refine early_deadlineOf (fun htimeout => ?_) hio
    rw [haffords htimeout] at hunmet
    cases hunmet
  obtain ⟨incidents, driven, hdrive, hdrives, -, hdriven, hgains⟩ :=
    hserves.drive hlawful hvalid hearly hwaits hnoticed
      fun _ _ _ hunmet => waits_of_buffered hunmet
  have hbuffered : driven.buffered = [] := by
    rcases drive_allBuffered (client.deadlineOf timeout) (Network.pollLimit client.net) client with
      ⟨error, herror⟩ | ⟨-, hnone⟩
    · rw [hdrive] at herror
      cases herror
    · rw [hdrive] at hnone
      exact hnone
  obtain ⟨haccounts', -, -⟩ := haccounts.drives hapart hdrives
    fun slot hdrop => absurd rfl (hdrop slot.seq)
  obtain ⟨htimeouts, hring, hmode, hseq, htag⟩ := (Stays.refl client).drives hdrives
  refine ⟨driven.ledger.completed.mergeSort fun a b => a.1 ≤ b.1,
    { driven with ledger := driven.ledger.forget }, ?_,
    ⟨hdriven.lists, hdriven.tokens, hdriven.minds, hdriven.told,
      ⟨hdriven.kept.direct, fun _ hnone => (nomatch hnone)⟩, hdriven.connect⟩,
    ⟨htimeouts, hring, hmode, hseq, htag⟩, hgains.onward, hgains.effort,
    collected_exact haccounts' hbuffered horder, fun entry hmem => ?_⟩
  · unfold Client.flush run
    rw [hdrive]
    rfl
  · exact hdriven.kept.completed entry (List.mem_mergeSort.mp hmem)

end Client

end CachePool
