/-
# Rejected commands

A command is rejected before anything is done for it if it breaks a limit of the protocol, if it
names a server that is not listed, or if its server is dead and not to be tried again yet.  The
call returns the reason, and the client is what it was: its links with their queues and sockets,
the numbers of the next command, the results, the log, and the network, with its clock.  Every
other command is accepted and takes the next place and the next tag.

* `Request.Breaks`, `Command.limits` : the limits of the protocol, and that they are checked;
* `Pool.Spans`, `Client.Reaches.spans` : every key has a server;
* `Client.Rejects`, `Client.issue_rejects` : the reasons, and that there are no others;
* `Client.rejected_without_trace` : what a call with a rejected command does.
-/
import CachePool.Proofs.Issuing
import CachePool.Proofs.Owners
import CachePool.Proofs.Teardown

namespace CachePool

/-! ## Limits of the protocol -/

/-- A limit that a request breaks. -/
inductive Request.Breaks (request : Request) : WireError → Prop
  | emptyKey (hkey : request.opcode.requiresKey = true) (hempty : request.key = []) :
      Breaks request .emptyKey
  | keyTooLong (hlong : maxKeyLength < request.key.length) :
      Breaks request (.keyTooLong request.key.length)
  | valueTooLarge (hlarge : maxValueLength < request.value.length) :
      Breaks request (.valueTooLarge request.value.length)

namespace Command

/-- The extras of a command have the length that its opcode wants. -/
theorem length_extras (command : Command) :
    command.request.extras.length = command.request.opcode.extrasLength := by
  cases command <;> rfl

/-- A command breaks no limit or is refused for one that it breaks. -/
theorem limits (command : Command) :
    (command.request.validate = .ok () ∧ ∀ error, ¬command.request.Breaks error) ∨
      ∃ error, command.request.Breaks error ∧ command.request.validate = .error error := by
  unfold Request.validate
  by_cases hempty : command.request.opcode.requiresKey ∧ command.request.key = []
  · rw [if_pos hempty]
    exact .inr ⟨_, .emptyKey hempty.1 hempty.2, rfl⟩
  rw [if_neg hempty]
  by_cases hlong : maxKeyLength < command.request.key.length
  · rw [if_pos hlong]
    exact .inr ⟨_, .keyTooLong hlong, rfl⟩
  rw [if_neg hlong]
  by_cases hlarge : maxValueLength < command.request.value.length
  · rw [if_pos hlarge]
    exact .inr ⟨_, .valueTooLarge hlarge, rfl⟩
  rw [if_neg hlarge, if_neg (not_not.mpr command.length_extras)]
  refine .inl ⟨rfl, fun error hbreaks => ?_⟩
  cases hbreaks with
  | emptyKey hkey hnone => exact hempty ⟨hkey, hnone⟩
  | keyTooLong hlimit => exact hlong hlimit
  | valueTooLarge hlimit => exact hlarge hlimit

end Command

/-! ## Lists of servers -/

/-- A pool has one link for every server of a list, and its ring spreads the keys over them. -/
structure Pool.Spans (pool : Pool) (servers : List ServerAddress) : Prop where
  some : servers ≠ []
  ring : pool.ring = .build servers
  length : pool.links.length = servers.length

/-- Every key has a server with a link. -/
theorem Pool.Spans.exists_route {pool : Pool} {servers : List ServerAddress}
    (hspans : pool.Spans servers) (key : Bytes) :
    ∃ server, pool.route key = .ok server ∧ server < pool.links.length := by
  obtain ⟨server, howner, hserver⟩ := Ring.exists_owner hspans.some key
  exact ⟨server, route_of_owner hspans.ring hspans.length howner hserver,
    hspans.length.symm ▸ hserver⟩

namespace Client

variable {ω : Type} [Network ω] {client start : Client ω} {trace : Trace}

/-- A client has one link for every server that is listed. -/
theorem Reaches.spans {net : ω} {config : Config} (hconfig : withConfig net config = .ok start)
    (hreach : start.Reaches trace client) : ∃ servers, client.pool.Spans servers := by
  obtain ⟨servers, hagrees⟩ := hreach.agrees hconfig
  exact ⟨servers, hagrees.some, hagrees.ring, hagrees.lists.length⟩

/-! ## Reasons -/

/-- Why a client rejects a command. -/
inductive Rejects (client : Client ω) (command : Command) : ClientError → Prop
  /-- It breaks a limit of the protocol. -/
  | limit {error : WireError} (hbreaks : command.request.Breaks error) :
      Rejects client command (.protocol error)
  /-- It names a server that is not listed. -/
  | unlisted {server : Nat} (hserver : command.server? = some server)
      (hout : client.pool.links.length ≤ server) :
      Rejects client command (.config (.indexOutOfRange server client.pool.links.length))
  /-- Its server is dead and not to be tried again yet. -/
  | excluded {server : Nat} {link : Link} (hserver : client.pool.serverOf command = some server)
      (hlink : client.pool.links[server]? = some link) (hdead : link.phase.health = .dead)
      (hearly : link.isRetryEligible (Network.now client.net) client.timeouts = false) :
      Rejects client command link.deadError

variable {command : Command} {server : Nat}

/-- A command is not queued for its server just if it is rejected. -/
theorem queue_rejects (hserver : client.pool.serverOf command = some server)
    (hrouted : command.server? = none → server < client.pool.links.length) :
    (∃ error, client.Rejects command error ∧
      client.queue server command.request command.expect = .error error) ∨
    (∀ error, ¬client.Rejects command error) ∧ ∃ delivery queued,
      client.queue server command.request command.expect
        = .ok (client.ledger.nextSeq, delivery, queued) := by
  have hnamed {other : Nat} (hother : command.server? = some other) : other = server := by
    unfold Pool.serverOf at hserver
    rw [hother] at hserver
    exact Option.some.inj hserver
  unfold queue Pool.link
  cases hlink : client.pool.links[server]? with
  | none =>
      have hout := List.getElem?_eq_none_iff.mp hlink
      cases hname : command.server? with
      | none => exact absurd (hrouted hname) (Nat.not_lt.mpr hout)
      | some other =>
          obtain rfl := hnamed hname
          exact .inl ⟨_, .unlisted hname hout, rfl⟩
  | some link =>
      dsimp only
      by_cases hexcluded : link.phase.health = .dead ∧
          !link.isRetryEligible (Network.now client.net) client.timeouts
      · rw [if_pos hexcluded]
        exact .inl ⟨_, .excluded hserver hlink hexcluded.1 (by simpa using hexcluded.2), rfl⟩
      rw [if_neg hexcluded]
      unfold Ledger.submit
      rcases command.limits with ⟨hvalid, hkeeps⟩ | ⟨error, hbreaks, hinvalid⟩
      · rw [hvalid]
        refine .inr ⟨fun error hrejects => ?_, _, _, rfl⟩
        cases hrejects with
        | limit hbreaks => exact hkeeps _ hbreaks
        | unlisted hname hout =>
            obtain rfl := hnamed hname
            rw [List.getElem?_eq_none hout] at hlink
            cases hlink
        | excluded hother hthere hdead hearly =>
            obtain rfl := Option.some.inj (hserver.symm.trans hother)
            obtain rfl := Option.some.inj (hlink.symm.trans hthere)
            exact hexcluded ⟨hdead, by rw [hearly]; rfl⟩
      · rw [hinvalid]
        exact .inl ⟨_, .limit hbreaks, rfl⟩

/-- A command is not sent to its server just if it is rejected. -/
theorem dispatch_rejects (hserver : client.pool.serverOf command = some server)
    (hrouted : command.server? = none → server < client.pool.links.length)
    (timeout : Option Nat) :
    (∃ error, client.Rejects command error ∧
      client.dispatch server command.request command.expect timeout = (.error error, client)) ∨
    (∀ error, ¬client.Rejects command error) ∧ ∃ delivery queued,
      client.queue server command.request command.expect
        = .ok (client.ledger.nextSeq, delivery, queued) ∧
      (client.dispatch server command.request command.expect timeout = (.ok .buffered, queued) ∨
        client.dispatch server command.request command.expect timeout
          = queued.await client.ledger.nextSeq (client.deadlineOf timeout)) := by
  unfold dispatch
  rcases queue_rejects hserver hrouted with
    ⟨error, hrejects, hqueue⟩ | ⟨hnone, delivery, queued, hqueue⟩
  · rw [hqueue]
    exact .inl ⟨error, hrejects, rfl⟩
  · refine .inr ⟨hnone, delivery, queued, hqueue, ?_⟩
    rw [hqueue]
    cases delivery with
    | buffered => exact .inl rfl
    | direct => exact .inr rfl

/-- **A data operation rejects its command, and leaves the client as it is, or queues it.** -/
theorem issue_rejects (hspans : ∃ servers, client.pool.Spans servers) (command : Command)
    (timeout : Option Nat) :
    (∃ error, client.Rejects command error ∧
      client.issue command timeout = (.error error, client)) ∨
    (∀ error, ¬client.Rejects command error) ∧ ∃ server delivery queued,
      client.queue server command.request command.expect
        = .ok (client.ledger.nextSeq, delivery, queued) ∧
      (client.issue command timeout = (.ok .buffered, queued) ∨
        client.issue command timeout
          = queued.await client.ledger.nextSeq (client.deadlineOf timeout)) := by
  cases hname : command.server? with
  | some server =>
      have hserver : client.pool.serverOf command = some server := by
        unfold Pool.serverOf
        rw [hname]
      have hissue : client.issue command timeout
          = client.dispatch server command.request command.expect timeout := by
        unfold issue
        rw [hname]
      have hrouted : command.server? = none → server < client.pool.links.length := by
        rw [hname]
        exact nofun
      rw [hissue]
      exact (dispatch_rejects hserver hrouted timeout).imp_right (.imp_right fun h => ⟨server, h⟩)
  | none =>
      obtain ⟨servers, hservers⟩ := hspans
      obtain ⟨server, hroute, hlisted⟩ := hservers.exists_route command.request.key
      rcases command.limits with ⟨hvalid, -⟩ | ⟨error, hbreaks, hinvalid⟩
      · have hserver : client.pool.serverOf command = some server := by
          unfold Pool.serverOf
          rw [hname]
          dsimp only
          rw [hroute]
          rfl
        rw [issue_eq_dispatch timeout hserver hvalid]
        exact (dispatch_rejects hserver (fun _ => hlisted) timeout).imp_right
          (.imp_right fun h => ⟨server, h⟩)
      · refine .inl ⟨_, .limit hbreaks, ?_⟩
        unfold issue dispatchKey
        rw [hname]
        dsimp only
        rw [hinvalid]

/-! ## What is left of a rejected command -/

omit [Network ω] in
/-- A data operation fails if its command does. -/
theorem outcomeOf_readReply_error {α : Type} {opcode : Opcode} {extract : Output → Option α}
    {outcome : Except ClientError (Reply Output) × Client ω} {error : ClientError}
    (houtcome : outcome = (.error error, client)) :
    outcomeOf (readReply opcode extract outcome) = (.failed error, client) := by
  rw [houtcome]
  rfl

/-- Waiting for a command leaves the settings as they are, and numbers no other command. -/
theorem Stays.await {queued : Client ω} {more : Nat} (hstays : client.Stays more queued)
    (seq deadline : Nat) : client.Stays more (queued.await seq deadline).2 := by
  obtain ⟨-, incidents, driven, hdrives, hafter⟩ := queued.await_cases seq deadline
  have hdriven := hstays.drives hdrives
  rcases hafter with hafter | hafter
  · rw [hafter]
    exact hdriven
  · rw [hafter]
    exact ⟨hdriven.timeouts, hdriven.ring, hdriven.buffering, hdriven.nextSeq, hdriven.nextTag⟩

/-- **Rejected commands leave no trace.**  Whatever the command, its arguments and the mode of
the client: if it breaks a limit of the protocol, names a server that is not listed, or its
server is dead and not to be tried again yet, the call returns one of these reasons, and the
client is the same as before, with its network, on which nothing was done.  Every other command
takes the next place and the next tag. -/
theorem rejected_without_trace {net : ω} {config : Config}
    (hconfig : withConfig net config = .ok start) (hreach : start.Reaches trace client)
    (command : Command) (timeout : Option Nat) :
    ((∃ error, client.Rejects command error) →
      ∃ error, client.Rejects command error ∧
        client.issue command timeout = (.error error, client) ∧
        client.perform (.issue command timeout) = (.failed error, client)) ∧
    ((∀ error, ¬client.Rejects command error) →
      client.Stays 1 (client.perform (.issue command timeout)).2) := by
  rcases issue_rejects (hreach.spans hconfig) command timeout with
    ⟨error, hrejects, hissue⟩ | ⟨hnone, server, delivery, queued, hqueue, hissue⟩
  · refine ⟨fun _ => ⟨error, hrejects, hissue, ?_⟩, fun hnone => absurd hrejects (hnone error)⟩
    cases command <;> exact outcomeOf_readReply_error hissue
  · refine ⟨fun ⟨error, hrejects⟩ => absurd hrejects (hnone error), fun _ => ?_⟩
    have hstays : client.Stays 1 queued := by
      obtain ⟨_, _, _, -, -, -, -, rfl⟩ := queue_cases hqueue
      exact ⟨rfl, rfl, rfl, rfl, rfl⟩
    rw [(perform_issue client command timeout).1]
    rcases hissue with hissue | hissue
    · rw [hissue]
      exact hstays
    · rw [hissue]
      exact hstays.await _ _

/-- A client whose server is dead rejects a command for it, one for another server and one with
an empty key. -/
theorem rejected_without_trace_dead : ∃ trace client,
    (Script.mk 0 [.data Script.garbage] []).opened.Reaches trace client ∧
    (∀ command ∈ [Command.noop 0, .noop 7, .get [] { flags := true, cas := true }],
      ∃ error, client.Rejects command error ∧
        client.issue command none = (.error error, client) ∧
        client.perform (.issue command none) = (.failed error, client)) := by
  have hreach := (Script.mk 0 [.data Script.garbage] []).reaches_pair.only rfl
    (Script.step_garbage 0 [])
  refine ⟨_, _, hreach, fun command hmem => ?_⟩
  refine (rejected_without_trace (Script.withConfig_opened _) hreach command none).1 ?_
  simp only [List.mem_cons, List.not_mem_nil, or_false] at hmem
  rcases hmem with rfl | rfl | rfl
  · exact ⟨_, .excluded rfl rfl rfl rfl⟩
  · exact ⟨_, .unlisted rfl (by decide)⟩
  · exact ⟨_, .limit (.emptyKey rfl rfl)⟩

end Client

end CachePool
