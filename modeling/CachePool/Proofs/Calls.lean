/-
# Calls are steps

What a caller can do to a client, and that every call is a sequence of steps, so that
what holds in every state the steps reach holds before, between and after calls.

* `Client.perform` : a call, made of the operations of the client;
* `Client.perform_issue` : a data operation is a dispatch;
* `Client.reaches_perform` : the client after a call is reached;
* `Client.reaches_withConfig` : and so is a client that was just configured.
-/
import CachePool.Proofs.Drives
import CachePool.Proofs.Relisting

namespace CachePool

/-! ## Calls -/

/-- What a caller can ask of a client. -/
inductive Call where
  | issue (command : Command) (timeout : Option Nat)
  | flush (timeout : Option Nat)
  | resetBuffers
  | setBuffering (buffering : Bool)
  | setServers (servers : ServerList)
  | setTimeouts (timeouts : Timeouts)
  | setSink (sink : LogSink)

/-- The commands that a call may give up: the one it issues, or those that are buffered. -/
def Call.forsakes (seq : Nat) : Call → Slot → Prop
  | .issue _ _, slot => slot.seq = seq
  | .flush _, slot | .resetBuffers, slot => slot.delivery = .buffered
  | _, _ => False

/-- What a caller learns from a call. -/
inductive Outcome where
  /-- The command was queued for the next flush. -/
  | buffered
  /-- One outcome for every buffered command. -/
  | flushed (completions : List Completion)
  | failed (error : ClientError)
  /-- The call succeeded in any other way. -/
  | done

namespace Client

variable {ω : Type}

/-- The outcome of a data operation, whatever it fetches. -/
def outcomeOf {α : Type} : Except ClientError (Reply α) × Client ω → Outcome × Client ω
  | (.error error, client) => (.failed error, client)
  | (.ok .buffered, client) => (.buffered, client)
  | (.ok (.ready _), client) => (.done, client)

variable [Network ω]

/-- A data operation. -/
def operate (client : Client ω) (timeout : Option Nat) : Command → Outcome × Client ω
  | .get key fields => outcomeOf (client.get key fields timeout)
  | .set key value parameters => outcomeOf (client.set key value parameters timeout)
  | .add key value parameters => outcomeOf (client.add key value parameters timeout)
  | .replace key value parameters => outcomeOf (client.replace key value parameters timeout)
  | .delete key => outcomeOf (client.delete key timeout)
  | .increment key parameters => outcomeOf (client.increment key parameters timeout)
  | .decrement key parameters => outcomeOf (client.decrement key parameters timeout)
  | .noop server => outcomeOf (client.noop server timeout)
  | .version server => outcomeOf (client.version server timeout)
  | .stat group server => outcomeOf (client.stat group server timeout)

/-- The outcome of a call that succeeds without a value. -/
def outcomeOfUnit : Except ClientError Unit × Client ω → Outcome × Client ω
  | (.error error, client) => (.failed error, client)
  | (.ok (), client) => (.done, client)

/-- The outcome of a flush. -/
def outcomeOfFlush : Except ClientError (List Completion) × Client ω → Outcome × Client ω
  | (.error error, client) => (.failed error, client)
  | (.ok completions, client) => (.flushed completions, client)

/-- Makes a call. -/
def perform (client : Client ω) : Call → Outcome × Client ω
  | .issue command timeout => client.operate timeout command
  | .flush timeout => outcomeOfFlush (client.flush timeout)
  | .resetBuffers => (.done, client.resetBuffers)
  | .setBuffering buffering => (.done, client.setBuffering buffering)
  | .setServers servers => outcomeOfUnit (client.setServers servers)
  | .setTimeouts timeouts => outcomeOfUnit (client.setTimeouts timeouts)
  | .setSink sink => (.done, client.withSink sink)

/-! ## Data operations -/

/-- Sends a command to the server it names, or to the one its key belongs to. -/
def issue (client : Client ω) (command : Command) (timeout : Option Nat) :
    Except ClientError (Reply Output) × Client ω :=
  match command.server? with
  | some server => client.dispatch server command.request command.expect timeout
  | none => client.dispatchKey command.request command.expect timeout

omit [Network ω] in
/-- Reading the output of a command changes neither the client nor whether the command
was queued. -/
theorem outcomeOf_readReply {α : Type} (opcode : Opcode) (extract : Output → Option α)
    (outcome : Except ClientError (Reply Output) × Client ω) :
    (outcomeOf (readReply opcode extract outcome)).2 = outcome.2 ∧
      ((outcomeOf (readReply opcode extract outcome)).1 = .buffered ↔
        outcome.1 = .ok .buffered) ∧
      ∀ completions, (outcomeOf (readReply opcode extract outcome)).1 ≠ .flushed completions := by
  rcases outcome with ⟨error | value | _, client⟩
  · simp [readReply, outcomeOf]
  · cases hextract : extract value <;> simp [readReply, outcomeOf, hextract]
  · simp [readReply, outcomeOf]

/-- A data operation is a dispatch of its command. -/
theorem perform_issue (client : Client ω) (command : Command) (timeout : Option Nat) :
    (client.perform (.issue command timeout)).2 = (client.issue command timeout).2 ∧
      ((client.perform (.issue command timeout)).1 = .buffered ↔
        (client.issue command timeout).1 = .ok .buffered) ∧
      ∀ completions, (client.perform (.issue command timeout)).1 ≠ .flushed completions := by
  cases command <;> exact outcomeOf_readReply _ _ _

/-! ## What calls give up -/

/-- Steps that lead a client to another state, in which only commands that satisfy a
condition are given up. -/
def Proceeds (may : Slot → Prop) (client after : Client ω) : Prop :=
  ∃ incidents, client.Steps incidents after ∧
    ∀ incident ∈ incidents, incident.GivesUpOnly may

/-- Nothing happens. -/
theorem Proceeds.refl (may : Slot → Prop) (client : Client ω) : client.Proceeds may client := by
  refine ⟨[], .refl, ?_⟩
  intro incident hmem
  cases hmem

/-- A sequence of steps goes on. -/
theorem Proceeds.append {may : Slot → Prop} {client between after : Client ω} {more : Trace}
    (hproceeds : client.Proceeds may between) (hsteps : between.Steps more after)
    (hmore : ∀ incident ∈ more, incident.GivesUpOnly may) : client.Proceeds may after := by
  obtain ⟨incidents, hfirst, hgives⟩ := hproceeds
  refine ⟨incidents ++ more, hfirst.append hsteps, ?_⟩
  intro incident hmem
  rcases List.mem_append.mp hmem with hold | hnew
  · exact hgives incident hold
  · exact hmore incident hnew

/-- A step in which nothing happens. -/
theorem Proceeds.quiet {may : Slot → Prop} {client between after : Client ω}
    (hproceeds : client.Proceeds may between) (hstep : between.Step [] after) :
    client.Proceeds may after := by
  apply hproceeds.append (.single hstep)
  intro incident hmem
  cases hmem

/-! ## Waiting calls -/

/-- A list is split where a value of it is replaced. -/
theorem exists_set_split {α : Type} {values : List α} {place : Nat} {value : α}
    (hplace : values[place]? = some value) :
    ∃ front back, values = front ++ value :: back ∧
      ∀ other, values.set place other = front ++ other :: back := by
  obtain ⟨hinside, hvalue⟩ := List.getElem?_eq_some_iff.mp hplace
  refine ⟨values.take place, values.drop (place + 1), ?_, fun other => ?_⟩
  · rw [← hvalue, List.getElem_cons_drop, List.take_append_drop]
  · rw [List.set_eq_take_append_cons_drop, if_pos hinside]

/-- What queueing a command does: its frame and its slot join the link of its server. -/
theorem queue_cases {client after : Client ω} {server seq : Nat} {request : Request}
    {expect : Expect} {delivery : Delivery}
    (hqueue : client.queue server request expect = .ok (seq, delivery, after)) :
    ∃ front link back, client.pool.links = front ++ link :: back ∧
      request.validate = .ok () ∧ seq = client.ledger.nextSeq ∧
      delivery = client.ledger.delivery ∧
      after = { client with
        ledger := { client.ledger with
          nextSeq := client.ledger.nextSeq + 1, nextTag := client.ledger.nextTag + 1 }
        pool := { client.pool with
          links := front ++ link.enqueue { request with tag := client.ledger.nextTag }
            (client.ledger.slotFor request expect) :: back } } := by
  unfold queue Pool.link at hqueue
  split at hqueue
  · cases hqueue
  rename_i link hlink
  split at hlink
  · rename_i link hget
    cases hlink
    split at hqueue
    · cases hqueue
    unfold Ledger.submit at hqueue
    split at hqueue
    · cases hqueue
    · rename_i ledger queued hsubmit
      split at hsubmit
      · cases hsubmit
      rename_i hvalid
      cases hsubmit
      cases hqueue
      obtain ⟨front, back, hsplit, hset⟩ := exists_set_split hget
      refine ⟨front, link, back, hsplit, hvalid, rfl, rfl, ?_⟩
      rw [Pool.setLink, hset]
  · cases hlink

/-- A command within the limits is queued if the link of its server is not dead. -/
theorem queue_of_link {client : Client ω} {server : Nat} {link : Link} {command : Command}
    (hlink : client.pool.links[server]? = some link) (halive : link.phase.health ≠ .dead)
    (hlimits : command.request.validate = .ok ()) :
    client.queue server command.request command.expect
      = .ok (client.ledger.nextSeq, client.ledger.delivery, { client with
          ledger := { client.ledger with
            nextSeq := client.ledger.nextSeq + 1, nextTag := client.ledger.nextTag + 1 }
          pool := { client.pool with
            links := client.pool.links.set server (link.enqueue
              (client.nextTicket command).request (client.nextTicket command).slot) } }) := by
  unfold queue Pool.link
  rw [hlink]
  dsimp only
  rw [if_neg fun hdead => halive hdead.1]
  unfold Ledger.submit
  rw [hlimits]
  rfl

/-- A call ends as the wait for its command, if this fails. -/
theorem await_of_failed {client driven : Client ω} {seq deadline : Nat} {error : ClientError}
    (hrun : client.run (.command seq) deadline = (.error error, driven)) :
    client.await seq deadline = (.error error, driven) := by
  unfold await
  rw [hrun]

/-- A call whose target is met collects what is kept of its command. -/
theorem snd_await_of_met {client driven : Client ω} {seq deadline : Nat}
    (hrun : client.run (.command seq) deadline = (.ok (), driven)) :
    (client.await seq deadline).2
      = { driven with ledger := (driven.ledger.takeDirect seq).2 } := by
  unfold await
  rw [hrun]
  dsimp only
  split <;> rfl

/-- A call returns the result of its command. -/
theorem await_of_found {client driven : Client ω} {seq deadline : Nat}
    {result : Except ClientError Output}
    (hrun : client.run (.command seq) deadline = (.ok (), driven))
    (hfound : driven.ledger.direct.lookup seq = some result) :
    client.await seq deadline
      = (result.map .ready, { driven with ledger := (driven.ledger.takeDirect seq).2 }) := by
  refine Prod.ext ?_ (snd_await_of_met hrun)
  unfold await
  rw [hrun]
  dsimp only [Ledger.takeDirect]
  rw [hfound]
  cases result <;> rfl

/-- Waiting for a command ends as driving for it ends, but for the results that are kept. -/
theorem await_run (client : Client ω) (seq deadline : Nat) :
    ∃ ledger, (client.await seq deadline).2
      = { (client.run (.command seq) deadline).2 with ledger } := by
  rcases hrun : client.run (.command seq) deadline with ⟨error | ⟨⟨⟩⟩, driven⟩
  · exact ⟨driven.ledger, by rw [await_of_failed hrun]⟩
  · exact ⟨_, snd_await_of_met hrun⟩

/-- Waiting for a direct command: the links are driven, and its result is collected. -/
theorem await_cases (client : Client ω) (seq deadline : Nat) :
    (client.await seq deadline).1 ≠ .ok .buffered ∧
      ∃ incidents driven, client.Drives (MayDrop (.command seq)) incidents driven ∧
        ((client.await seq deadline).2 = driven ∨
          (client.await seq deadline).2
            = { driven with ledger := (driven.ledger.takeDirect seq).2 }) := by
  obtain ⟨incidents, hdrives⟩ :=
    drives_drive (.command seq) deadline (Network.pollLimit client.net) client
  change client.Drives _ incidents (client.run (.command seq) deadline).2 at hdrives
  rcases hrun : client.run (.command seq) deadline with ⟨error | ⟨⟨⟩⟩, driven⟩
  all_goals rw [hrun] at hdrives
  · rw [await_of_failed hrun]
    exact ⟨fun hnone => (nomatch hnone), incidents, driven, hdrives, .inl rfl⟩
  · refine ⟨?_, incidents, driven, hdrives, .inr (snd_await_of_met hrun)⟩
    unfold await
    rw [hrun]
    dsimp only
    split
    all_goals exact fun hnone => (nomatch hnone)

/-- Why a command is refused before it is queued: it breaks a limit, no server is found for it,
or its server is excluded. -/
inductive Refuses (command : Command) : ClientError → Prop
  | invalid {error : WireError} (hinvalid : command.request.validate = .error error) :
      Refuses command (.protocol error)
  | unrouted (error : ConfigError) : Refuses command (.config error)
  | excluded (link : Link) : Refuses command link.deadError

/-- A command that is not queued is refused. -/
theorem queue_refuses {client : Client ω} {server : Nat} {command : Command} {error : ClientError}
    (hqueue : client.queue server command.request command.expect = .error error) :
    Refuses command error := by
  unfold queue at hqueue
  split at hqueue
  · cases hqueue
    exact .unrouted _
  split at hqueue
  · cases hqueue
    exact .excluded _
  unfold Ledger.submit at hqueue
  split at hqueue
  · rename_i hsubmit
    split at hsubmit
    · rename_i hinvalid
      cases hsubmit
      cases hqueue
      exact .invalid hinvalid
    · cases hsubmit
  · cases hqueue

/-- A data operation is refused, queues its command for the next flush, or queues it and
waits for it. -/
theorem issue_cases (client : Client ω) (command : Command) (timeout : Option Nat) :
    (∃ error, Refuses command error ∧ client.issue command timeout = (.error error, client)) ∨
    ∃ server seq delivery queued,
      client.queue server command.request command.expect = .ok (seq, delivery, queued) ∧
      ((delivery = .buffered ∧ client.issue command timeout = (.ok .buffered, queued)) ∨
        (delivery = .direct ∧
          client.issue command timeout = queued.await seq (client.deadlineOf timeout))) := by
  have hdispatch (server : Nat) :
      (∃ error, Refuses command error ∧
        client.dispatch server command.request command.expect timeout = (.error error, client)) ∨
      ∃ server' seq delivery queued,
        client.queue server' command.request command.expect = .ok (seq, delivery, queued) ∧
        ((delivery = .buffered ∧ client.dispatch server command.request command.expect timeout
            = (.ok .buffered, queued)) ∨
          (delivery = .direct ∧ client.dispatch server command.request command.expect timeout
            = queued.await seq (client.deadlineOf timeout))) := by
    unfold dispatch
    dsimp only
    split
    · rename_i error hqueue
      exact .inl ⟨error, queue_refuses hqueue, rfl⟩
    · rename_i seq queued hqueue
      exact .inr ⟨server, _, _, _, hqueue, .inl ⟨rfl, rfl⟩⟩
    · rename_i seq queued hqueue
      exact .inr ⟨server, _, _, _, hqueue, .inr ⟨rfl, rfl⟩⟩
  unfold issue
  split
  · exact hdispatch _
  · unfold dispatchKey
    split
    · rename_i hinvalid
      exact .inl ⟨_, .invalid hinvalid, rfl⟩
    split
    · exact .inl ⟨_, .unrouted _, rfl⟩
    · exact hdispatch _

/-- A data operation is a sequence of steps, and gives up no other command. -/
theorem proceeds_issue (client : Client ω) (command : Command) (timeout : Option Nat) :
    client.Proceeds (fun slot => slot.seq = client.ledger.nextSeq)
      (client.issue command timeout).2 := by
  rcases issue_cases client command timeout with
    ⟨error, -, hrefused⟩ | ⟨server, seq, delivery, queued, hqueue, hend⟩
  · rw [hrefused]
    exact .refl _ client
  have hqueued : client.Proceeds (fun slot => slot.seq = client.ledger.nextSeq) queued := by
    apply (Proceeds.refl _ client).append (.single (.queued hqueue))
    intro incident hmem
    rw [List.mem_singleton.mp hmem]
    trivial
  rcases hend with ⟨-, hissue⟩ | ⟨-, hissue⟩
  · rw [hissue]
    exact hqueued
  · rw [hissue]
    obtain ⟨_, _, _, -, -, rfl, -, -⟩ := queue_cases hqueue
    obtain ⟨-, incidents, driven, hdrives, hcollects⟩ :=
      await_cases queued client.ledger.nextSeq (client.deadlineOf timeout)
    have hdriven : client.Proceeds (fun slot => slot.seq = client.ledger.nextSeq) driven := by
      apply hqueued.append hdrives.steps
      intro incident hmem
      simpa [Target.covers] using (hdrives.allowed incident hmem).covered
    rcases hcollects with hcollect | hcollect
    · rw [hcollect]
      exact hdriven
    · rw [hcollect]
      exact hdriven.quiet (.collected client.ledger.nextSeq)

/-- A flush ends as driving ends, but for the outcomes that are kept. -/
theorem flush_run (client : Client ω) (timeout : Option Nat) :
    ∃ ledger, (client.flush timeout).2
      = { (client.run .allBuffered (client.deadlineOf timeout)).2 with ledger } := by
  unfold flush
  rcases client.run .allBuffered (client.deadlineOf timeout) with ⟨error | ⟨⟨⟩⟩, driven⟩
  all_goals exact ⟨_, rfl⟩

/-- A flush drives the links, and collects the outcomes if nothing went wrong. -/
theorem flush_cases (client : Client ω) (timeout : Option Nat) :
    ∃ incidents driven, client.Drives (MayDrop .allBuffered) incidents driven ∧
      driven = (client.run .allBuffered (client.deadlineOf timeout)).2 ∧
      ((∃ error, (client.run .allBuffered (client.deadlineOf timeout)).1 = .error error ∧
          client.flush timeout = (.error error, driven)) ∨
        ((client.run .allBuffered (client.deadlineOf timeout)).1 = .ok () ∧
          client.flush timeout
            = (.ok driven.ledger.drain.1, { driven with ledger := driven.ledger.forget }))) := by
  obtain ⟨incidents, hdrives⟩ :=
    drives_drive .allBuffered (client.deadlineOf timeout) (Network.pollLimit client.net) client
  refine ⟨incidents, _, hdrives, rfl, ?_⟩
  unfold flush
  rcases hrun : client.run .allBuffered (client.deadlineOf timeout) with ⟨error | ⟨⟨⟩⟩, driven⟩
  all_goals
    unfold run at hrun
    rw [hrun]
  · exact .inl ⟨error, rfl, rfl⟩
  · exact .inr ⟨rfl, rfl⟩

/-- A flush is a sequence of steps, and gives up no command that is not buffered. -/
theorem proceeds_flush (client : Client ω) (timeout : Option Nat) :
    client.Proceeds (fun slot => slot.delivery = .buffered) (client.flush timeout).2 := by
  obtain ⟨incidents, driven, hdrives, -, hend⟩ := flush_cases client timeout
  have hdriven : client.Proceeds (fun slot => slot.delivery = .buffered) driven := by
    refine ⟨incidents, hdrives.steps, ?_⟩
    intro incident hmem
    simpa [Target.covers] using (hdrives.allowed incident hmem).covered
  rcases hend with ⟨error, -, hflush⟩ | ⟨-, hflush⟩
  · rw [hflush]
    exact hdriven
  · rw [hflush]
    exact hdriven.quiet .emptied

/-! ## Dropping what is buffered -/

/-- The slots that links give up when what is buffered is dropped, unsent ones first. -/
def forgotten (links : List Link) : List Slot :=
  links.flatMap fun link => (link.abandon fun slot => slot.delivery = .buffered).2

/-- Only buffered commands are given up. -/
theorem buffered_of_forgotten {links : List Link} {slot : Slot} (hslot : slot ∈ forgotten links) :
    slot.delivery = .buffered := by
  obtain ⟨link, -, hgiven⟩ := List.mem_flatMap.mp hslot
  have hbuffered := (Link.mem_abandon hgiven).2.2
  rwa [decide_eq_true_iff] at hbuffered

/-- Giving up on the buffered commands of every link is a sequence of steps. -/
theorem steps_dropBuffered (client : Client ω) (pool : Pool) (front links : List Link) :
    Steps { client with pool := { pool with links := front ++ links } }
      ((forgotten links).map .dropped)
      { client with pool := { pool with links := front ++ (dropBuffered links).1 } } := by
  induction links generalizing front with
  | nil => exact .refl
  | cons link links ih =>
      have hothers := ih (front ++ [(link.abandon fun slot => slot.delivery = .buffered).1])
      have hfirst := @Move.link ω _
        { client with pool := { pool with links := front ++ link :: links } }
        0 front links link _ _ client.net rfl .discarded
      rw [Link.endings_map_dropped] at hfirst
      rw [List.append_assoc, List.append_assoc, List.singleton_append, List.singleton_append]
        at hothers
      have hall := (Steps.single (.move hfirst)).append hothers
      rw [← List.map_append] at hall
      exact hall

/-- Dropping the buffered commands is a sequence of steps. -/
theorem steps_resetBuffers (client : Client ω) :
    client.Steps ((forgotten client.pool.links).map .dropped) client.resetBuffers := by
  have hdropped := steps_dropBuffered client client.pool [] client.pool.links
  have hnoted := @Move.noted ω _ { client with
    pool := { client.pool with links := (dropBuffered client.pool.links).1 }
    ledger := client.ledger.forget } client.resetBuffers.log
  have hsteps := (hdropped.tail .emptied).tail (.move hnoted)
  rw [List.append_nil, List.append_nil] at hsteps
  exact hsteps

/-- Dropping the buffered commands gives up no other command. -/
theorem proceeds_resetBuffers (client : Client ω) :
    client.Proceeds (fun slot => slot.delivery = .buffered) client.resetBuffers := by
  refine ⟨_, client.steps_resetBuffers, ?_⟩
  intro incident hmem
  obtain ⟨slot, hslot, rfl⟩ := List.mem_map.mp hmem
  exact buffered_of_forgotten hslot

/-! ## Replacing the list of servers -/

/-- A link as it is when only listed servers stay. -/
def left (addresses : List ServerAddress) (link : Link) : Link :=
  if link.server.address ∈ addresses then link else link.cleared .disconnected

/-- Tears a link down if its server is not listed. -/
def leave (addresses : List ServerAddress) (link : Link) (around : Around ω) :
    Link × Around ω :=
  if link.server.address ∈ addresses then (link, around) else link.retire around

@[simp] theorem server_left (addresses : List ServerAddress) (link : Link) :
    (left addresses link).server = link.server := by
  unfold left
  split <;> rfl

/-- The links to listed servers are the same as before. -/
theorem find?_left {addresses : List ServerAddress} {address : ServerAddress}
    (hlisted : address ∈ addresses) (links : List Link) :
    (links.map (left addresses)).find? (·.server.address = address)
      = links.find? (·.server.address = address) := by
  induction links with
  | nil => rfl
  | cons link links ih =>
      by_cases haddress : link.server.address = address
      · rw [List.map_cons, List.find?_cons_of_pos (by simpa using haddress),
          List.find?_cons_of_pos (by simpa using haddress), left, if_pos (haddress ▸ hlisted)]
      · rw [List.map_cons, List.find?_cons_of_neg (by simpa using haddress),
          List.find?_cons_of_neg (by simpa using haddress), ih]

/-- Only links to listed servers are placed. -/
theorem place_left {addresses listed : List ServerAddress}
    (hlisted : ∀ address ∈ listed, address ∈ addresses) (links : List Link) (index : Nat)
    (token : Token) :
    Pool.place (links.map (left addresses)) index token listed
      = Pool.place links index token listed := by
  induction listed generalizing index token with
  | nil => rfl
  | cons address listed ih =>
      have hrest := ih fun address hmem => hlisted address (List.mem_cons_of_mem _ hmem)
      unfold Pool.place
      rw [find?_left (hlisted address List.mem_cons_self)]
      split <;> rw [hrest]

/-- Links that leave are torn down; the others stay as they are. -/
theorem eachLink_leave (addresses : List ServerAddress) (links : List Link) (around : Around ω) :
    Pool.eachLink (leave addresses) links around
      = (links.map (left addresses), (Pool.eachLink Link.retire
        (links.filter fun link => link.server.address ∉ addresses) around).2) := by
  induction links generalizing around with
  | nil => rfl
  | cons link links ih =>
      by_cases hlisted : link.server.address ∈ addresses
      · have hstay : leave addresses link around = (link, around) := by rw [leave, if_pos hlisted]
        rw [Pool.eachLink, hstay, List.map_cons, left, if_pos hlisted,
          List.filter_cons_of_neg (by simpa using hlisted)]
        have hlinks := congrArg Prod.fst (ih around)
        have haround := congrArg Prod.snd (ih around)
        exact Prod.ext (congrArg (link :: ·) hlinks) haround
      · have hleave : leave addresses link around = link.retire around := by
          rw [leave, if_neg hlisted]
        rw [Pool.eachLink, hleave, List.map_cons, left, if_neg hlisted,
          List.filter_cons_of_pos (by simpa using hlisted)]
        have hlinks := congrArg Prod.fst (ih (link.retire around).2)
        have haround := congrArg Prod.snd (ih (link.retire around).2)
        exact Prod.ext (congrArg (link.cleared .disconnected :: ·) hlinks) haround

/-- Nothing waits on a link that leaves. -/
theorem vacant_left {addresses : List ServerAddress} {links : List Link} {link : Link}
    (hmem : link ∈ links.map (left addresses)) (hunlisted : link.server.address ∉ addresses) :
    link.Vacant := by
  obtain ⟨old, -, rfl⟩ := List.mem_map.mp hmem
  rw [server_left] at hunlisted
  rw [left, if_neg hunlisted]
  exact ⟨rfl, rfl, rfl⟩

/-- Tearing down the links that leave is a sequence of steps. -/
theorem drives_leave (client : Client ω) (addresses : List ServerAddress) :
    ∃ incidents, client.Drives Incident.Keeps incidents
      (client.amid { client.pool with links := client.pool.links.map (left addresses) }
        (Pool.eachLink Link.retire (client.pool.leaving addresses)
          ⟨client.net, client.log, []⟩).2) := by
  obtain ⟨incidents, hdrives⟩ := @drives_eachLink ω _ Incident.Keeps client (leave addresses)
    client.pool
    (fun link around => ⟨0, by
      unfold leave
      split
      · exact .refl rfl rfl rfl
      · exact Link.follows_retire⟩) [] client.pool.links ⟨client.net, client.log, []⟩
  rw [List.nil_append, List.nil_append, eachLink_leave] at hdrives
  exact ⟨incidents, hdrives⟩

/-- Replacing the list of servers: the links that leave are torn down, which is reported,
and then the list is replaced. -/
theorem installServers_cases {client after : Client ω} {addresses : List ServerAddress}
    {incidents : Trace} (hinstall : client.installServers addresses = .ok after)
    (hdrives : client.Drives Incident.Keeps incidents
      (client.amid { client.pool with links := client.pool.links.map (left addresses) }
        (Pool.eachLink Link.retire (client.pool.leaving addresses)
          ⟨client.net, client.log, []⟩).2)) :
    ∃ driven, client.Drives Incident.Keeps incidents driven ∧ driven.Step [] after ∧
      after.ledger = driven.ledger := by
  obtain ⟨hsome, hdistinct, hinstall⟩ := installServers_ok_iff.mp hinstall
  let driven : Client ω :=
    { client.amid { client.pool with links := client.pool.links.map (left addresses) }
        (Pool.eachLink Link.retire (client.pool.leaving addresses)
          ⟨client.net, client.log, []⟩).2 with
      log := after.log }
  have hnoted := hdrives.tail (.noted after.log) fun _ hmem => nomatch hmem
  rw [List.append_nil] at hnoted
  refine ⟨driven, hnoted, ?_, ?_⟩
  · have hplaced := @Step.placed ω _ driven addresses hsome
      (Pool.firstDuplicate?_nil_iff.mpr hdistinct) fun link => vacant_left
    simp only [driven, amid, place_left fun _ hmem => hmem] at hplaced
    subst hinstall
    exact hplaced
  · subst hinstall
    rfl

/-- Replacing the list of servers gives up no command. -/
theorem installServers_drives {client after : Client ω} {addresses : List ServerAddress}
    (hinstall : client.installServers addresses = .ok after) :
    ∃ incidents driven, client.Drives Incident.Keeps incidents driven ∧ driven.Step [] after ∧
      after.ledger = driven.ledger := by
  obtain ⟨incidents, hleave⟩ := drives_leave client addresses
  exact ⟨incidents, installServers_cases hinstall hleave⟩

/-! ## All calls -/

/-- **Every call is a sequence of steps**, and gives up no commands but its own. -/
theorem proceeds_perform (client : Client ω) (call : Call) :
    client.Proceeds (call.forsakes client.ledger.nextSeq) (client.perform call).2 := by
  cases call with
  | issue command timeout =>
      rw [(perform_issue client command timeout).1]
      exact proceeds_issue client command timeout
  | flush timeout =>
      have hflush := proceeds_flush client timeout
      show client.Proceeds _ (outcomeOfFlush (client.flush timeout)).2
      generalize client.flush timeout = result at hflush ⊢
      rcases result with ⟨error | completions, after⟩
      all_goals exact hflush
  | resetBuffers => exact proceeds_resetBuffers client
  | setBuffering buffering =>
      exact (Proceeds.refl _ client).quiet (.adjusted client.timeouts buffering)
  | setServers servers =>
      show client.Proceeds _ (outcomeOfUnit (client.setServers servers)).2
      unfold setServers
      split
      · exact .refl _ client
      split
      · exact .refl _ client
      · rename_i addresses hparse _ after hinstall
        obtain ⟨incidents, driven, hdrives, hplaced, -⟩ := installServers_drives hinstall
        have hdriven : client.Proceeds (fun _ => False) driven := by
          refine ⟨incidents, hdrives.steps, ?_⟩
          intro incident hmem
          exact (hdrives.allowed incident hmem).givesUpOnly _
        exact hdriven.quiet hplaced
  | setTimeouts timeouts =>
      show client.Proceeds _ (outcomeOfUnit (client.setTimeouts timeouts)).2
      unfold setTimeouts
      split
      · exact .refl _ client
      · exact (Proceeds.refl _ client).quiet (.adjusted timeouts client.ledger.buffering)
  | setSink sink => exact (Proceeds.refl _ client).quiet (.move (.noted (.empty sink)))

/-- A call uses the network in its steps only. -/
theorem steps_perform (client : Client ω) (call : Call) :
    ∃ incidents, client.Steps incidents (client.perform call).2 := by
  obtain ⟨incidents, hsteps, -⟩ := proceeds_perform client call
  exact ⟨incidents, hsteps⟩

/-- The client after a call is reached. -/
theorem reaches_perform {start client : Client ω} {trace : Trace}
    (hreach : start.Reaches trace client) (call : Call) :
    ∃ incidents, client.Steps incidents (client.perform call).2 ∧
      start.Reaches (trace ++ incidents) (client.perform call).2 := by
  obtain ⟨incidents, hsteps⟩ := steps_perform client call
  exact ⟨incidents, hsteps, hreach.steps hsteps⟩

/-- A client without servers. -/
def blank (timeouts : Timeouts) (buffering : Bool) (net : ω) : Client ω where
  timeouts := timeouts
  pool := .empty
  ledger := .empty buffering
  log := .empty .keep
  net := net

/-- A client with a configuration, whose timeouts are allowed, is one without servers that
installs those of the configuration. -/
theorem withConfig_installs {net : ω} {config : Config} {start : Client ω}
    (hconfig : withConfig net config = .ok start) :
    config.timeouts.validate = .ok () ∧ ∃ addresses, config.addresses = .ok addresses ∧
      (blank config.timeouts config.buffering net).installServers addresses = .ok start := by
  unfold withConfig at hconfig
  split at hconfig
  · cases hconfig
  rename_i hvalidate
  split at hconfig
  · cases hconfig
  rename_i addresses haddresses
  refine ⟨?_, addresses, haddresses, hconfig⟩
  unfold Config.validate at hvalidate
  split at hvalidate
  · cases hvalidate
  · rename_i htimeouts
    exact htimeouts

/-- A client that was just configured: a fresh link to every server. -/
theorem withConfig_cases {net : ω} {config : Config} {start : Client ω}
    (hconfig : withConfig net config = .ok start) :
    ∃ servers log, config.addresses = .ok servers ∧ servers ≠ [] ∧ servers.Nodup ∧
      config.timeouts.validate = .ok () ∧
      start = { blank config.timeouts config.buffering net with
        pool := { links := (Pool.place [] 0 0 servers).1, ring := .build servers
                  nextToken := (Pool.place [] 0 0 servers).2 }
        log := log } := by
  obtain ⟨htimeouts, servers, haddresses, hinstall⟩ := withConfig_installs hconfig
  obtain ⟨hsome, hdistinct, rfl⟩ := installServers_ok_iff.mp hinstall
  exact ⟨servers, _, haddresses, hsome, hdistinct, htimeouts, rfl⟩

/-- Opening a client asks nothing of the network. -/
theorem net_withConfig {net : ω} {config : Config} {start : Client ω}
    (hconfig : withConfig net config = .ok start) : start.net = net := by
  obtain ⟨_, _, -, -, -, -, rfl⟩ := withConfig_cases hconfig
  rfl

/-- A client that was just configured comes from one without servers, and nothing has
happened to it yet. -/
theorem reaches_withConfig {net : ω} {config : Config} {start client : Client ω} {trace : Trace}
    (hconfig : withConfig net config = .ok start) (hreach : start.Reaches trace client) :
    (blank config.timeouts config.buffering net).Reaches trace client := by
  induction hreach with
  | start =>
      obtain ⟨-, addresses, -, hinstall⟩ := withConfig_installs hconfig
      obtain ⟨driven, hdrives, hplaced, -⟩ := installServers_cases hinstall .refl
      exact Reaches.start.steps (hdrives.steps.append (.single hplaced))
  | step _ hstep ih => exact .step ih hstep
  | elapsed net _ ih => exact .elapsed net ih

end Client

end CachePool
