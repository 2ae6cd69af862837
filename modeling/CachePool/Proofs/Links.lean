/-
# Invariants of links

How a property of every link and its trace is carried along everything a client does.

* `Client.Ordered` : every socket has a line of its own, and every command a place;
* `Link.Invariant` : a property that the steps of a link keep, and that does not look at
  other links;
* `Client.Reaches.links` : such a property holds of every link of a client that is
  reached.
-/
import Mathlib.Data.List.Nodup
import CachePool.Proofs.Calls

namespace CachePool

/-! ## Tickets -/

/-- What is true of a command when it is accepted. -/
structure Ticket.Valid (ticket : Ticket) : Prop where
  length : ticket.slot.frameLength = ticket.request.frame.length
  original : ticket.slot.original = ticket.slot
  tag : ticket.request.tag = ticket.slot.tag
  opcode : ticket.request.opcode = ticket.slot.opcode
  key : ticket.request.key = ticket.slot.key
  stats : ticket.slot.expect = .stats ↔ ticket.slot.opcode = .stat
  limits : ticket.request.validate = .ok ()

/-- The slot of a ticket was given up by nobody. -/
theorem Ticket.Valid.unmarked {ticket : Ticket} (hvalid : ticket.Valid) :
    ticket.slot.unmarked = ticket.slot := by
  rw [← hvalid.original]
  rfl

/-- The frame of a ticket has octets. -/
theorem Ticket.Valid.frame_pos (ticket : Ticket) : 0 < ticket.request.frame.length := by
  rw [Request.length_frame, Request.frameLength, headerLength]
  omega

/-! ## What a step of a link keeps -/

/-- An incident that accepts no command and passes on no line but one. -/
structure Incident.About (line : Line) (incident : Incident) : Prop where
  tickets : incident.tickets = []
  line? : ∀ other, incident.line? = some other → other = line

namespace Incident.About

variable {line : Line} {incident : Incident}

theorem on (htickets : incident.tickets = []) (hline : incident.line? = some line) :
    incident.About line := by
  refine ⟨htickets, fun other hother => ?_⟩
  rw [hline] at hother
  exact (Option.some.inj hother).symm

theorem off (htickets : incident.tickets = []) (hline : incident.line? = none) :
    incident.About line := by
  refine ⟨htickets, fun other hother => ?_⟩
  rw [hline] at hother
  cases hother

theorem of_ended {finished : List Finished} (hmem : incident ∈ finished.map .ended) :
    incident.About line := by
  obtain ⟨first, -, rfl⟩ := List.mem_map.mp hmem
  exact off rfl rfl

theorem of_dropped {slots : List Slot} (hmem : incident ∈ slots.map .dropped) :
    incident.About line := by
  obtain ⟨first, -, rfl⟩ := List.mem_map.mp hmem
  exact off rfl rfl

end Incident.About

namespace Link

/-- Matching a reply changes only the queue of those that wait. -/
theorem matchReply_eq {link next : Link} {response : Response} {finished : List Finished}
    (hmatch : link.matchReply response = .ok (next, finished)) :
    next = { link with awaiting := next.awaiting } := by
  unfold matchReply at hmatch
  split at hmatch
  · cases hmatch
  split at hmatch
  · cases hmatch
  split at hmatch
  · cases hmatch
  split at hmatch
  all_goals
    cases hmatch
    rfl

/-- Matching replies changes only the queue of those that wait. -/
theorem Answers.eq {link last : Link} {responses : List Response} {incidents : Trace}
    (hanswers : Answers link responses incidents last) :
    last = { link with awaiting := last.awaiting } := by
  induction hanswers with
  | nil => rfl
  | cons _ hmatch _ ih =>
      rw [matchReply_eq hmatch] at ih
      exact ih

/-- Replies are given on the line of the link. -/
theorem Answers.about {link last : Link} {responses : List Response} {incidents : Trace}
    (hanswers : Answers link responses incidents last) :
    ∀ incident ∈ incidents, incident.About link.line := by
  induction hanswers with
  | nil =>
      intro _ hmem
      cases hmem
  | cons _ hmatch _ ih =>
      intro incident hmem
      rcases List.mem_append.mp hmem with hmem | hmem
      · rcases List.mem_cons.mp hmem with rfl | hmem
        · exact .on rfl rfl
        · exact .of_ended hmem
      · rw [matchReply_eq hmatch] at ih
        exact ih incident hmem

/-- Tearing a link down passes nothing on any line. -/
theorem about_loss {link : Link} {failure : Failure} {line : Line} :
    ∀ incident ∈ link.loss failure, incident.About line := by
  intro incident hmem
  rcases List.mem_cons.mp hmem with rfl | hmem
  · exact .off rfl rfl
  · exact .of_ended hmem

/-- Tearing a link down says nothing on any line. -/
theorem silent_loss (link : Link) (failure : Failure) (line : Line) :
    (link.loss failure).Silent line :=
  (Trace.silent_singleton rfl line).append (Trace.silent_map_ended _ line)

/-- Giving up on slots at a deadline passes on no line. -/
theorem silent_expiry (link : Link) (target : Target) (given : List Slot) (line : Line) :
    (link.expiry target given).Silent line := by
  cases target with
  | command seq => exact Trace.silent_map_dropped _ line
  | allBuffered => exact Trace.silent_map_ended _ line

variable {ω : Type} [Network ω] {now : Nat} {timeouts : Timeouts} {link after : Link}
  {net last : ω} {incidents : Trace}

/-- A loss happens on the line of its link. -/
theorem Loses.about {losing : Link} {failure : Failure}
    (hloses : Loses now timeouts link net incidents losing failure last) :
    ∀ incident ∈ incidents, incident.About link.line := by
  have hreported : ∀ incident ∈ [Incident.reported link.line], incident.About link.line := by
    intro incident hmem
    rw [List.mem_singleton.mp hmem]
    exact .off rfl rfl
  cases hloses with
  | @refusing _ _ ending _ _ _ _ _ _ _ _ _ _ hanswers =>
      intro incident hmem
      rcases List.mem_append.mp hmem with hmem | hmem
      · rcases List.mem_cons.mp hmem with rfl | hmem
        · exact .on rfl rfl
        · cases ending with
          | drained => cases hmem
          | closed => exact hreported incident hmem
          | failed => exact hreported incident hmem
      · exact hanswers.about incident hmem
  | unreadable hphase hread =>
      intro incident hmem
      rcases List.mem_cons.mp hmem with rfl | hmem
      · exact .on rfl rfl
      · exact hreported incident hmem
  | unresponsive =>
      intro incident hmem
      rw [List.mem_singleton.mp hmem]
      exact .off rfl rfl
  | unresolved =>
      intro _ hmem
      cases hmem
  | unopened =>
      intro _ hmem
      cases hmem
  | late =>
      intro _ hmem
      cases hmem
  | refused => exact hreported
  | peerless => exact hreported
  | unwritable => exact hreported
  | stuck => exact hreported

/-- What a step does passes on the line of its link. -/
theorem Step.about (hstep : link.Step now timeouts net incidents after last) :
    ∀ incident ∈ incidents, incident.About link.line := by
  intro incident hmem
  cases hstep with
  | quiet => cases hmem
  | took hphase hwrite hcount =>
      rcases List.mem_cons.mp hmem with rfl | hmem
      · exact .on rfl rfl
      · obtain ⟨slot, -, rfl⟩ := List.mem_map.mp hmem
        exact .on rfl rfl
  | received hphase hread hfault hanswers =>
      rcases List.mem_cons.mp hmem with rfl | hmem
      · exact .on rfl rfl
      · exact hanswers.about incident hmem
  | lost hloses =>
      rcases List.mem_append.mp hmem with hmem | hmem
      · exact hloses.about incident hmem
      · exact about_loss incident hmem
  | retired => exact about_loss incident hmem
  | shortCircuited => exact .of_ended hmem
  | expired target =>
      cases target with
      | command seq => exact .of_dropped hmem
      | allBuffered => exact .of_ended hmem
  | discarded => exact .of_dropped hmem
  | opened =>
      rw [List.mem_singleton.mp hmem]
      exact .off rfl rfl
  | established =>
      rw [List.mem_singleton.mp hmem]
      exact .off rfl rfl
  | examined =>
      rw [List.mem_singleton.mp hmem]
      exact .off rfl rfl

/-- A link that is torn down is the link it was, but for its queues. -/
theorem Loses.token {losing : Link} {failure : Failure}
    (hloses : Loses now timeouts link net incidents losing failure last) :
    losing.token = link.token ∧ losing.server = link.server ∧ link.attempts ≤ losing.attempts := by
  cases hloses with
  | refusing _ _ _ _ hanswers _ =>
      rw [hanswers.eq]
      exact ⟨rfl, rfl, Nat.le_refl _⟩
  | unresolved => exact ⟨rfl, rfl, Nat.le_succ _⟩
  | unopened => exact ⟨rfl, rfl, Nat.le_succ _⟩
  | _ => exact ⟨rfl, rfl, Nat.le_refl _⟩

/-- A link keeps its token and its server, and counts its connects. -/
theorem Step.token (hstep : link.Step now timeouts net incidents after last) :
    after.token = link.token ∧ after.server = link.server ∧ link.attempts ≤ after.attempts := by
  cases hstep with
  | lost hloses => exact hloses.token
  | opened => exact ⟨rfl, rfl, Nat.le_succ _⟩
  | received _ _ _ hanswers =>
      rw [hanswers.eq]
      exact ⟨rfl, rfl, Nat.le_refl _⟩
  | _ => exact ⟨rfl, rfl, Nat.le_refl _⟩

end Link

/-! ## Placing links -/

namespace Pool

/-- The token after the placed links is not before the first one. -/
theorem le_place (existing : List Link) (index : Nat) (token : Token)
    (addresses : List ServerAddress) :
    token ≤ (place existing index token addresses).2 := by
  induction addresses generalizing index token with
  | nil => exact Nat.le_refl _
  | cons address addresses ih =>
      unfold place
      dsimp only
      split
      · exact ih (index + 1) token
      · exact Nat.le_of_succ_le (ih (index + 1) (token + 1))

/-- A placed link was there before under its address, or is fresh. -/
theorem mem_place {existing : List Link} {index : Nat} {token : Token}
    {addresses : List ServerAddress} {link : Link}
    (hmem : link ∈ (place existing index token addresses).1) :
    (∃ old ∈ existing, old.server.address ∈ addresses ∧ link = { old with server := link.server }) ∨
      ∃ fresh, token ≤ fresh ∧ fresh < (place existing index token addresses).2 ∧
        link = Link.make link.server fresh := by
  induction addresses generalizing index token with
  | nil => cases hmem
  | cons address addresses ih =>
      unfold place at hmem ⊢
      dsimp only at hmem ⊢
      split at hmem
      · rename_i old hfind
        rcases List.mem_cons.mp hmem with rfl | hmem
        · have haddress := List.find?_some hfind
          rw [decide_eq_true_iff] at haddress
          exact .inl ⟨old, List.mem_of_find?_eq_some hfind, haddress ▸ List.mem_cons_self, rfl⟩
        · rcases ih hmem with ⟨old, hold, haddress, hlink⟩ | hfresh
          · exact .inl ⟨old, hold, List.mem_cons_of_mem _ haddress, hlink⟩
          · exact .inr hfresh
      · rcases List.mem_cons.mp hmem with rfl | hmem
        · exact .inr
            ⟨token, Nat.le_refl _, le_place existing (index + 1) (token + 1) addresses, rfl⟩
        · rcases ih hmem with ⟨old, hold, haddress, hlink⟩ | ⟨fresh, hlow, hhigh, hlink⟩
          · exact .inl ⟨old, hold, List.mem_cons_of_mem _ haddress, hlink⟩
          · exact .inr ⟨fresh, Nat.le_of_succ_le hlow, hhigh, hlink⟩

/-- Links of different servers are different links, so that placing keeps tokens apart. -/
theorem nodup_place {existing : List Link} {index : Nat} {token : Token}
    {addresses : List ServerAddress} (hdistinct : (existing.map (·.token)).Nodup)
    (hknown : ∀ link ∈ existing, link.token < token) (haddresses : addresses.Nodup) :
    ((place existing index token addresses).1.map (·.token)).Nodup := by
  induction addresses generalizing index token with
  | nil => exact List.nodup_nil
  | cons address addresses ih =>
      obtain ⟨hnew, haddresses⟩ := List.nodup_cons.mp haddresses
      unfold place
      dsimp only
      split
      · rename_i old hfind
        refine List.nodup_cons.mpr ⟨?_, ih hknown haddresses⟩
        intro hmem
        obtain ⟨link, hlink, htoken⟩ := List.mem_map.mp hmem
        have hold := List.mem_of_find?_eq_some hfind
        have haddress := List.find?_some hfind
        rw [decide_eq_true_iff] at haddress
        rcases mem_place hlink with ⟨other, hother, hlisted, heq⟩ | ⟨fresh, hlow, -, heq⟩
        · rw [heq] at htoken
          have hsame : other = old := List.inj_on_of_nodup_map hdistinct hother hold htoken
          rw [hsame, haddress] at hlisted
          exact hnew hlisted
        · rw [heq] at htoken
          change fresh = old.token at htoken
          exact absurd (htoken ▸ hknown old hold) (Nat.not_lt_of_le hlow)
      · refine List.nodup_cons.mpr ⟨?_, ih (fun link hmem => Nat.lt_succ_of_lt (hknown link hmem))
          haddresses⟩
        intro hmem
        obtain ⟨link, hlink, htoken⟩ := List.mem_map.mp hmem
        change link.token = token at htoken
        rcases mem_place hlink with ⟨other, hother, -, heq⟩ | ⟨fresh, hlow, -, heq⟩
        · rw [heq] at htoken
          exact absurd htoken (Nat.ne_of_lt (hknown other hother))
        · rw [heq] at htoken
          exact absurd htoken (Nat.ne_of_gt hlow)

end Pool

/-! ## Order among lines and commands -/

namespace Client

variable {ω : Type}

/-- Every socket has a line of its own, on which nothing happened before it was opened,
and every command has a place of its own. -/
structure Ordered (trace : Trace) (client : Client ω) : Prop where
  distinct : (client.pool.links.map (·.token)).Nodup
  known : ∀ link ∈ client.pool.links, link.token < client.pool.nextToken
  later : ∀ link ∈ client.pool.links, ∀ attempt, link.attempts < attempt →
    trace.Silent ⟨link.token, attempt⟩
  unborn : ∀ token attempt, client.pool.nextToken ≤ token → trace.Silent ⟨token, attempt⟩
  valid : ∀ ticket ∈ trace.tickets, ticket.Valid
  places : trace.tickets.map (·.slot.seq) = List.range client.ledger.nextSeq

/-- A command that is accepted comes after all others. -/
theorem Ordered.seq_lt {trace : Trace} {client : Client ω} (hordered : client.Ordered trace)
    {ticket : Ticket} (hmem : ticket ∈ trace.tickets) :
    ticket.slot.seq < client.ledger.nextSeq := by
  have hseq : ticket.slot.seq ∈ trace.tickets.map (·.slot.seq) :=
    List.mem_map.mpr ⟨ticket, hmem, rfl⟩
  rw [hordered.places, List.mem_range] at hseq
  exact hseq

/-- The ticket of a command that is accepted is valid. -/
theorem valid_nextTicket {client : Client ω} {command : Command}
    (hvalid : command.request.validate = .ok ()) : (client.nextTicket command).Valid where
  length := by rw [Request.length_frame]; rfl
  original := rfl
  tag := rfl
  opcode := rfl
  key := rfl
  stats := command.expect_eq_stats_iff
  limits := hvalid

end Client

namespace Trace

/-- A trace about one line is silent on the others. -/
theorem silent_of_about {trace : Trace} {line other : Line}
    (habout : ∀ incident ∈ trace, incident.About other) (hne : line ≠ other) :
    trace.Silent line := by
  intro incident hmem hline
  exact hne ((habout incident hmem).line? line hline)

/-- A trace about one line accepts no commands. -/
theorem tickets_of_about {trace : Trace} {line : Line}
    (habout : ∀ incident ∈ trace, incident.About line) : trace.tickets = [] :=
  List.flatMap_eq_nil_iff.mpr fun incident hmem => (habout incident hmem).tickets

end Trace

/-! ## Invariants -/

/-- Links other than the one that takes a step pass on other lines. -/
theorem Link.line_ne {link other : Link} (htoken : link.token ≠ other.token) :
    link.line ≠ other.line := by
  intro hline
  exact htoken (congrArg Line.token hline)

/-- A property of a link and its trace that the steps of the link keep, and that looks at
nothing else. -/
structure Link.Invariant (ω : Type) [Network ω] (holds : Trace → Link → Prop) : Prop where
  make : ∀ {trace : Trace} (server : Server) {token : Token},
    (∀ attempt, trace.Silent ⟨token, attempt⟩) → holds trace (Link.make server token)
  moved : ∀ {trace : Trace} {link : Link} (server : Server),
    holds trace link → holds trace { link with server }
  aside : ∀ {trace more : Trace} {link : Link},
    more.Silent link.line → holds trace link → holds (trace ++ more) link
  queued : ∀ {trace : Trace} {link : Link} {ticket : Ticket}, ticket.Valid →
    (∀ other ∈ trace.tickets, other.slot.seq < ticket.slot.seq) → holds trace link →
    holds (trace ++ [.issued ticket]) (link.enqueue ticket.request ticket.slot)
  step : ∀ {trace incidents : Trace} {now : Nat} {timeouts : Timeouts} {link after : Link}
    {net last : ω}, (∀ ticket ∈ trace.tickets, ticket.Valid) →
    (trace.tickets.map (·.slot.seq)).Nodup →
    (∀ attempt, link.attempts < attempt → trace.Silent ⟨link.token, attempt⟩) →
    link.Step now timeouts net incidents after last → holds trace link →
    holds (trace ++ incidents) after

/-- Keeping results does not count commands. -/
@[simp] theorem Ledger.nextSeq_absorb (ledger : Ledger) (finished : List Finished) :
    (ledger.absorb finished).nextSeq = ledger.nextSeq := by
  induction finished generalizing ledger with
  | nil => rfl
  | cons first others ih =>
      show ((ledger.record first).absorb others).nextSeq = _
      rw [ih, Ledger.record]
      dsimp only
      split <;> rfl

namespace Client

variable {ω : Type}

/-- The order looks at the links and the number of commands only. -/
theorem Ordered.congr {trace : Trace} {client after : Client ω} (hordered : client.Ordered trace)
    (hpool : after.pool = client.pool) (hseq : after.ledger.nextSeq = client.ledger.nextSeq) :
    after.Ordered (trace ++ []) := by
  rw [List.append_nil]
  refine ⟨?_, ?_, ?_, ?_, hordered.valid, ?_⟩
  · rw [hpool]
    exact hordered.distinct
  · rw [hpool]
    exact hordered.known
  · rw [hpool]
    exact hordered.later
  · rw [hpool]
    exact hordered.unborn
  · rw [hseq]
    exact hordered.places

/-- Every command has a place of its own. -/
theorem Ordered.nodup {trace : Trace} {client : Client ω} (hordered : client.Ordered trace) :
    (trace.tickets.map (·.slot.seq)).Nodup := by
  rw [hordered.places]
  exact List.nodup_range

/-- When one link is replaced, every other is an old one with a token of its own. -/
theorem Ordered.others {trace : Trace} {client : Client ω} {front back : List Link}
    {before after link : Link} (hordered : client.Ordered trace)
    (hlinks : client.pool.links = front ++ before :: back)
    (hlink : link ∈ front ++ after :: back) :
    link = after ∨ link ∈ client.pool.links ∧ link.token ≠ before.token := by
  have hdistinct := hordered.distinct
  rw [hlinks, List.map_append, List.map_cons, List.nodup_middle, ← List.map_append,
    List.nodup_cons] at hdistinct
  have hother (hmem : link ∈ front ++ back) :
      link ∈ client.pool.links ∧ link.token ≠ before.token := by
    constructor
    · rw [hlinks, List.mem_append, List.mem_cons]
      rw [List.mem_append] at hmem
      exact hmem.imp_right .inr
    · intro htoken
      exact hdistinct.1 (List.mem_map.mpr ⟨link, hmem, htoken⟩)
  rcases List.mem_append.mp hlink with hmem | hmem
  · exact .inr (hother (List.mem_append_left _ hmem))
  rcases List.mem_cons.mp hmem with rfl | hmem
  · exact .inl rfl
  · exact .inr (hother (List.mem_append_right _ hmem))

variable [Network ω]

/-- A step of one link keeps the order. -/
theorem Ordered.link {trace incidents : Trace} {client : Client ω} {now : Nat}
    {timeouts : Timeouts} {front back : List Link} {before after : Link} {net last : ω}
    {ledger : Ledger} {log : Log} (hordered : client.Ordered trace)
    (hlinks : client.pool.links = front ++ before :: back)
    (hstep : before.Step now timeouts net incidents after last)
    (hseq : ledger.nextSeq = client.ledger.nextSeq) :
    Ordered (trace ++ incidents)
      { client with
        pool := { client.pool with links := front ++ after :: back }
        net := last, ledger, log } := by
  obtain ⟨htoken, hserver, hattempts⟩ := hstep.token
  have htickets := Trace.tickets_of_about hstep.about
  have hmem : before ∈ client.pool.links := List.mem_iff_append.mpr ⟨_, _, hlinks⟩
  have hothers (link : Link) (hlink : link ∈ front ++ after :: back) :=
    hordered.others hlinks hlink
  refine ⟨?_, ?_, ?_, ?_, ?_, ?_⟩
  · have hdistinct := hordered.distinct
    rw [hlinks] at hdistinct
    simpa only [List.map_append, List.map_cons, htoken] using hdistinct
  · intro link hlink
    rcases hothers link hlink with rfl | ⟨hold, -⟩
    · rw [htoken]
      exact hordered.known before hmem
    · exact hordered.known link hold
  · intro link hlink attempt hattempt
    rcases hothers link hlink with rfl | ⟨hold, hne⟩
    · rw [htoken]
      apply (hordered.later before hmem attempt (by omega)).append
      apply Trace.silent_of_about hstep.about
      intro hline
      have hsame : attempt = before.attempts := congrArg Line.attempt hline
      omega
    · apply (hordered.later link hold attempt hattempt).append
      apply Trace.silent_of_about hstep.about
      intro hline
      exact hne (congrArg Line.token hline)
  · intro token attempt htoken
    apply (hordered.unborn token attempt htoken).append
    apply Trace.silent_of_about hstep.about
    intro hline
    have hsame : token = before.token := congrArg Line.token hline
    exact absurd (hordered.known before hmem) (Nat.not_lt_of_le (hsame ▸ htoken))
  · rw [Trace.tickets_append, htickets, List.append_nil]
    exact hordered.valid
  · rw [Trace.tickets_append, htickets, List.append_nil, hordered.places]
    exact congrArg List.range hseq.symm

/-- Accepting a command keeps the order. -/
theorem Ordered.queued {trace : Trace} {client after : Client ω} {server seq : Nat}
    {command : Command} {delivery : Delivery} (hordered : client.Ordered trace)
    (hqueue : client.queue server command.request command.expect = .ok (seq, delivery, after)) :
    after.Ordered (trace ++ [.issued (client.nextTicket command)]) := by
  obtain ⟨front, link, back, hlinks, hvalid, -, -, rfl⟩ := queue_cases hqueue
  have hsilent (line : Line) : Trace.Silent [.issued (client.nextTicket command)] line :=
    Trace.silent_singleton rfl line
  have hmem : link ∈ client.pool.links := List.mem_iff_append.mpr ⟨_, _, hlinks⟩
  have hothers (other : Link) (hother : other ∈ front ++
      link.enqueue (client.nextTicket command).request (client.nextTicket command).slot :: back) :=
    hordered.others hlinks hother
  refine ⟨?_, ?_, ?_, ?_, ?_, ?_⟩
  · have hdistinct := hordered.distinct
    rw [hlinks, List.map_append] at hdistinct
    rw [List.map_append]
    exact hdistinct
  · intro other hother
    rcases hothers other hother with rfl | ⟨hold, -⟩
    · exact hordered.known link hmem
    · exact hordered.known other hold
  · intro other hother attempt hattempt
    rcases hothers other hother with rfl | ⟨hold, -⟩
    · exact (hordered.later link hmem attempt hattempt).append (hsilent _)
    · exact (hordered.later other hold attempt hattempt).append (hsilent _)
  · intro token attempt htoken
    exact (hordered.unborn token attempt htoken).append (hsilent _)
  · intro ticket hticket
    rw [Trace.tickets_append, List.mem_append] at hticket
    rcases hticket with hticket | hticket
    · exact hordered.valid ticket hticket
    · rw [List.mem_singleton.mp hticket]
      exact valid_nextTicket hvalid
  · rw [Trace.tickets_append, List.map_append, hordered.places, List.range_succ]
    rfl

omit [Network ω] in
/-- Replacing the list of servers keeps the order. -/
theorem Ordered.placed {trace : Trace} {client : Client ω} {addresses : List ServerAddress}
    {ring : Ring} (hordered : client.Ordered trace)
    (hdistinct : Pool.firstDuplicate? [] addresses = none) :
    Ordered (trace ++ [])
      { client with
        pool := {
          links := (Pool.place client.pool.links 0 client.pool.nextToken addresses).1
          ring := ring
          nextToken := (Pool.place client.pool.links 0 client.pool.nextToken addresses).2 } } := by
  have hnext := Pool.le_place client.pool.links 0 client.pool.nextToken addresses
  rw [List.append_nil]
  refine ⟨?_, ?_, ?_, ?_, hordered.valid, hordered.places⟩
  · exact Pool.nodup_place hordered.distinct hordered.known
      (Pool.firstDuplicate?_nil_iff.mp hdistinct)
  · intro link hlink
    rcases Pool.mem_place hlink with ⟨old, hold, -, heq⟩ | ⟨fresh, -, hhigh, heq⟩
    · rw [heq]
      exact Nat.lt_of_lt_of_le (hordered.known old hold) hnext
    · rw [heq]
      exact hhigh
  · intro link hlink attempt hattempt
    rcases Pool.mem_place hlink with ⟨old, hold, -, heq⟩ | ⟨fresh, hlow, -, heq⟩
    · rw [heq] at hattempt ⊢
      exact hordered.later old hold attempt hattempt
    · rw [heq]
      exact hordered.unborn fresh attempt hlow
  · intro token attempt htoken
    exact hordered.unborn token attempt (Nat.le_trans hnext htoken)

/-- A step of a client keeps the order. -/
theorem Ordered.step {trace incidents : Trace} {client after : Client ω}
    (hordered : client.Ordered trace) (hstep : client.Step incidents after) :
    after.Ordered (trace ++ incidents) := by
  cases hstep with
  | move hmove =>
      cases hmove with
      | link hlinks hstep => exact hordered.link hlinks hstep (Ledger.nextSeq_absorb _ _)
      | waited => exact hordered.congr rfl rfl
      | noted => exact hordered.congr rfl rfl
  | queued hqueue => exact hordered.queued hqueue
  | collected => exact hordered.congr rfl rfl
  | emptied => exact hordered.congr rfl rfl
  | placed hsome hdistinct hvacant => exact hordered.placed hdistinct
  | adjusted => exact hordered.congr rfl rfl

omit [Network ω] in
/-- A client without servers is ordered. -/
theorem ordered_blank (timeouts : Timeouts) (buffering : Bool) (net : ω) :
    (blank timeouts buffering net).Ordered [] where
  distinct := List.nodup_nil
  known _ hlink := nomatch hlink
  later _ hlink := nomatch hlink
  unborn _ _ _ _ hmem := nomatch hmem
  valid _ hticket := nomatch hticket
  places := rfl

/-- Every client that is reached is ordered. -/
theorem Reaches.ordered {timeouts : Timeouts} {buffering : Bool} {net : ω} {trace : Trace}
    {client : Client ω} (hreach : (blank timeouts buffering net).Reaches trace client) :
    client.Ordered trace := by
  induction hreach with
  | start => exact ordered_blank timeouts buffering net
  | step _ hstep ih => exact ih.step hstep
  | elapsed net _ ih =>
      exact ⟨ih.distinct, ih.known, ih.later, ih.unborn, ih.valid, ih.places⟩

/-! ## Links that are reached -/

variable {holds : Trace → Link → Prop}

/-- A step of a client keeps an invariant of its links. -/
theorem Step.links {trace incidents : Trace} {client after : Client ω}
    (hinvariant : Link.Invariant ω holds) (hordered : client.Ordered trace)
    (hstep : client.Step incidents after) (hall : ∀ link ∈ client.pool.links, holds trace link) :
    ∀ link ∈ after.pool.links, holds (trace ++ incidents) link := by
  intro link hlink
  cases hstep with
  | move hmove =>
      cases hmove with
      | @link now front back before last _ _ hlinks hstep =>
          have hmem : before ∈ client.pool.links := List.mem_iff_append.mpr ⟨_, _, hlinks⟩
          rcases hordered.others hlinks hlink with rfl | ⟨hold, hne⟩
          · exact hinvariant.step hordered.valid hordered.nodup (hordered.later before hmem) hstep
              (hall before hmem)
          · exact hinvariant.aside (Trace.silent_of_about hstep.about (Link.line_ne hne))
              (hall link hold)
      | waited =>
          rw [List.append_nil]
          exact hall link hlink
      | noted =>
          rw [List.append_nil]
          exact hall link hlink
  | @queued server seq command delivery _ hqueue =>
      obtain ⟨front, old, back, hlinks, hvalid, -, -, rfl⟩ := queue_cases hqueue
      have hmem : old ∈ client.pool.links := List.mem_iff_append.mpr ⟨_, _, hlinks⟩
      rcases hordered.others hlinks hlink with rfl | ⟨hold, -⟩
      · exact hinvariant.queued (@valid_nextTicket ω client command hvalid)
          (fun other hother => hordered.seq_lt hother) (hall old hmem)
      · exact hinvariant.aside (Trace.silent_singleton rfl _) (hall link hold)
  | placed hsome hdistinct hvacant =>
      rw [List.append_nil]
      rcases Pool.mem_place hlink with ⟨old, hold, -, heq⟩ | ⟨fresh, hlow, -, heq⟩
      · rw [heq]
        exact hinvariant.moved link.server (hall old hold)
      · rw [heq]
        exact hinvariant.make link.server fun attempt => hordered.unborn fresh attempt hlow
  | collected =>
      rw [List.append_nil]
      exact hall link hlink
  | emptied =>
      rw [List.append_nil]
      exact hall link hlink
  | adjusted =>
      rw [List.append_nil]
      exact hall link hlink

/-- **An invariant of links holds of every link of a client that is reached.** -/
theorem Reaches.links {timeouts : Timeouts} {buffering : Bool} {net : ω} {trace : Trace}
    {client : Client ω} (hinvariant : Link.Invariant ω holds)
    (hreach : (blank timeouts buffering net).Reaches trace client) :
    ∀ link ∈ client.pool.links, holds trace link := by
  induction hreach with
  | start =>
      intro _ hlink
      cases hlink
  | step hreach hstep ih => exact hstep.links hinvariant hreach.ordered ih
  | elapsed _ _ ih => exact ih

end Client

end CachePool
