/-
# Buffered work that is forgotten

A reset gives up the buffered commands wherever they stand, and the outcomes nobody
collected.  It touches no socket, so that a frame that is begun has to be finished; a frame
of which nothing is written is cut out.  From then on every fresh slot belongs to a command
that was issued later, which is why no octet of a forgotten frame is ever written.  The
replies to forgotten commands are still read in their places, and those to the commands
behind them are told apart from them.

* `Link.Forgets`, `Client.Forgets` : what a reset makes of a link and of a client;
* `Client.Accounts.flush_nothing` : a flush without outstanding commands;
* `Client.Since`, `Client.Begins.since` : what sockets take since the reset was issued since;
* `Client.Undisturbed` : what commands issued later get on a line whose peer answers;
* `Client.reset_forgets_buffered` : a reset forgets the buffered work, and nothing else.
-/
import CachePool.Proofs.Directs
import CachePool.Proofs.LateReplies
import CachePool.Proofs.Teardown
import CachePool.Proofs.Transmission

namespace CachePool

/-! ## Links on which nobody waits -/

namespace Link

variable {link : Link}

/-- Someone waits for every fresh command, so that there is none where nobody waits. -/
theorem fresh_eq_nil (hlive : ∀ slot ∈ link.fresh, slot.isLive = true)
    (hwaiting : link.waiting = []) : link.fresh = [] := by
  refine List.eq_nil_iff_forall_not_mem.mpr fun slot hslot => ?_
  have hmem := seq_mem_waiting hlive hslot
  rw [hwaiting] at hmem
  cases hmem

/-- The octets that a link without fresh commands still offers are the rest of one frame that is
begun, or there are none. -/
inductive Finishing (tickets : List Ticket) (link : Link) : Prop
  | nothing (hunsent : link.unsent = []) (houtbound : link.outbound = [])
  | rest {ticket : Ticket} (haccepted : ticket ∈ tickets)
      (hunsent : link.unsent.map (·.seq) = [ticket.slot.seq]) (hbegun : 0 < link.headWritten)
      (hunfinished : link.headWritten < ticket.request.frame.length)
      (houtbound : link.outbound = ticket.request.frame.drop link.headWritten)

/-- A link without fresh commands finishes a frame at most. -/
theorem Carries.finishing {trace : Trace} {written queued : List Ticket}
    (hcarries : link.Carries trace written queued) (hfresh : link.fresh = []) :
    link.Finishing trace.tickets := by
  have hstarted : link.started = link.unsent := by
    have hunsent := link.started_append_fresh
    rwa [hfresh, List.append_nil] at hunsent
  have hlength : queued.length ≤ 1 := by
    rw [← List.length_map (·.slot), hcarries.slots, List.length_map, ← hstarted]
    exact link.length_started
  have hseqs := hcarries.slots.seqs
  have houtbound := hcarries.outbound
  cases queued with
  | nil =>
      rw [Trace.frames, List.flatMap_nil, List.drop_nil] at houtbound
      exact .nothing (List.map_eq_nil_iff.mp hseqs.symm) houtbound
  | cons ticket others =>
      have hothers : others = [] := List.length_eq_zero_iff.mp (by simpa using hlength)
      subst hothers
      rw [Trace.frames_cons, Trace.frames, List.flatMap_nil, List.append_nil] at houtbound
      have hmem : ticket ∈ written ++ [ticket] := List.mem_append_right _ List.mem_cons_self
      refine .rest (hcarries.order.subset hmem) hseqs.symm (Nat.pos_of_ne_zero fun hzero => ?_)
        hcarries.head houtbound
      rw [started, if_pos hzero] at hstarted
      rw [← hstarted] at hseqs
      cases hseqs

/-- Nobody waits for a buffered command on a link without buffered ones. -/
theorem liveCount_of_buffered (hnone : link.buffered = []) :
    link.liveCount Target.allBuffered.covers = 0 := by
  rw [liveCount, List.countP_eq_zero]
  rw [buffered, List.map_eq_nil_iff, List.filter_eq_nil_iff] at hnone
  exact hnone

/-- What a reset makes of a link: it gives up the buffered commands, after which nobody waits on
the link, and leaves everything but the queues as it is. -/
structure Forgets (tickets : List Ticket) (link after : Link) : Prop where
  kept : after = { link with
    outbound := after.outbound
    unsent := after.unsent
    awaiting := link.awaiting.map (abandonIf fun slot => slot.delivery = .buffered) }
  settled : after.waiting = []
  /-- The slot that is started stays, and no other. -/
  started : after.unsent.map (·.seq) = link.started.map (·.seq)
  finishing : after.Finishing tickets

/-- Giving up the buffered commands is all that a reset does to a link. -/
theorem forgets_abandon {tickets : List Ticket}
    (hsettled : (link.abandon fun slot => slot.delivery = .buffered).1.waiting = [])
    (hfresh : (link.abandon fun slot => slot.delivery = .buffered).1.fresh = [])
    (hfinishing : (link.abandon fun slot => slot.delivery = .buffered).1.Finishing tickets) :
    link.Forgets tickets (link.abandon fun slot => slot.delivery = .buffered).1 where
  kept := rfl
  settled := hsettled
  started := by
    have hunsent := started_append_fresh (link.abandon fun slot => slot.delivery = .buffered).1
    rw [hfresh, List.append_nil] at hunsent
    rw [← hunsent, link.started_abandon]
  finishing := hfinishing

end Link

/-! ## Clients on which nobody waits -/

namespace Client

variable {ω : Type}

/-- Nobody waits where no direct command waits and no buffered one. -/
theorem waiting_eq_nil {client : Client ω} (hdirects : client.directs = [])
    (hbuffered : client.buffered = []) : client.waiting = [] := by
  refine List.eq_nil_iff_forall_not_mem.mpr fun slot hslot => ?_
  cases hdelivery : slot.delivery with
  | direct =>
      have hmem : slot ∈ client.directs :=
        List.mem_filter.mpr ⟨hslot, decide_eq_true hdelivery⟩
      rw [hdirects] at hmem
      cases hmem
  | buffered =>
      have hmem : slot.pledge ∈ client.buffered := by
        rw [buffered_eq]
        exact List.mem_map.mpr ⟨slot, List.mem_filter.mpr ⟨hslot, decide_eq_true hdelivery⟩, rfl⟩
      rw [hbuffered] at hmem
      cases hmem

/-- What a reset makes of a client: the commands that someone waits for are given up, all of them
buffered ones, the outcomes nobody collected are forgotten, and only the queues change. -/
structure Forgets (trace : Trace) (client after : Client ω) : Prop where
  kept : after = { client with
    pool := { client.pool with links := after.pool.links }
    ledger := client.ledger.forget
    log := after.log }
  links : List.Forall₂ (Link.Forgets trace.tickets) client.pool.links after.pool.links
  given : ((forgotten client.pool.links).map Slot.original).Perm client.waiting
  buffered : ∀ slot ∈ forgotten client.pool.links, slot.delivery = .buffered

/-- What a reset adds to a trace. -/
def forgetting (client : Client ω) : Trace :=
  (forgotten client.pool.links).map .dropped

/-- The commands that links give up are those that someone waits for no more. -/
theorem perm_forgotten (links : List Link) :
    (links.flatMap Link.waiting).Perm
      ((dropBuffered links).1.flatMap Link.waiting ++ (forgotten links).map Slot.original) := by
  induction links with
  | nil => exact .refl _
  | cons link links ih =>
      have hlink := link.conserves_abandon fun slot => slot.delivery = .buffered
      rw [List.perm_iff_count] at ih hlink ⊢
      intro slot
      have hfirst := hlink slot
      have hothers := ih slot
      simp only [dropBuffered, forgotten, List.flatMap_cons, List.map_append, List.count_append]
        at hfirst hothers ⊢
      omega

variable [Network ω] {net : ω} {config : Config} {start client : Client ω} {books : Books}
  {trace : Trace}

/-- Nobody waits on a link after a reset between two calls. -/
theorem Session.waiting_resetBuffers (hconfig : withConfig net config = .ok start)
    (hsession : start.Session books client) : client.resetBuffers.waiting = [] := by
  have hidle : client.resetBuffers.Idle :=
    Session.idle hconfig (hsession.called client.net .resetBuffers)
  have haccounts : client.resetBuffers.Accounts [] :=
    (Session.agrees hconfig hsession).reset.accounts
  exact waiting_eq_nil hidle.directs (List.append_eq_nil_iff.mp haccounts.eq_nil).1

/-- A reset is a part of a history. -/
theorem Reaches.reset (hreach : start.Reaches trace client) :
    start.Reaches (trace ++ client.forgetting) client.resetBuffers :=
  hreach.steps client.steps_resetBuffers

omit [Network ω] in
/-- A reset accepts no command. -/
theorem tickets_forgetting (client : Client ω) : client.forgetting.tickets = [] := by
  unfold forgetting
  induction forgotten client.pool.links with
  | nil => rfl
  | cons slot slots ih => exact ih

/-- **A reset gives up what is buffered, and leaves the sockets as they are.** -/
theorem Session.forgets (hconfig : withConfig net config = .ok start)
    (hsession : start.Session books client) (hreach : start.Reaches trace client) :
    client.Forgets trace client.resetBuffers := by
  have hnobody := hsession.waiting_resetBuffers hconfig
  have hreset := reaches_withConfig hconfig hreach.reset
  refine ⟨rfl, ?_, ?_, fun slot => buffered_of_forgotten⟩
  · rw [links_resetBuffers, List.forall₂_map_right_iff, List.forall₂_same]
    intro link hlink
    have hmem : (link.abandon fun slot => slot.delivery = .buffered).1
        ∈ client.resetBuffers.pool.links := by
      rw [links_resetBuffers]
      exact List.mem_map_of_mem hlink
    have hsettled := List.flatMap_eq_nil_iff.mp hnobody _ hmem
    have hfresh := Link.fresh_eq_nil (hreset.links (Link.fresh_invariant ω) _ hmem) hsettled
    obtain ⟨written, queued, hcarries⟩ := hreset.links (Link.carries_invariant ω) _ hmem
    have hfinishing := hcarries.finishing hfresh
    rw [Trace.tickets_append, tickets_forgetting, List.append_nil] at hfinishing
    exact link.forgets_abandon hsettled hfresh hfinishing
  · have hgiven := perm_forgotten client.pool.links
    rw [show (dropBuffered client.pool.links).1.flatMap Link.waiting
      = client.resetBuffers.waiting from rfl, hnobody] at hgiven
    exact hgiven.symm

/-! ## A flush without outstanding commands -/

/-- The client after a flush that returns at once: every link was pushed forward, and no wait
came after it. -/
def flushedAtOnce (client : Client ω) : Client ω :=
  { client.pushed with ledger := client.pushed.ledger.forget }

/-- **A flush returns at once when no command is outstanding**, and has no outcomes to return. -/
theorem Accounts.flush_nothing (haccounts : client.Accounts []) (hapart : client.Apart)
    (timeout : Option Nat) : client.flush timeout = (.ok [], client.flushedAtOnce) := by
  obtain ⟨incidents, hdrives⟩ := drives_makeProgress client (Network.now client.net)
  obtain ⟨hpushed, -, -⟩ := haccounts.drives hapart hdrives fun _ _ _ hmem => nomatch hmem
  obtain ⟨hbuffered, huncollected⟩ := List.append_eq_nil_iff.mp hpushed.eq_nil
  have hmet : client.pushed.hasMet .allBuffered = true := by
    refine List.all_eq_true.mpr fun link hlink => decide_eq_true ?_
    exact Link.liveCount_of_buffered (List.flatMap_eq_nil_iff.mp hbuffered link hlink)
  have hnothing : client.pushed.ledger.drain = ([], client.pushed.ledger.forget) := by
    have hcompleted : client.pushed.ledger.completed = [] := List.map_eq_nil_iff.mp huncollected
    rw [Ledger.drain, hcompleted, List.mergeSort_nil]
    rfl
  unfold flush run
  rw [drive_met hmet]
  dsimp only
  rw [hnothing]
  rfl

/-! ## What sockets take later -/

omit [Network ω] in
/-- While a reset is made no socket takes anything. -/
theorem silent_forgetting (client : Client ω) (line : Line) : client.forgetting.Silent line :=
  Trace.silent_map_dropped _ line

omit [Network ω] in
/-- A reset leaves the commands that sockets took. -/
theorem Begins.reset {carried : Line → List Ticket} (hbegins : client.Begins trace carried) :
    client.resetBuffers.Begins (trace ++ client.forgetting) carried where
  transmits := hbegins.transmits.aside fun line =>
    ⟨Trace.taken_of_silent (client.silent_forgetting line),
      Trace.sent_of_silent (client.silent_forgetting line)⟩
  links := by
    rw [links_resetBuffers]
    refine List.forall_mem_map.mpr fun link hlink => ⟨fun hopen => ?_, fun slot hslot => ?_⟩
    · rw [Trace.sent_append, Trace.sent_of_silent (client.silent_forgetting _), List.append_nil,
        link.started_abandon]
      exact (hbegins.links link hlink).started hopen
    · exact (hbegins.links link hlink).fresh slot ((link.fresh_abandon _).subset hslot)

/-- Every fresh slot was issued at a place or behind it. -/
structure Since (place : Nat) (client : Client ω) : Prop where
  next : place ≤ client.ledger.nextSeq
  fresh : ∀ link ∈ client.pool.links, ∀ slot ∈ link.fresh, place ≤ slot.seq

/-- A step makes no older slot fresh. -/
theorem Since.step {place : Nat} {incidents : Trace} {after : Client ω}
    (hordered : client.Ordered trace) (hsince : client.Since place)
    (hstep : client.Step incidents after) : after.Since place := by
  cases hstep with
  | move hmove =>
      cases hmove with
      | @link now front back before last _ net hlinks hlink =>
          have hmem : before ∈ client.pool.links := List.mem_iff_append.mpr ⟨_, _, hlinks⟩
          refine ⟨?_, fun link hlast slot hslot => ?_⟩
          · rw [Ledger.nextSeq_absorb]
            exact hsince.next
          rcases hordered.others hlinks hlast with rfl | ⟨hold, -⟩
          · exact hsince.fresh before hmem slot (hlink.fresh.subset hslot)
          · exact hsince.fresh link hold slot hslot
      | waited => exact ⟨hsince.next, hsince.fresh⟩
      | noted => exact ⟨hsince.next, hsince.fresh⟩
  | queued hqueue =>
      obtain ⟨front, old, back, hlinks, -, -, -, rfl⟩ := queue_cases hqueue
      have hmem : old ∈ client.pool.links := List.mem_iff_append.mpr ⟨_, _, hlinks⟩
      refine ⟨Nat.le_succ_of_le hsince.next, fun link hlast slot hslot => ?_⟩
      rcases hordered.others hlinks hlast with rfl | ⟨hold, -⟩
      · rcases List.mem_append.mp ((Link.fresh_enqueue old _ _).subset hslot) with hslot | hnew
        · exact hsince.fresh old hmem slot hslot
        · rw [List.mem_singleton.mp hnew]
          exact hsince.next
      · exact hsince.fresh link hold slot hslot
  | collected => exact ⟨hsince.next, hsince.fresh⟩
  | emptied => exact ⟨hsince.next, hsince.fresh⟩
  | placed =>
      refine ⟨hsince.next, fun link hlink slot hslot => ?_⟩
      rcases Pool.mem_place hlink with ⟨old, hold, -, heq⟩ | ⟨token, -, -, heq⟩
      · rw [heq] at hslot
        exact hsince.fresh old hold slot hslot
      · rw [heq] at hslot
        cases hslot
  | adjusted => exact ⟨hsince.next, hsince.fresh⟩

variable {timeouts : Timeouts} {buffering : Bool} {more : Trace} {later : Client ω}

/-- **What sockets take once no older slot is fresh was issued since**, or they had begun it. -/
theorem Begins.since {place : Nat} {carried : Line → List Ticket}
    (hreach : (blank timeouts buffering net).Reaches trace client)
    (hbegins : client.Begins trace carried) (hsince : client.Since place)
    (hmore : client.Reaches more later) :
    later.Since place ∧ ∃ now, later.Begins (trace ++ more) now ∧
      ∀ line, ∀ ticket ∈ now line, ticket ∈ carried line ∨ place ≤ ticket.slot.seq := by
  induction hmore with
  | start =>
      rw [List.append_nil]
      exact ⟨hsince, carried, hbegins, fun _ _ hold => .inl hold⟩
  | @step between after more incidents hmore hstep ih =>
      obtain ⟨hbetween, now, hnow, holds⟩ := ih
      have hreached := hreach.trans hmore
      obtain ⟨next, hadds, hnext⟩ := hnow.step hreached hstep
      rw [List.append_assoc] at hnext
      refine ⟨hbetween.step hreached.ordered hstep, next, hnext, fun line ticket hticket => ?_⟩
      rcases hadds line ticket hticket with hold | ⟨link, hlink, slot, hslot, hseq⟩
      · exact holds line ticket hold
      · rw [← hseq]
        exact .inr (hbetween.fresh link hlink slot hslot)
  | elapsed net _ ih =>
      obtain ⟨hbetween, now, hnow, holds⟩ := ih
      exact ⟨⟨hbetween.next, hbetween.fresh⟩, now, ⟨hnow.transmits, hnow.links⟩, holds⟩

/-- A slot on a link is that of a command that was accepted. -/
theorem Reaches.seq_lt_of_unsent (hreach : (blank timeouts buffering net).Reaches trace client)
    {link : Link} (hlink : link ∈ client.pool.links) {slot : Slot} (hslot : slot ∈ link.unsent) :
    slot.seq < client.ledger.nextSeq := by
  have hqueues := hreach.links (Link.queues_invariant ω) link hlink
  have hmem : slot.original ∈ trace.tickets.map (·.slot) :=
    hqueues.subset (List.mem_map_of_mem (List.mem_append_right _ hslot))
  obtain ⟨ticket, hticket, hsame⟩ := List.mem_map.mp hmem
  have hlt := hreach.ordered.seq_lt hticket
  rwa [hsame] at hlt

/-- **No octet of a frame that was fresh before a reset is ever written.** -/
theorem Session.withheld (hconfig : withConfig net config = .ok start)
    (hsession : start.Session books client) (hreach : start.Reaches trace client)
    (hmore : client.resetBuffers.Reaches more later) :
    ∃ carried, Trace.Transmits (trace ++ client.forgetting ++ more) carried ∧
      ∀ link ∈ client.pool.links, ∀ slot ∈ link.fresh, ∀ line, ∀ ticket ∈ carried line,
        ticket.slot.seq ≠ slot.seq := by
  have hblank := reaches_withConfig hconfig hreach
  have hreset := reaches_withConfig hconfig hreach.reset
  obtain ⟨carried, hbegins⟩ := hblank.begins
  -- after the reset nothing is fresh, so that what is fresh later was issued later
  have hsince : client.resetBuffers.Since client.ledger.nextSeq := by
    refine ⟨Nat.le_refl _, fun link hlink slot hslot => ?_⟩
    have hnobody := List.flatMap_eq_nil_iff.mp (hsession.waiting_resetBuffers hconfig) link hlink
    rw [Link.fresh_eq_nil (hreset.links (Link.fresh_invariant ω) link hlink) hnobody] at hslot
    cases hslot
  obtain ⟨-, now, hnow, holds⟩ := hbegins.reset.since hreset hsince hmore
  refine ⟨now, hnow.transmits, fun link hlink slot hslot line ticket hticket => ?_⟩
  rcases holds line ticket hticket with hold | hnew
  · exact (hbegins.links link hlink).fresh slot hslot line ticket hold
  · have hlt := hblank.seq_lt_of_unsent hlink (link.fresh_suffix.subset hslot)
    omega

/-! ## Commands issued later -/

/-- What commands issued since some moment get on a line whose peer answers in order: all
replies are given to commands and none is refused; a command whose replies were all read has
ended with their result, unless it was given up before; and a link that was connected stays
connected as long as nothing else breaks its line. -/
structure Undisturbed (client : Client ω) (past more : Trace) (later : Client ω) (line : Line)
    (groups : List (List Response)) : Prop where
  matched : ((past ++ more).answers line).map (·.2) = (past ++ more).replies line
  unrefused : ∀ error, .lost line (.protocol error) ∉ past ++ more
  own : ∀ ticket ∈ more.tickets, ∀ (i : Nat) group,
    ((past ++ more).sent line)[i]? = some ticket.slot.seq → groups[i]? = some group →
    (groups.take (i + 1)).flatten <+: (past ++ more).replies line →
    IsReplyTo ticket.request group ∧
      ((past ++ more).GaveUp line ticket.slot ∨ ∃ finished ∈ more.endings,
        ticket.slot = finished.slot.original ∧
        ticket.slot.outcome? group = some finished.result)
  stands : client.StandsOn line → .reported line ∉ more →
    (∀ count, .examined line count ∈ more → count ≤ maxAbandoned) →
    .lost line .removed ∉ more → later.StandsOn line

/-- Of two parts of a history each command was issued in one. -/
theorem Reaches.issued_apart (hreach : (blank timeouts buffering net).Reaches (trace ++ more) later)
    {first second : Ticket} (hfirst : first ∈ trace.tickets) (hsecond : second ∈ more.tickets) :
    first.slot.seq ≠ second.slot.seq := by
  have hnodup := hreach.ordered.nodup
  rw [Trace.tickets_append, List.map_append, List.nodup_append] at hnodup
  exact hnodup.2.2 _ (List.mem_map_of_mem hfirst) _ (List.mem_map_of_mem hsecond)

/-- **A command gets its own replies** on a line whose peer answers in order. -/
theorem Reaches.own_replies (hpast : (blank timeouts buffering net).Reaches trace client)
    (hreach : (blank timeouts buffering net).Reaches (trace ++ more) later) {line : Line}
    {groups : List (List Response)} (hanswering : Trace.Answering (trace ++ more) line groups)
    {ticket : Ticket} (hticket : ticket ∈ more.tickets) {i : Nat} {group : List Response}
    (hsent : (Trace.sent (trace ++ more) line)[i]? = some ticket.slot.seq)
    (hgroup : groups[i]? = some group)
    (hread : (groups.take (i + 1)).flatten <+: Trace.replies (trace ++ more) line) :
    IsReplyTo ticket.request group ∧
      (Trace.GaveUp (trace ++ more) line ticket.slot ∨ ∃ finished ∈ more.endings,
        ticket.slot = finished.slot.original ∧
        ticket.slot.outcome? group = some finished.result) := by
  have hwritten := (List.getElem?_eq_some_iff.mp hsent).1
  rw [hreach.length_sent] at hwritten
  obtain ⟨other, hother, hrequest, hplace, hsettled⟩ :=
    hreach.settled hanswering (List.getElem?_eq_getElem hwritten) hgroup hread
  rw [hsent, Option.some.injEq] at hplace
  have hissued : ticket ∈ Trace.tickets (trace ++ more) := by
    rw [Trace.tickets_append]
    exact List.mem_append_right _ hticket
  obtain rfl : other = ticket :=
    List.inj_on_of_nodup_map hreach.ordered.nodup hother hissued hplace.symm
  refine ⟨?_, hsettled.imp_right ?_⟩
  · obtain ⟨hown, -, -⟩ := hanswering _ List.prefix_rfl
    obtain ⟨hlength, hall⟩ := List.forall₂_iff_get.mp hown
    have hreply := hall i hwritten (hlength ▸ hwritten)
    rw [List.get_eq_getElem, List.get_eq_getElem, List.getElem_take] at hreply
    obtain ⟨hshort, hnth⟩ := List.getElem?_eq_some_iff.mp hgroup
    rw [hrequest, ← hnth]
    exact hreply
  · rintro ⟨finished, hended, hslot, hresult⟩
    refine ⟨finished, ?_, hslot, hresult⟩
    rw [Trace.endings_append] at hended
    refine (List.mem_append.mp hended).resolve_left fun hold => ?_
    -- what ended before was issued before
    obtain ⟨old, hmem, hsame⟩ := hpast.ticket_of_ended hold
    exact hreach.issued_apart hmem hticket (by rw [hsame, hslot])

/-- **Commands issued later are not disturbed** by those that were given up before. -/
theorem Reaches.undisturbed (hpast : (blank timeouts buffering net).Reaches trace client)
    (hmore : client.Reaches more later) {line : Line} {groups : List (List Response)}
    (hanswering : Trace.Answering (trace ++ more) line groups) :
    client.Undisturbed trace more later line groups where
  matched := (hpast.trans hmore).answers_eq hanswering
  unrefused := (hpast.trans hmore).not_refused hanswering
  own _ hticket _ _ := hpast.own_replies (hpast.trans hmore) hanswering hticket
  stands hstands hreported hexamined hremoved := by
    obtain ⟨-, hlater | hbroke⟩ := Reaches.stands hpast.conserves.1 hstands hmore
    · exact hlater
    cases hbroke with
    | reported hmem => exact absurd hmem hreported
    | examined hmany hmem => exact absurd hmany (Nat.not_lt_of_le (hexamined _ hmem))
    | removed hmem => exact absurd hmem hremoved
    | refused hmem =>
        exact absurd (List.mem_append_right trace hmem)
          ((hpast.trans hmore).not_refused hanswering _)

/-- What calls make of the replies: a data operation that waits returns the outcome of its own
replies, when its peer answers in order and they were all read before it ended its wait, and a
flush returns the outcomes of all buffered commands that end meanwhile. -/
structure HandsOver (past : Trace) (client : Client ω) : Prop where
  issue : ∀ command timeout, (client.issue command timeout).2 = client ∨
    (client.issue command timeout).1 = .ok .buffered ∨
    ∃ queued incidents driven, client.Waits command timeout queued incidents driven ∧
      ∀ line groups (i : Nat) group,
        Trace.Answering (past ++ .issued (client.nextTicket command) :: incidents) line groups →
        (Trace.sent (past ++ .issued (client.nextTicket command) :: incidents) line)[i]?
          = some client.ledger.nextSeq →
        groups[i]? = some group →
        (groups.take (i + 1)).flatten
          <+: Trace.replies (past ++ .issued (client.nextTicket command) :: incidents) line →
        ∃ result, (client.nextTicket command).slot.outcome? group = some result ∧
          ((client.issue command timeout).1 = result.map .ready ∨
            (client.issue command timeout).1 = .error tooManyWaits)
  flush : ∀ timeout, ∃ incidents driven, client.Drives Incident.Keeps incidents driven ∧
    client.Concludes .allBuffered (client.deadlineOf timeout) driven
      (client.run .allBuffered (client.deadlineOf timeout)) ∧
    ∀ completions, (client.flush timeout).1 = .ok completions →
      ∀ finished ∈ incidents.endings, finished.slot.delivery = .buffered →
        ∃ completion ∈ completions, completion.opcode = finished.slot.opcode ∧
          completion.key = finished.slot.key ∧ completion.result = finished.result

/-- Calls hand over what replies give. -/
theorem Reaches.hands_over (hreach : (blank timeouts buffering net).Reaches trace client) :
    client.HandsOver trace where
  issue command timeout := by
    rcases issue_waits client command timeout with
      hrefused | hbuffered | ⟨queued, incidents, driven, hwaits⟩
    · exact .inl hrefused
    · exact .inr (.inl hbuffered)
    · refine .inr (.inr ⟨queued, incidents, driven, hwaits, ?_⟩)
      intro line groups i group hanswering hsent hgroup hread
      exact hwaits.completes hreach hanswering hsent hgroup hread
  flush := flush_waits client

/-- **A reset forgets the buffered work, and nothing else.** Between two calls a reset gives up
the commands that someone waits for, all of them buffered, and the outcomes nobody collected.
Every connection keeps its socket, its phase, its times and the octets it received, and still
offers at most the rest of one frame that is begun.  A flush returns at once, with no outcomes.
No octet of a frame that was fresh is ever written, and no command that was given up ends.
Commands that are issued later get their own replies on every line whose peer answers in order,
however late, and the line stays connected. -/
theorem reset_forgets_buffered {net : ω} {config : Config} {start client : Client ω}
    {books : Books} {trace : Trace} (hconfig : withConfig net config = .ok start)
    (hsession : start.Session books client) (hreach : start.Reaches trace client) :
    client.Forgets trace client.resetBuffers ∧
    (∀ (net : ω) timeout, ({ client.resetBuffers with net }).flush timeout
      = (.ok [], ({ client.resetBuffers with net }).flushedAtOnce)) ∧
    client.Steps client.forgetting client.resetBuffers ∧
    start.Reaches (trace ++ client.forgetting) client.resetBuffers ∧
    ∀ more later, client.resetBuffers.Reaches more later →
      (∃ carried, Trace.Transmits (trace ++ client.forgetting ++ more) carried ∧
        ∀ link ∈ client.pool.links, ∀ slot ∈ link.fresh, ∀ line, ∀ ticket ∈ carried line,
          ticket.slot.seq ≠ slot.seq) ∧
      (∀ slot ∈ forgotten client.pool.links, slot.seq ∉ more.endings.map (·.slot.seq)) ∧
      (∀ line groups, Trace.Answering (trace ++ client.forgetting ++ more) line groups →
        client.resetBuffers.Undisturbed (trace ++ client.forgetting) more later line groups) ∧
      later.HandsOver (trace ++ client.forgetting ++ more) := by
  have hreset := reaches_withConfig hconfig hreach.reset
  refine ⟨hsession.forgets hconfig hreach, fun net timeout => ?_, client.steps_resetBuffers,
    hreach.reset, ?_⟩
  · have hagrees := (Session.agrees hconfig hsession).reset
    have hnow : Agrees books.discard { client.resetBuffers with net } := hagrees.congr rfl rfl rfl
    exact hnow.accounts.flush_nothing hnow.apart timeout
  intro more later hmore
  refine ⟨hsession.withheld hconfig hreach hmore, fun slot hslot => ?_,
    fun line groups hanswering => hreset.undisturbed hmore hanswering,
    (hreset.trans hmore).hands_over⟩
  refine (hreset.trans hmore).ends_no_more (List.mem_append_right _ (List.mem_map_of_mem ?_))
  rw [Trace.drops_append]
  refine List.mem_append_right _ ?_
  rw [forgetting, Trace.drops, List.flatMap_map]
  exact List.mem_flatMap.mpr ⟨slot, hslot, List.mem_singleton_self _⟩

end Client

/-! ## A reply that comes after a reset -/

namespace Script

/-- A round trip that is buffered behind the first command. -/
def behind : Ticket :=
  trip true 1

/-- The client that has buffered it. -/
def laden (log : Log) : Client Script :=
  holding ⟨0, [], []⟩ (entered true 2)
    ((waitingLink 0 true).enqueue behind.request behind.slot) log

/-- What has happened until then. -/
def lading : Trace := abandoned ++ [.issued behind]

/-- **A round trip is buffered behind one that was given up.** -/
theorem session_laden (error : IoError) : ∃ books log,
    (failing error).opened.Session books (laden log) ∧
      (failing error).opened.Reaches lading (laden log) := by
  obtain ⟨log, hgiven⟩ : ∃ log, ((failing error).opened.issue (.noop 0) none).2
      = driving ⟨0, [], []⟩ (waitingLink 0 true) log := by
    obtain ⟨log, hissue⟩ := issue_failing error
    rw [hissue]
    exact ⟨_, rfl⟩
  have hqueue : (Client.setBuffering (driving ⟨0, [], []⟩ (waitingLink 0 true) log) true).queue 0
      .noop .done = .ok (1, .buffered, laden log) := rfl
  have hissued := (@Client.Session.opened _ _ (failing error).opened).called (failing error)
    (.issue (.noop 0) none)
  rw [(Client.perform_issue _ (.noop 0) none).1,
    show ({ (failing error).opened with net := failing error } : Client Script)
      = (failing error).opened from rfl, hgiven] at hissued
  have hsession := (hissued.called ⟨0, [], []⟩ (.setBuffering true)).called ⟨0, [], []⟩
    (.issue (.noop 0) none)
  have hreach := reaches_issue error
  rw [hgiven] at hreach
  have hswitched := hreach.step (.adjusted Config.default.timeouts true)
  exact ⟨_, log, hsession, hswitched.step (@Client.Step.queued _ _ _ 0 1 (.noop 0) .buffered _
    hqueue)⟩

/-- The reply to the first command comes after a reset. -/
theorem reaches_reset (log : Log) : ∃ later,
    (laden log).resetBuffers.Reaches (arrival true) later := by
  have hlater := (@Client.Reaches.start _ _ (laden log).resetBuffers).elapsed
    ⟨50, [.data pong.frame], []⟩
  exact ⟨_, hlater.only rfl (step_pong 0 50 true [])⟩

end Script

namespace Client

/-- A reset drops a round trip that is buffered behind one that was given up: nothing of it is
written, and the reply to the other leaves the line connected. -/
theorem reset_forgets_buffered_laden :
    ∃ books log, ∃ later : Client Script,
      (Script.failing (.os 5 "Input/output error")).opened.Session books (Script.laden log) ∧
      (Script.failing (.os 5 "Input/output error")).opened.Reaches Script.lading
        (Script.laden log) ∧
      (Script.laden log).buffered = [{ seq := 1, opcode := .noop, key := [] }] ∧
      ((Script.laden log).resetBuffers.flush none).1 = .ok [] ∧
      (Script.laden log).resetBuffers.Reaches (Script.arrival true) later ∧
      Trace.Answering (Script.lading ++ (Script.laden log).forgetting ++ Script.arrival true)
        Script.wire [[Script.pong]] ∧
      (∃ carried, Trace.Transmits
          (Script.lading ++ (Script.laden log).forgetting ++ Script.arrival true) carried ∧
        ∀ line, ∀ ticket ∈ carried line, ticket.slot.seq ≠ 1) ∧
      later.StandsOn Script.wire := by
  obtain ⟨books, log, hsession, hreach⟩ := Script.session_laden (.os 5 "Input/output error")
  obtain ⟨later, hlater⟩ := Script.reaches_reset log
  have hanswering :
      Trace.Answering (Script.lading ++ (Script.laden log).forgetting ++ Script.arrival true)
        Script.wire [[Script.pong]] :=
    @Script.answering_late [.dropped Script.ping.slot, .examined Script.wire 1,
      .issued Script.behind, .dropped Script.behind.slot] rfl rfl
  obtain ⟨-, hflush, -, -, hmore⟩ :=
    reset_forgets_buffered (Script.withConfig_opened _) hsession hreach
  obtain ⟨⟨carried, htransmits, hwithheld⟩, -, hundisturbed, -⟩ := hmore _ later hlater
  refine ⟨books, log, later, hsession, hreach, rfl, ?_, hlater, hanswering,
    ⟨carried, htransmits, ?_⟩, ?_⟩
  · exact congrArg Prod.fst (hflush ⟨0, [], []⟩ none)
  · exact hwithheld _ (List.mem_singleton_self _) Script.behind.slot (List.mem_singleton_self _)
  · refine (hundisturbed Script.wire _ hanswering).stands ?_ ?_ ?_ ?_
    · exact ⟨Script.waitingLink 0 true, List.mem_singleton_self _, rfl, 0, rfl⟩
    · simp [Script.arrival]
    · simp [Script.arrival]
    · simp [Script.arrival]

end Client

end CachePool
