/-
# A link and its channel

What a link keeps of its commands while the server behind its channel is a store: the
commands issued to the server are those that are answered, those whose frames are written,
and those whose frames are queued, and the channel carries just these frames and the replies
to them.

* `Settles` : a command ended with the result of the responses of the store;
* `Link.Listens.matchReplies` : whatever replies come next, they are given to their commands;
* `Link.Attends` : the invariant;
* `Link.Attends.owes` : as long as a command waits the server owes something.
-/
import CachePool.Proofs.Hosts

namespace CachePool

/-! ## Commands that end -/

/-- A command of a server, by its place in the order of issue, ended with the result of the
responses of the store to its request. -/
def Settles (server : Nat) (tickets : List Ticket) (groups : List (List Response)) (place : Nat)
    (finished : Finished) : Prop :=
  ∃ ticket group, tickets[place]? = some ticket ∧ groups[place]? = some group ∧
    finished.server = server ∧ finished.slot.original = ticket.slot ∧
    ticket.slot.outcome? group = some finished.result

/-- Commands that ended one after the other, from a place on. -/
def SettlesFrom (server : Nat) (tickets : List Ticket) (groups : List (List Response))
    (start : Nat) (finished : List Finished) : Prop :=
  ∀ (place : Nat) (first : Finished), finished[place]? = some first →
    Settles server tickets groups (start + place) first

/-- What is there of a list stays when the list grows. -/
theorem getElem?_of_isPrefix {α : Type} {front whole : List α} {place : Nat} {value : α}
    (hfront : front <+: whole) (hvalue : front[place]? = some value) :
    whole[place]? = some value := by
  obtain ⟨back, rfl⟩ := hfront
  rw [List.getElem?_append_left (List.getElem?_eq_some_iff.mp hvalue).1, hvalue]

theorem Settles.mono {server place : Nat} {tickets more : List Ticket}
    {groups later : List (List Response)} {finished : Finished}
    (hsettles : Settles server tickets groups place finished) (htickets : tickets <+: more)
    (hgroups : groups <+: later) : Settles server more later place finished := by
  obtain ⟨ticket, group, hticket, hgroup, hrest⟩ := hsettles
  exact ⟨ticket, group, getElem?_of_isPrefix htickets hticket, getElem?_of_isPrefix hgroups hgroup,
    hrest⟩

theorem settlesFrom_nil {server start : Nat} {tickets : List Ticket}
    {groups : List (List Response)} : SettlesFrom server tickets groups start [] := by
  intro place first hfirst
  cases hfirst

theorem SettlesFrom.mono {server start : Nat} {tickets more : List Ticket}
    {groups later : List (List Response)} {finished : List Finished}
    (hsettles : SettlesFrom server tickets groups start finished) (htickets : tickets <+: more)
    (hgroups : groups <+: later) : SettlesFrom server more later start finished :=
  fun place first hfirst => (hsettles place first hfirst).mono htickets hgroups

theorem SettlesFrom.append {server start : Nat} {tickets : List Ticket}
    {groups : List (List Response)} {first second : List Finished}
    (hfirst : SettlesFrom server tickets groups start first)
    (hsecond : SettlesFrom server tickets groups (start + first.length) second) :
    SettlesFrom server tickets groups start (first ++ second) := by
  intro place finished hfinished
  by_cases hplace : place < first.length
  · rw [List.getElem?_append_left hplace] at hfinished
    exact hfirst place finished hfinished
  · rw [List.getElem?_append_right (Nat.le_of_not_lt hplace)] at hfinished
    have hsettles := hsecond _ _ hfinished
    rw [Nat.add_assoc, Nat.add_sub_cancel' (Nat.le_of_not_lt hplace)] at hsettles
    exact hsettles

/-! ## Replies so far -/

/-- The commands that wait for replies, of which the first has got some. -/
def Awaits : List Ticket → List Response → List Slot → Prop
  | [], part, awaiting => part = [] ∧ awaiting = []
  | ticket :: others, part, awaiting =>
    ∃ slot, ticket.slot.progress? part = some slot ∧ awaiting = slot :: others.map (·.slot)

/-- Nobody has got replies yet. -/
theorem awaits_nil (waiting : List Ticket) : Awaits waiting [] (waiting.map (·.slot)) := by
  cases waiting with
  | nil => exact ⟨rfl, rfl⟩
  | cons ticket others => exact ⟨ticket.slot, rfl, rfl⟩

/-- More commands wait. -/
theorem Awaits.append {waiting : List Ticket} {part : List Response} {awaiting : List Slot}
    (hawaits : Awaits waiting part awaiting) (more : List Ticket) :
    Awaits (waiting ++ more) part (awaiting ++ more.map (·.slot)) := by
  cases waiting with
  | nil =>
      obtain ⟨rfl, rfl⟩ := hawaits
      exact awaits_nil more
  | cons ticket others =>
      obtain ⟨slot, hprogress, rfl⟩ := hawaits
      refine ⟨slot, hprogress, ?_⟩
      show _ = slot :: (others ++ more).map (·.slot)
      rw [List.map_append]
      rfl

/-- The replies to a command that waits change nothing of its slot but the statistics. -/
theorem Slot.progress?_eq {slot next : Slot} {responses : List Response}
    (hprogress : slot.progress? responses = some next) :
    next = { slot with stats := next.stats } := by
  induction responses generalizing slot with
  | nil =>
      cases hprogress
      rfl
  | cons response responses ih =>
      rw [progress?] at hprogress
      split at hprogress
      · rename_i more haccept
        obtain ⟨-, -, -, rfl⟩ := accept_more haccept
        have hnext := ih hprogress
        exact hnext
      · cases hprogress

/-- Every group of responses belongs to the request of its command. -/
def Answered (tickets : List Ticket) (groups : List (List Response)) : Prop :=
  ∀ (place : Nat) (group : List Response), groups[place]? = some group →
    ∃ ticket, tickets[place]? = some ticket ∧ IsReplyTo ticket.request group

namespace Link

/-- What a link has heard of the responses of a store: those to the commands that are
answered, and a part of those to the next one. -/
structure Listens (groups : List (List Response)) (done waiting : List Ticket)
    (answered : List (List Response)) (part : List Response) (link : Link) : Prop where
  count : answered.length = done.length
  heard : answered <+: groups
  begun : answered.flatten ++ part <+: groups.flatten
  awaits : Awaits waiting part link.awaiting

variable {link : Link} {groups : List (List Response)} {done waiting : List Ticket}
  {answered : List (List Response)} {part : List Response}

/-- What the store said after the groups that were heard. -/
theorem Listens.rest (hlistens : link.Listens groups done waiting answered part) :
    ∃ later, groups = answered ++ later ∧ part <+: later.flatten := by
  obtain ⟨later, hlater⟩ := hlistens.heard
  have hbegun := hlistens.begun
  rw [← hlater, List.flatten_append, List.prefix_append_right_inj] at hbegun
  exact ⟨later, hlater.symm, hbegun⟩

/-- The group of responses that comes next belongs to the command that waits first. -/
theorem Listens.next {response : Response} (hanswered : Answered (done ++ waiting) groups)
    (hlistens : link.Listens groups done waiting answered part)
    (hnext : answered.flatten ++ (part ++ [response]) <+: groups.flatten) :
    ∃ ticket others group later, waiting = ticket :: others ∧
      groups = answered ++ group :: later ∧ groups[done.length]? = some group ∧
      IsReplyTo ticket.request group ∧ part ++ [response] <+: (group :: later).flatten := by
  obtain ⟨later, hgroups, hpart⟩ := hlistens.rest
  rw [hgroups, List.flatten_append, List.prefix_append_right_inj] at hnext
  cases later with
  | nil =>
      have hnone := List.prefix_nil.mp hnext
      exact absurd hnone (List.append_ne_nil_of_right_ne_nil _ (List.cons_ne_nil _ _))
  | cons group later =>
      have hplace : groups[done.length]? = some group := by
        rw [hgroups, ← hlistens.count, List.getElem?_append_right (Nat.le_refl _), Nat.sub_self]
        rfl
      obtain ⟨ticket, hticket, hreply⟩ := hanswered _ _ hplace
      rw [List.getElem?_append_right (Nat.le_refl _), Nat.sub_self] at hticket
      cases waiting with
      | nil => cases hticket
      | cons first others =>
          cases hticket
          exact ⟨ticket, others, group, later, rfl, hgroups, hplace, hreply, hnext⟩

/-- **The next reply is given to its command.** -/
theorem Listens.matchReply {response : Response}
    (hvalid : ∀ ticket ∈ done ++ waiting, ticket.Valid)
    (hanswered : Answered (done ++ waiting) groups)
    (hlistens : link.Listens groups done waiting answered part)
    (hnext : answered.flatten ++ (part ++ [response]) <+: groups.flatten) :
    ∃ ended rest answered' part' awaiting finished,
      waiting = ended ++ rest ∧ finished.length = ended.length ∧
      link.matchReply response = .ok ({ link with awaiting }, finished) ∧
      Listens groups (done ++ ended) rest answered' part' { link with awaiting } ∧
      answered'.flatten ++ part' = answered.flatten ++ (part ++ [response]) ∧
      SettlesFrom link.server.index (done ++ waiting) groups done.length finished := by
  obtain ⟨ticket, others, group, later, rfl, hgroups, hplace, hreply, hnext⟩ :=
    hlistens.next hanswered hnext
  obtain ⟨slot, hprogress, hqueue⟩ := hlistens.awaits
  have hticketValid := hvalid ticket (List.mem_append_right _ List.mem_cons_self)
  have hends := hreply.isSome_outcome? hticketValid
  have hstart : group <+: (group :: later).flatten := List.prefix_append _ _
  -- the reply is one of those that belong to the command, and so it fits
  obtain ⟨htag, hopcode⟩ :=
    hreply.own response (Slot.mem_of_progress hprogress hends hstart hnext)
  have hslot := Slot.progress?_eq hprogress
  have hlive : slot.isLive = true := by
    rw [hslot, ← hticketValid.original]
    rfl
  rw [hticketValid.tag, show ticket.slot.tag = slot.tag by rw [hslot]] at htag
  rw [hticketValid.opcode, show ticket.slot.opcode = slot.opcode by rw [hslot]] at hopcode
  cases haccept : slot.accept response with
  | more next =>
      refine ⟨[], ticket :: others, answered, part ++ [response], next :: others.map (·.slot),
        [], rfl, rfl, ?_, ?_, rfl, settlesFrom_nil⟩
      · simp only [Link.matchReply, hqueue, htag, hopcode, haccept, ne_eq,
          not_true_eq_false, if_false]
      · rw [List.append_nil]
        refine ⟨hlistens.count, hlistens.heard, ?_, next, ?_, rfl⟩
        · rw [hgroups, List.flatten_append, List.prefix_append_right_inj]
          exact hnext
        · rw [Slot.progress?_append hprogress, Slot.progress?, haccept]
          rfl
  | final result =>
      have houtcome : ticket.slot.outcome? (part ++ [response]) = some result := by
        rw [Slot.outcome?_append hprogress, Slot.outcome?, haccept]
        rfl
      have hgroup : part ++ [response] = group :=
        Slot.eq_of_outcome? (by rw [houtcome]; rfl) hends hnext hstart
      refine ⟨[ticket], others, answered ++ [group], [], others.map (·.slot),
        [{ server := link.server.index, slot, result }], rfl, rfl, ?_, ?_, ?_, ?_⟩
      · simp only [Link.matchReply, hqueue, htag, hopcode, haccept, ne_eq,
          not_true_eq_false, if_false, hlive, if_true]
      · have hmore : answered ++ [group] <+: groups := by
          rw [hgroups, List.prefix_append_right_inj]
          exact ⟨later, rfl⟩
        refine ⟨?_, hmore, ?_, awaits_nil others⟩
        · rw [List.length_append, List.length_append, hlistens.count]
          rfl
        · obtain ⟨back, hback⟩ := hmore
          rw [List.append_nil, ← hback, @List.flatten_append _ (answered ++ [group]) back]
          exact List.prefix_append _ _
      · rw [List.append_nil, List.flatten_append, List.flatten_singleton, hgroup]
      · intro place finished hfinished
        cases place with
        | zero =>
            cases hfinished
            rw [hgroup] at houtcome
            refine ⟨ticket, group, ?_, hplace, rfl, ?_, houtcome⟩
            · rw [Nat.add_zero, List.getElem?_append_right (Nat.le_refl _), Nat.sub_self]
              rfl
            rw [← hticketValid.original, ← Slot.original_of_progress hprogress]
        | succ place => cases hfinished

/-- **Whatever replies come next, they are given to their commands.** -/
theorem Listens.matchReplies {responses : List Response}
    (hvalid : ∀ ticket ∈ done ++ waiting, ticket.Valid)
    (hanswered : Answered (done ++ waiting) groups)
    (hlistens : link.Listens groups done waiting answered part)
    (hnext : answered.flatten ++ (part ++ responses) <+: groups.flatten) :
    ∃ ended rest answered' part' awaiting finished,
      waiting = ended ++ rest ∧ finished.length = ended.length ∧
      link.matchReplies responses = ({ link with awaiting }, finished, none) ∧
      Listens groups (done ++ ended) rest answered' part' { link with awaiting } ∧
      answered'.flatten ++ part' = answered.flatten ++ (part ++ responses) ∧
      SettlesFrom link.server.index (done ++ waiting) groups done.length finished := by
  induction responses generalizing link done waiting answered part with
  | nil =>
      refine ⟨[], waiting, answered, part, link.awaiting, [], rfl, rfl, rfl, ?_, ?_,
        settlesFrom_nil⟩
      · rw [List.append_nil]
        exact hlistens
      · rw [List.append_nil]
  | cons response responses ih =>
      have hfirst : answered.flatten ++ (part ++ [response]) <+: groups.flatten := by
        refine List.IsPrefix.trans ?_ hnext
        rw [List.prefix_append_right_inj, List.prefix_append_right_inj]
        exact ⟨responses, rfl⟩
      obtain ⟨ended, rest, answered', part', awaiting, finished, rfl, hcount, hmatch, hbetween,
        hsame, hsettles⟩ := hlistens.matchReply hvalid hanswered hfirst
      have horder : done ++ (ended ++ rest) = (done ++ ended) ++ rest :=
        (List.append_assoc _ _ _).symm
      rw [horder] at hvalid hanswered hsettles
      have hlater : answered'.flatten ++ (part' ++ responses) <+: groups.flatten := by
        rw [← List.append_assoc, hsame, List.append_assoc, List.append_assoc]
        exact hnext
      obtain ⟨more, last, answered'', part'', awaiting', finished', rfl, hcount', hmatch', hlast,
        hsame', hsettles'⟩ := ih hvalid hanswered hbetween hlater
      refine ⟨ended ++ more, last, answered'', part'', awaiting', finished ++ finished', ?_, ?_,
        ?_, ?_, ?_, ?_⟩
      · rw [List.append_assoc]
      · rw [List.length_append, List.length_append, hcount, hcount']
      · rw [Link.matchReplies, hmatch]
        dsimp only
        rw [hmatch']
      · rw [← List.append_assoc]
        exact hlast
      · rw [hsame', ← List.append_assoc, hsame, List.append_assoc, List.append_assoc]
        rfl
      · rw [horder]
        refine hsettles.append ?_
        rw [hcount, ← List.length_append]
        exact hsettles'

/-! ## The invariant -/

/-- A link that was never reached for: all its commands are queued. -/
structure Untouched (issued : List Ticket) (link : Link) : Prop where
  phase : link.phase = .disconnected
  failure : link.lastFailure = none
  unsent : link.unsent = issued.map (·.slot)
  outbound : link.outbound = Trace.frames issued
  head : link.headWritten = 0
  awaiting : link.awaiting = []
  inbound : link.inbound = []

/-- How far a link with a channel is connected. Its connect still has time, and nothing is
written before it has completed. -/
inductive Holding (now : Nat) (channel : Channel) (written : List Ticket) (link : Link) : Prop
  | connecting {deadline : Nat} (hphase : link.phase = .connecting channel.socket deadline)
      (hearly : now < deadline) (hnone : written = []) (hhead : link.headWritten = 0) :
      Holding now channel written link
  | connected (hphase : link.phase = .connected channel.socket) (hup : channel.isUp = true) :
      Holding now channel written link

/-- A link with a channel: the commands that are answered, those that wait for replies and
those whose frames are queued, and what the channel has carried of their frames and of the
replies to them. -/
structure Speaks (now : Nat) (store : Store) (channel : Channel)
    (done waiting queued : List Ticket) (answered : List (List Response)) (part : List Response)
    (link : Link) : Prop
    extends Listens (channel.groups store) done waiting answered part link where
  holding : link.Holding now channel (done ++ waiting)
  token : channel.token = link.token
  unsent : link.unsent = queued.map (·.slot)
  outbound : link.outbound = (Trace.frames queued).drop link.headWritten
  head : HeadWithin link.headWritten queued
  taken : channel.taken
    = Trace.frames (done ++ waiting) ++ (Trace.frames queued).take link.headWritten
  given : channel.given = (answered.flatten ++ part).flatMap Response.frame ++ link.inbound
  inbound : Response.kind.decode link.inbound = .ok .incomplete

/-- **A link attends to its server**: of the commands issued to the server so many have
ended. -/
inductive Attends {ω : Type} [Network ω] (hosts : Hosts ω) (net : ω) (issued : List Ticket)
    (link : Link) : Nat → Prop
  | untouched (hchannel : hosts.channel net link.server.index = none)
      (huntouched : link.Untouched issued) : Attends hosts net issued link 0
  | speaking {channel : Channel} {done waiting queued : List Ticket}
      {answered : List (List Response)} {part : List Response}
      (hchannel : hosts.channel net link.server.index = some channel)
      (hissued : issued = done ++ waiting ++ queued)
      (hspeaks : link.Speaks (Network.now net) (hosts.store link.server.index) channel done
        waiting queued answered part) : Attends hosts net issued link done.length

/-- What is queued is written, or the poller will tell when there is room for it. -/
def Pushed {ω : Type} (hosts : Hosts ω) (net : ω) (link : Link) : Prop :=
  link.outbound = [] ∨
    ∃ channel, hosts.channel net link.server.index = some channel ∧ channel.isDue = true

/-- What has arrived is read, or the poller will tell of it. -/
def Heard {ω : Type} (hosts : Hosts ω) (net : ω) (link : Link) : Prop :=
  ∀ channel, hosts.channel net link.server.index = some channel →
    channel.isDue = true ∨ channel.given = channel.arrived

section Speaks

variable {now : Nat} {store : Store} {channel later : Channel} {queued : List Ticket}

theorem Listens.mono {more : List (List Response)}
    (hlistens : link.Listens groups done waiting answered part) (hgroups : groups <+: more) :
    link.Listens more done waiting answered part where
  count := hlistens.count
  heard := hlistens.heard.trans hgroups
  begun := by
    obtain ⟨back, rfl⟩ := hgroups
    rw [List.flatten_append]
    exact hlistens.begun.trans (List.prefix_append _ _)
  awaits := hlistens.awaits

/-- The server has got the commands whose frames are written. -/
theorem Speaks.requests (hvalid : ∀ ticket ∈ done ++ waiting ++ queued, ticket.Valid)
    (hspeaks : link.Speaks now store channel done waiting queued answered part) :
    channel.requests = (done ++ waiting).map (·.request) := by
  have hpart := decode_written (fun ticket hmem => hvalid ticket (List.mem_append_right _ hmem))
    hspeaks.head
  rw [Channel.requests, hspeaks.taken]
  exact (read_frames (fun ticket hmem => hvalid ticket (List.mem_append_left _ hmem)) hpart).1

/-- The responses of the store belong to these commands. -/
theorem Speaks.replies (hvalid : ∀ ticket ∈ done ++ waiting ++ queued, ticket.Valid)
    (hspeaks : link.Speaks now store channel done waiting queued answered part) :
    Answered (done ++ waiting) (channel.groups store) := by
  intro place group hgroup
  have hall := store.forall₂_answers (channel.times.zip channel.requests)
  rw [List.forall₂_iff_get] at hall
  obtain ⟨hplace, rfl⟩ := List.getElem?_eq_some_iff.mp hgroup
  have hzip : place < (channel.times.zip channel.requests).length := by
    rw [hall.1]
    exact hplace
  have hreply := hall.2 place hzip hplace
  have hrequest : place < (done ++ waiting).length := by
    rw [List.length_zip, hspeaks.requests hvalid, List.length_map] at hzip
    omega
  have hsecond : ((channel.times.zip channel.requests)[place]).2
      = ((done ++ waiting)[place]).request := by
    rw [List.getElem_zip]
    simp only [hspeaks.requests hvalid, List.getElem_map]
  refine ⟨(done ++ waiting)[place], List.getElem?_eq_getElem hrequest, ?_⟩
  rw [← hsecond]
  exact hreply

/-- A channel that goes on by itself changes nothing. -/
theorem Speaks.grows (hsound : channel.Sound store) (hgrows : channel.Grows later)
    (hspeaks : link.Speaks now store channel done waiting queued answered part) :
    link.Speaks now store later done waiting queued answered part where
  toListens := hspeaks.toListens.mono (hgrows.groups hsound)
  holding := by
    cases hspeaks.holding with
    | connecting hphase hearly hnone hhead =>
        exact .connecting (by rw [hgrows.socket]; exact hphase) hearly hnone hhead
    | connected hphase hup => exact .connected (by rw [hgrows.socket]; exact hphase) (hgrows.up hup)
  token := hgrows.token.trans hspeaks.token
  unsent := hspeaks.unsent
  outbound := hspeaks.outbound
  head := hspeaks.head
  taken := hgrows.taken.trans hspeaks.taken
  given := hgrows.given.trans hspeaks.given
  inbound := hspeaks.inbound

/-- The channel takes octets: the frames that end in them are written. -/
theorem Speaks.wrote {count : Nat} (hvalid : ∀ ticket ∈ done ++ waiting ++ queued, ticket.Valid)
    (hsound : channel.Sound store) (hphase : link.phase = .connected channel.socket)
    (hup : channel.isUp = true)
    (hgrows :
      Channel.Grows { channel with taken := channel.taken ++ link.outbound.take count } later)
    (hspeaks : link.Speaks now store channel done waiting queued answered part) :
    ∃ sent kept, queued = sent ++ kept ∧
      (link.wrote count).Speaks now store later done (waiting ++ sent) kept answered part := by
  have hqueued : ∀ ticket ∈ queued, ticket.Valid :=
    fun ticket hmem => hvalid ticket (List.mem_append_right _ hmem)
  have hholds : Holds queued link.unsent := by
    rw [hspeaks.unsent, Holds, List.map_map]
    exact List.map_congr_left fun ticket hmem => (hqueued ticket hmem).unmarked.symm
  obtain ⟨sent, kept, rfl, hsent, -, hwithin, htake, hdrop⟩ :=
    split_wrote count hqueued hholds hspeaks.outbound hspeaks.head
  -- nobody has given up, so that the slots are those of the tickets as they are
  have hslots : link.finishedBy count ++ (link.wrote count).unsent
      = sent.map (·.slot) ++ kept.map (·.slot) := by
    rw [← List.map_append, ← hspeaks.unsent]
    exact append_splitWritten _ _
  obtain ⟨hsentSlots, hkeptSlots⟩ := List.append_inj hslots (by
    have hcount := congrArg List.length hsent
    rw [List.length_map, List.length_map] at hcount
    rw [List.length_map, hcount])
  refine ⟨sent, kept, rfl, ?_, ?_, ?_, ?_, ?_, ?_, ?_, ?_, ?_⟩
  · have hgroups : channel.groups store <+: later.groups store := by
      refine Channel.groups_prefix store ?_ hgrows.times hsound.executed
      rw [hgrows.taken]
      exact List.prefix_append _ _
    obtain ⟨hcount, hheard, hbegun, hawaits⟩ := hspeaks.toListens.mono hgroups
    refine ⟨hcount, hheard, hbegun, ?_⟩
    show Awaits (waiting ++ sent) part (link.awaiting ++ link.finishedBy count)
    rw [hsentSlots]
    exact hawaits.append sent
  · exact .connected (by rw [hgrows.socket]; exact hphase) (hgrows.up hup)
  · exact hgrows.token.trans hspeaks.token
  · exact hkeptSlots
  · exact hdrop
  · exact hwithin
  · rw [hgrows.taken]
    show channel.taken ++ link.outbound.take count = _
    rw [hspeaks.taken, List.append_assoc, htake, ← List.append_assoc, ← List.append_assoc,
      ← Trace.frames_append]
  · exact hgrows.given.trans hspeaks.given
  · exact hspeaks.inbound

/-- **Octets that were read end commands with the results of their replies**, and nothing is
wrong with them. -/
theorem Speaks.received {octets : Bytes}
    (hvalid : ∀ ticket ∈ done ++ waiting ++ queued, ticket.Valid)
    (hsound : channel.Sound store)
    (hsame : channel.given
      = (answered.flatten ++ part).flatMap Response.frame ++ (link.inbound ++ octets))
    (hspeaks : link.Speaks now store { channel with
      given := (answered.flatten ++ part).flatMap Response.frame ++ link.inbound } done waiting
      queued answered part) :
    ∃ ended rest answered' part' last finished,
      waiting = ended ++ rest ∧ finished.length = ended.length ∧
      (link.receiving octets).decodeInbound = (last, finished, none) ∧
      last.server = link.server ∧ last.token = link.token ∧ last.outbound = link.outbound ∧
      last.phase = link.phase ∧
      last.Speaks now store channel (done ++ ended) rest queued answered' part' ∧
      SettlesFrom link.server.index (done ++ waiting) (channel.groups store) done.length
        finished := by
  have hlistens : link.Listens (channel.groups store) done waiting answered part :=
    hspeaks.toListens
  have hreplies : Answered (done ++ waiting) (channel.groups store) := by
    have hreplies := hspeaks.replies hvalid
    exact hreplies
  have hfits := Store.fits_answers hsound.bodies
  obtain ⟨coming, hcoming⟩ := hlistens.begun
  -- what is read now comes from the responses behind those that were heard
  have hleads : link.inbound ++ octets <+: coming.flatMap Response.frame := by
    have hread := hsound.read.trans hsound.sent
    rw [hsame, Channel.stream, ← hcoming, @List.flatMap_append _ _ (answered.flatten ++ part),
      List.prefix_append_right_inj] at hread
    exact hread
  have hcomingFits : ∀ response ∈ coming, response.Fits := by
    intro response hmem
    apply hfits
    show response ∈ (channel.groups store).flatten
    rw [← hcoming]
    exact List.mem_append_right _ hmem
  obtain ⟨whole, rest, hwhole, hoctets, hrest⟩ :=
    Response.kind.exists_of_prefix_flatMap (fun response hmem => by
      have hframe := (hcomingFits response hmem).decode_frame []
      rw [List.append_nil] at hframe
      exact ⟨response, hframe⟩) hleads
  obtain ⟨hframes, hleft, hfault⟩ := Response.split_frames
    (fun response hmem => hcomingFits response (hwhole.subset hmem)) hrest
  rw [← hoctets] at hframes hleft hfault
  have hnext : answered.flatten ++ (part ++ whole) <+: (channel.groups store).flatten := by
    rw [← hcoming, ← List.append_assoc, List.prefix_append_right_inj]
    exact hwhole
  obtain ⟨ended, others, answered', part', awaiting, finished, rfl, hcount, hmatch, hlast, hheard,
    hsettles⟩ := @Listens.matchReplies (link.receiving octets) _ _ _ _ _ _
      (fun ticket hmem => hvalid ticket (List.mem_append_left _ hmem)) hreplies
      ⟨hlistens.count, hlistens.heard, hlistens.begun, hlistens.awaits⟩ hnext
  refine ⟨ended, others, answered', part', { link with awaiting, inbound := rest }, finished, rfl,
    hcount, ?_, rfl, rfl, rfl, rfl, ?_, hsettles⟩
  · unfold decodeInbound
    rw [show (link.receiving octets).inbound = link.inbound ++ octets from rfl]
    dsimp only
    rw [hframes, hmatch, hleft, hfault]
    rfl
  · refine ⟨⟨hlast.count, hlast.heard, hlast.begun, hlast.awaits⟩, ?_, hspeaks.token,
      hspeaks.unsent, hspeaks.outbound, hspeaks.head, ?_, ?_, hrest⟩
    · cases hspeaks.holding with
      | connecting hphase hearly hnone hhead =>
          rw [List.append_eq_nil_iff, List.append_eq_nil_iff] at hnone
          obtain ⟨rfl, rfl, rfl⟩ := hnone
          exact .connecting hphase hearly rfl hhead
      | connected hphase hup => exact .connected hphase hup
    · rw [List.append_assoc]
      exact hspeaks.taken
    · rw [hsame, hheard, hoctets, ← List.append_assoc, ← List.append_assoc,
        @List.flatMap_append _ _ (answered.flatten ++ part)]

end Speaks

section Attends

variable {ω : Type} [Network ω] {hosts : Hosts ω} {servers : List ServerAddress} {net after : ω}
  {issued : List Ticket} {ended : Nat}

/-- The connect of a link still has time. -/
theorem Attends.early (hattends : link.Attends hosts net issued ended) :
    ∀ deadline, link.phase.deadline? = some deadline → Network.now net < deadline := by
  intro deadline hdeadline
  cases hattends with
  | untouched _ huntouched =>
      rw [huntouched.phase] at hdeadline
      cases hdeadline
  | speaking _ _ hspeaks =>
      cases hspeaks.holding with
      | connecting hphase hearly =>
          rw [hphase] at hdeadline
          cases hdeadline
          exact hearly
      | connected hphase =>
          rw [hphase] at hdeadline
          cases hdeadline

/-- A channel that goes on by itself, while the connect has time, changes nothing. -/
theorem Attends.grows (hlawful : hosts.Lawful servers)
    (hgrows : Option.Rel Channel.Grows (hosts.channel net link.server.index)
      (hosts.channel after link.server.index))
    (hearly : ∀ deadline, link.phase.deadline? = some deadline → Network.now after < deadline)
    (hattends : link.Attends hosts net issued ended) : link.Attends hosts after issued ended := by
  cases hattends with
  | untouched hchannel huntouched =>
      rw [hchannel] at hgrows
      generalize hlater : hosts.channel after link.server.index = later at hgrows
      cases hgrows
      exact .untouched hlater huntouched
  | speaking hchannel hissued hspeaks =>
      have hsound := hlawful.sound hchannel
      rw [hchannel] at hgrows
      generalize hlater : hosts.channel after link.server.index = later at hgrows
      cases hgrows with
      | some hgrows =>
          have hstill := hspeaks.grows hsound hgrows
          refine .speaking hlater hissued { hstill with holding := ?_ }
          cases hstill.holding with
          | connecting hphase _ hnone hhead =>
              refine .connecting hphase (hearly _ ?_) hnone hhead
              rw [hphase]
              rfl
          | connected hphase hup => exact .connected hphase hup

/-- The same while no time passes. -/
theorem Attends.rests (hlawful : hosts.Lawful servers)
    (hrests : Option.Rel Channel.Rests (hosts.channel net link.server.index)
      (hosts.channel after link.server.index))
    (hnow : Network.now after = Network.now net)
    (hattends : link.Attends hosts net issued ended) : link.Attends hosts after issued ended := by
  refine hattends.grows hlawful ?_ ?_
  · generalize hosts.channel net link.server.index = before at hrests
    generalize hosts.channel after link.server.index = later at hrests
    cases hrests with
    | some hrests => exact .some hrests.toGrows
    | none => exact .none
  · rw [hnow]
    exact hattends.early

omit [Network ω] in
/-- What is due stays due. -/
theorem Pushed.rests
    (hrests : Option.Rel Channel.Rests (hosts.channel net link.server.index)
      (hosts.channel after link.server.index))
    (hpushed : link.Pushed hosts net) : link.Pushed hosts after := by
  rcases hpushed with hempty | ⟨channel, hchannel, hdue⟩
  · exact .inl hempty
  · rw [hchannel] at hrests
    generalize hlater : hosts.channel after link.server.index = later at hrests
    cases hrests with
    | some hrests => exact .inr ⟨_, hlater, hrests.due hdue⟩

omit [Network ω] in
/-- What comes is due. -/
theorem Heard.rests
    (hrests : Option.Rel Channel.Rests (hosts.channel net link.server.index)
      (hosts.channel after link.server.index))
    (hheard : link.Heard hosts net) : link.Heard hosts after := by
  intro later hlater
  rw [hlater] at hrests
  generalize hchannel : hosts.channel net link.server.index = channel at hrests
  cases hrests with
  | some hrests => exact hrests.heard (hheard _ hchannel)

/-- One more command is issued. -/
theorem Attends.enqueue (ticket : Ticket) (hattends : link.Attends hosts net issued ended) :
    (link.enqueue ticket.request ticket.slot).Attends hosts net (issued ++ [ticket]) ended := by
  have hframes (tickets : List Ticket) :
      Trace.frames (tickets ++ [ticket]) = Trace.frames tickets ++ ticket.request.frame := by
    rw [Trace.frames_append, Trace.frames_cons]
    exact congrArg _ (List.append_nil _)
  cases hattends with
  | untouched hchannel huntouched =>
      refine .untouched hchannel ⟨huntouched.phase, huntouched.failure, ?_, ?_, huntouched.head,
        huntouched.awaiting, huntouched.inbound⟩
      · show link.unsent ++ [ticket.slot] = _
        rw [huntouched.unsent, List.map_append]
        rfl
      · show link.outbound ++ ticket.request.frame = _
        rw [huntouched.outbound, hframes]
  | @speaking channel done waiting queued answered part hchannel hissued hspeaks =>
      refine @speaking _ _ _ _ _ _ channel done waiting (queued ++ [ticket]) answered part hchannel
        (by rw [hissued, List.append_assoc]) ?_
      obtain ⟨hlistens, hholding, htoken, hunsent, houtbound, hhead, htaken, hgiven, hinbound⟩ :=
        hspeaks
      refine ⟨⟨hlistens.count, hlistens.heard, hlistens.begun, hlistens.awaits⟩, ?_, htoken, ?_, ?_,
        hhead.append ticket, ?_, hgiven, hinbound⟩
      · cases hholding with
        | connecting hphase hearly hnone hzero => exact .connecting hphase hearly hnone hzero
        | connected hphase hup => exact .connected hphase hup
      · show link.unsent ++ [ticket.slot] = _
        rw [hunsent, List.map_append]
        rfl
      · show link.outbound ++ ticket.request.frame
          = (Trace.frames (queued ++ [ticket])).drop link.headWritten
        rw [hframes, List.drop_append_of_le_length hhead.le, houtbound]
      · rw [htaken]
        show _ = _ ++ (Trace.frames (queued ++ [ticket])).take link.headWritten
        rw [hframes, List.take_append_of_le_length hhead.le]

/-- A queue of which all octets are written is empty. -/
theorem eq_nil_of_drop {queued : List Ticket} {written : Nat} (hhead : HeadWithin written queued)
    (hempty : (Trace.frames queued).drop written = []) : queued = [] := by
  cases queued with
  | nil => rfl
  | cons ticket others =>
      have hlt : written < ticket.request.frame.length := hhead
      rw [List.drop_eq_nil_iff, Trace.frames_cons, List.length_append] at hempty
      omega

/-- What was read are not all responses as long as a command waits for replies. -/
theorem Speaks.unread {now : Nat} {store : Store} {channel : Channel}
    {done waiting queued : List Ticket}
    (hvalid : ∀ ticket ∈ done ++ waiting ++ queued, ticket.Valid)
    (hsound : channel.Sound store)
    (hspeaks : link.Speaks now store channel done waiting queued answered part)
    (hwaits : waiting ≠ []) (hexecuted : channel.times.length = channel.requests.length) :
    channel.given ≠ channel.stream store := by
  intro hall
  obtain ⟨later, hgroups, coming, hcoming⟩ := hspeaks.rest
  obtain ⟨ticket, others, rfl⟩ := List.exists_cons_of_ne_nil hwaits
  have hrest : link.inbound = coming.flatMap Response.frame := by
    rw [Channel.stream, hgroups, List.flatten_append, ← hcoming, ← List.append_assoc,
      @List.flatMap_append _ _ (answered.flatten ++ part), hspeaks.given] at hall
    exact List.append_cancel_left hall
  cases coming with
  | cons response coming =>
      -- a whole reply would have been given to its command
      have hfits : response.Fits := by
        apply Store.fits_answers hsound.bodies
        show response ∈ (channel.groups store).flatten
        rw [hgroups, List.flatten_append, ← hcoming]
        simp
      have hincomplete := hspeaks.inbound
      rw [hrest, List.flatMap_cons, hfits.decode_frame] at hincomplete
      cases hincomplete
  | nil =>
      rw [List.append_nil] at hcoming
      have hcount : (channel.groups store).length = done.length + (others.length + 1) := by
        rw [hsound.length_groups, hexecuted, hspeaks.requests hvalid, List.length_map,
          List.length_append, List.length_cons]
      rw [hgroups, List.length_append, hspeaks.count] at hcount
      obtain ⟨group, later, rfl⟩ : ∃ group rest, later = group :: rest :=
        List.exists_cons_of_length_pos (by omega)
      have hplace : (channel.groups store)[done.length]? = some group := by
        rw [hgroups, ← hspeaks.count, List.getElem?_append_right (Nat.le_refl _), Nat.sub_self]
        rfl
      obtain ⟨first, hfirst, hreply⟩ := hspeaks.replies hvalid _ _ hplace
      rw [List.getElem?_append_right (Nat.le_refl _), Nat.sub_self] at hfirst
      cases hfirst
      obtain ⟨slot, hprogress, -⟩ := hspeaks.awaits
      have hends := hreply.isSome_outcome? (hvalid ticket (by simp))
      rw [hcoming, List.flatten_cons, Slot.progress?_of_outcome? hends] at hprogress
      cases hprogress

/-- **As long as a command waits the server owes something**, if all is written that can be
written and all is read that has arrived. -/
theorem Attends.owes (hlawful : hosts.Lawful servers) (hvalid : ∀ ticket ∈ issued, ticket.Valid)
    (hattends : link.Attends hosts net issued ended) (hpushed : link.Pushed hosts net)
    (hheard : link.Heard hosts net) (hwaits : ended < issued.length) : hosts.Owes net := by
  cases hattends with
  | untouched hchannel huntouched =>
      rcases hpushed with hempty | ⟨channel, hother, -⟩
      · have hnone : issued = [] :=
          eq_nil_of_drop (headWithin_zero issued) (huntouched.outbound.symm.trans hempty)
        rw [hnone] at hwaits
        cases hwaits
      · rw [hchannel] at hother
        cases hother
  | @speaking channel done waiting queued answered part hchannel hissued hspeaks =>
      have hsound := hlawful.sound hchannel
      refine ⟨_, channel, hchannel, ?_⟩
      by_cases hdue : channel.isDue = true
      · exact .inl hdue
      refine .inr ?_
      have hempty : link.outbound = [] := by
        rcases hpushed with hempty | ⟨other, hother, hdue'⟩
        · exact hempty
        · rw [hchannel] at hother
          cases hother
          exact absurd hdue' hdue
      have hqueued : queued = [] :=
        eq_nil_of_drop hspeaks.head (hspeaks.outbound.symm.trans hempty)
      have hwaiting : waiting ≠ [] := by
        rintro rfl
        rw [hissued, hqueued, List.append_nil, List.append_nil] at hwaits
        omega
      by_contra hsettled
      rw [not_or, Nat.not_lt, Nat.not_lt] at hsettled
      have hread : channel.given = channel.arrived := (hheard channel hchannel).resolve_left hdue
      rw [hissued] at hvalid
      refine hspeaks.unread hvalid hsound hwaiting
        (Nat.le_antisymm hsound.executed hsettled.1) ?_
      rw [hread]
      exact hsound.sent.eq_of_length_le hsettled.2

end Attends

end Link

end CachePool
