/-
# How octets arrive

The poller tells of octets in events, and in every event a link reads them in pieces of any
length, with interruptions in between.  A link does not see how its octets arrive: what it makes
of them is what it would make of them at once.

* `Network.Gives`, `Arrives` : what a socket gives in an event, and in one after the other;
* `Link.reading` : what a link makes of octets;
* `Reading.Leaves` : what is left when it has;
* `Link.arrivals_unseen` : however octets arrive, the same is left.
-/
import CachePool.Proofs.Chunks
import CachePool.Proofs.Health

namespace CachePool

variable {ω : Type}

namespace Link

/-! ## Replies in two goes -/

/-- The octets received do not matter for a reply. -/
theorem matchReply_inbound (link : Link) (octets : Bytes) (response : Response) :
    ({ link with inbound := octets } : Link).matchReply response
      = (link.matchReply response).map fun result =>
        ({ result.1 with inbound := octets }, result.2) := by
  unfold matchReply
  dsimp only
  split
  · rfl
  split
  · rfl
  split
  · rfl
  split <;> rfl

/-- The octets received do not matter for replies. -/
theorem matchReplies_inbound (link : Link) (octets : Bytes) (responses : List Response) :
    ({ link with inbound := octets } : Link).matchReplies responses
      = ({ (link.matchReplies responses).1 with inbound := octets },
        (link.matchReplies responses).2) := by
  induction responses generalizing link with
  | nil => rfl
  | cons response responses ih =>
      unfold matchReplies
      rw [matchReply_inbound]
      cases link.matchReply response with
      | error => rfl
      | ok result => simp only [Except.map, ih result.1]

/-- Behind replies that fit, the others are matched. -/
theorem matchReplies_append {link next : Link} {first : List Response} {finished : List Finished}
    (hfirst : link.matchReplies first = (next, finished, none)) (later : List Response) :
    link.matchReplies (first ++ later) = ((next.matchReplies later).1,
      finished ++ (next.matchReplies later).2.1, (next.matchReplies later).2.2) := by
  induction first generalizing link finished with
  | nil =>
      cases hfirst
      rfl
  | cons response first ih =>
      rw [List.cons_append, matchReplies]
      rw [matchReplies] at hfirst
      cases hmatch : link.matchReply response with
      | error error => simp [hmatch] at hfirst
      | ok result =>
          rcases hothers : result.1.matchReplies first with ⟨last, more, fault⟩
          simp only [hmatch, hothers, Prod.mk.injEq] at hfirst
          obtain ⟨rfl, rfl, rfl⟩ := hfirst
          simp only [ih hothers, List.append_assoc]

/-- Behind a reply that does not fit, nothing is looked at. -/
theorem matchReplies_append_of_fault {link next : Link} {first : List Response}
    {finished : List Finished} {error : WireError}
    (hfirst : link.matchReplies first = (next, finished, some error)) (later : List Response) :
    link.matchReplies (first ++ later) = (next, finished, some error) := by
  induction first generalizing link finished with
  | nil => cases hfirst
  | cons response first ih =>
      rw [List.cons_append, matchReplies]
      rw [matchReplies] at hfirst
      cases hmatch : link.matchReply response with
      | error error => simpa [hmatch] using hfirst
      | ok result =>
          rcases hothers : result.1.matchReplies first with ⟨last, more, fault⟩
          simp only [hmatch, hothers, Prod.mk.injEq] at hfirst
          obtain ⟨rfl, rfl, rfl⟩ := hfirst
          simp only [ih hothers]

/-- Matching replies leaves all but the queue of those that wait. -/
theorem matchReplies_eq (link : Link) (responses : List Response) :
    ∃ awaiting, (link.matchReplies responses).1 = { link with awaiting } := by
  obtain ⟨_, _, _, -, hanswers, -⟩ := link.answers_matchReplies responses
  exact ⟨_, hanswers.eq⟩

/-! ## What a link makes of octets -/

/-- What a link makes of octets that came, and of the end of its stream. -/
structure Reading where
  /-- The link when all complete replies are matched, up to the first that is refused. -/
  link : Link
  /-- The commands that these replies ended. -/
  finished : List Finished
  /-- Why the link does not read on. -/
  failure : Option Failure

/-- What a link makes of what was cut off its stream. -/
def readCut (link : Link) (cut : FrameKind.Cut Response) (ending : ReadEnd) : Reading :=
  let (next, finished, fault) := link.matchReplies (cut.frames.map (·.1))
  { link := { next with inbound := cut.rest }
    finished
    failure := ((fault.or cut.fault).map .protocol).or
      (if ending = .closed then some .closed else none) }

/-- What a link makes of octets that it gets at once. -/
def reading (link : Link) (octets : Bytes) (ending : ReadEnd) : Reading :=
  link.readCut (Response.kind.split (link.inbound ++ octets)) ending

/-- What a reading leaves: a link that reads on, or one that was torn down at some time.  In both
cases the replies count first, and only then the other commands end. -/
def Reading.Leaves (reading : Reading) (around : Around ω) (state : Link × Around ω) : Prop :=
  match reading.failure with
  | none => state.1 = reading.link ∧
      state.2.finished = around.finished ++ reading.finished ∧ state.2.log = around.log
  | some failure => (∃ now, state.1 = reading.link.torn now) ∧
      state.2.finished
        = around.finished ++ (reading.finished ++ reading.link.casualties failure) ∧
      state.2.log = around.log.add .warn
        ("server " ++ reading.link.address ++ " marked dead: " ++ failure.message)

variable {link : Link} {around : Around ω} {first later octets : Bytes} {ending : ReadEnd}
  {failure : Failure}

/-- A reading when its replies have been matched. -/
theorem readCut_eq {cut : FrameKind.Cut Response} {next : Link} {finished : List Finished}
    {fault : Option WireError}
    (hmatched : link.matchReplies (cut.frames.map (·.1)) = (next, finished, fault))
    (ending : ReadEnd) :
    link.readCut cut ending = {
      link := { next with inbound := cut.rest }
      finished
      failure := ((fault.or cut.fault).map .protocol).or
        (if ending = .closed then some .closed else none) } := by
  unfold readCut
  rw [hmatched]

/-- Only the queue of those that wait and the octets received are not what they were. -/
theorem link_reading (link : Link) (octets : Bytes) (ending : ReadEnd) :
    ∃ awaiting inbound, (link.reading octets ending).link = { link with awaiting, inbound } := by
  unfold reading
  obtain ⟨awaiting, hmatched⟩ := link.matchReplies_eq
    ((Response.kind.split (link.inbound ++ octets)).frames.map (·.1))
  rw [readCut_eq rfl, hmatched]
  exact ⟨awaiting, _, rfl⟩

/-- What a later reading leaves, seen from before. -/
theorem Reading.Leaves.after {reading : Reading} {between : Around ω} {state : Link × Around ω}
    {finished : List Finished} (hleaves : reading.Leaves between state)
    (hfinished : between.finished = around.finished ++ finished) (hlog : between.log = around.log) :
    ({ reading with finished := finished ++ reading.finished } : Reading).Leaves around state := by
  unfold Reading.Leaves at hleaves ⊢
  dsimp only
  split
  all_goals
    rename_i hfailure
    simp only [hfailure, hfinished, hlog] at hleaves
    simpa only [List.append_assoc] using hleaves

/-- What a reading leaves differs at most in the time of a failure. -/
theorem Reading.Leaves.same {reading : Reading} {first second : Link × Around ω}
    (hfirst : reading.Leaves around first) (hsecond : reading.Leaves around second) :
    first.2.finished = second.2.finished ∧ first.2.log = second.2.log ∧
      (∃ failedAt, { first.1 with lastFailure := failedAt } = second.1) ∧
      (reading.failure = none → first.1 = second.1) := by
  unfold Reading.Leaves at hfirst hsecond
  split at hfirst
  · rename_i hnone
    rw [hnone] at hsecond
    obtain ⟨hlink, hfinished, hlog⟩ := hfirst
    obtain ⟨hlink', hfinished', hlog'⟩ := hsecond
    exact ⟨hfinished.trans hfinished'.symm, hlog.trans hlog'.symm,
      ⟨first.1.lastFailure, hlink.trans hlink'.symm⟩, fun _ => hlink.trans hlink'.symm⟩
  · -- both were torn down, each at its own time
    rename_i failure hsome
    rw [hsome] at hsecond
    obtain ⟨⟨now, hlink⟩, hfinished, hlog⟩ := hfirst
    obtain ⟨⟨later, hlink'⟩, hfinished', hlog'⟩ := hsecond
    refine ⟨hfinished.trans hfinished'.symm, hlog.trans hlog'.symm, ⟨some later, ?_⟩,
      fun hnone => nomatch hsome.symm.trans hnone⟩
    rw [hlink, hlink']
    rfl

/-! ## Octets in two goes -/

/-- A reading goes on when no reply was refused and no frame. -/
theorem failure_readCut_eq_none_iff {cut : FrameKind.Cut Response} :
    (link.readCut cut .drained).failure = none ↔
      (link.matchReplies (cut.frames.map (·.1))).2.2 = none ∧ cut.fault = none := by
  rw [readCut_eq rfl]
  simp

/-- A reading that goes on makes of more what it would have made of all of it. -/
theorem readCut_append {cut : FrameKind.Cut Response}
    (hnone : (link.readCut cut .drained).failure = none) (more : FrameKind.Cut Response)
    (ending : ReadEnd) :
    link.readCut { more with frames := cut.frames ++ more.frames } ending
      = { (link.readCut cut .drained).link.readCut more ending with
          finished := (link.readCut cut .drained).finished
            ++ ((link.readCut cut .drained).link.readCut more ending).finished } := by
  rcases hmatched : link.matchReplies (cut.frames.map (·.1)) with ⟨next, finished, fault⟩
  obtain ⟨hfits, -⟩ := failure_readCut_eq_none_iff.mp hnone
  rw [hmatched] at hfits
  cases hfits
  have hmore := next.matchReplies_inbound cut.rest (more.frames.map (·.1))
  have hboth := matchReplies_append hmatched (more.frames.map (·.1))
  rw [← List.map_append] at hboth
  rw [readCut_eq hmatched, readCut_eq hmore, readCut_eq hboth]

/-- A link that reads on makes of more octets what it would have made of all of them. -/
theorem reading_append (hnone : (link.reading first .drained).failure = none) (later : Bytes)
    (ending : ReadEnd) :
    link.reading (first ++ later) ending
      = { (link.reading first .drained).link.reading later ending with
          finished := (link.reading first .drained).finished
            ++ ((link.reading first .drained).link.reading later ending).finished } := by
  have hfault := (failure_readCut_eq_none_iff.mp hnone).2
  unfold reading
  rw [← List.append_assoc, Response.kind.split_append _ later hfault]
  exact readCut_append hnone _ ending

/-- A link that was refused something looks at no more octets. -/
theorem reading_append_of_failure
    (hfailure : (link.reading first .drained).failure = some failure) (later : Bytes)
    (ending : ReadEnd) :
    (link.reading (first ++ later) ending).failure = some failure ∧
      (link.reading (first ++ later) ending).finished = (link.reading first .drained).finished ∧
      ∃ inbound, (link.reading (first ++ later) ending).link
        = { (link.reading first .drained).link with inbound } := by
  unfold reading at hfailure ⊢
  rw [← List.append_assoc]
  rcases hmatched : link.matchReplies
    ((Response.kind.split (link.inbound ++ first)).frames.map (·.1)) with ⟨next, finished, fault⟩
  rw [readCut_eq hmatched] at hfailure ⊢
  cases fault with
  | some error =>
      -- the reply that does not fit is the first that does not fit of all
      obtain ⟨frames, hframes⟩ := Response.kind.frames_append (link.inbound ++ first) later
      have hall := matchReplies_append_of_fault hmatched (frames.map (·.1))
      rw [← List.map_append, hframes] at hall
      rw [readCut_eq hall]
      exact ⟨hfailure, rfl, _, rfl⟩
  | none =>
      cases hfault : (Response.kind.split (link.inbound ++ first)).fault with
      | none =>
          rw [hfault] at hfailure
          cases hfailure
      | some error =>
          obtain ⟨hframes, hstays⟩ := Response.kind.split_append_of_fault later hfault
          rw [← hframes] at hmatched
          rw [readCut_eq hmatched, hstays]
          rw [hfault] at hfailure
          exact ⟨hfailure, rfl, _, rfl⟩

/-- A link that reads on keeps the front of one reply at most. -/
theorem decode_inbound_reading (hnone : (link.reading first .drained).failure = none) :
    Response.kind.decode (link.reading first .drained).link.inbound = .ok .incomplete :=
  Response.kind.decode_rest (failure_readCut_eq_none_iff.mp hnone).2

/-- Nothing comes of no octets. -/
theorem reading_nil (hincomplete : Response.kind.decode link.inbound = .ok .incomplete) :
    link.reading [] .drained = { link, finished := [], failure := none } := by
  unfold reading
  rw [List.append_nil, Response.kind.split_of_incomplete hincomplete]
  rfl

end Link

/-! ## Events -/

section Events

variable [Network ω]

/-- What a socket gives until it blocks or ends. -/
inductive Network.Gives (socket : Socket) : ω → Bytes → Link.ReadEnd → Prop
  | blocked {net after : ω} (hread : Network.read net socket = (.wouldBlock, after)) :
      Gives socket net [] .drained
  | ended {net after : ω} (hread : Network.read net socket = (.closed, after)) :
      Gives socket net [] .closed
  | interrupted {net after : ω} {octets : Bytes} {ending : Link.ReadEnd}
      (hread : Network.read net socket = (.interrupted, after))
      (hlater : Gives socket after octets ending) : Gives socket net octets ending
  | data {net after : ω} {piece octets : Bytes} {ending : Link.ReadEnd}
      (hread : Network.read net socket = (.data piece, after))
      (hlater : Gives socket after octets ending) : Gives socket net (piece ++ octets) ending

/-- Reading until the socket blocks or ends gives all of that. -/
theorem Network.Gives.readAll {socket : Socket} {net : ω} {octets : Bytes}
    {ending : Link.ReadEnd} (hgives : Network.Gives socket net octets ending) :
    ∃ after, Link.readAll socket net = (octets, ending, after) := by
  induction hgives with
  | @blocked _ after hread | @ended _ after hread =>
      refine ⟨after, ?_⟩
      rw [Link.readAll]
      split <;> simp_all
  | @interrupted net after octets ending hread _ ih =>
      obtain ⟨last, hlast⟩ := ih
      refine ⟨last, ?_⟩
      rw [Link.readAll]
      split <;> simp_all
  | @data net after piece octets ending hread _ ih =>
      obtain ⟨last, hlast⟩ := ih
      refine ⟨last, ?_⟩
      rw [Link.readAll]
      split <;> simp_all

/-- The octets end with the socket, or when it blocks. -/
theorem Network.Gives.ne_failed {socket : Socket} {net : ω} {octets : Bytes}
    {ending : Link.ReadEnd} (hgives : Network.Gives socket net octets ending) (error : IoError) :
    ending ≠ .failed error := by
  induction hgives with
  | blocked | ended => exact fun hsame => nomatch hsame
  | interrupted _ _ ih | data _ _ ih => exact ih

/-- An event, with the time and the network that a link has when it handles it. -/
structure Arrival (ω : Type) where
  net : ω
  now : Nat
  event : Event

/-- Events in which a socket gives octets, and the end of its stream or not.  What comes after the
end may be anything. -/
inductive Arrives (socket : Socket) : List (Arrival ω) → Bytes → Link.ReadEnd → Prop
  | nothing : Arrives socket [] [] .drained
  | more {arrival : Arrival ω} {arrivals : List (Arrival ω)} {first later : Bytes}
      {ending : Link.ReadEnd} (hreadable : arrival.event.readable = true)
      (hgives : Network.Gives socket arrival.net first .drained)
      (hlater : Arrives socket arrivals later ending) :
      Arrives socket (arrival :: arrivals) (first ++ later) ending
  | ended {arrival : Arrival ω} {octets : Bytes} (hreadable : arrival.event.readable = true)
      (hgives : Network.Gives socket arrival.net octets .closed) (arrivals : List (Arrival ω)) :
      Arrives socket (arrival :: arrivals) octets .closed

end Events

namespace Link

/-! ## One event -/

variable [Network ω] {link : Link} {socket : Socket} {around : Around ω} {arrival : Arrival ω}
  {octets : Bytes} {ending : ReadEnd} {failure : Failure}

/-- A link and its surroundings when they have handled an event. -/
def handle (state : Link × Around ω) (arrival : Arrival ω) : Link × Around ω :=
  state.1.onReady { state.2 with net := arrival.net } arrival.now arrival.event

/-- Without octets to write nothing is written. -/
theorem writeQueued_of_empty (hempty : link.outbound = []) (around : Around ω) (now : Nat) :
    link.writeQueued around now = (link, around) := by
  unfold writeQueued
  split
  · rw [writePending, dif_pos hempty]
  · rfl

/-- Reading what a socket gives makes of it what the link makes of it at once. -/
theorem readAvailable_of_gives (hgives : Network.Gives socket around.net octets ending) :
    ∃ inbound net, link.readAvailable around socket
        = ({ (link.reading octets ending).link with inbound },
          ({ around with net } : Around ω).finish (link.reading octets ending).finished,
          (link.reading octets ending).failure) ∧
      ((link.reading octets ending).failure = none →
        inbound = (link.reading octets ending).link.inbound) := by
  obtain ⟨net, hread⟩ := hgives.readAll
  rw [readAvailable_of_looked hread hgives.ne_failed]
  unfold decodeInbound reading readCut receiving
  dsimp only
  rw [matchReplies_inbound]
  rcases link.matchReplies _ with ⟨next, finished, fault⟩
  cases fault with
  | some error => exact ⟨_, net, rfl, fun hnone => nomatch hnone⟩
  | none =>
      refine ⟨_, net, ?_, fun _ => rfl⟩
      cases (Response.kind.split (link.inbound ++ octets)).fault <;> rfl

/-- **One event.** -/
theorem leaves_handle (hphase : link.phase = .connected socket)
    (hreadable : arrival.event.readable = true)
    (hquiet : arrival.event.writable = true → link.outbound = [])
    (hgives : Network.Gives socket arrival.net octets ending) (around : Around ω) :
    (link.reading octets ending).Leaves around (handle (link, around) arrival) := by
  obtain ⟨inbound, net, hread, hinbound⟩ :=
    @readAvailable_of_gives _ _ link _ { around with net := arrival.net } _ _ hgives
  have houtbound : (link.reading octets ending).link.outbound = link.outbound := by
    obtain ⟨_, _, hlink⟩ := link.link_reading octets ending
    rw [hlink]
  unfold handle onReady Reading.Leaves
  dsimp only
  rw [hphase]
  dsimp only
  rw [if_pos hreadable, hread]
  cases hfailure : (link.reading octets ending).failure with
  | some failure => exact ⟨⟨arrival.now, rfl⟩, List.append_assoc _ _ _, rfl⟩
  | none =>
      dsimp only
      rw [hinbound hfailure]
      -- an event that is also writable finds nothing to write
      split
      · rename_i hwritable
        rw [writeQueued_of_empty (houtbound.trans (hquiet hwritable))]
        exact ⟨rfl, rfl, rfl⟩
      · exact ⟨rfl, rfl, rfl⟩

/-! ## Events in a row -/

/-- A dead link handles no event. -/
theorem foldl_handle_of_dead (hdead : link.phase = .dead) (arrivals : List (Arrival ω))
    (around : Around ω) :
    ∃ net, arrivals.foldl handle (link, around) = (link, { around with net }) := by
  induction arrivals generalizing around with
  | nil => exact ⟨around.net, rfl⟩
  | cons arrival arrivals ih =>
      have hhandle :
          handle (link, around) arrival = (link, { around with net := arrival.net }) := by
        unfold handle onReady
        rw [hdead]
      obtain ⟨net, hfold⟩ := ih { around with net := arrival.net }
      exact ⟨net, by rw [List.foldl_cons, hhandle, hfold]⟩

/-- A link that failed stays as it was left. -/
theorem Reading.Leaves.stays {reading : Reading} {state : Link × Around ω}
    (hleaves : reading.Leaves around state) (hfailure : reading.failure = some failure)
    (arrivals : List (Arrival ω)) : reading.Leaves around (arrivals.foldl handle state) := by
  unfold Reading.Leaves at hleaves ⊢
  rw [hfailure] at hleaves ⊢
  obtain ⟨⟨now, hlink⟩, hrest⟩ := hleaves
  obtain ⟨net, hfold⟩ := foldl_handle_of_dead (show state.1.phase = .dead by rw [hlink]; rfl)
    arrivals state.2
  rw [hfold]
  exact ⟨⟨now, hlink⟩, hrest⟩

/-- **Events in a row** leave what the octets in them leave at once. -/
theorem leaves_foldl {arrivals : List (Arrival ω)}
    (harrives : Arrives socket arrivals octets ending) (hphase : link.phase = .connected socket)
    (hincomplete : Response.kind.decode link.inbound = .ok .incomplete)
    (hquiet : ∀ arrival ∈ arrivals, arrival.event.writable = true → link.outbound = [])
    (around : Around ω) :
    (link.reading octets ending).Leaves around (arrivals.foldl handle (link, around)) := by
  induction harrives generalizing link around with
  | nothing =>
      rw [reading_nil hincomplete]
      exact ⟨rfl, (List.append_nil _).symm, rfl⟩
  | ended hreadable hgives arrivals =>
      have hstep := leaves_handle hphase hreadable (hquiet _ List.mem_cons_self) hgives around
      cases hfailure : (link.reading _ .closed).failure with
      | some failure => exact hstep.stays hfailure arrivals
      | none =>
          -- the end of the stream is a failure
          unfold reading at hfailure
          rw [readCut_eq rfl] at hfailure
          simp at hfailure
  | @more arrival arrivals first later ending hreadable hgives _ ih =>
      have hstep := leaves_handle hphase hreadable (hquiet _ List.mem_cons_self) hgives around
      rw [List.foldl_cons]
      cases hfailure : (link.reading first .drained).failure with
      | some failure =>
          -- the link is dead, and would have been refused the same in the whole
          obtain ⟨hsame, hfinished, inbound, hlink⟩ :=
            reading_append_of_failure hfailure later ending
          have hstays := hstep.stays hfailure arrivals
          unfold Reading.Leaves at hstays ⊢
          rw [hfailure] at hstays
          rw [hsame, hfinished, hlink]
          exact hstays
      | none =>
          -- the link reads on, and what comes later finds it as the whole would
          obtain ⟨_, _, hlink⟩ := link.link_reading first .drained
          have hstill : (link.reading first .drained).link.phase = .connected socket := by
            rw [hlink]
            exact hphase
          have hlater : ∀ arrival ∈ arrivals, arrival.event.writable = true →
              (link.reading first .drained).link.outbound = [] := by
            intro arrival hmem hwritable
            rw [hlink]
            exact hquiet arrival (List.mem_cons_of_mem _ hmem) hwritable
          generalize handle (link, around) arrival = state at hstep ⊢
          obtain ⟨next, between⟩ := state
          unfold Reading.Leaves at hstep
          rw [hfailure] at hstep
          obtain ⟨rfl, hfinished, hlog⟩ := hstep
          rw [reading_append hfailure]
          exact (ih hstill (decode_inbound_reading hfailure) hlater between).after hfinished hlog

/-- **How octets arrive is not seen.**  Octets come to a connected link, and the end of their
stream or not, while nothing is written.  In whatever events they come, and in whatever pieces, the
link is left as if it had looked at all of them at once: the same commands end in the same order,
with the same results, and it reads on as the same link, or it is torn down for the same reason.
If the stream ends and nothing in it was refused, its complete replies count before the other
commands end. -/
theorem arrivals_unseen {link : Link} {socket : Socket} (hsound : link.Sound)
    (hphase : link.phase = .connected socket) (around : Around ω) (octets : Bytes) :
    (∀ (ending : ReadEnd) (arrivals : List (Arrival ω)), Arrives socket arrivals octets ending →
      (∀ arrival ∈ arrivals, arrival.event.writable = true → link.outbound = []) →
      (link.reading octets ending).Leaves around (arrivals.foldl handle (link, around)) ∧
      ∀ once : Arrival ω, Arrives socket [once] octets ending →
        (once.event.writable = true → link.outbound = []) →
        let many := arrivals.foldl handle (link, around)
        let single := link.onReady { around with net := once.net } once.now once.event
        many.2.finished = single.2.finished ∧ many.2.log = single.2.log ∧
          (∃ failedAt, { many.1 with lastFailure := failedAt } = single.1) ∧
          ((link.reading octets ending).failure = none → many.1 = single.1)) ∧
    ∀ (arrivals : List (Arrival ω)) (last : Link) (finished : List Finished),
      Arrives socket arrivals octets .closed →
      (∀ arrival ∈ arrivals, arrival.event.writable = true → link.outbound = []) →
      (Response.kind.split (link.inbound ++ octets)).fault = none →
      link.matchReplies ((Response.kind.split (link.inbound ++ octets)).frames.map (·.1))
        = (last, finished, none) →
      (arrivals.foldl handle (link, around)).2.finished
        = around.finished ++ (finished ++ last.casualties .closed) := by
  have hincomplete := hsound.connected (by rw [hphase]; rfl)
  refine ⟨fun ending arrivals harrives hquiet => ?_,
    fun arrivals last finished harrives hquiet hfault hmatched => ?_⟩
  · have hmany := leaves_foldl harrives hphase hincomplete hquiet around
    refine ⟨hmany, fun once honce hstill => hmany.same ?_⟩
    exact leaves_foldl honce hphase hincomplete (List.forall_mem_singleton.mpr hstill) around
  · have hleaves := leaves_foldl harrives hphase hincomplete hquiet around
    unfold Reading.Leaves reading at hleaves
    rw [readCut_eq hmatched, hfault] at hleaves
    exact hleaves.2.1

/-- A reply comes in two events, with an interruption in the second and the end of the stream
behind it: its command ends well, and the next one fails. -/
theorem arrivals_unseen_parted :
    let second : Slot := { Script.ping.slot with seq := 1, tag := 1 }
    let link : Link :=
      { Script.waitingLink 5 false with awaiting := [Script.ping.slot, second] }
    let around : Around Script := ⟨Script.mk 5 [] [], Log.empty .keep, []⟩
    let event : Event := { token := 0, readable := true, writable := false }
    let part := Script.pong.frame.take 10
    let rest := Script.pong.frame.drop 10
    let arrivals : List (Arrival Script) :=
      [⟨Script.mk 6 [.data part] [], 6, event⟩,
        ⟨Script.mk 7 [.interrupted, .data rest, .closed] [], 7, event⟩]
    let once : Arrival Script := ⟨Script.mk 7 [.data Script.pong.frame, .closed] [], 7, event⟩
    link.Sound ∧ Arrives 0 arrivals Script.pong.frame .closed ∧
      Arrives 0 [once] Script.pong.frame .closed ∧
      (arrivals.foldl handle (link, around)).2.finished
        = (link.onReady { around with net := once.net } once.now once.event).2.finished ∧
      (arrivals.foldl handle (link, around)).2.finished
        = [{ server := 0, slot := Script.ping.slot, result := .ok .done },
          { server := 0, slot := second
            result := .error (link.connectionError Failure.closed.message) }] := by
  intro second link around event part rest arrivals once
  have hsound : link.Sound :=
    { socket := by decide
      deadline := by decide
      unconnected := fun hother => absurd rfl hother
      dead := fun hhealth => nomatch hhealth
      disconnected := fun hhealth => nomatch hhealth
      connected := fun _ => rfl
      abandoned := fun place slot hslot => nomatch (hslot : [][place]? = some slot)
      ordered := by decide
      tagged := by decide }
  have harrives : Arrives 0 arrivals Script.pong.frame .closed := by
    have hparts : (part ++ []) ++ (rest ++ []) = Script.pong.frame := by simp [part, rest]
    rw [← hparts]
    exact .more rfl (.data rfl (.blocked rfl))
      (.ended rfl (.interrupted rfl (.data rfl (.ended rfl))) [])
  have honce : Arrives 0 [once] Script.pong.frame .closed := by
    have hwhole : Script.pong.frame ++ [] = Script.pong.frame := List.append_nil _
    rw [← hwhole]
    exact .ended rfl (.data rfl (.ended rfl)) []
  have hcut : Response.kind.split (link.inbound ++ Script.pong.frame)
      = { frames := [(Script.pong, 24)], rest := [], fault := none } := Script.split_pong
  obtain ⟨hsame, hclosed⟩ := arrivals_unseen hsound rfl around Script.pong.frame
  refine ⟨hsound, harrives, honce,
    ((hsame .closed arrivals harrives fun _ _ _ => rfl).2 once honce fun _ => rfl).1, ?_⟩
  rw [hclosed arrivals { link with awaiting := [second] } [⟨0, Script.ping.slot, .ok .done⟩]
    harrives (fun _ _ _ => rfl) (by rw [hcut]) (by rw [hcut]; rfl)]
  rfl

end Link

end CachePool
