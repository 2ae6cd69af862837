/-
# What links do are steps

Every function that acts on a link follows the steps of `Link.Step`: it takes the link
and its network along some of them, and the commands it ends are those that the steps
end.

* `Link.follows_makeProgress`, `Link.follows_onReady` : a link is driven by steps;
* `Link.follows_expireLink`, `Link.follows_shedUnresponsive` : and gives up by steps;
* `Link.follows_retire` : a link that leaves the pool ends in a step.
-/
import CachePool.Proofs.Steps

namespace CachePool

/-- No reply gives a timeout as a result. -/
theorem Slot.accept_ne_timeout {slot : Slot} {response : Response}
    {result : Except ClientError Output} (haccept : slot.accept response = .final result) :
    result ≠ .error .timeout := by
  rintro rfl
  unfold accept at haccept
  split at haccept
  · generalize response.status = status at haccept
    cases status <;> cases haccept
  · repeat' split at haccept
    all_goals cases haccept

/-- What may happen while a call waits for a target: only commands of the target are given
up, and only a direct one without a result, as the call that waits for it reports the timeout
itself. -/
structure MayDrop (target : Target) (incident : Incident) : Prop where
  direct : ∀ slot, incident = .dropped slot → target = .command slot.seq
  covered : incident.GivesUpOnly fun slot => target.covers slot = true

/-- Where no command is given up none is dropped. -/
theorem mayDrop_of_keeps (target : Target) {incident : Incident} (hkeeps : incident.Keeps) :
    MayDrop target incident where
  direct := by
    rintro slot rfl
    exact absurd rfl (hkeeps slot.seq)
  covered := hkeeps.givesUpOnly _

namespace Link

variable {ω : Type} [Network ω] {now : Nat} {timeouts : Timeouts}

/-! ## Sequences of steps -/

/-- Some things a link does one after the other. -/
inductive Steps (now : Nat) (timeouts : Timeouts) (link : Link) (net : ω) :
    Trace → Link → ω → Prop
  | refl : Steps now timeouts link net [] link net
  | tail {between after : Link} {middle last : ω} {incidents more : Trace}
      (hsteps : Steps now timeouts link net incidents between middle)
      (hstep : between.Step now timeouts middle more after last) :
      Steps now timeouts link net (incidents ++ more) after last

/-- One step is a sequence of steps. -/
theorem Steps.single {link after : Link} {net last : ω} {incidents : Trace}
    (hstep : link.Step now timeouts net incidents after last) :
    Steps now timeouts link net incidents after last :=
  .tail .refl hstep

/-- Sequences of steps can be put one after the other. -/
theorem Steps.append {link between after : Link} {net middle last : ω} {incidents more : Trace}
    (hfirst : Steps now timeouts link net incidents between middle)
    (hsecond : Steps now timeouts between middle more after last) :
    Steps now timeouts link net (incidents ++ more) after last := by
  induction hsecond with
  | refl => simpa using hfirst
  | tail _ hstep ih =>
      rw [← List.append_assoc]
      exact .tail ih hstep

/-- What a function on a link gives is reached by steps that end the commands it ends, and
in which only incidents that satisfy a condition happen. -/
def Follows (now : Nat) (timeouts : Timeouts) (allows : Incident → Prop) (link : Link)
    (around : Around ω) (result : Link × Around ω) : Prop :=
  ∃ incidents, Steps now timeouts link around.net incidents result.1 result.2.net ∧
    result.2.finished = around.finished ++ incidents.endings ∧
    ∀ incident ∈ incidents, allows incident

variable {allows : Incident → Prop} {link : Link} {around : Around ω} {result : Link × Around ω}

/-- A function that changes only the log follows no steps. -/
theorem Follows.refl (hlink : result.1 = link) (hnet : result.2.net = around.net)
    (hfinished : result.2.finished = around.finished) :
    Follows now timeouts allows link around result := by
  refine ⟨[], ?_, ?_, fun _ hmem => nomatch hmem⟩
  · rw [hlink, hnet]
    exact .refl
  · rw [hfinished]
    exact (List.append_nil _).symm

/-- A function that makes one step. -/
theorem Follows.step {incidents : Trace} {after : Link} {net : ω}
    (hstep : link.Step now timeouts around.net incidents after net)
    (hlink : result.1 = after) (hnet : result.2.net = net)
    (hfinished : result.2.finished = around.finished ++ incidents.endings)
    (hallowed : ∀ incident ∈ incidents, allows incident) :
    Follows now timeouts allows link around result := by
  subst hlink hnet
  exact ⟨incidents, .single hstep, hfinished, hallowed⟩

/-- What happens under one condition happens under a weaker one. -/
theorem Follows.mono {weaker : Incident → Prop}
    (hweaker : ∀ incident, allows incident → weaker incident)
    (hfollows : Follows now timeouts allows link around result) :
    Follows now timeouts weaker link around result := by
  obtain ⟨incidents, hsteps, hfinished, hallowed⟩ := hfollows
  exact ⟨incidents, hsteps, hfinished, fun incident hmem => hweaker _ (hallowed incident hmem)⟩

/-- Functions that follow steps can be used one after the other. -/
theorem Follows.trans {between : Link × Around ω}
    (hfirst : Follows now timeouts allows link around between)
    (hsecond : Follows now timeouts allows between.1 between.2 result) :
    Follows now timeouts allows link around result := by
  obtain ⟨incidents, hsteps, hfinished, hallowed⟩ := hfirst
  obtain ⟨more, hsteps', hfinished', hallowed'⟩ := hsecond
  refine ⟨incidents ++ more, hsteps.append hsteps', ?_, ?_⟩
  · rw [hfinished', hfinished, List.append_assoc, Trace.endings_append]
  · intro incident hmem
    rcases List.mem_append.mp hmem with hmem | hmem
    · exact hallowed incident hmem
    · exact hallowed' incident hmem

/-! ## Losses -/

@[simp] theorem drops_map_ended (finished : List Finished) :
    Trace.drops (finished.map Incident.ended) = [] := by
  rw [Trace.drops, List.flatMap_eq_nil_iff]
  intro incident hmem
  obtain ⟨first, -, rfl⟩ := List.mem_map.mp hmem
  rfl

@[simp] theorem endings_loss (link : Link) (failure : Failure) :
    (link.loss failure).endings = link.casualties failure := by
  rw [loss, Trace.endings_cons, Trace.endings_map_ended]
  rfl

@[simp] theorem drops_loss (link : Link) (failure : Failure) :
    (link.loss failure).drops = [] := by
  rw [loss, Trace.drops_cons, drops_map_ended]
  rfl

/-- Commands that end with an error other than a timeout are not given up. -/
theorem routine_finishLive {error : ClientError} (herror : error ≠ .timeout) (link : Link)
    (slots : List Slot) : Trace.Routine ((link.finishLive error slots).map .ended) := by
  apply Trace.routine_map_ended
  intro finished hmem hresult
  obtain ⟨slot, -, rfl⟩ := List.mem_map.mp hmem
  cases hresult
  exact herror rfl

/-- The commands that a failure costs are not given up. -/
theorem routine_casualties (link : Link) (failure : Failure) :
    Trace.Routine ((link.casualties failure).map .ended) := by
  have hconnection : link.connectionError failure.message ≠ .timeout :=
    fun hsame => nomatch hsame
  have hfirst : link.firstError failure ≠ .timeout := by
    cases failure <;> exact fun hsame => nomatch hsame
  unfold casualties
  split
  · exact Trace.routine_nil
  · rw [List.map_append]
    exact (routine_finishLive hfirst link _).append (routine_finishLive hconnection link _)

/-- A failure leaves the link in the pool. -/
theorem routine_loss {failure : Failure} (hfailure : failure ≠ .removed) (link : Link) :
    (link.loss failure).Routine :=
  (routine_casualties link failure).cons ⟨fun _ hgives => hgives, hfailure⟩

/-- A link that leaves the pool gives up no command. -/
theorem keeps_loss (link : Link) (failure : Failure) :
    ∀ incident ∈ link.loss failure, incident.Keeps :=
  List.forall_mem_cons.mpr ⟨fun _ hgives => hgives,
    fun incident hmem => (routine_casualties link failure incident hmem).keeps⟩

/-- No failure removes a link from the pool. -/
theorem Loses.ne_removed {link losing : Link} {net after : ω} {incidents : Trace}
    {failure : Failure} (hloses : Loses now timeouts link net incidents losing failure after) :
    failure ≠ .removed := by
  cases hloses with
  | refusing _ _ _ _ _ hwhy =>
      generalize (Response.kind.split _).fault = fault at hwhy
      cases hwhy <;> exact fun hsame => nomatch hsame
  | _ => exact fun hsame => nomatch hsame

/-- What a socket reports gives up nothing. -/
theorem routine_reported (line : Line) : Trace.Routine [.reported line] :=
  Trace.routine_singleton ⟨fun _ hgives => hgives, trivial⟩

/-- A failing link follows the step of its loss. -/
theorem follows_fail {losing : Link} {failure : Failure} {incidents : Trace} {before : Around ω}
    (hloses : Loses now timeouts link around.net incidents losing failure before.net)
    (hfinished : before.finished = around.finished ++ incidents.endings)
    (hroutine : incidents.Routine) :
    Follows now timeouts Incident.Routine link around (losing.fail before now failure) := by
  refine .step (.lost hloses) rfl rfl ?_ (hroutine.append (routine_loss hloses.ne_removed losing))
  show before.finished ++ losing.casualties failure = _
  rw [hfinished, Trace.endings_append, endings_loss, List.append_assoc]

/-! ## Connecting -/

/-- Starting a connect is a step. -/
theorem follows_startConnect (hidle : link.phase.socket? = none) (hwork : link.unsent ≠ [])
    (heligible : link.isRetryEligible now timeouts = true) :
    Follows now timeouts Incident.Routine link around (link.startConnect around now timeouts) := by
  unfold startConnect
  dsimp only
  split
  · rename_i error hresolve
    exact follows_fail (.unresolved hidle hwork heligible hresolve) (by simp [Trace.endings])
      Trace.routine_nil
  · rename_i endpoint hresolve
    split
    · rename_i error net hconnect
      exact follows_fail (.unopened hidle hwork heligible hconnect) (by simp [Trace.endings])
        Trace.routine_nil
    · rename_i socket net hconnect
      refine .step (.opened hidle hwork heligible hconnect) rfl rfl ?_
        (Trace.routine_singleton ⟨fun _ hgives => hgives, trivial⟩)
      simp [Trace.endings, Incident.endings, Around.report]

/-- Checking a connect is a step. -/
theorem follows_pollConnect {socket : Socket} {deadline : Nat}
    (hphase : link.phase = .connecting socket deadline) :
    Follows now timeouts Incident.Routine link around
      (link.pollConnect around now socket deadline) := by
  unfold pollConnect
  split
  · rename_i error net herror
    exact follows_fail (.refused hphase herror) (by simp [Trace.endings, Incident.endings])
      (routine_reported _)
  · rename_i net herror
    dsimp only
    split
    · rename_i hpeer
      refine .step (.established hphase herror hpeer) rfl ?_ ?_
        (Trace.routine_singleton ⟨fun _ hgives => hgives, trivial⟩)
      · simp only [reportConnected]
        split <;> rfl
      · simp only [reportConnected]
        split <;> simp [Trace.endings, Incident.endings, Around.report]
    · rename_i hpeer
      split
      · rename_i hlate
        exact follows_fail (.late hphase herror hpeer hlate) (by simp [Trace.endings])
          Trace.routine_nil
      · rename_i hearly
        refine .step (.quiet (.pending hphase herror hpeer (by omega))) rfl rfl ?_ Trace.routine_nil
        simp [Trace.endings]
    · rename_i error hpeer
      exact follows_fail (.peerless hphase herror hpeer)
        (by simp [Trace.endings, Incident.endings]) (routine_reported _)

/-! ## Writing -/

theorem endings_map_sent (line : Line) (slots : List Slot) :
    Trace.endings (slots.map fun slot => .sent line slot.seq) = [] := by
  rw [Trace.endings, List.flatMap_eq_nil_iff]
  intro incident hmem
  obtain ⟨slot, -, rfl⟩ := List.mem_map.mp hmem
  rfl

theorem drops_map_sent (line : Line) (slots : List Slot) :
    Trace.drops (slots.map fun slot => .sent line slot.seq) = [] := by
  rw [Trace.drops, List.flatMap_eq_nil_iff]
  intro incident hmem
  obtain ⟨slot, -, rfl⟩ := List.mem_map.mp hmem
  rfl

theorem given_map_sent (line other : Line) (slots : List Slot) :
    Trace.given (slots.map fun slot => .sent line slot.seq) other = [] := by
  rw [Trace.given, List.flatMap_eq_nil_iff]
  intro incident hmem
  obtain ⟨slot, -, rfl⟩ := List.mem_map.mp hmem
  rfl

/-- Frames that end give up nothing. -/
theorem routine_map_sent (line : Line) (slots : List Slot) :
    Trace.Routine (slots.map fun slot => .sent line slot.seq) := by
  intro incident hmem
  obtain ⟨slot, -, rfl⟩ := List.mem_map.mp hmem
  exact ⟨fun _ hgives => hgives, trivial⟩

/-- An offer is one write after some interruptions, which are steps. -/
theorem steps_offer (socket : Socket) (link : Link) (net : ω)
    (hphase : link.phase = .connected socket) :
    ∃ before, Steps now timeouts link net [] link before ∧
      Network.write before socket link.outbound = offer socket link.outbound net ∧
      (offer socket link.outbound net).1 ≠ .interrupted := by
  fun_induction offer socket link.outbound net with
  | case1 net after hwrite ih =>
      obtain ⟨before, hsteps, hlast, hother⟩ := ih
      exact ⟨before, (Steps.single (.quiet (.interrupted hphase hwrite))).append hsteps, hlast,
        hother⟩
  | case2 net outcome after hother hwrite =>
      exact ⟨net, .refl, hwrite, hother⟩

/-- Offering octets until a socket blocks is a sequence of steps; a failure is due to the
network before its last answer. -/
theorem steps_writePending (socket : Socket) (link : Link) (net : ω)
    (hphase : link.phase = .connected socket) :
    ∃ incidents before, Steps now timeouts link net incidents
        (link.writePending socket net).1 before ∧
      incidents.endings = [] ∧ (∀ line, incidents.given line = []) ∧ incidents.Routine ∧
      ((link.writePending socket net).2.2 = none → before = (link.writePending socket net).2.1) ∧
      ∀ error, (link.writePending socket net).2.2 = some error →
        Loses now timeouts (link.writePending socket net).1 before
          [.reported (link.writePending socket net).1.line] (link.writePending socket net).1
          (.io error) (link.writePending socket net).2.1 := by
  fun_induction writePending socket link net with
  | case1 link net hempty =>
      exact ⟨[], net, .refl, rfl, fun _ => rfl, Trace.routine_nil, fun _ => rfl,
        fun error herror => nomatch herror⟩
  | case2 link net hempty after hoffer =>
      obtain ⟨before, hsteps, hwrite, -⟩ := steps_offer socket link net hphase
      rw [hoffer] at hwrite
      refine ⟨[], before, hsteps, rfl, fun _ => rfl, Trace.routine_nil,
        fun herror => (nomatch herror), ?_⟩
      rintro error ⟨⟩
      exact .stuck hphase hwrite
  | case3 link net hempty count after hoffer hcount ih =>
      obtain ⟨waited, hwaits, hwrite, -⟩ := steps_offer socket link net hphase
      rw [hoffer] at hwrite
      obtain ⟨incidents, before, hsteps, hendings, hgiven, hroutine, hdone, hfailed⟩ := ih hphase
      refine ⟨_, before, (hwaits.append (.single (.took hphase hwrite hcount))).append hsteps, ?_,
        fun line => ?_,
        .append (.cons (routine_map_sent _ _) ⟨fun _ hgives => hgives, trivial⟩) hroutine,
        hdone, hfailed⟩
      · rw [Trace.endings_append, hendings, List.append_nil, List.nil_append, Trace.endings_cons,
          endings_map_sent]
        rfl
      · rw [Trace.given_append, hgiven, List.append_nil, List.nil_append, Trace.given_cons,
          given_map_sent]
        rfl
  | case4 link net hempty after hoffer =>
      obtain ⟨-, -, -, hother⟩ := @steps_offer ω _ now timeouts socket link net hphase
      exact absurd (congrArg Prod.fst hoffer) hother
  | case5 link net hempty after hoffer =>
      obtain ⟨before, hsteps, hwrite, -⟩ := steps_offer socket link net hphase
      rw [hoffer] at hwrite
      exact ⟨[], after, hsteps.append (.single (.quiet (.blocked hphase hwrite))), rfl,
        fun _ => rfl, Trace.routine_nil, fun _ => rfl, fun error herror => nomatch herror⟩
  | case6 link net hempty error after hoffer =>
      obtain ⟨before, hsteps, hwrite, -⟩ := steps_offer socket link net hphase
      rw [hoffer] at hwrite
      refine ⟨[], before, hsteps, rfl, fun _ => rfl, Trace.routine_nil,
        fun herror => (nomatch herror), ?_⟩
      rintro _ ⟨⟩
      exact .unwritable hphase hwrite

/-- Writing what is queued is a sequence of steps. -/
theorem follows_writeQueued :
    Follows now timeouts Incident.Routine link around (link.writeQueued around now) := by
  unfold writeQueued
  split
  · rename_i socket hphase
    obtain ⟨incidents, before, hsteps, hendings, -, hroutine, hdone, hfailed⟩ :=
      @steps_writePending ω _ now timeouts socket link around.net hphase
    have hwritten : Follows now timeouts Incident.Routine link around
        ((link.writePending socket around.net).1, { around with net := before }) := by
      refine ⟨incidents, hsteps, ?_, hroutine⟩
      rw [hendings]
      exact (List.append_nil _).symm
    split
    · rename_i after net hpending
      rw [hpending] at hwritten hdone
      rw [hdone rfl] at hwritten
      exact hwritten
    · rename_i after net error hpending
      rw [hpending] at hwritten hfailed
      exact hwritten.trans
        (follows_fail (hfailed error rfl) (by simp [Trace.endings, Incident.endings])
          (routine_reported _))
  · exact .refl rfl rfl rfl

/-! ## Reading -/

/-- A command that a reply ends is not given up. -/
theorem result_ne_timeout {next : Link} {response : Response} {finished : List Finished}
    (hmatch : link.matchReply response = .ok (next, finished)) :
    ∀ first ∈ finished, first.result ≠ .error .timeout := by
  intro first hmem
  unfold matchReply at hmatch
  split at hmatch
  · cases hmatch
  split at hmatch
  · cases hmatch
  split at hmatch
  · cases hmatch
  split at hmatch
  · cases hmatch
    cases hmem
  · rename_i result haccept
    cases hmatch
    split at hmem
    · rw [List.mem_singleton.mp hmem]
      exact Slot.accept_ne_timeout haccept
    · cases hmem

/-- The replies that were given to commands, as entries of the trace: those matched
first, and then the first that does not fit. -/
theorem answers_matchReplies (link : Link) (responses : List Response) :
    ∃ fitting others incidents, responses = fitting ++ others ∧
      Answers link fitting incidents (link.matchReplies responses).1 ∧
      incidents.endings = (link.matchReplies responses).2.1 ∧ incidents.Routine ∧
      ((link.matchReplies responses).2.2 = none → others = []) ∧
      ∀ error, (link.matchReplies responses).2.2 = some error →
        ∃ response rest, others = response :: rest ∧
          (link.matchReplies responses).1.matchReply response = .error error := by
  induction responses generalizing link with
  | nil =>
      exact ⟨[], [], [], rfl, .nil link, rfl, Trace.routine_nil, fun _ => rfl,
        fun error herror => nomatch herror⟩
  | cons response responses ih =>
      unfold matchReplies
      split
      · rename_i error hmatch
        refine ⟨[], response :: responses, [], rfl, .nil link, rfl, Trace.routine_nil,
          fun herror => (nomatch herror), ?_⟩
        rintro _ ⟨⟩
        exact ⟨response, responses, rfl, hmatch⟩
      · rename_i next finished hmatch
        obtain ⟨slot, queue, hqueue⟩ : ∃ slot queue, link.awaiting = slot :: queue := by
          cases hawaiting : link.awaiting with
          | nil => simp [matchReply, hawaiting] at hmatch
          | cons slot queue => exact ⟨slot, queue, rfl⟩
        obtain ⟨fitting, others, incidents, hsplit, hanswers, hendings, hroutine, hdone, hfailed⟩ :=
          ih next
        have hended := Trace.routine_map_ended (result_ne_timeout hmatch)
        refine ⟨response :: fitting, others, _, ?_, .cons hqueue hmatch hanswers, ?_,
          .append (hended.cons ⟨fun _ hgives => hgives, trivial⟩) hroutine, hdone, hfailed⟩
        · rw [hsplit, List.cons_append]
        · rw [Trace.endings_append, hendings, Trace.endings_cons, Trace.endings_map_ended]
          rfl

@[simp] theorem endings_report (line : Line) (ending : ReadEnd) :
    (ending.report line).endings = [] := by
  cases ending <;> rfl

@[simp] theorem drops_report (line : Line) (ending : ReadEnd) :
    (ending.report line).drops = [] := by
  cases ending <;> rfl

theorem routine_report (line : Line) (ending : ReadEnd) : (ending.report line).Routine := by
  cases ending with
  | drained => exact Trace.routine_nil
  | closed => exact routine_reported line
  | failed error => exact routine_reported line

/-- Looking at the replies in what was received: what a whole batch of fitting replies
leaves, and why a link is torn down otherwise. -/
theorem answers_decodeInbound (link : Link) :
    ∃ fitting others incidents answered,
      (Response.kind.split link.inbound).frames.map (·.1) = fitting ++ others ∧
      Answers link fitting incidents answered ∧
      incidents.endings = link.decodeInbound.2.1 ∧ incidents.Routine ∧
      (link.decodeInbound.2.2 = none → others = [] ∧
        (Response.kind.split link.inbound).fault = none ∧
        link.decodeInbound.1
          = { answered with inbound := (Response.kind.split link.inbound).rest }) ∧
      (∀ error ending, link.decodeInbound.2.2 = some error →
        Refuses answered others (Response.kind.split link.inbound).fault ending
          (.protocol error)) ∧
      ∀ around : Around ω, ∀ failure,
        (link.decodeInbound.1.fail around now failure) = answered.fail around now failure := by
  obtain ⟨fitting, others, incidents, hsplit, hanswers, hendings, hroutine, hdone, hfailed⟩ :=
    answers_matchReplies link ((Response.kind.split link.inbound).frames.map (·.1))
  refine ⟨fitting, others, incidents, _, hsplit, hanswers, ?_, hroutine, ?_, ?_, ?_⟩
  · rw [hendings]
    unfold decodeInbound
    dsimp only
    split <;> simp_all
  · unfold decodeInbound
    dsimp only
    split
    · rintro ⟨⟩
    · rename_i hfault
      intro hnone
      exact ⟨hdone hfault, hnone, rfl⟩
  · intro error ending
    unfold decodeInbound
    dsimp only
    split
    · rename_i hfault
      rintro ⟨⟩
      obtain ⟨response, rest, rfl, hmatch⟩ := hfailed _ hfault
      exact .mismatch hmatch
    · rename_i hfault
      intro hsome
      rw [hdone hfault, show (Response.kind.split link.inbound).fault = some error from hsome]
      exact .malformed
  · intro around failure
    unfold decodeInbound
    dsimp only
    split <;> rfl

/-- What a read without an error does with the replies in what it gave. -/
theorem readAvailable_of_looked {socket : Socket} {octets : Bytes} {ending : ReadEnd} {net : ω}
    (hread : readAll socket around.net = (octets, ending, net))
    (hlooked : ∀ error, ending ≠ .failed error) :
    link.readAvailable around socket
      = ((link.receiving octets).decodeInbound.1,
        ({ around with net } : Around ω).finish (link.receiving octets).decodeInbound.2.1,
        match (link.receiving octets).decodeInbound.2.2 with
        | some error => some (.protocol error)
        | none => if ending = .closed then some .closed else none) := by
  unfold readAvailable
  rw [hread]
  cases ending with
  | failed error => exact absurd rfl (hlooked error)
  | drained => rfl
  | closed => rfl

/-- A read that failed looks at no replies. -/
theorem readAvailable_of_failed {socket : Socket} {octets : Bytes} {error : IoError} {net : ω}
    (hread : readAll socket around.net = (octets, .failed error, net)) :
    link.readAvailable around socket
      = (link.receiving octets, { around with net }, some (.io error)) := by
  unfold readAvailable
  rw [hread]
  rfl

/-- A read that tears no link down goes on until the socket would block, and all whole replies
are given to commands. -/
theorem readAvailable_drained {socket : Socket}
    (hdone : (link.readAvailable around socket).2.2 = none) :
    ∃ octets net incidents answered,
      readAll socket around.net = (octets, .drained, net) ∧
      (Response.kind.split (link.receiving octets).inbound).fault = none ∧
      Answers (link.receiving octets)
        ((Response.kind.split (link.receiving octets).inbound).frames.map (·.1)) incidents
        answered ∧
      incidents.Routine ∧
      link.readAvailable around socket
        = ({ answered with inbound := (Response.kind.split (link.receiving octets).inbound).rest },
          ({ around with net } : Around ω).finish incidents.endings, none) := by
  rcases hread : readAll socket around.net with ⟨octets, ending, net⟩
  by_cases hlooked : ∃ error, ending = .failed error
  · obtain ⟨error, rfl⟩ := hlooked
    rw [readAvailable_of_failed hread] at hdone
    cases hdone
  have hlooked : ∀ error, ending ≠ .failed error := fun error hending => hlooked ⟨error, hending⟩
  obtain ⟨fitting, others, incidents, answered, hframes, hanswers, hendings, hroutine, hall,
    -, -⟩ := @answers_decodeInbound ω _ 0 (link.receiving octets)
  have hresult := @readAvailable_of_looked _ _ link _ _ _ _ _ hread hlooked
  rw [hresult] at hdone
  cases hfault : (link.receiving octets).decodeInbound.2.2 with
  | some error =>
      rw [hfault] at hdone
      cases hdone
  | none =>
      obtain ⟨rfl, hnone, hlink⟩ := hall hfault
      rw [List.append_nil] at hframes
      rw [hfault] at hdone hresult
      cases ending with
      | failed error => exact absurd rfl (hlooked error)
      | closed => cases hdone
      | drained =>
          refine ⟨octets, net, incidents, answered, rfl, hnone, hframes ▸ hanswers, hroutine, ?_⟩
          rw [hresult, hlink, hendings]
          rfl

/-- Reading is a step, which tears the link down if the socket or a reply is refused. -/
theorem follows_readAvailable {socket : Socket} (hphase : link.phase = .connected socket) :
    ((link.readAvailable around socket).2.2 = none →
      Follows now timeouts Incident.Routine link around
        ((link.readAvailable around socket).1, (link.readAvailable around socket).2.1)) ∧
    ∀ failure, (link.readAvailable around socket).2.2 = some failure →
      Follows now timeouts Incident.Routine link around
        ((link.readAvailable around socket).1.fail (link.readAvailable around socket).2.1 now
          failure) := by
  constructor
  · intro hdone
    obtain ⟨octets, net, incidents, answered, hread, hfault, hanswers, hroutine, hresult⟩ :=
      readAvailable_drained hdone
    rw [hresult]
    refine .step (.received hphase hread hfault hanswers) rfl rfl ?_
      (hroutine.cons ⟨fun _ hgives => hgives, trivial⟩)
    rw [Trace.endings_cons]
    rfl
  intro failure hfailure
  rcases hread : readAll socket around.net with ⟨octets, ending, net⟩
  by_cases hlooked : ∃ error, ending = .failed error
  · obtain ⟨error, rfl⟩ := hlooked
    rw [readAvailable_of_failed hread] at hfailure ⊢
    cases hfailure
    have hlost : Follows now timeouts Incident.Routine link around
        (link.fail { around with net } now (.io error)) :=
      follows_fail (.unreadable hphase hread) (by simp [Trace.endings, Incident.endings])
        ((routine_reported _).cons ⟨fun _ hgives => hgives, trivial⟩)
    exact hlost
  have hlooked : ∀ error, ending ≠ .failed error := fun error hending => hlooked ⟨error, hending⟩
  obtain ⟨fitting, others, incidents, answered, hframes, hanswers, hendings, hroutine, hdone,
    hfailed, hfail⟩ := @answers_decodeInbound ω _ now (link.receiving octets)
  rw [readAvailable_of_looked hread hlooked] at hfailure ⊢
  dsimp only at hfailure ⊢
  have hfinished : (around.finish (link.receiving octets).decodeInbound.2.1).finished
      = around.finished
        ++ Trace.endings (.gave link.line octets :: ending.report link.line ++ incidents) := by
    rw [Trace.endings_append, Trace.endings_cons, endings_report, hendings]
    rfl
  have hcalm : Trace.Routine (.gave link.line octets :: ending.report link.line ++ incidents) :=
    .append (.cons (routine_report _ _) ⟨fun _ hgives => hgives, trivial⟩) hroutine
  -- a refused reply, or the end of the stream, costs the link as the replies before left it
  have hwhy : Refuses answered others
      (Response.kind.split (link.receiving octets).inbound).fault ending failure := by
    cases hfault : (link.receiving octets).decodeInbound.2.2 with
    | some error =>
        rw [hfault] at hfailure
        cases hfailure
        exact hfailed error ending hfault
    | none =>
        obtain ⟨rfl, hnone, -⟩ := hdone hfault
        rw [hfault] at hfailure
        cases ending with
        | failed error => exact absurd rfl (hlooked error)
        | drained => cases hfailure
        | closed =>
            cases hfailure
            rw [hnone]
            exact .ended
  rw [hfail]
  exact follows_fail (.refusing hphase hread hlooked hframes hanswers hwhy) hfinished hcalm

/-! ## Driving a link -/

/-- Moving a link forward is a sequence of steps. -/
theorem follows_makeProgress :
    Follows now timeouts Incident.Routine link around (link.makeProgress around now timeouts) := by
  have hidle (hphase : link.phase.socket? = none) :
      Follows now timeouts Incident.Routine link around
        (if link.unsent = [] then (link, around)
          else if link.isRetryEligible now timeouts then link.startConnect around now timeouts
          else link.shortCircuit around) := by
    split
    · exact .refl rfl rfl rfl
    · rename_i hwork
      split
      · rename_i heligible
        exact follows_startConnect hphase hwork heligible
      · rename_i hexcluded
        have hdead : link.deadError ≠ .timeout := by
          intro hsame
          cases hsame
        refine .step (.shortCircuited hphase hwork (by simpa using hexcluded)) rfl rfl ?_
          (routine_finishLive hdead link _)
        rw [Trace.endings_map_ended]
        rfl
  unfold makeProgress
  split
  · rename_i hphase
    exact hidle (by rw [hphase]; rfl)
  · rename_i hphase
    exact hidle (by rw [hphase]; rfl)
  · rename_i socket deadline hphase
    exact (follows_pollConnect hphase).trans follows_writeQueued
  · exact follows_writeQueued

/-- Handling an event is a sequence of steps. -/
theorem follows_onReady (event : Event) :
    Follows now timeouts Incident.Routine link around (link.onReady around now event) := by
  unfold onReady
  split
  · exact .refl rfl rfl rfl
  · exact .refl rfl rfl rfl
  · rename_i socket deadline hphase
    exact (follows_pollConnect hphase).trans follows_writeQueued
  · rename_i socket hphase
    have hwrite (result : Link × Around ω)
        (hread : Follows now timeouts Incident.Routine link around result) :
        Follows now timeouts Incident.Routine link around
          (if event.writable then result.1.writeQueued result.2 now
            else (result.1, result.2)) := by
      split
      · exact hread.trans follows_writeQueued
      · exact hread
    cases hreadable : event.readable with
    | false => exact hwrite (link, around) (.refl rfl rfl rfl)
    | true =>
        obtain ⟨hdone, hfailed⟩ :=
          @follows_readAvailable ω _ now timeouts link around socket hphase
        dsimp only
        rw [if_pos rfl]
        cases hfailure : (link.readAvailable around socket).2.2 with
        | none => exact hwrite _ (hdone hfailure)
        | some failure => exact hfailed failure hfailure

/-! ## Giving up -/

/-- A sweep gives up on live slots that satisfy its condition. -/
theorem mem_dropped_sweep {condition : Slot → Bool} {written : Nat} {slots : List Slot}
    {octets : Bytes} {slot : Slot} (hslot : slot ∈ (sweep condition written slots octets).dropped) :
    slot ∈ slots ∧ slot.isLive = true ∧ condition slot = true := by
  induction slots generalizing written octets with
  | nil => cases hslot
  | cons first slots ih =>
      unfold sweep at hslot
      dsimp only at hslot
      split at hslot
      · obtain ⟨hmem, hrest⟩ := ih hslot
        exact ⟨List.mem_cons_of_mem first hmem, hrest⟩
      · rename_i hgiven
        rw [Bool.or_eq_true, not_or] at hgiven
        have hfirst : first.isLive = true ∧ condition first = true := by simpa using hgiven
        split at hslot
        all_goals
          rcases List.mem_cons.mp hslot with rfl | hmem
          · exact ⟨List.mem_cons_self, hfirst⟩
          · obtain ⟨hmem, hrest⟩ := ih hmem
            exact ⟨List.mem_cons_of_mem first hmem, hrest⟩

/-- Only live slots that satisfy the condition are given up on. -/
theorem mem_abandon {condition : Slot → Bool} {slot : Slot}
    (hslot : slot ∈ (link.abandon condition).2) :
    slot ∈ link.unsent ++ link.awaiting ∧ slot.isLive = true ∧ condition slot = true := by
  rw [abandon, List.mem_append] at hslot
  rcases hslot with hslot | hslot
  · obtain ⟨hmem, hrest⟩ := mem_dropped_sweep hslot
    exact ⟨List.mem_append_left _ hmem, hrest⟩
  · rw [List.mem_filter, Bool.and_eq_true] at hslot
    exact ⟨List.mem_append_right _ hslot.1, hslot.2⟩

@[simp] theorem drops_map_dropped (slots : List Slot) :
    Trace.drops (slots.map Incident.dropped) = slots := by
  induction slots with
  | nil => rfl
  | cons first slots ih =>
      rw [List.map_cons, Trace.drops_cons, ih]
      rfl

@[simp] theorem endings_map_dropped (slots : List Slot) :
    Trace.endings (slots.map Incident.dropped) = [] := by
  rw [Trace.endings, List.flatMap_eq_nil_iff]
  intro incident hmem
  obtain ⟨first, -, rfl⟩ := List.mem_map.mp hmem
  rfl

/-- Giving up on the slots of a target is a step. -/
theorem follows_expireLink (target : Target) :
    Follows now timeouts (fun incident => MayDrop target incident ∧ incident.Stays) link around
      (Client.expireLink target link around) := by
  have hendings : (Client.expireLink target link around).2.finished
      = around.finished ++ Trace.endings ((link.abandon target.covers).1.expiry target
        (link.abandon target.covers).2) := by
    unfold Client.expireLink
    dsimp only
    split
    · rename_i hnone
      rw [hnone]
      cases target <;> exact (List.append_nil _).symm
    · cases target with
      | command seq =>
          dsimp only [expiry]
          rw [endings_map_dropped, List.append_nil]
          rfl
      | allBuffered =>
          dsimp only [expiry]
          rw [Trace.endings_map_ended]
          rfl
  refine .step (.expired target) ?_ ?_ hendings ?_
  · unfold Client.expireLink
    dsimp only
    split
    · rfl
    · cases target <;> rfl
  · unfold Client.expireLink
    dsimp only
    split
    · rfl
    · cases target <;> rfl
  · -- a direct command is given up silently, buffered ones end with a timeout
    intro incident hmem
    cases target with
    | command seq =>
        obtain ⟨slot, hslot, rfl⟩ := List.mem_map.mp hmem
        have hcovers := (mem_abandon hslot).2.2
        refine ⟨⟨?_, hcovers⟩, trivial⟩
        intro other hsame
        cases hsame
        rw [Target.covers, decide_eq_true_iff] at hcovers
        rw [hcovers]
    | allBuffered =>
        obtain ⟨finished, hfinished, rfl⟩ := List.mem_map.mp hmem
        obtain ⟨slot, hslot, rfl⟩ := List.mem_map.mp hfinished
        refine ⟨⟨?_, fun _ => (mem_abandon (List.mem_filter.mp hslot).1).2.2⟩, trivial⟩
        intro other hsame
        cases hsame

/-- Looking for a link that carries too much is a step. -/
theorem follows_shedUnresponsive :
    Follows now timeouts Incident.Routine link around (link.shedUnresponsive around now) := by
  unfold shedUnresponsive
  split
  · rename_i hmany
    have hexamined : Trace.Routine [.examined link.line link.abandonedCount] :=
      Trace.routine_singleton ⟨fun _ hgives => hgives, trivial⟩
    exact follows_fail (.unresponsive hmany) (by simp [Trace.endings, Incident.endings]) hexamined
  · rename_i hfew
    refine .step (.examined (by omega)) rfl rfl ?_
      (Trace.routine_singleton ⟨fun _ hgives => hgives, trivial⟩)
    simp [Trace.endings, Incident.endings]

/-- A link that leaves the pool is torn down in a step. -/
theorem follows_retire : Follows now timeouts Incident.Keeps link around (link.retire around) := by
  refine .step .retired rfl rfl ?_ (keeps_loss link _)
  rw [endings_loss]
  rfl

end Link

end CachePool
