/-
# Protocol errors close their socket

A command ends with a protocol error in two ways.  A frame that is refused tears its link
down, and the first command in line ends with the reason; nothing passes on the line of that
link any more.  A reply that fits may still be no counter where one is expected; this error
is the result of that command alone, and the link goes on.

* `Link.Step.protocol` : the two ways;
* `Client.Shut` : a line on which nothing can pass any more;
* `Client.Shut.reaches` : it stays so;
* `Client.faults_close` : a command that ends with a refused frame has lost its link.
-/
import CachePool.Proofs.Replies
import CachePool.Proofs.Teardown
import CachePool.Proofs.Transmission

namespace CachePool

/-! ## How a command ends with a protocol error -/

/-- A reply gives a protocol error only where a counter is expected and its value has another
length. -/
theorem Slot.accept_protocol {slot : Slot} {response : Response} {error : WireError}
    (haccept : slot.accept response = .final (.error (.protocol error))) :
    slot.expect = .counter ∧ response.status.isSuccess = true ∧ response.value.length ≠ 8 ∧
      error = .badCounter response.value.length := by
  unfold accept at haccept
  split at haccept
  · generalize response.status = status at haccept
    cases status <;> cases haccept
  rename_i hsuccess
  split at haccept
  · cases haccept
  · cases haccept
  · cases haccept
  · rename_i hexpect
    unfold Response.counter at haccept
    split at haccept
    · cases haccept
    · rename_i other hcounter
      cases haccept
      split at hcounter
      · rename_i hlength
        cases hcounter
        exact ⟨hexpect, by simpa using hsuccess, hlength, rfl⟩
      · cases hcounter
  · split at haccept <;> cases haccept

/-- Of the commands that a loss ends only the first gets a protocol error, the refused one. -/
theorem Link.Costs.protocol {link : Link} {failure : Failure} {ended : List Finished}
    (hcosts : link.Costs failure ended) {finished : Finished} (hmem : finished ∈ ended)
    {error : WireError} (hresult : finished.result = .error (.protocol error)) :
    failure = .protocol error ∧ ended.head? = some finished := by
  cases ended with
  | nil => cases hmem
  | cons first others =>
      rcases List.mem_cons.mp hmem with rfl | hmem
      · refine ⟨?_, rfl⟩
        cases failure with
        | protocol other =>
            have hrefused := hcosts.refused other rfl finished rfl
            rw [hresult] at hrefused
            cases hrefused
            rfl
        | _ =>
            have hfirst := hcosts.first (fun _ hsame => nomatch hsame) finished rfl
            rw [hresult] at hfirst
            cases hfirst
      · have hother := hcosts.others finished hmem
        rw [hresult] at hother
        cases hother

namespace Link

variable {ω : Type} [Network ω] {now : Nat} {timeouts : Timeouts} {link after : Link}
  {net last : ω} {incidents : Trace}

/-- **How a command ends with a protocol error**: a reply gives it, or its link is torn down
for it. -/
theorem Step.protocol (hstep : link.Step now timeouts net incidents after last)
    {finished : Finished} {error : WireError} (hended : finished ∈ incidents.endings)
    (hresult : finished.result = .error (.protocol error)) :
    (∃ response, .answered link.line finished.slot.seq response ∈ incidents ∧
      finished.slot.accept response = .final finished.result) ∨
      error.IsFault ∧ ∃ line, .lost line (.protocol error) ∈ incidents := by
  -- commands that end with another error
  have hother {other : Link} {reason : ClientError} {slots : List Slot}
      (hmem : finished ∈ other.finishLive reason slots) : reason = .protocol error := by
    cases hresult.symm.trans (of_mem_finishLive hmem).2
    rfl
  cases hstep with
  | took =>
      rw [Trace.endings_cons, endings_map_sent] at hended
      cases hended
  | received _ _ _ hanswers =>
      rw [Trace.endings_cons] at hended
      obtain ⟨response, hmem, haccept⟩ := hanswers.replied finished hended
      exact .inl ⟨response, List.mem_cons_of_mem _ hmem, haccept⟩
  | @lost before losing failure _ hloses =>
      rw [Trace.endings_append, endings_loss] at hended
      rcases List.mem_append.mp hended with hended | hended
      · obtain ⟨response, hmem, haccept⟩ := hloses.replied finished hended
        rw [(hloses.about _ hmem).line? losing.line rfl] at hmem
        exact .inl ⟨response, List.mem_append_left _ hmem, haccept⟩
      · obtain ⟨rfl, -⟩ := (losing.costs_casualties failure).protocol hended hresult
        exact .inr ⟨hloses.noResult error rfl, losing.line,
          List.mem_append_right _ List.mem_cons_self⟩
  | retired =>
      rw [endings_loss] at hended
      cases ((link.costs_casualties .removed).protocol hended hresult).1
  | shortCircuited =>
      rw [Trace.endings_map_ended] at hended
      cases hother hended
  | expired target =>
      cases target with
      | command seq =>
          rw [expiry, endings_map_dropped] at hended
          cases hended
      | allBuffered =>
          rw [expiry, Trace.endings_map_ended] at hended
          cases hother hended
  | discarded =>
      rw [endings_map_dropped] at hended
      cases hended
  | _ => cases hended

/-! ## Lines on which nothing passes -/

/-- A link without a socket says nothing. -/
theorem Step.silent_of_closed (hidle : link.phase.socket? = none)
    (hstep : link.Step now timeouts net incidents after last) (line : Line) :
    incidents.Silent line := by
  cases hstep with
  | quiet => exact Trace.silent_nil line
  | opened => exact Trace.silent_singleton rfl line
  | established hphase => exact absurd hidle (socket_ne_none_of_connecting hphase)
  | took hphase => exact absurd hidle (socket_ne_none hphase)
  | received hphase => exact absurd hidle (socket_ne_none hphase)
  | @lost before losing failure _ hloses =>
      refine Trace.Silent.append ?_ (silent_loss losing failure line)
      cases hloses with
      | unresolved => exact Trace.silent_nil line
      | unopened => exact Trace.silent_nil line
      | unresponsive => exact Trace.silent_singleton rfl line
      | refused hphase => exact absurd hidle (socket_ne_none_of_connecting hphase)
      | peerless hphase => exact absurd hidle (socket_ne_none_of_connecting hphase)
      | late hphase => exact absurd hidle (socket_ne_none_of_connecting hphase)
      | unwritable hphase => exact absurd hidle (socket_ne_none hphase)
      | stuck hphase => exact absurd hidle (socket_ne_none hphase)
      | unreadable hphase => exact absurd hidle (socket_ne_none hphase)
      | refusing hphase => exact absurd hidle (socket_ne_none hphase)
  | shortCircuited => exact Trace.silent_map_ended _ line
  | expired target => exact silent_expiry _ target _ line
  | discarded => exact Trace.silent_map_dropped _ line
  | examined => exact Trace.silent_singleton rfl line
  | retired => exact silent_loss link .removed line

/-- A link is past a line: if it is on it, its socket is closed. -/
structure Past (line : Line) (link : Link) : Prop where
  tried : line.attempt ≤ link.attempts
  closed : link.line = line → link.phase.socket? = none

/-- A link that is past a line stays so, and says nothing on it. -/
theorem Step.past {line : Line} (hpast : link.Past line)
    (hstep : link.Step now timeouts net incidents after last) :
    incidents.Silent line ∧ after.Past line := by
  obtain ⟨-, -, hattempts⟩ := hstep.token
  refine ⟨?_, Nat.le_trans hpast.tried hattempts, fun hline => ?_⟩
  · by_cases hsame : line = link.line
    · exact hstep.silent_of_closed (hpast.closed hsame.symm) line
    · exact Trace.silent_of_about hstep.about hsame
  · by_contra hopen
    rcases hstep.openings with ⟨-, hnew⟩ | ⟨-, hkept⟩
    · -- a socket that is opened gets a line of its own
      have hattempt : link.attempts + 1 = line.attempt :=
        congrArg Line.attempt (hnew.symm.trans hline)
      have htried := hpast.tried
      omega
    · obtain ⟨hbefore, hsame⟩ := hkept hopen
      exact hbefore (hpast.closed (hsame.symm.trans hline))

end Link

/-! ## Clients -/

namespace Client

variable {ω : Type} [Network ω] {client after later : Client ω} {trace incidents more : Trace}
  {line : Line}

/-- A line on which nothing can pass any more. -/
structure Shut (line : Line) (client : Client ω) : Prop where
  known : line.token < client.pool.nextToken
  past : ∀ link ∈ client.pool.links, link.token = line.token → link.Past line

omit [Network ω] in
/-- When one link is replaced, the others are past a line as they were. -/
theorem past_replace {links front back : List Link} {old new : Link}
    (hlinks : links = front ++ old :: back)
    (hpast : ∀ link ∈ links, link.token = line.token → link.Past line)
    (hnew : new.token = line.token → new.Past line) :
    ∀ link ∈ front ++ new :: back, link.token = line.token → link.Past line := by
  subst hlinks
  intro link hlink
  rcases List.mem_append.mp hlink with hmem | hmem
  · exact hpast link (List.mem_append_left _ hmem)
  rcases List.mem_cons.mp hmem with rfl | hmem
  · exact hnew
  · exact hpast link (List.mem_append_right _ (List.mem_cons_of_mem _ hmem))

/-- A step of a client leaves a line shut, and nothing passes on it. -/
theorem Step.shut (hshut : client.Shut line) (hstep : client.Step incidents after) :
    incidents.Silent line ∧ after.Shut line := by
  obtain ⟨hknown, hpast⟩ := hshut
  cases hstep with
  | move hmove =>
      cases hmove with
      | @link now front back before last _ net hlinks hstep =>
          obtain ⟨htoken, -, -⟩ := hstep.token
          have hbefore : before.token = line.token → before.Past line :=
            hpast before (List.mem_iff_append.mpr ⟨_, _, hlinks⟩)
          refine ⟨?_, hknown, ?_⟩
          · by_cases hsame : before.token = line.token
            · exact (hstep.past (hbefore hsame)).1
            · refine Trace.silent_of_about hstep.about ?_
              rintro rfl
              exact hsame rfl
          · refine past_replace hlinks hpast fun hsame => ?_
            exact (hstep.past (hbefore (htoken.symm.trans hsame))).2
      | waited => exact ⟨Trace.silent_nil line, hknown, hpast⟩
      | noted => exact ⟨Trace.silent_nil line, hknown, hpast⟩
  | queued hqueue =>
      obtain ⟨front, old, back, hlinks, -, -, -, rfl⟩ := queue_cases hqueue
      refine ⟨Trace.silent_singleton rfl line, hknown, past_replace hlinks hpast fun hsame => ?_⟩
      obtain ⟨htried, hclosed⟩ := hpast old (List.mem_iff_append.mpr ⟨_, _, hlinks⟩) hsame
      exact ⟨htried, hclosed⟩
  | placed hsome hdistinct hvacant =>
      refine ⟨Trace.silent_nil line, Nat.lt_of_lt_of_le hknown (Pool.le_place _ _ _ _), ?_⟩
      intro link hlink htoken
      rcases Pool.mem_place hlink with ⟨old, hold, -, heq⟩ | ⟨fresh, hlow, -, heq⟩
      · rw [heq] at htoken ⊢
        obtain ⟨htried, hclosed⟩ := hpast old hold htoken
        exact ⟨htried, hclosed⟩
      · rw [heq] at htoken
        change fresh = line.token at htoken
        exact absurd hknown (Nat.not_lt_of_le (htoken ▸ hlow))
  | collected => exact ⟨Trace.silent_nil line, hknown, hpast⟩
  | emptied => exact ⟨Trace.silent_nil line, hknown, hpast⟩
  | adjusted => exact ⟨Trace.silent_nil line, hknown, hpast⟩

/-- **Nothing passes on a line that is shut**, whatever happens. -/
theorem Shut.reaches (hshut : client.Shut line) (hreach : client.Reaches more later) :
    more.Silent line ∧ later.Shut line := by
  induction hreach with
  | start => exact ⟨Trace.silent_nil line, hshut⟩
  | elapsed _ _ ih => exact ⟨ih.1, ih.2.known, ih.2.past⟩
  | step _ hstep ih =>
      obtain ⟨hsilent, hbetween⟩ := ih
      obtain ⟨hnow, hafter⟩ := hstep.shut hbetween
      exact ⟨hsilent.append hnow, hafter⟩

/-- A command of a client ends with a protocol error in the same two ways. -/
theorem Step.protocol (hstep : client.Step incidents after) {finished : Finished}
    {error : WireError} (hended : finished ∈ incidents.endings)
    (hresult : finished.result = .error (.protocol error)) :
    (∃ line response, .answered line finished.slot.seq response ∈ incidents ∧
      finished.slot.accept response = .final (.error (.protocol error))) ∨
      error.IsFault ∧ ∃ line, .lost line (.protocol error) ∈ incidents := by
  cases hstep with
  | move hmove =>
      cases hmove with
      | link _ hlink =>
          rw [← hresult]
          exact (hlink.protocol hended hresult).imp_left fun hreplied => ⟨_, hreplied⟩
      | waited => cases hended
      | noted => cases hended
  | _ => cases hended

/-- In a step that tears a link down for a refused frame the command with this error is the
first one that the loss ends. -/
theorem Tears.first {failure : Failure} {losing : Link} {matched : Trace} {ended : List Finished}
    (htears : client.Tears trace incidents after line failure losing matched ended)
    {finished : Finished} {error : WireError} (hended : finished ∈ incidents.endings)
    (hresult : finished.result = .error (.protocol error)) (hfault : error.IsFault) :
    ended.head? = some finished ∧ finished.slot ∈ losing.awaiting ++ losing.unsent := by
  rw [htears.endings] at hended
  rcases List.mem_append.mp hended with hmem | hmem
  · obtain ⟨front, link, last, back, -, -, htorn⟩ := htears.links
    obtain ⟨response, -, haccept⟩ := htorn.replied finished hmem
    rw [hresult] at haccept
    exact absurd (Slot.accept_protocol haccept).2.2.2 (hfault _)
  · refine ⟨(htears.costs.protocol hmem hresult).2, ?_⟩
    have hslot : finished.slot ∈ ended.map (·.slot) := List.mem_map_of_mem hmem
    rw [htears.costs.slots] at hslot
    exact (List.mem_filter.mp hslot).1

/-- The line of a link that is torn down is shut. -/
theorem Tears.shut {failure : Failure} {losing : Link} {matched : Trace} {ended : List Finished}
    (hordered : after.Ordered more)
    (htears : client.Tears trace incidents after line failure losing matched ended) :
    after.Shut line := by
  obtain ⟨front, link, last, back, -, hlinks, htorn⟩ := htears.links
  have hline : last.line = line := htorn.line.trans htears.onLine
  have hlast : last ∈ after.pool.links := List.mem_iff_append.mpr ⟨front, back, hlinks⟩
  have htoken : last.token = line.token := congrArg Line.token hline
  refine ⟨htoken ▸ hordered.known last hlast, fun other hother hsame => ?_⟩
  -- no two links have one token
  obtain rfl : other = last :=
    List.inj_on_of_nodup_map hordered.distinct hother hlast (hsame.trans htoken.symm)
  refine ⟨Nat.le_of_eq (congrArg Line.attempt hline.symm), fun _ => ?_⟩
  rw [htorn.phase]
  split <;> rfl

/-- **A command that ends with a protocol error has lost its link**, but for a reply that is no
counter.  When a frame is refused, or a reply that is none of the command's, the link that
carried the command is dead at that moment and its socket is closed; whatever happens later,
no octet passes on this socket.  The error that a counter's value has not eight octets is the
result of a reply which fits its command; it is given to a command that expects a counter. -/
theorem faults_close {net : ω} {config : Config} {start client : Client ω} {trace : Trace}
    (hconfig : withConfig net config = .ok start) (hreach : start.Reaches trace client) :
    (∀ incidents after finished error, client.Step incidents after →
      .ended finished ∈ incidents → finished.result = .error (.protocol error) →
      (error.IsFault → ∃ losing matched ended socket,
        client.Tears trace incidents after losing.line (.protocol error) losing matched ended ∧
        ended.head? = some finished ∧
        finished.slot ∈ losing.awaiting ++ losing.unsent ∧
        losing.phase = .connected socket ∧ (∃ net, after.net = Network.close net socket) ∧
        (∃ last ∈ after.pool.links, last.line = losing.line ∧ last.phase = .dead) ∧
        ∀ more later, after.Reaches more later → more.Silent losing.line ∧
          ∀ link ∈ later.pool.links, link.line = losing.line → link.phase.socket? = none) ∧
      (¬ error.IsFault → ∃ line, ∃ response : Response,
        .answered line finished.slot.seq response ∈ incidents ∧
        finished.slot.expect = .counter ∧ response.status.isSuccess = true ∧
        response.value.length ≠ 8 ∧ error = .badCounter response.value.length)) ∧
    ∀ call, ∃ incidents, client.Steps incidents (client.perform call).2 := by
  have hblank := reaches_withConfig hconfig hreach
  refine ⟨?_, ?_⟩
  · intro incidents after finished error hstep hmem hresult
    have hended : finished ∈ incidents.endings :=
      List.mem_flatMap.mpr ⟨_, hmem, List.mem_singleton_self _⟩
    refine ⟨fun hfault => ?_, fun hcounter => ?_⟩
    · obtain ⟨_, response, -, haccept⟩ | ⟨-, line, hlost⟩ := hstep.protocol hended hresult
      · exact absurd (Slot.accept_protocol haccept).2.2.2 (hfault _)
      obtain ⟨losing, matched, ended, htears⟩ := hstep.tears hblank hlost
      obtain ⟨hfirst, hslot⟩ := htears.first hended hresult hfault
      obtain ⟨front, link, last, back, -, hlinks, htorn⟩ := htears.links
      obtain ⟨socket, hphase⟩ := htorn.connected error rfl
      obtain ⟨net, hclosed⟩ := htears.closed
      obtain rfl := htears.onLine
      rw [Link.closeSocket, hphase] at hclosed
      refine ⟨losing, matched, ended, socket, htears, hfirst, hslot, hphase, ⟨net, hclosed⟩,
        ⟨last, ?_, htorn.line, htorn.phase⟩, fun more later hlater => ?_⟩
      · rw [hlinks]
        exact List.mem_append_right _ List.mem_cons_self
      · obtain ⟨hsilent, hshut⟩ := (htears.shut (hblank.step hstep).ordered).reaches hlater
        exact ⟨hsilent, fun other hother hline =>
          (hshut.past other hother (congrArg Line.token hline)).closed hline⟩
    · obtain ⟨line, response, hanswered, haccept⟩ | ⟨hfault, -⟩ := hstep.protocol hended hresult
      · exact ⟨line, response, hanswered, Slot.accept_protocol haccept⟩
      · exact absurd hfault hcounter
  · exact client.steps_perform

/-- Octets that are no frame cost the command that waits its link. -/
theorem faults_close_garbage : ∃ after losing matched ended,
    Tears (Script.writing ++ [.issued Script.second])
      (Script.mk 0 [.data Script.garbage] []).pair
      (.gave Script.wire Script.garbage :: (Script.pairLink 0).loss (.protocol (.badMagic 0)))
      after losing.line (.protocol (.badMagic 0)) losing matched ended ∧
    ended.head? = some { server := 0, slot := Script.ping.slot,
                         result := .error (.protocol (.badMagic 0)) } ∧
    ∃ last ∈ after.pool.links, last.line = losing.line ∧ last.phase = .dead := by
  have hstep := @Client.Step.only _ _ (Script.mk 0 [.data Script.garbage] []).pair _ _ _ _ _ rfl
    (Script.step_garbage 0 [])
  obtain ⟨hcloses, -⟩ := faults_close (Script.withConfig_opened _)
    (Script.mk 0 [.data Script.garbage] []).reaches_pair
  obtain ⟨hfault, -⟩ := hcloses _ _
    { server := 0, slot := Script.ping.slot, result := .error (.protocol (.badMagic 0)) }
    (.badMagic 0) hstep
    (List.mem_cons_of_mem _ (List.mem_cons_of_mem _ List.mem_cons_self)) rfl
  obtain ⟨losing, matched, ended, -, htears, hfirst, -, -, -, hdead, -⟩ :=
    hfault fun _ hsame => nomatch hsame
  exact ⟨_, losing, matched, ended, htears, hfirst, hdead⟩

end Client

/-! ## A counter of one octet -/

namespace Script

/-- A command that expects a counter. -/
def counting : Command :=
  .increment [110] { delta := 1, initial := 0, expiration := 0 }

/-- It is issued first. -/
def tally : Ticket where
  slot := (Ledger.empty false).slotFor counting.request counting.expect
  request := counting.request

/-- The link when its frame is taken. -/
def countingLink : Link :=
  { Link.make home 0 with
    phase := .connected 0
    lastAttempt := some 0
    attempts := 1
    awaiting := [tally.slot] }

/-- What happens until then. -/
def counted : Trace :=
  [.issued tally, .opened wire, .established wire, .took wire tally.request.frame, .sent wire 0]

/-- The frame of the command is wholly taken. -/
theorem reaches_counted (script : Script) :
    script.opened.Reaches counted (driving script countingLink script.opened.log) := by
  have hqueued : script.opened.Reaches [.issued tally]
      (driving script ((Link.make home 0).enqueue tally.request tally.slot) script.opened.log) :=
    .step .start (@Client.Step.queued _ _ _ 0 0 counting .direct _ rfl)
  have hopened := hqueued.only rfl (@Link.Step.opened _ _ 0 _ _ _
    { address := .v4 127 0 0 1, port := 11211 } 0 script rfl (List.cons_ne_nil _ _) rfl rfl)
  have hestablished := hopened.only rfl
    (@Link.Step.established _ _ 0 _ _ _ 0 _ script rfl rfl rfl)
  exact hestablished.only rfl
    (@Link.Step.took _ _ 0 _ _ _ 0 45 script rfl rfl (by decide))

/-- A reply to it whose value has one octet. -/
def short : Response :=
  { Response.make .increment .noError 0 with value := [0] }

/-- How the command ends. -/
def miscounted : Finished where
  server := 0
  slot := tally.slot
  result := .error (.protocol (.badCounter 1))

theorem split_short : Response.kind.split short.frame
    = { frames := [(short, 25)], rest := [], fault := none } := by
  have hdecode : Response.kind.decode short.frame = .ok (.frame short 25) := rfl
  rw [Response.kind.split_of_frame hdecode, Response.kind.split_of_incomplete rfl]
  rfl

/-- The reply is given to the command, which ends with an error, and the link stays as it is. -/
theorem step_short (waits : List PollOutcome) :
    countingLink.Step 0 Config.default.timeouts (Script.mk 0 [.data short.frame] waits)
      [.gave wire short.frame, .answered wire 0 short, .ended miscounted]
      { countingLink with awaiting := [] } (Script.mk 0 [] waits) := by
  have hsplit : Response.kind.split (countingLink.receiving short.frame).inbound
      = { frames := [(short, 25)], rest := [], fault := none } := split_short
  have hanswers : Link.Answers (countingLink.receiving short.frame) [short]
      [.answered wire 0 short, .ended miscounted]
      { countingLink.receiving short.frame with awaiting := [] } :=
    @Link.Answers.cons _ _ _ tally.slot [] short [] [miscounted] [] rfl rfl (.nil _)
  have hstep := @Link.Step.received _ _ 0 Config.default.timeouts countingLink
    (Script.mk 0 [.data short.frame] waits) 0 short.frame (Script.mk 0 [] waits)
    [.answered wire 0 short, .ended miscounted]
    { countingLink.receiving short.frame with awaiting := [] } rfl
    (readAll_eq short.frame 0 0 waits) (by rw [hsplit]) (by rw [hsplit]; exact hanswers)
  rw [hsplit] at hstep
  exact hstep

/-- The client then. -/
def miscounting : Client Script :=
  holding (Script.mk 0 [] [])
    ((entered false 1).absorb [miscounted])
    { countingLink with awaiting := [] } (Script.mk 0 [] []).opened.log

end Script

namespace Client

/-- A counter of one octet ends its command with a protocol error; the link stays connected, and
its socket takes the frame of the next command. -/
theorem counter_error_spares_link :
    ∃ client after later : Client Script, ∃ incidents more : Trace, ∃ finished length,
      (Script.mk 0 [.data Script.short.frame] []).opened.Reaches Script.counted client ∧
      client.Step incidents after ∧ .ended finished ∈ incidents ∧
      finished.result = .error (.protocol (.badCounter length)) ∧
      Script.counted.sent Script.wire = [finished.slot.seq] ∧
      after.pool.links.map (·.phase) = [.connected 0] ∧
      after.Reaches more later ∧ more.taken Script.wire = Script.second.request.frame := by
  have hstep : (Script.driving (Script.mk 0 [.data Script.short.frame] []) Script.countingLink
        (Script.mk 0 [] []).opened.log).Step
      [.gave Script.wire Script.short.frame, .answered Script.wire 0 Script.short,
        .ended Script.miscounted] Script.miscounting :=
    .only rfl (Script.step_short [])
  have hqueued := (@Client.Reaches.start _ _ Script.miscounting).step
    (@Client.Step.queued _ _ _ 0 1 (.noop 0) .direct _ rfl)
  have htook := hqueued.only rfl
    (@Link.Step.took _ _ 0 _ _ _ 0 24 (Script.mk 0 [] []) rfl rfl (by decide))
  exact ⟨_, _, _, _, _, Script.miscounted, 1,
    (Script.mk 0 [.data Script.short.frame] []).reaches_counted, hstep,
    List.mem_cons_of_mem _ (List.mem_cons_of_mem _ List.mem_cons_self), rfl, rfl, rfl, htook, rfl⟩

end Client

end CachePool
