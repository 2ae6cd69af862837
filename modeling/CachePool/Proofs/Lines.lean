/-
# The last word on a line

What was said on a line stays as the link left it that had it last, also when its socket
is closed.  Replies that were read and given to nobody are those behind a reply that did
not fit, and a link is torn down for a protocol error only when there are such replies
or the octets are no frames.

* `Link.Last` : a link as it was when octets passed its line last;
* `Link.Step.last` : a step leaves a line alone or has the last word on it;
* `Client.Reaches.last` : every line that is not silent has a last word;
* `Client.Reaches.justified` : no link is torn down for a protocol error without a reason.
-/
import CachePool.Proofs.Hearing

namespace CachePool

/-- A link as it was when octets passed its line last, with the replies that were read
behind one that it refused. -/
structure Link.Last (trace : Trace) (line : Line) (link : Link) (done waiting queued : List Ticket)
    (others : List Response) : Prop where
  onLine : link.line = line
  opened : link.phase.socket? ≠ none
  talks : link.Talks trace done waiting queued
  heard : (trace.answers line).map (·.2) ++ others = trace.replies line
  refused : ∀ response rest, others = response :: rest →
    ∃ error, link.matchReply response = .error error

/-- Nothing is torn down for a protocol error but a line that gave octets which are no frames,
or replies of which one did not fit. -/
def Incident.Justified (before : Trace) : Incident → Prop
  | lost line (.protocol _) =>
    (Response.kind.split (before.given line)).fault ≠ none ∨
      ∃ link done waiting queued response rest,
        Link.Last before line link done waiting queued (response :: rest)
  | _ => True

/-- Where no line is torn down for a protocol error nothing needs a reason. -/
theorem Trace.each_justified {before trace : Trace}
    (hnone : ∀ line error, Incident.lost line (.protocol error) ∉ trace) :
    Trace.Each Incident.Justified before trace := by
  apply Trace.each_of_forall
  intro incident hmem before
  cases incident with
  | lost line failure =>
      cases failure with
      | protocol error => exact absurd hmem (hnone line error)
      | _ => trivial
  | _ => trivial

namespace Link

variable {trace incidents : Trace} {link : Link} {done waiting queued : List Ticket}
  {others : List Response} {line : Line}

/-- What follows on other lines does not take the last word. -/
theorem Last.aside {more : Trace} (hsilent : more.Silent line)
    (hlast : link.Last trace line done waiting queued others) :
    link.Last (trace ++ more) line done waiting queued others := by
  obtain ⟨rfl, hopen, htalks, hheard, hrefused⟩ := hlast
  refine ⟨rfl, hopen, htalks.aside (Trace.taken_of_silent hsilent) (Trace.sent_of_silent hsilent)
    (Trace.answers_of_silent hsilent), ?_, hrefused⟩
  rw [Trace.answers_append, Trace.answers_of_silent hsilent, List.append_nil, Trace.replies,
    Trace.given_append, Trace.given_of_silent hsilent, List.append_nil]
  exact hheard

/-- Between two reads an open link has the last word on its line. -/
theorem Converses.last (hopen : link.phase.socket? ≠ none)
    (hconverses : link.Converses trace done waiting queued) :
    link.Last trace link.line done waiting queued [] where
  onLine := rfl
  opened := hopen
  talks := hconverses.toTalks
  heard := by
    rw [List.append_nil]
    exact (hconverses.heard hopen).1
  refused _ _ hnone := nomatch hnone

variable {ω : Type} [Network ω] {now : Nat} {timeouts : Timeouts} {after losing : Link}
  {net netAfter : ω} {responses : List Response}

/-- A link that is torn down after a read has the last word on its line, and a reason. -/
theorem Converses.refusing {socket : Socket} {octets : Bytes} {ending : ReadEnd}
    {fitting : List Response} {answered : Link} {failure : Failure}
    (hvalid : ∀ ticket ∈ trace.tickets, ticket.Valid)
    (htickets : (trace.tickets.map (·.slot.seq)).Nodup)
    (hphase : link.phase = .connected socket)
    (hconverses : link.Converses trace done waiting queued)
    (hframes : (Response.kind.split (link.receiving octets).inbound).frames.map (·.1)
      = fitting ++ others)
    (hanswers : Answers (link.receiving octets) fitting incidents answered)
    (hwhy : Refuses answered others (Response.kind.split (link.receiving octets).inbound).fault
      ending failure) :
    (∃ done' waiting', answered.Last (trace ++ (hearing link.line octets ending ++ incidents))
      link.line done' waiting' queued others) ∧
    Incident.Justified (trace ++ (hearing link.line octets ending ++ incidents))
      (.lost link.line failure) := by
  have hopen := socket_ne_none hphase
  obtain ⟨-, ⟨done', waiting', htalks⟩, hheard⟩ :=
    hconverses.answers hvalid htickets hopen hframes hanswers
  have hlast : answered.Last (trace ++ (hearing link.line octets ending ++ incidents)) link.line
      done' waiting' queued others := by
    refine ⟨?_, ?_, htalks, hheard, ?_⟩
    · rw [hanswers.eq]
      rfl
    · rw [hanswers.eq]
      exact hopen
    · rintro response rest rfl
      cases hwhy with
      | mismatch hmatch => exact ⟨_, hmatch⟩
  refine ⟨⟨done', waiting', hlast⟩, ?_⟩
  have hcut : (Response.kind.split ((trace ++ (hearing link.line octets ending ++ incidents)).given
      link.line)).fault = (Response.kind.split (link.receiving octets).inbound).fault := by
    rw [← List.append_assoc, Trace.given_append, hanswers.ungiven, List.append_nil,
      hconverses.hears ending hopen]
  generalize (Response.kind.split (link.receiving octets).inbound).fault = fault at hwhy hcut
  cases hwhy with
  | mismatch => exact .inr ⟨answered, done', waiting', queued, _, _, hlast⟩
  | malformed =>
      refine .inl ?_
      rw [hcut]
      intro hnone
      cases hnone
  | ended => trivial

/-- A loss leaves a line alone or has the last word on it. -/
theorem Loses.last {failure : Failure} (hvalid : ∀ ticket ∈ trace.tickets, ticket.Valid)
    (htickets : (trace.tickets.map (·.slot.seq)).Nodup)
    (hconverses : link.Converses trace done waiting queued)
    (hloses : Loses now timeouts link net incidents losing failure netAfter) :
    incidents.Silent link.line ∨ ∃ answered done' waiting' queued' others,
      Last (trace ++ incidents) link.line answered done' waiting' queued' others := by
  cases hloses with
  | refusing hphase hread hlooked hframes hanswers hwhy =>
      obtain ⟨⟨done', waiting', hlast⟩, -⟩ :=
        hconverses.refusing hvalid htickets hphase hframes hanswers hwhy
      exact .inr ⟨_, done', waiting', queued, _, hlast⟩
  | unreadable hphase hread =>
      -- octets that nobody looks at say nothing
      have hopen := socket_ne_none hphase
      refine .inr ⟨link, done, waiting, queued, [], rfl, hopen,
        hconverses.toTalks.aside rfl rfl rfl, ?_, fun _ _ hnone => nomatch hnone⟩
      rw [List.append_nil, Trace.replies, Trace.answers_append, Trace.given_append]
      exact (List.append_nil _).symm ▸ (List.append_nil _).symm ▸ (hconverses.heard hopen).1
  | unresponsive => exact .inl (Trace.silent_singleton rfl _)
  | unresolved => exact .inl (Trace.silent_nil _)
  | unopened => exact .inl (Trace.silent_nil _)
  | late => exact .inl (Trace.silent_nil _)
  | refused => exact .inl (Trace.silent_singleton rfl _)
  | peerless => exact .inl (Trace.silent_singleton rfl _)
  | unwritable => exact .inl (Trace.silent_singleton rfl _)
  | stuck => exact .inl (Trace.silent_singleton rfl _)

/-- A step leaves a line alone or has the last word on it. -/
theorem Step.last (hvalid : ∀ ticket ∈ trace.tickets, ticket.Valid)
    (htickets : (trace.tickets.map (·.slot.seq)).Nodup)
    (hconverses : link.Converses trace done waiting queued)
    (hstep : link.Step now timeouts net incidents after netAfter) (line : Line) :
    incidents.Silent line ∨ ∃ answered done' waiting' queued' others,
      Last (trace ++ incidents) line answered done' waiting' queued' others := by
  by_cases hline : line = link.line
  · subst hline
    -- only octets that pass on the socket can be the last word
    cases hstep with
    | @took _ count _ hphase hwrite hcount =>
        have hopen := socket_ne_none hphase
        obtain ⟨sent, kept, h⟩ := @Converses.wrote _ _ _ _ _ count hvalid htickets hopen hconverses
        exact .inr ⟨_, done, waiting ++ sent, kept, [],
          @Converses.last _ (link.wrote count) _ _ _ hopen h⟩
    | received hphase hread hfault hanswers =>
        have hopen := socket_ne_none hphase
        obtain ⟨-, done', waiting', queued', h⟩ :=
          hconverses.received hvalid htickets hopen hfault hanswers
        have hlast := h.last (by rw [hanswers.eq]; exact hopen)
        refine .inr ⟨_, done', waiting', queued', [], ?_, hlast.opened, ?_, ?_, hlast.refused⟩
        · rw [hanswers.eq]
          rfl
        · exact hlast.talks
        · have hheard := hlast.heard
          rw [hanswers.eq] at hheard
          exact hheard
    | @lost _ losing failure _ hloses =>
        have hloss := silent_loss losing failure link.line
        rcases hloses.last hvalid htickets hconverses with
          hsilent | ⟨answered, done', waiting', queued', others, hlast⟩
        · exact .inl (hsilent.append hloss)
        · refine .inr ⟨answered, done', waiting', queued', others, ?_⟩
          rw [← List.append_assoc]
          exact hlast.aside hloss
    | quiet => exact .inl (Trace.silent_nil _)
    | opened => exact .inl (Trace.silent_singleton rfl _)
    | established => exact .inl (Trace.silent_singleton rfl _)
    | shortCircuited => exact .inl (Trace.silent_map_ended _ _)
    | expired target => exact .inl (silent_expiry _ target _ _)
    | discarded => exact .inl (Trace.silent_map_dropped _ _)
    | examined => exact .inl (Trace.silent_singleton rfl _)
    | retired => exact .inl (silent_loss _ _ _)
  · exact .inl (Trace.silent_of_about hstep.about hline)

/-! ## Losses for a reason -/

/-- Giving replies to commands tears no link down. -/
theorem Answers.spares (hanswers : Answers link responses incidents after) (line : Line)
    (failure : Failure) : Incident.lost line failure ∉ incidents := by
  induction hanswers with
  | nil => exact List.not_mem_nil
  | cons _ _ _ ih => simpa using ih

/-- Nothing that comes before a loss is one. -/
theorem Loses.spares {failure : Failure}
    (hloses : Loses now timeouts link net incidents losing failure netAfter) (line : Line)
    (other : Failure) : Incident.lost line other ∉ incidents := by
  cases hloses with
  | @refusing _ _ ending _ _ _ _ _ _ _ _ _ _ hanswers _ =>
      have hreport : Incident.lost line other ∉ ending.report link.line := by
        cases ending <;> simp [ReadEnd.report]
      simpa using ⟨hreport, hanswers.spares line other⟩
  | _ => simp

/-- **A step tears a link down for a protocol error with a reason only.** -/
theorem Step.justified (hvalid : ∀ ticket ∈ trace.tickets, ticket.Valid)
    (htickets : (trace.tickets.map (·.slot.seq)).Nodup)
    (hconverses : link.Converses trace done waiting queued)
    (hstep : link.Step now timeouts net incidents after netAfter) :
    Trace.Each Incident.Justified trace incidents := by
  cases hstep with
  | @lost _ losing failure _ hloses =>
      refine (Trace.each_justified fun line error => hloses.spares line _).append ⟨?_, ?_⟩
      · cases hloses with
        | refusing hphase hread hlooked hframes hanswers hwhy =>
            obtain ⟨-, hjustified⟩ :=
              hconverses.refusing hvalid htickets hphase hframes hanswers hwhy
            rw [hanswers.eq]
            exact hjustified
        | _ => trivial
      · exact Trace.each_justified (by simp)
  | retired => exact ⟨trivial, Trace.each_justified (by simp)⟩
  | received _ _ _ hanswers =>
      exact ⟨trivial, Trace.each_justified fun line error => hanswers.spares line _⟩
  | expired target =>
      cases target with
      | command seq => exact Trace.each_justified (by simp [expiry])
      | allBuffered => exact Trace.each_justified (by simp [expiry])
  | _ => exact Trace.each_justified (by simp)

end Link

namespace Client

variable {ω : Type} [Network ω] {timeouts : Timeouts} {buffering : Bool} {net : ω}
  {trace : Trace} {client : Client ω}

/-- **Every line on which something passed has a last word.** -/
theorem Reaches.last (hreach : (blank timeouts buffering net).Reaches trace client)
    (line : Line) : trace.Silent line ∨ ∃ link done waiting queued others,
      Link.Last trace line link done waiting queued others := by
  induction hreach with
  | start => exact .inl (Trace.silent_nil line)
  | elapsed _ _ ih => exact ih
  | @step client after trace incidents hreach hstep ih =>
      -- what leaves the line alone leaves it the last word it had
      have haside (hsilent : incidents.Silent line) : (trace ++ incidents).Silent line ∨
          ∃ link done waiting queued others,
            Link.Last (trace ++ incidents) line link done waiting queued others := by
        rcases ih with hbefore | ⟨link, done, waiting, queued, others, hlast⟩
        · exact .inl (hbefore.append hsilent)
        · exact .inr ⟨link, done, waiting, queued, others, hlast.aside hsilent⟩
      cases hstep with
      | move hmove =>
          cases hmove with
          | @link now front back link _ _ _ hlinks hlink =>
              have hmem : link ∈ client.pool.links := List.mem_iff_append.mpr ⟨_, _, hlinks⟩
              obtain ⟨done, waiting, queued, hconverses⟩ :=
                hreach.links (Link.converses_invariant ω) link hmem
              rcases hlink.last hreach.ordered.valid hreach.ordered.nodup hconverses line with
                hsilent | hlast
              · exact haside hsilent
              · exact .inr hlast
          | waited => exact haside (Trace.silent_nil line)
          | noted => exact haside (Trace.silent_nil line)
      | queued => exact haside (Trace.silent_singleton rfl line)
      | collected => exact haside (Trace.silent_nil line)
      | emptied => exact haside (Trace.silent_nil line)
      | placed => exact haside (Trace.silent_nil line)
      | adjusted => exact haside (Trace.silent_nil line)

/-- **No link is torn down for a protocol error without a reason.** -/
theorem Reaches.justified (hreach : (blank timeouts buffering net).Reaches trace client) :
    Trace.Each Incident.Justified [] trace := by
  induction hreach with
  | start => trivial
  | elapsed _ _ ih => exact ih
  | @step client after trace incidents hreach hstep ih =>
      apply ih.append
      rw [List.nil_append]
      cases hstep with
      | move hmove =>
          cases hmove with
          | @link now front back link _ _ _ hlinks hlink =>
              have hmem : link ∈ client.pool.links := List.mem_iff_append.mpr ⟨_, _, hlinks⟩
              obtain ⟨done, waiting, queued, hconverses⟩ :=
                hreach.links (Link.converses_invariant ω) link hmem
              exact hlink.justified hreach.ordered.valid hreach.ordered.nodup hconverses
          | waited => trivial
          | noted => trivial
      | queued => exact ⟨trivial, trivial⟩
      | _ => trivial

end Client

end CachePool
