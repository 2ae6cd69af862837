/-
# Links that stay connected

A connected link stays connected through all that a client does, unless something is
said on its line that tells why it was torn down.

* `Trace.Broke` : the reasons to tear a connected link down;
* `Link.Step.stands` : a step keeps a connected link, or it tells a reason;
* `Client.Step.follow` : what becomes of a link in a step of a client;
* `Client.Reaches.stands` : and so does every history.
-/
import CachePool.Proofs.Conservation

namespace CachePool

/-! ## Reasons -/

/-- A reason to tear a connected link down: its socket reported an error or the end of its
stream, too many abandoned slots were found, its server left the list, or a reply was
refused. -/
inductive Trace.Broke (trace : Trace) (line : Line) : Prop
  | reported (hmem : .reported line ∈ trace)
  | examined {count : Nat} (hmany : maxAbandoned < count) (hmem : .examined line count ∈ trace)
  | removed (hmem : .lost line .removed ∈ trace)
  | refused {error : WireError} (hmem : .lost line (.protocol error) ∈ trace)

/-- A reason that was told in a part of a trace was told. -/
theorem Trace.Broke.mono {trace more : Trace} {line : Line} (hsub : trace ⊆ more)
    (hbroke : trace.Broke line) : more.Broke line := by
  cases hbroke with
  | reported hmem => exact .reported (hsub hmem)
  | examined hmany hmem => exact .examined hmany (hsub hmem)
  | removed hmem => exact .removed (hsub hmem)
  | refused hmem => exact .refused (hsub hmem)

/-! ## Links -/

namespace Link

/-- A link on a line is connected. -/
structure StandsOn (line : Line) (link : Link) : Prop where
  onLine : link.line = line
  connected : ∃ socket, link.phase = .connected socket

variable {ω : Type} [Network ω] {now : Nat} {timeouts : Timeouts} {link after losing : Link}
  {net last : ω} {incidents : Trace} {line : Line} {failure : Failure}

/-- Whatever tears a connected link down tells why. -/
theorem Loses.broke (hstands : link.StandsOn line)
    (hloses : Loses now timeouts link net incidents losing failure last) :
    Trace.Broke (incidents ++ losing.loss failure) line := by
  obtain ⟨rfl, socket, hphase⟩ := hstands
  have hopen := socket_ne_none hphase
  cases hloses with
  | unresolved hidle => exact absurd hidle hopen
  | unopened hidle => exact absurd hidle hopen
  | refused hconnecting => rw [hphase] at hconnecting; cases hconnecting
  | peerless hconnecting => rw [hphase] at hconnecting; cases hconnecting
  | late hconnecting => rw [hphase] at hconnecting; cases hconnecting
  | unwritable => exact .reported List.mem_cons_self
  | stuck => exact .reported List.mem_cons_self
  | unreadable => exact .reported (List.mem_cons_of_mem _ List.mem_cons_self)
  | unresponsive hmany => exact .examined hmany List.mem_cons_self
  | @refusing _ octets ending _ _ _ _ _ _ _ _ _ _ hanswers hwhy =>
      have hline : losing.line = link.line := by
        rw [hanswers.eq]
        rfl
      have hlost : .lost link.line failure ∈ losing.loss failure := by
        rw [← hline]
        exact List.mem_cons_self
      generalize (Response.kind.split (link.receiving octets).inbound).fault = fault at hwhy
      cases hwhy with
      | mismatch => exact .refused (List.mem_append_right _ hlost)
      | malformed => exact .refused (List.mem_append_right _ hlost)
      | ended => exact .reported (by simp [ReadEnd.report])

/-- **A step of a connected link keeps it connected, or tells why not.** -/
theorem Step.stands (hstands : link.StandsOn line)
    (hstep : link.Step now timeouts net incidents after last) :
    after.StandsOn line ∨ incidents.Broke line := by
  obtain ⟨rfl, socket, hphase⟩ := hstands
  have hopen := socket_ne_none hphase
  cases hstep with
  | opened hidle => exact absurd hidle hopen
  | shortCircuited hidle => exact absurd hidle hopen
  | established => exact .inl ⟨rfl, _, rfl⟩
  | received _ _ _ hanswers =>
      refine .inl ⟨?_, socket, ?_⟩
      · rw [hanswers.eq]
        rfl
      · rw [hanswers.eq]
        exact hphase
  | lost hloses => exact .inr (hloses.broke ⟨rfl, socket, hphase⟩)
  | retired => exact .inr (.removed List.mem_cons_self)
  | _ => exact .inl ⟨rfl, socket, hphase⟩

end Link

/-! ## Clients -/

/-- A link to a server that stays listed is placed again. -/
theorem Pool.exists_place {existing : List Link} {link : Link} {index : Nat} {token : Token}
    {addresses : List ServerAddress} (hapart : (existing.map (·.server.address)).Nodup)
    (hmem : link ∈ existing) (hlisted : link.server.address ∈ addresses) :
    ∃ server, { link with server } ∈ (place existing index token addresses).1 := by
  obtain ⟨offset, hoffset⟩ := List.mem_iff_getElem?.mp hlisted
  exact ⟨_, List.mem_of_getElem? (Pool.getElem?_place_of_mem hapart hmem hoffset index token)⟩

namespace Client

variable {ω : Type}

/-- Some link is connected on a line. -/
def StandsOn (client : Client ω) (line : Line) : Prop :=
  ∃ link ∈ client.pool.links, link.StandsOn line

variable [Network ω] {client after : Client ω} {incidents trace : Trace} {line : Line}

/-- What becomes of a link in a step of a client: it keeps its line and its phase, the step is
its own, or it was vacant and its server leaves the list. -/
theorem Step.follow (hapart : client.Apart) (hstep : client.Step incidents after) {link : Link}
    (hmem : link ∈ client.pool.links) :
    (∃ last ∈ after.pool.links, last.line = link.line ∧ last.phase = link.phase) ∨
      (∃ now net, ∃ last ∈ after.pool.links,
        link.Step now client.timeouts client.net incidents last net) ∨
      link.Vacant := by
  cases hstep with
  | move hmove =>
      cases hmove with
      | @link now front back before last _ net hlinks hstep =>
          rw [hlinks] at hmem
          rcases List.mem_append.mp hmem with hfront | hback
          · exact .inl ⟨link, List.mem_append_left _ hfront, rfl, rfl⟩
          rcases List.mem_cons.mp hback with rfl | hback
          · exact .inr (.inl ⟨now, net, last, List.mem_append_right _ List.mem_cons_self, hstep⟩)
          · exact .inl ⟨link, List.mem_append_right _ (List.mem_cons_of_mem _ hback), rfl, rfl⟩
      | waited => exact .inl ⟨link, hmem, rfl, rfl⟩
      | noted => exact .inl ⟨link, hmem, rfl, rfl⟩
  | queued hqueue =>
      obtain ⟨front, old, back, hlinks, -, -, -, rfl⟩ := queue_cases hqueue
      rw [hlinks] at hmem
      rcases List.mem_append.mp hmem with hfront | hback
      · exact .inl ⟨link, List.mem_append_left _ hfront, rfl, rfl⟩
      rcases List.mem_cons.mp hback with rfl | hback
      · exact .inl ⟨_, List.mem_append_right _ List.mem_cons_self, rfl, rfl⟩
      · exact .inl ⟨link, List.mem_append_right _ (List.mem_cons_of_mem _ hback), rfl, rfl⟩
  | @placed addresses hsome hdistinct hvacant =>
      by_cases hlisted : link.server.address ∈ addresses
      · obtain ⟨server, hplaced⟩ := Pool.exists_place hapart hmem hlisted
        exact .inl ⟨_, hplaced, rfl, rfl⟩
      · exact .inr (.inr (hvacant link hmem hlisted))
  | collected => exact .inl ⟨link, hmem, rfl, rfl⟩
  | emptied => exact .inl ⟨link, hmem, rfl, rfl⟩
  | adjusted => exact .inl ⟨link, hmem, rfl, rfl⟩

/-- A step of a client keeps a connected link, or tells why not. -/
theorem Step.stands (hapart : client.Apart) (hstands : client.StandsOn line)
    (hstep : client.Step incidents after) : after.StandsOn line ∨ incidents.Broke line := by
  obtain ⟨link, hmem, hlink⟩ := hstands
  obtain ⟨socket, hphase⟩ := hlink.connected
  rcases hstep.follow hapart hmem with
    ⟨last, hlast, hline, hsame⟩ | ⟨_, _, last, hlast, hstep⟩ | hvacant
  · exact .inl ⟨last, hlast, hline.trans hlink.onLine, socket, hsame.trans hphase⟩
  · exact (hstep.stands hlink).imp_left fun hstands => ⟨last, hlast, hstands⟩
  · have hclosed := hvacant.closed
    rw [hphase] at hclosed
    cases hclosed

/-- **A connected link stays connected, or something tells why not.** -/
theorem Reaches.stands (hapart : client.Apart) (hstands : client.StandsOn line)
    (hreach : client.Reaches trace after) :
    after.Apart ∧ (after.StandsOn line ∨ trace.Broke line) := by
  induction hreach with
  | start => exact ⟨hapart, .inl hstands⟩
  | elapsed _ _ ih => exact ih
  | step _ hstep ih =>
      obtain ⟨hapart, hbetween⟩ := ih
      refine ⟨hstep.apart hapart, ?_⟩
      rcases hbetween with hbetween | hbroke
      · exact (hstep.stands hapart hbetween).imp_right
          (Trace.Broke.mono (List.subset_append_right _ _))
      · exact .inr (hbroke.mono (List.subset_append_left _ _))

end Client

end CachePool
