/-
# Links side by side

A client moves its links one after the other.  What a link does leaves the channels of the
others at rest, so that what each of them keeps with its own channel stays true.

* `Sweeps` : what moving some links may do;
* `sweeps_makeProgress` : pushing every link forward leaves nothing that could be written;
* `sweeps_handleEvents` : handling the events of a wait leaves nothing unread.
-/
import Mathlib.Algebra.GroupWithZero.Nat
import CachePool.Proofs.Advancing

namespace CachePool

variable {ω : Type}

/-! ## Commands that ended -/

/-- A command ended with the result of the responses of its server. -/
def Hosts.Settled (hosts : Hosts ω) (issued : Nat → List Ticket) (net : ω)
    (finished : Finished) : Prop :=
  ∃ place, Settles finished.server (issued finished.server) (hosts.groups net finished.server) place
    finished

/-- Commands that ended on one link. -/
theorem SettlesFrom.settled {hosts : Hosts ω} {issued : Nat → List Ticket} {net : ω}
    {server start : Nat} {finished : List Finished}
    (hsettles : SettlesFrom server (issued server) (hosts.groups net server) start finished) :
    ∀ first ∈ finished, hosts.Settled issued net first := by
  intro first hmem
  obtain ⟨place, hplace⟩ := List.getElem?_of_mem hmem
  have hfirst := hsettles place first hplace
  obtain ⟨-, -, -, -, hserver, -, -⟩ := hfirst
  rw [← hserver] at hsettles
  exact ⟨start + place, hsettles place first hplace⟩

variable [Network ω] {hosts : Hosts ω} {servers : List ServerAddress}
  {issued : Nat → List Ticket} {net after : ω}

/-- What ended stays as it is. -/
theorem Hosts.Settled.mono {more : Nat → List Ticket} {finished : Finished}
    (hlawful : hosts.Lawful servers) (hissued : ∀ index, issued index <+: more index)
    (hextends : hosts.Extends net after) (hsettled : hosts.Settled issued net finished) :
    hosts.Settled more after finished := by
  obtain ⟨place, hsettles⟩ := hsettled
  exact ⟨place, hsettles.mono (hissued _) (hextends.groups hlawful _)⟩

/-! ## What links keep to themselves -/

/-- A condition on a link that nothing breaks but the link itself: it survives as long as its
channel rests and no time passes. -/
def Private (hosts : Hosts ω) (holds : ω → Link → Prop) : Prop :=
  ∀ (net after : ω) (link : Link), Network.now after = Network.now net →
    Option.Rel Channel.Rests (hosts.channel net link.server.index)
      (hosts.channel after link.server.index) →
    holds net link → holds after link

/-- A link attends to the commands that were issued to its server. -/
def Link.Minds (hosts : Hosts ω) (issued : Nat → List Ticket) (net : ω) (link : Link) : Prop :=
  ∃ ended, link.Attends hosts net (issued link.server.index) ended

/-- What has arrived at a link is read, or the poller will tell of it, or one of some events
does. -/
def Link.Told {ω : Type} (hosts : Hosts ω) (events : List Event) (net : ω) (link : Link) : Prop :=
  link.Heard hosts net ∨ ∃ event ∈ events, event.token = link.token ∧ event.readable = true

theorem private_minds (hlawful : hosts.Lawful servers) : Private hosts (Link.Minds hosts issued) := by
  intro net after link hnow hrests hminds
  obtain ⟨ended, hattends⟩ := hminds
  exact ⟨ended, hattends.rests hlawful hrests hnow⟩

theorem private_heard : Private hosts (Link.Heard hosts) :=
  fun _ _ _ _ hrests hheard => hheard.rests hrests

theorem private_pushed : Private hosts (Link.Pushed hosts) :=
  fun _ _ _ _ hrests hpushed => hpushed.rests hrests

theorem private_told {events : List Event} : Private hosts (Link.Told hosts events) :=
  fun _ _ _ _ hrests htold => htold.imp_left fun hheard => hheard.rests hrests

theorem Private.and {first second : ω → Link → Prop} (hfirst : Private hosts first)
    (hsecond : Private hosts second) :
    Private hosts fun net link => first net link ∧ second net link :=
  fun _ _ _ hnow hrests hboth =>
    ⟨hfirst _ _ _ hnow hrests hboth.1, hsecond _ _ _ hnow hrests hboth.2⟩

/-- A condition that says nothing of channels. -/
theorem private_const (holds : Link → Prop) : Private hosts fun _ link => holds link :=
  fun _ _ _ _ _ hholds => hholds

/-! ## Sweeps -/

/-- The work of some links. -/
def workOf (links : List Link) : Nat :=
  (links.map Link.work).sum

/-- The work of a link among others. -/
theorem workOf_middle (front back : List Link) (link : Link) :
    workOf (front ++ link :: back) = link.work + workOf (front ++ back) := by
  simp only [workOf, List.map_append, List.map_cons, List.sum_append, List.sum_cons]
  exact Nat.add_left_comm ..

/-- What moving some links may do: they stay the links they are, other channels rest, it costs
no more than the work that is taken away, and the commands that end are settled. -/
structure Sweeps (hosts : Hosts ω) (issued : Nat → List Ticket) (links : List Link)
    (around : Around ω) (result : List Link × Around ω) : Prop where
  servers : result.1.map (·.server) = links.map (·.server)
  tokens : result.1.map (·.token) = links.map (·.token)
  others : ∀ other, (∀ link ∈ links, link.server.index ≠ other) →
    Option.Rel Channel.Rests (hosts.channel around.net other) (hosts.channel result.2.net other)
  onward : hosts.Extends around.net result.2.net
  now : Network.now result.2.net = Network.now around.net
  effort : hosts.price * workOf result.1 + hosts.patience result.2.net
    ≤ hosts.price * workOf links + hosts.patience around.net
  settled : ∃ finished, result.2.finished = around.finished ++ finished ∧
    ∀ first ∈ finished, hosts.Settled issued result.2.net first

variable {links : List Link} {around : Around ω} {result : List Link × Around ω}

theorem Sweeps.refl (links : List Link) (around : Around ω) :
    Sweeps hosts issued links around (links, around) where
  servers := rfl
  tokens := rfl
  others _ _ := Hosts.rel_refl _
  onward := .refl _
  now := rfl
  effort := Nat.le_refl _
  settled := ⟨[], (List.append_nil _).symm, fun _ hmem => nomatch hmem⟩

theorem Sweeps.trans {between : List Link × Around ω} (hlawful : hosts.Lawful servers)
    (hfirst : Sweeps hosts issued links around between)
    (hsecond : Sweeps hosts issued between.1 between.2 result) :
    Sweeps hosts issued links around result where
  servers := hsecond.servers.trans hfirst.servers
  tokens := hsecond.tokens.trans hfirst.tokens
  others other hother := by
    refine Hosts.rel_trans (hfirst.others other hother) (hsecond.others other fun link hmem => ?_)
    have hserver := List.mem_map_of_mem (f := (·.server)) hmem
    rw [hfirst.servers] at hserver
    obtain ⟨before, hbefore, hsame⟩ := List.mem_map.mp hserver
    rw [← hsame]
    exact hother before hbefore
  onward := hfirst.onward.trans hsecond.onward
  now := hsecond.now.trans hfirst.now
  effort := Nat.le_trans hsecond.effort hfirst.effort
  settled := by
    obtain ⟨finished, hfinished, hsettled⟩ := hfirst.settled
    obtain ⟨more, hmore, hsettled'⟩ := hsecond.settled
    refine ⟨finished ++ more, by rw [hmore, hfinished, List.append_assoc], fun first hmem => ?_⟩
    rcases List.mem_append.mp hmem with hmem | hmem
    · exact (hsettled first hmem).mono hlawful (fun _ => List.prefix_rfl) hsecond.onward
    · exact hsettled' first hmem

/-- A function on a link keeps it in step. -/
theorem Link.Fares.minds {link : Link} {ended : Nat} {last : Link × Around ω}
    (hfares : Link.Fares hosts (issued link.server.index) ended link around last) :
    last.1.Minds hosts issued last.2.net := by
  obtain ⟨finished, -, hadvances⟩ := hfares
  refine ⟨ended + finished.length, ?_⟩
  rw [hadvances.server]
  exact hadvances.attends

/-- What is true of each link makes something true of it when it is moved; then moving all of
them makes it true of all. -/
theorem sweeps_eachLink {step : Link → Around ω → Link × Around ω} {instant : Nat}
    {before later : ω → Link → Prop} (hlawful : hosts.Lawful servers)
    (hbefore : Private hosts before) (hlater : Private hosts later)
    (hstep : ∀ link around, Network.now around.net = instant → before around.net link →
      (∃ ended, Link.Fares hosts (issued link.server.index) ended link around (step link around)) ∧
        later (step link around).2.net (step link around).1)
    (hapart : (links.map (·.server.index)).Nodup) (hnow : Network.now around.net = instant)
    (hholds : ∀ link ∈ links, before around.net link) :
    Sweeps hosts issued links around (Pool.eachLink step links around) ∧
      ∀ link ∈ (Pool.eachLink step links around).1,
        later (Pool.eachLink step links around).2.net link := by
  induction links generalizing around with
  | nil => exact ⟨.refl [] around, fun _ hmem => nomatch hmem⟩
  | cons link links ih =>
      obtain ⟨⟨ended, finished, hfinished, hadvances⟩, hfirst⟩ :=
        hstep link around hnow (hholds link List.mem_cons_self)
      rw [List.map_cons, List.nodup_cons] at hapart
      have hother : ∀ other ∈ links, other.server.index ≠ link.server.index := by
        intro other hmem hsame
        exact hapart.1 (List.mem_map.mpr ⟨other, hmem, hsame⟩)
      -- moving the first link leaves the channels of the others at rest
      obtain ⟨hsweeps, hothers⟩ := @ih (step link around).2 hapart.2 (hadvances.now.trans hnow)
        fun other hmem => hbefore _ _ _ hadvances.now (hadvances.others _ (hother other hmem))
          (hholds other (List.mem_cons_of_mem _ hmem))
      have hserver : (step link around).1.server = link.server := hadvances.server
      refine ⟨⟨?_, ?_, ?_, hadvances.extends.trans hsweeps.onward,
        hsweeps.now.trans hadvances.now, ?_, ?_⟩, ?_⟩
      · exact congrArg₂ List.cons hadvances.server hsweeps.servers
      · exact congrArg₂ List.cons hadvances.token hsweeps.tokens
      · intro index hindex
        exact Hosts.rel_trans (hadvances.others index (hindex link List.mem_cons_self).symm)
          (hsweeps.others index fun other hmem => hindex other (List.mem_cons_of_mem _ hmem))
      · have heffort := hadvances.effort
        have hmore := hsweeps.effort
        show hosts.price * ((step link around).1.work
          + workOf (Pool.eachLink step links (step link around).2).1)
          + hosts.patience (Pool.eachLink step links (step link around).2).2.net
            ≤ hosts.price * (link.work + workOf links) + hosts.patience around.net
        rw [Nat.mul_add, Nat.mul_add]
        omega
      · obtain ⟨more, hmore, hsettled⟩ := hsweeps.settled
        refine ⟨finished ++ more, ?_, fun first hmem => ?_⟩
        · show (Pool.eachLink step links (step link around).2).2.finished = _
          rw [hmore, hfinished, List.append_assoc]
        · rcases List.mem_append.mp hmem with hmem | hmem
          · exact (hadvances.settles.settled first hmem).mono hlawful (fun _ => List.prefix_rfl)
              hsweeps.onward
          · exact hsettled first hmem
      · intro last hmem
        rcases List.mem_cons.mp hmem with rfl | hmem
        · refine hlater _ _ _ hsweeps.now (hsweeps.others _ fun other hmem => ?_) hfirst
          rw [hserver]
          exact hother other hmem
        · exact hothers last hmem

omit [Network ω] in
/-- A step on the link with a token is a step on every link that spares the others. -/
theorem onToken_eq_eachLink {step : Link → Around ω → Link × Around ω} {token : Token}
    (hdistinct : (links.map (·.token)).Nodup) (around : Around ω) :
    Pool.onToken step token links around
      = Pool.eachLink (fun link around =>
          if link.token = token then step link around else (link, around)) links around := by
  have hspares {links : List Link} (hother : ∀ link ∈ links, link.token ≠ token)
      (around : Around ω) :
      Pool.eachLink (fun link around =>
        if link.token = token then step link around else (link, around)) links around
        = (links, around) := by
    induction links with
    | nil => rfl
    | cons link links ih =>
        unfold Pool.eachLink
        dsimp only
        rw [if_neg (hother link List.mem_cons_self)]
        dsimp only
        rw [ih fun other hmem => hother other (List.mem_cons_of_mem _ hmem)]
  induction links generalizing around with
  | nil => rfl
  | cons link links ih =>
      rw [List.map_cons, List.nodup_cons] at hdistinct
      unfold Pool.onToken Pool.eachLink
      dsimp only
      split
      · rename_i htoken
        rw [hspares]
        intro other hmem hsame
        exact hdistinct.1 (List.mem_map.mpr ⟨other, hmem, hsame.trans htoken.symm⟩)
      · rw [ih hdistinct.2]

/-! ## Lists of links -/

/-- The links are those to some servers, in order. -/
def Lists (servers : List ServerAddress) (links : List Link) : Prop :=
  links.map (·.server) = servers.zipIdx.map fun entry => { index := entry.2, address := entry.1 }

omit [Network ω]

theorem Lists.address {link : Link} (hlists : Lists servers links) (hmem : link ∈ links) :
    servers[link.server.index]? = some link.server.address := by
  have hserver := List.mem_map_of_mem (f := (·.server)) hmem
  rw [hlists] at hserver
  obtain ⟨⟨address, index⟩, hentry, hsame⟩ := List.mem_map.mp hserver
  rw [← hsame]
  exact List.mem_zipIdx_iff_getElem?.mp hentry

theorem Lists.apart (hlists : Lists servers links) : (links.map (·.server.index)).Nodup := by
  have hindexes := congrArg (List.map Server.index) hlists
  rw [List.map_map, List.map_map] at hindexes
  show (links.map (Server.index ∘ fun link => link.server)).Nodup
  rw [hindexes, show (Server.index ∘ fun entry : ServerAddress × Nat =>
    ({ index := entry.2, address := entry.1 } : Server)) = Prod.snd from rfl,
    List.zipIdx_map_snd]
  exact List.nodup_range'

/-- The link to the server with an index. -/
theorem Lists.link {index : Nat} (hlists : Lists servers links) (hindex : index < servers.length) :
    ∃ link, links[index]? = some link ∧ link.server.index = index := by
  have hserver := congrArg (·[index]?) hlists
  rw [List.getElem?_map, List.getElem?_map, List.getElem?_zipIdx,
    List.getElem?_eq_getElem hindex] at hserver
  cases hlink : links[index]? with
  | none =>
      rw [hlink] at hserver
      cases hserver
  | some link =>
      rw [hlink] at hserver
      refine ⟨link, rfl, ?_⟩
      have hsame := congrArg Server.index (Option.some.inj hserver)
      rw [hsame]
      exact Nat.zero_add index

theorem Lists.length (hlists : Lists servers links) : links.length = servers.length := by
  have hlength := congrArg List.length hlists
  rw [List.length_map, List.length_map, List.length_zipIdx] at hlength
  exact hlength

/-! ## Sweeps of a client -/

section Calls

variable [Network ω] {timeouts : Timeouts} {now : Nat}

/-- **Pushing every link forward** leaves nothing that could be written. -/
theorem sweeps_makeProgress (hlawful : hosts.Lawful servers)
    (hvalid : ∀ index, ∀ ticket ∈ issued index, ticket.Valid) (htimeout : 0 < timeouts.connect)
    (hlists : Lists servers links) (hnow : Network.now around.net = now)
    (hminds : ∀ link ∈ links, link.Minds hosts issued around.net)
    (hheard : ∀ link ∈ links, link.Heard hosts around.net) :
    Sweeps hosts issued links around
        (Pool.eachLink (fun link around => link.makeProgress around now timeouts) links around) ∧
      ∀ link ∈ (Pool.eachLink (fun link around => link.makeProgress around now timeouts) links
          around).1,
        link.Minds hosts issued (Pool.eachLink (fun link around =>
          link.makeProgress around now timeouts) links around).2.net ∧
        link.Heard hosts (Pool.eachLink (fun link around =>
          link.makeProgress around now timeouts) links around).2.net ∧
        link.Pushed hosts (Pool.eachLink (fun link around =>
          link.makeProgress around now timeouts) links around).2.net := by
  refine @sweeps_eachLink ω _ hosts servers issued links around
    (fun link around => link.makeProgress around now timeouts) now
    (fun net link => (link.Minds hosts issued net ∧ link.Heard hosts net) ∧
      servers[link.server.index]? = some link.server.address)
    (fun net link => link.Minds hosts issued net ∧ link.Heard hosts net ∧ link.Pushed hosts net)
    hlawful (((private_minds hlawful).and private_heard).and (private_const _))
    ((private_minds hlawful).and (private_heard.and private_pushed)) ?_ hlists.apart hnow ?_
  · rintro link around hnow ⟨⟨⟨ended, hattends⟩, hheard⟩, haddress⟩
    obtain ⟨hfares, hpushed, hheard'⟩ :=
      Link.fares_makeProgress hlawful (hvalid _) haddress htimeout hnow.symm hattends
    refine ⟨⟨ended, hfares⟩, ?_, hheard' hheard, hpushed⟩
    exact hfares.minds
  · exact fun link hmem => ⟨⟨hminds link hmem, hheard link hmem⟩, hlists.address hmem⟩

/-- **Handling an event** leaves nothing unread on the link that it tells of. -/
theorem sweeps_event (event : Event) {events : List Event} (hlawful : hosts.Lawful servers)
    (hvalid : ∀ index, ∀ ticket ∈ issued index, ticket.Valid) (hlists : Lists servers links)
    (hdistinct : (links.map (·.token)).Nodup) (hnow : Network.now around.net = now)
    (hminds : ∀ link ∈ links, link.Minds hosts issued around.net)
    (htold : ∀ link ∈ links, link.Told hosts (event :: events) around.net)
    (hresult : result = Pool.onToken (fun link around => link.onReady around now event) event.token
      links around) :
    Sweeps hosts issued links around result ∧
      ∀ link ∈ result.1,
        link.Minds hosts issued result.2.net ∧ link.Told hosts events result.2.net := by
  rw [hresult, onToken_eq_eachLink hdistinct]
  refine @sweeps_eachLink ω _ hosts servers issued links around _ now
    (fun net link => link.Minds hosts issued net ∧ link.Told hosts (event :: events) net)
    (fun net link => link.Minds hosts issued net ∧ link.Told hosts events net)
    hlawful ((private_minds hlawful).and private_told) ((private_minds hlawful).and private_told)
    ?_ hlists.apart hnow fun link hmem => ⟨hminds link hmem, htold link hmem⟩
  rintro link around hnow ⟨⟨ended, hattends⟩, htold⟩
  by_cases htoken : link.token = event.token
  · rw [if_pos htoken]
    obtain ⟨hfares, hheard⟩ := Link.fares_onReady event hlawful (hvalid _) hnow.symm hattends
    refine ⟨⟨ended, hfares⟩, hfares.minds, ?_⟩
    rcases htold with hbefore | ⟨other, hmem, hother, hreadable⟩
    · exact .inl (hheard (.inr hbefore))
    · rcases List.mem_cons.mp hmem with rfl | hmem
      · exact .inl (hheard (.inl hreadable))
      · refine .inr ⟨other, hmem, ?_, hreadable⟩
        obtain ⟨_, -, hadvances⟩ := hfares
        rw [hadvances.token]
        exact hother
  · rw [if_neg htoken]
    refine ⟨⟨ended, .refl hattends⟩, ⟨ended, hattends⟩, htold.imp_right ?_⟩
    rintro ⟨other, hmem, hother, hreadable⟩
    rcases List.mem_cons.mp hmem with rfl | hmem
    · exact absurd hother.symm htoken
    · exact ⟨other, hmem, hother, hreadable⟩

/-- **Handling the events of a wait** leaves nothing unread that they tell of. -/
theorem sweeps_handleEvents (events : List Event) {pool : Pool} (hlawful : hosts.Lawful servers)
    (hvalid : ∀ index, ∀ ticket ∈ issued index, ticket.Valid) (hlists : Lists servers pool.links)
    (hdistinct : (pool.links.map (·.token)).Nodup) (hnow : Network.now around.net = now)
    (hminds : ∀ link ∈ pool.links, link.Minds hosts issued around.net)
    (htold : ∀ link ∈ pool.links, link.Told hosts events around.net) :
    Sweeps hosts issued pool.links around ((pool.handleEvents around now events).1.links,
        (pool.handleEvents around now events).2) ∧
      ∀ link ∈ (pool.handleEvents around now events).1.links,
        link.Minds hosts issued (pool.handleEvents around now events).2.net ∧
        link.Heard hosts (pool.handleEvents around now events).2.net := by
  induction events generalizing pool around with
  | nil =>
      refine ⟨.refl _ _, fun link hmem => ⟨hminds link hmem, ?_⟩⟩
      rcases htold link hmem with hheard | ⟨event, hnone, -⟩
      · exact hheard
      · cases hnone
  | cons event events ih =>
      generalize hresult : Pool.onToken (fun link around => link.onReady around now event)
        event.token pool.links around = result
      obtain ⟨hfirst, hlinks⟩ :=
        sweeps_event event hlawful hvalid hlists hdistinct hnow hminds htold hresult.symm
      obtain ⟨hsecond, hothers⟩ := @ih result.2 { pool with links := result.1 }
        (hfirst.servers.trans hlists) (by rw [hfirst.tokens]; exact hdistinct)
        (hfirst.now.trans hnow) (fun link hmem => (hlinks link hmem).1)
        fun link hmem => (hlinks link hmem).2
      unfold Pool.handleEvents
      rw [hresult]
      exact ⟨hfirst.trans hlawful hsecond, hothers⟩

end Calls

end CachePool
