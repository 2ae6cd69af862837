/-
# What a link does with a channel

The functions of a link, among hosts of stores: none of them fails, each keeps the link in
step with its channel, and the commands that end in it end with the results of the responses
of their store.

* `Link.Advances` : what one function may do;
* `Link.fares_makeProgress` : pushing a link forward leaves nothing that could be written;
* `Link.fares_onReady` : handling an event that tells of octets leaves nothing unread.
-/
import CachePool.Proofs.Attending

namespace CachePool

/-! ## More of a network -/

namespace Hosts

variable {ω : Type} (hosts : Hosts ω)

/-- The responses of a server to the requests that it executed, one group for each. -/
def groups (net : ω) (index : Nat) : List (List Response) :=
  match hosts.channel net index with
  | some channel => channel.groups (hosts.store index)
  | none => []

/-- Channels stay, and took and executed more at most. -/
def Extends (net after : ω) : Prop :=
  ∀ index channel, hosts.channel net index = some channel →
    ∃ later, hosts.channel after index = some later ∧ channel.taken <+: later.taken ∧
      channel.times <+: later.times

variable {hosts}

theorem groups_of_channel {net : ω} {index : Nat} {channel : Channel}
    (hchannel : hosts.channel net index = some channel) :
    hosts.groups net index = channel.groups (hosts.store index) := by
  rw [groups, hchannel]

theorem Extends.refl (net : ω) : hosts.Extends net net :=
  fun _ channel hchannel => ⟨channel, hchannel, List.prefix_rfl, List.prefix_rfl⟩

theorem Extends.trans {net middle after : ω} (hfirst : hosts.Extends net middle)
    (hsecond : hosts.Extends middle after) : hosts.Extends net after := by
  intro index channel hchannel
  obtain ⟨between, hbetween, htaken, htimes⟩ := hfirst index channel hchannel
  obtain ⟨later, hlater, htaken', htimes'⟩ := hsecond index between hbetween
  exact ⟨later, hlater, htaken.trans htaken', htimes.trans htimes'⟩

/-- A channel that goes on by itself stays. -/
theorem extends_of_grows {net after : ω} {index : Nat} {channel : Channel}
    (hgrows : Option.Rel Channel.Grows (hosts.channel net index) (hosts.channel after index))
    (hchannel : hosts.channel net index = some channel) :
    ∃ later, hosts.channel after index = some later ∧ channel.taken <+: later.taken ∧
      channel.times <+: later.times := by
  rw [hchannel] at hgrows
  generalize hlater : hosts.channel after index = later at hgrows
  cases hgrows with
  | some hgrows => exact ⟨_, rfl, hgrows.taken ▸ List.prefix_rfl, hgrows.times⟩

/-- A channel at rest grows. -/
theorem grows_of_rests {before later : Option Channel}
    (hrests : Option.Rel Channel.Rests before later) : Option.Rel Channel.Grows before later := by
  cases hrests with
  | some hrests => exact .some hrests.toGrows
  | none => exact .none

variable [Network ω] {servers : List ServerAddress}

/-- Responses stay when channels go on. -/
theorem Extends.groups {net after : ω} (hlawful : hosts.Lawful servers)
    (hextends : hosts.Extends net after) (index : Nat) :
    hosts.groups net index <+: hosts.groups after index := by
  cases hchannel : hosts.channel net index with
  | none =>
      rw [Hosts.groups, hchannel]
      exact List.nil_prefix
  | some channel =>
      obtain ⟨later, hlater, htaken, htimes⟩ := hextends index channel hchannel
      rw [groups_of_channel hchannel, groups_of_channel hlater]
      exact Channel.groups_prefix _ htaken htimes (hlawful.sound hchannel).executed

theorem rel_trans {first second third : Option Channel}
    (hfirst : Option.Rel Channel.Rests first second)
    (hsecond : Option.Rel Channel.Rests second third) : Option.Rel Channel.Rests first third := by
  cases hfirst with
  | some hfirst =>
      cases hsecond with
      | some hsecond => exact .some (hfirst.trans hsecond)
  | none =>
      cases hsecond with
      | none => exact .none

theorem rel_refl (channel : Option Channel) : Option.Rel Channel.Rests channel channel := by
  cases channel with
  | some channel => exact .some (.refl channel)
  | none => exact .none

theorem Acts.trans {index cost more : Nat} {net middle after : ω}
    (hfirst : hosts.Acts index cost net middle) (hsecond : hosts.Acts index more middle after) :
    hosts.Acts index (cost + more) net after where
  others other hother := rel_trans (hfirst.others other hother) (hsecond.others other hother)
  now := hsecond.now.trans hfirst.now
  patience := by
    have hpatience := hfirst.patience
    have hmore := hsecond.patience
    omega

end Hosts

namespace Link

/-! ## What one function may do -/

/-- How many octets a link still has to write, and a connect if it has no socket. -/
def work (link : Link) : Nat :=
  link.outbound.length + if link.phase.socket? = none then 1 else 0

variable {ω : Type} [Network ω] {hosts : Hosts ω} {servers : List ServerAddress}
  {net middle after : ω} {issued : List Ticket} {ended : Nat} {link last : Link}

/-- A link goes on: it stays in step with its channel, what it does costs no more than the
work that it takes away, and commands end with the results of their responses. -/
structure Advances (hosts : Hosts ω) (issued : List Ticket) (ended : Nat) (link : Link) (net : ω)
    (last : Link) (after : ω) (finished : List Finished) : Prop where
  server : last.server = link.server
  token : last.token = link.token
  attends : last.Attends hosts after issued (ended + finished.length)
  others : ∀ other, other ≠ link.server.index →
    Option.Rel Channel.Rests (hosts.channel net other) (hosts.channel after other)
  stays : ∀ channel, hosts.channel net link.server.index = some channel →
    ∃ later, hosts.channel after link.server.index = some later ∧
      channel.taken <+: later.taken ∧ channel.times <+: later.times
  now : Network.now after = Network.now net
  effort : hosts.price * last.work + hosts.patience after
    ≤ hosts.price * link.work + hosts.patience net
  settles : SettlesFrom link.server.index issued (hosts.groups after link.server.index) ended
    finished

theorem Advances.extends {finished : List Finished}
    (hadvances : Advances hosts issued ended link net last after finished) :
    hosts.Extends net after := by
  intro index channel hchannel
  by_cases hindex : index = link.server.index
  · rw [hindex] at hchannel ⊢
    exact hadvances.stays channel hchannel
  · exact Hosts.extends_of_grows (Hosts.grows_of_rests (hadvances.others index hindex)) hchannel

theorem Advances.refl (hattends : link.Attends hosts net issued ended) :
    Advances hosts issued ended link net link net [] where
  server := rfl
  token := rfl
  attends := hattends
  others _ _ := Hosts.rel_refl _
  stays channel hchannel := ⟨channel, hchannel, List.prefix_rfl, List.prefix_rfl⟩
  now := rfl
  effort := Nat.le_refl _
  settles := settlesFrom_nil

theorem Advances.trans {between : Link} {first second : List Finished}
    (hlawful : hosts.Lawful servers)
    (hfirst : Advances hosts issued ended link net between middle first)
    (hsecond : Advances hosts issued (ended + first.length) between middle last after second) :
    Advances hosts issued ended link net last after (first ++ second) where
  server := hsecond.server.trans hfirst.server
  token := hsecond.token.trans hfirst.token
  attends := by
    rw [List.length_append, ← Nat.add_assoc]
    exact hsecond.attends
  others other hother := Hosts.rel_trans (hfirst.others other hother)
    (hsecond.others other (by rw [hfirst.server]; exact hother))
  stays channel hchannel := (hfirst.extends.trans hsecond.extends) _ channel hchannel
  now := hsecond.now.trans hfirst.now
  effort := Nat.le_trans hsecond.effort hfirst.effort
  settles := by
    have hsettles := hsecond.settles
    rw [hfirst.server] at hsettles
    exact (hfirst.settles.mono List.prefix_rfl (hsecond.extends.groups hlawful _)).append hsettles

/-- The links that one operation on the channel leaves. -/
theorem Advances.of_acts {cost : Nat} {channel later : Channel}
    (hacts : hosts.Acts link.server.index cost net after)
    (hchannel : hosts.channel net link.server.index = some channel)
    (hlater : hosts.channel after link.server.index = some later)
    (htaken : channel.taken <+: later.taken) (htimes : channel.times <+: later.times)
    (hserver : last.server = link.server) (htoken : last.token = link.token)
    (hattends : last.Attends hosts after issued ended)
    (hcost : hosts.price * last.work + cost ≤ hosts.price * link.work) :
    Advances hosts issued ended link net last after [] where
  server := hserver
  token := htoken
  attends := hattends
  others := hacts.others
  stays other hother := by
    rw [hchannel] at hother
    cases hother
    exact ⟨later, hlater, htaken, htimes⟩
  now := hacts.now
  effort := by
    have hpatience := hacts.patience
    omega
  settles := settlesFrom_nil

/-- The link asks, and the channel goes on by itself. -/
theorem Advances.of_rests {channel later : Channel} (hlawful : hosts.Lawful servers)
    (hacts : hosts.Acts link.server.index 0 net after)
    (hchannel : hosts.channel net link.server.index = some channel)
    (hlater : hosts.channel after link.server.index = some later) (hrests : channel.Rests later)
    (hattends : link.Attends hosts net issued ended) :
    Advances hosts issued ended link net link after [] := by
  refine .of_acts hacts hchannel hlater (hrests.taken ▸ List.prefix_rfl) hrests.times rfl rfl
    (hattends.rests hlawful ?_ hacts.now) (Nat.le_refl _)
  rw [hchannel, hlater]
  exact .some hrests

/-! ## Writing -/

/-- A link that is connected has a channel that is up. -/
theorem Attends.connected {socket : Socket} (hphase : link.phase = .connected socket)
    (hattends : link.Attends hosts net issued ended) :
    ∃ channel done waiting queued answered part,
      hosts.channel net link.server.index = some channel ∧ channel.socket = socket ∧
      channel.isUp = true ∧ issued = done ++ waiting ++ queued ∧ done.length = ended ∧
      link.Speaks (Network.now net) (hosts.store link.server.index) channel done waiting queued
        answered part := by
  cases hattends with
  | untouched _ huntouched =>
      rw [huntouched.phase] at hphase
      cases hphase
  | @speaking channel done waiting queued answered part hchannel hissued hspeaks =>
      cases hspeaks.holding with
      | connecting hother =>
          rw [hother] at hphase
          cases hphase
      | connected hother hup =>
          rw [hother] at hphase
          cases hphase
          exact ⟨channel, done, waiting, queued, answered, part, hchannel, rfl, hup, hissued, rfl,
            hspeaks⟩

/-- The channel takes octets from a link. -/
theorem Attends.took {channel later : Channel} {count : Nat} (hlawful : hosts.Lawful servers)
    (hvalid : ∀ ticket ∈ issued, ticket.Valid)
    (hattends : link.Attends hosts net issued ended)
    (hphase : link.phase = .connected channel.socket)
    (hchannel : hosts.channel net link.server.index = some channel)
    (hlater : hosts.channel after link.server.index = some later)
    (hnow : Network.now after = Network.now net)
    (hgrows :
      Channel.Grows { channel with taken := channel.taken ++ link.outbound.take count } later) :
    (link.wrote count).Attends hosts after issued ended := by
  obtain ⟨_, done, waiting, queued, answered, part, hsame, -, hup, rfl, rfl, hspeaks⟩ :=
    hattends.connected hphase
  rw [hchannel] at hsame
  cases hsame
  obtain ⟨sent, kept, rfl, hwrote⟩ :=
    hspeaks.wrote hvalid (hlawful.sound hchannel) hphase hup hgrows
  rw [← hnow] at hwrote
  refine .speaking hlater ?_ hwrote
  simp only [List.append_assoc]

/-- An offer is one write after some interruptions. -/
theorem advances_offer {socket : Socket} {outcome : WriteOutcome} {after : ω}
    (hlawful : hosts.Lawful servers) (hphase : link.phase = .connected socket)
    (hattends : link.Attends hosts net issued ended) (hsome : link.outbound ≠ [])
    (hoffer : offer socket link.outbound net = (outcome, after)) :
    ∃ before channel later, Advances hosts issued ended link net link before [] ∧
      (link.Heard hosts net → link.Heard hosts before) ∧
      hosts.channel before link.server.index = some channel ∧ channel.socket = socket ∧
      hosts.Acts link.server.index (hosts.price * Hosts.taken outcome) before after ∧
      hosts.channel after link.server.index = some later ∧
      channel.Writes link.outbound outcome later ∧ outcome ≠ .interrupted := by
  fun_induction offer socket link.outbound net with
  | case1 net between hwrite ih =>
      obtain ⟨channel, _, _, _, _, _, hchannel, rfl, hup, -⟩ := hattends.connected hphase
      obtain ⟨hacts, later, hlater, hwrites⟩ := hlawful.writes hchannel hup hsome hwrite
      cases hwrites with
      | interrupted hrests =>
          have hfirst := Advances.of_rests hlawful hacts hchannel hlater hrests hattends
          obtain ⟨before, channel', later', hadvances, hheard, hlast⟩ := ih hfirst.attends hoffer
          refine ⟨before, channel', later', hfirst.trans hlawful hadvances,
            fun hbefore => hheard ?_, hlast⟩
          exact hbefore.rests (by rw [hchannel, hlater]; exact .some hrests)
  | case2 net outcome after hother hwrite =>
      cases hoffer
      obtain ⟨channel, _, _, _, _, _, hchannel, hsocket, hup, -⟩ := hattends.connected hphase
      obtain ⟨hacts, later, hlater, hwrites⟩ :=
        hlawful.writes hchannel hup hsome (hsocket ▸ hwrite)
      exact ⟨net, channel, later, .refl hattends, id, hchannel, hsocket, hacts, hlater, hwrites,
        hother⟩

/-- **Writing ends when all is written or when the poller will tell of room**, and no write
fails. -/
theorem advances_writePending (hlawful : hosts.Lawful servers)
    (hvalid : ∀ ticket ∈ issued, ticket.Valid) (socket : Socket) (link : Link) (net : ω)
    (hphase : link.phase = .connected socket) (hattends : link.Attends hosts net issued ended) :
    (link.writePending socket net).2.2 = none ∧
      Advances hosts issued ended link net (link.writePending socket net).1
        (link.writePending socket net).2.1 [] ∧
      Pushed hosts (link.writePending socket net).2.1 (link.writePending socket net).1 ∧
      (link.Heard hosts net →
        Heard hosts (link.writePending socket net).2.1 (link.writePending socket net).1) := by
  fun_induction writePending socket link net with
  | case1 link net hempty => exact ⟨rfl, .refl hattends, .inl hempty, id⟩
  | case2 link net hsome after hoffer =>
      obtain ⟨_, _, _, -, -, -, -, -, -, hwrites, -⟩ :=
        advances_offer hlawful hphase hattends hsome hoffer
      cases hwrites with
      | took hsome => exact absurd hsome (Nat.lt_irrefl 0)
  | case3 link net hsome count after hoffer hcount ih =>
      obtain ⟨before, channel, later, hwaited, hstill, hchannel, rfl, hacts, hlater, hwrites, -⟩ :=
        advances_offer hlawful hphase hattends hsome hoffer
      cases hwrites with
      | took _ hshort hrests =>
          have htook := hwaited.attends.took hlawful hvalid hphase hchannel hlater hacts.now
            hrests.toGrows
          obtain ⟨hnone, hadvances, hpushed, hheard⟩ := ih hphase htook
          -- the octets that were taken pay for the write
          have hcost : hosts.price * (link.wrote count).work + hosts.price * count
              ≤ hosts.price * link.work := by
            rw [← Nat.mul_add]
            apply Nat.mul_le_mul_left
            show (link.wrote count).outbound.length + (if link.phase.socket? = none then 1 else 0)
              + count ≤ link.outbound.length + if link.phase.socket? = none then 1 else 0
            rw [outbound_wrote, List.length_drop]
            omega
          have hfirst : Advances hosts issued ended link before (link.wrote count) after [] := by
            refine .of_acts hacts hchannel hlater ?_ hrests.times rfl rfl htook hcost
            rw [hrests.taken]
            exact List.prefix_append _ _
          refine ⟨hnone, (hwaited.trans hlawful hfirst).trans hlawful hadvances, hpushed,
            fun hbefore => hheard ?_⟩
          intro other hother
          rw [show (link.wrote count).server = link.server from rfl, hlater] at hother
          cases hother
          exact hrests.heard (hstill hbefore channel hchannel)
  | case4 link net hsome after hoffer =>
      obtain ⟨_, _, _, -, -, -, -, -, -, -, hother⟩ :=
        advances_offer hlawful hphase hattends hsome hoffer
      exact absurd rfl hother
  | case5 link net hsome after hoffer =>
      obtain ⟨before, channel, later, hwaited, hstill, hchannel, -, hacts, hlater, hwrites, -⟩ :=
        advances_offer hlawful hphase hattends hsome hoffer
      cases hwrites with
      | wouldBlock hrests hdue =>
          refine ⟨rfl, hwaited.trans hlawful
            (.of_rests hlawful hacts hchannel hlater hrests hwaited.attends),
            .inr ⟨later, hlater, hdue⟩, fun hbefore => ?_⟩
          exact (hstill hbefore).rests (by rw [hchannel, hlater]; exact .some hrests)
  | case6 link net hsome error after hoffer =>
      obtain ⟨_, _, _, -, -, -, -, -, -, hwrites, -⟩ :=
        advances_offer hlawful hphase hattends hsome hoffer
      cases hwrites

/-! ## Functions on links -/

/-- What a function on a link gives: the link goes on, and the commands that end are kept. -/
def Fares (hosts : Hosts ω) (issued : List Ticket) (ended : Nat) (link : Link) (around : Around ω)
    (result : Link × Around ω) : Prop :=
  ∃ finished, result.2.finished = around.finished ++ finished ∧
    Advances hosts issued ended link around.net result.1 result.2.net finished

variable {around : Around ω} {result : Link × Around ω} {now : Nat} {timeouts : Timeouts}

theorem Fares.refl (hattends : link.Attends hosts around.net issued ended) :
    Fares hosts issued ended link around (link, around) :=
  ⟨[], (List.append_nil _).symm, .refl hattends⟩

/-- A function in which no command ends. -/
theorem Fares.quiet (hfinished : result.2.finished = around.finished)
    (hadvances : Advances hosts issued ended link around.net result.1 result.2.net []) :
    Fares hosts issued ended link around result :=
  ⟨[], by rw [hfinished, List.append_nil], hadvances⟩

/-- A link that changes by itself. -/
theorem Advances.changed (hserver : last.server = link.server) (htoken : last.token = link.token)
    (hattends : last.Attends hosts net issued ended) (hwork : last.work = link.work) :
    Advances hosts issued ended link net last net [] where
  server := hserver
  token := htoken
  attends := hattends
  others _ _ := Hosts.rel_refl _
  stays channel hchannel := ⟨channel, hchannel, List.prefix_rfl, List.prefix_rfl⟩
  now := rfl
  effort := Nat.le_of_eq (by rw [hwork])
  settles := settlesFrom_nil

/-- Writing what is queued, of a link that is connected or whose poller will tell. -/
theorem fares_writeQueued (hlawful : hosts.Lawful servers)
    (hvalid : ∀ ticket ∈ issued, ticket.Valid)
    (hattends : link.Attends hosts around.net issued ended) :
    Fares hosts issued ended link around (link.writeQueued around now) ∧
      ((∃ socket, link.phase = .connected socket) ∨ link.Pushed hosts around.net →
        (link.writeQueued around now).1.Pushed hosts (link.writeQueued around now).2.net) ∧
      (link.Heard hosts around.net →
        (link.writeQueued around now).1.Heard hosts (link.writeQueued around now).2.net) := by
  unfold writeQueued
  split
  · rename_i socket hphase
    obtain ⟨hnone, hadvances, hpushed, hheard⟩ :=
      advances_writePending hlawful hvalid socket link around.net hphase hattends
    rcases hwrite : link.writePending socket around.net with ⟨last, after, error⟩
    rw [hwrite] at hnone hadvances hpushed hheard
    dsimp only at hnone
    rw [hnone]
    exact ⟨.quiet rfl hadvances, fun _ => hpushed, hheard⟩
  · rename_i hother
    refine ⟨.refl hattends, fun hpushed => hpushed.resolve_left ?_, id⟩
    rintro ⟨socket, hphase⟩
    exact hother socket hphase

/-! ## Connecting -/

/-- A link that connects has a channel that took nothing. -/
theorem Attends.connecting {socket : Socket} {deadline : Nat}
    (hphase : link.phase = .connecting socket deadline)
    (hattends : link.Attends hosts net issued ended) :
    ∃ channel queued answered part, hosts.channel net link.server.index = some channel ∧
      channel.socket = socket ∧ Network.now net < deadline ∧ issued = queued ∧ ended = 0 ∧
      link.headWritten = 0 ∧
      link.Speaks (Network.now net) (hosts.store link.server.index) channel [] [] queued answered
        part := by
  cases hattends with
  | untouched _ huntouched =>
      rw [huntouched.phase] at hphase
      cases hphase
  | @speaking channel done waiting queued answered part hchannel hissued hspeaks =>
      cases hspeaks.holding with
      | connecting hother hearly hnone hhead =>
          rw [hother] at hphase
          cases hphase
          obtain ⟨rfl, rfl⟩ := List.append_eq_nil_iff.mp hnone
          exact ⟨channel, queued, answered, part, hchannel, rfl, hearly, hissued, rfl, hhead,
            hspeaks⟩
      | connected hother =>
          rw [hother] at hphase
          cases hphase

/-- Nothing was read before the connect has completed, and nothing has arrived. -/
theorem Attends.heard_connecting {socket : Socket} {deadline : Nat} (hlawful : hosts.Lawful servers)
    (hphase : link.phase = .connecting socket deadline)
    (hattends : link.Attends hosts net issued ended) : link.Heard hosts net := by
  obtain ⟨channel, queued, answered, part, hchannel, -, -, -, -, hhead, hspeaks⟩ :=
    hattends.connecting hphase
  have hsound := hlawful.sound hchannel
  have htaken : channel.taken = [] := by
    rw [hspeaks.taken, hhead]
    rfl
  have hrequests : channel.requests = [] := by
    rw [Channel.requests, htaken, Request.kind.split_of_incomplete rfl]
    rfl
  have harrived : channel.arrived = [] := by
    have hsent := hsound.sent
    rw [Channel.stream, Channel.groups, hrequests, List.zip_nil_right] at hsent
    exact List.prefix_nil.mp hsent
  have hgiven : channel.given = [] := by
    have hread := hsound.read
    rw [harrived] at hread
    exact List.prefix_nil.mp hread
  intro other hother
  rw [hchannel] at hother
  cases hother
  exact .inr (hgiven.trans harrived.symm)

/-- **A connect that is started** is told by the poller when it completes. -/
theorem fares_startConnect (hlawful : hosts.Lawful servers)
    (haddress : servers[link.server.index]? = some link.server.address)
    (htimeout : 0 < timeouts.connect) (hnow : now = Network.now around.net)
    (hchannel : hosts.channel around.net link.server.index = none)
    (huntouched : link.Untouched issued) :
    Fares hosts issued 0 link around (link.startConnect around now timeouts) ∧
      (link.startConnect around now timeouts).1.Pushed hosts
        (link.startConnect around now timeouts).2.net ∧
      (link.startConnect around now timeouts).1.Heard hosts
        (link.startConnect around now timeouts).2.net := by
  obtain ⟨endpoint, socket, after, channel, hresolve, hconnect, hacts, hlater, hfresh⟩ :=
    hlawful.connects link.token haddress hchannel
  unfold startConnect
  dsimp only
  rw [hresolve]
  dsimp only
  rw [hconnect]
  dsimp only
  refine ⟨.quiet rfl ⟨rfl, rfl, ?_, hacts.others, ?_, hacts.now, ?_, settlesFrom_nil⟩,
    .inr ⟨channel, hlater, hfresh.due⟩, ?_⟩
  · refine @Attends.speaking ω _ hosts after issued _ channel [] [] issued [] [] hlater rfl ?_
    refine ⟨⟨rfl, List.nil_prefix, List.nil_prefix, rfl, huntouched.awaiting⟩,
      @Holding.connecting _ _ _ _ (now + timeouts.connect) ?_ ?_ rfl huntouched.head, hfresh.token,
      huntouched.unsent, ?_, ?_, ?_, ?_, ?_⟩
    · rw [hfresh.socket]
    · show Network.now after < now + timeouts.connect
      rw [hacts.now, hnow]
      omega
    · show link.outbound = (Trace.frames issued).drop link.headWritten
      rw [huntouched.outbound, huntouched.head]
      rfl
    · show HeadWithin link.headWritten issued
      rw [huntouched.head]
      exact headWithin_zero issued
    · show channel.taken = [] ++ (Trace.frames issued).take link.headWritten
      rw [hfresh.taken, huntouched.head]
      rfl
    · show channel.given = [] ++ link.inbound
      rw [hfresh.given, huntouched.inbound]
      rfl
    · show Response.kind.decode link.inbound = _
      rw [huntouched.inbound]
      rfl
  · intro other hother
    rw [hchannel] at hother
    cases hother
  · have hpatience := hacts.patience
    have hwork : link.work = link.outbound.length + 1 := by
      rw [work, huntouched.phase]
      rfl
    show hosts.price * (link.outbound.length + 0) + hosts.patience after ≤ _
    rw [hwork, Nat.mul_add, Nat.mul_add]
    omega
  · intro other hother
    change hosts.channel after link.server.index = some other at hother
    rw [hlater] at hother
    cases hother
    exact .inl hfresh.due

/-- **A connect that is checked** has completed, or the poller will tell. -/
theorem fares_pollConnect {socket : Socket} {deadline : Nat} (hlawful : hosts.Lawful servers)
    (hphase : link.phase = .connecting socket deadline) (hnow : now = Network.now around.net)
    (hattends : link.Attends hosts around.net issued ended) :
    Fares hosts issued ended link around (link.pollConnect around now socket deadline) ∧
      ((∃ other, (link.pollConnect around now socket deadline).1.phase = .connected other) ∨
        (link.pollConnect around now socket deadline).1.Pushed hosts
          (link.pollConnect around now socket deadline).2.net) ∧
      (link.Heard hosts around.net →
        (link.pollConnect around now socket deadline).1.Heard hosts
          (link.pollConnect around now socket deadline).2.net) := by
  obtain ⟨channel, -, -, -, hchannel, rfl, hearly, -⟩ := hattends.connecting hphase
  obtain ⟨after, later, herror, hacts, hlater, hrests⟩ := hlawful.takesError hchannel
  have hfirst := Advances.of_rests hlawful hacts hchannel hlater hrests hattends
  have hrel : Option.Rel Channel.Rests (hosts.channel around.net link.server.index)
      (hosts.channel after link.server.index) := by
    rw [hchannel, hlater]
    exact .some hrests
  have hpeer := hlawful.peerState hlater
  unfold pollConnect
  rw [herror]
  dsimp only
  rw [← hrests.socket, hpeer]
  -- a connect that is still under way has a channel that tells when it completes
  cases hup : later.isUp with
  | false =>
      rw [if_neg (by decide)]
      dsimp only
      rw [if_neg (by omega)]
      exact ⟨.quiet rfl hfirst, .inr (.inr ⟨later, hlater, (hlawful.sound hlater).dormant hup⟩),
        fun hheard => hheard.rests hrel⟩
  | true =>
      rw [if_pos rfl]
      dsimp only
      have hreported : (link.reportConnected { around with net := after }).net = after ∧
          (link.reportConnected { around with net := after }).finished = around.finished := by
        unfold reportConnected
        split
        all_goals exact ⟨rfl, rfl⟩
      obtain ⟨other, queued, answered, part, hother, -, -, hissued, hended, hhead, hspeaks⟩ :=
        hfirst.attends.connecting hphase
      rw [hlater] at hother
      cases hother
      have hattendsNow : Attends hosts after issued
          { link with phase := .connected later.socket } 0 := by
        refine @Attends.speaking ω _ hosts after issued _ later [] [] queued answered part hlater
          hissued ?_
        exact ⟨⟨hspeaks.count, hspeaks.heard, hspeaks.begun, hspeaks.awaits⟩, .connected rfl hup,
          hspeaks.token, hspeaks.unsent, hspeaks.outbound, hspeaks.head, hspeaks.taken,
          hspeaks.given, hspeaks.inbound⟩
      have hsecond : Advances hosts issued (ended + 0) link after
          { link with phase := .connected later.socket } after [] := by
        refine .changed rfl rfl ?_ ?_
        · rw [show ended = 0 from hended]
          exact hattendsNow
        · unfold work
          rw [hphase]
          rfl
      refine ⟨.quiet hreported.2 ?_, .inl ⟨_, rfl⟩, fun hheard => ?_⟩
      · rw [hreported.1]
        exact hfirst.trans hlawful hsecond
      · rw [hreported.1]
        exact hheard.rests hrel

/-- One function after the other. -/
theorem Fares.trans {between : Link × Around ω} (hlawful : hosts.Lawful servers)
    (hfirst : Fares hosts issued ended link around between)
    (hsecond : ∀ ended, between.1.Attends hosts between.2.net issued ended →
      Fares hosts issued ended between.1 between.2 result) :
    Fares hosts issued ended link around result := by
  obtain ⟨finished, hfinished, hadvances⟩ := hfirst
  obtain ⟨more, hmore, hlater⟩ := hsecond _ hadvances.attends
  refine ⟨finished ++ more, ?_, hadvances.trans hlawful hlater⟩
  rw [hmore, hfinished, List.append_assoc]

theorem Fares.attends (hfares : Fares hosts issued ended link around result) :
    ∃ ended, result.1.Attends hosts result.2.net issued ended := by
  obtain ⟨finished, -, hadvances⟩ := hfares
  exact ⟨_, hadvances.attends⟩

/-- A connect that is checked, and then what can be written is written. -/
theorem fares_establish {socket : Socket} {deadline : Nat} (hlawful : hosts.Lawful servers)
    (hvalid : ∀ ticket ∈ issued, ticket.Valid)
    (hphase : link.phase = .connecting socket deadline) (hnow : now = Network.now around.net)
    (hattends : link.Attends hosts around.net issued ended)
    (hresult : result = (link.pollConnect around now socket deadline).1.writeQueued
      (link.pollConnect around now socket deadline).2 now) :
    Fares hosts issued ended link around result ∧ result.1.Pushed hosts result.2.net ∧
      result.1.Heard hosts result.2.net := by
  obtain ⟨hfares, hpushed, hheard⟩ := fares_pollConnect hlawful hphase hnow hattends
  obtain ⟨later, hlater⟩ := hfares.attends
  obtain ⟨-, hpushed', hheard'⟩ := @fares_writeQueued ω _ hosts servers issued later _ _ now hlawful
    hvalid hlater
  rw [hresult]
  refine ⟨hfares.trans hlawful fun _ hlater => (fares_writeQueued hlawful hvalid hlater).1,
    hpushed' hpushed, hheard' (hheard ?_)⟩
  exact hattends.heard_connecting hlawful hphase

/-- **Pushing a link forward** leaves nothing that could be written. -/
theorem fares_makeProgress (hlawful : hosts.Lawful servers)
    (hvalid : ∀ ticket ∈ issued, ticket.Valid)
    (haddress : servers[link.server.index]? = some link.server.address)
    (htimeout : 0 < timeouts.connect) (hnow : now = Network.now around.net)
    (hattends : link.Attends hosts around.net issued ended) :
    Fares hosts issued ended link around (link.makeProgress around now timeouts) ∧
      (link.makeProgress around now timeouts).1.Pushed hosts
        (link.makeProgress around now timeouts).2.net ∧
      (link.Heard hosts around.net →
        (link.makeProgress around now timeouts).1.Heard hosts
          (link.makeProgress around now timeouts).2.net) := by
  cases hattends with
  | untouched hchannel huntouched =>
      have hstays : link.Attends hosts around.net issued 0 := .untouched hchannel huntouched
      unfold makeProgress
      rw [huntouched.phase]
      dsimp only
      split
      · rename_i hempty
        refine ⟨.refl hstays, .inl ?_, id⟩
        rw [huntouched.unsent, List.map_eq_nil_iff] at hempty
        rw [huntouched.outbound, hempty]
        rfl
      · have heligible : link.isRetryEligible now timeouts = true := by
          unfold isRetryEligible
          rw [huntouched.failure]
        rw [if_pos heligible]
        obtain ⟨hfares, hpushed, hheard⟩ :=
          fares_startConnect hlawful haddress htimeout hnow hchannel huntouched
        exact ⟨hfares, hpushed, fun _ => hheard⟩
  | @speaking channel done waiting queued answered part hchannel hissued hspeaks =>
      have hstays : link.Attends hosts around.net issued done.length :=
        .speaking hchannel hissued hspeaks
      cases hspeaks.holding with
      | connecting hphase =>
          obtain ⟨hfares, hpushed, hheard⟩ :=
            fares_establish hlawful hvalid hphase hnow hstays rfl
          unfold makeProgress
          rw [hphase]
          exact ⟨hfares, hpushed, fun _ => hheard⟩
      | connected hphase =>
          obtain ⟨hfares, hpushed, hheard⟩ := fares_writeQueued hlawful hvalid hstays
          unfold makeProgress
          rw [hphase]
          exact ⟨hfares, hpushed (.inl ⟨_, hphase⟩), hheard⟩

/-! ## Reading -/

/-- **Reading ends when all that arrived is read or when the poller will tell of more**, and
no read fails. -/
theorem readAll_drained {index : Nat} (hlawful : hosts.Lawful servers) (socket : Socket) (net : ω)
    {channel : Channel} (hchannel : hosts.channel net index = some channel)
    (hsocket : channel.socket = socket) (hup : channel.isUp = true) :
    (readAll socket net).2.1 = .drained ∧ hosts.Acts index 0 net (readAll socket net).2.2 ∧
      ∃ later, hosts.channel (readAll socket net).2.2 index = some later ∧
        Channel.Grows { channel with given := channel.given ++ (readAll socket net).1 } later ∧
        (later.isDue = true ∨ later.given = later.arrived) := by
  -- along the reads: what one of them gives stands before what the others give
  fun_induction readAll socket net generalizing channel with
  | case1 net bytes after hread more ending last hmore ih =>
      rw [← hsocket] at hread
      obtain ⟨hacts, between, hbetween, hreads⟩ := hlawful.reads hchannel hup hread
      cases hreads with
      | data hgrows =>
          rw [hmore] at ih
          obtain ⟨hending, hacts', later, hlater, hgrows', hdrained⟩ :=
            ih hbetween (hgrows.socket.trans hsocket) (hgrows.up hup)
          refine ⟨hending, hacts.trans hacts', later, hlater, ?_, hdrained⟩
          refine ⟨hgrows'.socket.trans hgrows.socket, hgrows'.token.trans hgrows.token,
            fun hup => hgrows'.up (hgrows.up hup), hgrows'.taken.trans hgrows.taken,
            hgrows.times.trans hgrows'.times, hgrows.arrived.trans hgrows'.arrived, ?_⟩
          rw [hgrows'.given]
          show between.given ++ more = channel.given ++ (bytes ++ more)
          rw [hgrows.given, List.append_assoc]
  | case2 net after hread ih =>
      rw [← hsocket] at hread
      obtain ⟨hacts, between, hbetween, hreads⟩ := hlawful.reads hchannel hup hread
      cases hreads with
      | interrupted hgrows =>
          obtain ⟨hending, hacts', later, hlater, hgrows', hdrained⟩ :=
            ih hbetween (hgrows.socket.trans hsocket) (hgrows.up hup)
          refine ⟨hending, hacts.trans hacts', later, hlater, ?_, hdrained⟩
          exact ⟨hgrows'.socket.trans hgrows.socket, hgrows'.token.trans hgrows.token,
            fun hup => hgrows'.up (hgrows.up hup), hgrows'.taken.trans hgrows.taken,
            hgrows.times.trans hgrows'.times, hgrows.arrived.trans hgrows'.arrived,
            by rw [hgrows'.given, hgrows.given]⟩
  | case3 net after hread =>
      rw [← hsocket] at hread
      obtain ⟨hacts, later, hlater, hreads⟩ := hlawful.reads hchannel hup hread
      cases hreads with
      | wouldBlock hgrows hdrained =>
          refine ⟨rfl, hacts, later, hlater, ?_, hdrained⟩
          rw [List.append_nil]
          exact hgrows
  | case4 net after hread =>
      rw [← hsocket] at hread
      obtain ⟨-, later, -, hreads⟩ := hlawful.reads hchannel hup hread
      cases hreads
  | case5 net error after hread =>
      rw [← hsocket] at hread
      obtain ⟨-, later, -, hreads⟩ := hlawful.reads hchannel hup hread
      cases hreads

/-- **Reading what is there** ends commands with the results of their replies, and leaves
nothing unread. -/
theorem fares_readAvailable {socket : Socket} (hlawful : hosts.Lawful servers)
    (hvalid : ∀ ticket ∈ issued, ticket.Valid) (hphase : link.phase = .connected socket)
    (hattends : link.Attends hosts around.net issued ended) :
    ∃ result : Link × Around ω, link.readAvailable around socket = (result.1, result.2, none) ∧
      Fares hosts issued ended link around result ∧
      result.1.Heard hosts result.2.net := by
  obtain ⟨channel, done, waiting, queued, answered, part, hchannel, hsocket, hup, hissued, hended,
    hspeaks⟩ := hattends.connected hphase
  obtain ⟨hending, hacts, later, hlater, hgrows, hdrained⟩ :=
    readAll_drained hlawful socket around.net hchannel hsocket hup
  rcases hread : readAll socket around.net with ⟨octets, ending, after⟩
  rw [hread] at hending hacts hlater hgrows
  dsimp only at hending hacts hlater hgrows
  rw [hissued] at hvalid
  -- the channel as it is now, but for the octets that the link has not looked at
  have hbefore : link.Speaks (Network.now around.net) (hosts.store link.server.index)
      { later with given := (answered.flatten ++ part).flatMap Response.frame ++ link.inbound }
      done waiting queued answered part := by
    refine hspeaks.grows (hlawful.sound hchannel) ?_
    exact ⟨hgrows.socket, hgrows.token, hgrows.up, hgrows.taken, hgrows.times, hgrows.arrived,
      hspeaks.given.symm⟩
  have hgiven : later.given
      = (answered.flatten ++ part).flatMap Response.frame ++ (link.inbound ++ octets) := by
    rw [hgrows.given]
    show channel.given ++ octets = _
    rw [hspeaks.given, List.append_assoc]
  obtain ⟨settled, rest, answered', part', last, finished, rfl, hcount, hdecode, hserver, htoken,
    houtbound, hsame, hlast, hsettles⟩ :=
    hbefore.received hvalid (hlawful.sound hlater) hgiven
  refine ⟨(last, { around with net := after, finished := around.finished ++ finished }), ?_,
    ⟨finished, rfl, hserver, htoken, ?_, hacts.others, ?_, hacts.now, ?_, ?_⟩, ?_⟩
  · have hdecoded : ({ link with inbound := link.inbound ++ octets } : Link).decodeInbound
        = (last, finished, none) := hdecode
    unfold readAvailable
    rw [hread, hending]
    dsimp only
    rw [hdecoded]
    rfl
  · have hlength : (done ++ settled).length = ended + finished.length := by
      rw [List.length_append, hended, hcount]
    rw [← hlength]
    rw [← hacts.now] at hlast
    refine @Attends.speaking ω _ hosts after issued last later (done ++ settled) rest queued answered'
      part' (by rw [hserver]; exact hlater) ?_ (by rw [hserver]; exact hlast)
    rw [hissued]
    simp only [List.append_assoc]
  · intro other hother
    rw [hchannel] at hother
    cases hother
    exact ⟨later, hlater, hgrows.taken ▸ List.prefix_rfl, hgrows.times⟩
  · have hpatience := hacts.patience
    have hwork : last.work = link.work := by
      unfold work
      rw [houtbound, hsame]
    show hosts.price * last.work + hosts.patience after ≤ _
    rw [hwork]
    omega
  · show SettlesFrom link.server.index issued (hosts.groups after link.server.index) ended finished
    rw [Hosts.groups_of_channel hlater, ← hended]
    refine hsettles.mono ?_ List.prefix_rfl
    rw [hissued]
    exact List.prefix_append _ _
  · intro other hother
    rw [hserver] at hother
    change hosts.channel after link.server.index = some other at hother
    rw [hlater] at hother
    cases hother
    exact hdrained

/-- **Handling an event** that tells of octets leaves nothing unread. -/
theorem fares_onReady (event : Event) (hlawful : hosts.Lawful servers)
    (hvalid : ∀ ticket ∈ issued, ticket.Valid) (hnow : now = Network.now around.net)
    (hattends : link.Attends hosts around.net issued ended) :
    Fares hosts issued ended link around (link.onReady around now event) ∧
      (event.readable = true ∨ link.Heard hosts around.net →
        (link.onReady around now event).1.Heard hosts (link.onReady around now event).2.net) := by
  cases hattends with
  | untouched hchannel huntouched =>
      have hstays : link.Attends hosts around.net issued 0 := .untouched hchannel huntouched
      unfold onReady
      rw [huntouched.phase]
      refine ⟨.refl hstays, fun _ channel hother => ?_⟩
      rw [hchannel] at hother
      cases hother
  | @speaking channel done waiting queued answered part hchannel hissued hspeaks =>
      have hstays : link.Attends hosts around.net issued done.length :=
        .speaking hchannel hissued hspeaks
      cases hspeaks.holding with
      | connecting hphase =>
          obtain ⟨hfares, -, hheard⟩ := fares_establish hlawful hvalid hphase hnow hstays rfl
          unfold onReady
          rw [hphase]
          exact ⟨hfares, fun _ => hheard⟩
      | connected hphase =>
          -- what is read, and then what is written
          have hwrites {between : Link × Around ω}
              (hfares : Fares hosts issued done.length link around between)
              (hheard : event.readable = true ∨ link.Heard hosts around.net →
                between.1.Heard hosts between.2.net) :
              Fares hosts issued done.length link around
                (if event.writable then between.1.writeQueued between.2 now
                  else (between.1, between.2)) ∧
              (event.readable = true ∨ link.Heard hosts around.net →
                Heard hosts (if event.writable then between.1.writeQueued between.2 now
                  else (between.1, between.2)).2.net
                  (if event.writable then between.1.writeQueued between.2 now
                  else (between.1, between.2)).1) := by
            obtain ⟨later, hlater⟩ := hfares.attends
            split
            · exact ⟨hfares.trans hlawful fun _ hlater =>
                (fares_writeQueued hlawful hvalid hlater).1,
                fun hbefore => (fares_writeQueued hlawful hvalid hlater).2.2 (hheard hbefore)⟩
            · exact ⟨hfares, hheard⟩
          unfold onReady
          rw [hphase]
          dsimp only
          by_cases hreadable : event.readable = true
          · obtain ⟨between, hread, hfares, hheard⟩ :=
              fares_readAvailable hlawful hvalid hphase hstays
            rw [if_pos hreadable, hread]
            exact hwrites hfares fun _ => hheard
          · rw [if_neg hreadable]
            exact hwrites (.refl hstays) fun hbefore => hbefore.resolve_left hreadable

end Link

end CachePool
