/-
# Operations on sockets

What a client does to a network between two waits is a sequence of operations on sockets.
So a relation that every such operation respects holds between the network before and after
whatever the client does: a step of a link, a step on every link, the events of a wait.

* `Link.Step.respects` : one thing a link does;
* `Client.respects_makeProgress`, `Client.respects_handleEvents`, `Client.respects_expire` :
  all links.
-/
import CachePool.Proofs.Drives
import CachePool.Proofs.Relisting

namespace CachePool

/-- A relation between states of a network that every operation on a socket respects. -/
structure Network.Respected {ω : Type} [Network ω] (rel : ω → ω → Prop) : Prop where
  refl : ∀ net, rel net net
  trans : ∀ {first second third}, rel first second → rel second third → rel first third
  connect : ∀ net token endpoint, rel net (Network.connect net token endpoint).2
  takeError : ∀ net socket, rel net (Network.takeError net socket).2
  read : ∀ net socket, rel net (Network.read net socket).2
  write : ∀ net socket octets, rel net (Network.write net socket octets).2
  close : ∀ net socket, rel net (Network.close net socket)

variable {ω : Type}

/-- What an operation leaves, by its answer. -/
theorem rel_of_eq {α : Type} {rel : ω → ω → Prop} {net after : ω} {answer : α × ω} {outcome : α}
    (hrel : rel net answer.2) (heq : answer = (outcome, after)) : rel net after := by
  rw [heq] at hrel
  exact hrel

variable [Network ω] {rel : ω → ω → Prop} {net after : ω}

/-! ## Links -/

namespace Link

/-- Reading until a socket blocks. -/
theorem respects_readAll (hrel : Network.Respected rel) (socket : Socket) (net : ω) :
    rel net (readAll socket net).2.2 := by
  fun_induction readAll socket net with
  | case1 net bytes after hread more ending last hmore ih =>
      rw [hmore] at ih
      exact hrel.trans (rel_of_eq (hrel.read net socket) hread) ih
  | case2 net after hread ih => exact hrel.trans (rel_of_eq (hrel.read net socket) hread) ih
  | case3 net after hread => exact rel_of_eq (hrel.read net socket) hread
  | case4 net after hread => exact rel_of_eq (hrel.read net socket) hread
  | case5 net error after hread => exact rel_of_eq (hrel.read net socket) hread

/-- The same, by what was read. -/
theorem respects_of_readAll {socket : Socket} {octets : Bytes} {ending : ReadEnd}
    (hrel : Network.Respected rel) (hread : readAll socket net = (octets, ending, after)) :
    rel net after := by
  have hall := respects_readAll hrel socket net
  rw [hread] at hall
  exact hall

/-- Closing the socket of a link, if it has one. -/
theorem respects_closeSocket (hrel : Network.Respected rel) (link : Link) (net : ω) :
    rel net (link.closeSocket net) := by
  unfold closeSocket
  split
  · exact hrel.close net _
  · exact hrel.refl net

variable {now : Nat} {timeouts : Timeouts} {link last : Link} {incidents : Trace}

/-- A question to the network. -/
theorem Quiet.respects (hrel : Network.Respected rel) (hquiet : link.Quiet now net after) :
    rel net after := by
  cases hquiet with
  | pending _ herror => exact rel_of_eq (hrel.takeError _ _) herror
  | interrupted _ hwrite => exact rel_of_eq (hrel.write _ _ _) hwrite
  | blocked _ hwrite => exact rel_of_eq (hrel.write _ _ _) hwrite

/-- What happens before a link is torn down. -/
theorem Loses.respects {losing : Link} {failure : Failure} (hrel : Network.Respected rel)
    (hloses : Loses now timeouts link net incidents losing failure after) : rel net after := by
  cases hloses with
  | unresolved => exact hrel.refl _
  | unopened _ _ _ hconnect => exact rel_of_eq (hrel.connect _ _ _) hconnect
  | refused _ herror => exact rel_of_eq (hrel.takeError _ _) herror
  | peerless _ herror => exact rel_of_eq (hrel.takeError _ _) herror
  | late _ herror => exact rel_of_eq (hrel.takeError _ _) herror
  | unwritable _ hwrite => exact rel_of_eq (hrel.write _ _ _) hwrite
  | stuck _ hwrite => exact rel_of_eq (hrel.write _ _ _) hwrite
  | unreadable _ hread => exact respects_of_readAll hrel hread
  | refusing _ hread => exact respects_of_readAll hrel hread
  | unresponsive => exact hrel.refl _

/-- **One thing a link does is some operations on sockets.** -/
theorem Step.respects (hrel : Network.Respected rel)
    (hstep : link.Step now timeouts net incidents last after) : rel net after := by
  cases hstep with
  | quiet hquiet => exact hquiet.respects hrel
  | opened _ _ _ hconnect => exact rel_of_eq (hrel.connect _ _ _) hconnect
  | established _ herror => exact rel_of_eq (hrel.takeError _ _) herror
  | took _ hwrite => exact rel_of_eq (hrel.write _ _ _) hwrite
  | received _ hread => exact respects_of_readAll hrel hread
  | lost hloses => exact hrel.trans (hloses.respects hrel) (respects_closeSocket hrel _ _)
  | retired => exact respects_closeSocket hrel _ _
  | _ => exact hrel.refl _

/-- Some things a link does one after the other. -/
theorem Steps.respects (hrel : Network.Respected rel)
    (hsteps : Steps now timeouts link net incidents last after) : rel net after := by
  induction hsteps with
  | refl => exact hrel.refl _
  | tail _ hstep ih => exact hrel.trans ih (hstep.respects hrel)

/-- So is a function that follows steps. -/
theorem Follows.respects {allows : Incident → Prop} {around : Around ω} {result : Link × Around ω}
    (hrel : Network.Respected rel) (hfollows : Follows now timeouts allows link around result) :
    rel around.net result.2.net := by
  obtain ⟨incidents, hsteps, -, -⟩ := hfollows
  exact hsteps.respects hrel

end Link

/-! ## Clients -/

namespace Client

variable {step : Link → Around ω → Link × Around ω}

/-- A step on every link. -/
theorem respects_forEach (hrel : Network.Respected rel)
    (hstep : ∀ link around, rel around.net (step link around).2.net) (pool : Pool)
    (around : Around ω) : rel around.net (pool.forEach around step).2.net :=
  @Pool.eachLink_leads ω step (fun before after => rel before.2.net after.2.net)
    (fun _ => hrel.refl _) (fun _ _ _ => hrel.trans) (fun _ link _ around => hstep link around)
    [] pool.links around

/-- Pushing every link forward. -/
theorem respects_makeProgress (hrel : Network.Respected rel) (client : Client ω) (now : Nat) :
    rel client.net (client.makeProgress now).net :=
  respects_forEach hrel
    (fun link around =>
      (@Link.follows_makeProgress ω _ now client.timeouts link around).respects hrel)
    client.pool ⟨client.net, client.log, []⟩

/-- Handling the events of a wait. -/
theorem respects_handleEvents (hrel : Network.Respected rel) (client : Client ω)
    (events : List Event) : rel client.net (client.handleEvents events).net := by
  have hevents (now : Nat) (pool : Pool) (around : Around ω) :
      rel around.net (pool.handleEvents around now events).2.net := by
    induction events generalizing pool around with
    | nil => exact hrel.refl _
    | cons event events ih =>
        have hfirst := @Pool.onToken_leads ω (fun link around => link.onReady around now event)
          (fun before after => rel before.2.net after.2.net) (fun _ => hrel.refl _)
          (fun _ link _ around =>
            (@Link.follows_onReady ω _ now client.timeouts link around event).respects hrel)
          event.token [] pool.links around
        exact hrel.trans hfirst (ih _ _)
  exact hevents (Network.now client.net) client.pool ⟨client.net, client.log, []⟩

/-- Giving up at a deadline. -/
theorem respects_expire (hrel : Network.Respected rel) (client : Client ω) (target : Target) :
    rel client.net (client.expire target).net :=
  hrel.trans
    (respects_forEach hrel
      (fun link around =>
        (@Link.follows_expireLink ω _ 0 client.timeouts link around target).respects hrel)
      client.pool ⟨client.net, client.log, []⟩)
    (respects_forEach hrel
      (fun link around =>
        (@Link.follows_shedUnresponsive ω _ (Network.now client.net) client.timeouts link
          around).respects hrel) _ _)

/-- Installing a list of servers. -/
theorem respects_installServers (hrel : Network.Respected rel) {client last : Client ω}
    {addresses : List ServerAddress} (hinstall : client.installServers addresses = .ok last) :
    rel client.net last.net := by
  obtain ⟨-, -, rfl⟩ := installServers_ok_iff.mp hinstall
  exact @Pool.eachLink_leads ω Link.retire (fun before after => rel before.2.net after.2.net)
    (fun _ => hrel.refl _) (fun _ _ _ => hrel.trans)
    (fun _ link _ around =>
      (@Link.follows_retire ω _ 0 client.timeouts link around).respects hrel)
    [] (client.pool.leaving addresses) ⟨client.net, client.log, []⟩

end Client

end CachePool
