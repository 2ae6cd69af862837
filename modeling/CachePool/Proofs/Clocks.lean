/-
# Clocks

On a punctual network time passes only while a client waits, and a wait lasts no longer than
it may; it ends early only when there is something to do.  Whatever else a client does happens
at one time.

* `Network.Punctual` : the conditions;
* `Client.now_pushed`, `Client.now_resumed`, `Client.now_expire` : what a client does between
  its waits takes no time;
* `Simulation.World.punctual` : the simulated network is punctual.
-/
import CachePool.Proofs.Operations
import CachePool.Simulation.Network

namespace CachePool

/-- A network on which time passes only while a client waits. A wait ends when its time is
over, or earlier with an event, an interruption or an error. -/
structure Network.Punctual (ω : Type) [Network ω] : Prop where
  connect : ∀ (net : ω) token endpoint,
    Network.now (Network.connect net token endpoint).2 = Network.now net
  takeError : ∀ (net : ω) socket,
    Network.now (Network.takeError net socket).2 = Network.now net
  read : ∀ (net : ω) socket, Network.now (Network.read net socket).2 = Network.now net
  write : ∀ (net : ω) socket octets,
    Network.now (Network.write net socket octets).2 = Network.now net
  close : ∀ (net : ω) socket, Network.now (Network.close net socket) = Network.now net
  forward : ∀ (net : ω) time, Network.now net ≤ Network.now (Network.poll net time).2
  bounded : ∀ (net : ω) time, Network.now (Network.poll net time).2 ≤ Network.now net + time
  early : ∀ (net : ω) time, Network.now (Network.poll net time).2 < Network.now net + time →
    (Network.poll net time).1 ≠ .ready []

variable {ω : Type} [Network ω]

/-- Operations on sockets take no time. -/
theorem Network.Punctual.respected (hpunctual : Network.Punctual ω) :
    Network.Respected fun net after : ω => Network.now after = Network.now net where
  refl _ := rfl
  trans hfirst hsecond := hsecond.trans hfirst
  connect := hpunctual.connect
  takeError := hpunctual.takeError
  read := hpunctual.read
  write := hpunctual.write
  close := hpunctual.close

namespace Client

/-- Pushing every link forward takes no time. -/
theorem now_pushed (hpunctual : Network.Punctual ω) (client : Client ω) :
    Network.now client.pushed.net = Network.now client.net :=
  respects_makeProgress hpunctual.respected client (Network.now client.net)

/-- Handling the events of a pause takes no time. -/
theorem now_resumed (hpunctual : Network.Punctual ω) (pause : Pause ω) :
    Network.now pause.resumed.net = Network.now pause.net := by
  unfold Pause.resumed
  split
  · exact respects_handleEvents hpunctual.respected _ _
  · rfl
  · rfl

/-- Giving up takes no time. -/
theorem now_expire (hpunctual : Network.Punctual ω) (client : Client ω) (target : Target) :
    Network.now (client.expire target).net = Network.now client.net :=
  respects_expire hpunctual.respected client target

/-- Installing a list of servers takes no time. -/
theorem now_installServers (hpunctual : Network.Punctual ω) {client after : Client ω}
    {addresses : List ServerAddress} (hinstall : client.installServers addresses = .ok after) :
    Network.now after.net = Network.now client.net :=
  respects_installServers hpunctual.respected hinstall

end Client

/-! ## The simulated network -/

namespace Simulation.World

@[simp] theorem clock_put (world : World) (socket : Socket) (connection : Connection) :
    (world.put socket connection).clock = world.clock := rfl

@[simp] theorem clock_putPeer (world : World) (name : String) (peer : Peer) :
    (world.putPeer name peer).clock = world.clock := rfl

@[simp] theorem clock_appoint (world : World) (appointments : List Appointment) :
    (world.appoint appointments).clock = world.clock := rfl

@[simp] theorem clock_transmit (world : World) (socket : Socket) (transmission : Transmission) :
    (world.transmit socket transmission).clock = world.clock := by
  unfold transmit
  split <;> rfl

/-- Peers handle requests at once. -/
@[simp] theorem clock_handle (socket : Socket) (world : World) (requests : List Request) :
    (handle socket world requests).clock = world.clock := by
  fun_induction handle socket world requests <;> simp_all

@[simp] theorem clock_receive (world : World) (socket : Socket) (bytes : Bytes) :
    (world.receive socket bytes).clock = world.clock := by
  unfold receive
  split
  · rfl
  · dsimp only
    split
    · rfl
    · split <;> simp

@[simp] theorem clock_occur (world : World) (appointment : Appointment) :
    (world.occur appointment).clock = world.clock := by
  unfold occur
  split
  · rfl
  · dsimp only
    split <;> simp

/-- What is appointed happens at its time, or at once if it is overdue. -/
@[simp] theorem clock_proceed (world : World) (next : Appointment) (later : List Appointment) :
    (world.proceed next later).clock = max world.clock next.time :=
  clock_occur _ _

/-- A wait ends at its limit, or before it with events. -/
theorem clock_settled {world : World} {limit : Nat} (hbefore : world.clock ≤ limit) :
    world.clock ≤ (world.settled limit).2.clock ∧ (world.settled limit).2.clock ≤ limit ∧
      ((world.settled limit).2.clock < limit → (world.settled limit).1 ≠ []) := by
  unfold settled
  split
  · exact ⟨hbefore, Nat.le_refl _, fun hearly => absurd hearly (Nat.lt_irrefl _)⟩
  · rename_i hready
    exact ⟨Nat.le_refl _, hbefore, fun _ => hready⟩

/-- So does one in which things happen that were appointed. -/
theorem clock_waitUntil {world : World} {limit : Nat} (hbefore : world.clock ≤ limit) :
    world.clock ≤ (waitUntil limit world).2.clock ∧ (waitUntil limit world).2.clock ≤ limit ∧
      ((waitUntil limit world).2.clock < limit → (waitUntil limit world).1 ≠ []) := by
  -- the clock stays when what is appointed is overdue, and else goes on to its time
  fun_induction waitUntil limit world with
  | case1 world hplanned => exact clock_settled hbefore
  | case2 world next later hplanned hdue ih =>
      have hclock : (world.proceed next later).clock = world.clock := by
        rw [clock_proceed]
        omega
      rw [hclock] at ih
      exact ih hbefore
  | case3 world next later hplanned hdue hwaits ih =>
      have hclock : (world.proceed next later).clock = next.time := by
        rw [clock_proceed]
        omega
      rw [hclock] at ih
      obtain ⟨hforward, hbounded, hearly⟩ := ih hwaits.2
      exact ⟨by omega, hbounded, hearly⟩
  | case4 world next later hplanned hdue hwaits => exact clock_settled hbefore

/-- **The simulated network is punctual.** -/
theorem punctual : Network.Punctual World where
  connect world token endpoint := by
    show (startConnect world token endpoint).2.clock = world.clock
    unfold startConnect
    dsimp only
    split <;> rfl
  takeError world socket := by
    show (takeStoredError world socket).2.clock = world.clock
    unfold takeStoredError
    split <;> rfl
  read world socket := by
    show (readSocket world socket).2.clock = world.clock
    unfold readSocket
    split <;> rfl
  write world socket octets := by
    show (writeSocket world socket octets).2.clock = world.clock
    unfold writeSocket
    split
    · rfl
    · dsimp only
      split
      · rfl
      · split
        · exact clock_receive _ _ _
        · rfl
  close world socket := by
    show (shut world socket).clock = world.clock
    unfold shut
    dsimp only
    split <;> rfl
  forward world time := by
    show world.clock ≤ (wait world time).2.clock
    unfold wait
    split
    · exact Nat.le_refl _
    · exact Nat.le_refl _
    · exact (clock_waitUntil (Nat.le_add_right _ _)).1
  bounded world time := by
    show (wait world time).2.clock ≤ world.clock + time
    unfold wait
    split
    · exact Nat.le_add_right _ _
    · exact Nat.le_add_right _ _
    · exact (clock_waitUntil (Nat.le_add_right _ _)).2.1
  early world time := by
    show (wait world time).2.clock < world.clock + time → (wait world time).1 ≠ .ready []
    unfold wait
    split
    · exact fun _ hready => nomatch hready
    · exact fun _ hready => nomatch hready
    · intro hearly hready
      exact (clock_waitUntil (Nat.le_add_right _ _)).2.2 hearly (PollOutcome.ready.inj hready)

end Simulation.World

end CachePool
