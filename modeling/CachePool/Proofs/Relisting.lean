/-
# Replacing the list of servers

A list that is empty or names a server twice is refused, and nothing has changed then.  Any
other list is installed in two goes: the links whose servers are not listed any more are
closed, and then the links are placed as the list says.

* `Pool.leaving` : the links whose servers are not listed any more;
* `Pool.servers_place`, `Pool.getElem?_place_of_mem`, `Pool.getElem?_place_of_new` : the placed
  links;
* `Client.relist` : a client after some links were closed and the list was replaced;
* `Client.installServers_ok_iff` : this is what installing a list gives, if it gives anything.
-/
import Mathlib.Data.List.Nodup
import CachePool.Client.Calls

namespace CachePool

/-! ## Lists that are refused -/

namespace Pool

/-- A list without a second address has no address twice, and none of those seen before. -/
theorem firstDuplicate?_eq_none_iff {seen addresses : List ServerAddress} :
    firstDuplicate? seen addresses = none ↔
      addresses.Nodup ∧ ∀ address ∈ addresses, address ∉ seen := by
  induction addresses generalizing seen with
  | nil => simp [firstDuplicate?]
  | cons address addresses ih =>
      unfold firstDuplicate?
      by_cases hseen : address ∈ seen
      · simp [hseen]
      · rw [if_neg hseen, ih, List.nodup_cons]
        simp only [List.mem_cons, not_or, forall_eq_or_imp]
        constructor
        · rintro ⟨hdistinct, hnew⟩
          exact ⟨⟨fun hmem => (hnew address hmem).1 rfl, hdistinct⟩, hseen,
            fun other hmem => (hnew other hmem).2⟩
        · rintro ⟨⟨hnew, hdistinct⟩, -, hothers⟩
          refine ⟨hdistinct, fun other hmem => ⟨?_, hothers other hmem⟩⟩
          rintro rfl
          exact hnew hmem

/-- A list has no address twice if no second one is found. -/
theorem firstDuplicate?_nil_iff {addresses : List ServerAddress} :
    firstDuplicate? [] addresses = none ↔ addresses.Nodup := by
  simp [firstDuplicate?_eq_none_iff]

/-- The links whose servers are not listed any more. -/
def leaving (pool : Pool) (addresses : List ServerAddress) : List Link :=
  pool.links.filter fun link => link.server.address ∉ addresses

theorem mem_leaving {pool : Pool} {addresses : List ServerAddress} {link : Link} :
    link ∈ pool.leaving addresses ↔ link ∈ pool.links ∧ link.server.address ∉ addresses := by
  simp [leaving]

/-- Placed links are those to the servers of the list, each at its place. -/
theorem servers_place (existing : List Link) (index : Nat) (token : Token)
    (addresses : List ServerAddress) :
    (place existing index token addresses).1.map (·.server)
      = (addresses.zipIdx index).map fun entry => { index := entry.2, address := entry.1 } := by
  induction addresses generalizing index token with
  | nil => rfl
  | cons address addresses ih =>
      unfold place
      dsimp only
      rw [List.zipIdx_cons, List.map_cons]
      split
      · rw [List.map_cons, ih]
      · rw [List.map_cons, ih]
        rfl

/-! ### Where links are placed -/

section Place

variable {existing : List Link} {addresses : List ServerAddress}

/-- The link to an address is found. -/
theorem find?_address {link : Link}
    (hapart : (existing.map (·.server.address)).Nodup) (hmem : link ∈ existing) :
    existing.find? (fun other => other.server.address = link.server.address) = some link := by
  cases hfound : existing.find? (fun other => other.server.address = link.server.address) with
  | none =>
      have hnone := List.find?_eq_none.mp hfound link hmem
      simp at hnone
  | some other =>
      have haddress := List.find?_some hfound
      rw [decide_eq_true_iff] at haddress
      rw [List.inj_on_of_nodup_map hapart (List.mem_of_find?_eq_some hfound) hmem haddress]

/-- A link to a server that stays listed is placed as the list says. -/
theorem getElem?_place_of_mem {link : Link} (hapart : (existing.map (·.server.address)).Nodup)
    (hmem : link ∈ existing) {offset : Nat}
    (hlisted : addresses[offset]? = some link.server.address)
    (index : Nat) (token : Token) :
    (place existing index token addresses).1[offset]?
      = some { link with
          server := { index := index + offset, address := link.server.address } } := by
  have hfind := find?_address hapart hmem
  -- a new server in front takes the first token, and the place counts from the next index
  induction addresses generalizing index token offset with
  | nil => cases hlisted
  | cons address addresses ih =>
      unfold place
      dsimp only
      cases offset with
      | zero =>
          rw [List.getElem?_cons_zero, Option.some.injEq] at hlisted
          rw [hlisted, hfind]
          rfl
      | succ offset =>
          rw [List.getElem?_cons_succ] at hlisted
          have hnext := ih hlisted (index + 1)
          rw [Nat.add_assoc, Nat.add_comm 1 offset] at hnext
          split
          · exact hnext token
          · exact hnext (token + 1)

/-- A server that was not listed gets a link that is new. -/
theorem getElem?_place_of_new {address : ServerAddress}
    (hnew : ∀ link ∈ existing, link.server.address ≠ address) {offset : Nat}
    (hlisted : addresses[offset]? = some address) (index : Nat) (token : Token) :
    ∃ fresh, token ≤ fresh ∧ (place existing index token addresses).1[offset]?
      = some (Link.make { index := index + offset, address } fresh) := by
  have hfind : existing.find? (fun link => link.server.address = address) = none := by
    rw [List.find?_eq_none]
    intro link hmem
    simpa using hnew link hmem
  induction addresses generalizing index token offset with
  | nil => cases hlisted
  | cons first addresses ih =>
      unfold place
      dsimp only
      cases offset with
      | zero =>
          rw [List.getElem?_cons_zero, Option.some.injEq] at hlisted
          rw [hlisted, hfind]
          exact ⟨token, Nat.le_refl _, rfl⟩
      | succ offset =>
          rw [List.getElem?_cons_succ] at hlisted
          have hnext := ih hlisted (index + 1)
          rw [Nat.add_assoc, Nat.add_comm 1 offset] at hnext
          split
          · exact hnext token
          · obtain ⟨fresh, hlow, hplace⟩ := hnext (token + 1)
            exact ⟨fresh, Nat.le_of_succ_le hlow, hplace⟩

end Place

end Pool

/-! ## Lists that are installed -/

namespace Client

variable {ω : Type} [Network ω] {client after : Client ω} {addresses : List ServerAddress}

/-- The client with another list of servers, after some links were closed one by one. -/
def relist (client : Client ω) (addresses : List ServerAddress) (closing : List Link) :
    Client ω :=
  let placed := Pool.place client.pool.links 0 client.pool.nextToken addresses
  let around := (Pool.eachLink Link.retire closing ⟨client.net, client.log, []⟩).2
  { client with
    pool := { links := placed.1, ring := .build addresses, nextToken := placed.2 }
    net := around.net
    log := around.log.add .info
      ("server list set to " ++ Decimal.text placed.1.length ++ " server(s)")
    ledger := client.ledger.absorb around.finished }

/-- A list that names a server, and none twice, is installed. -/
theorem installServers_eq (hsome : addresses ≠ []) (hdistinct : addresses.Nodup) :
    client.installServers addresses
      = .ok (client.relist addresses (client.pool.leaving addresses)) := by
  unfold installServers Pool.setServers
  dsimp only
  rw [if_neg hsome, Pool.firstDuplicate?_nil_iff.mpr hdistinct]
  rfl

/-- Any other list is refused, whatever client it is for. -/
theorem exists_installServers_eq_error (hrefused : addresses ≠ [] → ¬addresses.Nodup) :
    ∃ error, ∀ client : Client ω,
      client.installServers addresses = .error (.config error) := by
  by_cases hsome : addresses = []
  · refine ⟨.noServerListed, fun client => ?_⟩
    unfold installServers Pool.setServers
    dsimp only
    rw [if_pos hsome]
  cases hfirst : Pool.firstDuplicate? [] addresses with
  | none => exact absurd (Pool.firstDuplicate?_nil_iff.mp hfirst) (hrefused hsome)
  | some address =>
      refine ⟨.duplicateServer address, fun client => ?_⟩
      unfold installServers Pool.setServers
      dsimp only
      rw [if_neg hsome, hfirst]

/-- **Installing a list closes the links that leave and places the others.** -/
theorem installServers_ok_iff : client.installServers addresses = .ok after ↔
    addresses ≠ [] ∧ addresses.Nodup ∧
      client.relist addresses (client.pool.leaving addresses) = after := by
  by_cases hinstalled : addresses ≠ [] ∧ addresses.Nodup
  · obtain ⟨hsome, hdistinct⟩ := hinstalled
    rw [installServers_eq hsome hdistinct, Except.ok.injEq]
    simp [hsome, hdistinct]
  · obtain ⟨error, herror⟩ := @exists_installServers_eq_error ω _ addresses
      fun hsome hdistinct => hinstalled ⟨hsome, hdistinct⟩
    rw [herror client]
    constructor
    · intro hok
      cases hok
    · rintro ⟨hsome, hdistinct, -⟩
      exact absurd ⟨hsome, hdistinct⟩ hinstalled

/-- Installing a list leaves the timeouts as they are. -/
theorem timeouts_installServers (hinstall : client.installServers addresses = .ok after) :
    after.timeouts = client.timeouts := by
  obtain ⟨-, -, rfl⟩ := installServers_ok_iff.mp hinstall
  rfl

end Client

end CachePool
