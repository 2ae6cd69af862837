/-
# Ties

The list of servers gives every point of the ring the place of its server, so that the order of
the list can only matter between points with one hash.  The hash on which a key lands is told
by the servers alone, in whatever order they are listed.  Of the servers that have a point
there the first one in the list has the key: when there is no second one, the order does not
matter.

* `Ring.Lands` : the hash on which a key lands;
* `Ring.exists_lands` : the first server with a point there owns the key;
* `Client.order_decides_ties` : what another order of the list changes.
-/
import CachePool.Proofs.Routing

namespace CachePool

/-! ## Hashes of points -/

/-- The hashes of the points that a server puts on the ring. -/
def ServerAddress.hashes (address : ServerAddress) : List UInt32 :=
  (List.range pointsPerServer).map fun number =>
    hashKey (.ofString (String.ofList (Ring.label address number)))

namespace Ring

variable {servers others : List ServerAddress} {hash landing : UInt32}

/-- The hashes of the points of all servers. -/
def hashes (servers : List ServerAddress) : List UInt32 :=
  servers.flatMap ServerAddress.hashes

theorem mem_hashes : hash ∈ hashes servers ↔ ∃ address ∈ servers, hash ∈ address.hashes :=
  List.mem_flatMap

/-- A point of the ring has a hash of the server at its index. -/
theorem mem_points_build_iff_hashes {point : Point} : point ∈ (build servers).points ↔
    ∃ address, servers[point.2]? = some address ∧ point.1 ∈ address.hashes := by
  rw [mem_points_build]
  simp only [ServerAddress.hashes, List.mem_map, List.mem_range]
  constructor
  · rintro ⟨address, number, haddress, hnumber, hhash⟩
    exact ⟨address, haddress, number, hnumber, hhash.symm⟩
  · rintro ⟨address, haddress, number, hnumber, hhash⟩
    exact ⟨address, number, haddress, hnumber, hhash.symm⟩

/-- A hash of a server is that of a point of the ring. -/
theorem exists_point (hmem : hash ∈ hashes servers) :
    ∃ index, (hash, index) ∈ (build servers).points := by
  obtain ⟨address, haddress, hhash⟩ := mem_hashes.mp hmem
  obtain ⟨index, hindex⟩ := List.mem_iff_getElem?.mp haddress
  exact ⟨index, mem_points_build_iff_hashes.mpr ⟨address, hindex, hhash⟩⟩

/-! ## Landing -/

/-- The hash of a point on which a key with a hash lands: the least one at or after its own,
or the least of all when there is none. -/
inductive Lands (servers : List ServerAddress) (hash landing : UInt32) : Prop
  | ahead (hpoint : landing ∈ hashes servers) (hreached : hash ≤ landing)
      (hleast : ∀ other ∈ hashes servers, hash ≤ other → landing ≤ other)
  | around (hpoint : landing ∈ hashes servers) (hnone : ∀ other ∈ hashes servers, other < hash)
      (hleast : ∀ other ∈ hashes servers, landing ≤ other)

/-- Where a key lands does not depend on the order of the servers. -/
theorem Lands.perm (hperm : servers.Perm others) (hlands : Lands servers hash landing) :
    Lands others hash landing := by
  have hmem (other : UInt32) : other ∈ hashes others ↔ other ∈ hashes servers :=
    (hperm.flatMap_right _).symm.mem_iff
  cases hlands with
  | ahead hpoint hreached hleast =>
      exact .ahead ((hmem _).mpr hpoint) hreached
        fun other hother => hleast other ((hmem _).mp hother)
  | around hpoint hnone hleast =>
      exact .around ((hmem _).mpr hpoint) (fun other hother => hnone other ((hmem _).mp hother))
        fun other hother => hleast other ((hmem _).mp hother)

/-- A key lands on one hash. -/
theorem Lands.unique {other : UInt32} (hlands : Lands servers hash landing)
    (hother : Lands servers hash other) : landing = other := by
  cases hlands with
  | ahead hpoint hreached hleast =>
      cases hother with
      | ahead hpoint' hreached' hleast' =>
          exact UInt32.le_antisymm (hleast _ hpoint' hreached') (hleast' _ hpoint hreached)
      | around _ hnone => exact absurd (hnone _ hpoint) (UInt32.not_lt.mpr hreached)
  | around hpoint hnone hleast =>
      cases hother with
      | ahead hpoint' hreached' => exact absurd (hnone _ hpoint') (UInt32.not_lt.mpr hreached')
      | around hpoint' _ hleast' => exact UInt32.le_antisymm (hleast _ hpoint') (hleast' _ hpoint)

/-- A key lands on the hash of the point that is nearest behind its own hash. -/
theorem lands_of_catches {point : Point} (hcatches : point.Catches (build servers).points hash) :
    Lands servers hash point.1 := by
  obtain ⟨address, haddress, hhash⟩ := mem_points_build_iff_hashes.mp hcatches.mem
  have hpoint : point.1 ∈ hashes servers :=
    mem_hashes.mpr ⟨address, List.mem_of_getElem? haddress, hhash⟩
  have hle {other : Point} (hprecedes : point.precedes other = true) : point.1 ≤ other.1 :=
    Point.le_of_precedes (UInt32.le_refl _) hprecedes
  rcases (Point.catches_iff.mp hcatches).2 with ⟨hreached, hleast⟩ | ⟨hnone, hleast⟩
  · refine .ahead hpoint hreached fun other hother hahead => ?_
    obtain ⟨index, hmem⟩ := exists_point hother
    exact hle (hleast _ hmem hahead)
  · refine .around hpoint (fun other hother => ?_) fun other hother => ?_
    · obtain ⟨index, hmem⟩ := exists_point hother
      exact UInt32.not_le.mp (hnone _ hmem)
    · obtain ⟨index, hmem⟩ := exists_point hother
      exact hle (hleast _ hmem)

/-- **The first server with a point on the hash on which a key lands owns the key.** -/
theorem exists_lands (hsome : servers ≠ []) {key : Bytes} {index : Nat} {address : ServerAddress}
    (howner : (build servers).owner? key = some index) (haddress : servers[index]? = some address) :
    ∃ landing, Lands servers (hashKey key) landing ∧
      servers.find? (landing ∈ ·.hashes) = some address := by
  obtain ⟨point, hcatches, hpoint⟩ := exists_catches hsome key
  obtain rfl : index = point.2 := by
    rwa [howner, Option.some.injEq] at hpoint
  refine ⟨point.1, lands_of_catches hcatches, ?_⟩
  obtain ⟨other, hother, hhash⟩ := mem_points_build_iff_hashes.mp hcatches.mem
  obtain rfl : other = address := by
    rwa [haddress, Option.some.injEq, eq_comm] at hother
  obtain ⟨hindex, hget⟩ := List.getElem?_eq_some_iff.mp haddress
  refine List.find?_eq_some_iff_getElem.mpr ⟨decide_eq_true hhash, point.2, hindex, hget, ?_⟩
  -- an earlier server with a point there would come first in the tie
  intro place hearlier
  rw [Bool.not_eq_true', decide_eq_false_iff_not]
  intro hshared
  have hmem : (point.1, place) ∈ (build servers).points :=
    mem_points_build_iff_hashes.mpr ⟨servers[place], List.getElem?_eq_getElem _, hshared⟩
  rcases hcatches.nearest _ hmem with hnearer | ⟨-, hfirst⟩
  · exact Nat.lt_irrefl _ hnearer
  · exact absurd hfirst (Nat.not_le.mpr hearlier)

end Ring

/-! ## A tie -/

namespace Script

/-- Two servers with points on one hash. -/
def tied : List ServerAddress :=
  [{ host := "a", port := 854 }, { host := "a", port := 1042 }]

/-- The label of a point of the first of them. -/
def tieKey : Bytes :=
  .ofString "a:854-16"

/-- Both have a point where the label lands. -/
theorem hashKey_tieKey_mem : ∀ address ∈ tied, hashKey tieKey ∈ address.hashes := by
  intro address hmem
  simp only [tied, List.mem_cons, List.not_mem_nil, or_false] at hmem
  rcases hmem with rfl | rfl
  · exact List.mem_map.mpr ⟨16, by decide, by decide⟩
  · exact List.mem_map.mpr ⟨10, by decide, by decide⟩

end Script

/-! ## Clients -/

namespace Client

variable {ω : Type} [Network ω]

/-- A client with a list of servers sends a key to the first of them that has a point on the
hash on which the key lands. -/
theorem serverForKey_eq_find? {servers : List ServerAddress} (client : Client ω)
    (closing : List Link) (hsome : servers ≠ []) (key : Bytes) :
    ∃ landing owner, Ring.Lands servers (hashKey key) landing ∧
      (client.relist servers closing).serverForKey key = .ok owner ∧
      servers.find? (landing ∈ ·.hashes) = some owner.address := by
  obtain ⟨index, address, howner, haddress, hserver⟩ :=
    client.exists_serverForKey closing hsome key
  obtain ⟨landing, hlands, hfirst⟩ := Ring.exists_lands hsome howner haddress
  exact ⟨landing, _, hlands, hserver, hfirst⟩

/-- **The order of the list decides ties only.**  Let the same servers be installed in two
orders.  Every key lands on one hash, whatever the order, and belongs in each list to the
first server that has a point there.  So if it belongs to different servers in the two lists,
both have a point there; and if only one server has a point there, the key belongs to it in
both. -/
theorem order_decides_ties {servers others : List ServerAddress} (hperm : servers.Perm others)
    (hdistinct : servers.Nodup) (hsome : servers ≠ []) (first second : Client ω) :
    ∃ before after, first.installServers servers = .ok before ∧
      second.installServers others = .ok after ∧
      ∀ key, ∃ landing old new,
        (∀ hash, Ring.Lands servers (hashKey key) hash ↔ hash = landing) ∧
        (∀ hash, Ring.Lands others (hashKey key) hash ↔ hash = landing) ∧
        before.serverForKey key = .ok old ∧ after.serverForKey key = .ok new ∧
        servers.find? (landing ∈ ·.hashes) = some old.address ∧
        others.find? (landing ∈ ·.hashes) = some new.address ∧
        (old.address ≠ new.address → ∃ one ∈ servers, ∃ two ∈ servers, one ≠ two ∧
          landing ∈ one.hashes ∧ landing ∈ two.hashes) ∧
        ((∀ one ∈ servers, ∀ two ∈ servers, landing ∈ one.hashes → landing ∈ two.hashes →
          one = two) → new.address = old.address) := by
  have hothers : others ≠ [] := fun hnone => hsome (hnone ▸ hperm).eq_nil
  refine ⟨_, _, installServers_eq hsome hdistinct,
    installServers_eq hothers (hperm.nodup_iff.mp hdistinct), fun key => ?_⟩
  obtain ⟨landing, old, hlands, hold, hfirst⟩ :=
    first.serverForKey_eq_find? (first.pool.leaving servers) hsome key
  obtain ⟨landing', new, hlands', hnew, hfirst'⟩ :=
    second.serverForKey_eq_find? (second.pool.leaving others) hothers key
  obtain rfl : landing = landing' := (hlands.perm hperm).unique hlands'
  have hone : old.address ∈ servers ∧ landing ∈ old.address.hashes :=
    ⟨List.mem_of_find?_eq_some hfirst, by simpa using List.find?_some hfirst⟩
  have htwo : new.address ∈ servers ∧ landing ∈ new.address.hashes :=
    ⟨hperm.mem_iff.mpr (List.mem_of_find?_eq_some hfirst'), by simpa using List.find?_some hfirst'⟩
  refine ⟨landing, old, new, fun hash => ⟨fun h => h.unique hlands, fun h => h ▸ hlands⟩,
    fun hash => ⟨fun h => h.unique hlands', fun h => h ▸ hlands'⟩, hold, hnew, hfirst, hfirst',
    fun hdiffer => ?_, fun hsingle => ?_⟩
  · exact ⟨_, hone.1, _, htwo.1, hdiffer, hone.2, htwo.2⟩
  · exact hsingle _ htwo.1 _ hone.1 htwo.2 hone.2

/-- The first listed of two servers that share a hash has the keys that land there. -/
theorem order_decides_ties_shared :
    Script.tied.Perm Script.tied.reverse ∧ Script.tied.Nodup ∧ Script.tied ≠ [] ∧
    ∃ before after : Client Script, ∃ old new,
      (Script.mk 0 [] []).opened.installServers Script.tied = .ok before ∧
      (Script.mk 0 [] []).opened.installServers Script.tied.reverse = .ok after ∧
      before.serverForKey Script.tieKey = .ok old ∧ after.serverForKey Script.tieKey = .ok new ∧
      old.address.port = 854 ∧ new.address.port = 1042 := by
  have hperm : Script.tied.Perm Script.tied.reverse := (List.reverse_perm Script.tied).symm
  have hdistinct : Script.tied.Nodup := by decide
  have hsome : Script.tied ≠ [] := List.cons_ne_nil _ _
  obtain ⟨before, after, hbefore, hafter, hkeys⟩ := order_decides_ties hperm hdistinct hsome
    (Script.mk 0 [] []).opened (Script.mk 0 [] []).opened
  obtain ⟨landing, old, new, hlands, -, hold, hnew, hfirst, hfirst', -⟩ := hkeys Script.tieKey
  -- the key has the hash of a point itself, and so no point lies closer
  obtain rfl : hashKey Script.tieKey = landing := (hlands _).mp (.ahead
    (Ring.mem_hashes.mpr ⟨_, List.mem_cons_self, Script.hashKey_tieKey_mem _ List.mem_cons_self⟩)
    (UInt32.le_refl _) fun _ _ hahead => hahead)
  have hhead {front : ServerAddress} {back : List ServerAddress} (hmem : front ∈ Script.tied) :
      (front :: back).find? (hashKey Script.tieKey ∈ ·.hashes) = some front :=
    List.find?_cons_of_pos (decide_eq_true (Script.hashKey_tieKey_mem _ hmem))
  have hport : some (ServerAddress.mk "a" 854) = some old.address :=
    (hhead List.mem_cons_self).symm.trans hfirst
  have hport' : some (ServerAddress.mk "a" 1042) = some new.address :=
    (hhead (List.mem_cons_of_mem _ List.mem_cons_self)).symm.trans hfirst'
  refine ⟨hperm, hdistinct, hsome, before, after, old, new, hbefore, hafter, hold, hnew, ?_, ?_⟩
  · rw [← Option.some.inj hport]
  · rw [← Option.some.inj hport']

end Client

end CachePool
