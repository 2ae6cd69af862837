/-
# Where keys go

A key belongs to the server of the first point of the ring at or after its hash, across the
top if there is none.  Of several points with one hash the first server has it.

The indexes of the servers change when others join or leave the list, but not their order, and
so neither does which of two points comes first.

* `Point.Catches`, `Point.catches_iff` : the point on which a key lands;
* `Ring.exists_catches` : the owner of a key is the server of this point;
* `Ring.owner?_sublist` : what others do to the list does not matter to a server that stays;
* `Client.minimal_remap` : so only the keys of servers that leave move.
-/
import Mathlib.Data.List.NodupEquivFin
import CachePool.Proofs.Relisting
import CachePool.Proofs.Script

namespace CachePool

/-! ## Points -/

/-- How far a point lies behind a hash, clockwise. -/
def Point.behind (hash : UInt32) (point : Point) : Nat :=
  (point.1 - hash).toNat

/-- A key with a hash lands on a point: no point lies closer behind the hash, and among those
with the hash of the point it has the first server. -/
structure Point.Catches (points : List Point) (hash : UInt32) (point : Point) : Prop where
  mem : point ∈ points
  nearest : ∀ other ∈ points, point.behind hash < other.behind hash ∨
    point.1 = other.1 ∧ point.2 ≤ other.2

namespace Point

variable {points : List Point} {hash : UInt32} {point other : Point}

/-- What it means that a point comes no later than another. -/
theorem precedes_iff :
    point.precedes other = true ↔ point.1 < other.1 ∨ point.1 = other.1 ∧ point.2 ≤ other.2 := by
  simp [precedes]

theorem precedes_trans (first second third : Point) (hleft : first.precedes second = true)
    (hright : second.precedes third = true) : first.precedes third = true := by
  simp only [precedes_iff, UInt32.lt_iff_toNat_lt, ← UInt32.toNat_inj] at *
  omega

theorem precedes_total (first second : Point) :
    (first.precedes second || second.precedes first) = true := by
  simp only [Bool.or_eq_true, precedes_iff, UInt32.lt_iff_toNat_lt, ← UInt32.toNat_inj]
  omega

/-- Points at or after a hash lie behind it by their difference, the others by a turn more. -/
theorem behind_eq (hash : UInt32) (point : Point) :
    point.behind hash = if hash ≤ point.1 then point.1.toNat - hash.toNat
      else point.1.toNat + 2 ^ 32 - hash.toNat := by
  have hpoint := point.1.toNat_lt
  have hhash := hash.toNat_lt
  rw [behind, UInt32.toNat_sub]
  simp only [UInt32.le_iff_toNat_le]
  split <;> omega

/-- A point that comes no later, on the same side of the hash, lies no farther behind it. -/
theorem nearer_of_precedes (hsame : hash ≤ point.1 ↔ hash ≤ other.1)
    (hprecedes : point.precedes other = true) :
    point.behind hash < other.behind hash ∨ point.1 = other.1 ∧ point.2 ≤ other.2 := by
  have hpoint := point.1.toNat_lt
  have hhash := hash.toNat_lt
  rcases precedes_iff.mp hprecedes with hless | hequal
  · rw [UInt32.lt_iff_toNat_lt] at hless
    rw [UInt32.le_iff_toNat_le, UInt32.le_iff_toNat_le] at hsame
    rw [behind_eq, behind_eq]
    simp only [UInt32.le_iff_toNat_le]
    split <;> split <;> omega
  · exact .inr hequal

/-- A point at or after a hash lies less far behind it than one before it. -/
theorem behind_lt (hreached : hash ≤ point.1) (hbelow : ¬hash ≤ other.1) :
    point.behind hash < other.behind hash := by
  have hpoint := point.1.toNat_lt
  have hhash := hash.toNat_lt
  rw [behind_eq, behind_eq, if_pos hreached, if_neg hbelow]
  rw [UInt32.le_iff_toNat_le] at hreached hbelow
  omega

/-- What comes after a point at or after a hash is at or after it, too. -/
theorem le_of_precedes (hreached : hash ≤ point.1) (hprecedes : point.precedes other = true) :
    hash ≤ other.1 := by
  rcases precedes_iff.mp hprecedes with hless | ⟨hequal, -⟩
  · rw [UInt32.le_iff_toNat_le] at hreached ⊢
    rw [UInt32.lt_iff_toNat_lt] at hless
    omega
  · rwa [← hequal]

/-- A key lands on the first point at or after its hash, or on the first of all if there is
none. -/
theorem catches_iff : point.Catches points hash ↔ point ∈ points ∧
    ((hash ≤ point.1 ∧ ∀ other ∈ points, hash ≤ other.1 → point.precedes other = true) ∨
      (∀ other ∈ points, ¬hash ≤ other.1) ∧ ∀ other ∈ points, point.precedes other = true) := by
  constructor
  · intro hcatches
    -- on one side of the hash, the nearer of two points comes first
    have hfirst : ∀ other ∈ points, (hash ≤ point.1 ↔ hash ≤ other.1) →
        point.precedes other = true := by
      intro other hother hsame
      refine precedes_iff.mpr ((hcatches.nearest other hother).imp_left fun hnearer => ?_)
      have hpoint := point.1.toNat_lt
      have hhash := hash.toNat_lt
      rw [behind_eq, behind_eq] at hnearer
      rw [UInt32.le_iff_toNat_le, UInt32.le_iff_toNat_le] at hsame
      simp only [UInt32.le_iff_toNat_le] at hnearer
      rw [UInt32.lt_iff_toNat_lt]
      split at hnearer <;> split at hnearer <;> omega
    refine ⟨hcatches.mem, ?_⟩
    by_cases hreached : hash ≤ point.1
    · exact .inl ⟨hreached, fun other hother hahead =>
        hfirst other hother ⟨fun _ => hahead, fun _ => hreached⟩⟩
    · -- a point at or after the hash would be nearer
      have hnone : ∀ other ∈ points, ¬hash ≤ other.1 := by
        intro other hother hahead
        rcases hcatches.nearest other hother with hnearer | ⟨hequal, -⟩
        · have hfarther : other.behind hash < point.behind hash := behind_lt hahead hreached
          omega
        · exact hreached (hequal ▸ hahead)
      exact .inr ⟨hnone, fun other hother =>
        hfirst other hother (iff_of_false hreached (hnone other hother))⟩
  · rintro ⟨hmem, ⟨hreached, hleast⟩ | ⟨hnone, hleast⟩⟩
    · refine ⟨hmem, fun other hother => ?_⟩
      by_cases hahead : hash ≤ other.1
      · exact nearer_of_precedes ⟨fun _ => hahead, fun _ => hreached⟩ (hleast other hother hahead)
      · exact .inl (behind_lt hreached hahead)
    · exact ⟨hmem, fun other hother => nearer_of_precedes
        (iff_of_false (hnone point hmem) (hnone other hother)) (hleast other hother)⟩

/-- A key lands on one point. -/
theorem Catches.unique (hpoint : point.Catches points hash) (hother : other.Catches points hash) :
    point = other := by
  have hleft := hpoint.nearest other hother.mem
  have hright := hother.nearest point hpoint.mem
  have hequal : point.1 = other.1 → point.behind hash = other.behind hash := by
    intro hhash
    rw [behind, behind, hhash]
  rcases hleft with hnearer | ⟨hhash, hindex⟩
  · rcases hright with hfarther | ⟨hhash, -⟩
    · omega
    · have := hequal hhash.symm
      omega
  · rcases hright with hfarther | ⟨-, hlast⟩
    · have := hequal hhash
      omega
    · exact Prod.ext hhash (Nat.le_antisymm hindex hlast)

end Point

/-! ## The ring -/

namespace Ring

/-- A point of the ring is the hash of a numbered label of the server with its index. -/
theorem mem_points_build {servers : List ServerAddress} {point : Point} :
    point ∈ (build servers).points ↔ ∃ address number, servers[point.2]? = some address ∧
      number < pointsPerServer ∧
      point.1 = hashKey (.ofString (String.ofList (label address number))) := by
  simp only [build, List.mem_mergeSort, List.mem_flatMap, serverPoints, List.mem_map,
    List.mem_range]
  constructor
  · rintro ⟨⟨address, index⟩, hmem, number, hnumber, rfl⟩
    exact ⟨address, number, List.mem_zipIdx_iff_getElem?.mp hmem, hnumber, rfl⟩
  · rintro ⟨address, number, haddress, hnumber, hhash⟩
    exact ⟨(address, point.2), List.mem_zipIdx_iff_getElem?.mpr haddress, number, hnumber,
      Prod.ext hhash.symm rfl⟩

/-- Every server has a point. -/
theorem points_ne_nil {servers : List ServerAddress} (hsome : servers ≠ []) :
    (build servers).points ≠ [] := by
  obtain ⟨first, others, rfl⟩ := List.exists_cons_of_ne_nil hsome
  have hpoint : (hashKey (.ofString (String.ofList (label first 0))), 0)
      ∈ (build (first :: others)).points :=
    mem_points_build.mpr ⟨first, 0, rfl, by decide, rfl⟩
  exact List.ne_nil_of_mem hpoint

/-- The points of a ring are in order. -/
theorem pairwise_points_build (servers : List ServerAddress) :
    (build servers).points.Pairwise (Point.precedes · · = true) :=
  List.pairwise_mergeSort Point.precedes_trans Point.precedes_total _

/-- **The owner of a key is the server of the point on which the key lands.** -/
theorem exists_catches {servers : List ServerAddress} (hsome : servers ≠ []) (key : Bytes) :
    ∃ point, Point.Catches (build servers).points (hashKey key) point ∧
      (build servers).owner? key = some point.2 := by
  have hsorted := pairwise_points_build servers
  unfold owner?
  dsimp only
  split
  · rename_i point hfind
    obtain ⟨hreached, front, back, hpoints, hfront⟩ := List.find?_eq_some_iff_append.mp hfind
    rw [decide_eq_true_iff] at hreached
    refine ⟨point, Point.catches_iff.mpr
      ⟨List.mem_of_find?_eq_some hfind, .inl ⟨hreached, ?_⟩⟩, rfl⟩
    intro other hother hahead
    rw [hpoints] at hother hsorted
    rcases List.mem_append.mp hother with hbefore | hbehind
    · exact absurd hahead (by simpa using hfront other hbefore)
    rcases List.mem_cons.mp hbehind with rfl | hbehind
    · exact Point.precedes_iff.mpr (.inr ⟨rfl, Nat.le_refl _⟩)
    · exact List.rel_of_pairwise_cons (List.pairwise_append.mp hsorted).2.1 hbehind
  · rename_i hfind
    -- the hash lies behind all points, and the first one is nearest across the top
    have hbelow : ∀ other ∈ (build servers).points, ¬hashKey key ≤ other.1 := by
      intro other hother
      simpa using List.find?_eq_none.mp hfind other hother
    cases hpoints : (build servers).points with
    | nil => exact absurd hpoints (points_ne_nil hsome)
    | cons point points =>
        rw [hpoints] at hsorted hbelow
        refine ⟨point, Point.catches_iff.mpr ⟨List.mem_cons_self, .inr ⟨hbelow, ?_⟩⟩, rfl⟩
        intro other hother
        rcases List.mem_cons.mp hother with rfl | hbehind
        · exact Point.precedes_iff.mpr (.inr ⟨rfl, Nat.le_refl _⟩)
        · exact List.rel_of_pairwise_cons hsorted hbehind

/-- Every key belongs to a server of the ring. -/
theorem exists_owner {servers : List ServerAddress} (hsome : servers ≠ []) (key : Bytes) :
    ∃ index, (build servers).owner? key = some index ∧ index < servers.length := by
  obtain ⟨point, hcatches, howner⟩ := exists_catches hsome key
  obtain ⟨address, number, haddress, -⟩ := mem_points_build.mp hcatches.mem
  exact ⟨point.2, howner, (List.getElem?_eq_some_iff.mp haddress).1⟩

/-- A key belongs to the server of the point on which it lands. -/
theorem owner?_of_catches {servers : List ServerAddress} {key : Bytes} {point : Point}
    (hcatches : point.Catches (build servers).points (hashKey key)) :
    (build servers).owner? key = some point.2 := by
  have hsome : servers ≠ [] := by
    rintro rfl
    obtain ⟨address, number, hnone, -⟩ := mem_points_build.mp hcatches.mem
    cases hnone
  obtain ⟨other, hother, howner⟩ := exists_catches hsome key
  rw [howner, hcatches.unique hother]

/-- **A key that belongs to a server belongs to it after others have left the list.** -/
theorem owner?_sublist {all kept : List ServerAddress} (hdistinct : all.Nodup)
    (hkept : kept.Sublist all) {key : Bytes} {owner : Nat} {address : ServerAddress}
    (howner : (build all).owner? key = some owner) (haddress : all[owner]? = some address)
    (hstays : address ∈ kept) :
    ∃ index, (build kept).owner? key = some index ∧ kept[index]? = some address := by
  -- positions in the shorter list are sent to those in the longer one, and their order stays
  obtain ⟨position, hposition⟩ := List.sublist_iff_exists_orderEmbedding_getElem?_eq.mp hkept
  obtain ⟨index, hindex⟩ := List.mem_iff_getElem?.mp hstays
  obtain ⟨⟨hash, server⟩, hcatches, hserver⟩ :=
    exists_catches (List.ne_nil_of_mem (List.mem_of_getElem? haddress)) key
  obtain rfl : owner = server := by
    rwa [howner, Option.some.injEq] at hserver
  have hhere : position index = owner := by
    have hequal : all[owner]? = all[position index]? := by
      rw [haddress, ← hposition, hindex]
    exact ((List.getElem?_inj (List.getElem?_eq_some_iff.mp haddress).1 hdistinct).mp hequal).symm
  refine ⟨index, @owner?_of_catches kept key (hash, index) ⟨?_, ?_⟩, hindex⟩
  · obtain ⟨other, number, hother, hnumber, hhash⟩ := mem_points_build.mp hcatches.mem
    obtain rfl : address = other := by
      rwa [haddress, Option.some.injEq] at hother
    exact mem_points_build.mpr ⟨address, number, hindex, hnumber, hhash⟩
  · intro other hmem
    obtain ⟨name, number, hname, hnumber, hhash⟩ := mem_points_build.mp hmem
    have hthere : (other.1, position other.2) ∈ (build all).points :=
      mem_points_build.mpr ⟨name, number, (hposition other.2).symm.trans hname, hnumber, hhash⟩
    refine (hcatches.nearest _ hthere).imp_right fun ⟨hequal, hle⟩ => ⟨hequal, ?_⟩
    rw [← hhere] at hle
    exact position.le_iff_le.mp hle

end Ring

/-! ## Clients -/

/-- The owner of a key is found in a pool of any size. -/
theorem Pool.route_of_owner {servers : List ServerAddress} {pool : Pool}
    (hring : pool.ring = .build servers) (hlength : pool.links.length = servers.length)
    {key : Bytes} {index : Nat} (howner : (Ring.build servers).owner? key = some index)
    (hindex : index < servers.length) : pool.route key = .ok index := by
  unfold route
  split
  · rename_i hnone
    rw [hnone] at hlength
    rw [← hlength] at hindex
    cases hindex
  · -- the only server owns every key, so the ring need not be asked
    rename_i hone
    rw [hone] at hlength
    rw [← hlength] at hindex
    rw [Nat.lt_one_iff.mp hindex]
  · rw [hring, howner]

namespace Client

variable {ω : Type} [Network ω] {addresses : List ServerAddress}

/-- A client with a list of servers finds the owner of every key. -/
theorem exists_serverForKey (client : Client ω) (closing : List Link) (hsome : addresses ≠ [])
    (key : Bytes) :
    ∃ index address, (Ring.build addresses).owner? key = some index ∧
      addresses[index]? = some address ∧
      (client.relist addresses closing).serverForKey key = .ok { index, address } := by
  have hservers : (client.relist addresses closing).pool.servers
      = addresses.zipIdx.map fun entry => { index := entry.2, address := entry.1 } :=
    Pool.servers_place _ _ _ _
  have hlength : (client.relist addresses closing).pool.links.length = addresses.length := by
    have hcount := congrArg List.length hservers
    simpa [Pool.servers] using hcount
  obtain ⟨index, howner, hindex⟩ := Ring.exists_owner hsome key
  refine ⟨index, addresses[index], howner, List.getElem?_eq_getElem hindex, ?_⟩
  unfold serverForKey
  rw [Pool.route_of_owner rfl hlength howner hindex]
  dsimp only
  rw [hservers]
  simp [hindex]

/-- **Only the keys of servers that leave move.**  Let a list of servers be installed, and a
shorter one in which others are missing but none has changed its place among the rest.  Every
key belongs to one server of each list; and if the one in the longer list is in the shorter
one, too, it is the one there. -/
theorem minimal_remap {all kept : List ServerAddress} (hdistinct : all.Nodup)
    (hkept : kept.Sublist all) (hsome : kept ≠ []) (first second : Client ω) :
    ∃ before after, first.installServers all = .ok before ∧
      second.installServers kept = .ok after ∧
      ∀ key, ∃ old new, before.serverForKey key = .ok old ∧ after.serverForKey key = .ok new ∧
        old.address ∈ all ∧ new.address ∈ kept ∧
        (old.address ∈ kept → new.address = old.address) := by
  have hall : all ≠ [] := by
    rintro rfl
    exact hsome (List.sublist_nil.mp hkept)
  refine ⟨_, _, installServers_eq hall hdistinct, installServers_eq hsome (hkept.nodup hdistinct),
    fun key => ?_⟩
  obtain ⟨owner, oldAddress, howner, hold, hbefore⟩ :=
    exists_serverForKey first (first.pool.leaving all) hall key
  obtain ⟨index, newAddress, hindex, hnew, hafter⟩ :=
    exists_serverForKey second (second.pool.leaving kept) hsome key
  refine ⟨_, _, hbefore, hafter, List.mem_of_getElem? hold, List.mem_of_getElem? hnew,
    fun hstays => ?_⟩
  obtain ⟨place, hplace, haddress⟩ := Ring.owner?_sublist hdistinct hkept howner hold hstays
  rw [hindex, Option.some.injEq] at hplace
  rw [hplace, haddress, Option.some.injEq] at hnew
  exact hnew.symm

/-- A second server leaves the list of a client again. -/
theorem minimal_remap_spare :
    [Script.home.address, Script.spare].Nodup ∧
      [Script.spare].Sublist [Script.home.address, Script.spare] ∧
      ∃ before after : Client Script,
        (Script.mk 0 [] []).opened.installServers [Script.home.address, Script.spare] = .ok before ∧
        (Script.mk 0 [] []).opened.installServers [Script.spare] = .ok after ∧
        ∀ key, ∃ old new, before.serverForKey key = .ok old ∧ after.serverForKey key = .ok new ∧
          old.address ∈ [Script.home.address, Script.spare] ∧ new.address ∈ [Script.spare] ∧
          (old.address ∈ [Script.spare] → new.address = old.address) := by
  have hdistinct : [Script.home.address, Script.spare].Nodup := by decide
  have hkept : [Script.spare].Sublist [Script.home.address, Script.spare] :=
    List.sublist_cons_self _ _
  exact ⟨hdistinct, hkept, minimal_remap hdistinct hkept (List.cons_ne_nil _ _) _ _⟩

end Client

end CachePool
