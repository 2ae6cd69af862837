/-
# Owners of keys

The ring of a pool says which index a key belongs to, and the links say what has this index.
These are two lists, and a key finds its server only while both are those of one list of
addresses.  They always are: steps keep the servers of the links, and a new list replaces both.

Which server owns a key can then be said without the ring.  All points of the servers, a hash
and an index each, are put in lexicographic order; the owner is the index of the least point
at or after the hash of the key, or of the least point of all.

* `Owns` : the point that owns a hash;
* `Pool.Agrees`, `Client.Reaches.agrees` : the ring and the links are those of one list;
* `Client.route_owns` : where keys go.
-/
import Mathlib.Data.Prod.Lex
import Mathlib.Order.Bounds.Defs
import CachePool.Proofs.Routing
import CachePool.Proofs.Sweeping

namespace CachePool

/-! ## Least points -/

/-- The points of some servers, in lexicographic order: a hash for each of 160 numbered labels,
and the index of the server. -/
def pointsOf (servers : List Server) : Set (UInt32 ×ₗ Nat) :=
  {point | ∃ server ∈ servers, ∃ number < 160, point = toLex
    (hashKey (.ofString (server.address.text ++ "-" ++ Decimal.text number)), server.index)}

/-- A point owns a hash: it is the least point at or after the hash, or there is none such and
it is the least of all. -/
def Owns (servers : List Server) (hash : UInt32) (point : Point) : Prop :=
  IsLeast {other ∈ pointsOf servers | hash ≤ (ofLex other).1} (toLex point) ∨
    (∀ other ∈ pointsOf servers, (ofLex other).1 < hash) ∧
      IsLeast (pointsOf servers) (toLex point)

/-- The lexicographic order is the order of points on the ring. -/
theorem Point.toLex_le_iff {point other : Point} :
    toLex point ≤ toLex other ↔ point.precedes other = true := by
  rw [Prod.Lex.toLex_le_toLex, precedes_iff]

section Lists

variable {servers : List ServerAddress} {links : List Link}

/-- The servers of links that are those to a list, at their places. -/
theorem Lists.mem_servers_iff (hlists : Lists servers links) {server : Server} :
    server ∈ links.map (·.server) ↔ servers[server.index]? = some server.address := by
  rw [hlists, List.mem_map]
  constructor
  · rintro ⟨⟨address, index⟩, hentry, rfl⟩
    exact List.mem_zipIdx_iff_getElem?.mp hentry
  · intro haddress
    exact ⟨(server.address, server.index), List.mem_zipIdx_iff_getElem?.mpr haddress, rfl⟩

/-- The points of the servers of links are those on the ring of the list. -/
theorem Lists.mem_pointsOf_iff (hlists : Lists servers links) {point : Point} :
    toLex point ∈ pointsOf (links.map (·.server)) ↔ point ∈ (Ring.build servers).points := by
  have hlabel (address : ServerAddress) (number : Nat) :
      address.text ++ "-" ++ Decimal.text number = String.ofList (Ring.label address number) := by
    rw [Ring.label, ← List.singleton_append, ← List.append_assoc, String.ofList_append,
      String.ofList_append]
    rfl
  rw [Ring.mem_points_build]
  constructor
  · rintro ⟨server, hserver, number, hnumber, hpoint⟩
    obtain rfl := toLex.injective hpoint
    exact ⟨server.address, number, hlists.mem_servers_iff.mp hserver, hnumber,
      by rw [hlabel]⟩
  · rintro ⟨address, number, haddress, hnumber, hhash⟩
    refine ⟨⟨point.2, address⟩, hlists.mem_servers_iff.mpr haddress, number, hnumber, ?_⟩
    rw [hlabel, ← hhash]

/-- A hash is owned by the point of the ring on which it lands. -/
theorem Lists.owns_iff (hlists : Lists servers links) {hash : UInt32} {point : Point} :
    Owns (links.map (·.server)) hash point ↔
      point.Catches (Ring.build servers).points hash := by
  have hmem {other : UInt32 ×ₗ Nat} : other ∈ pointsOf (links.map (·.server)) ↔
      ofLex other ∈ (Ring.build servers).points := hlists.mem_pointsOf_iff
  rw [Point.catches_iff]
  constructor
  · rintro (⟨⟨hpoint, hreached⟩, hleast⟩ | ⟨hnone, hpoint, hleast⟩)
    · exact ⟨hmem.mp hpoint, .inl ⟨hreached, fun other hother hahead =>
        Point.toLex_le_iff.mp (hleast ⟨hmem.mpr hother, hahead⟩)⟩⟩
    · exact ⟨hmem.mp hpoint, .inr ⟨fun other hother =>
        UInt32.not_le.mpr (hnone (toLex other) (hmem.mpr hother)), fun other hother =>
        Point.toLex_le_iff.mp (hleast (hmem.mpr hother))⟩⟩
  · rintro ⟨hpoint, ⟨hreached, hleast⟩ | ⟨hnone, hleast⟩⟩
    · exact .inl ⟨⟨hmem.mpr hpoint, hreached⟩, fun other hother =>
        Point.toLex_le_iff.mpr (hleast _ (hmem.mp hother.1) hother.2)⟩
    · exact .inr ⟨fun other hother => UInt32.not_le.mp (hnone _ (hmem.mp hother)),
        hmem.mpr hpoint, fun other hother =>
        Point.toLex_le_iff.mpr (hleast _ (hmem.mp hother))⟩

end Lists

/-! ## Searching the ring -/

namespace Ring

/-- A place splits the points at a hash: those before it lie below the hash, the others do
not. -/
structure Splits (ring : Ring) (hash : UInt32) (place : Nat) : Prop where
  below : ∀ point ∈ ring.points.take place, point.1 < hash
  reached : ∀ point ∈ ring.points.drop place, hash ≤ point.1

/-- Points in order are split at every hash. -/
theorem exists_splits {points : List Point} (hash : UInt32)
    (hsorted : points.Pairwise (Point.precedes · · = true)) :
    ∃ place, Splits { points } hash place := by
  induction points with
  | nil => exact ⟨0, nofun, nofun⟩
  | cons point points ih =>
      rw [List.pairwise_cons] at hsorted
      by_cases hbelow : point.1 < hash
      · obtain ⟨place, hfront, hback⟩ := ih hsorted.2
        refine ⟨place + 1, fun other hother => ?_, hback⟩
        rcases List.mem_cons.mp hother with rfl | hother
        · exact hbelow
        · exact hfront other hother
      · rw [UInt32.not_lt] at hbelow
        refine ⟨0, nofun, fun other hother => ?_⟩
        rcases List.mem_cons.mp hother with rfl | hother
        · exact hbelow
        · exact Point.le_of_precedes hbelow (hsorted.1 other hother)

/-- The owner of a key is found where the points are split, or in front when none is left. -/
theorem owner?_of_splits {ring : Ring} {key : Bytes} {place : Nat}
    (hsplits : ring.Splits (hashKey key) place) :
    ring.owner? key = (ring.points[place]?.or ring.points.head?).map (·.2) := by
  have hfront : (ring.points.take place).find? (hashKey key ≤ ·.1) = none := by
    rw [List.find?_eq_none]
    intro point hmem
    simpa using hsplits.below point hmem
  have hback : (ring.points.drop place).find? (hashKey key ≤ ·.1) = ring.points[place]? := by
    rw [← List.head?_drop]
    cases hpoints : ring.points.drop place with
    | nil => rfl
    | cons point points =>
        have hreached : hashKey key ≤ point.1 := hsplits.reached point (by simp [hpoints])
        rw [List.find?_cons_of_pos (by simpa using hreached), List.head?_cons]
  have hfind : ring.points.find? (hashKey key ≤ ·.1) = ring.points[place]? := by
    conv_lhs => rw [← List.take_append_drop place ring.points]
    rw [List.find?_append, hfront, hback, Option.none_or]
  unfold owner?
  dsimp only
  rw [hfind]
  cases ring.points[place]? <;> rfl

end Ring

/-! ## The ring and the links -/

/-- The ring and the links of a pool are those of one list of servers. -/
structure Pool.Agrees (pool : Pool) (servers : List ServerAddress) : Prop where
  some : servers ≠ []
  ring : pool.ring = .build servers
  lists : Lists servers pool.links

/-- Links are placed as the list says whose ring is built. -/
theorem Pool.agrees_place {addresses : List ServerAddress} (hsome : addresses ≠ [])
    (existing : List Link) (token nextToken : Token) :
    Agrees { links := (place existing 0 token addresses).1, ring := .build addresses, nextToken }
      addresses where
  some := hsome
  ring := rfl
  lists := servers_place existing 0 token addresses

namespace Client

variable {ω : Type} [Network ω] {client after start : Client ω} {incidents trace : Trace}

/-- Steps keep the servers of the links, or replace them with the ring. -/
theorem Step.agrees (hstep : client.Step incidents after)
    (hagrees : ∃ servers, client.pool.Agrees servers) : ∃ servers, after.pool.Agrees servers := by
  obtain ⟨servers, hsome, hring, hlists⟩ := hagrees
  have hreplaced {front back : List Link} {link last : Link}
      (hlinks : client.pool.links = front ++ link :: back) (hserver : last.server = link.server) :
      Lists servers (front ++ last :: back) := by
    unfold Lists
    rw [← hlists, hlinks]
    simp [hserver]
  cases hstep with
  | move hmove =>
      cases hmove with
      | link hlinks hlink => exact ⟨servers, hsome, hring, hreplaced hlinks hlink.token.2.1⟩
      | waited => exact ⟨servers, hsome, hring, hlists⟩
      | noted => exact ⟨servers, hsome, hring, hlists⟩
  | queued hqueue =>
      obtain ⟨front, link, back, hlinks, -, -, -, rfl⟩ := queue_cases hqueue
      exact ⟨servers, hsome, hring, hreplaced hlinks rfl⟩
  | collected | emptied | adjusted => exact ⟨servers, hsome, hring, hlists⟩
  | placed hlisted => exact ⟨_, Pool.agrees_place hlisted ..⟩

/-- The ring and the links of a client are those of one list of servers. -/
theorem Reaches.agrees {net : ω} {config : Config} (hconfig : withConfig net config = .ok start)
    (hreach : start.Reaches trace client) : ∃ servers, client.pool.Agrees servers := by
  induction hreach with
  | start =>
      obtain ⟨-, addresses, -, hinstall⟩ := withConfig_installs hconfig
      obtain ⟨hsome, -, rfl⟩ := installServers_ok_iff.mp hinstall
      exact ⟨addresses, Pool.agrees_place hsome ..⟩
  | step _ hstep ih => exact hstep.agrees ih
  | elapsed net _ ih => exact ih

/-! ## Where keys go -/

/-- A request within the limits is queued on the link with the index, or this link is dead. -/
theorem queue_of_getElem? {server : Nat} {link : Link} {request : Request}
    (hlink : client.pool.links[server]? = some link) (hvalid : request.validate = .ok ())
    (expect : Expect) :
    client.queue server request expect = .error link.deadError ∨
      ∃ queued, client.queue server request expect
          = .ok (client.ledger.nextSeq, client.ledger.delivery, queued) ∧
        queued.pool.links = client.pool.links.set server
          (link.enqueue { request with tag := client.ledger.nextTag }
            (client.ledger.slotFor request expect)) := by
  unfold queue Pool.link
  rw [hlink]
  dsimp only
  split
  · exact .inl rfl
  · unfold Ledger.submit
    rw [hvalid]
    exact .inr ⟨_, rfl, rfl⟩

/-- **The least point owns a key, and its server gets the commands.**  Whatever a client has
been through, one point of its servers owns the hash of a key.  The route of the key is the
index of this point: an index of a link, which the ring gives for a single server, too, and
which a search finds that only knows where the points of the ring are split at the hash.  The
link there is the one to the server with this index; the caller is told this server, and what
is sent for the key is queued on this link, or refused because it is dead. -/
theorem route_owns {net : ω} {config : Config} (hconfig : withConfig net config = .ok start)
    (hreach : start.Reaches trace client) (key : Bytes) :
    ∃ point link,
      (∀ other, Owns client.servers (hashKey key) other ↔ other = point) ∧
      client.pool.route key = .ok point.2 ∧ point.2 < client.pool.links.length ∧
      client.pool.ring.owner? key = some point.2 ∧
      (∃ place, client.pool.ring.Splits (hashKey key) place ∧
        (client.pool.ring.points[place]?.or client.pool.ring.points.head?).map (·.2)
          = some point.2) ∧
      client.pool.links[point.2]? = some link ∧ link.server.index = point.2 ∧
      client.servers[point.2]? = some link.server ∧
      client.serverForKey key = .ok link.server ∧
      ∀ request expect timeout, request.key = key → request.validate = .ok () →
        client.dispatchKey request expect timeout
          = client.dispatch point.2 request expect timeout ∧
        (client.queue point.2 request expect = .error link.deadError ∨
          ∃ queued, client.queue point.2 request expect
              = .ok (client.ledger.nextSeq, client.ledger.delivery, queued) ∧
            queued.pool.links = client.pool.links.set point.2
              (link.enqueue { request with tag := client.ledger.nextTag }
                (client.ledger.slotFor request expect))) := by
  obtain ⟨addresses, hsome, hring, hlists⟩ := hreach.agrees hconfig
  obtain ⟨point, hcatches, howner⟩ := Ring.exists_catches hsome key
  have hindex : point.2 < addresses.length := by
    obtain ⟨address, number, haddress, -⟩ := Ring.mem_points_build.mp hcatches.mem
    exact (List.getElem?_eq_some_iff.mp haddress).1
  have hroute := Pool.route_of_owner hring hlists.length howner hindex
  obtain ⟨link, hlink, hplace⟩ := hlists.link hindex
  have hserver : client.servers[point.2]? = some link.server := by
    show (client.pool.links.map (·.server))[point.2]? = some link.server
    rw [List.getElem?_map, hlink]
    rfl
  obtain ⟨place, hsplits⟩ :=
    Ring.exists_splits (hashKey key) (Ring.pairwise_points_build addresses)
  refine ⟨point, link, fun other => ?_, hroute, hlists.length.symm ▸ hindex, hring ▸ howner,
    ⟨place, hring ▸ hsplits, ?_⟩, hlink, hplace, hserver, ?_, ?_⟩
  · show Owns (client.pool.links.map (·.server)) (hashKey key) other ↔ other = point
    rw [hlists.owns_iff]
    exact ⟨fun hother => hother.unique hcatches, fun hsame => hsame ▸ hcatches⟩
  · rw [hring]
    exact (Ring.owner?_of_splits hsplits).symm.trans howner
  · unfold serverForKey
    rw [hroute]
    dsimp only
    rw [show client.pool.servers[point.2]? = some link.server from hserver]
  · rintro request expect timeout rfl hvalid
    constructor
    · unfold dispatchKey
      rw [hvalid, hroute]
    · exact queue_of_getElem? hlink hvalid expect

/-- A client that was given two servers, and then in vain one server twice. -/
theorem route_owns_relisted : ∃ trace client,
    (Script.mk 0 [] []).opened.Reaches trace client ∧
    client.servers = [⟨0, Script.spare⟩, ⟨1, Script.home.address⟩] ∧
    ∀ key, ∃ point, (∀ other, Owns client.servers (hashKey key) other ↔ other = point) ∧
      client.pool.route key = .ok point.2 ∧ client.pool.ring.owner? key = some point.2 := by
  obtain ⟨first, -, hlisted⟩ := reaches_perform (@Reaches.start _ _ (Script.mk 0 [] []).opened)
    (.setServers (.joined "127.0.0.1:11212, 127.0.0.1"))
  obtain ⟨second, -, hrefused⟩ := reaches_perform hlisted (.setServers (.entries ["a", "a"]))
  refine ⟨_, _, hrefused, rfl, fun key => ?_⟩
  obtain ⟨point, link, howns, hroute, -, howner, -⟩ :=
    route_owns (Script.withConfig_opened _) hrefused key
  exact ⟨point, howns, hroute, howner⟩

end Client

end CachePool
