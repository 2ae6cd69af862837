/-
# The ring of points

Keys are spread over servers by consistent hashing.  Every server puts 160 points
on a ring of 32-bit hashes; a key belongs to the server of the first point at or
after its own hash, or of the very first point when there is none.
-/
import CachePool.Bytes
import CachePool.Server.Address

namespace CachePool

/-- How many points a server puts on the ring. -/
def pointsPerServer : Nat := 160

/-- A hash of 32 bits: FNV-1a over the octets, then the finalizer of murmur3, so
that texts that differ at their end lie far apart. -/
def hashKey (bytes : Bytes) : UInt32 :=
  let folded := bytes.foldl (fun hash octet => (hash ^^^ octet.toUInt32) * 0x01000193) 0x811c9dc5
  let mixed := (folded ^^^ (folded >>> 16)) * 0x85ebca6b
  let mixed := (mixed ^^^ (mixed >>> 13)) * 0xc2b2ae35
  mixed ^^^ (mixed >>> 16)

/-- A point of the ring: its hash and the index of its server. -/
abbrev Point := UInt32 × Nat

namespace Point

/-- Points are ordered by hash, then by the index of the server. -/
def precedes (a b : Point) : Bool :=
  a.1 < b.1 || (a.1 == b.1 && a.2 ≤ b.2)

end Point

/-- The points of all servers, in order. -/
structure Ring where
  points : List Point

namespace Ring

/-- The text whose hash is a point of a server. -/
def label (address : ServerAddress) (number : Nat) : List Char :=
  address.characters ++ '-' :: Decimal.digits number

/-- The points of one server. -/
def serverPoints (address : ServerAddress) (index : Nat) : List Point :=
  (List.range pointsPerServer).map fun number =>
    (hashKey (.ofString (String.ofList (label address number))), index)

/-- The ring of a list of servers. -/
def build (servers : List ServerAddress) : Ring where
  points := (servers.zipIdx.flatMap fun (address, index) => serverPoints address index).mergeSort
    Point.precedes

/-- The ring without servers. -/
def empty : Ring where
  points := []

/-- The index of the server a key belongs to. -/
def owner? (ring : Ring) (key : Bytes) : Option Nat :=
  let hash := hashKey key
  match ring.points.find? (hash ≤ ·.1) with
  | some point => some point.2
  | none => ring.points.head?.map (·.2)

end Ring

end CachePool
