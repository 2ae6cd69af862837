/-
# Byte strings

Octet strings and the two ways the wire reads them: as big-endian words and as
the UTF-8 form of a text.

* `bigEndian` writes the low octets of a number, most significant first;
* `ofBigEndian` reads them back;
* `Bytes.ofString` is the UTF-8 form of a text.
-/

namespace CachePool

/-- A string of octets, as it travels on the wire. -/
abbrev Bytes := List UInt8

/-! ## Big-endian words -/

/-- The `count` lowest octets of `value`, most significant first. -/
def bigEndian : Nat → Nat → Bytes
  | 0, _ => []
  | count + 1, value => bigEndian count (value / 256) ++ [UInt8.ofNat value]

/-- The number whose big-endian octets are `bytes`. -/
def ofBigEndian (bytes : Bytes) : Nat :=
  bytes.foldl (fun value octet => value * 256 + octet.toNat) 0

/-- A word of `count` octets has `count` octets. -/
@[simp] theorem length_bigEndian (count value : Nat) :
    (bigEndian count value).length = count := by
  induction count generalizing value with
  | zero => rfl
  | succ count ih => simp [bigEndian, ih]

/-! ## Slices and texts -/

/-- The `count` octets of `bytes` that start at `start`. -/
def slice (start count : Nat) (bytes : Bytes) : Bytes :=
  (bytes.drop start).take count

/-- Whether there are at least so many octets, found without looking further. -/
def Bytes.hasAtLeast : Nat → Bytes → Bool
  | 0, _ => true
  | _ + 1, [] => false
  | count + 1, _ :: bytes => hasAtLeast count bytes

/-- Octets are counted right. -/
@[simp] theorem Bytes.hasAtLeast_iff (count : Nat) (bytes : Bytes) :
    Bytes.hasAtLeast count bytes = true ↔ count ≤ bytes.length := by
  induction count generalizing bytes with
  | zero => simp [hasAtLeast]
  | succ count ih => cases bytes <;> simp [hasAtLeast, ih]

/-- The UTF-8 form of a text. -/
def Bytes.ofString (text : String) : Bytes :=
  text.toList.flatMap String.utf8EncodeChar

end CachePool
