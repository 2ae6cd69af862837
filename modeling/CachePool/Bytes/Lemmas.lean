/-
# Words read back

The two directions of a big-endian word are inverse to each other:

* `ofBigEndian_bigEndian` : writing and reading keeps a number modulo the width;
* `bigEndian_ofBigEndian` : reading and writing gives the octets back.
-/
import Mathlib.Algebra.Group.Nat.Defs
import CachePool.Bytes

namespace CachePool

/-- One more octet at the end shifts the number by one place. -/
theorem ofBigEndian_append_singleton (bytes : Bytes) (octet : UInt8) :
    ofBigEndian (bytes ++ [octet]) = ofBigEndian bytes * 256 + octet.toNat := by
  simp [ofBigEndian]

/-- Writing and reading a word keeps the value modulo the width of the word. -/
theorem ofBigEndian_bigEndian (count value : Nat) :
    ofBigEndian (bigEndian count value) = value % 256 ^ count := by
  induction count generalizing value with
  | zero => simp [bigEndian, ofBigEndian, Nat.mod_one]
  | succ count ih =>
    rw [bigEndian, ofBigEndian_append_singleton, ih]
    have split : value % 256 ^ (count + 1) = 256 * (value / 256 % 256 ^ count) + value % 256 := by
      rw [Nat.pow_succ, Nat.mul_comm, Nat.mod_mul, Nat.add_comm]
    have octet : (UInt8.ofNat value).toNat = value % 256 := by simp
    omega

/-- Reading octets and writing them at their width gives them back. -/
theorem bigEndian_ofBigEndian (bytes : Bytes) :
    bigEndian bytes.length (ofBigEndian bytes) = bytes := by
  suffices reversed : ∀ octets : Bytes,
      bigEndian octets.reverse.length (ofBigEndian octets.reverse) = octets.reverse by
    simpa using reversed bytes.reverse
  intro octets
  induction octets with
  | nil => rfl
  | cons octet octets ih =>
    have bound := octet.toNat_lt
    rw [List.reverse_cons, ofBigEndian_append_singleton, List.length_append,
      List.length_singleton, bigEndian]
    have high : (ofBigEndian octets.reverse * 256 + octet.toNat) / 256
        = ofBigEndian octets.reverse := by omega
    have low : UInt8.ofNat (ofBigEndian octets.reverse * 256 + octet.toNat) = octet := by
      apply UInt8.toNat_inj.mp
      simp only [UInt8.toNat_ofNat']
      omega
    rw [high, low, ih]

end CachePool
