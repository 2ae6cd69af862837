/-
# Hexadecimal numbers

The lower-case hexadecimal text of a number, with or without a least width, as
the error texts of the wire write words and octets.
-/

namespace CachePool.Hexadecimal

/-- The lower-case digits of a number, filled with zeros up to `width`. -/
def digits (width value : Nat) : List Char :=
  (Nat.toDigits 16 value).leftpad width '0'

/-- The text `0x…` of a number with at least `width` digits. -/
def text (width value : Nat) : String :=
  String.ofList ('0' :: 'x' :: digits width value)

end CachePool.Hexadecimal
