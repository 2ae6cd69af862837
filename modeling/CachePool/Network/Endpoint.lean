/-
# Endpoints

Internet addresses in numbers, their texts and their reading.

* `IpAddress.parse?` reads dotted quads and colon groups, with one `::` and with
  the last two groups as a dotted quad;
* `IpAddress.text` is the canonical text: the longest run of zero groups, the
  first of several, becomes `::`;
* `Endpoint.text` adds the port.
-/
import CachePool.Text.Decimal

namespace CachePool

/-- An internet address. -/
inductive IpAddress where
  | v4 (a b c d : UInt8)
  | v6 (groups : Vector UInt16 8)
  deriving DecidableEq

/-- An internet address and a port. -/
structure Endpoint where
  address : IpAddress
  port : UInt16
  deriving DecidableEq

namespace IpAddress

/-! ## Writing -/

/-- The shortest hexadecimal digits of a group. -/
def groupDigits (group : UInt16) : List Char :=
  Nat.toDigits 16 group.toNat

/-- Groups with colons between them. -/
def joinGroups : List UInt16 → List Char
  | [] => []
  | [group] => groupDigits group
  | group :: groups => groupDigits group ++ ':' :: joinGroups groups

/-- The dotted quad of four octets. -/
def quad (a b c d : UInt8) : List Char :=
  Decimal.digits a.toNat ++ '.' :: (Decimal.digits b.toNat ++ '.' ::
    (Decimal.digits c.toNat ++ '.' :: Decimal.digits d.toNat))

/-- The start and the length of the longest run of zero groups, the first of
several; `index` is the place of the first group in the whole address. -/
def zeroRun (index : Nat) : List UInt16 → Nat × Nat
  | [] => (0, 0)
  | group :: groups =>
    let here := ((group :: groups).takeWhile (· = 0)).length
    let later := zeroRun (index + 1) groups
    if later.2 ≤ here then (index, here) else later

/-- The text of colon groups. -/
def groupsText (groups : List UInt16) : List Char :=
  let (start, length) := zeroRun 0 groups
  if 1 < length then
    joinGroups (groups.take start) ++ ':' :: ':' :: joinGroups (groups.drop (start + length))
  else joinGroups groups

/-- The text of an address. -/
def characters : IpAddress → List Char
  | v4 a b c d => quad a b c d
  | v6 groups =>
    match groups.toList with
    | [0, 0, 0, 0, 0, 0xffff, high, low] =>
      "::ffff:".toList ++ quad (high >>> 8).toUInt8 high.toUInt8 (low >>> 8).toUInt8 low.toUInt8
    | groups => groupsText groups

/-! ## Reading -/

/-- The digits at the front of an input and what follows them. -/
def spanDigits (isDigit : Char → Bool) (input : List Char) : List Char × List Char :=
  (input.takeWhile isDigit, input.dropWhile isDigit)

/-- An octet in decimal, without leading zeros. -/
def readOctet (input : List Char) : Option (UInt8 × List Char) :=
  let (digits, rest) := spanDigits (fun c => (Decimal.digit? c).isSome) input
  if 3 < digits.length ∨ (1 < digits.length ∧ digits.head? = some '0') then none
  else
    match Decimal.parse 255 digits with
    | .ok octet => some (UInt8.ofNat octet, rest)
    | .error _ => none

/-- An octet behind a point. -/
def readPointOctet : List Char → Option (UInt8 × List Char)
  | '.' :: rest => readOctet rest
  | _ => none

/-- A dotted quad. -/
def readQuad (input : List Char) : Option ((UInt8 × UInt8 × UInt8 × UInt8) × List Char) := do
  let (a, rest) ← readOctet input
  let (b, rest) ← readPointOctet rest
  let (c, rest) ← readPointOctet rest
  let (d, rest) ← readPointOctet rest
  return ((a, b, c, d), rest)

/-- The value of a hexadecimal digit. -/
def hexValue? (c : Char) : Option Nat :=
  if 'a' ≤ c ∧ c ≤ 'f' then some (c.toNat - 'a'.toNat + 10)
  else if 'A' ≤ c ∧ c ≤ 'F' then some (c.toNat - 'A'.toNat + 10)
  else Decimal.digit? c

/-- A group of one to four hexadecimal digits. -/
def readGroup (input : List Char) : Option (UInt16 × List Char) :=
  let (digits, rest) := spanDigits (fun c => (hexValue? c).isSome) input
  if digits = [] ∨ 4 < digits.length then none
  else
    let value := digits.foldl (fun value c => value * 16 + (hexValue? c).getD 0) 0
    some (UInt16.ofNat value, rest)

/-- What follows the colon before a group; the first group has none. -/
def afterColon (first : Bool) (input : List Char) : Option (List Char) :=
  if first then some input
  else
    match input with
    | ':' :: rest => some rest
    | _ => none

/-- Up to `limit` groups, whether they end in a dotted quad, and what follows. -/
def readGroups (first : Bool) : Nat → List Char → List UInt16 × Bool × List Char
  | 0, input => ([], false, input)
  | limit + 1, input =>
    match afterColon first input with
    | none => ([], false, input)
    | some tail =>
      match if limit = 0 then none else readQuad tail with
      | some ((a, b, c, d), rest) =>
        ([a.toUInt16 <<< 8 ||| b.toUInt16, c.toUInt16 <<< 8 ||| d.toUInt16], true, rest)
      | none =>
        match readGroup tail with
        | none => ([], false, input)
        | some (group, rest) =>
          let (groups, quad, rest) := readGroups false limit rest
          (group :: groups, quad, rest)

/-- The address of eight groups. -/
def ofGroups (groups : List UInt16) : IpAddress :=
  v6 (Vector.ofFn fun place => groups.getD place.val 0)

/-- An address in colon groups, which is the whole input. -/
def readColonGroups (input : List Char) : Option IpAddress :=
  match readGroups true 8 input with
  | (head, quad, rest) =>
    if head.length = 8 then if rest = [] then some (ofGroups head) else none
    else if quad then none
    else
      match rest with
      | ':' :: ':' :: rest =>
        match readGroups true (7 - head.length) rest with
        | (tail, _, []) =>
          some (ofGroups (head ++ List.replicate (8 - head.length - tail.length) 0 ++ tail))
        | _ => none
      | _ => none

/-- The address a text writes. -/
def parse? (text : List Char) : Option IpAddress :=
  match readQuad text with
  | some ((a, b, c, d), []) => some (v4 a b c d)
  | _ => readColonGroups text

end IpAddress

namespace Endpoint

/-- The text of an endpoint: an address in colon groups stands in brackets. -/
def text (endpoint : Endpoint) : String :=
  let port := Decimal.digits endpoint.port.toNat
  match endpoint.address with
  | .v4 .. => String.ofList (endpoint.address.characters ++ ':' :: port)
  | .v6 _ => String.ofList ('[' :: (endpoint.address.characters ++ ']' :: ':' :: port))

end Endpoint

end CachePool
