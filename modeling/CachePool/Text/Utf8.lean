/-
# Reading UTF-8

Octets are cut into units: each unit is a character or the longest beginning of
a character that the following octet breaks off.

* `Utf8.decode?` accepts octets whose units are all characters;
* `Utf8.decodeLossy` shows every broken unit as U+FFFD.
-/
import CachePool.Bytes

namespace CachePool.Utf8

/-- Whether the octet continues a character. -/
def isContinuation (octet : UInt8) : Bool :=
  0x80 ≤ octet && octet ≤ 0xbf

/-- Whether `second` may follow the first octet `first` of a three-octet character:
no character has two forms, and surrogates have none. -/
def startsTriple (first second : UInt8) : Bool :=
  if first = 0xe0 then 0xa0 ≤ second && second ≤ 0xbf
  else if first = 0xed then 0x80 ≤ second && second ≤ 0x9f
  else isContinuation second

/-- Whether `second` may follow the first octet `first` of a four-octet character. -/
def startsQuadruple (first second : UInt8) : Bool :=
  if first = 0xf0 then 0x90 ≤ second && second ≤ 0xbf
  else if first = 0xf4 then 0x80 ≤ second && second ≤ 0x8f
  else isContinuation second

/-- The six low bits of a continuation octet. -/
def payload (octet : UInt8) : Nat :=
  octet.toNat % 64

/-- The unit that begins with `first`, and how many octets of `rest` belong to it;
`none` is a broken unit. -/
def unit (first : UInt8) (rest : Bytes) : Option Char × Nat :=
  if first < 0x80 then (some (Char.ofNat first.toNat), 0)
  else if 0xc2 ≤ first ∧ first ≤ 0xdf then
    match rest with
    | second :: _ =>
      if isContinuation second then
        (some (Char.ofNat (first.toNat % 32 * 64 + payload second)), 1)
      else (none, 0)
    | [] => (none, 0)
  else if 0xe0 ≤ first ∧ first ≤ 0xef then
    match rest with
    | second :: third :: _ =>
      if startsTriple first second then
        if isContinuation third then
          (some (Char.ofNat ((first.toNat % 16 * 64 + payload second) * 64 + payload third)), 2)
        else (none, 1)
      else (none, 0)
    | [second] => if startsTriple first second then (none, 1) else (none, 0)
    | [] => (none, 0)
  else if 0xf0 ≤ first ∧ first ≤ 0xf4 then
    match rest with
    | second :: third :: fourth :: _ =>
      if startsQuadruple first second then
        if isContinuation third then
          if isContinuation fourth then
            (some (Char.ofNat (((first.toNat % 8 * 64 + payload second) * 64
              + payload third) * 64 + payload fourth)), 3)
          else (none, 2)
        else (none, 1)
      else (none, 0)
    | [second, third] =>
      if startsQuadruple first second then
        if isContinuation third then (none, 2) else (none, 1)
      else (none, 0)
    | [second] => if startsQuadruple first second then (none, 1) else (none, 0)
    | [] => (none, 0)
  else (none, 0)

/-- The units of a string of octets. -/
def units : Bytes → List (Option Char)
  | [] => []
  | first :: rest =>
    let (char, more) := unit first rest
    char :: units (rest.drop more)
termination_by bytes => bytes.length
decreasing_by simp only [List.length_drop, List.length_cons]; omega

/-- The text whose UTF-8 form the octets are, if there is one. -/
def decode? (bytes : Bytes) : Option (List Char) :=
  (units bytes).mapM id

/-- The octets as a text, with U+FFFD for each broken unit. -/
def decodeLossy (bytes : Bytes) : String :=
  String.ofList ((units bytes).map (·.getD '\ufffd'))

end CachePool.Utf8
