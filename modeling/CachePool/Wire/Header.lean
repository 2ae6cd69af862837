/-
# Frame headers

The 24 octets that open every frame, in both directions:

    magic 1 | opcode 1 | key length 2 | extras length 1 | data type 1 | selector 2
    body length 4 | tag 4 | cas 8

The selector is a partition in requests and a status word in responses.  The tag
is the word a server copies from a request into its responses.
-/
import CachePool.Bytes
import CachePool.Wire.Error

namespace CachePool

/-- The length of a frame header, in octets. -/
def headerLength : Nat := 24

/-- The header of a frame. -/
structure Header where
  magic : UInt8
  opcode : UInt8
  keyLength : UInt16
  extrasLength : UInt8
  dataType : UInt8
  selector : UInt16
  bodyLength : UInt32
  tag : UInt32
  cas : UInt64
  deriving DecidableEq

namespace Header

/-- The header at the front of the octets, if there are enough of them. -/
def parse? (bytes : Bytes) : Option Header :=
  let front := bytes.take headerLength
  if front.length < headerLength then none
  else
    let word start count := ofBigEndian (slice start count front)
    some {
      magic := UInt8.ofNat (word 0 1)
      opcode := UInt8.ofNat (word 1 1)
      keyLength := UInt16.ofNat (word 2 2)
      extrasLength := UInt8.ofNat (word 4 1)
      dataType := UInt8.ofNat (word 5 1)
      selector := UInt16.ofNat (word 6 2)
      bodyLength := UInt32.ofNat (word 8 4)
      tag := UInt32.ofNat (word 12 4)
      cas := UInt64.ofNat (word 16 8) }

/-- The octets of a header. -/
def encode (header : Header) : Bytes :=
  bigEndian 1 header.magic.toNat ++ bigEndian 1 header.opcode.toNat
    ++ bigEndian 2 header.keyLength.toNat ++ bigEndian 1 header.extrasLength.toNat
    ++ bigEndian 1 header.dataType.toNat ++ bigEndian 2 header.selector.toNat
    ++ bigEndian 4 header.bodyLength.toNat ++ bigEndian 4 header.tag.toNat
    ++ bigEndian 8 header.cas.toNat

/-- The length of the whole frame a header announces, if the header is one of the
wanted kind and its lengths agree. -/
def frameLength (header : Header) (magic : UInt8) : Except WireError Nat :=
  let body := header.bodyLength.toNat
  let fixed := header.keyLength.toNat + header.extrasLength.toNat
  if header.magic ≠ magic then .error (.badMagic header.magic)
  else if body < fixed then .error (.inconsistentLength body fixed)
  else if maxBodyLength < body then .error (.frameTooLarge body)
  else .ok (headerLength + body)

/-- A header has 24 octets. -/
@[simp] theorem length_encode (header : Header) : header.encode.length = headerLength := by
  simp [encode, headerLength]

/-- A frame is at least as long as its header. -/
theorem headerLength_le_of_frameLength {header : Header} {magic : UInt8} {length : Nat}
    (h : header.frameLength magic = .ok length) : headerLength ≤ length := by
  simp only [frameLength] at h
  repeat' split at h
  all_goals cases h
  exact Nat.le_add_right _ _

end Header

end CachePool
