/-
# Responses

A reply of a server: what it carries and its frame in both directions.
-/
import CachePool.Wire.Frame
import CachePool.Wire.Status

namespace CachePool

/-- The octet that opens a response. -/
def responseMagic : UInt8 := 0x81

/-- A reply of a server. -/
structure Response where
  opcode : Opcode
  status : Status
  tag : UInt32
  cas : UInt64
  extras : Bytes
  key : Bytes
  value : Bytes
  deriving DecidableEq

namespace Response

/-- An empty reply. -/
def make (opcode : Opcode) (status : Status) (tag : UInt32) : Response :=
  { opcode, status, tag, cas := 0, extras := [], key := [], value := [] }

/-- The extras that carry the flags of an item. -/
def flagsExtras (flags : UInt32) : Bytes :=
  bigEndian 4 flags.toNat

/-- The flags of an item, if the extras are long enough for them. -/
def flags? (response : Response) : Option UInt32 :=
  let front := response.extras.take 4
  if front.length < 4 then none else some (UInt32.ofNat (ofBigEndian front))

/-- The value of a counter. -/
def counter (response : Response) : Except WireError UInt64 :=
  if response.value.length ≠ 8 then .error (.badCounter response.value.length)
  else .ok (UInt64.ofNat (ofBigEndian response.value))

/-- Whether the reply closes a sequence of statistics. -/
def endsStats (response : Response) : Bool :=
  response.opcode = .stat ∧ response.key = []

/-- The length of the reply's body. -/
def bodyLength (response : Response) : Nat :=
  response.extras.length + response.key.length + response.value.length

/-- The length of the reply's frame. -/
def frameLength (response : Response) : Nat :=
  headerLength + response.bodyLength

/-- The header of the reply's frame; each length is cut to the width of its field. -/
def header (response : Response) : Header where
  magic := responseMagic
  opcode := response.opcode.code
  keyLength := UInt16.ofNat response.key.length
  extrasLength := UInt8.ofNat response.extras.length
  dataType := 0
  selector := response.status.word
  bodyLength := UInt32.ofNat response.bodyLength
  tag := response.tag
  cas := response.cas

/-- The octets of the reply's frame. -/
def frame (response : Response) : Bytes :=
  response.header.encode ++ response.extras ++ response.key ++ response.value

/-- Responses as frames. -/
def kind : FrameKind Response where
  magic := responseMagic
  interpret header opcode extras key value :=
    .ok {
      opcode, extras, key, value
      status := .ofWord header.selector
      tag := header.tag
      cas := header.cas }

/-- The response at the front of a buffer. -/
def decode (buffer : Bytes) : Except WireError (Front Response) :=
  kind.decode buffer

/-- The frame of a response has the length it announces. -/
@[simp] theorem length_frame (response : Response) :
    response.frame.length = response.frameLength := by
  simp [frame, frameLength, bodyLength]
  omega

end Response

end CachePool
