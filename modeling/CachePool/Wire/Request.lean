/-
# Requests

A command addressed to one server: its constructors, the protocol limits, and
its frame in both directions.
-/
import CachePool.Wire.Frame

namespace CachePool

/-- The octet that opens a request. -/
def requestMagic : UInt8 := 0x80

/-! ## Extras -/

/-- The fixed fields of a request, by family of commands. -/
inductive Extras where
  | none
  | store (flags expiration : UInt32)
  | counter (delta initial : UInt64) (expiration : UInt32)
  deriving DecidableEq

namespace Extras

/-- The length of the extras on the wire. -/
def length : Extras → Nat
  | none => 0
  | store .. => 8
  | counter .. => 20

/-- The octets of the extras. -/
def encode : Extras → Bytes
  | none => []
  | store flags expiration => bigEndian 4 flags.toNat ++ bigEndian 4 expiration.toNat
  | counter delta initial expiration =>
    bigEndian 8 delta.toNat ++ bigEndian 8 initial.toNat ++ bigEndian 4 expiration.toNat

/-- The extras of a request, which must have the length its command wants. -/
def parse (opcode : Opcode) (bytes : Bytes) : Except WireError Extras :=
  let word start count := ofBigEndian (slice start count bytes)
  if bytes.length ≠ opcode.extrasLength then .error (.invalidExtras opcode bytes.length)
  else if bytes.length = 8 then
    .ok (store (UInt32.ofNat (word 0 4)) (UInt32.ofNat (word 4 4)))
  else if bytes.length = 20 then
    .ok (counter (UInt64.ofNat (word 0 8)) (UInt64.ofNat (word 8 8)) (UInt32.ofNat (word 16 4)))
  else .ok none

/-- The extras occupy the length they announce. -/
@[simp] theorem length_encode (extras : Extras) : extras.encode.length = extras.length := by
  cases extras <;> simp [encode, length]

end Extras

/-! ## Requests -/

/-- A command for one server. -/
structure Request where
  opcode : Opcode
  key : Bytes
  value : Bytes
  extras : Extras
  /-- The version the item must have; zero for any. -/
  cas : UInt64
  /-- The word the server copies into its responses. -/
  tag : UInt32
  deriving DecidableEq

namespace Request

/-- A request with a key, a value and extras, for any version. -/
def make (opcode : Opcode) (key value : Bytes) (extras : Extras) : Request :=
  { opcode, key, value, extras, cas := 0, tag := 0 }

/-- Fetches the item under a key. -/
def get (key : Bytes) : Request :=
  make .get key [] .none

/-- Stores a value under a key. -/
def set (key value : Bytes) (flags expiration : UInt32) : Request :=
  make .set key value (.store flags expiration)

/-- Stores a value under a key that is not there. -/
def add (key value : Bytes) (flags expiration : UInt32) : Request :=
  make .add key value (.store flags expiration)

/-- Stores a value under a key that is there. -/
def replace (key value : Bytes) (flags expiration : UInt32) : Request :=
  make .replace key value (.store flags expiration)

/-- Removes the item under a key. -/
def delete (key : Bytes) : Request :=
  make .delete key [] .none

/-- Adds to a counter. -/
def increment (key : Bytes) (delta initial : UInt64) (expiration : UInt32) : Request :=
  make .increment key [] (.counter delta initial expiration)

/-- Subtracts from a counter. -/
def decrement (key : Bytes) (delta initial : UInt64) (expiration : UInt32) : Request :=
  make .decrement key [] (.counter delta initial expiration)

/-- A round trip without effect. -/
def noop : Request :=
  make .noop [] [] .none

/-- Asks for the version of the server. -/
def version : Request :=
  make .version [] [] .none

/-- Asks for a group of statistics; the empty group is the general one. -/
def stat (group : Bytes) : Request :=
  make .stat group [] .none

/-- The first protocol limit a request violates. -/
def validate (request : Request) : Except WireError Unit :=
  if request.opcode.requiresKey ∧ request.key = [] then .error .emptyKey
  else if maxKeyLength < request.key.length then .error (.keyTooLong request.key.length)
  else if maxValueLength < request.value.length then
    .error (.valueTooLarge request.value.length)
  else if request.extras.length ≠ request.opcode.extrasLength then
    .error (.invalidExtras request.opcode request.extras.length)
  else .ok ()

/-- The length of the request's body. -/
def bodyLength (request : Request) : Nat :=
  request.extras.length + request.key.length + request.value.length

/-- The length of the request's frame. -/
def frameLength (request : Request) : Nat :=
  headerLength + request.bodyLength

/-- The header of the request's frame. -/
def header (request : Request) : Header where
  magic := requestMagic
  opcode := request.opcode.code
  keyLength := UInt16.ofNat request.key.length
  extrasLength := UInt8.ofNat request.extras.length
  dataType := 0
  selector := 0
  bodyLength := UInt32.ofNat request.bodyLength
  tag := request.tag
  cas := request.cas

/-- The octets of the request's frame. -/
def frame (request : Request) : Bytes :=
  request.header.encode ++ request.extras.encode ++ request.key ++ request.value

/-- Appends the request's frame to `out` and tells its length, if the request keeps the
limits; else `out` stays as it is. -/
def put (request : Request) (out : Bytes) : Except WireError Nat × Bytes :=
  match request.validate with
  | .error error => (.error error, out)
  | .ok () => (.ok request.frameLength, out ++ request.frame)

/-- The octets of `out` and the request's frame, if the request keeps the limits. -/
def encode (request : Request) (out : Bytes) : Except WireError Bytes :=
  match request.put out with
  | (.error error, _) => .error error
  | (.ok _, out) => .ok out

/-- Requests as frames. -/
def kind : FrameKind Request where
  magic := requestMagic
  interpret header opcode extras key value :=
    match Extras.parse opcode extras with
    | .error error => .error error
    | .ok extras => .ok { opcode, key, value, extras, cas := header.cas, tag := header.tag }

/-- The request at the front of a buffer. -/
def decode (buffer : Bytes) : Except WireError (Front Request) :=
  kind.decode buffer

/-- The frame of a request has the length it announces. -/
@[simp] theorem length_frame (request : Request) :
    request.frame.length = request.frameLength := by
  simp [frame, frameLength, bodyLength]
  omega

end Request

end CachePool
