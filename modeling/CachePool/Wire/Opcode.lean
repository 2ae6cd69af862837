/-
# Opcodes and limits

The commands of the binary cache protocol with their codes, and the size limits
of keys, values and frame bodies.
-/

namespace CachePool

/-- The longest key a server accepts, in octets. -/
def maxKeyLength : Nat := 250

/-- The longest value a server accepts, in octets: one mebibyte. -/
def maxValueLength : Nat := 1024 * 1024

/-- The largest frame body a decoder waits for, in octets. -/
def maxBodyLength : Nat := 64 * 1024 * 1024

/-- The expiration with which a counter command does not create a missing key. -/
def neverCreate : UInt32 := 0xffffffff

/-- The commands a client can send. -/
inductive Opcode where
  | get
  | set
  | add
  | replace
  | delete
  | increment
  | decrement
  | noop
  | version
  | stat
  deriving DecidableEq

namespace Opcode

/-- The octet that stands for the command. -/
def code : Opcode → UInt8
  | get => 0x00
  | set => 0x01
  | add => 0x02
  | replace => 0x03
  | delete => 0x04
  | increment => 0x05
  | decrement => 0x06
  | noop => 0x0a
  | version => 0x0b
  | stat => 0x10

/-- All commands. -/
def all : List Opcode :=
  [get, set, add, replace, delete, increment, decrement, noop, version, stat]

/-- The command an octet stands for. -/
def ofCode? (code : UInt8) : Option Opcode :=
  all.find? (·.code = code)

/-- The name of the command. -/
def name : Opcode → String
  | get => "get"
  | set => "set"
  | add => "add"
  | replace => "replace"
  | delete => "delete"
  | increment => "increment"
  | decrement => "decrement"
  | noop => "noop"
  | version => "version"
  | stat => "stat"

/-- Whether a request of the command must carry a key. -/
def requiresKey : Opcode → Bool
  | get | set | add | replace | delete | increment | decrement => true
  | noop | version | stat => false

/-- The length of the extras in a request of the command. -/
def extrasLength : Opcode → Nat
  | set | add | replace => 8
  | increment | decrement => 20
  | get | delete | noop | version | stat => 0

/-- Every command is read back from its octet. -/
@[simp] theorem ofCode?_code (opcode : Opcode) : ofCode? opcode.code = some opcode := by
  cases opcode <;> rfl

/-- An octet that stands for a command is that command's octet. -/
theorem code_of_ofCode? {octet : UInt8} {opcode : Opcode}
    (h : ofCode? octet = some opcode) : opcode.code = octet := by
  simpa using List.find?_some h

end Opcode

end CachePool
