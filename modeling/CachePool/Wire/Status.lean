/-
# Statuses

The status word of a response.  The words without a name are kept as they are.
-/
import CachePool.Text.Hexadecimal

namespace CachePool

/-- The outcome a response reports. -/
inductive Status where
  | noError
  | keyNotFound
  | keyExists
  | valueTooLarge
  | invalidArguments
  | itemNotStored
  | nonNumeric
  | unknownCommand
  | outOfMemory
  | other (word : UInt16)
  deriving DecidableEq

namespace Status

/-- The word that stands for the status. -/
def word : Status → UInt16
  | noError => 0x0000
  | keyNotFound => 0x0001
  | keyExists => 0x0002
  | valueTooLarge => 0x0003
  | invalidArguments => 0x0004
  | itemNotStored => 0x0005
  | nonNumeric => 0x0006
  | unknownCommand => 0x0081
  | outOfMemory => 0x0082
  | other word => word

/-- The statuses with a name. -/
def named : List Status :=
  [noError, keyNotFound, keyExists, valueTooLarge, invalidArguments, itemNotStored,
    nonNumeric, unknownCommand, outOfMemory]

/-- The status a word stands for; a named status where there is one. -/
def ofWord (word : UInt16) : Status :=
  (named.find? (·.word = word)).getD (other word)

/-- Whether the command succeeded. -/
def isSuccess (status : Status) : Bool :=
  status = noError

/-- The wording of a status. -/
def message : Status → String
  | noError => "no error"
  | keyNotFound => "key not found"
  | keyExists => "key exists"
  | valueTooLarge => "value too large"
  | invalidArguments => "invalid arguments"
  | itemNotStored => "item not stored"
  | nonNumeric => "incr/decr on non-numeric value"
  | unknownCommand => "unknown command"
  | outOfMemory => "out of memory"
  | other word => "status " ++ Hexadecimal.text 4 word.toNat

/-- Reading a word loses nothing of it. -/
@[simp] theorem word_ofWord (word : UInt16) : (ofWord word).word = word := by
  unfold ofWord
  cases found : named.find? (·.word = word) with
  | none => rfl
  | some status => simpa using List.find?_some found

end Status

end CachePool
