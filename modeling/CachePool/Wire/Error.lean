/-
# Wire errors

Every way in which a frame is refused: before it is sent, while it is read, and
when it does not fit the command it should answer.
-/
import CachePool.Text.Decimal
import CachePool.Text.Hexadecimal
import CachePool.Wire.Opcode

namespace CachePool

/-- Why a frame is refused. -/
inductive WireError where
  | emptyKey
  | keyTooLong (length : Nat)
  | valueTooLarge (length : Nat)
  | badMagic (magic : UInt8)
  | unknownOpcode (code : UInt8)
  | inconsistentLength (body fixed : Nat)
  | frameTooLarge (length : Nat)
  | invalidExtras (opcode : Opcode) (length : Nat)
  | badCounter (length : Nat)
  | unsolicited (tag : UInt32)
  | tagMismatch (expected got : UInt32)
  | unexpectedReply (opcode : Opcode)
  | opcodeMismatch (expected got : Opcode)
  deriving DecidableEq

/-- The wording of a wire error. -/
def WireError.message : WireError → String
  | .emptyKey => "key must not be empty"
  | .keyTooLong length =>
    "key length " ++ Decimal.text length ++ " exceeds maximum of "
      ++ Decimal.text maxKeyLength ++ " bytes"
  | .valueTooLarge length =>
    "value length " ++ Decimal.text length ++ " exceeds maximum of "
      ++ Decimal.text maxValueLength ++ " bytes"
  | .badMagic magic => "bad magic byte " ++ Hexadecimal.text 2 magic.toNat
  | .unknownOpcode code => "unknown opcode " ++ Hexadecimal.text 2 code.toNat
  | .inconsistentLength body fixed =>
    "body length " ++ Decimal.text body ++ " is smaller than key and extras ("
      ++ Decimal.text fixed ++ " bytes)"
  | .frameTooLarge length =>
    "frame body of " ++ Decimal.text length ++ " bytes exceeds the frame limit"
  | .invalidExtras opcode length =>
    "unexpected extras length " ++ Decimal.text length ++ " for opcode "
      ++ Hexadecimal.text 2 opcode.code.toNat
  | .badCounter length =>
    "counter response body has " ++ Decimal.text length ++ " bytes, expected 8"
  | .unsolicited tag => "unsolicited response with opaque " ++ Hexadecimal.text 1 tag.toNat
  | .tagMismatch expected got =>
    "response opaque " ++ Hexadecimal.text 1 got.toNat
      ++ " does not match in-flight request " ++ Hexadecimal.text 1 expected.toNat
  | .unexpectedReply opcode =>
    "reply to opcode " ++ Hexadecimal.text 2 opcode.code.toNat ++ " has an unexpected shape"
  | .opcodeMismatch expected got =>
    "response opcode " ++ Hexadecimal.text 2 got.code.toNat
      ++ " does not match request opcode " ++ Hexadecimal.text 2 expected.code.toNat

end CachePool
