/-
# Decimal numbers

The decimal text of a natural number and the reading of unsigned numbers with a
largest value.

* `Decimal.text` is the shortest decimal text;
* `Decimal.parse` accepts one leading `+` and leading zeros, ASCII digits only,
  and says why it refuses.
-/

namespace CachePool

/-- Why a text is no number of the wanted width. -/
inductive NumberError where
  | empty
  | invalidDigit
  | tooLarge
  deriving DecidableEq

/-- The wording of a number error. -/
def NumberError.message : NumberError → String
  | .empty => "cannot parse integer from empty string"
  | .invalidDigit => "invalid digit found in string"
  | .tooLarge => "number too large to fit in target type"

namespace Decimal

/-- The decimal digits of a number, without leading zeros. -/
def digits (value : Nat) : List Char :=
  Nat.toDigits 10 value

/-- The decimal text of a number. -/
def text (value : Nat) : String :=
  String.ofList (digits value)

/-- The value of an ASCII digit. -/
def digit? (c : Char) : Option Nat :=
  if '0' ≤ c ∧ c ≤ '9' then some (c.toNat - '0'.toNat) else none

/-- Reads digits onto `value`; of a bad digit and a number over `limit`, the one
further left is reported. -/
def readDigits (limit value : Nat) : List Char → Except NumberError Nat
  | [] => .ok value
  | c :: rest =>
    match digit? c with
    | none => .error .invalidDigit
    | some d =>
      if limit < value * 10 + d then .error .tooLarge
      else readDigits limit (value * 10 + d) rest

/-- Reads an unsigned number up to `limit`, with at most one leading `+`. -/
def parse (limit : Nat) : List Char → Except NumberError Nat
  | [] => .error .empty
  | ['+'] => .error .invalidDigit
  | '+' :: rest => readDigits limit 0 rest
  | text => readDigits limit 0 text

end Decimal

end CachePool
