/-
# JSON strings

Writing and reading the string literals of JSON.

* `JsonString.encode` escapes the quote, the backslash and the controls below
  U+0020, the latter by their letters where they have one;
* `JsonString.read` reads a literal up to its closing quote, with every escape of
  the format; a surrogate counts only as half of a pair.
-/
import CachePool.Text.Hexadecimal

namespace CachePool.JsonString

/-! ## Writing -/

/-- A character as it stands inside a literal. -/
def encodeChar (c : Char) : List Char :=
  if c = '"' then ['\\', '"']
  else if c = '\\' then ['\\', '\\']
  else if c = '\x08' then ['\\', 'b']
  else if c = '\x0c' then ['\\', 'f']
  else if c = '\n' then ['\\', 'n']
  else if c = '\r' then ['\\', 'r']
  else if c = '\t' then ['\\', 't']
  else if c.toNat < 0x20 then '\\' :: 'u' :: Hexadecimal.digits 4 c.toNat
  else [c]

/-- The literal of a text, with its quotes. -/
def encode (text : List Char) : List Char :=
  '"' :: (text.flatMap encodeChar ++ ['"'])

/-! ## Reading -/

/-- The value of a hexadecimal digit. -/
def hexDigit? (c : Char) : Option Nat :=
  if '0' ≤ c ∧ c ≤ '9' then some (c.toNat - '0'.toNat)
  else if 'a' ≤ c ∧ c ≤ 'f' then some (c.toNat - 'a'.toNat + 10)
  else if 'A' ≤ c ∧ c ≤ 'F' then some (c.toNat - 'A'.toNat + 10)
  else none

/-- The word written by four hexadecimal digits. -/
def hexWord? (a b c d : Char) : Option Nat := do
  let a ← hexDigit? a
  let b ← hexDigit? b
  let c ← hexDigit? c
  let d ← hexDigit? d
  return ((a * 16 + b) * 16 + c) * 16 + d

/-- The character of a one-letter escape. -/
def letterEscape? (c : Char) : Option Char :=
  if c = '"' then some '"'
  else if c = '\\' then some '\\'
  else if c = '/' then some '/'
  else if c = 'b' then some '\x08'
  else if c = 'f' then some '\x0c'
  else if c = 'n' then some '\n'
  else if c = 'r' then some '\r'
  else if c = 't' then some '\t'
  else none

/-- The character of a pair of surrogates. -/
def surrogatePair? (high low : Nat) : Option Char :=
  if 0xdc00 ≤ low ∧ low ≤ 0xdfff then
    some (Char.ofNat (0x10000 + (high - 0xd800) * 0x400 + (low - 0xdc00)))
  else none

/-- The body of a literal after its opening quote: the text and what follows the
closing quote. -/
def readBody : List Char → Option (List Char × List Char)
  | [] => none
  | '"' :: rest => some ([], rest)
  | '\\' :: 'u' :: a :: b :: c :: d :: rest =>
    match hexWord? a b c d with
    | none => none
    | some word =>
      if 0xd800 ≤ word ∧ word ≤ 0xdbff then
        match rest with
        | '\\' :: 'u' :: a :: b :: c :: d :: rest =>
          match hexWord? a b c d with
          | none => none
          | some low =>
            match surrogatePair? word low with
            | none => none
            | some char => (readBody rest).map fun (text, rest) => (char :: text, rest)
        | _ => none
      else if 0xdc00 ≤ word ∧ word ≤ 0xdfff then none
      else (readBody rest).map fun (text, rest) => (Char.ofNat word :: text, rest)
  | '\\' :: c :: rest =>
    match letterEscape? c with
    | none => none
    | some char => (readBody rest).map fun (text, rest) => (char :: text, rest)
  | c :: rest =>
    if c = '\\' ∨ c.toNat < 0x20 then none
    else (readBody rest).map fun (text, rest) => (c :: text, rest)

/-- A literal at the front of the input, and what follows it. -/
def read : List Char → Option (List Char × List Char)
  | '"' :: rest => readBody rest
  | _ => none

/-- The body of a literal leaves less than it was given. -/
theorem length_lt_of_readBody {input text rest : List Char}
    (h : readBody input = some (text, rest)) : rest.length < input.length := by
  fun_induction readBody input generalizing text rest
  case case2 => simp_all
  all_goals
    first
    | cases h
    | obtain ⟨⟨tail, left⟩, read, same⟩ := Option.map_eq_some_iff.mp h
      cases same
      rename_i ih
      have shorter := ih read
      simp only [List.length_cons]
      omega

/-- A literal leaves less than it was given. -/
theorem length_lt_of_read {input text rest : List Char}
    (h : read input = some (text, rest)) : rest.length < input.length := by
  unfold read at h
  split at h
  · have shorter := length_lt_of_readBody h
    simp only [List.length_cons]
    omega
  · cases h

end CachePool.JsonString
