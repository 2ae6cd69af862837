/-
# Configuration documents

A configuration as a JSON document.

* `Config.write` writes every field, in order, without white space;
* `Config.read` reads an object with any of the fields, each at most once, or an
  array of their values in order; absent fields have their defaults;
* `Config.ofDocument` also checks what it has read.
-/
import CachePool.Config.Basic
import CachePool.Text.JsonString

namespace CachePool

namespace Config

/-- The fields of a document. -/
inductive Field where
  | servers
  | connectTimeout
  | reconnectTimeout
  | deadTimeout
  | ioTimeout
  | buffering
  deriving DecidableEq

/-- The fields in their order. -/
def Field.all : List Field :=
  [.servers, .connectTimeout, .reconnectTimeout, .deadTimeout, .ioTimeout, .buffering]

/-- The name of a field. -/
def Field.name : Field → String
  | .servers => "servers"
  | .connectTimeout => "connect_timeout_ms"
  | .reconnectTimeout => "reconnect_timeout_ms"
  | .deadTimeout => "dead_timeout_ms"
  | .ioTimeout => "io_timeout_ms"
  | .buffering => "buffering"

/-! ## Writing -/

/-- Texts with a comma between each and the next. -/
def commaSeparated : List (List Char) → List Char
  | [] => []
  | [text] => text
  | text :: texts => text ++ ',' :: commaSeparated texts

/-- The value of a field. -/
def writeValue (config : Config) : Field → List Char
  | .servers =>
    '[' :: (commaSeparated (config.servers.map fun entry => JsonString.encode entry.toList) ++ [']'])
  | .connectTimeout => Decimal.digits config.connectTimeout.toNat
  | .reconnectTimeout => Decimal.digits config.reconnectTimeout.toNat
  | .deadTimeout => Decimal.digits config.deadTimeout.toNat
  | .ioTimeout => Decimal.digits config.ioTimeout.toNat
  | .buffering => if config.buffering then "true".toList else "false".toList

/-- The document of a configuration. -/
def write (config : Config) : List Char :=
  let member (field : Field) : List Char :=
    JsonString.encode field.name.toList ++ ':' :: config.writeValue field
  '{' :: (commaSeparated (Field.all.map member) ++ ['}'])

/-! ## Reading values -/

/-- The input without the white space of JSON at its front. -/
def skipBlank (input : List Char) : List Char :=
  input.dropWhile fun c => c = ' ' || c = '\n' || c = '\t' || c = '\r'

/-- A whole number of at most 64 bits, without sign and leading zeros. -/
def readNumber (input : List Char) : Option (UInt64 × List Char) :=
  let digits := input.takeWhile fun c => (Decimal.digit? c).isSome
  let rest := input.dropWhile fun c => (Decimal.digit? c).isSome
  if 1 < digits.length ∧ digits.head? = some '0' then none
  else
    match Decimal.parse (UInt64.size - 1) digits with
    | .ok number => some (UInt64.ofNat number, rest)
    | .error _ => none

/-- A truth value. -/
def readBool : List Char → Option (Bool × List Char)
  | 't' :: 'r' :: 'u' :: 'e' :: rest => some (true, rest)
  | 'f' :: 'a' :: 'l' :: 's' :: 'e' :: rest => some (false, rest)
  | _ => none

/-- White space at the front only shortens the input. -/
theorem length_skipBlank_le (input : List Char) : (skipBlank input).length ≤ input.length :=
  (List.dropWhile_sublist _).length_le

/-- String literals with commas between them, up to the closing bracket. -/
def readStrings (input : List Char) : Option (List String × List Char) :=
  match _literal : JsonString.read input with
  | none => none
  | some (text, rest) =>
    match _next : skipBlank rest with
    | ']' :: rest => some ([String.ofList text], rest)
    | ',' :: tail =>
      (readStrings (skipBlank tail)).map fun (texts, rest) => (String.ofList text :: texts, rest)
    | _ => none
termination_by input.length
decreasing_by
  have shorter := JsonString.length_lt_of_read _literal
  have before := length_skipBlank_le rest
  have after := length_skipBlank_le tail
  rw [_next, List.length_cons] at before
  omega

/-- An array of string literals. -/
def readStringArray : List Char → Option (List String × List Char)
  | '[' :: rest =>
    match skipBlank rest with
    | ']' :: rest => some ([], rest)
    | rest => readStrings rest
  | _ => none

/-! ## Reading documents -/

/-- Reads the value of a field into a configuration. -/
def readValue (config : Config) (field : Field) (input : List Char) :
    Option (Config × List Char) :=
  match field with
  | .servers =>
    (readStringArray input).map fun (value, rest) => ({ config with servers := value }, rest)
  | .connectTimeout =>
    (readNumber input).map fun (value, rest) => ({ config with connectTimeout := value }, rest)
  | .reconnectTimeout =>
    (readNumber input).map fun (value, rest) => ({ config with reconnectTimeout := value }, rest)
  | .deadTimeout =>
    (readNumber input).map fun (value, rest) => ({ config with deadTimeout := value }, rest)
  | .ioTimeout =>
    (readNumber input).map fun (value, rest) => ({ config with ioTimeout := value }, rest)
  | .buffering =>
    (readBool input).map fun (value, rest) => ({ config with buffering := value }, rest)

/-- The field of a name among those a document has not set yet. -/
def fieldNamed (missing : List Field) (name : List Char) : Option Field :=
  missing.find? fun field => field.name.toList = name

/-- Members of an object up to the closing brace; `missing` are the fields not set
yet. -/
def readMembers (missing : List Field) (config : Config) (input : List Char) :
    Option (Config × List Char) :=
  match JsonString.read input with
  | none => none
  | some (name, rest) =>
    match _named : fieldNamed missing name with
    | none => none
    | some field =>
      match skipBlank rest with
      | ':' :: rest =>
        match readValue config field (skipBlank rest) with
        | none => none
        | some (config, rest) =>
          match skipBlank rest with
          | '}' :: rest => some (config, rest)
          | ',' :: rest => readMembers (missing.erase field) config (skipBlank rest)
          | _ => none
      | _ => none
termination_by missing.length
decreasing_by
  have member := List.mem_of_find?_eq_some _named
  have shorter := List.length_erase_of_mem member
  have filled := List.length_pos_of_mem member
  omega

/-- Elements of an array up to the closing bracket, one for each field in order. -/
def readElements : List Field → Config → List Char → Option (Config × List Char)
  | [], _, _ => none
  | field :: fields, config, input =>
    match readValue config field input with
    | none => none
    | some (config, rest) =>
      match skipBlank rest with
      | ']' :: rest => some (config, rest)
      | ',' :: rest => readElements fields config (skipBlank rest)
      | _ => none

/-- An object or an array at the front of the input. -/
def readRecord : List Char → Option (Config × List Char)
  | '{' :: rest =>
    match skipBlank rest with
    | '}' :: rest => some (default, rest)
    | rest => readMembers Field.all default rest
  | '[' :: rest =>
    match skipBlank rest with
    | ']' :: rest => some (default, rest)
    | rest => readElements Field.all default rest
  | _ => none

/-- The configuration a document writes; only white space may stand around it. -/
def read (input : List Char) : Option Config :=
  match readRecord (skipBlank input) with
  | some (config, rest) => if skipBlank rest = [] then some config else none
  | none => none

/-- The configuration of a document, checked. -/
def ofDocument (document : String) : Except ConfigError Config :=
  match read document.toList with
  | none => .error .malformedDocument
  | some config =>
    match config.validate with
    | .error error => .error error
    | .ok () => .ok config

end Config

end CachePool
