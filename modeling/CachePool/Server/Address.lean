/-
# Server addresses

A server of the pool: a host, as it was written, and a port.

* `ServerAddress.parse` reads one entry of a server list: `host`, `host:port`,
  `[host]`, `[host]:port`, or a bare host with several colons;
* `ServerAddress.text` writes an address, with brackets around a host that holds
  a colon.
-/
import CachePool.Text.Blank
import CachePool.Text.Decimal
import CachePool.Text.Quoted

namespace CachePool

/-- The port of a server whose entry names none. -/
def defaultPort : UInt16 := 11211

/-- Where a server is reached. -/
structure ServerAddress where
  host : String
  port : UInt16
  deriving DecidableEq

/-- Why an entry of a server list is refused. -/
inductive AddressError where
  | emptyEntry
  | unterminatedBracket (entry : List Char)
  | textAfterBracket (entry : List Char)
  | missingHost (entry : List Char)
  | invalidPort (port entry : List Char)
  deriving DecidableEq

/-- The wording of an address error. -/
def AddressError.message : AddressError → String
  | .emptyEntry => "empty server entry"
  | .unterminatedBracket entry => "unterminated '[' in " ++ String.ofList (Text.quoted entry)
  | .textAfterBracket entry => "unexpected text after ']' in " ++ String.ofList (Text.quoted entry)
  | .missingHost entry => "missing host in " ++ String.ofList (Text.quoted entry)
  | .invalidPort port entry =>
    "invalid port " ++ String.ofList (Text.quoted port) ++ " in "
      ++ String.ofList (Text.quoted entry)

namespace ServerAddress

/-! ## Writing -/

/-- The text of an address. -/
def characters (address : ServerAddress) : List Char :=
  let host := address.host.toList
  let port := Decimal.digits address.port.toNat
  if ':' ∈ host then '[' :: (host ++ ']' :: ':' :: port) else host ++ ':' :: port

/-- The text of an address. -/
def text (address : ServerAddress) : String :=
  String.ofList address.characters

/-! ## Reading -/

/-- A text before and after the first `separator` in it. -/
def splitFirst (separator : Char) : List Char → Option (List Char × List Char)
  | [] => none
  | c :: rest =>
    if c = separator then some ([], rest)
    else (splitFirst separator rest).map fun (before, after) => (c :: before, after)

/-- The host of an entry and the text of its port, if it has one. -/
def splitEntry (entry : List Char) : Except AddressError (List Char × Option (List Char)) :=
  match entry with
  | '[' :: rest =>
    match splitFirst ']' rest with
    | none => .error (.unterminatedBracket entry)
    | some (host, []) => .ok (host, none)
    | some (host, ':' :: port) => .ok (host, some port)
    | some _ => .error (.textAfterBracket entry)
  | _ =>
    if 1 < entry.count ':' then .ok (entry, none)
    else
      match splitFirst ':' entry with
      | some (host, port) => .ok (host, some port)
      | none => .ok (entry, none)

/-- A port number, which is not zero. -/
def readPort (port : List Char) : Option UInt16 :=
  match Decimal.parse (UInt16.size - 1) port with
  | .ok number => if number = 0 then none else some (UInt16.ofNat number)
  | .error _ => none

/-- The address an entry of a server list writes; white space around it is ignored. -/
def parse (text : List Char) : Except AddressError ServerAddress :=
  let entry := Text.trim text
  if entry = [] then .error .emptyEntry
  else
    match splitEntry entry with
    | .error error => .error error
    | .ok (host, port) =>
      if host = [] then .error (.missingHost entry)
      else
        match port with
        | none => .ok { host := String.ofList host, port := defaultPort }
        | some port =>
          match readPort port with
          | some number => .ok { host := String.ofList host, port := number }
          | none => .error (.invalidPort port entry)

end ServerAddress

end CachePool
