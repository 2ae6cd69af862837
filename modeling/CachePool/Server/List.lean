/-
# Server lists

The servers of a pool as a caller names them: one text with commas between the
entries, or the entries one by one.
-/
import CachePool.Server.Address

namespace CachePool

/-- The servers of a pool, as a caller names them. -/
inductive ServerList where
  | joined (text : String)
  | entries (texts : List String)

/-- Why a configuration is refused. -/
inductive ConfigError where
  | noServerListed
  | address (error : AddressError)
  | duplicateServer (server : ServerAddress)
  | zeroConnectTimeout
  | zeroIoTimeout
  | noServers
  | indexOutOfRange (index servers : Nat)
  | malformedDocument
  deriving DecidableEq

/-- The wording of a configuration error. -/
def ConfigError.message : ConfigError → String
  | .noServerListed => "server list is empty"
  | .address error => error.message
  | .duplicateServer server => "duplicate server " ++ server.text
  | .zeroConnectTimeout => "connect timeout must be positive"
  | .zeroIoTimeout => "io timeout must be positive"
  | .noServers => "no servers configured"
  | .indexOutOfRange index servers =>
    "server index " ++ Decimal.text index ++ " out of range ("
      ++ Decimal.text servers ++ " servers)"
  | .malformedDocument => "malformed document"

namespace ServerList

/-- Reads every entry; the first refused one decides. -/
def parseEntries : List (List Char) → Except ConfigError (List ServerAddress)
  | [] => .ok []
  | entry :: rest =>
    match ServerAddress.parse entry with
    | .error error => .error (.address error)
    | .ok address =>
      match parseEntries rest with
      | .error error => .error error
      | .ok addresses => .ok (address :: addresses)

/-- The addresses of a server list, which names at least one. -/
def parse : ServerList → Except ConfigError (List ServerAddress)
  | .joined text =>
    if Text.trim text.toList = [] then .error .noServerListed
    else parseEntries (text.toList.splitOn ',')
  | .entries texts =>
    if texts = [] then .error .noServerListed
    else parseEntries (texts.map String.toList)

end ServerList

end CachePool
