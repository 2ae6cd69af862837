/-
# Client configuration

The servers, the timeouts and the mode a client starts with.  Times are
milliseconds.
-/
import CachePool.Server.List

namespace CachePool

/-- The timeouts of a client. -/
structure Timeouts where
  /-- How long a connect may take. -/
  connect : Nat
  /-- The least time between two connects to one server. -/
  reconnect : Nat
  /-- The least time a server stays excluded after a failure. -/
  dead : Nat
  /-- How long a call may take that names no time of its own. -/
  io : Nat
  deriving DecidableEq

namespace Timeouts

/-- The timeouts of a client that is given none. -/
def default : Timeouts where
  connect := 1000
  reconnect := 10000
  dead := 10000
  io := 1000

/-- Refuses timeouts with which every connect or call would fail at once. -/
def validate (timeouts : Timeouts) : Except ConfigError Unit :=
  if timeouts.connect = 0 then .error .zeroConnectTimeout
  else if timeouts.io = 0 then .error .zeroIoTimeout
  else .ok ()

end Timeouts

/-- What a client starts with. -/
structure Config where
  servers : List String
  connectTimeout : UInt64
  reconnectTimeout : UInt64
  deadTimeout : UInt64
  ioTimeout : UInt64
  /-- Whether commands are collected for a flush. -/
  buffering : Bool
  deriving DecidableEq

namespace Config

/-- The configuration of a client that is given none: one local server. -/
def default : Config where
  servers := ["127.0.0.1:11211"]
  connectTimeout := 1000
  reconnectTimeout := 10000
  deadTimeout := 10000
  ioTimeout := 1000
  buffering := false

/-- The timeouts of a configuration. -/
def timeouts (config : Config) : Timeouts where
  connect := config.connectTimeout.toNat
  reconnect := config.reconnectTimeout.toNat
  dead := config.deadTimeout.toNat
  io := config.ioTimeout.toNat

/-- The addresses of a configuration. -/
def addresses (config : Config) : Except ConfigError (List ServerAddress) :=
  (ServerList.entries config.servers).parse

/-- Checks the timeouts, then the servers. -/
def validate (config : Config) : Except ConfigError Unit :=
  match config.timeouts.validate with
  | .error error => .error error
  | .ok () =>
    match config.addresses with
    | .error error => .error error
    | .ok _ => .ok ()

/-- The default configuration for a server list, each entry written anew. -/
def withServers (servers : ServerList) : Except ConfigError Config :=
  match servers.parse with
  | .error error => .error error
  | .ok addresses => .ok { default with servers := addresses.map ServerAddress.text }

end Config

end CachePool
