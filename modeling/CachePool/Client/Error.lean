/-
# Client errors

Everything a call can end with instead of its result.  Misses and conflicts are
errors of their own, so that no caller has to look into a text.
-/
import CachePool.Network.Basic
import CachePool.Server.List
import CachePool.Wire.Error
import CachePool.Wire.Status

namespace CachePool

/-- Why a call failed. -/
inductive ClientError where
  | notFound
  | keyExists
  | timeout
  | connection (address reason : String)
  | protocol (error : WireError)
  | config (error : ConfigError)
  | server (status : Status)
  | io (error : IoError)
  deriving DecidableEq

namespace ClientError

/-- The wording of a client error. -/
def message : ClientError → String
  | notFound => "key not found"
  | keyExists => "key exists"
  | timeout => "operation timed out"
  | connection address reason => "connection to " ++ address ++ " failed: " ++ reason
  | protocol error => "protocol error: " ++ error.message
  | config error => "invalid configuration: " ++ error.message
  | server status => "server error: " ++ status.message
  | io error => "io error: " ++ error.message

/-- The wording of the error behind an error. -/
def cause? : ClientError → Option String
  | protocol error => some error.message
  | io error => some error.message
  | _ => none

/-- Whether the same call may succeed later. -/
def isRetryable : ClientError → Bool
  | timeout | connection .. => true
  | _ => false

/-- Whether the key was not there. -/
def isNotFound (error : ClientError) : Bool :=
  error = notFound

/-- Whether the key was there, or its version another. -/
def isKeyExists (error : ClientError) : Bool :=
  error = keyExists

/-- The error a status without success stands for. -/
def ofStatus : Status → ClientError
  | .keyNotFound => notFound
  | .keyExists => keyExists
  | status => server status

end ClientError

end CachePool
