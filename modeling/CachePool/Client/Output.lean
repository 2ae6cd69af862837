/-
# Results of commands

What a finished command gives, and what a command expects of its reply.
-/
import CachePool.Bytes

namespace CachePool

/-- Which fields of an item a fetch returns beside its value. -/
structure GetFields where
  flags : Bool
  cas : Bool
  deriving DecidableEq

/-- A fetched item; the fields that were not asked for are absent. -/
structure Item where
  value : Bytes
  flags : Option UInt32
  cas : Option UInt64
  deriving DecidableEq

/-- Named texts in the order of their names, each name once. -/
abbrev Stats := List (String × String)

/-- Puts a text under a name, in place of the one there. -/
def Stats.insert (stats : Stats) (name text : String) : Stats :=
  match stats with
  | [] => [(name, text)]
  | (other, old) :: rest =>
    if name = other then (name, text) :: rest
    else if name < other then (name, text) :: (other, old) :: rest
    else (other, old) :: Stats.insert rest name text

/-- The result of a command. -/
inductive Output where
  | done
  | stored (cas : UInt64)
  | item (item : Item)
  | counter (value : UInt64)
  | stats (stats : Stats)
  deriving DecidableEq

/-- How the reply to a command is read. -/
inductive Expect where
  | done
  | stored
  | item (fields : GetFields)
  | counter
  | stats
  deriving DecidableEq

end CachePool
