/-
# Slots

Every command that was sent or queued has a slot, which waits for its replies in
order.  A slot whose caller gave up is abandoned: its replies are read and
dropped.
-/
import CachePool.Client.Error
import CachePool.Client.Output
import CachePool.Text.Utf8
import CachePool.Wire.Response

namespace CachePool

/-- Who gets the result of a command. -/
inductive Delivery where
  /-- The call that waits for it. -/
  | direct
  /-- The next flush. -/
  | buffered
  deriving DecidableEq

/-- A command that waits to be written or answered. -/
structure Slot where
  /-- The place of the command in the order of issue. -/
  seq : Nat
  /-- The word its replies must carry. -/
  tag : UInt32
  opcode : Opcode
  key : Bytes
  expect : Expect
  delivery : Delivery
  /-- The length of its frame. -/
  frameLength : Nat
  /-- Whether its caller gave up. -/
  abandoned : Bool
  /-- The statistics received so far. -/
  stats : Stats
  deriving DecidableEq

/-- A command that reached its end. -/
structure Finished where
  /-- The index of its server. -/
  server : Nat
  slot : Slot
  result : Except ClientError Output

/-- What a reply means for the slot it answers. -/
inductive Acceptance where
  /-- More replies belong to the command. -/
  | more (slot : Slot)
  | final (result : Except ClientError Output)

namespace Slot

/-- Whether someone still waits for the command. -/
def isLive (slot : Slot) : Bool :=
  !slot.abandoned

/-- The item of a reply, with the fields that were asked for. -/
def itemOf (fields : GetFields) (response : Response) : Item where
  value := response.value
  flags := if fields.flags then some (response.flags?.getD 0) else none
  cas := if fields.cas then some response.cas else none

/-- Takes a reply. -/
def accept (slot : Slot) (response : Response) : Acceptance :=
  if !response.status.isSuccess then .final (.error (.ofStatus response.status))
  else
    match slot.expect with
    | .done => .final (.ok .done)
    | .stored => .final (.ok (.stored response.cas))
    | .item fields => .final (.ok (.item (itemOf fields response)))
    | .counter =>
      match response.counter with
      | .ok value => .final (.ok (.counter value))
      | .error error => .final (.error (.protocol error))
    | .stats =>
      if response.endsStats then .final (.ok (.stats slot.stats))
      else
        let name := Utf8.decodeLossy response.key
        let text := Utf8.decodeLossy response.value
        .more { slot with stats := slot.stats.insert name text }

end Slot

end CachePool
