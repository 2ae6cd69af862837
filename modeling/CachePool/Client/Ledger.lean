/-
# The ledger

What a client knows of its commands beside the links: whether commands are
buffered, the numbers of the next command, and the results nobody has collected.
-/
import CachePool.Link.Queue

namespace CachePool

/-- The outcome of a buffered command. -/
structure Completion where
  /-- The index of its server. -/
  server : Nat
  opcode : Opcode
  key : Bytes
  result : Except ClientError Output

/-- The commands of a client. -/
structure Ledger where
  /-- Whether commands wait for a flush. -/
  buffering : Bool
  /-- The place of the next command in the order of issue. -/
  nextSeq : Nat
  /-- The tag of the next command. -/
  nextTag : UInt32
  /-- Results for calls that wait, by place. -/
  direct : List (Nat × Except ClientError Output)
  /-- Outcomes for the next flush, by place. -/
  completed : List (Nat × Completion)

namespace Ledger

/-- A client without commands. -/
def empty (buffering : Bool) : Ledger where
  buffering := buffering
  nextSeq := 0
  nextTag := 0
  direct := []
  completed := []

/-- Who gets the result of the next command. -/
def delivery (ledger : Ledger) : Delivery :=
  if ledger.buffering then .buffered else .direct

/-- The slot of the next command. -/
def slotFor (ledger : Ledger) (request : Request) (expect : Expect) : Slot where
  seq := ledger.nextSeq
  tag := ledger.nextTag
  opcode := request.opcode
  key := request.key
  expect := expect
  delivery := ledger.delivery
  frameLength := request.frameLength
  abandoned := false
  stats := []

/-- Queues a command on a link, unless it violates a limit. -/
def submit (ledger : Ledger) (link : Link) (request : Request) (expect : Expect) :
    Except ClientError (Ledger × Link) :=
  match request.validate with
  | .error error => .error (.protocol error)
  | .ok () =>
    .ok ({ ledger with nextSeq := ledger.nextSeq + 1, nextTag := ledger.nextTag + 1 },
      link.enqueue { request with tag := ledger.nextTag } (ledger.slotFor request expect))

/-- Keeps the result of a command for whoever collects it. -/
def record (ledger : Ledger) (finished : Finished) : Ledger :=
  let slot := finished.slot
  match slot.delivery with
  | .direct => { ledger with direct := (slot.seq, finished.result) :: ledger.direct }
  | .buffered =>
    let completion : Completion :=
      { server := finished.server, opcode := slot.opcode, key := slot.key
        result := finished.result }
    { ledger with completed := ledger.completed ++ [(slot.seq, completion)] }

/-- Keeps results in order. -/
def absorb (ledger : Ledger) (finished : List Finished) : Ledger :=
  finished.foldl record ledger

/-- Whether the result of a direct command is there. -/
def hasDirect (ledger : Ledger) (seq : Nat) : Bool :=
  (ledger.direct.lookup seq).isSome

/-- Collects the result of a direct command. -/
def takeDirect (ledger : Ledger) (seq : Nat) : Option (Except ClientError Output) × Ledger :=
  (ledger.direct.lookup seq,
    { ledger with direct := ledger.direct.filter fun entry => entry.1 ≠ seq })

/-- Collects the outcomes of buffered commands in the order of issue. -/
def drain (ledger : Ledger) : List Completion × Ledger :=
  ((ledger.completed.mergeSort fun a b => a.1 ≤ b.1).map (·.2), { ledger with completed := [] })

/-- Forgets the outcomes nobody collected. -/
def forget (ledger : Ledger) : Ledger :=
  { ledger with completed := [] }

end Ledger

end CachePool
