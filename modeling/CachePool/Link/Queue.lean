/-
# The queues of a link

A command passes from `unsent` to `awaiting` when the last octet of its frame is
written, and leaves `awaiting` with its last reply.

* `Link.enqueue` appends a frame and its slot;
* `Link.wrote` accounts for octets a socket took;
* `Link.matchReply` gives a reply to the first slot that waits;
* `Link.abandon` gives up on slots: whole unsent frames are cut out, the others
  keep their place so that their replies can be told apart.
-/
import CachePool.Link.Basic
import CachePool.Wire.Request

namespace CachePool.Link

/-- Appends the frame of a request and its slot. -/
def enqueue (link : Link) (request : Request) (slot : Slot) : Link :=
  { link with
    outbound := link.outbound ++ request.frame
    unsent := link.unsent ++ [slot] }

/-! ## Writing -/

/-- Splits off the slots whose frames end within the first `written` octets; what
is left of these octets belongs to the first slot that stays. -/
def splitWritten (written : Nat) : List Slot → List Slot × Nat × List Slot
  | [] => ([], written, [])
  | slot :: rest =>
    if written < slot.frameLength then ([], written, slot :: rest)
    else
      let (sent, left, unsent) := splitWritten (written - slot.frameLength) rest
      (slot :: sent, left, unsent)

/-- No slot is lost, and their order stays. -/
theorem append_splitWritten (written : Nat) (slots : List Slot) :
    (splitWritten written slots).1 ++ (splitWritten written slots).2.2 = slots := by
  fun_induction splitWritten written slots <;> simp_all

/-- What is left of the octets is less than the frame of the first slot that stays. -/
theorem splitWritten_lt {written : Nat} {slots rest : List Slot} {slot : Slot}
    (stays : (splitWritten written slots).2.2 = slot :: rest) :
    (splitWritten written slots).2.1 < slot.frameLength := by
  fun_induction splitWritten written slots <;> simp_all

/-- The link after the first `count` octets were taken. -/
def wrote (link : Link) (count : Nat) : Link :=
  let taken := (link.outbound.take count).length
  let (sent, left, unsent) := splitWritten (link.headWritten + taken) link.unsent
  { link with
    outbound := link.outbound.drop count
    headWritten := left
    unsent := unsent
    awaiting := link.awaiting ++ sent }

/-- Octets taken are no longer queued. -/
@[simp] theorem outbound_wrote (link : Link) (count : Nat) :
    (link.wrote count).outbound = link.outbound.drop count := rfl

/-! ## Replies -/

/-- Gives a reply to the first slot that waits. The reply must carry the tag and
the opcode of that slot. -/
def matchReply (link : Link) (response : Response) : Except WireError (Link × List Finished) :=
  match link.awaiting with
  | [] => .error (.unsolicited response.tag)
  | slot :: rest =>
    if response.tag ≠ slot.tag then .error (.tagMismatch slot.tag response.tag)
    else if response.opcode ≠ slot.opcode then
      .error (.opcodeMismatch slot.opcode response.opcode)
    else
      match slot.accept response with
      | .more slot => .ok ({ link with awaiting := slot :: rest }, [])
      | .final result =>
        let finished : Finished := { server := link.server.index, slot, result }
        .ok ({ link with awaiting := rest }, if slot.isLive then [finished] else [])

/-- Gives replies in order, up to the first that does not fit. -/
def matchReplies (link : Link) : List Response → Link × List Finished × Option WireError
  | [] => (link, [], none)
  | response :: responses =>
    match link.matchReply response with
    | .error error => (link, [], some error)
    | .ok (link, finished) =>
      let (link, more, fault) := matchReplies link responses
      (link, finished ++ more, fault)

/-- Cuts the replies off what was received and matches them. -/
def decodeInbound (link : Link) : Link × List Finished × Option WireError :=
  let cut := Response.kind.split link.inbound
  let (link, finished, fault) := link.matchReplies (cut.frames.map (·.1))
  match fault with
  | some error => (link, finished, some error)
  | none => ({ link with inbound := cut.rest }, finished, cut.fault)

/-! ## Giving up -/

/-- What giving up on unsent slots leaves. -/
structure Sweep where
  /-- The slots given up on, as they were. -/
  dropped : List Slot
  kept : List Slot
  /-- The octets of the slots that stay. -/
  outbound : Bytes

/-- Gives up on the unsent slots that satisfy a condition. Their frames are cut
out of the octets, but for the first frame when `written` octets of it are already
on the wire: it is finished, and its slot abandoned. -/
def sweep (condition : Slot → Bool) (written : Nat) : List Slot → Bytes → Sweep
  | [], _ => { dropped := [], kept := [], outbound := [] }
  | slot :: rest, octets =>
    let length := slot.frameLength - written
    let frame := octets.take length
    let behind := sweep condition 0 rest (octets.drop length)
    if !slot.isLive || !condition slot then
      { behind with kept := slot :: behind.kept, outbound := frame ++ behind.outbound }
    else if 0 < written then
      { dropped := slot :: behind.dropped
        kept := { slot with abandoned := true } :: behind.kept
        outbound := frame ++ behind.outbound }
    else { behind with dropped := slot :: behind.dropped }

/-- A slot, abandoned if it is live and satisfies a condition. -/
def abandonIf (condition : Slot → Bool) (slot : Slot) : Slot :=
  if slot.isLive && condition slot then { slot with abandoned := true } else slot

/-- Gives up on the slots that satisfy a condition: the link without them, and the
slots as they were, unsent ones first. -/
def abandon (link : Link) (condition : Slot → Bool) : Link × List Slot :=
  let swept := sweep condition link.headWritten link.unsent link.outbound
  let given := link.awaiting.filter fun slot => slot.isLive && condition slot
  ({ link with
      outbound := swept.outbound
      unsent := swept.kept
      awaiting := link.awaiting.map (abandonIf condition) },
    swept.dropped ++ given)

end CachePool.Link
