/-
# Frames in a stream

Reading whole frames from the front of a buffer.  A `FrameKind` says how a frame
of one direction opens and what its header and body mean; everything else is
common to both directions.

* `FrameKind.decode` looks for one frame at the front of a buffer;
* `FrameKind.split` cuts off frames until more data is needed or a frame is
  refused.
-/
import CachePool.Wire.Header

namespace CachePool

/-- What stands at the front of a buffer. -/
inductive Front (α : Type) where
  /-- A whole frame, and its length. -/
  | frame (value : α) (length : Nat)
  /-- Part of a frame. -/
  | incomplete

/-- The frames of one direction. -/
structure FrameKind (α : Type) where
  /-- The octet that opens a frame. -/
  magic : UInt8
  /-- The meaning of a frame: its header, opcode, extras, key and value. -/
  interpret : Header → Opcode → Bytes → Bytes → Bytes → Except WireError α

namespace FrameKind

variable {α : Type} (kind : FrameKind α)

/-- The frame at the front of a buffer. The lengths in the header are checked as
soon as the header is there, opcode and extras once the body is. -/
def decode (buffer : Bytes) : Except WireError (Front α) :=
  match Header.parse? buffer with
  | none => .ok .incomplete
  | some header =>
    match header.frameLength kind.magic with
    | .error error => .error error
    | .ok length =>
      if !Bytes.hasAtLeast length buffer then .ok .incomplete
      else
        let body := slice headerLength (length - headerLength) buffer
        match Opcode.ofCode? header.opcode with
        | none => .error (.unknownOpcode header.opcode)
        | some opcode =>
          let keyStart := header.extrasLength.toNat
          let valueStart := keyStart + header.keyLength.toNat
          match kind.interpret header opcode (body.take keyStart)
              (slice keyStart header.keyLength.toNat body) (body.drop valueStart) with
          | .error error => .error error
          | .ok value => .ok (.frame value length)

/-- A frame that was found is at least a header long. -/
theorem headerLength_le_of_decode {buffer : Bytes} {value : α} {length : Nat}
    (h : kind.decode buffer = .ok (.frame value length)) : headerLength ≤ length := by
  simp only [decode] at h
  repeat' split at h
  all_goals first
    | (cases h; exact Header.headerLength_le_of_frameLength ‹_›)
    | cases h

/-- A buffer that begins with a header is not empty. -/
theorem ne_nil_of_decode {buffer : Bytes} {value : α} {length : Nat}
    (h : kind.decode buffer = .ok (.frame value length)) : buffer ≠ [] := by
  rintro rfl
  have none_found : Header.parse? [] = none := rfl
  simp [decode, none_found] at h

/-- What splitting a buffer gives. -/
structure Cut (α : Type) where
  /-- The frames in order, each with its length. -/
  frames : List (α × Nat)
  /-- The octets behind the last whole frame. -/
  rest : Bytes
  /-- Why the rest begins with no frame, if it can never begin with one. -/
  fault : Option WireError

/-- Cuts frames off the front of a buffer until more data is needed or a frame is
refused. -/
def split (buffer : Bytes) : Cut α :=
  match _found : kind.decode buffer with
  | .error error => { frames := [], rest := buffer, fault := some error }
  | .ok .incomplete => { frames := [], rest := buffer, fault := none }
  | .ok (.frame value length) =>
    let cut := split (buffer.drop length)
    { cut with frames := (value, length) :: cut.frames }
termination_by buffer.length
decreasing_by
  have long := kind.headerLength_le_of_decode _found
  have filled := List.length_pos_iff.mpr (kind.ne_nil_of_decode _found)
  simp only [headerLength] at long
  simp only [List.length_drop]
  omega

end FrameKind

end CachePool
