/-
# Streams in chunks

A stream is cut into the same frames whether it is looked at as a whole or chunk by chunk
while it arrives.  The lengths in a header are checked before the body is there, and the
opcode and the extras only behind it; but neither a frame nor a refusal that was found ever
changes, so it does not matter where the chunks end.

* `Bytes.range?` : octets of a string, which must all lie within it;
* `Request.decodeWithin_eq`, `Response.decodeWithin_eq` : no range leaves its buffer;
* `FrameKind.feed` : one more chunk of a stream;
* `FrameKind.Seamless` : a stream may be cut anywhere;
* `chunks_unseen` : so may the streams of both directions.
-/
import CachePool.Proofs.Codec

namespace CachePool

/-! ## Ranges within a buffer -/

/-- The octets from `start` to before `stop`, if all of them are there. -/
def Bytes.range? (bytes : Bytes) (start stop : Nat) : Option Bytes :=
  if start ≤ stop ∧ stop ≤ bytes.length then some (slice start (stop - start) bytes) else none

/-- The number in the octets from `start` to before `stop`, if all of them are there. -/
def Bytes.word? (bytes : Bytes) (start stop : Nat) : Option Nat :=
  (bytes.range? start stop).map ofBigEndian

theorem Bytes.range?_eq {bytes : Bytes} {start stop : Nat} (hstart : start ≤ stop)
    (hstop : stop ≤ bytes.length) :
    bytes.range? start stop = some (slice start (stop - start) bytes) :=
  if_pos ⟨hstart, hstop⟩

theorem Bytes.word?_eq {bytes : Bytes} {start stop : Nat} (hstart : start ≤ stop)
    (hstop : stop ≤ bytes.length) :
    bytes.word? start stop = some (ofBigEndian (slice start (stop - start) bytes)) := by
  rw [word?, range?_eq hstart hstop]
  rfl

/-- A slice of a front is a slice of the whole. -/
theorem slice_take {start count length : Nat} (hinside : start + count ≤ length) (bytes : Bytes) :
    slice start count (bytes.take length) = slice start count bytes := by
  unfold slice
  rw [List.drop_take, List.take_take, Nat.min_eq_left (by omega)]

/-- The header at the front of the octets, read field by field: nothing at all, if a field
does not lie within them. -/
def Header.parseWithin (bytes : Bytes) : Option (Option Header) :=
  if bytes.length < headerLength then some none
  else do
    let magic ← bytes.word? 0 1
    let opcode ← bytes.word? 1 2
    let keyLength ← bytes.word? 2 4
    let extrasLength ← bytes.word? 4 5
    let dataType ← bytes.word? 5 6
    let selector ← bytes.word? 6 8
    let bodyLength ← bytes.word? 8 12
    let tag ← bytes.word? 12 16
    let cas ← bytes.word? 16 24
    return some {
      magic := UInt8.ofNat magic
      opcode := UInt8.ofNat opcode
      keyLength := UInt16.ofNat keyLength
      extrasLength := UInt8.ofNat extrasLength
      dataType := UInt8.ofNat dataType
      selector := UInt16.ofNat selector
      bodyLength := UInt32.ofNat bodyLength
      tag := UInt32.ofNat tag
      cas := UInt64.ofNat cas }

/-- **Every field of a header lies within its octets.** -/
theorem Header.parseWithin_eq (bytes : Bytes) : parseWithin bytes = some (parse? bytes) := by
  unfold parseWithin
  split
  · rename_i hshort
    rw [parse?_eq_none_iff.mpr hshort]
  · rename_i hlong
    have hfront : 24 ≤ bytes.length := Nat.not_lt.mp hlong
    have hword (start stop : Nat) (hstart : start ≤ stop) (hstop : stop ≤ 24) :
        bytes.word? start stop
          = some (ofBigEndian (slice start (stop - start) (bytes.take headerLength))) := by
      rw [slice_take (by rw [headerLength]; omega)]
      exact Bytes.word?_eq hstart (Nat.le_trans hstop hfront)
    unfold parse?
    dsimp only
    -- what is found in the buffer is what is found in the octets of the header alone
    rw [if_neg (by rw [List.length_take]; omega), hword 0 1 (by decide) (by decide),
      hword 1 2 (by decide) (by decide), hword 2 4 (by decide) (by decide),
      hword 4 5 (by decide) (by decide), hword 5 6 (by decide) (by decide),
      hword 6 8 (by decide) (by decide), hword 8 12 (by decide) (by decide),
      hword 12 16 (by decide) (by decide), hword 16 24 (by decide) (by decide)]
    rfl

/-- The extras of a request, read field by field. -/
def Extras.parseWithin (opcode : Opcode) (bytes : Bytes) : Option (Except WireError Extras) :=
  if bytes.length ≠ opcode.extrasLength then some (.error (.invalidExtras opcode bytes.length))
  else if bytes.length = 8 then do
    let flags ← bytes.word? 0 4
    let expiration ← bytes.word? 4 8
    return .ok (store (UInt32.ofNat flags) (UInt32.ofNat expiration))
  else if bytes.length = 20 then do
    let delta ← bytes.word? 0 8
    let initial ← bytes.word? 8 16
    let expiration ← bytes.word? 16 20
    return .ok (counter (UInt64.ofNat delta) (UInt64.ofNat initial) (UInt32.ofNat expiration))
  else some (.ok none)

/-- **Every field of the extras lies within their octets.** -/
theorem Extras.parseWithin_eq (opcode : Opcode) (bytes : Bytes) :
    parseWithin opcode bytes = some (parse opcode bytes) := by
  unfold parseWithin parse
  dsimp only
  split
  · rfl
  split
  · rename_i hlength
    rw [Bytes.word?_eq (by decide) (by omega), Bytes.word?_eq (by decide) (by omega)]
    rfl
  split
  · rename_i hlength
    rw [Bytes.word?_eq (by decide) (by omega), Bytes.word?_eq (by decide) (by omega),
      Bytes.word?_eq (by decide) (by omega)]
    rfl
  · rfl

namespace FrameKind

variable {α : Type}

/-- The frame at the front of a buffer, whose header and parts are looked up where the lengths
say: nothing at all, if a part does not lie within the buffer. -/
def decodeWithin (kind : FrameKind α)
    (interpret : Header → Opcode → Bytes → Bytes → Bytes → Option (Except WireError α))
    (buffer : Bytes) : Option (Except WireError (Front α)) := do
  match ← Header.parseWithin buffer with
  | none => return .ok .incomplete
  | some header =>
    match header.frameLength kind.magic with
    | .error error => return .error error
    | .ok length =>
      if buffer.length < length then return .ok .incomplete
      else
        let body ← buffer.range? headerLength length
        match Opcode.ofCode? header.opcode with
        | none => return .error (.unknownOpcode header.opcode)
        | some opcode =>
          let keyStart := header.extrasLength.toNat
          let valueStart := keyStart + header.keyLength.toNat
          let extras ← body.range? 0 keyStart
          let key ← body.range? keyStart valueStart
          let value ← body.range? valueStart body.length
          match ← interpret header opcode extras key value with
          | .error error => return .error error
          | .ok whole => return .ok (.frame whole length)

/-- **Every part of a frame lies within its buffer**, if every field of its parts lies within
its part. -/
theorem decodeWithin_eq {kind : FrameKind α}
    {interpret : Header → Opcode → Bytes → Bytes → Bytes → Option (Except WireError α)}
    (hinterpret : ∀ header opcode extras key value, interpret header opcode extras key value
      = some (kind.interpret header opcode extras key value)) (buffer : Bytes) :
    kind.decodeWithin interpret buffer = some (kind.decode buffer) := by
  unfold decodeWithin decode
  rw [Header.parseWithin_eq]
  cases hparse : Header.parse? buffer with
  | none => rfl
  | some header =>
    dsimp only [Option.bind_eq_bind, Option.bind_some]
    cases hlength : header.frameLength kind.magic with
    | error error => rfl
    | ok length =>
      obtain ⟨-, htotal, hfixed⟩ := Header.lengths_of_frameLength hlength
      by_cases hshort : buffer.length < length
      · have hpart : Bytes.hasAtLeast length buffer = false := by
          rw [← Bool.not_eq_true, Bytes.hasAtLeast_iff]
          omega
        dsimp only
        rw [if_pos hshort, hpart]
        rfl
      · have hwhole : Bytes.hasAtLeast length buffer = true := by
          rw [Bytes.hasAtLeast_iff]
          omega
        have hbody : (slice headerLength (length - headerLength) buffer).length
            = length - headerLength := length_slice (by omega)
        dsimp only
        rw [if_neg hshort, hwhole, Bytes.range?_eq (by omega) (by omega)]
        dsimp only [Option.bind_some]
        generalize slice headerLength (length - headerLength) buffer = body at hbody
        cases Opcode.ofCode? header.opcode with
        | none => rfl
        | some opcode =>
          -- the lengths of the key and the extras do not exceed that of the body
          dsimp only
          rw [Bytes.range?_eq (Nat.zero_le _) (by omega), Bytes.range?_eq (by omega) (by omega),
            Bytes.range?_eq (by omega) (Nat.le_refl _)]
          dsimp only [Option.bind_some]
          rw [hinterpret, Nat.add_sub_cancel_left, Nat.sub_zero]
          have hvalue : slice (header.extrasLength.toNat + header.keyLength.toNat)
              (body.length - (header.extrasLength.toNat + header.keyLength.toNat)) body
                = body.drop (header.extrasLength.toNat + header.keyLength.toNat) := by
            rw [slice, ← List.length_drop, List.take_length]
          have hextras : slice 0 header.extrasLength.toNat body
              = body.take header.extrasLength.toNat := rfl
          rw [hvalue, hextras]
          dsimp only [Option.bind_some]
          cases kind.interpret header opcode _ _ _ with
          | error error => rfl
          | ok whole => rfl

end FrameKind

/-- The request at the front of a buffer, looked up within it. -/
def Request.decodeWithin : Bytes → Option (Except WireError (Front Request)) :=
  kind.decodeWithin fun header opcode extras key value => do
    match ← Extras.parseWithin opcode extras with
    | .error error => return .error error
    | .ok extras =>
      return .ok { opcode, key, value, extras, cas := header.cas, tag := header.tag }

/-- **No part of a request is looked for beyond its buffer.** -/
theorem Request.decodeWithin_eq (buffer : Bytes) :
    decodeWithin buffer = some (kind.decode buffer) := by
  refine FrameKind.decodeWithin_eq (fun header opcode extras key value => ?_) buffer
  rw [Extras.parseWithin_eq]
  dsimp only [kind, Option.bind_eq_bind, Option.bind_some]
  cases Extras.parse opcode extras with
  | error error => rfl
  | ok extras => rfl

/-- The reply at the front of a buffer, looked up within it. -/
def Response.decodeWithin : Bytes → Option (Except WireError (Front Response)) :=
  kind.decodeWithin fun header opcode extras key value =>
    some (kind.interpret header opcode extras key value)

/-- **No part of a reply is looked for beyond its buffer.** -/
theorem Response.decodeWithin_eq (buffer : Bytes) :
    decodeWithin buffer = some (kind.decode buffer) :=
  FrameKind.decodeWithin_eq (fun _ _ _ _ _ => rfl) buffer

/-! ## A stream that arrives in chunks -/

namespace FrameKind

variable {α : Type} (kind : FrameKind α)

/-- One more chunk has come: it is put behind what was left, and frames are cut off the front
until more data is needed or a frame is refused.  A stream with a fault is given up. -/
def feed (cut : Cut α) (chunk : Bytes) : Cut α :=
  if cut.fault.isSome then cut
  else
    let next := kind.split (cut.rest ++ chunk)
    { next with frames := cut.frames ++ next.frames }

/-- A stream of which nothing has come yet. -/
def Cut.start : Cut α :=
  { frames := [], rest := [], fault := none }

/-- What was cut off in chunks is what the octets give that have come, looked at at once. -/
structure Cut.Matches (cut : Cut α) (octets : Bytes) : Prop where
  /-- The frames agree, each with its length. -/
  frames : cut.frames = (kind.split octets).frames
  /-- The same fault was found, if any. -/
  fault : cut.fault = (kind.split octets).fault
  /-- The same octets are left, as long as nothing was refused. -/
  rest : cut.fault = none → cut.rest = (kind.split octets).rest

/-- Nothing is cut off nothing. -/
theorem Cut.matches_start : Cut.start.Matches kind [] := by
  have hempty : kind.decode [] = .ok .incomplete := rfl
  constructor <;> rw [kind.split_of_incomplete hempty] <;> simp [Cut.start]

/-- Nothing that comes behind a refused frame is looked at. -/
theorem split_append_of_fault {buffer : Bytes} {error : WireError} (more : Bytes)
    (hfault : (kind.split buffer).fault = some error) :
    (kind.split (buffer ++ more)).frames = (kind.split buffer).frames ∧
      (kind.split (buffer ++ more)).fault = some error := by
  -- the frames before the fault are cut off first, and each stays what it was
  induction buffer using FrameKind.split.induct kind with
  | case1 buffer other hdecode =>
      have hall := kind.decode_append_of_error more hdecode
      rw [kind.split_of_error hdecode] at hfault ⊢
      rw [kind.split_of_error hall]
      exact ⟨rfl, hfault⟩
  | case2 buffer hdecode =>
      rw [kind.split_of_incomplete hdecode] at hfault
      cases hfault
  | case3 buffer value length hdecode ih =>
      have hall := kind.decode_append_of_frame more hdecode
      rw [kind.split_of_frame hdecode] at hfault ⊢
      rw [kind.split_of_frame hall,
        List.drop_append_of_le_length (kind.length_le_of_decode hdecode)]
      obtain ⟨hframes, hstays⟩ := ih hfault
      exact ⟨congrArg ((value, length) :: ·) hframes, hstays⟩

variable {kind}

/-- **One more chunk keeps pace with the whole.** -/
theorem Cut.Matches.feed {cut : Cut α} {octets : Bytes} (hcut : cut.Matches kind octets)
    (chunk : Bytes) : (kind.feed cut chunk).Matches kind (octets ++ chunk) := by
  unfold FrameKind.feed
  cases hfault : cut.fault with
  | some error =>
      -- the refused frame is refused with what follows, too
      obtain ⟨hframes, hstays⟩ :=
        kind.split_append_of_fault chunk (hcut.fault.symm.trans hfault)
      rw [if_pos (by simp)]
      refine ⟨hcut.frames.trans hframes.symm, hfault.trans hstays.symm, fun hnone => ?_⟩
      rw [hfault] at hnone
      cases hnone
  | none =>
      have hwhole := kind.split_append octets chunk (hcut.fault.symm.trans hfault)
      rw [← hcut.rest hfault, ← hcut.frames] at hwhole
      rw [if_neg (by simp)]
      constructor <;> rw [hwhole]
      exact fun _ => rfl

/-- **A stream in chunks is cut as the whole is.** -/
theorem Cut.Matches.foldl {cut : Cut α} {octets : Bytes} (hcut : cut.Matches kind octets)
    (chunks : List Bytes) :
    (chunks.foldl kind.feed cut).Matches kind (octets ++ chunks.flatten) := by
  induction chunks generalizing cut octets with
  | nil => simpa using hcut
  | cons chunk chunks ih =>
      rw [List.foldl_cons, List.flatten_cons, ← List.append_assoc]
      exact ih (hcut.feed chunk)

variable (kind)

/-- A stream of frames may be cut anywhere. -/
structure Seamless : Prop where
  /-- A frame or a refusal that was found stays when more octets come. -/
  stable (buffer more : Bytes) (hfound : kind.decode buffer ≠ .ok .incomplete) :
    kind.decode (buffer ++ more) = kind.decode buffer
  /-- A frame has at least a header, and it does not end behind its buffer. -/
  within (buffer : Bytes) (value : α) (length : Nat)
    (hfound : kind.decode buffer = .ok (.frame value length)) :
    24 ≤ length ∧ length ≤ buffer.length
  /-- The chunks give the frames of the whole, its first refusal, and what is left of it. -/
  chunks (chunks : List Bytes) :
    (chunks.foldl kind.feed Cut.start).Matches kind chunks.flatten

/-- **A stream of frames of any kind may be cut anywhere.** -/
theorem seamless : kind.Seamless where
  stable _ more hfound := kind.decode_append more hfound
  within _ _ _ hfound := ⟨kind.headerLength_le_of_decode hfound, kind.length_le_of_decode hfound⟩
  chunks chunks := (Cut.matches_start kind).foldl chunks

end FrameKind

/-- **Chunks are not seen.**  Requests and replies are read from a stream in the same way
however it is cut, and no octet is looked for beyond what has come. -/
theorem chunks_unseen :
    Request.kind.Seamless ∧ Response.kind.Seamless ∧
      (∀ buffer, Request.decodeWithin buffer = some (Request.kind.decode buffer)) ∧
      ∀ buffer, Response.decodeWithin buffer = some (Response.kind.decode buffer) :=
  ⟨Request.kind.seamless, Response.kind.seamless, Request.decodeWithin_eq,
    Response.decodeWithin_eq⟩

end CachePool
