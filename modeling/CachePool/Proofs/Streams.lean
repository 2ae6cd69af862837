/-
# Frames in a stream

A stream can be cut into frames while it arrives: a frame that was found stays the same
when more octets come, and the frames that a client or a server writes are read back whole.

* `FrameKind.split_append` : cutting a stream in two goes;
* `FrameKind.decode_encode`, `FrameKind.split_flatMap` : a frame, and frames with a part of one
  more, are read back;
* `Request.split_frames`, `Response.split_frames` : so it is for requests and for replies.
-/
import Mathlib.Data.List.Basic
import CachePool.Bytes.Lemmas
import CachePool.Wire.Request
import CachePool.Wire.Response

namespace CachePool

/-! ## More octets -/

/-- A header is read from its own octets only. -/
theorem Header.parse?_append {front : Bytes} (more : Bytes) (hlong : headerLength ≤ front.length) :
    Header.parse? (front ++ more) = Header.parse? front := by
  unfold Header.parse?
  rw [List.take_append_of_le_length hlong]

/-- Octets that are too few for a header. -/
theorem Header.parse?_eq_none_iff {bytes : Bytes} :
    Header.parse? bytes = none ↔ bytes.length < headerLength := by
  unfold Header.parse?
  dsimp only
  rw [List.length_take]
  split
  · exact ⟨fun _ => by omega, fun _ => rfl⟩
  · exact ⟨fun hnone => (nomatch hnone), fun hshort => by omega⟩

namespace FrameKind

variable {α : Type} (kind : FrameKind α)

/-- A frame that was found is there. -/
theorem length_le_of_decode {buffer : Bytes} {value : α} {length : Nat}
    (hdecode : kind.decode buffer = .ok (.frame value length)) : length ≤ buffer.length := by
  unfold decode at hdecode
  split at hdecode
  · cases hdecode
  split at hdecode
  · cases hdecode
  split at hdecode
  · cases hdecode
  rename_i hlong
  dsimp only at hdecode
  split at hdecode
  · cases hdecode
  split at hdecode
  · cases hdecode
  cases hdecode
  simpa using hlong

/-- **Prefix stability.** What is not incomplete stays as it is when more octets come. -/
theorem decode_append {buffer : Bytes} (more : Bytes)
    (hdecode : kind.decode buffer ≠ .ok .incomplete) :
    kind.decode (buffer ++ more) = kind.decode buffer := by
  unfold decode at hdecode ⊢
  have hheader : headerLength ≤ buffer.length := by
    by_contra hshort
    rw [Header.parse?_eq_none_iff.mpr (by omega)] at hdecode
    exact hdecode rfl
  rw [Header.parse?_append more hheader]
  split
  · rfl
  rename_i header hparse
  rw [hparse] at hdecode
  dsimp only at hdecode
  split
  · rfl
  rename_i length hlength
  rw [hlength] at hdecode
  dsimp only at hdecode
  have hlong : Bytes.hasAtLeast length buffer = true := by
    by_contra hshort
    rw [if_pos (by simp [hshort])] at hdecode
    exact hdecode rfl
  rw [Bytes.hasAtLeast_iff] at hlong
  have hmin := Header.headerLength_le_of_frameLength hlength
  have hbody : slice headerLength (length - headerLength) (buffer ++ more)
      = slice headerLength (length - headerLength) buffer := by
    unfold slice
    rw [List.drop_append_of_le_length hheader, List.take_append_of_le_length]
    rw [List.length_drop]
    omega
  have hmore : Bytes.hasAtLeast length (buffer ++ more) = true := by
    rw [Bytes.hasAtLeast_iff, List.length_append]
    omega
  rw [hbody, hmore, (Bytes.hasAtLeast_iff _ _).mpr hlong]

/-- A frame that was found stays. -/
theorem decode_append_of_frame {buffer : Bytes} (more : Bytes) {value : α} {length : Nat}
    (hdecode : kind.decode buffer = .ok (.frame value length)) :
    kind.decode (buffer ++ more) = .ok (.frame value length) := by
  rw [kind.decode_append more (by simp [hdecode]), hdecode]

/-- A refusal stays. -/
theorem decode_append_of_error {buffer : Bytes} (more : Bytes) {error : WireError}
    (hdecode : kind.decode buffer = .error error) :
    kind.decode (buffer ++ more) = .error error := by
  rw [kind.decode_append more (by simp [hdecode]), hdecode]

/-- Cutting off one frame. -/
theorem split_of_frame {buffer : Bytes} {value : α} {length : Nat}
    (hdecode : kind.decode buffer = .ok (.frame value length)) :
    kind.split buffer = { kind.split (buffer.drop length) with
      frames := (value, length) :: (kind.split (buffer.drop length)).frames } := by
  rw [split]
  split
  · rename_i hother
    rw [hdecode] at hother
    cases hother
  · rename_i hother
    rw [hdecode] at hother
    cases hother
  · rename_i hother
    rw [hdecode] at hother
    cases hother
    rfl

/-- Cutting off nothing, as more data is needed. -/
theorem split_of_incomplete {buffer : Bytes} (hdecode : kind.decode buffer = .ok .incomplete) :
    kind.split buffer = { frames := [], rest := buffer, fault := none } := by
  rw [split]
  split
  · rename_i hother
    rw [hdecode] at hother
    cases hother
  · rfl
  · rename_i hother
    rw [hdecode] at hother
    cases hother

/-- Nothing can be cut off a refused front. -/
theorem split_of_error {buffer : Bytes} {error : WireError}
    (hdecode : kind.decode buffer = .error error) :
    kind.split buffer = { frames := [], rest := buffer, fault := some error } := by
  rw [split]
  split
  · rename_i hother
    rw [hdecode] at hother
    cases hother
    rfl
  · rename_i hother
    rw [hdecode] at hother
    cases hother
  · rename_i hother
    rw [hdecode] at hother
    cases hother

/-- Cutting a stream in two goes: first what is there, and later what is left of it with
what has come. -/
theorem split_append (buffer more : Bytes) (hfault : (kind.split buffer).fault = none) :
    kind.split (buffer ++ more) = { kind.split ((kind.split buffer).rest ++ more) with
      frames := (kind.split buffer).frames
        ++ (kind.split ((kind.split buffer).rest ++ more)).frames } := by
  induction buffer using FrameKind.split.induct kind with
  | case1 buffer error hdecode =>
      rw [kind.split_of_error hdecode] at hfault
      cases hfault
  | case2 buffer hdecode =>
      rw [kind.split_of_incomplete hdecode]
      rfl
  | case3 buffer value length hdecode ih =>
      have hall := kind.decode_append_of_frame more hdecode
      rw [kind.split_of_frame hdecode] at hfault ⊢
      rw [kind.split_of_frame hall,
        List.drop_append_of_le_length (kind.length_le_of_decode hdecode), ih hfault]
      rfl

/-- What is left of a stream in which something was refused begins with it. -/
theorem decode_of_fault {buffer : Bytes} {error : WireError}
    (hfault : (kind.split buffer).fault = some error) :
    kind.decode (kind.split buffer).rest = .error error := by
  induction buffer using FrameKind.split.induct kind with
  | case1 buffer other hdecode =>
      rw [kind.split_of_error hdecode] at hfault ⊢
      cases hfault
      exact hdecode
  | case2 buffer hdecode =>
      rw [kind.split_of_incomplete hdecode] at hfault
      cases hfault
  | case3 buffer value length hdecode ih =>
      rw [kind.split_of_frame hdecode] at hfault ⊢
      exact ih hfault

/-- What is left of a stream in which nothing was refused begins with no whole frame. -/
theorem decode_rest {buffer : Bytes} (hfault : (kind.split buffer).fault = none) :
    kind.decode (kind.split buffer).rest = .ok .incomplete := by
  induction buffer using FrameKind.split.induct kind with
  | case1 buffer error hdecode =>
      rw [kind.split_of_error hdecode] at hfault
      cases hfault
  | case2 buffer hdecode =>
      rw [kind.split_of_incomplete hdecode]
      exact hdecode
  | case3 buffer value length hdecode ih =>
      rw [kind.split_of_frame hdecode] at hfault ⊢
      exact ih hfault

/-- The frames that were found stay when more octets come. -/
theorem frames_append (buffer more : Bytes) :
    (kind.split buffer).frames <+: (kind.split (buffer ++ more)).frames := by
  induction buffer using FrameKind.split.induct kind with
  | case1 buffer error hdecode =>
      rw [kind.split_of_error hdecode]
      exact List.nil_prefix
  | case2 buffer hdecode =>
      rw [kind.split_of_incomplete hdecode]
      exact List.nil_prefix
  | case3 buffer value length hdecode ih =>
      have hall := kind.decode_append_of_frame more hdecode
      rw [kind.split_of_frame hdecode, kind.split_of_frame hall,
        List.drop_append_of_le_length (kind.length_le_of_decode hdecode)]
      exact (List.prefix_cons_inj _).mpr ih

end FrameKind

/-! ## Words read back from their places -/

theorem drop_bigEndian {count start value : Nat} (h : count ≤ start) :
    (bigEndian count value).drop start = [] := by
  rw [List.drop_eq_nil_iff, length_bigEndian]
  exact h

theorem take_bigEndian {count length value : Nat} (h : count ≤ length) :
    (bigEndian count value).take length = bigEndian count value := by
  rw [List.take_of_length_le]
  rw [length_bigEndian]
  exact h

theorem octet_bigEndian (word : UInt8) :
    UInt8.ofNat (ofBigEndian (bigEndian 1 word.toNat)) = word := by
  rw [ofBigEndian_bigEndian]
  simp

theorem short_bigEndian (word : UInt16) :
    UInt16.ofNat (ofBigEndian (bigEndian 2 word.toNat)) = word := by
  rw [ofBigEndian_bigEndian]
  simp

theorem word_bigEndian (word : UInt32) :
    UInt32.ofNat (ofBigEndian (bigEndian 4 word.toNat)) = word := by
  rw [ofBigEndian_bigEndian]
  simp

theorem long_bigEndian (word : UInt64) :
    UInt64.ofNat (ofBigEndian (bigEndian 8 word.toNat)) = word := by
  rw [ofBigEndian_bigEndian]
  simp

/-- A header is read back, whatever follows. -/
theorem Header.parse?_encode (header : Header) (more : Bytes) :
    Header.parse? (header.encode ++ more) = some header := by
  have hfront : (header.encode ++ more).take headerLength = header.encode := by
    rw [List.take_append_of_le_length (by simp), List.take_of_length_le (by simp)]
  unfold parse?
  rw [hfront]
  dsimp only
  rw [if_neg (by simp)]
  simp [encode, slice, List.drop_append, drop_bigEndian, take_bigEndian, octet_bigEndian,
    short_bigEndian, word_bigEndian, long_bigEndian]

namespace FrameKind

variable {α : Type} (kind : FrameKind α)

/-- **A frame is read back from its header and its body, whatever follows.** -/
theorem decode_encode {header : Header} {opcode : Opcode} {extras key value : Bytes} {whole : α}
    (hmagic : header.magic = kind.magic) (hopcode : Opcode.ofCode? header.opcode = some opcode)
    (hextras : header.extrasLength.toNat = extras.length)
    (hkey : header.keyLength.toNat = key.length)
    (hbody : header.bodyLength.toNat = extras.length + key.length + value.length)
    (hlimit : extras.length + key.length + value.length ≤ maxBodyLength)
    (hwhole : kind.interpret header opcode extras key value = .ok whole) (more : Bytes) :
    kind.decode (header.encode ++ extras ++ key ++ value ++ more)
      = .ok (.frame whole (headerLength + (extras.length + key.length + value.length))) := by
  have hoctets : header.encode ++ extras ++ key ++ value ++ more
      = header.encode ++ (extras ++ (key ++ value) ++ more) := by
    simp only [List.append_assoc]
  have hframe : (extras ++ (key ++ value)).length = extras.length + key.length + value.length := by
    rw [List.length_append, List.length_append, Nat.add_assoc]
  have hlength : header.frameLength kind.magic
      = .ok (headerLength + (extras.length + key.length + value.length)) := by
    unfold Header.frameLength
    dsimp only
    rw [hextras, hkey, hbody, if_neg (by simpa using hmagic), if_neg (by omega), if_neg (by omega)]
  have hlong : Bytes.hasAtLeast (headerLength + (extras.length + key.length + value.length))
      (header.encode ++ (extras ++ (key ++ value) ++ more)) = true := by
    rw [Bytes.hasAtLeast_iff, List.length_append, Header.length_encode, List.length_append, hframe]
    omega
  have hslice : slice headerLength (headerLength + (extras.length + key.length + value.length)
      - headerLength) (header.encode ++ (extras ++ (key ++ value) ++ more))
      = extras ++ (key ++ value) := by
    rw [slice, List.drop_left' (Header.length_encode _), List.take_left' (by rw [hframe]; omega)]
  have hmiddle : slice extras.length key.length (extras ++ (key ++ value)) = key := by
    rw [slice, List.drop_left' rfl, List.take_left' rfl]
  have hend : (extras ++ (key ++ value)).drop (extras.length + key.length) = value := by
    rw [← List.append_assoc, List.drop_left' List.length_append]
  rw [hoctets]
  unfold decode
  rw [Header.parse?_encode]
  dsimp only
  rw [hlength]
  dsimp only
  rw [hlong, hslice, hopcode, hextras, hkey, hmiddle, hend, List.take_left' rfl]
  dsimp only
  rw [hwhole]
  rfl

/-- **A part of a frame is no frame yet, and nothing is wrong with it.** -/
theorem decode_take {frame : Bytes} {whole : α} {count : Nat}
    (hframe : kind.decode frame = .ok (.frame whole frame.length)) (hpart : count < frame.length) :
    kind.decode (frame.take count) = .ok .incomplete := by
  by_contra hdecode
  have hwhole := kind.decode_append (frame.drop count) hdecode
  rw [List.take_append_drop, hframe] at hwhole
  have hlong := kind.length_le_of_decode hwhole.symm
  rw [List.length_take] at hlong
  omega

/-- **Frames, and a part of one more, are read back whole**, and the part is left. -/
theorem split_flatMap {frame : α → Bytes} {wholes : List α} {part : Bytes}
    (hread : ∀ whole ∈ wholes, ∀ more,
      kind.decode (frame whole ++ more) = .ok (.frame whole (frame whole).length))
    (hpart : kind.decode part = .ok .incomplete) :
    (kind.split (wholes.flatMap frame ++ part)).frames.map (·.1) = wholes ∧
      (kind.split (wholes.flatMap frame ++ part)).rest = part ∧
      (kind.split (wholes.flatMap frame ++ part)).fault = none := by
  induction wholes with
  | nil =>
      rw [List.flatMap_nil, List.nil_append, kind.split_of_incomplete hpart]
      exact ⟨rfl, rfl, rfl⟩
  | cons whole wholes ih =>
      obtain ⟨hframes, hrest, hfault⟩ :=
        ih fun other hmem => hread other (List.mem_cons_of_mem _ hmem)
      rw [List.flatMap_cons, List.append_assoc,
        kind.split_of_frame (hread whole List.mem_cons_self _), List.drop_left' rfl]
      exact ⟨congrArg (whole :: ·) hframes, hrest, hfault⟩

/-- Octets at the front of frames are whole frames and a part of the next one. -/
theorem exists_of_prefix_flatMap {β : Type} {frame : β → Bytes} {wholes : List β} {octets : Bytes}
    (hread : ∀ whole ∈ wholes, ∃ value,
      kind.decode (frame whole) = .ok (.frame value (frame whole).length))
    (hleads : octets <+: wholes.flatMap frame) :
    ∃ front part, front <+: wholes ∧ octets = front.flatMap frame ++ part ∧
      kind.decode part = .ok .incomplete := by
  induction wholes generalizing octets with
  | nil => exact ⟨[], [], List.nil_prefix, List.prefix_nil.mp hleads, rfl⟩
  | cons whole wholes ih =>
      rw [List.flatMap_cons] at hleads
      by_cases hshort : octets.length < (frame whole).length
      · refine ⟨[], octets, List.nil_prefix, rfl, ?_⟩
        have hpart : octets = (frame whole).take octets.length := by
          rw [← List.take_append_of_le_length (Nat.le_of_lt hshort)]
          exact List.prefix_iff_eq_take.mp hleads
        obtain ⟨value, hvalue⟩ := hread whole List.mem_cons_self
        rw [hpart]
        exact kind.decode_take hvalue hshort
      · obtain ⟨rest, rfl⟩ : frame whole <+: octets :=
          List.prefix_of_prefix_length_le (List.prefix_append _ _) hleads (by omega)
        rw [List.prefix_append_right_inj] at hleads
        obtain ⟨front, part, hfront, rfl, hpart⟩ :=
          ih (fun other hmem => hread other (List.mem_cons_of_mem _ hmem)) hleads
        refine ⟨whole :: front, part, (List.prefix_cons_inj _).mpr hfront, ?_, hpart⟩
        rw [List.flatMap_cons, List.append_assoc]

end FrameKind

/-- Extras are read back for a command that wants their length. -/
theorem Extras.parse_encode {opcode : Opcode} {extras : Extras}
    (hlength : extras.length = opcode.extrasLength) :
    Extras.parse opcode extras.encode = .ok extras := by
  unfold parse
  dsimp only
  rw [length_encode, if_neg (by simpa using hlength)]
  cases extras with
  | none => rfl
  | store flags expiration =>
      simp [length, encode, slice, List.drop_append, take_bigEndian, word_bigEndian]
  | counter delta initial expiration =>
      simp [length, encode, slice, List.drop_append, drop_bigEndian, take_bigEndian,
        word_bigEndian, long_bigEndian]

namespace Request

variable {request : Request}

/-- The lengths of a request within the limits fit their fields. -/
theorem lengths_of_validate (hvalid : request.validate = .ok ()) :
    request.key.length ≤ maxKeyLength ∧ request.value.length ≤ maxValueLength ∧
      request.extras.length = request.opcode.extrasLength := by
  unfold validate at hvalid
  split at hvalid
  · cases hvalid
  split at hvalid
  · cases hvalid
  split at hvalid
  · cases hvalid
  split at hvalid
  · cases hvalid
  rename_i hkey hvalue hextras
  exact ⟨Nat.not_lt.mp hkey, Nat.not_lt.mp hvalue, not_not.mp hextras⟩

/-- The header of a request within the limits announces the lengths of the request. -/
theorem lengths_of_header (hvalid : request.validate = .ok ()) :
    request.header.keyLength.toNat = request.key.length ∧
      request.header.extrasLength.toNat = request.extras.length ∧
      request.header.bodyLength.toNat = request.bodyLength := by
  obtain ⟨hkey, hvalue, -⟩ := lengths_of_validate hvalid
  have hshort : request.extras.length ≤ 20 := by
    cases request.extras <;> simp [Extras.length]
  rw [maxKeyLength] at hkey
  rw [maxValueLength] at hvalue
  refine ⟨?_, ?_, ?_⟩
  · show (UInt16.ofNat request.key.length).toNat = _
    rw [UInt16.toNat_ofNat']
    omega
  · show (UInt8.ofNat request.extras.length).toNat = _
    rw [UInt8.toNat_ofNat']
    omega
  · show (UInt32.ofNat request.bodyLength).toNat = _
    rw [UInt32.toNat_ofNat', bodyLength]
    omega

/-- **A request is read back from its frame, whatever follows.** -/
theorem decode_frame (hvalid : request.validate = .ok ()) (more : Bytes) :
    kind.decode (request.frame ++ more) = .ok (.frame request request.frameLength) := by
  obtain ⟨hkey, hvalue, hextras⟩ := lengths_of_validate hvalid
  obtain ⟨hkeyLength, hextrasLength, hbodyLength⟩ := lengths_of_header hvalid
  have hshort : request.extras.length ≤ 20 := by
    cases request.extras <;> simp [Extras.length]
  rw [maxKeyLength] at hkey
  rw [maxValueLength] at hvalue
  rw [bodyLength] at hbodyLength
  rw [frameLength, bodyLength]
  rw [← Extras.length_encode] at hextrasLength hbodyLength hshort ⊢
  refine kind.decode_encode rfl (Opcode.ofCode?_code _) hextrasLength hkeyLength hbodyLength ?_ ?_
    more
  · rw [maxBodyLength]
    omega
  · dsimp only [kind]
    rw [Extras.parse_encode hextras]
    rfl

/-- **A part of a frame is no frame yet, and nothing is wrong with it.** -/
theorem decode_part (hvalid : request.validate = .ok ()) {count : Nat}
    (hpart : count < request.frame.length) :
    kind.decode (request.frame.take count) = .ok .incomplete := by
  have hframe := decode_frame hvalid []
  rw [List.append_nil, ← length_frame] at hframe
  exact kind.decode_take hframe hpart

/-- **Frames, and a part of one more, are read back as the requests.** -/
theorem split_frames {requests : List Request} {part : Bytes}
    (hvalid : ∀ request ∈ requests, request.validate = .ok ())
    (hpart : kind.decode part = .ok .incomplete) :
    (kind.split (requests.flatMap frame ++ part)).frames.map (·.1) = requests ∧
      (kind.split (requests.flatMap frame ++ part)).fault = none := by
  have hread : ∀ request ∈ requests, ∀ more,
      kind.decode (request.frame ++ more) = .ok (.frame request request.frame.length) := by
    intro request hmem more
    rw [length_frame]
    exact decode_frame (hvalid request hmem) more
  obtain ⟨hframes, -, hfault⟩ := kind.split_flatMap hread hpart
  exact ⟨hframes, hfault⟩

end Request

namespace Response

/-- The lengths of a reply fit their fields, and its status is read back from its word. -/
structure Fits (response : Response) : Prop where
  key : response.key.length < 65536
  extras : response.extras.length < 256
  body : response.bodyLength ≤ maxBodyLength
  status : Status.ofWord response.status.word = response.status

/-- **A reply that fits is read back from its frame, whatever follows.** -/
theorem Fits.decode_frame {response : Response} (hfits : response.Fits) (more : Bytes) :
    kind.decode (response.frame ++ more) = .ok (.frame response response.frame.length) := by
  obtain ⟨hkey, hextras, hbody, hstatus⟩ := hfits
  rw [length_frame, frameLength]
  rw [bodyLength] at hbody ⊢
  refine kind.decode_encode rfl (Opcode.ofCode?_code _) ?_ ?_ ?_ hbody ?_ more
  · show (UInt8.ofNat response.extras.length).toNat = _
    rw [UInt8.toNat_ofNat']
    omega
  · show (UInt16.ofNat response.key.length).toNat = _
    rw [UInt16.toNat_ofNat']
    omega
  · show (UInt32.ofNat response.bodyLength).toNat = _
    rw [maxBodyLength] at hbody
    rw [UInt32.toNat_ofNat', bodyLength]
    omega
  · dsimp only [kind, header]
    rw [hstatus]

/-- **Replies, and a part of one more, are read back**, and the part is left. -/
theorem split_frames {responses : List Response} {part : Bytes}
    (hfits : ∀ response ∈ responses, response.Fits)
    (hpart : kind.decode part = .ok .incomplete) :
    (kind.split (responses.flatMap frame ++ part)).frames.map (·.1) = responses ∧
      (kind.split (responses.flatMap frame ++ part)).rest = part ∧
      (kind.split (responses.flatMap frame ++ part)).fault = none :=
  kind.split_flatMap (fun response hmem => (hfits response hmem).decode_frame) hpart

end Response

end CachePool
