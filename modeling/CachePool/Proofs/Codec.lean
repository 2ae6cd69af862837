/-
# Requests and responses on the wire

A request and its frame determine each other, and so do a response and its frame.  What a
request within the limits is written as is read back as the request; and what is read as a
request is written as the same octets, but for those that a request leaves open: the data
type and the selector.  A response leaves only the data type open, and its status is read
back under the name of its word.

* `FrameKind.whole_of_decode` : what a frame that was found is made of;
* `Request.frame_of_decode`, `Response.frame_of_decode` : the octets that were read;
* `Request.codec_exact`, `Response.wire_exact` : both directions.
-/
import CachePool.Proofs.Streams

namespace CachePool

/-! ## Words -/

/-- A word is below the width of its octets. -/
theorem ofBigEndian_mod (bytes : Bytes) :
    ofBigEndian bytes % 256 ^ bytes.length = ofBigEndian bytes := by
  rw [← ofBigEndian_bigEndian, bigEndian_ofBigEndian]

/-- A word is written as the octets it was read from. -/
theorem bigEndian_word {count : Nat} {bytes : Bytes} (hlength : bytes.length = count) :
    bigEndian count (ofBigEndian bytes % 256 ^ count) = bytes := by
  rw [← hlength, ofBigEndian_mod, bigEndian_ofBigEndian]

/-- A slice inside of a string is as long as it was to be. -/
theorem length_slice {start count : Nat} {bytes : Bytes} (hinside : start + count ≤ bytes.length) :
    (slice start count bytes).length = count := by
  rw [slice, List.length_take, List.length_drop]
  omega

/-- A slice goes on where the front before it ends. -/
theorem take_append_slice (start count : Nat) (bytes : Bytes) :
    bytes.take start ++ slice start count bytes = bytes.take (start + count) :=
  List.take_add.symm

namespace Header

/-- **A header is written as the octets it was read from.** -/
theorem encode_of_parse? {buffer : Bytes} {header : Header}
    (hparse : parse? buffer = some header) : header.encode = buffer.take headerLength := by
  unfold parse? at hparse
  dsimp only at hparse
  split at hparse
  · cases hparse
  rename_i hlong
  have hfront : (buffer.take headerLength).length ≤ headerLength := List.length_take_le _ _
  generalize buffer.take headerLength = front at hparse hlong hfront
  have hlength : 24 ≤ front.length := Nat.not_lt.mp hlong
  cases hparse
  have hword (start count : Nat) (hinside : start + count ≤ 24) :
      bigEndian count (ofBigEndian (slice start count front) % 256 ^ count)
        = slice start count front :=
    bigEndian_word (length_slice (Nat.le_trans hinside hlength))
  have hoctet (start : Nat) (hinside : start + 1 ≤ 24) :
      bigEndian 1 (UInt8.ofNat (ofBigEndian (slice start 1 front))).toNat = slice start 1 front := by
    rw [UInt8.toNat_ofNat']
    exact hword start 1 hinside
  have hshort (start : Nat) (hinside : start + 2 ≤ 24) :
      bigEndian 2 (UInt16.ofNat (ofBigEndian (slice start 2 front))).toNat
        = slice start 2 front := by
    rw [UInt16.toNat_ofNat']
    exact hword start 2 hinside
  have hlong (start : Nat) (hinside : start + 4 ≤ 24) :
      bigEndian 4 (UInt32.ofNat (ofBigEndian (slice start 4 front))).toNat
        = slice start 4 front := by
    rw [UInt32.toNat_ofNat']
    exact hword start 4 hinside
  have hcas : bigEndian 8 (UInt64.ofNat (ofBigEndian (slice 16 8 front))).toNat
      = slice 16 8 front := by
    rw [UInt64.toNat_ofNat']
    exact hword 16 8 (Nat.le_refl _)
  unfold encode
  dsimp only
  rw [hoctet 0 (by decide), hoctet 1 (by decide), hshort 2 (by decide), hoctet 4 (by decide),
    hoctet 5 (by decide), hshort 6 (by decide), hlong 8 (by decide), hlong 12 (by decide), hcas]
  -- each field goes on where the one before it ends
  rw [← List.nil_append (slice 0 1 front), ← List.take_zero (l := front)]
  simp only [take_append_slice]
  exact List.take_of_length_le hfront

/-- A header without a data type. -/
theorem encode_untyped (header : Header) :
    { header with dataType := 0 }.encode = header.encode.set 5 0 := by
  simp [encode, bigEndian]

/-- A header without a data type and a selector. -/
theorem encode_blank (header : Header) :
    { header with dataType := 0, selector := 0 }.encode
      = ((header.encode.set 5 0).set 6 0).set 7 0 := by
  simp [encode, bigEndian]

end Header

/-- **Extras are written as the octets they were read from.** -/
theorem Extras.encode_of_parse {opcode : Opcode} {bytes : Bytes} {extras : Extras}
    (hparse : parse opcode bytes = .ok extras) : extras.encode = bytes := by
  unfold parse at hparse
  dsimp only at hparse
  split at hparse
  · cases hparse
  rename_i hwanted
  have hword (start : Nat) (hinside : start + 4 ≤ bytes.length) :
      bigEndian 4 (UInt32.ofNat (ofBigEndian (slice start 4 bytes))).toNat
        = slice start 4 bytes := by
    rw [UInt32.toNat_ofNat']
    exact bigEndian_word (length_slice hinside)
  have hlong (start : Nat) (hinside : start + 8 ≤ bytes.length) :
      bigEndian 8 (UInt64.ofNat (ofBigEndian (slice start 8 bytes))).toNat
        = slice start 8 bytes := by
    rw [UInt64.toNat_ofNat']
    exact bigEndian_word (length_slice hinside)
  have hstart : slice 0 4 bytes = bytes.take 4 ∧ slice 0 8 bytes = bytes.take 8 := ⟨rfl, rfl⟩
  split at hparse
  · rename_i hlength
    cases hparse
    rw [encode, hword 0 (by omega), hword 4 (by omega), hstart.1, take_append_slice]
    exact List.take_of_length_le (Nat.le_of_eq hlength)
  split at hparse
  · rename_i hlength
    cases hparse
    rw [encode, hlong 0 (by omega), hlong 8 (by omega), hword 16 (by omega), hstart.2,
      take_append_slice, take_append_slice]
    exact List.take_of_length_le (Nat.le_of_eq hlength)
  · -- no command takes extras of another length, unless it takes none
    cases hparse
    have hnone : bytes.length = 0 := by
      cases opcode <;> simp_all [Opcode.extrasLength]
    exact (List.eq_nil_of_length_eq_zero hnone).symm

/-- What a frame that was found at the front of a buffer is made of: a header, whose lengths
agree, and the extras, the key and the value behind it. -/
structure FrameKind.Whole {α : Type} (kind : FrameKind α) (buffer : Bytes) (value : α)
    (length : Nat) where
  header : Header
  opcode : Opcode
  extras : Bytes
  key : Bytes
  content : Bytes
  magic : header.magic = kind.magic
  code : opcode.code = header.opcode
  extrasLength : header.extrasLength.toNat = extras.length
  keyLength : header.keyLength.toNat = key.length
  bodyLength : header.bodyLength.toNat = extras.length + key.length + content.length
  total : length = headerLength + header.bodyLength.toNat
  octets : buffer.take length = header.encode ++ extras ++ key ++ content
  meaning : kind.interpret header opcode extras key content = .ok value

/-- The lengths of a header agree with the length of its frame. -/
theorem Header.lengths_of_frameLength {header : Header} {magic : UInt8} {length : Nat}
    (hlength : header.frameLength magic = .ok length) :
    header.magic = magic ∧ length = headerLength + header.bodyLength.toNat ∧
      header.keyLength.toNat + header.extrasLength.toNat ≤ header.bodyLength.toNat := by
  unfold frameLength at hlength
  dsimp only at hlength
  split at hlength
  · cases hlength
  split at hlength
  · cases hlength
  split at hlength
  · cases hlength
  rename_i hmagic hfixed _
  cases hlength
  exact ⟨not_not.mp hmagic, rfl, Nat.not_lt.mp hfixed⟩

/-- The body of a frame that was found is not beyond the limit. -/
theorem FrameKind.length_le_limit {α : Type} {kind : FrameKind α} {buffer : Bytes} {value : α}
    {length : Nat} (hdecode : kind.decode buffer = .ok (.frame value length)) :
    length ≤ headerLength + maxBodyLength := by
  have hlimit {header : Header} (hlength : header.frameLength kind.magic = .ok length) :
      length ≤ headerLength + maxBodyLength := by
    unfold Header.frameLength at hlength
    grind
  unfold decode at hdecode
  grind

/-- **A frame that was found is a whole one.** -/
theorem FrameKind.whole_of_decode {α : Type} {kind : FrameKind α} {buffer : Bytes} {value : α}
    {length : Nat} (hdecode : kind.decode buffer = .ok (.frame value length)) :
    Nonempty (kind.Whole buffer value length) := by
  have hinside := kind.length_le_of_decode hdecode
  unfold decode at hdecode
  split at hdecode
  · cases hdecode
  rename_i header hparse
  split at hdecode
  · cases hdecode
  rename_i announced hannounced
  split at hdecode
  · cases hdecode
  dsimp only at hdecode
  split at hdecode
  · cases hdecode
  rename_i opcode hopcode
  split at hdecode
  · cases hdecode
  rename_i meant hmeant
  cases hdecode
  obtain ⟨hmagic, rfl, hfixed⟩ := Header.lengths_of_frameLength hannounced
  rw [Nat.add_sub_cancel_left] at hmeant
  have hbody : (slice headerLength header.bodyLength.toNat buffer).length
      = header.bodyLength.toNat := length_slice hinside
  have hoctets : buffer.take (headerLength + header.bodyLength.toNat)
      = header.encode ++ slice headerLength header.bodyLength.toNat buffer := by
    rw [Header.encode_of_parse? hparse, take_append_slice]
  generalize slice headerLength header.bodyLength.toNat buffer = body at hmeant hbody hoctets
  have hextras : (body.take header.extrasLength.toNat).length = header.extrasLength.toNat := by
    rw [List.length_take]
    omega
  have hkey : (slice header.extrasLength.toNat header.keyLength.toNat body).length
      = header.keyLength.toNat := length_slice (by omega)
  refine ⟨⟨header, opcode, _, _, _, hmagic, Opcode.code_of_ofCode? hopcode, hextras.symm,
    hkey.symm, ?_, rfl, ?_, hmeant⟩⟩
  · rw [hextras, hkey, List.length_drop]
    omega
  · rw [hoctets, List.append_assoc, List.append_assoc, ← List.append_assoc (List.take _ _),
      take_append_slice, List.take_append_drop]

namespace Request

/-- **The frame of a request that was read** is what was read, without a data type and a
selector. -/
theorem frame_of_decode {buffer : Bytes} {request : Request} {length : Nat}
    (hdecode : decode buffer = .ok (.frame request length)) :
    request.frameLength = length ∧
      request.frame = (((buffer.take length).set 5 0).set 6 0).set 7 0 := by
  obtain ⟨⟨header, opcode, extras, key, content, hmagic, hcode, hextras, hkey, hbody, htotal,
    hoctets, hmeaning⟩⟩ := FrameKind.whole_of_decode hdecode
  dsimp only [kind] at hmagic hmeaning
  split at hmeaning
  · cases hmeaning
  rename_i parsed hparsed
  cases hmeaning
  have hparsed := Extras.encode_of_parse hparsed
  have hlength : parsed.length = extras.length := by
    rw [← hparsed, Extras.length_encode]
  rw [hextras.symm, hkey.symm] at hbody
  have hheader : Request.header
      { opcode, key, value := content, extras := parsed, cas := header.cas, tag := header.tag }
        = { header with dataType := 0, selector := 0 } := by
    unfold Request.header bodyLength
    dsimp only
    rw [hlength, ← hextras, ← hkey, ← hbody, hcode, hmagic, UInt8.ofNat_toNat,
      UInt16.ofNat_toNat, UInt32.ofNat_toNat]
  constructor
  · unfold frameLength bodyLength
    dsimp only
    rw [hlength, ← hextras, ← hkey, ← hbody, htotal]
  · unfold frame
    rw [hheader, Header.encode_blank, hoctets]
    dsimp only
    rw [hparsed, List.append_assoc, List.append_assoc, List.append_assoc, List.append_assoc]
    have hoctet {front : Bytes} (place : Nat) (hplace : place < front.length) (back : Bytes) :
        (front ++ back).set place 0 = front.set place 0 ++ back :=
      List.set_append_left place 0 hplace
    rw [hoctet 5 (by simp [headerLength]), hoctet 6 (by simp [headerLength]),
      hoctet 7 (by simp [headerLength])]

/-- A request within the limits is written behind what is there already. -/
theorem put_of_validate {request : Request} (hvalid : request.validate = .ok ()) (out : Bytes) :
    request.put out = (.ok request.frameLength, out ++ request.frame) := by
  rw [put, hvalid]

/-- **A request and its frame determine each other.** A request within the limits is written
behind what is there already, as many octets as it announces; its header is read back with
the lengths of its parts, and its frame, whatever follows, as the request. A request beyond
the limits is refused with the limit it violates, and nothing is written. A request within
the limits that was read from a buffer is written as the octets it was read from, the data
type and the selector being zero. -/
theorem codec_exact (request : Request) (out : Bytes) :
    (request.validate = .ok () →
      request.put out = (.ok request.frameLength, out ++ request.frame) ∧
      request.frame.length = request.frameLength ∧
      ∀ more,
        (∃ header, Header.parse? (request.frame ++ more) = some header ∧
          header.keyLength.toNat = request.key.length ∧
          header.extrasLength.toNat = request.extras.length ∧
          header.bodyLength.toNat
            = request.extras.length + request.key.length + request.value.length) ∧
        decode (request.frame ++ more) = .ok (.frame request request.frameLength)) ∧
    (∀ error, request.validate = .error error → request.put out = (.error error, out)) ∧
    ∀ buffer length, decode buffer = .ok (.frame request length) → request.validate = .ok () →
      request.put out
        = (.ok length, out ++ (((buffer.take length).set 5 0).set 6 0).set 7 0) := by
  refine ⟨fun hvalid => ⟨put_of_validate hvalid out, length_frame request, fun more => ?_⟩, ?_, ?_⟩
  · have hparse : Header.parse? (request.frame ++ more) = some request.header := by
      rw [frame, List.append_assoc, List.append_assoc, List.append_assoc]
      exact Header.parse?_encode _ _
    exact ⟨⟨request.header, hparse, lengths_of_header hvalid⟩, decode_frame hvalid more⟩
  · intro error hrefused
    rw [put, hrefused]
  · intro buffer length hdecode hvalid
    obtain ⟨hlength, hframe⟩ := frame_of_decode hdecode
    rw [put_of_validate hvalid, hlength, hframe]

/-- A request to store is written behind an octet, and one without a key is not; a frame with
a data type and a selector is written without them. -/
theorem codec_exact_set :
    (set [107] [118] 1 2).put [255] = (.ok 34, 255 :: (set [107] [118] 1 2).frame) ∧
      (set [] [118] 1 2).put [255] = (.error .emptyKey, [255]) ∧
      (set [107] [118] 1 2).put [] = (.ok 34, [0x80, 1, 0, 1, 8, 0, 0, 0, 0, 0, 0, 10,
        0, 0, 0, 0, 0, 0, 0, 0, 0, 0, 0, 0, 0, 0, 0, 1, 0, 0, 0, 2, 107, 118]) :=
  ⟨((codec_exact (set [107] [118] 1 2) [255]).1 rfl).1,
    (codec_exact (set [] [118] 1 2) [255]).2.1 .emptyKey rfl,
    (codec_exact (set [107] [118] 1 2) []).2.2 [0x80, 1, 0, 1, 8, 9, 3, 4, 0, 0, 0, 10,
      0, 0, 0, 0, 0, 0, 0, 0, 0, 0, 0, 0, 0, 0, 0, 1, 0, 0, 0, 2, 107, 118, 200] 34 rfl rfl⟩

end Request

/-! ## Responses -/

namespace Status

/-- The status a word is known by, where it has a name. -/
def normal : Status → Status
  | other word => ofWord word
  | status => status

/-- A status is read back from its word under the name of the word. -/
theorem ofWord_word (status : Status) : ofWord status.word = status.normal := by
  cases status <;> rfl

/-- Another name does not change the word. -/
theorem word_normal (status : Status) : status.normal.word = status.word := by
  rw [← ofWord_word, word_ofWord]

end Status

namespace Response

/-- The same reply, its status being called by its name. -/
def normal (response : Response) : Response :=
  { response with status := response.status.normal }

/-- A reply whose status is called by its name fits where its lengths do. -/
theorem fits_normal {response : Response} (hkey : response.key.length ≤ 65535)
    (hextras : response.extras.length ≤ 255) (hbody : response.bodyLength ≤ maxBodyLength) :
    response.normal.Fits where
  key := Nat.lt_succ_of_le hkey
  extras := Nat.lt_succ_of_le hextras
  body := hbody
  status := by
    show Status.ofWord response.status.normal.word = response.status.normal
    rw [Status.word_normal, Status.ofWord_word]

/-- Calling the status by its name does not change the frame. -/
theorem frame_normal (response : Response) : response.normal.frame = response.frame := by
  unfold frame header normal
  dsimp only
  rw [Status.word_normal]
  rfl

/-- **The frame of a reply that was read** is what was read, without a data type; and the
lengths of the reply fit their fields. -/
theorem frame_of_decode {buffer : Bytes} {response : Response} {length : Nat}
    (hdecode : decode buffer = .ok (.frame response length)) :
    response.frameLength = length ∧ response.frame = (buffer.take length).set 5 0 ∧
      response.key.length ≤ 65535 ∧ response.extras.length ≤ 255 ∧
      response.bodyLength ≤ maxBodyLength := by
  have hlimit := FrameKind.length_le_limit hdecode
  obtain ⟨⟨header, opcode, extras, key, content, hmagic, hcode, hextras, hkey, hbody, htotal,
    hoctets, hmeaning⟩⟩ := FrameKind.whole_of_decode hdecode
  dsimp only [kind] at hmagic hmeaning
  cases hmeaning
  rw [← hextras, ← hkey] at hbody
  have hheader : Response.header
      { opcode, extras, key, value := content, status := .ofWord header.selector,
        tag := header.tag, cas := header.cas } = { header with dataType := 0 } := by
    unfold Response.header bodyLength
    dsimp only
    rw [← hextras, ← hkey, ← hbody, hcode, hmagic, Status.word_ofWord, UInt8.ofNat_toNat,
      UInt16.ofNat_toNat, UInt32.ofNat_toNat]
  refine ⟨?_, ?_, ?_, ?_, ?_⟩
  · unfold frameLength bodyLength
    dsimp only
    rw [← hextras, ← hkey, ← hbody, htotal]
  · unfold frame
    rw [hheader, Header.encode_untyped, hoctets]
    simp [headerLength]
  · have hbound := header.keyLength.toNat_lt
    dsimp only
    omega
  · have hbound := header.extrasLength.toNat_lt
    dsimp only
    omega
  · unfold bodyLength
    dsimp only
    omega

/-- **A reply and its frame determine each other.** A frame has as many octets as its reply
announces.  Exactly the replies whose lengths fit their fields and the limit of a body are
read back from their frames, whatever follows, the status being called by its name.  A reply
that was read from a buffer is written as the octets it was read from, the data type being
zero. -/
theorem wire_exact (response : Response) :
    response.frame.length = response.frameLength ∧
    (∀ more, decode (response.frame ++ more)
        = .ok (.frame { response with status := response.status.normal } response.frameLength) ↔
      response.key.length ≤ 65535 ∧ response.extras.length ≤ 255 ∧
        response.extras.length + response.key.length + response.value.length
          ≤ 64 * 1024 * 1024) ∧
    ∀ buffer length, decode buffer = .ok (.frame response length) →
      response.frameLength = length ∧ response.frame = (buffer.take length).set 5 0 := by
  refine ⟨length_frame response, fun more => ⟨fun hdecode => ?_, ?_⟩, ?_⟩
  · obtain ⟨-, -, hlengths⟩ := frame_of_decode hdecode
    exact hlengths
  · rintro ⟨hkey, hextras, hbody⟩
    have hframe := (fits_normal hkey hextras hbody).decode_frame more
    rw [frame_normal, length_frame] at hframe
    exact hframe
  · intro buffer length hdecode
    obtain ⟨hlength, hframe, -⟩ := frame_of_decode hdecode
    exact ⟨hlength, hframe⟩

/-- A reply whose status is a named word under another name is read back with the name; a
frame with a data type is written without it. -/
theorem wire_exact_named :
    decode (({ make .get (.other 1) 7 with value := [118] } : Response).frame ++ [255])
        = .ok (.frame { make .get .keyNotFound 7 with value := [118] } 25) ∧
      ({ make .noop .noError 7 with value := [118] } : Response).frame
        = [0x81, 10, 0, 0, 0, 0, 0, 0, 0, 0, 0, 1, 0, 0, 0, 7, 0, 0, 0, 0, 0, 0, 0, 0, 118] :=
  ⟨((wire_exact { make .get (.other 1) 7 with value := [118] }).2.1 [255]).mpr (by decide),
    ((wire_exact { make .noop .noError 7 with value := [118] }).2.2
      [0x81, 10, 0, 0, 0, 9, 0, 0, 0, 0, 0, 1, 0, 0, 0, 7, 0, 0, 0, 0, 0, 0, 0, 0, 118, 200]
      25 rfl).2⟩

end Response

end CachePool
