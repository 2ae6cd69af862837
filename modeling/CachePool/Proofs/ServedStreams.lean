/-
# Streams that a server answers

A server reads a stream of octets in chunks.  Wherever the chunks end, its store executes the
requests of the stream in order, up to the first refused frame; and if no frame is refused, what
is sent back is the same, and is read as the responses of the store.  For that the responses have
to fit their frames, which they do if the store was filled over the wire.

* `Serving.Keeps` : a connection that has read some chunks;
* `Store.Filled` : a store that was filled over the wire;
* `Store.Moderate` : what such a store holds is not too large;
* `stream_served` : a server answers the requests of a stream.
-/
import CachePool.Proofs.Chunks
import CachePool.Proofs.Effects

namespace CachePool

/-! ## What a connection keeps -/

namespace Serving

variable {serving : Serving} {store : Store} {now : Nat} {cut : FrameKind.Cut Request}

/-- A connection has read chunks of which some requests were cut off: its store has executed
them, and as long as no frame was refused, it has answered them and keeps what is left. -/
structure Keeps (serving : Serving) (store : Store) (now : Nat)
    (cut : FrameKind.Cut Request) : Prop where
  executed : serving.store = (store.executeAll now (cut.frames.map (·.1))).2
  isOpen : serving.isOpen = cut.fault.isNone
  buffer : cut.fault = none → serving.buffer = cut.rest
  sent : cut.fault = none → serving.sent
    = (store.executeAll now (cut.frames.map (·.1))).1.flatMap Response.frame

theorem keeps_accept (store : Store) (now : Nat) :
    (accept store).Keeps store.connectionOpened now .start :=
  ⟨rfl, rfl, fun _ => rfl, fun _ => rfl⟩

end Serving

/-- Requests that are executed in two goes. -/
theorem Store.executeAll_append (store : Store) (now : Nat) (first second : List Request) :
    store.executeAll now (first ++ second)
      = ((store.executeAll now first).1 ++ ((store.executeAll now first).2.executeAll now second).1,
        ((store.executeAll now first).2.executeAll now second).2) := by
  rw [executeAll_eq, executeAll_eq, executeAll_eq, List.map_append, answers_append,
    executed_append, List.flatten_append]

namespace Serving

variable {serving : Serving} {store : Store} {now : Nat} {cut : FrameKind.Cut Request}

/-- **One more chunk.** -/
theorem Keeps.receive (hkeeps : serving.Keeps store now cut) (chunk : Bytes) :
    (serving.receive .answering now chunk).Keeps store now (Request.kind.feed cut chunk) := by
  unfold Serving.receive FrameKind.feed
  cases hfault : cut.fault with
  | some error =>
      -- the connection has ended, and the stream is given up
      have hclosed : serving.isOpen = false := by
        rw [hkeeps.isOpen, hfault]
        rfl
      rw [if_pos (by simp [hclosed]), if_pos (by rfl)]
      exact hkeeps
  | none =>
      have hopen : serving.isOpen = true := by
        rw [hkeeps.isOpen, hfault]
        rfl
      rw [if_neg (by simp [hopen]), if_neg (by simp), hkeeps.buffer hfault, hkeeps.executed]
      dsimp only
      -- the requests of this chunk are executed behind those of the chunks before
      have hboth := store.executeAll_append now (cut.frames.map (·.1))
        ((Request.kind.split (cut.rest ++ chunk)).frames.map (·.1))
      rw [← List.map_append] at hboth
      cases hnext : (Request.kind.split (cut.rest ++ chunk)).fault with
      | none =>
          exact ⟨(congrArg Prod.snd hboth).symm, rfl, fun _ => rfl, fun _ => by
            rw [hboth, List.flatMap_append, hkeeps.sent hfault]⟩
      | some error =>
          exact ⟨(congrArg Prod.snd hboth).symm, rfl, fun hnone => (nomatch hnone),
            fun hnone => (nomatch hnone)⟩

/-- **A whole connection.** -/
theorem Keeps.foldl (hkeeps : serving.Keeps store now cut) (chunks : List Bytes) :
    (chunks.foldl (Serving.receive .answering now) serving).Keeps store now
      (chunks.foldl Request.kind.feed cut) := by
  induction chunks generalizing serving cut with
  | nil => exact hkeeps
  | cons chunk chunks ih => exact ih (hkeeps.receive chunk)

end Serving

/-! ## Lengths -/

theorem Bytes.length_ofString_le (text : String) :
    (Bytes.ofString text).length ≤ 4 * text.toList.length := by
  unfold ofString
  induction text.toList with
  | nil => exact Nat.le_refl _
  | cons c text ih =>
      rw [List.flatMap_cons, List.length_append, List.length_cons, String.length_utf8EncodeChar]
      have hsize := c.utf8Size_le_four
      omega

/-- The text of a word is short. -/
theorem Decimal.length_text_le {number : Nat} (hword : number < 2 ^ 64) :
    (Bytes.ofString (Decimal.text number)).length ≤ 80 := by
  have hdigits : (Nat.toDigits 10 number).length ≤ 20 := by
    rw [Nat.length_toDigits_le_iff (by decide) (by decide)]
    exact Nat.lt_trans hword (by decide)
  have hlength := Bytes.length_ofString_le (Decimal.text number)
  rw [text, String.toList_ofList, digits] at hlength
  rw [text, digits]
  omega

theorem Store.length_counterText_le (value : UInt64) : (counterText value).length ≤ 80 :=
  Decimal.length_text_le value.toNat_lt

namespace Request

/-- The request was read from a frame. -/
def Received (request : Request) : Prop :=
  ∃ buffer length, decode buffer = .ok (.frame request length)

/-- A request that was read from a frame is no longer than a body may be. -/
theorem Received.bodyLength_le {request : Request} (hreceived : request.Received) :
    request.bodyLength ≤ maxBodyLength := by
  obtain ⟨buffer, length, hdecode⟩ := hreceived
  have hlimit := FrameKind.length_le_limit hdecode
  have hlength := (frame_of_decode hdecode).1
  rw [frameLength] at hlength
  omega

/-- What is cut off a stream was read from frames. -/
theorem received_of_split {stream : Bytes} {request : Request}
    (hmem : request ∈ (kind.split stream).frames.map (·.1)) : request.Received := by
  induction stream using FrameKind.split.induct kind with
  | case1 stream error hdecode =>
      rw [kind.split_of_error hdecode] at hmem
      cases hmem
  | case2 stream hdecode =>
      rw [kind.split_of_incomplete hdecode] at hmem
      cases hmem
  | case3 stream value length hdecode ih =>
      rw [kind.split_of_frame hdecode, List.map_cons, List.mem_cons] at hmem
      rcases hmem with rfl | hmem
      · exact ⟨stream, length, hdecode⟩
      · exact ih hmem

end Request

/-! ## What requests put into a store -/

/-- The value that a change puts under a key. -/
def Change.value? : Change → Option Bytes
  | .create value .. | .revise value => some value
  | .keep | .remove => none

/-- What is left has the value that was put there, or the one that was seen. -/
theorem Change.value_leaves {change : Change} {now : Nat} {version : UInt64} {seen : Option Entry}
    {entry : Entry} (hleaves : change.leaves now version seen = some entry) :
    change.value? = some entry.value ∨ seen = some entry := by
  cases change with
  | keep => exact .inr hleaves
  | create =>
      cases hleaves
      exact .inl rfl
  | revise =>
      obtain ⟨found, -, rfl⟩ := Option.map_eq_some_iff.mp hleaves
      exact .inl rfl
  | remove => cases hleaves

namespace Request

variable {request : Request} {version : UInt64} {seen : Option Snapshot} {value : Bytes}

/-- A request puts its own value into a store, or the text of a number. -/
theorem value_effect (hvalue : (request.effect version seen).2.value? = some value) :
    value = request.value ∧ request.extras.length = 8 ∨
      ∃ number, value = Store.counterText number := by
  have houtcome := request.outcome_effect version seen
  generalize request.effect version seen = effect at houtcome hvalue
  cases houtcome with
  | refused | told | fetched | removed => cases hvalue
  | stored _ hextras =>
      cases hvalue
      exact .inl ⟨rfl, by rw [hextras]; rfl⟩
  | created | revised =>
      cases hvalue
      exact .inr ⟨_, rfl⟩

/-- A response has the value that was seen, or a short text. -/
theorem bodyLength_effect {limit : Nat} (hlimit : 17 ≤ limit)
    (hseen : ∀ item, seen = some item → item.value.length + 4 ≤ limit) :
    (request.effect version seen).1.bodyLength ≤ limit := by
  have hshort (status : Status) (cas : UInt64) {value : Bytes} (hvalue : value.length ≤ 17) :
      ({ Store.reply request status with cas, value } : Response).bodyLength ≤ limit := by
    simp only [Response.bodyLength, Store.reply, Response.make, List.length_nil]
    omega
  have houtcome := request.outcome_effect version seen
  generalize request.effect version seen = effect at houtcome
  cases houtcome with
  | refused _ htext | told _ htext => exact hshort _ 0 htext
  | @fetched item _ hitem =>
      have hvalue := hseen item hitem
      simp only [fetching, Response.bodyLength, Store.reply, Response.make,
        Response.flagsExtras, length_bigEndian, List.length_nil]
      omega
  | stored | removed => exact hshort .noError _ (Nat.zero_le _)
  | created | revised => exact hshort .noError version (by rw [length_bigEndian]; decide)

end Request

/-! ## Stores that are filled over the wire -/

/-- No counter has counted further. -/
structure Counters.AtMost (counters : Counters) (count : Nat) : Prop where
  gets : counters.gets ≤ count
  sets : counters.sets ≤ count
  hits : counters.hits ≤ count
  misses : counters.misses ≤ count
  connections : counters.connections ≤ count

theorem Counters.AtMost.tally {counters : Counters} {count : Nat}
    (hcounters : counters.AtMost count) (opcode : Opcode) (found : Bool) :
    (counters.tally opcode found).AtMost (count + 1) := by
  obtain ⟨hgets, hsets, hhits, hmisses, hconnections⟩ := hcounters
  unfold Counters.tally
  cases opcode <;> constructor <;> grind

theorem Counters.AtMost.mono {counters : Counters} {count more : Nat}
    (hcounters : counters.AtMost count) (hle : count ≤ more) : counters.AtMost more where
  gets := Nat.le_trans hcounters.gets hle
  sets := Nat.le_trans hcounters.sets hle
  hits := Nat.le_trans hcounters.hits hle
  misses := Nat.le_trans hcounters.misses hle
  connections := Nat.le_trans hcounters.connections hle

namespace Store

/-- A store that was filled by connections and requests from frames, and so many of them. -/
inductive Filled : Nat → Store → Prop
  | empty {processId : Nat} (hprocess : processId < 2 ^ 64) (startedAt : Nat) :
      Filled 0 (.empty processId startedAt)
  | connected {count : Nat} {store : Store} (hfilled : Filled count store) :
      Filled (count + 1) store.connectionOpened
  | executed {count : Nat} {store : Store} {request : Request} (hreceived : request.Received)
      (now : Nat) (hfilled : Filled count store) :
      Filled (count + 1) (store.execute now request).2
  | peeked {count : Nat} {store : Store} (now : Nat) (key : Bytes) (hfilled : Filled count store) :
      Filled count (store.peek now key).2

/-- A store whose values fit the frames that tell them, and whose numbers do not exceed a count. -/
structure Moderate (count : Nat) (store : Store) : Prop where
  values {key : Bytes} {entry : Entry} (hfound : store.items.find? key = some entry) :
    entry.value.length + 8 ≤ maxBodyLength
  items : store.items.length ≤ count
  counters : store.counters.AtMost count
  processId : store.processId < 2 ^ 64

variable {count : Nat} {store : Store} {now : Nat} {request : Request}

theorem Moderate.mono {more : Nat} (hmoderate : store.Moderate count) (hle : count ≤ more) :
    store.Moderate more :=
  ⟨hmoderate.values, Nat.le_trans hmoderate.items hle, hmoderate.counters.mono hle,
    hmoderate.processId⟩

/-- A value that a request from a frame puts into a store fits the frames that tell it. -/
theorem length_value_effect {version : UInt64} {seen : Option Snapshot} {value : Bytes}
    (hreceived : request.Received)
    (hvalue : (request.effect version seen).2.value? = some value) :
    value.length + 8 ≤ maxBodyLength := by
  rcases Request.value_effect hvalue with ⟨rfl, hextras⟩ | ⟨number, rfl⟩
  · have hbody := hreceived.bodyLength_le
    rw [Request.bodyLength, hextras] at hbody
    omega
  · have htext := length_counterText_le number
    rw [maxBodyLength]
    omega

/-- **A request from a frame** keeps a store moderate. -/
theorem Moderate.execute (hmoderate : store.Moderate count) (hreceived : request.Received)
    (now : Nat) : (store.execute now request).2.Moderate (count + 1) := by
  by_cases hstat : request.opcode = .stat
  · rw [snd_execute_stat store now hstat]
    exact hmoderate.mono (Nat.le_succ count)
  · obtain ⟨-, hbecomes⟩ := execute_effect store now request hstat
    refine ⟨fun {key entry} hfound => ?_, ?_, ?_, ?_⟩
    -- an expired item counts, too: it is in the table until a request comes for its key
    · by_cases hkey : key = request.key
      · subst hkey
        rcases hbecomes.held hfound with hbefore | hleft
        · exact hmoderate.values hbefore
        · rcases Change.value_leaves hleft with hput | hseen
          · exact length_value_effect hreceived hput
          · exact hmoderate.values (Entry.of_seenAt hseen)
      · rw [hbecomes.others hkey] at hfound
        exact hmoderate.values hfound
    · exact Nat.le_trans hbecomes.size (Nat.succ_le_succ hmoderate.items)
    · rw [hbecomes.counters]
      exact hmoderate.counters.tally _ _
    · rw [hbecomes.processId]
      exact hmoderate.processId

theorem Moderate.connected (hmoderate : store.Moderate count) :
    store.connectionOpened.Moderate (count + 1) := by
  obtain ⟨hvalues, hitems, hcounters, hprocess⟩ := hmoderate.mono (Nat.le_succ count)
  refine ⟨hvalues, hitems, ?_, hprocess⟩
  exact { hcounters with connections := Nat.succ_le_succ hmoderate.counters.connections }

/-- Looking at a key keeps a store moderate. -/
theorem Moderate.purge (hmoderate : store.Moderate count) (now : Nat) (key : Bytes) :
    (store.purge now key).Moderate count := by
  rw [purge_eq]
  exact ⟨fun hfound => hmoderate.values (Items.find?_of_dropExpired hfound),
    Nat.le_trans (Items.length_dropExpired_le _ _ _) hmoderate.items, hmoderate.counters,
    hmoderate.processId⟩

/-- **A store that was filled over the wire is moderate.** -/
theorem Filled.moderate (hfilled : Filled count store) : store.Moderate count := by
  induction hfilled with
  | empty hprocess startedAt =>
      exact ⟨fun hfound => (nomatch hfound), Nat.le_refl _, ⟨Nat.le_refl _, Nat.le_refl _,
        Nat.le_refl _, Nat.le_refl _, Nat.le_refl _⟩, hprocess⟩
  | connected _ ih => exact ih.connected
  | executed hreceived now _ ih => exact ih.execute hreceived now
  | peeked now key _ ih => exact ih.purge now key

/-! ## Responses of moderate stores -/

/-- Statistics are told in short responses, if their names and texts are short. -/
theorem bodyLength_statReplies {stats : List (String × String)}
    (hshort : ∀ entry ∈ stats, (Bytes.ofString entry.1).length + (Bytes.ofString entry.2).length
      ≤ maxBodyLength) :
    ∀ response ∈ statReplies request stats, response.bodyLength ≤ maxBodyLength := by
  intro response hmem
  rcases List.mem_append.mp hmem with hmem | hmem
  · obtain ⟨⟨name, text⟩, hentry, rfl⟩ := List.mem_map.mp hmem
    have hentry := hshort _ hentry
    dsimp only at hentry
    simp only [Response.bodyLength, reply, Response.make, List.length_nil]
    omega
  · rw [List.mem_singleton.mp hmem]
    exact Nat.zero_le _

/-- The general statistics of a moderate store are short. -/
theorem Moderate.generalStats (hmoderate : store.Moderate count) (hcount : count < 2 ^ 64)
    (hnow : now < 1000 * 2 ^ 64) :
    ∀ entry ∈ store.generalStats now, (Bytes.ofString entry.1).length
      + (Bytes.ofString entry.2).length ≤ maxBodyLength := by
  have hword {name : String} {number : Nat} (hname : (Bytes.ofString name).length ≤ 20)
      (hnumber : number < 2 ^ 64) : (Bytes.ofString name).length
        + (Bytes.ofString (Decimal.text number)).length ≤ maxBodyLength := by
    have htext := Decimal.length_text_le hnumber
    rw [maxBodyLength]
    omega
  have hcounted {number : Nat} (hnumber : number ≤ count) : number < 2 ^ 64 :=
    Nat.lt_of_le_of_lt hnumber hcount
  obtain ⟨-, hitems, ⟨hgets, hsets, hhits, hmisses, hconnections⟩, hprocess⟩ := hmoderate
  unfold Store.generalStats
  simp only [List.forall_mem_cons]
  refine ⟨hword (by decide) hprocess, hword (by decide) ?_, by decide,
    hword (by decide) (hcounted hitems), hword (by decide) (hcounted hconnections),
    hword (by decide) (hcounted hgets), hword (by decide) (hcounted hsets),
    hword (by decide) (hcounted hhits), hword (by decide) (hcounted hmisses),
    List.forall_mem_nil _⟩
  omega

/-- **A response of a moderate store** is no longer than a body may be. -/
theorem Moderate.bodyLength_le (hmoderate : store.Moderate count) (hcount : count < 2 ^ 64)
    (hnow : now < 1000 * 2 ^ 64) (request : Request) :
    ∀ response ∈ (store.execute now request).1, response.bodyLength ≤ maxBodyLength := by
  by_cases hstat : request.opcode = .stat
  · rw [execute_stat store now hstat, executeStat]
    split
    · exact bodyLength_statReplies (hmoderate.generalStats hcount hnow)
    split
    · refine bodyLength_statReplies ?_
      unfold settingsStats
      simp only [List.forall_mem_cons]
      exact ⟨by decide, by decide, List.forall_mem_nil _⟩
    · intro response hmem
      rw [List.mem_singleton.mp hmem]
      show (Bytes.ofString "Not found").length + 0 + 0 ≤ maxBodyLength
      decide
  · rw [(execute_effect store now request hstat).1]
    intro response hmem
    rw [List.mem_singleton.mp hmem]
    refine Request.bodyLength_effect (by decide) fun item hitem => ?_
    obtain ⟨entry, hentry, rfl⟩ := Option.map_eq_some_iff.mp hitem
    have hvalue := hmoderate.values (Entry.of_seenAt hentry)
    show entry.value.length + 4 ≤ maxBodyLength
    omega

/-- **Responses to requests from frames** are no longer than a body may be, if the store was
moderate before. -/
theorem Moderate.bodyLength_answers {requests : List (Nat × Request)}
    (hmoderate : store.Moderate count) (hcount : count + requests.length < 2 ^ 64)
    (hnow : ∀ entry ∈ requests, entry.1 < 1000 * 2 ^ 64)
    (hreceived : ∀ entry ∈ requests, entry.2.Received) :
    ∀ response ∈ (store.answers requests).flatten, response.bodyLength ≤ maxBodyLength := by
  induction requests generalizing store count with
  | nil => exact fun response hnone => nomatch hnone
  | cons first later ih =>
      rw [List.length_cons] at hcount
      rw [List.forall_mem_cons] at hnow hreceived
      intro response hmem
      rw [answers, List.flatten_cons] at hmem
      rcases List.mem_append.mp hmem with hmem | hmem
      · exact hmoderate.bodyLength_le (by omega) hnow.1 first.2 response hmem
      · exact ih (hmoderate.execute hreceived.1 first.1) (by omega) hnow.2 hreceived.2 response hmem

/-- **Responses to a stream** fit the wire, if the store was filled over it. -/
theorem Filled.fits_executeAll {stream : Bytes} (hfilled : Filled count store)
    (hcount : count + (Request.kind.split stream).frames.length < 2 ^ 64)
    (hnow : now < 1000 * 2 ^ 64) :
    ∀ response ∈ (store.executeAll now ((Request.kind.split stream).frames.map (·.1))).1,
      response.Fits := by
  rw [executeAll_eq]
  refine fits_answers (hfilled.moderate.bodyLength_answers ?_ ?_ ?_)
  · rwa [List.length_map, List.length_map]
  · intro entry hmem
    obtain ⟨request, -, rfl⟩ := List.mem_map.mp hmem
    exact hnow
  · intro entry hmem
    obtain ⟨request, hcut, rfl⟩ := List.mem_map.mp hmem
    exact Request.received_of_split hcut

end Store

/-! ## Streams -/

/-- **A server answers the requests of a stream.**  However a stream is cut into chunks, the
store executes its requests in order, up to the first refused frame, which ends the connection.  If
no frame is refused, what is sent back does not depend on the cuts: it is the frames of the
responses.  If the store was filled over the wire, and its counters and its clock in seconds fit
their words, these keep to the fields of their lengths and to the longest body, and they are read
back from what was sent, with nothing left. -/
theorem stream_served (store : Store) (now : Nat) (stream : Bytes) :
    let cut := Request.kind.split stream
    let requests := cut.frames.map (·.1)
    let responses := (store.connectionOpened.executeAll now requests).1
    let octets := responses.flatMap Response.frame
    (∀ chunks : List Bytes, chunks.flatten = stream →
      (Serving.run .answering now store chunks).store
          = (store.connectionOpened.executeAll now requests).2 ∧
        (Serving.run .answering now store chunks).isOpen = cut.fault.isNone ∧
        (cut.fault = none → (Serving.run .answering now store chunks).sent = octets)) ∧
      ∀ count, Store.Filled count store → count + 1 + requests.length < 2 ^ 64 →
        now < 1000 * 2 ^ 64 →
        (∀ response ∈ responses, response.key.length < 2 ^ 16 ∧ response.extras.length < 2 ^ 8 ∧
          response.bodyLength ≤ 64 * 1024 * 1024) ∧
          (Response.kind.split octets).frames.map (·.1) = responses ∧
          (Response.kind.split octets).rest = [] ∧ (Response.kind.split octets).fault = none := by
  dsimp only
  constructor
  · rintro chunks rfl
    -- what the chunks give is what the whole stream gives
    have hkeeps := (Serving.keeps_accept store now).foldl chunks
    have hcut := (FrameKind.Cut.matches_start Request.kind).foldl chunks
    rw [List.nil_append] at hcut
    rw [← hcut.frames, ← hcut.fault]
    exact ⟨hkeeps.executed, hkeeps.isOpen, hkeeps.sent⟩
  · intro count hfilled hcount hnow
    rw [List.length_map] at hcount
    have hfits := hfilled.connected.fits_executeAll hcount hnow
    have hread := @Response.split_frames _ [] hfits rfl
    rw [List.append_nil] at hread
    exact ⟨fun response hmem =>
      ⟨(hfits response hmem).key, (hfits response hmem).extras, (hfits response hmem).body⟩, hread⟩

/-- An item is stored and fetched again, by frames of which the first is cut. -/
theorem stream_served_fetched :
    let requests : List Request := [.set [107] [49] 0 0, .get [107]]
    let stream := requests.flatMap Request.frame
    let serving := Serving.run .answering 5 (.empty 1 0) [stream.take 30, stream.drop 30]
    [stream.take 30, stream.drop 30].flatten = stream ∧ Store.Filled 0 (.empty 1 0) ∧
      serving.isOpen = true ∧
      (Response.kind.split serving.sent).frames.map (·.1)
        = [{ Store.reply (.set [107] [49] 0 0) .noError with cas := 1 },
          { Store.reply (.get [107]) .noError with
            extras := Response.flagsExtras 0, cas := 1, value := [49] }] := by
  intro requests stream serving
  have hchunks : [stream.take 30, stream.drop 30].flatten = stream := by simp
  have hfilled : Store.Filled 0 (.empty 1 0) := .empty (by decide) 0
  have hcut := @Request.split_frames requests [] (by decide) rfl
  rw [List.append_nil] at hcut
  obtain ⟨hserved, hfits⟩ := stream_served (.empty 1 0) 5 stream
  obtain ⟨-, hopen, hsent⟩ := hserved _ hchunks
  obtain ⟨-, hread, -⟩ := hfits 0 hfilled (by rw [hcut.1]; decide) (by decide)
  refine ⟨hchunks, hfilled, hopen.trans (by rw [hcut.2]; rfl), ?_⟩
  rw [hsent hcut.2, hread, hcut.1]
  decide

end CachePool
