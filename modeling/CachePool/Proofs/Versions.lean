/-
# Versions of items

Every write of a store gives the next version, whatever its key is.  So a version that a client
has got tells whether the item has been written since, and a request that asks for a version
succeeds exactly if it has not.

* `Store.writes` : the writes of a history, with the versions that were returned for them;
* `Request.tells_effect` : which requests write, and what their responses tell of it;
* `Store.Tracks` : what goes with the writes so far;
* `versions_lock` : versions are a sound lock.
-/
import CachePool.Proofs.Effects

namespace CachePool

/-! ## Writes -/

/-- What the responses to a request tell that it wrote: its key and the version. -/
def Request.write? (request : Request) (responses : List Response) : Option (Bytes × UInt64) :=
  if request.opcode.writes then
    (responses.find? (·.status.isSuccess)).map fun response => (request.key, response.cas)
  else none

/-- The writes of a history that succeeded: the keys and the versions that were returned. -/
def Store.writes (store : Store) (history : List (Nat × Request)) : List (Bytes × UInt64) :=
  (history.zip (store.answers history)).filterMap fun ((_, request), responses) =>
    request.write? responses

/-- The version of the last write under a key. -/
def lastWrite? (writes : List (Bytes × UInt64)) (key : Bytes) : Option UInt64 :=
  (writes.filter (·.1 = key)).getLast?.map (·.2)

theorem lastWrite?_snoc (writes : List (Bytes × UInt64)) (version : UInt64) (key : Bytes) :
    lastWrite? (writes ++ [(key, version)]) key = some version := by
  simp [lastWrite?]

theorem lastWrite?_snoc_of_ne (writes : List (Bytes × UInt64)) (version : UInt64)
    {key other : Bytes} (hne : other ≠ key) :
    lastWrite? (writes ++ [(key, version)]) other = lastWrite? writes other := by
  simp [lastWrite?, List.filter_append, hne.symm]

/-! ## Which requests write -/

namespace Request

variable {request : Request} {version : UInt64} {seen : Option Snapshot}

/-- A change of an item goes with the response. -/
structure Tells (version : UInt64) (writing : Bool) (effect : Response × Change) : Prop where
  writes : effect.2.writes = (writing && effect.1.status.isSuccess)
  cas : effect.2.writes = true → effect.1.cas = version
  keeps : effect.1.status.isSuccess = false → effect.2 = .keep

/-- **Which requests write.** The response to a request tells whether it wrote an item, and the
version of that; a request that did not succeed keeps the item as it is. -/
theorem tells_effect : Tells version request.opcode.writes (request.effect version seen) := by
  have houtcome := request.outcome_effect version seen
  generalize request.effect version seen = effect at houtcome
  cases houtcome with
  | @refused status _ hfailed =>
      refine ⟨?_, fun hwrites => (nomatch hwrites), fun _ => rfl⟩
      show false = (request.opcode.writes && status.isSuccess)
      rw [hfailed, Bool.and_false]
  | told hreads | fetched hreads =>
      exact ⟨by rw [hreads]; rfl, fun hwrites => (nomatch hwrites), fun _ => rfl⟩
  | stored hwrites | created hwrites | revised hwrites =>
      exact ⟨by rw [hwrites]; rfl, fun _ => rfl, fun hfailed => (nomatch hfailed)⟩
  | removed hremoves =>
      exact ⟨by rw [hremoves]; rfl, fun hwrites => (nomatch hwrites),
        fun hfailed => (nomatch hfailed)⟩

end Request

/-- How `set` and `replace` are answered that ask for a version. -/
theorem Request.status_effect {request : Request} {version : UInt64} {seen : Option Snapshot}
    {flags expiration : UInt32} (hopcode : request.opcode = .set ∨ request.opcode = .replace)
    (hextras : request.extras = .store flags expiration) (hcas : request.cas ≠ 0) :
    (request.effect version seen).1.status =
      match seen with
      | none => .keyNotFound
      | some item => if item.cas = request.cas then .noError else .keyExists := by
  have hadd : request.opcode ≠ .add := by
    rcases hopcode with hopcode | hopcode <;> rw [hopcode] <;> decide
  have hstoring : request.effect version seen = request.storing version seen := by
    unfold effect
    rcases hopcode with hopcode | hopcode <;> rw [hopcode]
  rw [hstoring, storing, hextras]
  dsimp only
  cases seen with
  | none =>
      have hrefusal : Store.storeRefusal request (Option.map (·.cas) (none : Option Snapshot))
          = some .keyNotFound := by
        simp [Store.storeRefusal, hcas]
      rw [hrefusal]
      rfl
  | some item =>
      by_cases hsame : item.cas = request.cas
      · have hrefusal : Store.storeRefusal request (Option.map (·.cas) (some item)) = none := by
          simp [Store.storeRefusal, Store.conflicts, hadd, hsame]
        rw [hrefusal]
        exact (if_pos hsame).symm
      · have hrefusal : Store.storeRefusal request (Option.map (·.cas) (some item))
            = some .keyExists := by
          simp [Store.storeRefusal, Store.conflicts, hadd, hcas, Ne.symm hsame]
        rw [hrefusal]
        exact (if_neg hsame).symm

/-! ## Histories of requests -/

namespace Store

variable {store : Store} {writes : List (Bytes × UInt64)} {time now : Nat} {request : Request}

theorem writes_cons (store : Store) (now : Nat) (request : Request)
    (later : List (Nat × Request)) :
    store.writes ((now, request) :: later)
      = (request.write? (store.execute now request).1).toList
        ++ (store.execute now request).2.writes later := by
  unfold writes
  rw [answers, List.zip_cons_cons, List.filterMap_cons]
  dsimp only
  cases request.write? (store.execute now request).1 <;> rfl

/-- A store after some writes: the last version that was given, and the version of every item
that is visible from some time on. -/
structure Tracks (store : Store) (writes : List (Bytes × UInt64)) (time : Nat) : Prop where
  versions : writes.map (·.2) = (List.range writes.length).map fun place => UInt64.ofNat (place + 1)
  lastCas : store.lastCas = UInt64.ofNat writes.length
  visible {now : Nat} (hnow : time ≤ now) {key : Bytes} {entry : Entry}
    (hseen : store.visible? now key = some entry) : lastWrite? writes key = some entry.cas

theorem tracks_empty (processId startedAt : Nat) : (empty processId startedAt).Tracks [] 0 where
  versions := rfl
  lastCas := rfl
  visible _ _ _ hseen := nomatch hseen

/-- What is tracked stays so as time goes on. -/
theorem Tracks.later (htracks : store.Tracks writes time) (hnow : time ≤ now) :
    store.Tracks writes now :=
  ⟨htracks.versions, htracks.lastCas, fun hlater => htracks.visible (Nat.le_trans hnow hlater)⟩

/-- What a change leaves has the version of the last write. -/
theorem Tracks.becomes {after : Store} {change : Change} (htracks : store.Tracks writes time)
    (hnow : time ≤ now) (hbecomes : store.Becomes now request change after) :
    after.Tracks
      (writes ++ if change.writes then [(request.key, store.lastCas + 1)] else []) now := by
  have hnext : store.lastCas + 1 = UInt64.ofNat (writes.length + 1) := by
    rw [htracks.lastCas, UInt64.ofNat_add]
    rfl
  -- under all other keys both the item and the last write are those of before
  have hothers {later : Nat} {key : Bytes} {entry : Entry} (hlater : now ≤ later)
      (hne : key ≠ request.key) (hseen : after.visible? later key = some entry) :
      lastWrite? writes key = some entry.cas := by
    rw [visible?, hbecomes.others hne] at hseen
    exact htracks.visible (Nat.le_trans hnow hlater) hseen
  cases hwrites : change.writes with
  | true =>
      have hcas := hbecomes.lastCas
      rw [hwrites, if_pos rfl] at hcas
      refine ⟨?_, ?_, fun {later} hlater {key entry} hseen => ?_⟩
      · simp [List.range_succ, htracks.versions, hnext]
      · rw [hcas, hnext, if_pos rfl, List.length_append, List.length_singleton]
      · by_cases hkey : key = request.key
        · subst hkey
          rw [if_pos rfl, lastWrite?_snoc]
          rw [hbecomes.here hlater] at hseen
          rw [Change.cas_leaves hwrites (Entry.of_seenAt hseen)]
        · rw [if_pos rfl, lastWrite?_snoc_of_ne _ _ hkey]
          exact hothers hlater hkey hseen
  | false =>
      have hcas := hbecomes.lastCas
      rw [hwrites, if_neg Bool.false_ne_true] at hcas
      rw [if_neg Bool.false_ne_true, List.append_nil]
      refine ⟨htracks.versions, hcas.trans htracks.lastCas,
        fun {later} hlater {key entry} hseen => ?_⟩
      by_cases hkey : key = request.key
      · subst hkey
        rw [hbecomes.here hlater] at hseen
        exact htracks.visible hnow (Change.seen_of_leaves hwrites (Entry.of_seenAt hseen))
      · exact hothers hlater hkey hseen

/-- **One request.** What it tells that it wrote is what it wrote. -/
theorem Tracks.execute (htracks : store.Tracks writes time) (hnow : time ≤ now)
    (request : Request) :
    (store.execute now request).2.Tracks
      (writes ++ (request.write? (store.execute now request).1).toList) now := by
  by_cases hstat : request.opcode = .stat
  · have hnone : request.write? (store.execute now request).1 = none := by
      rw [Request.write?, hstat]
      rfl
    rw [hnone, snd_execute_stat store now hstat, Option.toList_none, List.append_nil]
    exact htracks.later hnow
  · obtain ⟨hresponses, hbecomes⟩ := execute_effect store now request hstat
    have htells : Request.Tells (store.lastCas + 1) request.opcode.writes
        (request.effect (store.lastCas + 1) (store.seen? now request)) := Request.tells_effect
    -- from here on only what the response tells of the change matters
    generalize request.effect (store.lastCas + 1) (store.seen? now request) = effect
      at hresponses hbecomes htells
    have hafter := htracks.becomes hnow hbecomes
    rw [hresponses]
    have hwrite : (request.write? [effect.1]).toList
        = if effect.2.writes then [(request.key, store.lastCas + 1)] else [] := by
      rw [Request.write?, htells.writes]
      cases hopcode : request.opcode.writes with
      | false => rfl
      | true =>
          cases hsuccess : effect.1.status.isSuccess with
          | false => simp [hsuccess]
          | true =>
              have hcas := htells.cas (by rw [htells.writes, hopcode, hsuccess]; rfl)
              simp [hsuccess, hcas]
    rw [hwrite]
    exact hafter

/-- **A history.** -/
theorem Tracks.executed {history : List (Nat × Request)} (htracks : store.Tracks writes time)
    (hordered : (time :: (history.map (·.1) ++ [now])).Pairwise (· ≤ ·)) :
    (store.executed history).Tracks (writes ++ store.writes history) now := by
  induction history generalizing store writes time with
  | nil =>
      rw [show store.writes [] = [] from rfl, List.append_nil]
      exact htracks.later ((List.pairwise_cons.mp hordered).1 now (List.mem_singleton_self now))
  | cons first history ih =>
      obtain ⟨instant, request⟩ := first
      rw [List.map_cons, List.cons_append, List.pairwise_cons] at hordered
      have hafter := htracks.execute (hordered.1 instant List.mem_cons_self) request
      rw [writes_cons, ← List.append_assoc]
      exact ih hafter hordered.2

/-- The versions of a few writes grow. -/
theorem Tracks.increasing (htracks : store.Tracks writes time) (hfew : writes.length < 2 ^ 64) :
    (writes.map (·.2)).Pairwise (· < ·) := by
  rw [htracks.versions, List.pairwise_map]
  refine List.pairwise_lt_range.imp_of_mem fun {first second} hfirst hsecond hlt => ?_
  rw [List.mem_range] at hfirst hsecond
  rw [UInt64.lt_iff_toNat_lt, UInt64.toNat_ofNat', UInt64.toNat_ofNat']
  omega

/-- A request that did not succeed changes nothing that is visible. -/
theorem execute_failed (hfailed : ∃ response ∈ (store.execute now request).1,
      response.status.isSuccess = false) :
    (store.execute now request).2.lastCas = store.lastCas ∧
      ∀ later key, now ≤ later →
        (store.execute now request).2.visible? later key = store.visible? later key := by
  by_cases hstat : request.opcode = .stat
  · rw [snd_execute_stat store now hstat]
    exact ⟨rfl, fun _ _ _ => rfl⟩
  · obtain ⟨hresponses, hbecomes⟩ := execute_effect store now request hstat
    obtain ⟨response, hmem, hstatus⟩ := hfailed
    rw [hresponses, List.mem_singleton] at hmem
    subst hmem
    rw [Request.tells_effect.keeps hstatus] at hbecomes
    exact ⟨hbecomes.lastCas, fun _ key hlater => hbecomes.visible?_keep hlater key⟩

end Store

/-- **Versions are a sound lock.**  In every history of requests, at times that do not decrease,
the versions that successful writes return grow over the whole store, as long as they fit
their words.  A visible item has the version of the last write under its key.  A `set` or `replace`
that asks for a version succeeds exactly if the item is visible and its last write returned that
version; else it tells whether there is an item.  And a request that does not succeed changes
neither a visible item nor the version given last. -/
theorem versions_lock (processId startedAt : Nat) (history : List (Nat × Request)) (now : Nat)
    (hordered : (history.map (·.1) ++ [now]).Pairwise (· ≤ ·)) :
    let store := (Store.empty processId startedAt).executed history
    let writes := (Store.empty processId startedAt).writes history
    (writes.length < 2 ^ 64 → (writes.map (·.2)).Pairwise (· < ·)) ∧
    (∀ key entry, store.visible? now key = some entry →
      lastWrite? writes key = some entry.cas) ∧
    (∀ request flags expiration, request.opcode = .set ∨ request.opcode = .replace →
      request.extras = .store flags expiration → request.cas ≠ 0 →
      ∃ response, (store.execute now request).1 = [response] ∧
        (response.status = .noError ↔
          (store.visible? now request.key).isSome ∧
            lastWrite? writes request.key = some request.cas) ∧
        (response.status ≠ .noError → response.status
          = if (store.visible? now request.key).isSome then .keyExists else .keyNotFound)) ∧
    ∀ request, (∃ response ∈ (store.execute now request).1,
        response.status.isSuccess = false) →
      (store.execute now request).2.lastCas = store.lastCas ∧
        ∀ later key, now ≤ later →
          (store.execute now request).2.visible? later key = store.visible? later key := by
  intro store writes
  have hordered : (0 :: (history.map (·.1) ++ [now])).Pairwise (· ≤ ·) :=
    List.pairwise_cons.mpr ⟨fun _ _ => Nat.zero_le _, hordered⟩
  have htracks : store.Tracks writes now :=
    (Store.tracks_empty processId startedAt).executed hordered
  refine ⟨htracks.increasing, fun key entry => htracks.visible (Nat.le_refl _), ?_,
    fun request => Store.execute_failed⟩
  intro request flags expiration hopcode hextras hcas
  have hother : request.opcode ≠ .stat := by
    rcases hopcode with hopcode | hopcode <;> rw [hopcode] <;> decide
  refine ⟨_, (Store.execute_effect store now request hother).1, ?_⟩
  rw [Request.status_effect hopcode hextras hcas, Store.seen?]
  cases hseen : store.visible? now request.key with
  | none => simp
  | some entry =>
      rw [htracks.visible (Nat.le_refl _) hseen]
      by_cases hsame : entry.cas = request.cas
      · simp [Entry.snapshot, hsame]
      · simp [Entry.snapshot, hsame]

/-- An item that was removed and stored anew has another version, and a request that asks for the
old one is refused. -/
theorem versions_lock_anew :
    let history : List (Nat × Request) :=
      [(0, .set [107] [49] 0 0), (1, .delete [107]), (2, .add [107] [50] 0 0)]
    (history.map Prod.fst ++ [3]).Pairwise (· ≤ ·) ∧
      (Store.empty 1 0).writes history = [([107], 1), ([107], 2)] ∧
      (((Store.empty 1 0).writes history).map (·.2)).Pairwise (· < ·) ∧
      ∃ response, (((Store.empty 1 0).executed history).execute 3
          { Request.set [107] [51] 0 0 with cas := 1 }).1 = [response] ∧
        response.status = .keyExists := by
  intro history
  have hlock := versions_lock 1 0 history 3 (by decide)
  have hwrites : (Store.empty 1 0).writes history = [([107], 1), ([107], 2)] := by decide
  refine ⟨by decide, hwrites, hlock.1 (by rw [hwrites]; decide), ?_⟩
  obtain ⟨response, hone, hsuccess, hrefused⟩ :=
    hlock.2.2.1 { Request.set [107] [51] 0 0 with cas := 1 } 0 0 (.inl rfl) rfl (by decide)
  have hfailed : response.status ≠ .noError := by
    rw [Ne, hsuccess, hwrites]
    decide
  exact ⟨response, hone, hrefused hfailed⟩

end CachePool
