/-
# What requests do to a store

A request sees the item under its key, unless that has expired, and never how long the item
will still be visible.  From what it sees follow its response and the change to that item;
nothing else of the store changes but what the store counts.

* `Store.visible?` : the item that a request at some time sees under a key;
* `Request.effect` : the response to a request and the change that it makes;
* `Request.Outcome` : all that can come of a request;
* `Store.Becomes` : a store on which a change was made;
* `Store.execute_effect` : so does every request that is executed.
-/
import CachePool.Proofs.StoreReplies

namespace CachePool

/-! ## Visible items -/

/-- An item that has expired stays so. -/
theorem Entry.isExpired_mono {entry : Entry} {now later : Nat} (hlater : now ≤ later)
    (hexpired : entry.isExpired now = true) : entry.isExpired later = true := by
  unfold isExpired at hexpired ⊢
  split at hexpired
  · cases hexpired
  · rw [decide_eq_true_iff] at hexpired ⊢
    omega

/-- An item that is put into a table or drawn from it, as far as it can still be seen. -/
def Entry.seenAt (now : Nat) (entry : Option Entry) : Option Entry :=
  entry.filter fun entry => !entry.isExpired now

/-- What is seen later is among what is seen now. -/
theorem Entry.seenAt_seenAt {now later : Nat} (hlater : now ≤ later) (entry : Option Entry) :
    seenAt later (seenAt now entry) = seenAt later entry := by
  unfold seenAt
  rw [Option.filter_filter]
  congr 1
  funext found
  have hmono := found.isExpired_mono hlater
  cases hnow : found.isExpired now <;> cases hthen : found.isExpired later <;> simp_all

theorem Entry.of_seenAt {now : Nat} {found : Option Entry} {entry : Entry}
    (hseen : seenAt now found = some entry) : found = some entry :=
  (Option.filter_eq_some_iff.mp hseen).1

/-- The table without the item under a key, if that has expired. -/
def Items.dropExpired (items : Items) (now : Nat) (key : Bytes) : Items :=
  match items.find? key with
  | some entry => if entry.isExpired now then items.erase key else items
  | none => items

/-- What is left under the key is what is seen there. -/
theorem Items.find?_dropExpired_self (items : Items) (now : Nat) (key : Bytes) :
    (items.dropExpired now key).find? key = Entry.seenAt now (items.find? key) := by
  unfold dropExpired Entry.seenAt
  cases hfound : items.find? key with
  | none => exact hfound
  | some entry => cases hexpired : entry.isExpired now <;> simp [hexpired, hfound, Option.filter]

theorem Items.find?_dropExpired_of_ne (items : Items) (now : Nat) {key other : Bytes}
    (hne : other ≠ key) : (items.dropExpired now key).find? other = items.find? other := by
  unfold dropExpired
  split
  · split
    · exact find?_erase_of_ne _ hne
    · rfl
  · rfl

theorem Items.find?_of_dropExpired {items : Items} {now : Nat} {key other : Bytes} {entry : Entry}
    (hfound : (items.dropExpired now key).find? other = some entry) :
    items.find? other = some entry := by
  by_cases hkey : other = key
  · rw [hkey, find?_dropExpired_self] at hfound
    exact hkey ▸ Entry.of_seenAt hfound
  · rwa [find?_dropExpired_of_ne _ _ hkey] at hfound

theorem Items.length_dropExpired_le (items : Items) (now : Nat) (key : Bytes) :
    (items.dropExpired now key).length ≤ items.length := by
  unfold dropExpired
  split
  · split
    · exact List.length_filter_le _ _
    · exact Nat.le_refl _
  · exact Nat.le_refl _

/-- Dropping an expired item changes nothing but the table. -/
theorem Store.purge_eq (store : Store) (now : Nat) (key : Bytes) :
    store.purge now key = { store with items := store.items.dropExpired now key } := by
  unfold purge Items.dropExpired
  cases store.items.find? key with
  | none => rfl
  | some entry => cases hexpired : entry.isExpired now <;> simp [hexpired]

namespace Store

/-- The item that is visible under a key at a time. -/
def visible? (store : Store) (now : Nat) (key : Bytes) : Option Entry :=
  Entry.seenAt now (store.items.find? key)

end Store

/-! ## What a request makes of an item -/

/-- What a request sees of an item. -/
structure Snapshot where
  value : Bytes
  flags : UInt32
  cas : UInt64

/-- An item without its lifetime. -/
def Entry.snapshot (entry : Entry) : Snapshot :=
  { value := entry.value, flags := entry.flags, cas := entry.cas }

/-- What a request makes of the item under its key. -/
inductive Change where
  | keep
  /-- A new item, which stays visible as its expiration says. -/
  | create (value : Bytes) (flags expiration : UInt32)
  /-- Another value, which stays visible as long as the old one. -/
  | revise (value : Bytes)
  | remove
  deriving DecidableEq

/-- Whether the change gives a new version. -/
def Change.writes : Change → Bool
  | .create .. | .revise _ => true
  | .keep | .remove => false

namespace Request

/-- What `get` answers. -/
def fetching (request : Request) : Option Snapshot → Response
  | some item =>
    { Store.reply request .noError with
      extras := Response.flagsExtras item.flags
      cas := item.cas
      value := item.value }
  | none => { Store.reply request .keyNotFound with value := .ofString "Not found" }

/-- What `set`, `add` and `replace` do, given the version for a new item. -/
def storing (request : Request) (version : UInt64) (seen : Option Snapshot) : Response × Change :=
  match request.extras with
  | .store flags expiration =>
    match Store.storeRefusal request (seen.map (·.cas)) with
    | some status => (Store.reply request status, .keep)
    | none =>
      ({ Store.reply request .noError with cas := version },
        .create request.value flags expiration)
  | _ => (Store.reply request .invalidArguments, .keep)

/-- What `delete` does. -/
def removing (request : Request) : Option Snapshot → Response × Change
  | none => (Store.reply request .keyNotFound, .keep)
  | some item =>
    if Store.conflicts request item.cas then (Store.reply request .keyExists, .keep)
    else (Store.reply request .noError, .remove)

/-- What `increment` and `decrement` do, given the version for a new value. -/
def counting (request : Request) (version : UInt64) (seen : Option Snapshot) :
    Response × Change :=
  match request.extras with
  | .counter delta initial expiration =>
    match seen with
    | none =>
      if expiration = neverCreate then (Store.reply request .keyNotFound, .keep)
      else
        (Store.counterReply request initial version,
          .create (Store.counterText initial) 0 expiration)
    | some item =>
      if Store.conflicts request item.cas then (Store.reply request .keyExists, .keep)
      else
        match Store.counterValue? item.value with
        | none =>
          ({ Store.reply request .nonNumeric with value := .ofString "Non-numeric value" }, .keep)
        | some value =>
          (Store.counterReply request (Store.step request.opcode value delta) version,
            .revise (Store.counterText (Store.step request.opcode value delta)))
  | _ => (Store.reply request .invalidArguments, .keep)

/-- The response to a request, other than one for statistics, and the change that it makes
where it sees an item; a new item or value has the given version. -/
def effect (request : Request) (version : UInt64) (seen : Option Snapshot) : Response × Change :=
  match request.opcode with
  | .get => (request.fetching seen, .keep)
  | .set | .add | .replace => request.storing version seen
  | .delete => request.removing seen
  | .increment | .decrement => request.counting version seen
  | .version => ({ Store.reply request .noError with value := .ofString Store.versionText }, .keep)
  | .noop | .stat => (Store.reply request .noError, .keep)

end Request

/-! ## What can come of a request -/

/-- Whether a request with the opcode writes an item when it succeeds. -/
def Opcode.writes : Opcode → Bool
  | .set | .add | .replace | .increment | .decrement => true
  | .get | .delete | .noop | .version | .stat => false

namespace Request

variable {request : Request} {version : UInt64} {seen : Option Snapshot}

/-- All that can come of a request, other than one for statistics: its response and its change. -/
inductive Outcome (request : Request) (version : UInt64) (seen : Option Snapshot) :
    Response × Change → Prop
  /-- It does not succeed, which a short text may explain. -/
  | refused {status : Status} {text : Bytes} (hfailed : status.isSuccess = false)
      (hshort : text.length ≤ 17) :
      Outcome request version seen ({ Store.reply request status with value := text }, .keep)
  /-- It is not about an item. -/
  | told {text : Bytes} (hreads : request.opcode.writes = false) (hshort : text.length ≤ 17) :
      Outcome request version seen ({ Store.reply request .noError with value := text }, .keep)
  | fetched {item : Snapshot} (hreads : request.opcode.writes = false) (hseen : seen = some item) :
      Outcome request version seen (request.fetching (some item), .keep)
  | stored {flags expiration : UInt32} (hwrites : request.opcode.writes = true)
      (hextras : request.extras = .store flags expiration) :
      Outcome request version seen
        ({ Store.reply request .noError with cas := version },
          .create request.value flags expiration)
  | created {number : UInt64} {expiration : UInt32} (hwrites : request.opcode.writes = true) :
      Outcome request version seen (Store.counterReply request number version,
        .create (Store.counterText number) 0 expiration)
  | revised {number : UInt64} (hwrites : request.opcode.writes = true) :
      Outcome request version seen
        (Store.counterReply request number version, .revise (Store.counterText number))
  | removed (hremoves : request.opcode.writes = false) :
      Outcome request version seen (Store.reply request .noError, .remove)

/-- It does not succeed, without a text. -/
theorem Outcome.bare {status : Status} (hfailed : status.isSuccess = false) :
    request.Outcome version seen (Store.reply request status, .keep) :=
  @refused request version seen status [] hfailed (Nat.zero_le _)

theorem outcome_fetching (hreads : request.opcode.writes = false) :
    request.Outcome version seen (request.fetching seen, .keep) := by
  cases seen with
  | none => exact .refused rfl (by decide)
  | some item => exact .fetched hreads rfl

theorem outcome_storing (hwrites : request.opcode.writes = true) :
    request.Outcome version seen (request.storing version seen) := by
  unfold storing
  cases hextras : request.extras with
  | store flags expiration =>
      dsimp only
      cases hrefusal : Store.storeRefusal request (seen.map (·.cas)) with
      | some status =>
          refine .bare ?_
          rcases Store.named_of_storeRefusal hrefusal with rfl | rfl <;> rfl
      | none => exact .stored hwrites hextras
  | none => exact .bare rfl
  | counter => exact .bare rfl

theorem outcome_removing (hremoves : request.opcode.writes = false) :
    request.Outcome version seen (request.removing seen) := by
  unfold removing
  split
  · exact .bare rfl
  · split
    · exact .bare rfl
    · exact .removed hremoves

theorem outcome_counting (hwrites : request.opcode.writes = true) :
    request.Outcome version seen (request.counting version seen) := by
  unfold counting
  split
  · split
    · split
      · exact .bare rfl
      · exact .created hwrites
    · split
      · exact .bare rfl
      · split
        · exact .refused rfl (by decide)
        · exact .revised hwrites
  · exact .bare rfl

/-- **What comes of a request is one of these.** -/
theorem outcome_effect (request : Request) (version : UInt64) (seen : Option Snapshot) :
    request.Outcome version seen (request.effect version seen) := by
  have hbare (hreads : request.opcode.writes = false) :
      request.Outcome version seen (Store.reply request .noError, .keep) :=
    @Outcome.told request version seen [] hreads (Nat.zero_le _)
  unfold effect
  cases hopcode : request.opcode with
  | get => exact outcome_fetching (by rw [hopcode]; rfl)
  | set | add | replace => exact outcome_storing (by rw [hopcode]; rfl)
  | delete => exact outcome_removing (by rw [hopcode]; rfl)
  | increment | decrement => exact outcome_counting (by rw [hopcode]; rfl)
  | version => exact .told (by rw [hopcode]; rfl) (by decide)
  | noop | stat => exact hbare (by rw [hopcode]; rfl)

end Request

/-- The counters of a store after a request that found an item or none. -/
def Counters.tally (counters : Counters) (opcode : Opcode) (found : Bool) : Counters :=
  match opcode with
  | .get =>
    { counters with
      gets := counters.gets + 1
      hits := if found then counters.hits + 1 else counters.hits
      misses := if found then counters.misses else counters.misses + 1 }
  | .set | .add | .replace => { counters with sets := counters.sets + 1 }
  | _ => counters

/-- The item that a change leaves where an item was seen. -/
def Change.leaves (now : Nat) (version : UInt64) (seen : Option Entry) : Change → Option Entry
  | .keep => seen
  | .create value flags expiration =>
    some { value, flags, cas := version, expiresAt := Store.expiry expiration now }
  | .revise value => seen.map fun entry => { entry with value, cas := version }
  | .remove => none

/-- What a writing change leaves has the given version. -/
theorem Change.cas_leaves {change : Change} {now : Nat} {version : UInt64} {seen : Option Entry}
    {entry : Entry} (hwrites : change.writes = true)
    (hleaves : change.leaves now version seen = some entry) : entry.cas = version := by
  cases change with
  | create =>
      cases hleaves
      rfl
  | revise =>
      obtain ⟨found, -, rfl⟩ := Option.map_eq_some_iff.mp hleaves
      rfl
  | keep => cases hwrites
  | remove => cases hwrites

/-- What is left without a write was there before. -/
theorem Change.seen_of_leaves {change : Change} {now : Nat} {version : UInt64}
    {seen : Option Entry} {entry : Entry} (hwrites : change.writes = false)
    (hleaves : change.leaves now version seen = some entry) : seen = some entry := by
  cases change with
  | keep => exact hleaves
  | remove => cases hleaves
  | create => cases hwrites
  | revise => cases hwrites

namespace Store

/-- A store on which a request at some time made a change. -/
structure Becomes (store : Store) (now : Nat) (request : Request) (change : Change)
    (after : Store) : Prop where
  here {later : Nat} (hlater : now ≤ later) : after.visible? later request.key
    = Entry.seenAt later (change.leaves now (store.lastCas + 1) (store.visible? now request.key))
  others {key : Bytes} (hne : key ≠ request.key) : after.items.find? key = store.items.find? key
  /-- Whatever is in the table, visible or not, was there or is left by the change. -/
  held {entry : Entry} (hfound : after.items.find? request.key = some entry) :
    store.items.find? request.key = some entry ∨
      change.leaves now (store.lastCas + 1) (store.visible? now request.key) = some entry
  size : after.items.length ≤ store.items.length + 1
  lastCas : after.lastCas = if change.writes then store.lastCas + 1 else store.lastCas
  counters : after.counters
    = store.counters.tally request.opcode (store.visible? now request.key).isSome
  processId : after.processId = store.processId
  startedAt : after.startedAt = store.startedAt

variable {store : Store} {now : Nat} {request : Request} {change : Change} {items : Items}
  {counters : Counters}

/-- A request that finds nothing to change, whether it drops an expired item or not. -/
theorem becomes_keep
    (hitems : items = store.items ∨ items = store.items.dropExpired now request.key)
    (hcounters : counters
      = store.counters.tally request.opcode (store.visible? now request.key).isSome) :
    store.Becomes now request .keep { store with items, counters } where
  here hlater := by
    show Entry.seenAt _ (items.find? request.key) = Entry.seenAt _ (store.visible? now request.key)
    rcases hitems with rfl | rfl
    · exact (Entry.seenAt_seenAt hlater _).symm
    · rw [Items.find?_dropExpired_self]
      rfl
  others hne := by
    rcases hitems with rfl | rfl
    · rfl
    · exact Items.find?_dropExpired_of_ne _ now hne
  held hfound := by
    rcases hitems with rfl | rfl
    · exact .inl hfound
    · exact .inl (Items.find?_of_dropExpired hfound)
  size := by
    rcases hitems with rfl | rfl
    · exact Nat.le_succ _
    · exact Nat.le_succ_of_le (Items.length_dropExpired_le _ _ _)
  lastCas := rfl
  counters := hcounters
  processId := rfl
  startedAt := rfl

/-- A request that puts an item in the place of the one it saw, or where it saw none. -/
theorem becomes_write {value : Bytes} {flags : UInt32} {expiresAt : Option Nat}
    (hwrites : change.writes = true)
    (hleaves : change.leaves now (store.lastCas + 1) (store.visible? now request.key)
      = some { value, flags, cas := store.lastCas + 1, expiresAt })
    (hcounters : counters
      = store.counters.tally request.opcode (store.visible? now request.key).isSome) :
    store.Becomes now request change
      (write { store with items := store.items.dropExpired now request.key, counters }
        request.key value flags expiresAt) where
  here hlater := by
    rw [hleaves, visible?, write]
    exact congrArg _ (Items.find?_insert_self _ _ _)
  others hne := (Items.find?_insert_of_ne _ _ hne).trans (Items.find?_dropExpired_of_ne _ now hne)
  held hfound := .inr (hleaves.trans ((Items.find?_insert_self _ _ _).symm.trans hfound))
  size := by
    show (List.filter _ _).length + 1 ≤ _
    exact Nat.succ_le_succ
      (Nat.le_trans (List.length_filter_le _ _) (Items.length_dropExpired_le _ _ _))
  lastCas := by rw [hwrites]; rfl
  counters := hcounters
  processId := rfl
  startedAt := rfl

/-- A request that removes the item it saw. -/
theorem becomes_remove (hcounters : counters
      = store.counters.tally request.opcode (store.visible? now request.key).isSome) :
    store.Becomes now request .remove
      { store with
        items := (store.items.dropExpired now request.key).erase request.key
        counters } where
  here hlater := by
    show Entry.seenAt _ (Items.find? _ request.key) = _
    rw [Items.find?_erase_self]
    rfl
  others hne := (Items.find?_erase_of_ne _ hne).trans (Items.find?_dropExpired_of_ne _ now hne)
  held hfound := nomatch (Items.find?_erase_self _ _).symm.trans hfound
  size := Nat.le_succ_of_le
    (Nat.le_trans (List.length_filter_le _ _) (Items.length_dropExpired_le _ _ _))
  lastCas := rfl
  counters := hcounters
  processId := rfl
  startedAt := rfl

/-! ## Commands -/

/-- What a request sees of the item under its key. -/
def seen? (store : Store) (now : Nat) (request : Request) : Option Snapshot :=
  (store.visible? now request.key).map Entry.snapshot

/-- A command gives the response of an effect, and makes its change. -/
structure Does (store : Store) (now : Nat) (request : Request) (effect : Response × Change)
    (outcome : Response × Store) : Prop where
  response : outcome.1 = effect.1
  becomes : store.Becomes now request effect.2 outcome.2

theorem does_executeGet (hget : request.opcode = .get) :
    store.Does now request (request.fetching (store.seen? now request), .keep)
      (store.executeGet now request) := by
  unfold executeGet seen?
  rw [purge_eq]
  dsimp only
  rw [Items.find?_dropExpired_self, ← visible?]
  cases hseen : store.visible? now request.key with
  | none =>
      refine ⟨rfl, becomes_keep (.inr rfl) ?_⟩
      rw [hseen, hget]
      rfl
  | some entry =>
      refine ⟨rfl, becomes_keep (.inr rfl) ?_⟩
      rw [hseen, hget]
      rfl

theorem does_executeStore
    (hstores : request.opcode = .set ∨ request.opcode = .add ∨ request.opcode = .replace) :
    store.Does now request (request.storing (store.lastCas + 1) (store.seen? now request))
      (store.executeStore now request) := by
  have hcounters : { store.counters with sets := store.counters.sets + 1 }
      = store.counters.tally request.opcode (store.visible? now request.key).isSome := by
    rcases hstores with hopcode | hopcode | hopcode <;> rw [hopcode] <;> rfl
  unfold executeStore Request.storing seen?
  cases request.extras with
  | store flags expiration =>
      dsimp only
      rw [purge_eq]
      dsimp only
      rw [Items.find?_dropExpired_self, ← visible?, Option.map_map]
      rw [show (·.cas) ∘ Entry.snapshot = (·.cas) from rfl]
      cases storeRefusal request ((store.visible? now request.key).map (·.cas)) with
      | some status => exact ⟨rfl, becomes_keep (.inr rfl) hcounters⟩
      | none => exact ⟨rfl, becomes_write rfl rfl hcounters⟩
  | none => exact ⟨rfl, becomes_keep (.inl rfl) hcounters⟩
  | counter => exact ⟨rfl, becomes_keep (.inl rfl) hcounters⟩

theorem does_executeDelete (hdelete : request.opcode = .delete) :
    store.Does now request (request.removing (store.seen? now request))
      (store.executeDelete now request) := by
  have hcounters : store.counters
      = store.counters.tally request.opcode (store.visible? now request.key).isSome := by
    rw [hdelete]
    rfl
  unfold executeDelete seen?
  rw [purge_eq]
  dsimp only
  rw [Items.find?_dropExpired_self, ← visible?]
  cases hseen : store.visible? now request.key with
  | none => exact ⟨rfl, becomes_keep (.inr rfl) hcounters⟩
  | some entry =>
      dsimp only [Option.map_some, Request.removing, Entry.snapshot]
      split
      · exact ⟨rfl, becomes_keep (.inr rfl) hcounters⟩
      · exact ⟨rfl, becomes_remove hcounters⟩

theorem does_executeCount
    (hcounts : request.opcode = .increment ∨ request.opcode = .decrement) :
    store.Does now request (request.counting (store.lastCas + 1) (store.seen? now request))
      (store.executeCount now request) := by
  have hcounters : store.counters
      = store.counters.tally request.opcode (store.visible? now request.key).isSome := by
    rcases hcounts with hopcode | hopcode <;> rw [hopcode] <;> rfl
  unfold executeCount Request.counting seen?
  cases request.extras with
  | counter delta initial expiration =>
      rw [purge_eq]
      dsimp only
      rw [Items.find?_dropExpired_self, ← visible?]
      cases hseen : store.visible? now request.key with
      | none =>
          dsimp only [Option.map_none]
          split
          · exact ⟨rfl, becomes_keep (.inr rfl) hcounters⟩
          · exact ⟨rfl, becomes_write rfl rfl hcounters⟩
      | some entry =>
          dsimp only [Option.map_some, Entry.snapshot]
          split
          · exact ⟨rfl, becomes_keep (.inr rfl) hcounters⟩
          · cases counterValue? entry.value with
            | none => exact ⟨rfl, becomes_keep (.inr rfl) hcounters⟩
            | some value => exact ⟨rfl, becomes_write rfl (by rw [hseen]; rfl) hcounters⟩
  | none => exact ⟨rfl, becomes_keep (.inl rfl) hcounters⟩
  | store => exact ⟨rfl, becomes_keep (.inl rfl) hcounters⟩

/-- **What a request does.** A request, other than one for statistics, gives one response;
the response and the change that it makes depend only on what it sees under its key. -/
theorem execute_effect (store : Store) (now : Nat) (request : Request)
    (hother : request.opcode ≠ .stat) :
    (store.execute now request).1
        = [(request.effect (store.lastCas + 1) (store.seen? now request)).1] ∧
      store.Becomes now request (request.effect (store.lastCas + 1) (store.seen? now request)).2
        (store.execute now request).2 := by
  have hsingle {effect : Response × Change} {outcome : Response × Store}
      (hdoes : store.Does now request effect outcome) :
      [outcome.1] = [effect.1] ∧ store.Becomes now request effect.2 outcome.2 :=
    ⟨congrArg (fun response => [response]) hdoes.response, hdoes.becomes⟩
  have hcounters (hfree : request.opcode = .noop ∨ request.opcode = .version) : store.counters
      = store.counters.tally request.opcode (store.visible? now request.key).isSome := by
    rcases hfree with hopcode | hopcode <;> rw [hopcode] <;> rfl
  unfold execute Request.effect
  dsimp only
  cases hopcode : request.opcode with
  | get => exact hsingle (does_executeGet hopcode)
  | set => exact hsingle (does_executeStore (.inl hopcode))
  | add => exact hsingle (does_executeStore (.inr (.inl hopcode)))
  | replace => exact hsingle (does_executeStore (.inr (.inr hopcode)))
  | delete => exact hsingle (does_executeDelete hopcode)
  | increment => exact hsingle (does_executeCount (.inl hopcode))
  | decrement => exact hsingle (does_executeCount (.inr hopcode))
  | noop => exact ⟨rfl, becomes_keep (.inl rfl) (hcounters (.inl hopcode))⟩
  | version => exact ⟨rfl, becomes_keep (.inl rfl) (hcounters (.inr hopcode))⟩
  | stat => exact absurd hopcode hother

/-- A request that keeps the item leaves everything visible that was so. -/
theorem Becomes.visible?_keep {after : Store} (hbecomes : store.Becomes now request .keep after)
    {later : Nat} (hlater : now ≤ later) (key : Bytes) :
    after.visible? later key = store.visible? later key := by
  by_cases hkey : key = request.key
  · rw [hkey, hbecomes.here hlater]
    exact Entry.seenAt_seenAt hlater _
  · rw [visible?, visible?, hbecomes.others hkey]

/-- A request for statistics changes nothing. -/
theorem snd_execute_stat (store : Store) (now : Nat) (hstat : request.opcode = .stat) :
    (store.execute now request).2 = store := by
  unfold execute
  rw [hstat]

end Store

end CachePool
