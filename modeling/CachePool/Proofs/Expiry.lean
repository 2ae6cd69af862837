/-
# Items that expire

A store drops an expired item only when a request comes for its key; until then the item
stays in the table.  Next to it stands an eager store, which remembers of every item when it
was stored and with which expiration, and removes all items that have expired before every
step.  Nobody can tell the two apart, but by the number of items.

* `Dated.isVisible` : how long an item is visible;
* `Eager` : the store that removes every expired item at once;
* `Store.Reflects` : a store that shows what an eager one holds;
* `lazy_expiry_unseen` : a store answers as the eager one.
-/
import Std.Data.HashMap.Lemmas
import CachePool.Proofs.Effects

namespace CachePool

/-! ## The eager store -/

/-- An item that knows when it was stored and with which expiration. -/
structure Dated extends Snapshot where
  /-- The time in milliseconds. -/
  storedAt : Nat
  /-- The expiration in seconds. -/
  expiration : UInt32

/-- Whether an item is visible: always without an expiration, for so many seconds up to thirty
days, and beyond that until so many seconds after the epoch. -/
def Dated.isVisible (now : Nat) (item : Dated) : Bool :=
  let seconds := item.expiration.toNat
  seconds = 0
    ∨ 1 ≤ seconds ∧ seconds ≤ 2592000 ∧ now < item.storedAt + seconds * 1000
    ∨ 2592000 < seconds ∧ now < seconds * 1000

/-- The item as a store holds it that has only the end of its lifetime. -/
def Dated.entry (item : Dated) : Entry where
  value := item.value
  flags := item.flags
  cas := item.cas
  expiresAt := Store.expiry item.expiration item.storedAt

/-- A store that removes every expired item before each step. -/
structure Eager where
  items : Std.HashMap Bytes Dated
  lastCas : UInt64
  counters : Counters
  processId : Nat
  startedAt : Nat

/-- The item that a change leaves where an item was found. -/
def Change.dates (now : Nat) (version : UInt64) (found : Option Dated) : Change → Option Dated
  | .keep => found
  | .create value flags expiration =>
    some { value, flags, cas := version, storedAt := now, expiration }
  | .revise value => found.map fun item => { item with value, cas := version }
  | .remove => none

namespace Eager

/-- An eager store without items. -/
def empty (processId startedAt : Nat) : Eager where
  items := ∅
  lastCas := 0
  counters := (Store.empty processId startedAt).counters
  processId := processId
  startedAt := startedAt

/-- The store without its expired items. -/
def sweep (eager : Eager) (now : Nat) : Eager :=
  { eager with items := eager.items.filter fun _ item => item.isVisible now }

/-- The store with what statistics are made of. -/
def view (eager : Eager) : Store where
  items := eager.items.toList.map fun (key, item) => (key, item.entry)
  lastCas := eager.lastCas
  counters := eager.counters
  processId := eager.processId
  startedAt := eager.startedAt

/-- The store after a request made a change, with the item that it found under its key. -/
def update (eager : Eager) (now : Nat) (request : Request) (change : Change) : Eager :=
  { eager with
    items := eager.items.alter request.key fun found =>
      change.dates now (eager.lastCas + 1) found
    lastCas := if change.writes then eager.lastCas + 1 else eager.lastCas
    counters := eager.counters.tally request.opcode eager.items[request.key]?.isSome }

/-- Removes all expired items, and applies a request. -/
def execute (eager : Eager) (now : Nat) (request : Request) : List Response × Eager :=
  let eager := eager.sweep now
  if request.opcode = .stat then (eager.view.executeStat now request, eager)
  else
    let seen := eager.items[request.key]?.map (·.toSnapshot)
    let (response, change) := request.effect (eager.lastCas + 1) seen
    ([response], eager.update now request change)

/-- Removes all expired items, and looks at a value. -/
def peek (eager : Eager) (now : Nat) (key : Bytes) : Option Bytes × Eager :=
  let eager := eager.sweep now
  (eager.items[key]?.map (·.value), eager)

/-- Counts a connection that was opened. -/
def connectionOpened (eager : Eager) : Eager :=
  { eager with
    counters := { eager.counters with connections := eager.counters.connections + 1 } }

end Eager

/-! ## What is given -/

/-- What is done with a store. -/
inductive Access where
  | execute (request : Request)
  | peek (key : Bytes)
  | connect

/-- What a store gives. -/
inductive Yield where
  | responses (responses : List Response)
  | value (value : Option Bytes)
  | nothing

/-- The responses are equal, or both tell a number of items. -/
def Response.SameButItems (response other : Response) : Prop :=
  response = other ∨
    response.opcode = .stat ∧ response.key = .ofString "curr_items" ∧
      other = { response with value := other.value }

/-- What is given is the same, but for the number of items in statistics. -/
inductive Yield.SameButItems : Yield → Yield → Prop
  | responses {first second : List Response}
      (hsame : List.Forall₂ Response.SameButItems first second) :
      SameButItems (.responses first) (.responses second)
  | value (value : Option Bytes) : SameButItems (.value value) (.value value)
  | nothing : SameButItems .nothing .nothing

/-- What can be used as a store. -/
class Storing (σ : Type) where
  execute : σ → Nat → Request → List Response × σ
  peek : σ → Nat → Bytes → Option Bytes × σ
  connect : σ → σ

instance : Storing Store where
  execute := Store.execute
  peek := Store.peek
  connect := Store.connectionOpened

instance : Storing Eager where
  execute := Eager.execute
  peek := Eager.peek
  connect := Eager.connectionOpened

section

variable {σ : Type} [Storing σ]

/-- Does something with a store. -/
def Access.apply (store : σ) (now : Nat) : Access → Yield × σ
  | .execute request =>
    let (responses, store) := Storing.execute store now request
    (.responses responses, store)
  | .peek key =>
    let (value, store) := Storing.peek store now key
    (.value value, store)
  | .connect => (.nothing, Storing.connect store)

/-- Does one thing after the other, each at its time. -/
def Access.applyAll (store : σ) : List (Nat × Access) → List Yield × σ
  | [] => ([], store)
  | (now, access) :: accesses =>
    let (yield, store) := access.apply store now
    let (yields, store) := applyAll store accesses
    (yield :: yields, store)

end

/-! ## Lifetimes -/

namespace Dated

/-- The two ways to tell whether an item is visible agree. -/
theorem isExpired_entry (item : Dated) (now : Nat) :
    item.entry.isExpired now = !item.isVisible now := by
  unfold Entry.isExpired entry Store.expiry isVisible Store.relativeLimit
  dsimp only
  generalize item.expiration.toNat = seconds
  by_cases hnever : seconds = 0
  · simp [hnever]
  · by_cases hrelative : seconds ≤ 60 * 60 * 24 * 30
    · rw [if_neg hnever, if_pos hrelative, Bool.eq_iff_iff]
      simp
      omega
    · rw [if_neg hnever, if_neg hrelative, Bool.eq_iff_iff]
      simp
      omega

/-- An item that is visible was so before. -/
theorem isVisible_of_le {item : Dated} {now later : Nat} (hlater : now ≤ later)
    (hvisible : item.isVisible later = true) : item.isVisible now = true := by
  have hmono := item.entry.isExpired_mono hlater
  rw [isExpired_entry, isExpired_entry] at hmono
  cases hnow : item.isVisible now with
  | true => rfl
  | false => simp_all

/-- What an entry shows at a time is what its item shows then. -/
theorem seenAt_entry (now : Nat) (found : Option Dated) :
    Entry.seenAt now (found.map entry) = (found.filter (isVisible now)).map entry := by
  cases found with
  | none => rfl
  | some item => cases hvisible : item.isVisible now <;>
      simp [Entry.seenAt, Option.filter, isExpired_entry, hvisible]

end Dated

/-- A change leaves the same item, whichever way its lifetime is remembered. -/
theorem Change.leaves_entry (change : Change) (now : Nat) (version : UInt64)
    (found : Option Dated) :
    change.leaves now version (found.map Dated.entry)
      = (change.dates now version found).map Dated.entry := by
  cases change with
  | keep => rfl
  | create => rfl
  | revise => cases found <;> rfl
  | remove => rfl

namespace Eager

/-- The item that is visible under a key at a time. -/
def visible? (eager : Eager) (now : Nat) (key : Bytes) : Option Dated :=
  eager.items[key]?.filter (Dated.isVisible now)

theorem getElem?_sweep (eager : Eager) (now : Nat) (key : Bytes) :
    (eager.sweep now).items[key]? = eager.visible? now key :=
  Std.HashMap.getElem?_filter'

/-- What is swept away is not visible later. -/
theorem visible?_sweep (eager : Eager) {now later : Nat} (hlater : now ≤ later) (key : Bytes) :
    (eager.sweep now).visible? later key = eager.visible? later key := by
  rw [visible?, getElem?_sweep, visible?, visible?, Option.filter_filter]
  congr 1
  funext item
  rw [Bool.and_eq_right_iff_imp]
  exact Dated.isVisible_of_le hlater

end Eager

/-! ## A store that reflects an eager one -/

/-- A store that shows from some time on what an eager store holds. -/
structure Store.Reflects (store : Store) (eager : Eager) (time : Nat) : Prop where
  items {now : Nat} (hnow : time ≤ now) (key : Bytes) :
    store.visible? now key = (eager.visible? now key).map Dated.entry
  lastCas : store.lastCas = eager.lastCas
  counters : store.counters = eager.counters
  processId : store.processId = eager.processId
  startedAt : store.startedAt = eager.startedAt

namespace Store.Reflects

variable {store : Store} {eager : Eager} {time now : Nat}

/-- Stores without items show the same. -/
theorem empty (processId startedAt : Nat) :
    (Store.empty processId startedAt).Reflects (.empty processId startedAt) 0 where
  items _ key := by
    have hnone : (Eager.empty processId startedAt).items[key]? = none := Std.HashMap.getElem?_empty
    rw [Eager.visible?, hnone]
    rfl
  lastCas := rfl
  counters := rfl
  processId := rfl
  startedAt := rfl

/-- An eager store that removes what has expired goes on holding what is shown. -/
theorem sweep (hreflects : store.Reflects eager time) (hnow : time ≤ now) :
    store.Reflects (eager.sweep now) now where
  items hlater key := by
    rw [Eager.visible?_sweep _ hlater]
    exact hreflects.items (Nat.le_trans hnow hlater) key
  lastCas := hreflects.lastCas
  counters := hreflects.counters
  processId := hreflects.processId
  startedAt := hreflects.startedAt

/-- An eager store that was swept holds what is seen. -/
theorem found (hreflects : store.Reflects eager time) (hnow : time ≤ now) (key : Bytes) :
    store.visible? now key = (eager.sweep now).items[key]?.map Dated.entry := by
  rw [Eager.getElem?_sweep]
  exact hreflects.items hnow key

/-- Looking at a value drops at most an expired item. -/
theorem peek (hreflects : store.Reflects eager time) (hnow : time ≤ now) (key : Bytes) :
    (store.peek now key).1 = (eager.peek now key).1 ∧
      (store.peek now key).2.Reflects (eager.peek now key).2 now := by
  unfold Store.peek Eager.peek
  rw [Store.purge_eq]
  dsimp only
  rw [Items.find?_dropExpired_self, ← Store.visible?, hreflects.found hnow, Option.map_map]
  refine ⟨rfl, ?_⟩
  have hswept := hreflects.sweep hnow
  refine ⟨fun {later} hlater other => ?_, hswept.lastCas, hswept.counters, hswept.processId,
    hswept.startedAt⟩
  rw [← hswept.items hlater]
  unfold Store.visible?
  by_cases hkey : other = key
  · rw [hkey, Items.find?_dropExpired_self, Entry.seenAt_seenAt hlater]
  · rw [Items.find?_dropExpired_of_ne _ _ hkey]

/-- **A change is made on both sides.** -/
theorem update {after : Store} {request : Request} {change : Change}
    (hreflects : store.Reflects eager time) (hnow : time ≤ now)
    (hbecomes : store.Becomes now request change after) :
    after.Reflects ((eager.sweep now).update now request change) now where
  items {later} hlater key := by
    have hfound := hreflects.found hnow request.key
    rw [Eager.visible?, Eager.update]
    dsimp only
    rw [Std.HashMap.getElem?_alter]
    -- under the key of the request the change, and under the others what was there
    by_cases hkey : request.key = key
    · rw [if_pos (beq_iff_eq.mpr hkey), ← hkey, hbecomes.here hlater, hfound, hreflects.lastCas,
        Change.leaves_entry, Dated.seenAt_entry]
      rfl
    · have hsame : after.visible? later key = store.visible? later key := by
        unfold Store.visible?
        rw [hbecomes.others fun hsame => hkey hsame.symm]
      rw [if_neg (by simpa using hkey), hsame]
      exact (hreflects.sweep hnow).items hlater key
  lastCas := by
    rw [hbecomes.lastCas, hreflects.lastCas]
    rfl
  counters := by
    rw [hbecomes.counters, hreflects.counters, hreflects.found hnow, Option.isSome_map]
    rfl
  processId := hbecomes.processId.trans hreflects.processId
  startedAt := hbecomes.startedAt.trans hreflects.startedAt

end Store.Reflects

/-! ## What both stores give -/

/-- Statistics that agree but for the number of items are told in replies that do so. -/
theorem Store.sameButItems_statReplies {request : Request} {first second : List (String × String)}
    (hstat : request.opcode = .stat)
    (hsame : List.Forall₂ (fun entry other => entry = other ∨
      entry.1 = "curr_items" ∧ other.1 = "curr_items") first second) :
    List.Forall₂ Response.SameButItems (statReplies request first)
      (statReplies request second) := by
  refine List.rel_append ?_ (.cons (.inl rfl) .nil)
  rw [List.forall₂_map_left_iff, List.forall₂_map_right_iff]
  refine hsame.imp ?_
  rintro ⟨name, value⟩ ⟨other, number⟩ (hentry | ⟨rfl, rfl⟩)
  · exact .inl (by rw [hentry])
  · exact .inr ⟨hstat, rfl, rfl⟩

namespace Store.Reflects

variable {store : Store} {eager : Eager} {time now : Nat} {request : Request}

/-- The general statistics differ in the number of items at most. -/
theorem generalStats (hreflects : store.Reflects eager time) (now : Nat) :
    List.Forall₂ (fun entry other => entry = other ∨
      entry.1 = "curr_items" ∧ other.1 = "curr_items")
      (store.generalStats now) (eager.view.generalStats now) := by
  unfold Store.generalStats Eager.view
  dsimp only
  rw [hreflects.counters, hreflects.processId, hreflects.startedAt]
  exact .cons (.inl rfl) <| .cons (.inl rfl) <| .cons (.inl rfl) <| .cons (.inr ⟨rfl, rfl⟩) <|
    .cons (.inl rfl) <| .cons (.inl rfl) <| .cons (.inl rfl) <| .cons (.inl rfl) <|
    .cons (.inl rfl) .nil

theorem executeStat (hreflects : store.Reflects eager time) (now : Nat)
    (hstat : request.opcode = .stat) :
    List.Forall₂ Response.SameButItems (store.executeStat now request)
      (eager.view.executeStat now request) := by
  unfold Store.executeStat
  split
  · exact sameButItems_statReplies hstat (hreflects.generalStats now)
  split
  · exact List.forall₂_same.mpr fun _ _ => .inl rfl
  · exact List.forall₂_same.mpr fun _ _ => .inl rfl

/-- **A request is answered alike, and leaves stores that show the same.** -/
theorem execute (hreflects : store.Reflects eager time) (hnow : time ≤ now) (request : Request) :
    List.Forall₂ Response.SameButItems (store.execute now request).1 (eager.execute now request).1 ∧
      (store.execute now request).2.Reflects (eager.execute now request).2 now := by
  unfold Eager.execute
  dsimp only
  split
  · rename_i hstat
    rw [execute_stat store now hstat, snd_execute_stat store now hstat]
    have hswept := hreflects.sweep hnow
    exact ⟨hswept.executeStat now hstat, hswept⟩
  · rename_i hother
    obtain ⟨hresponses, hbecomes⟩ := execute_effect store now request hother
    have hseen : store.seen? now request
        = (eager.sweep now).items[request.key]?.map (·.toSnapshot) := by
      unfold seen?
      rw [hreflects.found hnow, Option.map_map]
      rfl
    rw [hseen, hreflects.lastCas] at hresponses hbecomes
    rw [hresponses]
    exact ⟨.cons (.inl rfl) .nil, hreflects.update hnow hbecomes⟩

theorem apply (hreflects : store.Reflects eager time) (hnow : time ≤ now) (access : Access) :
    (access.apply store now).1.SameButItems (access.apply eager now).1 ∧
      (access.apply store now).2.Reflects (access.apply eager now).2 now := by
  cases access with
  | execute request =>
      obtain ⟨hresponses, hafter⟩ := hreflects.execute hnow request
      exact ⟨.responses hresponses, hafter⟩
  | peek key =>
      obtain ⟨hvalue, hafter⟩ := hreflects.peek hnow key
      refine ⟨?_, hafter⟩
      show Yield.SameButItems (.value (store.peek now key).1) (.value (eager.peek now key).1)
      rw [hvalue]
      exact .value _
  | connect =>
      refine ⟨.nothing, fun hlater key => hreflects.items (Nat.le_trans hnow hlater) key,
        hreflects.lastCas, ?_, hreflects.processId, hreflects.startedAt⟩
      show Store.counters store.connectionOpened = Eager.counters eager.connectionOpened
      rw [Store.connectionOpened, Eager.connectionOpened, hreflects.counters]

theorem applyAll (hreflects : store.Reflects eager time) {accesses : List (Nat × Access)}
    (hordered : (time :: accesses.map (·.1)).Pairwise (· ≤ ·)) :
    List.Forall₂ Yield.SameButItems (Access.applyAll store accesses).1
        (Access.applyAll eager accesses).1 ∧
      ∃ last,
        (Access.applyAll store accesses).2.Reflects (Access.applyAll eager accesses).2 last := by
  induction accesses generalizing store eager time with
  | nil => exact ⟨.nil, time, hreflects⟩
  | cons first accesses ih =>
      obtain ⟨now, access⟩ := first
      rw [List.map_cons, List.pairwise_cons] at hordered
      obtain ⟨hyield, hafter⟩ := hreflects.apply (hordered.1 now List.mem_cons_self) access
      obtain ⟨hyields, hlast⟩ := ih hafter hordered.2
      exact ⟨.cons hyield hyields, hlast⟩

end Store.Reflects

/-- **Nobody sees when expired items are dropped.**  Whatever is done with a store, at times that
do not decrease, it gives what a store gives that removes every expired item before each step,
but for the number of items in the statistics.  In the end both have given the same versions, and
they have counted the same. -/
theorem lazy_expiry_unseen (processId startedAt : Nat) (accesses : List (Nat × Access))
    (hordered : (accesses.map (·.1)).Pairwise (· ≤ ·)) :
    List.Forall₂ Yield.SameButItems
        (Access.applyAll (Store.empty processId startedAt) accesses).1
        (Access.applyAll (Eager.empty processId startedAt) accesses).1 ∧
      (Access.applyAll (Store.empty processId startedAt) accesses).2.lastCas
        = (Access.applyAll (Eager.empty processId startedAt) accesses).2.lastCas ∧
      (Access.applyAll (Store.empty processId startedAt) accesses).2.counters
        = (Access.applyAll (Eager.empty processId startedAt) accesses).2.counters := by
  have hordered : (0 :: accesses.map (·.1)).Pairwise (· ≤ ·) :=
    List.pairwise_cons.mpr ⟨fun _ _ => Nat.zero_le _, hordered⟩
  obtain ⟨hyields, last, hlast⟩ := (Store.Reflects.empty processId startedAt).applyAll hordered
  exact ⟨hyields, hlast.lastCas, hlast.counters⟩

/-- An item that is stored for a second is seen until then, and not from then on: it is looked
at, counted up, stored anew and told of in the statistics. -/
theorem lazy_expiry_unseen_second :
    let accesses : List (Nat × Access) :=
      [(0, .execute (.set [107] [49] 7 1)), (999, .execute (.increment [107] 2 5 0)),
        (1000, .execute (.get [107])), (1000, .peek [107]), (1000, .execute (.stat [])),
        (1000, .execute (.replace [107] [118] 0 0))]
    (accesses.map (·.1)).Pairwise (· ≤ ·) ∧
      List.Forall₂ Yield.SameButItems (Access.applyAll (Store.empty 1 0) accesses).1
        (Access.applyAll (Eager.empty 1 0) accesses).1 := by
  exact ⟨by decide, (lazy_expiry_unseen 1 0 _ (by decide)).1⟩

end CachePool
