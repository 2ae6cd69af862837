/-
# Item tables

The items of a server by key.  A table is seen through `find?`: after an
insertion or a removal it answers as before for every other key.
-/
import CachePool.Bytes

namespace CachePool

/-- A stored item. Times are milliseconds after the epoch. -/
structure Entry where
  value : Bytes
  flags : UInt32
  /-- The version of the item, new with every write. -/
  cas : UInt64
  /-- When the item stops being visible, if ever. -/
  expiresAt : Option Nat
  deriving DecidableEq

/-- Whether the item is no longer visible at `now`. -/
def Entry.isExpired (entry : Entry) (now : Nat) : Bool :=
  match entry.expiresAt with
  | none => false
  | some time => time ≤ now

/-- The items of a server by key. -/
abbrev Items := List (Bytes × Entry)

namespace Items

/-- The item under a key. -/
def find? (items : Items) (key : Bytes) : Option Entry :=
  items.lookup key

/-- The table without the item under a key. -/
def erase (items : Items) (key : Bytes) : Items :=
  items.filter (fun item => item.1 ≠ key)

/-- The table with an item put under a key. -/
def insert (items : Items) (key : Bytes) (entry : Entry) : Items :=
  (key, entry) :: items.erase key

/-- Nothing is found under a key that was removed. -/
@[simp] theorem find?_erase_self (items : Items) (key : Bytes) :
    (items.erase key).find? key = none := by
  simp only [find?, erase, List.lookup_eq_none_iff, List.mem_filter]
  intro item kept
  simpa using fun same : key = item.1 => of_decide_eq_true kept.2 same.symm

/-- A removal does not concern other keys. -/
theorem find?_erase_of_ne (items : Items) {key other : Bytes} (h : other ≠ key) :
    (items.erase key).find? other = items.find? other := by
  simp only [find?, erase]
  induction items with
  | nil => rfl
  | cons item items ih =>
    obtain ⟨name, entry⟩ := item
    by_cases same : name = key
    · have differs : (other == name) = false := by simpa [same] using h
      rw [List.filter_cons_of_neg (by simpa using same), ih, List.lookup_cons, differs]
    · rw [List.filter_cons_of_pos (by simpa using same), List.lookup_cons, List.lookup_cons, ih]

/-- The item put under a key is found there. -/
@[simp] theorem find?_insert_self (items : Items) (key : Bytes) (entry : Entry) :
    (items.insert key entry).find? key = some entry := by
  simp [find?, insert]

/-- An insertion does not concern other keys. -/
theorem find?_insert_of_ne (items : Items) {key other : Bytes} (entry : Entry)
    (h : other ≠ key) : (items.insert key entry).find? other = items.find? other := by
  have differs : (other == key) = false := by simpa using h
  rw [← find?_erase_of_ne items h]
  simp [find?, insert, List.lookup_cons, differs]

end Items

end CachePool
