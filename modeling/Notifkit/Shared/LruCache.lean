import Mathlib.Data.List.Nodup

/-!
# A cache that forgets what was not used for long

Entries stand in the order they were last used in. A full cache gives up the first of them, and an
entry whose time is over is gone as soon as it is asked for.

Where values are read from elsewhere and what they were read from changes, an entry is fresh if it
was read after the last change of its key that was told. The counts of changes are all that it takes:
`cut` says how many there were of a key, and `stamp` how many there had been when a value was read.
-/

namespace Notifkit.Shared

universe u v
variable {κ : Type u} {ν : Type v}

/-- A value under its key, with the last instant it is kept. -/
structure Cached (κ : Type u) (ν : Type v) where
  key : κ
  value : ν
  expiresAt : Int
deriving DecidableEq

/-- The entries of a cache, the one that was used last at the end. -/
structure LRUCache (κ : Type u) (ν : Type v) where
  maxSize : Nat := 1000
  defaultTtlMs : Int := 5 * 60 * 1000
  entries : List (Cached κ ν) := []
  /-- each key has one entry -/
  distinct : (entries.map Cached.key).Nodup := by exact List.nodup_nil

namespace LRUCache

variable {cache : LRUCache κ ν} {now : Int} {key : κ} {value : ν} {entry : Cached κ ν}

/-- Fewer entries are distinct as well. -/
theorem sublist_distinct {fewer : List (Cached κ ν)} (within : fewer.Sublist cache.entries) :
    (fewer.map Cached.key).Nodup :=
  cache.distinct.sublist (within.map Cached.key)

variable [DecidableEq κ]

/-- The entry of a key. -/
def find (cache : LRUCache κ ν) (key : κ) : Option (Cached κ ν) :=
  cache.entries.find? fun entry => entry.key = key

def delete (cache : LRUCache κ ν) (key : κ) : LRUCache κ ν := { cache with
  entries := cache.entries.filter fun entry => entry.key ≠ key
  distinct := sublist_distinct List.filter_sublist }

def clear (cache : LRUCache κ ν) : LRUCache κ ν := { cache with
  entries := []
  distinct := List.nodup_nil }

/-- The oldest entry goes. -/
def evict (cache : LRUCache κ ν) : LRUCache κ ν := { cache with
  entries := cache.entries.tail
  distinct := sublist_distinct (List.tail_sublist _) }

/-- What is left without a key. -/
theorem mem_delete : entry ∈ (cache.delete key).entries ↔ entry ∈ cache.entries ∧ entry.key ≠ key := by
  simp [delete]

/-- An entry that is put at the end. -/
def push (cache : LRUCache κ ν) (entry : Cached κ ν) : LRUCache κ ν := { cache with
  entries := (cache.delete entry.key).entries ++ [entry]
  distinct := by
    rw [List.map_append, List.nodup_append]
    refine ⟨(cache.delete entry.key).distinct, List.nodup_singleton _, ?_⟩
    intro other listed same here
    obtain ⟨found, member, rfl⟩ := List.mem_map.mp listed
    obtain rfl := List.mem_singleton.mp here
    exact (mem_delete.mp member).2 }

/-- The value of a key, if its time is not over; it is then the one that was used last. -/
def get (cache : LRUCache κ ν) (now : Int) (key : κ) : LRUCache κ ν × Option ν :=
  match cache.find key with
  | none => (cache, none)
  | some item =>
    if item.expiresAt < now then (cache.delete key, none) else (cache.push item, some item.value)

/-- Put a value under a key; a full cache gives up its oldest entry for it. -/
def set (cache : LRUCache κ ν) (now : Int) (key : κ) (value : ν) : LRUCache κ ν :=
  let cache :=
    if (cache.find key).isSome then cache.delete key
    else if cache.maxSize ≤ cache.entries.length then cache.evict
    else cache
  cache.push ⟨key, value, now + cache.defaultTtlMs⟩

/-- The entry that is found is the one of the key. -/
theorem find_eq_some : cache.find key = some entry ↔ entry ∈ cache.entries ∧ entry.key = key := by
  constructor
  · intro found
    exact ⟨List.mem_of_find?_eq_some found, by simpa using List.find?_some found⟩
  · rintro ⟨member, rfl⟩
    cases found : cache.find entry.key with
    | none =>
      have missed := List.find?_eq_none.mp found entry member
      simp at missed
    | some other =>
      have here := List.mem_of_find?_eq_some found
      have same : other.key = entry.key := by simpa using List.find?_some found
      rw [List.inj_on_of_nodup_map cache.distinct here member same]

/-- A pushed entry takes the place of its key. -/
theorem mem_push {new : Cached κ ν} :
    entry ∈ (cache.push new).entries ↔ entry = new ∨ entry ∈ cache.entries ∧ entry.key ≠ new.key := by
  simp only [push, List.mem_append, mem_delete, List.mem_singleton]
  exact or_comm

/-- A read answers with an entry whose time is not over. -/
theorem get_eq_some : (cache.get now key).2 = some value ↔
    ∃ expiresAt, (⟨key, value, expiresAt⟩ : Cached κ ν) ∈ cache.entries ∧ now ≤ expiresAt := by
  unfold get
  cases found : cache.find key with
  | none =>
    constructor
    · exact nofun
    · rintro ⟨expiresAt, member, _⟩
      rw [find_eq_some.mpr ⟨member, rfl⟩] at found
      cases found
  | some item =>
    obtain ⟨listed, rfl⟩ := find_eq_some.mp found
    constructor
    · intro answered
      dsimp only at answered
      split at answered
      · cases answered
      next inTime =>
        obtain rfl := Option.some.inj answered
        exact ⟨item.expiresAt, listed, Int.not_lt.mp inTime⟩
    · rintro ⟨expiresAt, member, inTime⟩
      have only := find_eq_some.mpr ⟨member, rfl⟩
      rw [found] at only
      rw [Option.some.inj only]
      simp [Int.not_lt.mpr inTime]

/-- A read adds nothing. -/
theorem mem_of_get (member : entry ∈ (cache.get now key).1.entries) : entry ∈ cache.entries := by
  unfold get at member
  cases found : cache.find key with
  | none => simpa [found] using member
  | some item =>
    simp only [found] at member
    split at member
    · exact (mem_delete.mp member).1
    · obtain rfl | ⟨old, _⟩ := mem_push.mp member
      · exact (find_eq_some.mp found).1
      · exact old

/-- After a read without an answer there is no entry of the key. -/
theorem absent_of_get (missed : (cache.get now key).2 = none)
    (member : entry ∈ (cache.get now key).1.entries) : entry.key ≠ key := by
  unfold get at missed member
  cases found : cache.find key with
  | none =>
    simp only [found] at member
    rintro rfl
    rw [find_eq_some.mpr ⟨member, rfl⟩] at found
    cases found
  | some item =>
    simp only [found] at missed member
    split at member
    · exact (mem_delete.mp member).2
    next inTime => simp [inTime] at missed

/-- The value that is put under a key is there. -/
theorem mem_set_self : (⟨key, value, now + cache.defaultTtlMs⟩ : Cached κ ν) ∈
    (cache.set now key value).entries := by
  unfold set
  apply mem_push.mpr
  left
  split
  · rfl
  · split <;> rfl

/-- Nothing else is added. -/
theorem mem_of_set (member : entry ∈ (cache.set now key value).entries) :
    entry = ⟨key, value, now + cache.defaultTtlMs⟩ ∨ entry ∈ cache.entries ∧ entry.key ≠ key := by
  unfold set at member
  obtain rfl | ⟨old, other⟩ := mem_push.mp member
  · left
    split
    · rfl
    · split <;> rfl
  · right
    refine ⟨?_, other⟩
    split at old
    · exact (mem_delete.mp old).1
    · split at old
      · exact List.mem_of_mem_tail old
      · exact old

omit [DecidableEq κ] in
@[simp] theorem clear_ttl (cache : LRUCache κ ν) :
    cache.clear.defaultTtlMs = cache.defaultTtlMs := rfl

@[simp] theorem delete_ttl (cache : LRUCache κ ν) (key : κ) :
    (cache.delete key).defaultTtlMs = cache.defaultTtlMs := rfl

@[simp] theorem get_ttl (cache : LRUCache κ ν) (now : Int) (key : κ) :
    (cache.get now key).1.defaultTtlMs = cache.defaultTtlMs := by
  unfold get
  split
  · rfl
  · split <;> rfl

@[simp] theorem set_ttl (cache : LRUCache κ ν) (now : Int) (key : κ) (value : ν) :
    (cache.set now key value).defaultTtlMs = cache.defaultTtlMs := by
  unfold set
  dsimp only
  split
  · rfl
  · split <;> rfl

@[simp] theorem delete_maxSize (cache : LRUCache κ ν) (key : κ) :
    (cache.delete key).maxSize = cache.maxSize := rfl

@[simp] theorem get_maxSize (cache : LRUCache κ ν) (now : Int) (key : κ) :
    (cache.get now key).1.maxSize = cache.maxSize := by
  unfold get
  split
  · rfl
  · split <;> rfl

@[simp] theorem set_maxSize (cache : LRUCache κ ν) (now : Int) (key : κ) (value : ν) :
    (cache.set now key value).maxSize = cache.maxSize := by
  unfold set
  dsimp only
  split
  · rfl
  · split <;> rfl

/-- An entry stands in the cache, and at most so many were used after it. -/
def Behind (cache : LRUCache κ ν) (entry : Cached κ ν) (count : Nat) : Prop :=
  ∃ before after, cache.entries = before ++ entry :: after ∧ after.length ≤ count

/-- What was put last is the last to go. -/
theorem behind_set_self (cache : LRUCache κ ν) (now : Int) (key : κ) (value : ν) :
    (cache.set now key value).Behind ⟨key, value, now + cache.defaultTtlMs⟩ 0 := by
  obtain ⟨earlier, pushed⟩ : ∃ earlier : LRUCache κ ν, cache.set now key value =
      earlier.push ⟨key, value, now + cache.defaultTtlMs⟩ := by
    unfold set
    dsimp only
    split
    · exact ⟨cache.delete key, rfl⟩
    · split
      · exact ⟨cache.evict, rfl⟩
      · exact ⟨cache, rfl⟩
  rw [pushed]
  exact ⟨_, [], rfl, Nat.le_refl 0⟩

/-- An entry stays where others are pushed. -/
theorem Behind.push {count : Nat} (behind : cache.Behind entry count) {new : Cached κ ν}
    (other : new.key ≠ entry.key) : (cache.push new).Behind entry (count + 1) := by
  obtain ⟨before, after, entries, few⟩ := behind
  refine ⟨before.filter fun entry => entry.key ≠ new.key,
    (after.filter fun entry => entry.key ≠ new.key) ++ [new], ?_, ?_⟩
  · unfold LRUCache.push delete
    simp [entries, List.filter_append, other.symm]
  · have fewer := List.length_filter_le (fun entry : Cached κ ν => entry.key ≠ new.key) after
    simp only [List.length_append, List.length_singleton]
    omega

/-- An entry stays where another value is put, as long as the cache holds more than were used after
it. -/
theorem Behind.set {count : Nat} (behind : cache.Behind entry count) (other : key ≠ entry.key)
    (room : count + 1 < cache.maxSize) (now : Int) (value : ν) :
    (cache.set now key value).Behind entry (count + 1) := by
  obtain ⟨before, after, entries, few⟩ := behind
  unfold LRUCache.set
  dsimp only
  split
  · refine Behind.push ?_ other
    refine ⟨before.filter fun entry => entry.key ≠ key, after.filter fun entry => entry.key ≠ key,
      ?_, ?_⟩
    · simp [delete, entries, List.filter_append, other.symm]
    · exact Nat.le_trans (List.length_filter_le _ _) few
  · split
    next full =>
      refine Behind.push ?_ other
      cases before with
      | nil =>
        rw [entries] at full
        simp only [List.nil_append, List.length_cons] at full
        omega
      | cons oldest rest => exact ⟨rest, after, by simp [evict, entries], few⟩
    next => exact Behind.push ⟨before, after, entries, few⟩ other

/-- The value that was put under a key is the one that is read. -/
theorem get_set {later : Int} (inTime : later ≤ now + cache.defaultTtlMs) :
    ((cache.set now key value).get later key).2 = some value :=
  get_eq_some.mpr ⟨_, mem_set_self, inTime⟩

/-- Every entry was read after the last change of its key that was told. -/
def Fresh (stamp : ν → Nat) (cut : κ → Nat) (cache : LRUCache κ ν) : Prop :=
  ∀ entry ∈ cache.entries, cut entry.key ≤ stamp entry.value

namespace Fresh

variable {stamp : ν → Nat} {cut later : κ → Nat}

/-- What a read answers is fresh. -/
theorem answer (fresh : cache.Fresh stamp cut) (answered : (cache.get now key).2 = some value) :
    cut key ≤ stamp value := by
  obtain ⟨expiresAt, member, _⟩ := get_eq_some.mp answered
  exact fresh _ member

/-- A read leaves fresh entries. -/
theorem get (fresh : cache.Fresh stamp cut) (now : Int) (key : κ) :
    (cache.get now key).1.Fresh stamp cut :=
  fun entry member => fresh entry (mem_of_get member)

/-- What was read since the last change may be put under its key. -/
theorem set (fresh : cache.Fresh stamp cut) (since : cut key ≤ stamp value) (now : Int) :
    (cache.set now key value).Fresh stamp cut := by
  intro entry member
  obtain rfl | ⟨old, _⟩ := mem_of_set member
  · exact since
  · exact fresh entry old

/-- A change is told: the entry of its key goes. -/
theorem delete (fresh : cache.Fresh stamp cut) (others : ∀ other, other ≠ key → later other = cut other) :
    (cache.delete key).Fresh stamp later := by
  intro entry member
  obtain ⟨old, other⟩ := mem_delete.mp member
  rw [others entry.key other]
  exact fresh entry old

omit [DecidableEq κ] in
/-- An empty cache holds nothing that is not fresh. -/
theorem clear (cache : LRUCache κ ν) (stamp : ν → Nat) (cut : κ → Nat) :
    cache.clear.Fresh stamp cut := nofun

end Fresh

end LRUCache

end Notifkit.Shared
