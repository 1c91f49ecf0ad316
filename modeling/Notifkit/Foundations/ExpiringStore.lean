import Mathlib.Init

/-!
# A key store whose values expire

Each key holds at most one value, together with the last instant at which it is
still there. Reading, writing, deleting and writing-if-absent are the operations;
time is a number handed to them, so a store does not change by itself.
-/

namespace Notifkit

universe u v

/-- What each key holds: a value and the last instant it is kept. -/
structure ExpiringStore (κ : Type u) (ν : Type v) where
  cell : κ → Option (ν × Nat)

namespace ExpiringStore

variable {κ : Type u} {ν : Type v}

/-- A store that holds nothing. -/
def empty : ExpiringStore κ ν := ⟨fun _ => none⟩

/-- The value under a key, absent once its time is over. -/
def get (store : ExpiringStore κ ν) (now : Nat) (key : κ) : Option ν :=
  match store.cell key with
  | some (value, expiry) => if now ≤ expiry then some value else none
  | none => none

variable [DecidableEq κ]

/-- Write a value and its expiry, replacing whatever was there. -/
def set (store : ExpiringStore κ ν) (key : κ) (value : ν) (expiry : Nat) : ExpiringStore κ ν :=
  ⟨fun other => if other = key then some (value, expiry) else store.cell other⟩

/-- Delete a key. -/
def del (store : ExpiringStore κ ν) (key : κ) : ExpiringStore κ ν :=
  ⟨fun other => if other = key then none else store.cell other⟩

/-- Write only where nothing is there; absent where something is. -/
def setNX (store : ExpiringStore κ ν) (now : Nat) (key : κ) (value : ν) (expiry : Nat) :
    Option (ExpiringStore κ ν) :=
  match store.get now key with
  | none => some (store.set key value expiry)
  | some _ => none

omit [DecidableEq κ] in
@[simp] theorem empty_cell (key : κ) : (empty : ExpiringStore κ ν).cell key = none := rfl

/-- A write is seen under its key and under no other. -/
@[simp] theorem set_cell (store : ExpiringStore κ ν) (key other : κ) (value : ν) (expiry : Nat) :
    (store.set key value expiry).cell other =
      if other = key then some (value, expiry) else store.cell other := rfl

/-- A deletion is seen under its key and under no other. -/
@[simp] theorem del_cell (store : ExpiringStore κ ν) (key other : κ) :
    (store.del key).cell other = if other = key then none else store.cell other := rfl

omit [DecidableEq κ] in
/-- A value is read exactly while its cell is in time. -/
theorem get_eq_some {store : ExpiringStore κ ν} {now : Nat} {key : κ} {value : ν} :
    store.get now key = some value ↔ ∃ expiry, store.cell key = some (value, expiry) ∧
      now ≤ expiry := by
  unfold get
  cases held : store.cell key with
  | none => simp
  | some entry =>
    obtain ⟨kept, expiry⟩ := entry
    by_cases inTime : now ≤ expiry
    · simp only [inTime, if_true, Option.some.injEq, Prod.mk.injEq]
      constructor
      · rintro rfl
        exact ⟨expiry, ⟨rfl, rfl⟩, inTime⟩
      · rintro ⟨_, ⟨same, _⟩, _⟩
        exact same
    · simp only [inTime, if_false, Option.some.injEq, Prod.mk.injEq]
      constructor
      · intro impossible
        cases impossible
      · rintro ⟨last, ⟨_, rfl⟩, later⟩
        exact absurd later inTime

omit [DecidableEq κ] in
/-- Nothing is read exactly where every cell's time is over. -/
theorem get_eq_none {store : ExpiringStore κ ν} {now : Nat} {key : κ} :
    store.get now key = none ↔ ∀ value expiry, store.cell key = some (value, expiry) →
      expiry < now := by
  unfold get
  cases held : store.cell key with
  | none => simp
  | some entry =>
    obtain ⟨kept, expiry⟩ := entry
    by_cases inTime : now ≤ expiry
    · simp only [inTime, if_true]
      constructor
      · intro impossible
        cases impossible
      · intro isOver
        exact absurd (isOver kept expiry rfl) (by omega)
    · simp only [inTime, if_false, true_iff]
      rintro value last same
      obtain ⟨rfl, rfl⟩ := Prod.mk.inj (Option.some.inj same)
      omega

/-- Writing if absent succeeds exactly where nothing is read, and is then a write. -/
theorem setNX_eq_some {store after : ExpiringStore κ ν} {now : Nat} {key : κ} {value : ν}
    {expiry : Nat} : store.setNX now key value expiry = some after ↔
      store.get now key = none ∧ store.set key value expiry = after := by
  unfold setNX
  cases store.get now key <;> simp

end ExpiringStore

end Notifkit
