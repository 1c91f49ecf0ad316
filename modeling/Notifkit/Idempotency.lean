import Notifkit.Foundations.Text
import Notifkit.Foundations.ExpiringStore

/-!
# The idempotency guard

One key per id: `L` while a worker holds it, `1` once processed. The mark a stage
sets when it starts and the mark it leaves when it is done are the same value; only
their lifetimes differ. Times are milliseconds, lifetimes are given in seconds as in
the source.
-/

namespace Notifkit

/-- The two values a key can hold. -/
inductive Mark where
  | lease
  | processed
deriving DecidableEq

/-- The marks of one guard, by id. -/
abbrev Marks := ExpiringStore Text Mark

/-- How an attempt to take a lease ends. -/
inductive LeaseResult where
  | acquired | locked | completed
deriving DecidableEq

namespace IdempotencyGuard

/-- The last instant of a key written now for some seconds. -/
def expiry (now ttlSeconds : Nat) : Nat := now + 1000 * ttlSeconds

/-- Mark the id processed unless it is marked already; absent where it was seen. -/
def checkAndMark (marks : Marks) (now : Nat) (id : Text) (ttlSeconds : Nat) : Option Marks :=
  marks.setNX now id .processed (expiry now ttlSeconds)

/-- Mark the id processed, replacing whatever was there. -/
def markProcessed (marks : Marks) (now : Nat) (id : Text) (ttlSeconds : Nat) : Marks :=
  marks.set id .processed (expiry now ttlSeconds)

/-- Forget the id. -/
def unmark (marks : Marks) (id : Text) : Marks := marks.del id

/-- Take the lease on an id, or learn who has it. The source asks in up to three
commands; the answer is the one the last of them saw. -/
def acquireLease (marks : Marks) (now : Nat) (id : Text) (lockTtlSeconds : Nat) :
    LeaseResult × Marks :=
  match marks.get now id with
  | none => (.acquired, marks.set id .lease (expiry now lockTtlSeconds))
  | some .processed => (.completed, marks)
  | some .lease => (.locked, marks)

/-- A check succeeds exactly where nothing is marked, and then marks. -/
theorem checkAndMark_eq_some {marks after : Marks} {now : Nat} {id : Text} {ttlSeconds : Nat} :
    checkAndMark marks now id ttlSeconds = some after ↔
      marks.get now id = none ∧ marks.set id .processed (expiry now ttlSeconds) = after :=
  ExpiringStore.setNX_eq_some

/-- A check fails exactly where some mark is still in time. -/
theorem checkAndMark_eq_none {marks : Marks} {now : Nat} {id : Text} {ttlSeconds : Nat} :
    checkAndMark marks now id ttlSeconds = none ↔
      ∃ mark last, marks.cell id = some (mark, last) ∧ now ≤ last := by
  unfold checkAndMark ExpiringStore.setNX
  cases read : marks.get now id with
  | none =>
    simp only [reduceCtorEq, false_iff]
    rintro ⟨mark, last, held, inTime⟩
    have isOver := ExpiringStore.get_eq_none.mp read mark last held
    omega
  | some mark =>
    obtain ⟨last, held, inTime⟩ := ExpiringStore.get_eq_some.mp read
    simp only [true_iff]
    exact ⟨mark, last, held, inTime⟩

end IdempotencyGuard

end Notifkit
