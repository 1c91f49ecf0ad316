import Mathlib.Algebra.GroupWithZero.Nat

/-!
# Entries a consumer group has been handed and not yet acknowledged

An entry is pending from the read that delivers it until its acknowledgement. Its
idle time counts from that read, from the last claim or from the last touch; a
scanner may claim it once it has been idle longer than a threshold that doubles with
every delivery.
-/

namespace Notifkit.Queue

/-- One pending entry of a consumer group. -/
structure PendingEntry where
  id : Nat
  lastRead : Nat
  deliveryCount : Nat
deriving DecidableEq

/-- The interval after which an entry may be claimed, in milliseconds. -/
def recoveryIntervalMs : Nat := 60000

/-- The scanner's filter: idle longer than the threshold of its delivery count. -/
def PendingEntry.claimable (entry : PendingEntry) (now : Nat) : Bool :=
  recoveryIntervalMs * 2 ^ (entry.deliveryCount - 1) < now - entry.lastRead

/-- Deliver an entry for the first time. -/
def deliver (pending : List PendingEntry) (id now : Nat) : List PendingEntry :=
  pending ++ [⟨id, now, 1⟩]

/-- Claim an entry: its idle time starts over and its delivery count goes up. -/
def claim (pending : List PendingEntry) (id now : Nat) : List PendingEntry :=
  pending.map fun entry =>
    if entry.id = id then ⟨id, now, entry.deliveryCount + 1⟩ else entry

/-- Reset the idle time of a held entry; the delivery count stays. -/
def touch (pending : List PendingEntry) (id now : Nat) : List PendingEntry :=
  pending.map fun entry => if entry.id = id then { entry with lastRead := now } else entry

/-- Acknowledge an entry: it is pending no more. -/
def ack (pending : List PendingEntry) (id : Nat) : List PendingEntry :=
  pending.filter fun entry => entry.id ≠ id

end Notifkit.Queue
