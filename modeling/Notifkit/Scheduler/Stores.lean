import Notifkit.Foundations.ExpiringStore
import Notifkit.Foundations.KeyedRows
import Notifkit.Foundations.ScoredSet
import Notifkit.Foundations.Text

/-!
# What the parties to a scheduled send share

A task that is due later is parked: its payload is a row of `scheduled_payloads`, and a
member of one of sixteen sorted sets carries its send time as the score. A message on the
scheduled stream brings the member there, and a dispatch on the outbound stream is what
the release of the task comes to. Messages stay until they are acknowledged; one that is
put aside as dead counts as one that is not.

Fields marked as ghost record what happened; no service reads them.
-/

namespace Notifkit.Scheduler

abbrev TaskId := Text

/-- A date text, by the millisecond it stands for and by its spelling where that is not the
usual one; two texts are equal when both agree. -/
structure SendTime where
  ms : Nat
  spelling : Option Text := none
deriving DecidableEq

/-- The payload of a task, by the fields that decide what becomes of it. -/
structure Payload where
  projectId : Nat
  enrichedEventId : Nat
  scheduledAt : Option SendTime
deriving DecidableEq

/-- A row of `scheduled_payloads`; its `taskId` is the key it is kept under. -/
structure Row where
  payload : Payload
  /-- ghost: how many rows had been written before it -/
  id : Nat
deriving DecidableEq

/-- A message whose processing parks a task, or dispatches it at once. -/
structure Source where
  taskId : TaskId
  projectId : Nat
  enrichedEventId : Nat
  scheduledAt : Option SendTime
  traceId : Option Text

/-- A `notification.scheduled` message. -/
structure Scheduled where
  taskId : TaskId
  enrichedEventId : Nat
  scheduledAt : SendTime
  traceId : Option Text
  /-- ghost: the position of the dispatch whose delivery parked the task again -/
  home : Option Nat

/-- A `notification.dispatched` message. -/
structure Dispatch where
  taskId : TaskId
  payload : Payload
  /-- ghost: how many rows had been written before it -/
  since : Nat

/-- A member of the sorted sets, by the fields it serialises. -/
structure Member where
  taskId : TaskId
  enrichedEventId : Nat
  traceId : Option Text
deriving DecidableEq

/-- Ghost: a poll has published the row of a task. -/
structure Release where
  taskId : TaskId
  row : Row
  now : Nat

/-- The shared state. -/
structure Stores where
  clock : Nat := 0
  sources : List Source := []
  /-- the positions of the acknowledged source messages -/
  sourcesDone : List Nat := []
  scheduled : List Scheduled := []
  /-- the positions of the acknowledged `notification.scheduled` messages -/
  scheduledDone : List Nat := []
  outbound : List Dispatch := []
  /-- the positions of the acknowledged dispatches -/
  outboundDone : List Nat := []
  scheduledPayloads : KeyedRows TaskId Row := ∅
  /-- the sorted sets, by the number of their shard -/
  zset : ScoredSet (Nat × Member) := .empty
  /-- `SCHEDULER_SENTINEL_KEY` is there -/
  sentinel : Bool := false
  pollLock : ExpiringStore Unit Nat := .empty
  /-- the processes that have died -/
  dead : List Nat := []
  /-- ghost: how many rows were written -/
  nextRow : Nat := 0
  /-- ghost: what the polls have published -/
  releases : List Release := []
  /-- ghost: the rows the release gate refused -/
  refused : List Nat := []
  /-- ghost: the rows a cancel deleted -/
  canceled : List Nat := []
  /-- ghost: the rows that were deleted -/
  deleted : List Nat := []
  /-- ghost: the tasks delivered, refused or canceled -/
  ended : List TaskId := []
  /-- ghost: the time each member was last put in for -/
  putFor : Nat × Member → Nat := fun _ => 0

/-- Scheduled tasks are spread over sixteen sorted sets by the last digit of their id. -/
def shardOf (taskId : TaskId) : Nat := (taskId.getLast?.bind Text.hexValue).getD 0

/-- Where a member is kept. -/
def Member.slot (member : Member) : Nat × Member := (shardOf member.taskId, member)

/-- The member a message brings to its sorted set. -/
def Scheduled.member (message : Scheduled) : Member :=
  ⟨message.taskId, message.enrichedEventId, message.traceId⟩

namespace Stores

/-- Write the row of a task, unless it has one. -/
def insertPayload (stores : Stores) (taskId : TaskId) (payload : Payload) : Stores :=
  { stores with
    scheduledPayloads := stores.scheduledPayloads.insertNew taskId ⟨payload, stores.nextRow⟩
    nextRow := stores.nextRow + 1 }

/-- Write the row of a task over the one it has. -/
def upsertPayload (stores : Stores) (taskId : TaskId) (payload : Payload) : Stores :=
  { stores with
    scheduledPayloads := stores.scheduledPayloads.insert taskId ⟨payload, stores.nextRow⟩
    nextRow := stores.nextRow + 1 }

/-- The rows a deletion would take. -/
def matching (stores : Stores) (condition : TaskId → Row → Bool) : List Nat :=
  (stores.scheduledPayloads.entries.filter fun entry => condition entry.1 entry.2).map (·.2.id)

/-- Delete the rows a condition holds of. -/
def deletePayloads (stores : Stores) (condition : TaskId → Row → Bool) : Stores :=
  { stores with
    scheduledPayloads := stores.scheduledPayloads.deleteWhere condition
    deleted := stores.matching condition ++ stores.deleted }

/-- Publish a `notification.scheduled` message. -/
def announce (stores : Stores) (message : Scheduled) : Stores :=
  { stores with scheduled := stores.scheduled ++ [message] }

/-- Publish a dispatch. -/
def dispatch (stores : Stores) (taskId : TaskId) (payload : Payload) : Stores :=
  { stores with outbound := stores.outbound ++ [⟨taskId, payload, stores.nextRow⟩] }

/-- Put a member in with a score, replacing the one it has. -/
def zadd (stores : Stores) (score : Nat) (member : Member) : Stores :=
  { stores with
    zset := stores.zset.zadd score member.slot
    putFor := Function.update stores.putFor member.slot score }

/-- Put a member in unless it is there (`NX`). -/
def zaddNX (stores : Stores) (score : Nat) (member : Member) : Stores :=
  if stores.zset.score member.slot = none then stores.zadd score member else stores

/-- Take a member out. -/
def zrem (stores : Stores) (member : Member) : Stores :=
  { stores with zset := stores.zset.zrem member.slot }

/-- Redis loses everything it holds. -/
def wipe (stores : Stores) : Stores :=
  { stores with
    sourcesDone := List.range stores.sources.length
    scheduledDone := List.range stores.scheduled.length
    outboundDone := List.range stores.outbound.length
    zset := .empty
    sentinel := false
    pollLock := .empty }

/-- A member is put in, or it is there already. -/
theorem zaddNX_cases (stores : Stores) (score : Nat) (member : Member) :
    stores.zaddNX score member = stores.zadd score member ∨
      stores.zaddNX score member = stores := by
  unfold zaddNX
  split
  · exact .inl rfl
  · exact .inr rfl

/-- A row that is there after an insert was there before, or it is the new one. -/
theorem lookup_insertPayload {stores : Stores} {taskId other : TaskId} {payload : Payload}
    {row : Row}
    (found : (stores.insertPayload taskId payload).scheduledPayloads.lookup other = some row) :
    stores.scheduledPayloads.lookup other = some row ∨
      other = taskId ∧ row = ⟨payload, stores.nextRow⟩ := by
  simp only [insertPayload, KeyedRows.lookup_insertNew] at found
  split at found
  next same =>
    subst same
    cases present : stores.scheduledPayloads.lookup other with
    | none =>
      rw [present, Option.getD_none] at found
      exact .inr ⟨rfl, (Option.some.inj found).symm⟩
    | some old =>
      rw [present, Option.getD_some] at found
      exact .inl found
  next => exact .inl found

/-- The same after a row was written over. -/
theorem lookup_upsertPayload {stores : Stores} {taskId other : TaskId} {payload : Payload}
    {row : Row}
    (found : (stores.upsertPayload taskId payload).scheduledPayloads.lookup other = some row) :
    stores.scheduledPayloads.lookup other = some row ∨
      other = taskId ∧ row = ⟨payload, stores.nextRow⟩ := by
  simp only [upsertPayload, KeyedRows.lookup_insert] at found
  split at found
  next same => exact .inr ⟨same, (Option.some.inj found).symm⟩
  next => exact .inl found

/-- A row that is there after a deletion was there before, and the condition does not hold
of it. -/
theorem lookup_deletePayloads {stores : Stores} {condition : TaskId → Row → Bool}
    {taskId : TaskId} {row : Row} :
    (stores.deletePayloads condition).scheduledPayloads.lookup taskId = some row ↔
      stores.scheduledPayloads.lookup taskId = some row ∧ condition taskId row = false := by
  simp only [deletePayloads, KeyedRows.lookup_deleteWhere, Option.filter_eq_some_iff,
    Bool.not_eq_true']

end Stores

example : shardOf "a0f".toList = 15 := by decide

end Notifkit.Scheduler
