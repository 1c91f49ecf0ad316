import Notifkit.Scheduler.Stores

/-!
# The rebuild of the sorted sets

One call of `rebuildScheduledQueue` reads the rows page by page and puts a member in for
each, unless it is there; then it sets the sentinel. The members of a page go out in one
pipeline, whose result nobody looks at: one that fails is passed over. A page that cannot
be read and a sentinel that cannot be set end the call.
-/

namespace Notifkit.Scheduler

/-- Where a rebuild stands. -/
inductive RebuildPhase where
  /-- about to read a page -/
  | paging
  /-- about to put in the rows of a page, `last` being whether no page comes after it -/
  | adding (rest : List (TaskId × Row)) (last : Bool)
  /-- about to set the sentinel -/
  | marking
  | ended

/-- One call of `rebuildScheduledQueue`. -/
structure Rebuild where
  pageSize : Nat := 1000
  after : Option TaskId := none
  /-- the time that stands in for a missing send time -/
  now : Nat := 0
  phase : RebuildPhase := .paging

namespace Rebuild

/-- The rebuild at another phase. -/
def goto (rebuild : Rebuild) (phase : RebuildPhase) : Rebuild := { rebuild with phase := phase }

/-- The member put in for a row. -/
def member (taskId : TaskId) (row : Row) : Member := ⟨taskId, row.payload.enrichedEventId, none⟩

/-- The score it is put in with. -/
def sendAt (rebuild : Rebuild) (row : Row) : Nat :=
  match row.payload.scheduledAt with
  | some scheduledAt => scheduledAt.ms
  | none => rebuild.now

/-- Where a rebuild goes with the page it has read. -/
def turn (rebuild : Rebuild) (now : Nat) (rows : List (TaskId × Row)) : Rebuild :=
  match rows.getLast? with
  | none => rebuild.goto .marking
  | some (taskId, _) =>
    { rebuild with
      after := some taskId
      now := now
      phase := .adding rows (rows.length < rebuild.pageSize) }

/-- A step of a rebuild; `fails` is a command that fails. -/
def step (order : LinearOrder TaskId) (stores : Stores) (rebuild : Rebuild) (fails : Bool) :
    Option (Stores × Rebuild) :=
  match rebuild.phase, fails with
  | .paging, false =>
    some (stores, rebuild.turn stores.clock
      (stores.scheduledPayloads.page order rebuild.after rebuild.pageSize))
  | .adding ((taskId, row) :: rest) last, false =>
    some (stores.zaddNX (rebuild.sendAt row) (member taskId row), rebuild.goto (.adding rest last))
  | .adding (_ :: rest) last, true => some (stores, rebuild.goto (.adding rest last))
  | .adding [] last, _ => some (stores, rebuild.goto (if last then .marking else .paging))
  | .marking, false => some ({ stores with sentinel := true }, rebuild.goto .ended)
  | .paging, true | .marking, true => some (stores, rebuild.goto .ended)
  | .ended, _ => none

end Rebuild

end Notifkit.Scheduler
