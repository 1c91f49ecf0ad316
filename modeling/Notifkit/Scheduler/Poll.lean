import Notifkit.Scheduler.Stores

/-!
# A poll of the scheduled tasks

One call of `executeSchedulerPoll` takes the poll lock, claims the due members of each
shard by giving them a later score, reads the rows of their tasks, asks the release gate
about them, publishes the others, deletes the rows it is done with and takes the members
it claimed out. A copy of a task that the poll has come to already is only taken out, and
so is one without a row.

A claim that fails leaves its shard out, a member that cannot be taken out stays, and a
deletion that fails is passed over; any other command that fails ends the poll, which then
releases its lock. The publications go out together, so that any of them may have gone out
when one fails.
-/

namespace Notifkit.Scheduler

/-- Where a poll stands. -/
inductive PollPhase where
  | locking
  | starting
  /-- about to claim from a shard -/
  | claiming (shard : Nat)
  | reading
  /-- about to ask the release gate -/
  | gating
  | publishing (rest : List (Member × Row))
  | deleting
  /-- about to take the claimed members out -/
  | cleaning (rest : List Member)
  | unlocking
  | ended

/-- One call of `executeSchedulerPoll`. -/
structure Poll where
  phase : PollPhase := .locking
  now : Nat := 0
  /-- the members it has claimed -/
  parsedTasks : List Member := []
  /-- the rows it has read -/
  payloadMap : TaskId → Option Row := fun _ => none
  blocked : List TaskId := []
  /-- ghost: the time each member was put in for when the poll claimed it -/
  due : Member → Nat := fun _ => 0

/-- What a poll does next: the members a claim gets, what the gate refuses, the next task it
publishes, its next command, or a command that fails. -/
inductive PollChoice where
  | claim (members : List Member)
  | gate (blocked : List TaskId)
  | publish (position : Nat)
  | proceed
  | fail
deriving DecidableEq

/-- How long the poll lock is kept at most. -/
def pollLockMs : Nat := 30_000

/-- How long a claimed member stays invisible to other polls. -/
def visibilityTimeout : Nat := 60_000

/-- How many members of one shard a poll claims at most. -/
def perShardLimit : Nat := 100

/-- How many sorted sets there are. -/
def shards : Nat := 16

namespace Poll

/-- The poll at another phase. -/
def goto (poll : Poll) (phase : PollPhase) : Poll := { poll with phase := phase }

/-- `schedulerPoll`: members of a shard that are due get a later score. -/
def claim (stores : Stores) (poll : Poll) (shard : Nat) (members : List Member) :
    Option (Stores × Poll) :=
  if members.Nodup ∧ members.length ≤ perShardLimit ∧
      ∀ member ∈ members, ∃ score ∈ stores.zset.score (shard, member), score ≤ poll.now then
    some ({ stores with
        zset := stores.zset.rescore (members.map fun member => (shard, member))
          (poll.now + visibilityTimeout) },
      { poll with
        parsedTasks := poll.parsedTasks ++ members
        due := fun member =>
          if member ∈ members then stores.putFor (shard, member) else poll.due member
        phase := if shard + 1 < shards then .claiming (shard + 1)
          else if poll.parsedTasks ++ members = [] then .unlocking
          else .reading })
  else none

/-- What the poll publishes of its members, `released` being the tasks it has come to. -/
def batchedEvents (payloadMap : TaskId → Option Row) (blocked : List TaskId) :
    List TaskId → List Member → List (Member × Row)
  | _, [] => []
  | released, member :: rest =>
    if member.taskId ∈ released then batchedEvents payloadMap blocked released rest
    else match payloadMap member.taskId with
      | none => batchedEvents payloadMap blocked released rest
      | some row =>
        if member.taskId ∈ blocked then
          batchedEvents payloadMap blocked (member.taskId :: released) rest
        else (member, row) :: batchedEvents payloadMap blocked (member.taskId :: released) rest

/-- What is published is a claimed member with the row that was read for its task. -/
theorem mem_batchedEvents {payloadMap : TaskId → Option Row} {blocked released : List TaskId}
    {members : List Member} {event : Member × Row}
    (listed : event ∈ batchedEvents payloadMap blocked released members) :
    event.1 ∈ members ∧ payloadMap event.1.taskId = some event.2 := by
  induction members generalizing released with
  | nil => cases listed
  | cons member rest inductionHypothesis =>
    have later : ∀ {released : List TaskId},
        event ∈ batchedEvents payloadMap blocked released rest →
          event.1 ∈ member :: rest ∧ payloadMap event.1.taskId = some event.2 :=
      fun listed => (inductionHypothesis listed).imp_left (List.mem_cons_of_mem _)
    unfold batchedEvents at listed
    split at listed
    next => exact later listed
    next =>
      split at listed
      next => exact later listed
      next row found =>
        split at listed
        next => exact later listed
        next =>
          rcases List.mem_cons.mp listed with rfl | listed
          · exact ⟨List.mem_cons_self, found⟩
          · exact later listed

/-- The rows of the claimed tasks that the gate refuses. -/
def refusals (poll : Poll) (blocked : List TaskId) : List Nat :=
  poll.parsedTasks.filterMap fun member =>
    if member.taskId ∈ blocked then (poll.payloadMap member.taskId).map Row.id else none

/-- The claimed tasks that the gate has refused. -/
def dropped (poll : Poll) : List TaskId :=
  (poll.parsedTasks.map Member.taskId).filter fun taskId =>
    taskId ∈ poll.blocked ∧ poll.payloadMap taskId ≠ none

/-- The rows the poll deletes: those of the tasks it has published or dropped, as long as
they keep the send time it has read. -/
def cleanup (poll : Poll) (taskId : TaskId) (row : Row) : Bool :=
  taskId ∈ poll.parsedTasks.map Member.taskId &&
    (poll.payloadMap taskId).any fun read => read.payload.scheduledAt = row.payload.scheduledAt

/-- Publish a task. -/
def release (stores : Stores) (poll : Poll) (member : Member) (row : Row) : Stores :=
  { stores.dispatch member.taskId row.payload with
    releases := ⟨member.taskId, row, poll.now⟩ :: stores.releases }

/-- Compare and delete: a lock someone else has taken since stays. -/
def releaseLock (me : Nat) (stores : Stores) : Stores :=
  if stores.pollLock.get stores.clock () = some me then
    { stores with pollLock := stores.pollLock.del () }
  else stores

/-- A step of a poll. -/
def step (me : Nat) (stores : Stores) (poll : Poll) (choice : PollChoice) :
    Option (Stores × Poll) :=
  match poll.phase, choice with
  | .locking, .proceed =>
    match stores.pollLock.setNX stores.clock () me (stores.clock + pollLockMs) with
    | some locked => some ({ stores with pollLock := locked }, poll.goto .starting)
    | none => some (stores, poll.goto .ended)
  | .starting, .proceed => some (stores, { poll with now := stores.clock, phase := .claiming 0 })
  | .claiming shard, .claim members => poll.claim stores shard members
  | .reading, .proceed =>
    some (stores, { poll with
      payloadMap := fun taskId => stores.scheduledPayloads.lookup taskId
      phase := .gating })
  | .gating, .gate blocked =>
    some ({ stores with refused := poll.refusals blocked ++ stores.refused },
      { poll with
        blocked := blocked
        phase := .publishing (batchedEvents poll.payloadMap blocked [] poll.parsedTasks) })
  | .publishing rest, .publish position =>
    (rest[position]?).map fun (member, row) =>
      (poll.release stores member row, poll.goto (.publishing (rest.eraseIdx position)))
  | .publishing [], .proceed => some (stores, poll.goto .deleting)
  | .deleting, .proceed =>
    some ({ stores.deletePayloads poll.cleanup with ended := poll.dropped ++ stores.ended },
      poll.goto (.cleaning poll.parsedTasks))
  | .cleaning [], .proceed => some (stores, poll.goto .unlocking)
  | .cleaning (member :: rest), .proceed =>
    some (stores.zrem member, poll.goto (.cleaning rest))
  | .unlocking, .proceed => some (releaseLock me stores, poll.goto .ended)
  | .locking, .fail | .unlocking, .fail => some (stores, poll.goto .ended)
  | .claiming _, .fail | .reading, .fail | .gating, .fail | .publishing _, .fail =>
    some (stores, poll.goto .unlocking)
  | .deleting, .fail =>
    some ({ stores with ended := poll.dropped ++ stores.ended },
      poll.goto (.cleaning poll.parsedTasks))
  | .cleaning (_ :: rest), .fail => some (stores, poll.goto (.cleaning rest))
  | _, _ => none

end Poll

end Notifkit.Scheduler
