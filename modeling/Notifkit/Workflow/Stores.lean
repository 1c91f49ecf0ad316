import Mathlib.Logic.Function.Basic
import Notifkit.Foundations.Json
import Notifkit.Foundations.ScoredSet
import Notifkit.Foundations.ExpiringStore

/-!
# What the workflow services share

The instances, their steps and their waiters are rows of the database; the timers, the
locks and the two streams live in Redis. The name, the project and the input of an
instance come with its trigger and never change, so the instance's id stands for them:
in messages, in rows and in the members of the timer set. Rows of steps are never
deleted and are unique by instance and index, so that pair stands for a row's id.

Fields marked as ghost record what happened; no service reads them.
-/

namespace Notifkit.Workflow

abbrev InstanceId := Nat
abbrev StepIndex := Nat

/-- The status of an instance. -/
inductive Status where
  | pending | running | completed | failed | canceled
deriving DecidableEq

/-- What a step row records. -/
inductive StepAction where
  | notify | wait | waitForEvent | run
deriving DecidableEq

/-- A row of `workflow_steps`; the instance it belongs to is the key it is kept under. -/
structure StepRow where
  stepIndex : StepIndex
  action : StepAction
  output : Json

/-- A row of `workflow_waiters`. -/
structure Waiter where
  id : Nat
  instanceId : InstanceId
  projectId : Nat
  eventName : Text
  matchCriteria : Json
  expiresAt : Nat
  /-- ghost: the step whose `waitForEvent` inserted the waiter -/
  stepIndex : StepIndex

/-- An `event.received` message. -/
structure Event where
  projectId : Nat
  eventName : Text
  payload : Json

/-- The data of an event: its payload where that is an object, else an empty one. -/
def Event.data (event : Event) : Json := if event.payload.isObject then event.payload else .empty

/-- A member of the timer set, by the fields that tell one serialised member from another. -/
inductive Member where
  | sleep (instanceId : InstanceId)
  | eventTimeout (instanceId : InstanceId) (eventName : Text) (stepId : Option StepIndex)
  | deferred (instanceId : InstanceId)
deriving DecidableEq

/-- The instance a member resumes. -/
def Member.instanceId : Member → InstanceId
  | .sleep instanceId | .eventTimeout instanceId _ _ | .deferred instanceId => instanceId

/-- A resume an event worker has pushed to its buffer and not yet settled. -/
structure Item where
  process : Nat
  task : Nat
  waiter : Waiter
  /-- the flush that took the item out of the buffer -/
  batch : Option Nat := none
  published : Bool := false

/-- Ghost: the data of an event written to a step, and the waiter the event matched. -/
structure Answer where
  instanceId : InstanceId
  stepIndex : StepIndex
  event : Event
  waiter : Waiter

/-- Ghost: a notification published or a function executed for a step, by an actor. -/
structure Deed where
  actor : Nat
  instanceId : InstanceId
  stepIndex : StepIndex
  action : StepAction
  output : Json

/-- The shared state of the workflow services. -/
structure Stores where
  clock : Nat := 0
  /-- the workflow messages not yet acknowledged, by the instance they are about -/
  stream : List InstanceId := []
  events : List Event := []
  /-- the positions of the acknowledged events -/
  acknowledged : List Nat := []
  locks : ExpiringStore InstanceId Nat := .empty
  instances : InstanceId → Option Status := fun _ => none
  steps : InstanceId → List StepRow := fun _ => []
  waiters : List Waiter := []
  nextWaiter : Nat := 0
  timers : ScoredSet Member := .empty
  /-- the resumes in the event workers' buffers and flushes -/
  buffer : List Item := []
  /-- the event tasks one of whose resumes could not be published -/
  rejected : List Nat := []
  /-- the processes that have died -/
  dead : List Nat := []
  /-- ghost: published notifications and executed functions -/
  performed : List Deed := []
  /-- ghost: the run that set the instance running and has not given it up -/
  runner : InstanceId → Option Nat := fun _ => none
  /-- ghost: the times `wait` and `waitForEvent` put under a timer member, latest first -/
  added : Member → List Nat := fun _ => []
  /-- ghost: the event timeout that was just added and whose waiter is still to come -/
  armed : InstanceId → Option Member := fun _ => none
  /-- ghost: the reaper has set the instance back to pending -/
  reaped : InstanceId → Bool := fun _ => false
  /-- ghost: how often the lock of the instance was taken -/
  acquired : InstanceId → Nat := fun _ => 0
  /-- ghost: the step a poll has deleted the waiters of and not yet recorded the timeout of -/
  expiring : Nat → Option (InstanceId × StepIndex) := fun _ => none
  /-- ghost: every waiter ever inserted -/
  registrations : List Waiter := []
  /-- ghost: the event data written to steps -/
  answered : List Answer := []
  /-- ghost: the waiters deleted because an event matched them -/
  consumed : List Waiter := []
  /-- ghost: the waiters whose resume has been published -/
  durable : List Nat := []

/-- The output of a `wait` step. -/
def scheduledAt (resumeAt : Nat) : Json := .obj [("scheduledAt".toList, .num resumeAt)]

/-- The output of a `waitForEvent` step that timed out. -/
def timedOut : Json := .obj [("timedOut".toList, .bool true)]

namespace Stores

/-- Set the status of an instance. -/
def setStatus (stores : Stores) (instanceId : InstanceId) (status : Status) : Stores :=
  { stores with instances := Function.update stores.instances instanceId (some status) }

/-- The step row of an instance under an index. -/
def row? (stores : Stores) (instanceId : InstanceId) (stepIndex : StepIndex) : Option StepRow :=
  (stores.steps instanceId).find? fun row => row.stepIndex = stepIndex

/-- Insert a step row. -/
def insertStep (stores : Stores) (instanceId : InstanceId) (row : StepRow) : Stores :=
  { stores with
    steps := Function.update stores.steps instanceId (stores.steps instanceId ++ [row]) }

/-- Overwrite the output of a step row. -/
def answerStep (stores : Stores) (instanceId : InstanceId) (stepIndex : StepIndex)
    (output : Json) : Stores :=
  { stores with
    steps := Function.update stores.steps instanceId <| (stores.steps instanceId).map fun row =>
      if row.stepIndex = stepIndex then { row with output := output } else row }

/-- Publish a `workflow.resumed` message. -/
def publish (stores : Stores) (instanceId : InstanceId) : Stores :=
  { stores with stream := stores.stream ++ [instanceId] }

/-- Add the timer of a step that suspends its handler. -/
def addTimer (stores : Stores) (resumeAt : Nat) (member : Member) : Stores :=
  { stores with
    timers := stores.timers.zadd resumeAt member
    added := Function.update stores.added member (resumeAt :: stores.added member) }

/-- Whether a poll is in the midst of timing out a step. -/
def expire (stores : Stores) (poll : Nat) (key : Option (InstanceId × StepIndex)) : Stores :=
  { stores with expiring := Function.update stores.expiring poll key }

end Stores

end Notifkit.Workflow
