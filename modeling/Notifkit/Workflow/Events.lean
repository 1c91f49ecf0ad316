import Notifkit.Workflow.Timers

/-!
# An event met by the waiters

One call of the event worker's `process` for an `event.received` message: it reads the
waiters on the event's name, and for each one whose criteria the data meets it looks up
the step still waiting, fills in the data, pushes a resume to the worker's buffer and
deletes the waiter. Only when every resume it pushed is settled does the call return.

The buffer is shared by all calls of one worker. A flush takes all of it; publishing may
stop half way, and a flush that fails, be it for a log row, rejects everything it took.
How many flushes run at once is not limited here.
-/

namespace Notifkit.Workflow

/-- Where a call stands. `rest` are the waiters still to come. -/
inductive TaskPhase where
  /-- about to read the waiters -/
  | selecting
  | looping (rest : List Waiter)
  | readingInstance (waiter : Waiter) (rest : List Waiter)
  /-- the instance is missing: about to delete the waiter -/
  | dropping (waiter : Waiter) (rest : List Waiter)
  /-- about to look for the step still waiting -/
  | readingSteps (waiter : Waiter) (rest : List Waiter)
  | answering (waiter : Waiter) (rest : List Waiter) (stepIndex : StepIndex)
  | pushing (waiter : Waiter) (rest : List Waiter)
  | deleting (waiter : Waiter) (rest : List Waiter)
  /-- waiting for the resumes it pushed -/
  | awaiting
  | returned
  | threw

/-- One call of `process` for the event at a position of the stream. -/
structure EventTask where
  process : Nat
  position : Nat
  event : Event
  now : Nat
  phase : TaskPhase := .selecting

/-- What a call does next: its next command, the waiter it comes to, or what its search for
the step still waiting finds; or a command that fails. -/
inductive TaskChoice where
  | proceed
  | handle (position : Nat)
  | select (found : Option StepIndex)
  | fail
deriving DecidableEq

/-- The value a criterion is compared with: the property of its name, or, where the name
has dots, what the path of its parts leads to. A false value ends the path early. -/
def dataValue (data : Json) (key : Text) : Option Json :=
  if '.' ∈ key then
    (key.splitOn '.').foldl
      (fun value part => value.bind fun value =>
        if value.truthy then value.property part else some value)
      (some data)
  else data.property key

/-- The data meets the criteria. -/
def meets (criteria data : Json) : Bool :=
  !criteria.isObject || criteria.entries.all fun (key, expected) =>
    (dataValue data key).any fun value => value.strictEq expected

/-- The waiter's criteria are met by the event. -/
def Waiter.matched (waiter : Waiter) (event : Event) : Bool :=
  meets waiter.matchCriteria event.data

/-- The step a waiter belongs to. -/
def Waiter.key (waiter : Waiter) : InstanceId × StepIndex := (waiter.instanceId, waiter.stepIndex)

namespace EventTask

/-- The call at another phase. -/
def goto (task : EventTask) (phase : TaskPhase) : EventTask := { task with phase := phase }

/-- The waiters on the event that have not expired. -/
def selected (task : EventTask) (stores : Stores) : List Waiter :=
  stores.waiters.filter fun waiter =>
    waiter.eventName = task.event.eventName ∧ waiter.projectId = task.event.projectId ∧
      task.now < waiter.expiresAt

/-- The next waiter, if its criteria are met. -/
def handle (task : EventTask) (rest : List Waiter) (position : Nat) : Option EventTask :=
  (rest[position]?).map fun waiter =>
    if waiter.matched task.event then task.goto (.readingInstance waiter (rest.eraseIdx position))
    else task.goto (.looping (rest.eraseIdx position))

/-- Delete a waiter by its id. -/
def deleteWaiter (stores : Stores) (waiter : Waiter) : Stores :=
  { stores with waiters := stores.waiters.filter fun other => other.id ≠ waiter.id }

/-- The resume a call pushes. -/
def item (me : Nat) (task : EventTask) (waiter : Waiter) : Item :=
  { process := task.process, task := me, waiter := waiter }

/-- The next command of a call. -/
def proceed (me : Nat) (stores : Stores) (task : EventTask) : Option (Stores × EventTask) :=
  match task.phase with
  | .selecting =>
    if task.event.eventName = [] then some (stores, task.goto .awaiting)
    else some (stores, task.goto (.looping (task.selected stores)))
  | .looping [] => some (stores, task.goto .awaiting)
  | .readingInstance waiter rest =>
    match stores.instances waiter.instanceId with
    | none => some (stores, task.goto (.dropping waiter rest))
    | some _ => some (stores, task.goto (.readingSteps waiter rest))
  | .dropping waiter rest =>
    some (deleteWaiter stores waiter, task.goto (.looping rest))
  | .answering waiter rest stepIndex =>
    some ({ stores.answerStep waiter.instanceId stepIndex task.event.data with
        answered := ⟨waiter.instanceId, stepIndex, task.event, waiter⟩ :: stores.answered },
      task.goto (.pushing waiter rest))
  | .pushing waiter rest =>
    some ({ stores with buffer := stores.buffer ++ [task.item me waiter] },
      task.goto (.deleting waiter rest))
  | .deleting waiter rest =>
    some ({ deleteWaiter stores waiter with consumed := waiter :: stores.consumed },
      task.goto (.looping rest))
  | .awaiting =>
    if me ∈ stores.rejected then some (stores, task.goto .threw)
    else if stores.buffer.all fun item => item.task ≠ me then
      some ({ stores with acknowledged := task.position :: stores.acknowledged },
        task.goto .returned)
    else none
  | .looping (_ :: _) | .readingSteps _ _ | .returned | .threw => none

/-- A step of a call. -/
def step (me : Nat) (stores : Stores) (task : EventTask) (choice : TaskChoice) :
    Option (Stores × EventTask) :=
  match task.phase, choice with
  | .looping rest, .handle position =>
    (task.handle rest position).map fun task => (stores, task)
  | .readingSteps waiter rest, .select (some stepIndex) =>
    if stores.awaits waiter.instanceId stepIndex then
      some (stores, task.goto (.answering waiter rest stepIndex))
    else none
  | .readingSteps waiter rest, .select none =>
    if (stores.steps waiter.instanceId).all fun row => !row.awaits then
      some (stores, task.goto (.pushing waiter rest))
    else none
  | .returned, _ | .threw, _ => none
  | _, .proceed => task.proceed me stores
  | _, .fail => some (stores, task.goto .threw)
  | _, _ => none

end EventTask

end Notifkit.Workflow
