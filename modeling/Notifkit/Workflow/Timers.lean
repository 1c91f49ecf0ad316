import Notifkit.Workflow.Replay

/-!
# A poll of the workflow timers

One call of `pollWorkflowTimers` claims members that are due by giving them a later
score, and then takes them one at a time: it reads the instance, answers a wait that ran
into its timeout, publishes the resume and removes the member. The `catch` around the
whole loop ends it at the first command that fails.

The set is asked for the due members in the order of their scores; here any due members
in any order may come back, up to the limit.
-/

namespace Notifkit.Workflow

/-- Where a poll stands with the first of its tasks. -/
inductive PollPhase where
  /-- before the claim -/
  | polling
  /-- about to read the instance -/
  | reading
  /-- about to read the step the timeout is for -/
  | checkingOwn
  /-- about to delete the waiters -/
  | deleting
  /-- about to look for the step still waiting -/
  | selecting
  /-- about to record the timeout -/
  | recording (stepIndex : StepIndex)
  | publishing
  /-- about to remove the member -/
  | removing
deriving DecidableEq

/-- One call of `pollWorkflowTimers`. -/
structure Poll where
  tasks : List Member := []
  phase : PollPhase := .polling
  /-- ghost: what had been put under each member when the poll claimed its tasks -/
  since : Member → List Nat := fun _ => []

/-- What a poll does next: its claim, its next command, what its search for the step still
waiting finds, or a command that fails. -/
inductive PollChoice where
  | claim (now : Nat) (tasks : List Member)
  | proceed
  | select (found : Option StepIndex)
  | fail
deriving DecidableEq

/-- How long a claimed member stays invisible to other polls. -/
def WORKFLOW_TIMER_VISIBILITY_MS : Nat := 60_000

/-- How many members one poll claims at most. -/
def pollLimit : Nat := 100

/-- The instance has ended, or never was. -/
def Stores.gone (stores : Stores) (instanceId : InstanceId) : Bool :=
  match stores.instances instanceId with
  | none | some .completed | some .failed | some .canceled => true
  | some .pending | some .running => false

/-- A row that is a `waitForEvent` without an output. -/
def StepRow.awaits (row : StepRow) : Bool :=
  row.action = .waitForEvent && row.output.isNull

/-- The instance has a `waitForEvent` row without an output under an index. -/
def Stores.awaits (stores : Stores) (instanceId : InstanceId) (stepIndex : StepIndex) : Bool :=
  (stores.steps instanceId).any fun row => row.stepIndex = stepIndex && row.awaits

namespace Poll

/-- The poll at another phase of the same task. -/
def goto (poll : Poll) (phase : PollPhase) : Poll := { poll with phase := phase }

/-- The poll at its next task. -/
def next (poll : Poll) : Poll := { poll with tasks := poll.tasks.tail, phase := .reading }

/-- `schedulerPoll`: members that are due by the poll's own clock get a later score. -/
def claim (stores : Stores) (poll : Poll) (now : Nat) (tasks : List Member) :
    Option (Stores × Poll) :=
  if now ≤ stores.clock ∧ tasks.Nodup ∧ tasks.length ≤ pollLimit ∧
      ∀ task ∈ tasks, ∃ score ∈ stores.timers.score task, score ≤ now then
    some ({ stores with
        timers := stores.timers.rescore tasks (now + WORKFLOW_TIMER_VISIBILITY_MS) },
      { poll with tasks := tasks, phase := .reading, since := stores.added })
  else none

/-- Where a poll goes once it has read the instance of its task. -/
def afterReading (stores : Stores) (poll : Poll) (task : Member) : Poll :=
  if stores.gone task.instanceId then poll.goto .removing
  else if stores.instances task.instanceId = some .running then poll.next
  else match task with
    | .eventTimeout _ _ (some _) => poll.goto .checkingOwn
    | .eventTimeout _ _ none => poll.goto .deleting
    | .sleep _ | .deferred _ => poll.goto .publishing

/-- Read the step the timeout is for: if it has an output, the timer is stale. -/
def checkOwn (stores : Stores) (poll : Poll) : Member → Option (Stores × Poll)
  | .eventTimeout instanceId _ (some stepId) =>
    match stores.row? instanceId stepId with
    | some row =>
      if row.output.isNull then some (stores, poll.goto .deleting)
      else some (stores, poll.goto .removing)
    | none => some (stores, poll.goto .removing)
  | _ => none

/-- Delete the waiters of the instance on the event name. Where there are none, an event
has come first and the timer is stale. -/
def deleteWaiters (me : Nat) (stores : Stores) (poll : Poll) : Member → Option (Stores × Poll)
  | .eventTimeout instanceId eventName stepId =>
    let deleted := stores.waiters.filter fun waiter =>
      waiter.instanceId = instanceId ∧ waiter.eventName = eventName
    if deleted.isEmpty then some (stores, poll.goto .removing)
    else
      some (Stores.expire { stores with
          waiters := stores.waiters.filter fun waiter =>
            ¬ (waiter.instanceId = instanceId ∧ waiter.eventName = eventName) }
          me (stepId.map fun stepIndex => (instanceId, stepIndex)),
        poll.goto .selecting)
  | _ => none

/-- Look for the step still waiting: the timer's own, or any where the timer names none. -/
def select (me : Nat) (stores : Stores) (poll : Poll) (found : Option StepIndex) :
    Member → Option (Stores × Poll)
  | .eventTimeout instanceId _ stepId =>
    match found with
    | some stepIndex =>
      if stores.awaits instanceId stepIndex ∧ ∀ own ∈ stepId, own = stepIndex then
        some (stores, poll.goto (.recording stepIndex))
      else none
    | none =>
      if (stores.steps instanceId).all fun row =>
          !row.awaits || stepId.any fun own => own ≠ row.stepIndex then
        some (stores.expire me none, poll.goto .publishing)
      else none
  | _ => none

/-- Record the timeout. -/
def record (me : Nat) (stores : Stores) (poll : Poll) (stepIndex : StepIndex) :
    Member → Option (Stores × Poll)
  | .eventTimeout instanceId _ _ =>
    some ((stores.answerStep instanceId stepIndex timedOut).expire me none,
      poll.goto .publishing)
  | _ => none

/-- A step of a poll. -/
def step (me : Nat) (stores : Stores) (poll : Poll) (choice : PollChoice) :
    Option (Stores × Poll) :=
  match poll.phase, poll.tasks, choice with
  | .polling, _, .claim now tasks => poll.claim stores now tasks
  | .reading, task :: _, .proceed => some (stores, poll.afterReading stores task)
  | .checkingOwn, task :: _, .proceed => poll.checkOwn stores task
  | .deleting, task :: _, .proceed => poll.deleteWaiters me stores task
  | .selecting, task :: _, .select found => poll.select me stores found task
  | .recording stepIndex, task :: _, .proceed => poll.record me stores stepIndex task
  | .publishing, task :: _, .proceed =>
    some (stores.publish task.instanceId, poll.goto .removing)
  | .removing, task :: _, .proceed =>
    some ({ stores with timers := stores.timers.zrem task }, poll.next)
  | _, _ :: _, .fail =>
    some (stores.expire me none, { poll with tasks := [], phase := .reading })
  | _, _, _ => none

end Poll

end Notifkit.Workflow
