import Notifkit.Workflow.Replay

/-!
# A run of the workflow worker

One call of `process` for a message about an instance: it takes the instance's lock or
defers the resume, sets the instance running if it is pending, and runs the handler
against the step rows it reads then. A step without a row is performed: its effects are
separate commands, and other actors come between any two of them. The run ends by
setting the instance to its next status if it is still running, and releases the lock.

A command that fails inside the handler fails the handler; outside of it, it ends the
call with an error and the message stays.
-/

namespace Notifkit.Workflow

/-- Where a step without a row stands. -/
inductive StepStage where
  /-- before the check for a cancel -/
  | checking
  /-- not canceled: the step may act -/
  | clear
  /-- the wake-up time is fixed; about to add the timer -/
  | arming (resumeAt : Nat)
  /-- about to insert the step row -/
  | recording (output : Json) (resumeAt : Nat)

/-- Where a run stands. -/
inductive RunPhase where
  /-- about to take the lock -/
  | locking
  /-- about to put the resume back through the timers -/
  | deferring (locked : Bool)
  | reading
  | inserting
  | claiming
  /-- about to read the step rows -/
  | loading
  /-- the handler goes on -/
  | calling
  | stepping (call : StepCall) (stage : StepStage)
  /-- the step row is there; about to insert the waiter -/
  | registering (eventName : Text) (matchCriteria : Json) (expiresAt : Nat)
  | finishing (status : Status)
  /-- about to release the lock; then the call returns, or rethrows -/
  | releasing (returns : Bool)
  /-- returned; the message is still to be acknowledged -/
  | returned
  | ended

/-- One call of `process`: `seen` are the step rows it read, `results` what its handler
has got so far. -/
structure Run where
  instanceId : InstanceId
  phase : RunPhase := .locking
  seen : List StepRow := []
  results : List Json := []

/-- What a run does next: its next command, with the result of a function it executes or a
notification it publishes; a command that fails; or a renewal of its lock. -/
inductive RunChoice where
  | proceed
  | produce (output : Json)
  | fail
  | renew

/-- The lifetime of the lock, in milliseconds. -/
def WORKFLOW_LOCK_TTL_MS : Nat := 60_000

/-- How soon a deferred resume is tried again. -/
def WORKFLOW_RESUME_RETRY_MS : Nat := 2_000

/-- Whether a run is between taking its lock and releasing it. -/
def RunPhase.locked : RunPhase → Bool
  | .locking | .deferring false | .returned | .ended => false
  | _ => true

/-- Whether a run is done with its handler, or never came to it. -/
def RunPhase.isOver : RunPhase → Bool
  | .releasing _ | .returned | .ended => true
  | _ => false

namespace Run

/-- The run at another phase. -/
def goto (run : Run) (phase : RunPhase) : Run := { run with phase := phase }

/-- The index of the step the handler awaits. -/
def stepId (run : Run) : StepIndex := run.results.length

/-- The handler runs to its next step: it ends, or is answered from a row, is suspended by
one, or has a new step to perform. -/
def call (triggers : InstanceId → Trigger) (stores : Stores) (run : Run) : Run :=
  match (triggers run.instanceId).handler run.results with
  | .returns => run.goto (.finishing .completed)
  | .throws => run.goto (.finishing .failed)
  | .step call =>
    match run.seen.find? fun row => row.stepIndex = run.stepId with
    | some row =>
      match recollect stores.clock call.action row.output with
      | some value => { run with results := run.results ++ [value] }
      | none => run.goto (.finishing .pending)
    | none => run.goto (.stepping call .checking)

/-- The wake-up time of a step that suspends the handler; its duration may be refused. -/
def schedule (stores : Stores) (run : Run) (call : StepCall) (ms : Option Nat) : Run :=
  match ms with
  | some ms => run.goto (.stepping call (.arming (stores.clock + ms)))
  | none => run.goto (.finishing .failed)

/-- Add the timer of a step that suspends the handler. -/
def arm (stores : Stores) (run : Run) (resumeAt : Nat) : StepCall → Option (Stores × Run)
  | .wait duration =>
    some (stores.addTimer resumeAt (.sleep run.instanceId),
      run.goto (.stepping (.wait duration) (.recording (scheduledAt resumeAt) resumeAt)))
  | .waitForEvent eventName options =>
    let member := .eventTimeout run.instanceId eventName (some run.stepId)
    some ({ stores.addTimer resumeAt member with
        armed := Function.update stores.armed run.instanceId (some member) },
      run.goto (.stepping (.waitForEvent eventName options) (.recording .null resumeAt)))
  | .notify | .run => none

/-- Insert the row of a step. A row of the same index makes the insert throw. -/
def record (stores : Stores) (run : Run) (output : Json) (resumeAt : Nat) (call : StepCall) :
    Stores × Run :=
  if (stores.steps run.instanceId).any fun row => row.stepIndex = run.stepId then
    (stores, run.goto (.finishing .failed))
  else
    let inserted := stores.insertStep run.instanceId ⟨run.stepId, call.action, output⟩
    match call with
    | .notify | .run =>
      (inserted, { run with phase := .calling, results := run.results ++ [output] })
    | .wait _ => (inserted, run.goto (.finishing .pending))
    | .waitForEvent eventName options =>
      (inserted, run.goto (.registering eventName options.matchCriteria resumeAt))

/-- The waiter a run is about to insert. -/
def waiter (triggers : InstanceId → Trigger) (stores : Stores) (run : Run) (eventName : Text)
    (matchCriteria : Json) (expiresAt : Nat) : Waiter :=
  ⟨stores.nextWaiter, run.instanceId, (triggers run.instanceId).projectId, eventName,
    matchCriteria, expiresAt, run.stepId⟩

/-- Ghost: the run is done with its instance. -/
def letGo (stores : Stores) (run : Run) : Stores :=
  { stores with runner := Function.update stores.runner run.instanceId none }

/-- The status a run leaves its instance in, unless something else has changed it. -/
def finish (stores : Stores) (run : Run) (status : Status) : Stores :=
  { run.letGo stores with
    instances := if stores.instances run.instanceId = some .running then
        Function.update stores.instances run.instanceId (some status)
      else stores.instances }

/-- Compare and delete: a lock someone else has taken since stays. -/
def releaseLock (me : Nat) (stores : Stores) (run : Run) : Stores :=
  if stores.locks.get stores.clock run.instanceId = some me then
    { stores with locks := stores.locks.del run.instanceId }
  else stores

/-- Compare and extend. -/
def renewLock (me : Nat) (stores : Stores) (run : Run) : Stores :=
  if stores.locks.get stores.clock run.instanceId = some me then
    { stores with
      locks := stores.locks.set run.instanceId me (stores.clock + WORKFLOW_LOCK_TTL_MS) }
  else stores

/-- The next command of a run. -/
def proceed (triggers : InstanceId → Trigger) (me : Nat) (stores : Stores) (run : Run) :
    Option (Stores × Run) :=
  match run.phase with
  | .locking =>
    match stores.locks.setNX stores.clock run.instanceId me
        (stores.clock + WORKFLOW_LOCK_TTL_MS) with
    | some locks =>
      some ({ stores with
          locks := locks
          acquired := Function.update stores.acquired run.instanceId
            (stores.acquired run.instanceId + 1) },
        run.goto .reading)
    | none => some (stores, run.goto (.deferring false))
  | .deferring locked =>
    some ({ stores with
        timers := stores.timers.zadd (stores.clock + WORKFLOW_RESUME_RETRY_MS)
          (.deferred run.instanceId) },
      run.goto (if locked then .releasing true else .returned))
  | .reading =>
    match stores.instances run.instanceId with
    | none => some (stores, run.goto .inserting)
    | some .running => some (stores, run.goto (.deferring true))
    | some .pending => some (stores, run.goto .claiming)
    | some _ => some (stores, run.goto (.releasing true))
  | .inserting =>
    if stores.instances run.instanceId = none then
      some (stores.setStatus run.instanceId .pending, run.goto .claiming)
    else some (stores, run.goto (.releasing false))
  | .claiming =>
    if stores.instances run.instanceId = some .pending then
      some ({ stores.setStatus run.instanceId .running with
          runner := Function.update stores.runner run.instanceId (some me) },
        run.goto .loading)
    else some (stores, run.goto (.releasing true))
  | .loading =>
    some (stores,
      { run with phase := .calling, seen := stores.steps run.instanceId, results := [] })
  | .calling => some (stores, run.call triggers stores)
  | .stepping call .checking =>
    if stores.instances run.instanceId = some .canceled then
      some (run.letGo stores, run.goto (.releasing true))
    else some (stores, run.goto (.stepping call .clear))
  | .stepping (.wait duration) .clear =>
    some (stores, run.schedule stores (.wait duration) duration.ms)
  | .stepping (.waitForEvent eventName options) .clear =>
    some (stores, run.schedule stores (.waitForEvent eventName options) options.timeoutMs)
  | .stepping .notify .clear | .stepping .run .clear => none
  | .stepping call (.arming resumeAt) => run.arm stores resumeAt call
  | .stepping call (.recording output resumeAt) => some (run.record stores output resumeAt call)
  | .registering eventName matchCriteria expiresAt =>
    let waiter := run.waiter triggers stores eventName matchCriteria expiresAt
    some ({ stores with
        waiters := stores.waiters ++ [waiter]
        nextWaiter := stores.nextWaiter + 1
        registrations := waiter :: stores.registrations
        armed := Function.update stores.armed run.instanceId none },
      run.goto (.finishing .pending))
  | .finishing status => some (run.finish stores status, run.goto (.releasing true))
  | .releasing returns =>
    some (run.releaseLock me stores, run.goto (if returns then .returned else .ended))
  | .returned =>
    some ({ stores with stream := stores.stream.erase run.instanceId }, run.goto .ended)
  | .ended => none

/-- Where a run goes when its command fails. The `catch` around the handler also covers the
command that would set the instance to completed. -/
def failed (stores : Stores) (run : Run) : Option (Stores × Run) :=
  match run.phase with
  | .stepping .. | .registering .. | .finishing .completed =>
    some (stores, run.goto (.finishing .failed))
  | .locking | .deferring false => some (stores, run.goto .ended)
  | .deferring true | .reading | .inserting | .claiming =>
    some (stores, run.goto (.releasing false))
  | .loading | .finishing _ => some (run.letGo stores, run.goto (.releasing false))
  | .calling | .releasing _ | .returned | .ended => none

/-- Publish a notification or execute a function, with its result. -/
def perform (me : Nat) (stores : Stores) (run : Run) (call : StepCall) (output : Json) :
    Stores × Run :=
  ({ stores with
      performed := ⟨me, run.instanceId, run.stepId, call.action, output⟩ :: stores.performed },
    run.goto (.stepping call (.recording output 0)))

/-- A step of a run. -/
def step (triggers : InstanceId → Trigger) (me : Nat) (stores : Stores) (run : Run) :
    RunChoice → Option (Stores × Run)
  | .proceed => run.proceed triggers me stores
  | .produce output =>
    match run.phase with
    | .stepping .notify .clear => some (run.perform me stores .notify output)
    | .stepping .run .clear => some (run.perform me stores .run output)
    | _ => none
  | .fail => run.failed stores
  | .renew =>
    match run.phase with
    | .locking | .deferring false | .returned | .ended => none
    | _ => some (run.renewLock me stores, run)

end Run

end Notifkit.Workflow
