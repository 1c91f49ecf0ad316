import Notifkit.Workflow.World

/-!
# What a step of each actor can do

A step of a run, of a poll or of an event task is taken apart here once, into the few
moves that change what the others can see and the many that do not. The invariants of
the workflow services are proved from the moves and never unfold a step.
-/

namespace Notifkit.Workflow

variable {triggers : InstanceId → Trigger} {stores after : Stores} {me : Nat}

/-- Nothing changed but the messages, the locks and the timers of deferred resumes. -/
structure SameRows (stores after : Stores) : Prop where
  clock : after.clock = stores.clock
  instances : after.instances = stores.instances
  steps : after.steps = stores.steps
  waiters : after.waiters = stores.waiters
  nextWaiter : after.nextWaiter = stores.nextWaiter
  timers : ∀ member : Member, (∀ instanceId, member ≠ .deferred instanceId) →
    after.timers.score member = stores.timers.score member
  buffer : after.buffer = stores.buffer
  rejected : after.rejected = stores.rejected
  dead : after.dead = stores.dead
  performed : after.performed = stores.performed
  runner : after.runner = stores.runner
  added : after.added = stores.added
  armed : after.armed = stores.armed
  reaped : after.reaped = stores.reaped
  expiring : after.expiring = stores.expiring
  registrations : after.registrations = stores.registrations
  answered : after.answered = stores.answered
  consumed : after.consumed = stores.consumed
  durable : after.durable = stores.durable

theorem SameRows.refl (stores : Stores) : SameRows stores stores :=
  ⟨rfl, rfl, rfl, rfl, rfl, fun _ _ => rfl, rfl, rfl, rfl, rfl, rfl, rfl, rfl, rfl, rfl, rfl, rfl,
    rfl, rfl⟩

/-- A phase before the run has set the instance running, or after it has given it up. -/
def RunPhase.outer : RunPhase → Prop
  | .locking | .deferring _ | .reading | .inserting | .claiming | .releasing _ | .returned
  | .ended => True
  | _ => False

/-- What a step of a run does to its lock: nothing, or it takes, extends or releases it. -/
inductive LockStep (me : Nat) (stores : Stores) (run : Run) (after : Stores) (later : Run) :
    Prop where
  | keep (locks : after.locks = stores.locks) (acquired : after.acquired = stores.acquired)
    (held : later.phase.locked = true → run.phase.locked = true)
  | take (free : stores.locks.get stores.clock run.instanceId = none)
    (locks : after.locks = stores.locks.set run.instanceId me
      (stores.clock + WORKFLOW_LOCK_TTL_MS))
    (acquired : after.acquired = Function.update stores.acquired run.instanceId
      (stores.acquired run.instanceId + 1))
  | extend (mine : stores.locks.get stores.clock run.instanceId = some me)
    (locks : after.locks = stores.locks.set run.instanceId me
      (stores.clock + WORKFLOW_LOCK_TTL_MS))
    (acquired : after.acquired = stores.acquired) (held : later.phase = run.phase)
  | release (mine : stores.locks.get stores.clock run.instanceId = some me)
    (locks : after.locks = stores.locks.del run.instanceId)
    (acquired : after.acquired = stores.acquired) (isOver : later.phase.locked = false)

/-- What a step of a run can do. -/
inductive RunMove (triggers : InstanceId → Trigger) (me : Nat) (stores : Stores) (run : Run) :
    Stores → Run → Prop where
  | outer {after : Stores} {phase : RunPhase} (was : run.phase.outer) (outer : phase.outer)
    (same : SameRows stores after) (lock : LockStep me stores run after (run.goto phase))
    (onward : run.phase.isOver = true → phase.isOver = true) :
    RunMove triggers me stores run after (run.goto phase)
  /-- a cancel stops the run, or a command it needs has failed -/
  | giveUp {phase : RunPhase} (inner : ¬ run.phase.outer) (outer : phase.outer) :
    RunMove triggers me stores run (run.letGo stores) (run.goto phase)
  | renew {after : Stores} (same : SameRows stores after)
    (lock : LockStep me stores run after run) : RunMove triggers me stores run after run
  | insert (phase : run.phase = .inserting) (missing : stores.instances run.instanceId = none) :
    RunMove triggers me stores run (stores.setStatus run.instanceId .pending) (run.goto .claiming)
  | claim (phase : run.phase = .claiming) (pending : stores.instances run.instanceId = some .pending) :
    RunMove triggers me stores run
      { stores.setStatus run.instanceId .running with
        runner := Function.update stores.runner run.instanceId (some me) }
      (run.goto .loading)
  | load (phase : run.phase = .loading) :
    RunMove triggers me stores run stores
      { run with phase := .calling, seen := stores.steps run.instanceId, results := [] }
  /-- the handler returns -/
  | returns (phase : run.phase = .calling)
    (asks : (triggers run.instanceId).handler run.results = .returns) :
    RunMove triggers me stores run stores (run.goto (.finishing .completed))
  /-- the handler throws, or a command it needs has failed -/
  | throws (inner : ¬ run.phase.outer) :
    RunMove triggers me stores run stores (run.goto (.finishing .failed))
  /-- a row that gives no answer suspends the handler -/
  | suspend {call : StepCall} {row : StepRow} (phase : run.phase = .calling)
    (asks : (triggers run.instanceId).handler run.results = .step call)
    (found : (run.seen.find? fun row => row.stepIndex = run.stepId) = some row)
    (silent : recollect stores.clock call.action row.output = none) :
    RunMove triggers me stores run stores (run.goto (.finishing .pending))
  /-- a row answers -/
  | recollect {call : StepCall} {row : StepRow} {value : Json} (phase : run.phase = .calling)
    (asks : (triggers run.instanceId).handler run.results = .step call)
    (found : (run.seen.find? fun row => row.stepIndex = run.stepId) = some row)
    (answers : recollect stores.clock call.action row.output = some value) :
    RunMove triggers me stores run stores { run with results := run.results ++ [value] }
  /-- a step without a row -/
  | meet {call : StepCall} (phase : run.phase = .calling)
    (asks : (triggers run.instanceId).handler run.results = .step call)
    (absent : (run.seen.find? fun row => row.stepIndex = run.stepId) = none) :
    RunMove triggers me stores run stores (run.goto (.stepping call .checking))
  /-- the instance was not canceled: the step may act -/
  | clear {call : StepCall} (phase : run.phase = .stepping call .checking)
    (alive : stores.instances run.instanceId ≠ some .canceled) :
    RunMove triggers me stores run stores (run.goto (.stepping call .clear))
  /-- the wake-up time of a step is fixed -/
  | schedule {call : StepCall} {resumeAt : Nat} (phase : run.phase = .stepping call .clear) :
    RunMove triggers me stores run stores (run.goto (.stepping call (.arming resumeAt)))
  | perform {call : StepCall} {output : Json} (phase : run.phase = .stepping call .clear)
    (kind : call = .notify ∨ call = .run) :
    RunMove triggers me stores run (run.perform me stores call output).1
      (run.perform me stores call output).2
  | armWait {duration : Duration} {resumeAt : Nat}
    (phase : run.phase = .stepping (.wait duration) (.arming resumeAt)) :
    RunMove triggers me stores run (stores.addTimer resumeAt (.sleep run.instanceId))
      (run.goto (.stepping (.wait duration) (.recording (scheduledAt resumeAt) resumeAt)))
  | armTimeout {eventName : Text} {options : WaitOptions} {resumeAt : Nat}
    (phase : run.phase = .stepping (.waitForEvent eventName options) (.arming resumeAt)) :
    RunMove triggers me stores run
      { stores.addTimer resumeAt (.eventTimeout run.instanceId eventName (some run.stepId)) with
        armed := Function.update stores.armed run.instanceId
          (some (.eventTimeout run.instanceId eventName (some run.stepId))) }
      (run.goto (.stepping (.waitForEvent eventName options) (.recording .null resumeAt)))
  | recordResult {call : StepCall} {output : Json} {resumeAt : Nat}
    (phase : run.phase = .stepping call (.recording output resumeAt))
    (kind : call = .notify ∨ call = .run)
    (fresh : ∀ row ∈ stores.steps run.instanceId, row.stepIndex ≠ run.stepId) :
    RunMove triggers me stores run
      (stores.insertStep run.instanceId ⟨run.stepId, call.action, output⟩)
      { run with phase := .calling, results := run.results ++ [output] }
  | recordWait {duration : Duration} {output : Json} {resumeAt : Nat}
    (phase : run.phase = .stepping (.wait duration) (.recording output resumeAt))
    (fresh : ∀ row ∈ stores.steps run.instanceId, row.stepIndex ≠ run.stepId) :
    RunMove triggers me stores run
      (stores.insertStep run.instanceId ⟨run.stepId, .wait, output⟩)
      (run.goto (.finishing .pending))
  | recordPending {eventName : Text} {options : WaitOptions} {output : Json} {resumeAt : Nat}
    (phase : run.phase = .stepping (.waitForEvent eventName options) (.recording output resumeAt))
    (fresh : ∀ row ∈ stores.steps run.instanceId, row.stepIndex ≠ run.stepId) :
    RunMove triggers me stores run
      (stores.insertStep run.instanceId ⟨run.stepId, .waitForEvent, output⟩)
      (run.goto (.registering eventName options.matchCriteria resumeAt))
  | register {eventName : Text} {matchCriteria : Json} {expiresAt : Nat}
    (phase : run.phase = .registering eventName matchCriteria expiresAt) :
    RunMove triggers me stores run
      { stores with
        waiters := stores.waiters ++
          [run.waiter triggers stores eventName matchCriteria expiresAt]
        nextWaiter := stores.nextWaiter + 1
        registrations := run.waiter triggers stores eventName matchCriteria expiresAt ::
          stores.registrations
        armed := Function.update stores.armed run.instanceId none }
      (run.goto (.finishing .pending))
  | finish {status : Status} (phase : run.phase = .finishing status) :
    RunMove triggers me stores run (run.finish stores status) (run.goto (.releasing true))

/-- The next command of a run is one of the moves. -/
theorem Run.proceed_moves {run later : Run}
    (taken : run.proceed triggers me stores = some (after, later)) :
    RunMove triggers me stores run after later := by
  unfold Run.proceed at taken
  split at taken
  next phase =>
    have was : run.phase.outer := by simp [phase, RunPhase.outer]
    split at taken
    next locks set =>
      obtain ⟨rfl, rfl⟩ := Prod.mk.inj (Option.some.inj taken)
      obtain ⟨free, written⟩ := ExpiringStore.setNX_eq_some.mp set
      exact .outer was trivial { SameRows.refl stores with } (.take free written.symm rfl)
        (by simp [phase, RunPhase.isOver])
    next =>
      obtain ⟨rfl, rfl⟩ := Prod.mk.inj (Option.some.inj taken)
      exact .outer was trivial (SameRows.refl stores) (.keep rfl rfl nofun)
        (by simp [phase, RunPhase.isOver])
  next locked phase =>
    have was : run.phase.outer := by simp [phase, RunPhase.outer]
    obtain ⟨rfl, rfl⟩ := Prod.mk.inj (Option.some.inj taken)
    refine .outer was (by cases locked <;> trivial) { SameRows.refl stores with
      timers := fun member other => ?_ } (.keep rfl rfl fun held => ?_) (by simp [phase, RunPhase.isOver])
    · simp [other run.instanceId]
    · cases locked
      · cases held
      · simp [phase, RunPhase.locked]
  next phase =>
    have was : run.phase.outer := by simp [phase, RunPhase.outer]
    split at taken <;>
      (obtain ⟨rfl, rfl⟩ := Prod.mk.inj (Option.some.inj taken)
       exact .outer was trivial (SameRows.refl stores)
        (.keep rfl rfl fun _ => by simp [phase, RunPhase.locked]) (by simp [phase, RunPhase.isOver]))
  next phase =>
    split at taken
    next missing =>
      obtain ⟨rfl, rfl⟩ := Prod.mk.inj (Option.some.inj taken)
      exact .insert phase missing
    next =>
      have was : run.phase.outer := by simp [phase, RunPhase.outer]
      obtain ⟨rfl, rfl⟩ := Prod.mk.inj (Option.some.inj taken)
      exact .outer was trivial (SameRows.refl stores)
        (.keep rfl rfl fun _ => by simp [phase, RunPhase.locked]) (by simp [phase, RunPhase.isOver])
  next phase =>
    split at taken
    next pending =>
      obtain ⟨rfl, rfl⟩ := Prod.mk.inj (Option.some.inj taken)
      exact .claim phase pending
    next =>
      have was : run.phase.outer := by simp [phase, RunPhase.outer]
      obtain ⟨rfl, rfl⟩ := Prod.mk.inj (Option.some.inj taken)
      exact .outer was trivial (SameRows.refl stores)
        (.keep rfl rfl fun _ => by simp [phase, RunPhase.locked]) (by simp [phase, RunPhase.isOver])
  next phase =>
    obtain ⟨rfl, rfl⟩ := Prod.mk.inj (Option.some.inj taken)
    exact .load phase
  next phase =>
    obtain ⟨rfl, rfl⟩ := Prod.mk.inj (Option.some.inj taken)
    unfold Run.call
    split
    next asks => exact .returns phase asks
    next => exact .throws (by simp [phase, RunPhase.outer])
    next call asks =>
      split
      next row found =>
        split
        next value answers => exact .recollect phase asks found answers
        next silent => exact .suspend phase asks found silent
      next absent => exact .meet phase asks absent
  next call phase =>
    split at taken
    next =>
      obtain ⟨rfl, rfl⟩ := Prod.mk.inj (Option.some.inj taken)
      exact .giveUp (by simp [phase, RunPhase.outer]) trivial
    next alive =>
      obtain ⟨rfl, rfl⟩ := Prod.mk.inj (Option.some.inj taken)
      exact .clear phase alive
  next duration phase =>
    obtain ⟨rfl, rfl⟩ := Prod.mk.inj (Option.some.inj taken)
    unfold Run.schedule
    split
    next => exact .schedule phase
    next => exact .throws (by simp [phase, RunPhase.outer])
  next eventName options phase =>
    obtain ⟨rfl, rfl⟩ := Prod.mk.inj (Option.some.inj taken)
    unfold Run.schedule
    split
    next => exact .schedule phase
    next => exact .throws (by simp [phase, RunPhase.outer])
  next => cases taken
  next => cases taken
  next call resumeAt phase =>
    cases call with
    | notify => cases taken
    | run => cases taken
    | wait duration =>
      obtain ⟨rfl, rfl⟩ := Prod.mk.inj (Option.some.inj taken)
      exact .armWait phase
    | waitForEvent eventName options =>
      obtain ⟨rfl, rfl⟩ := Prod.mk.inj (Option.some.inj taken)
      exact .armTimeout phase
  next call output resumeAt phase =>
    have same := Option.some.inj taken
    unfold Run.record at same
    split at same
    next =>
      obtain ⟨rfl, rfl⟩ := Prod.mk.inj same
      exact .throws (by simp [phase, RunPhase.outer])
    next absent =>
      have fresh : ∀ row ∈ stores.steps run.instanceId, row.stepIndex ≠ run.stepId := by
        intro row member index
        exact absent (List.any_eq_true.mpr ⟨row, member, by simpa using index⟩)
      cases call with
      | notify =>
        obtain ⟨rfl, rfl⟩ := Prod.mk.inj same
        exact .recordResult phase (.inl rfl) fresh
      | run =>
        obtain ⟨rfl, rfl⟩ := Prod.mk.inj same
        exact .recordResult phase (.inr rfl) fresh
      | wait duration =>
        obtain ⟨rfl, rfl⟩ := Prod.mk.inj same
        exact .recordWait phase fresh
      | waitForEvent eventName options =>
        obtain ⟨rfl, rfl⟩ := Prod.mk.inj same
        exact .recordPending phase fresh
  next eventName matchCriteria expiresAt phase =>
    obtain ⟨rfl, rfl⟩ := Prod.mk.inj (Option.some.inj taken)
    exact .register phase
  next status phase =>
    obtain ⟨rfl, rfl⟩ := Prod.mk.inj (Option.some.inj taken)
    exact .finish phase
  next returns phase =>
    have was : run.phase.outer := by simp [phase, RunPhase.outer]
    obtain ⟨rfl, rfl⟩ := Prod.mk.inj (Option.some.inj taken)
    have isOver : (run.goto (if returns then .returned else .ended)).phase.locked = false := by
      cases returns <;> rfl
    refine .outer was (by cases returns <;> trivial) ?_ ?_ (by cases returns <;> simp [RunPhase.isOver])
    all_goals
      unfold Run.releaseLock
      split
    · exact { SameRows.refl stores with }
    · exact SameRows.refl stores
    next mine => exact .release mine rfl rfl isOver
    next => exact .keep rfl rfl fun held => by simp [isOver] at held
  next phase =>
    have was : run.phase.outer := by simp [phase, RunPhase.outer]
    obtain ⟨rfl, rfl⟩ := Prod.mk.inj (Option.some.inj taken)
    exact .outer was trivial { SameRows.refl stores with } (.keep rfl rfl nofun) fun _ => rfl
  next => cases taken

/-- A command of a run that fails is one of the moves. -/
theorem Run.failed_moves {run later : Run} (taken : run.failed stores = some (after, later)) :
    RunMove triggers me stores run after later := by
  have outer : ∀ {phase : RunPhase}, run.phase.outer → phase.outer →
      (phase.locked = true → run.phase.locked = true) → phase.isOver = true →
        RunMove triggers me stores run stores (run.goto phase) := fun was outer held isOver =>
    .outer was outer (SameRows.refl stores) (.keep rfl rfl held) fun _ => isOver
  unfold Run.failed at taken
  split at taken
  next phase =>
    obtain ⟨rfl, rfl⟩ := Prod.mk.inj (Option.some.inj taken)
    exact .throws (by simp [phase, RunPhase.outer])
  next phase =>
    obtain ⟨rfl, rfl⟩ := Prod.mk.inj (Option.some.inj taken)
    exact .throws (by simp [phase, RunPhase.outer])
  next phase =>
    obtain ⟨rfl, rfl⟩ := Prod.mk.inj (Option.some.inj taken)
    exact .throws (by simp [phase, RunPhase.outer])
  next phase =>
    obtain ⟨rfl, rfl⟩ := Prod.mk.inj (Option.some.inj taken)
    exact outer (by simp [phase, RunPhase.outer]) trivial nofun rfl
  next phase =>
    obtain ⟨rfl, rfl⟩ := Prod.mk.inj (Option.some.inj taken)
    exact outer (by simp [phase, RunPhase.outer]) trivial nofun rfl
  next phase =>
    obtain ⟨rfl, rfl⟩ := Prod.mk.inj (Option.some.inj taken)
    exact outer (by simp [phase, RunPhase.outer]) trivial
      (fun _ => by simp [phase, RunPhase.locked]) rfl
  next phase =>
    obtain ⟨rfl, rfl⟩ := Prod.mk.inj (Option.some.inj taken)
    exact outer (by simp [phase, RunPhase.outer]) trivial
      (fun _ => by simp [phase, RunPhase.locked]) rfl
  next phase =>
    obtain ⟨rfl, rfl⟩ := Prod.mk.inj (Option.some.inj taken)
    exact outer (by simp [phase, RunPhase.outer]) trivial
      (fun _ => by simp [phase, RunPhase.locked]) rfl
  next phase =>
    obtain ⟨rfl, rfl⟩ := Prod.mk.inj (Option.some.inj taken)
    exact outer (by simp [phase, RunPhase.outer]) trivial
      (fun _ => by simp [phase, RunPhase.locked]) rfl
  next phase =>
    obtain ⟨rfl, rfl⟩ := Prod.mk.inj (Option.some.inj taken)
    exact .giveUp (by simp [phase, RunPhase.outer]) trivial
  next phase =>
    obtain ⟨rfl, rfl⟩ := Prod.mk.inj (Option.some.inj taken)
    exact .giveUp (by simp [phase, RunPhase.outer]) trivial
  all_goals cases taken

/-- A run stays with its instance. -/
theorem RunMove.place {run later : Run} (move : RunMove triggers me stores run after later) :
    later.instanceId = run.instanceId := by
  cases move <;> rfl

/-- A step of a run is one of the moves. -/
theorem Run.step_moves {run later : Run} {choice : RunChoice}
    (taken : run.step triggers me stores choice = some (after, later)) :
    RunMove triggers me stores run after later := by
  cases choice with
  | proceed => exact Run.proceed_moves taken
  | produce output =>
    simp only [Run.step] at taken
    split at taken
    next phase =>
      obtain ⟨rfl, rfl⟩ := Prod.mk.inj (Option.some.inj taken)
      exact .perform phase (.inl rfl)
    next phase =>
      obtain ⟨rfl, rfl⟩ := Prod.mk.inj (Option.some.inj taken)
      exact .perform phase (.inr rfl)
    next => cases taken
  | fail => exact Run.failed_moves taken
  | renew =>
    simp only [Run.step] at taken
    split at taken
    next => cases taken
    next => cases taken
    next => cases taken
    next => cases taken
    next =>
      obtain ⟨rfl, rfl⟩ := Prod.mk.inj (Option.some.inj taken)
      refine .renew ?_ ?_
      all_goals
        unfold Run.renewLock
        split
      · exact { SameRows.refl stores with }
      · exact SameRows.refl stores
      next mine => exact .extend mine rfl rfl rfl
      next => exact .keep rfl rfl id

/-- What a step of a poll can do. -/
inductive PollMove (me : Nat) (stores : Stores) (poll : Poll) (choice : PollChoice) :
    Stores → Poll → Prop where
  | claim {now : Nat} {tasks : List Member} (phase : poll.phase = .polling)
    (early : now ≤ stores.clock)
    (due : ∀ task ∈ tasks, ∃ score ∈ stores.timers.score task, score ≤ now) :
    PollMove me stores poll choice
      { stores with timers := stores.timers.rescore tasks (now + WORKFLOW_TIMER_VISIBILITY_MS) }
      { poll with tasks := tasks, phase := .reading, since := stores.added }
  | skip (phase : poll.phase = .reading) : PollMove me stores poll choice stores poll.next
  | abandon (failed : choice = .fail) :
    PollMove me stores poll choice (stores.expire me none)
      { poll with tasks := [], phase := .reading }
  /-- the instance has ended -/
  | gone {task : Member} {rest : List Member} (phase : poll.phase = .reading)
    (first : poll.tasks = task :: rest) (gone : stores.gone task.instanceId = true) :
    PollMove me stores poll choice stores (poll.goto .removing)
  | checkOwn {instanceId : InstanceId} {eventName : Text} {stepId : StepIndex}
    {rest : List Member} (phase : poll.phase = .reading)
    (first : poll.tasks = .eventTimeout instanceId eventName (some stepId) :: rest)
    (pending : stores.instances instanceId = some .pending) :
    PollMove me stores poll choice stores (poll.goto .checkingOwn)
  | anyStep {instanceId : InstanceId} {eventName : Text} {rest : List Member}
    (phase : poll.phase = .reading)
    (first : poll.tasks = .eventTimeout instanceId eventName none :: rest) :
    PollMove me stores poll choice stores (poll.goto .deleting)
  | resume {task : Member} {rest : List Member} (phase : poll.phase = .reading)
    (first : poll.tasks = task :: rest)
    (plain : ∀ instanceId eventName stepId, task ≠ .eventTimeout instanceId eventName stepId) :
    PollMove me stores poll choice stores (poll.goto .publishing)
  /-- the step has an output, or is missing -/
  | stale {instanceId : InstanceId} {eventName : Text} {stepId : StepIndex} {rest : List Member}
    (phase : poll.phase = .checkingOwn)
    (first : poll.tasks = .eventTimeout instanceId eventName (some stepId) :: rest)
    (isOver : ∀ row, stores.row? instanceId stepId = some row → row.output ≠ .null) :
    PollMove me stores poll choice stores (poll.goto .removing)
  | own {instanceId : InstanceId} {eventName : Text} {stepId : StepIndex} {rest : List Member}
    {row : StepRow} (phase : poll.phase = .checkingOwn)
    (first : poll.tasks = .eventTimeout instanceId eventName (some stepId) :: rest)
    (found : stores.row? instanceId stepId = some row) (empty : row.output = .null) :
    PollMove me stores poll choice stores (poll.goto .deleting)
  | noWaiter {instanceId : InstanceId} {eventName : Text} {stepId : Option StepIndex}
    {rest : List Member} (phase : poll.phase = .deleting)
    (first : poll.tasks = .eventTimeout instanceId eventName stepId :: rest)
    (none : ∀ waiter ∈ stores.waiters,
      ¬ (waiter.instanceId = instanceId ∧ waiter.eventName = eventName)) :
    PollMove me stores poll choice stores (poll.goto .removing)
  | deleteWaiters {instanceId : InstanceId} {eventName : Text} {stepId : Option StepIndex}
    {rest : List Member} (taken : choice = .proceed) (phase : poll.phase = .deleting)
    (first : poll.tasks = .eventTimeout instanceId eventName stepId :: rest) :
    PollMove me stores poll choice
      (Stores.expire { stores with
          waiters := stores.waiters.filter fun waiter =>
            ¬ (waiter.instanceId = instanceId ∧ waiter.eventName = eventName) }
        me (stepId.map fun stepIndex => (instanceId, stepIndex)))
      (poll.goto .selecting)
  | found {instanceId : InstanceId} {eventName : Text} {stepId : Option StepIndex}
    {stepIndex : StepIndex} {rest : List Member} (taken : choice = .select (some stepIndex))
    (phase : poll.phase = .selecting)
    (first : poll.tasks = .eventTimeout instanceId eventName stepId :: rest)
    (awaits : stores.awaits instanceId stepIndex = true) (own : ∀ own ∈ stepId, own = stepIndex) :
    PollMove me stores poll choice stores (poll.goto (.recording stepIndex))
  | nothingAwaits {instanceId : InstanceId} {eventName : Text} {stepId : Option StepIndex}
    {rest : List Member} (phase : poll.phase = .selecting)
    (first : poll.tasks = .eventTimeout instanceId eventName stepId :: rest)
    (isOver : ∀ row ∈ stores.steps instanceId, row.awaits = true →
      ∃ own ∈ stepId, own ≠ row.stepIndex) :
    PollMove me stores poll choice (stores.expire me none) (poll.goto .publishing)
  | record {instanceId : InstanceId} {eventName : Text} {stepId : Option StepIndex}
    {stepIndex : StepIndex} {rest : List Member} (phase : poll.phase = .recording stepIndex)
    (first : poll.tasks = .eventTimeout instanceId eventName stepId :: rest) :
    PollMove me stores poll choice
      ((stores.answerStep instanceId stepIndex timedOut).expire me none) (poll.goto .publishing)
  | publish {task : Member} {rest : List Member} (phase : poll.phase = .publishing)
    (first : poll.tasks = task :: rest) :
    PollMove me stores poll choice (stores.publish task.instanceId) (poll.goto .removing)
  | remove {task : Member} {rest : List Member} (taken : choice = .proceed)
    (phase : poll.phase = .removing) (first : poll.tasks = task :: rest) :
    PollMove me stores poll choice { stores with timers := stores.timers.zrem task } poll.next

/-- Once the instance is read, the poll goes to the next task or on with this one. -/
theorem Poll.afterReading_moves {poll : Poll} {choice : PollChoice} {task : Member}
    {rest : List Member} (phase : poll.phase = .reading) (first : poll.tasks = task :: rest) :
    PollMove me stores poll choice stores (poll.afterReading stores task) := by
  unfold Poll.afterReading
  split
  next gone => exact .gone phase first gone
  next alive =>
    split
    next => exact .skip phase
    next idle =>
      have pending : stores.instances task.instanceId = some .pending := by
        unfold Stores.gone at alive
        cases status : stores.instances task.instanceId with
        | none => simp [status] at alive
        | some status' => cases status' <;> simp_all
      split
      next instanceId eventName stepId => exact .checkOwn phase first pending
      next instanceId eventName => exact .anyStep phase first
      next => exact .resume phase first (by simp)
      next => exact .resume phase first (by simp)

/-- A step of a poll is one of the moves. -/
theorem Poll.step_moves {poll later : Poll} {choice : PollChoice}
    (taken : poll.step me stores choice = some (after, later)) :
    PollMove me stores poll choice after later := by
  unfold Poll.step at taken
  split at taken
  next now tasks phase =>
    obtain ⟨⟨early, _, _, due⟩, same⟩ := Option.ite_none_right_eq_some.mp taken
    obtain ⟨rfl, rfl⟩ := Prod.mk.inj (Option.some.inj same)
    exact .claim phase early due
  next task rest phase first =>
    obtain ⟨rfl, rfl⟩ := Prod.mk.inj (Option.some.inj taken)
    exact Poll.afterReading_moves phase first
  next task rest phase first =>
    unfold Poll.checkOwn at taken
    split at taken
    next instanceId eventName stepId =>
      split at taken
      next row found =>
        split at taken
        next empty =>
          obtain ⟨rfl, rfl⟩ := Prod.mk.inj (Option.some.inj taken)
          exact .own phase first found (Json.isNull_iff.mp empty)
        next filled =>
          obtain ⟨rfl, rfl⟩ := Prod.mk.inj (Option.some.inj taken)
          refine .stale phase first fun other same => ?_
          obtain rfl : row = other := Option.some.inj (found.symm.trans same)
          exact fun null => filled (Json.isNull_iff.mpr null)
      next absent =>
        obtain ⟨rfl, rfl⟩ := Prod.mk.inj (Option.some.inj taken)
        exact .stale phase first fun other same => by simp [absent] at same
    next => cases taken
  next task rest phase first =>
    unfold Poll.deleteWaiters at taken
    split at taken
    next instanceId eventName stepId =>
      dsimp only at taken
      split at taken
      next none =>
        obtain ⟨rfl, rfl⟩ := Prod.mk.inj (Option.some.inj taken)
        refine .noWaiter phase first fun waiter member matched => ?_
        simp only [List.isEmpty_iff, List.filter_eq_nil_iff] at none
        exact none waiter member (by simpa using matched)
      next =>
        obtain ⟨rfl, rfl⟩ := Prod.mk.inj (Option.some.inj taken)
        exact .deleteWaiters rfl phase first
    next => cases taken
  next task rest found phase first =>
    unfold Poll.select at taken
    split at taken
    next instanceId eventName stepId =>
      split at taken
      next stepIndex =>
        obtain ⟨⟨awaits, own⟩, same⟩ := Option.ite_none_right_eq_some.mp taken
        obtain ⟨rfl, rfl⟩ := Prod.mk.inj (Option.some.inj same)
        exact .found rfl phase first awaits own
      next =>
        obtain ⟨isOver, same⟩ := Option.ite_none_right_eq_some.mp taken
        obtain ⟨rfl, rfl⟩ := Prod.mk.inj (Option.some.inj same)
        refine .nothingAwaits phase first fun row member awaits => ?_
        have other := List.all_eq_true.mp isOver row member
        simpa [awaits, Option.any_eq_true] using other
    next => cases taken
  next stepIndex task rest phase first =>
    unfold Poll.record at taken
    split at taken
    next instanceId eventName stepId =>
      obtain ⟨rfl, rfl⟩ := Prod.mk.inj (Option.some.inj taken)
      exact .record phase first
    next => cases taken
  next task rest phase first =>
    obtain ⟨rfl, rfl⟩ := Prod.mk.inj (Option.some.inj taken)
    exact .publish phase first
  next task rest phase first =>
    obtain ⟨rfl, rfl⟩ := Prod.mk.inj (Option.some.inj taken)
    exact .remove rfl phase first
  next =>
    obtain ⟨rfl, rfl⟩ := Prod.mk.inj (Option.some.inj taken)
    exact .abandon rfl
  next => cases taken

/-- What a step of an event task can do. -/
inductive TaskMove (me : Nat) (stores : Stores) (task : EventTask) (choice : TaskChoice) :
    Stores → EventTask → Prop where
  | select (phase : task.phase = .selecting) :
    TaskMove me stores task choice stores (task.goto (.looping (task.selected stores)))
  | handle {rest : List Waiter} {position : Nat} {waiter : Waiter}
    (phase : task.phase = .looping rest) (found : rest[position]? = some waiter)
    (matched : waiter.matched task.event = true) :
    TaskMove me stores task choice stores (task.goto (.readingInstance waiter (rest.eraseIdx position)))
  | pass {rest : List Waiter} {position : Nat} {waiter : Waiter}
    (phase : task.phase = .looping rest) (found : rest[position]? = some waiter)
    (unmatched : waiter.matched task.event = false) :
    TaskMove me stores task choice stores (task.goto (.looping (rest.eraseIdx position)))
  /-- the last waiter is done, or the event has no name -/
  | await (settled : task.phase = .selecting ∨ task.phase = .looping []) :
    TaskMove me stores task choice stores (task.goto .awaiting)
  | missing {waiter : Waiter} {rest : List Waiter} (phase : task.phase = .readingInstance waiter rest)
    (missing : stores.instances waiter.instanceId = none) :
    TaskMove me stores task choice stores (task.goto (.dropping waiter rest))
  | readSteps {waiter : Waiter} {rest : List Waiter}
    (phase : task.phase = .readingInstance waiter rest) :
    TaskMove me stores task choice stores (task.goto (.readingSteps waiter rest))
  | drop {waiter : Waiter} {rest : List Waiter} (phase : task.phase = .dropping waiter rest) :
    TaskMove me stores task choice (EventTask.deleteWaiter stores waiter)
      (task.goto (.looping rest))
  | found {waiter : Waiter} {rest : List Waiter} {stepIndex : StepIndex}
    (taken : choice = .select (some stepIndex)) (phase : task.phase = .readingSteps waiter rest)
    (awaits : stores.awaits waiter.instanceId stepIndex = true) :
    TaskMove me stores task choice stores (task.goto (.answering waiter rest stepIndex))
  | nothingAwaits {waiter : Waiter} {rest : List Waiter}
    (phase : task.phase = .readingSteps waiter rest)
    (isOver : ∀ row ∈ stores.steps waiter.instanceId, row.awaits = false) :
    TaskMove me stores task choice stores (task.goto (.pushing waiter rest))
  | answer {waiter : Waiter} {rest : List Waiter} {stepIndex : StepIndex}
    (phase : task.phase = .answering waiter rest stepIndex) :
    TaskMove me stores task choice
      { stores.answerStep waiter.instanceId stepIndex task.event.data with
        answered := ⟨waiter.instanceId, stepIndex, task.event, waiter⟩ :: stores.answered }
      (task.goto (.pushing waiter rest))
  | push {waiter : Waiter} {rest : List Waiter} (phase : task.phase = .pushing waiter rest) :
    TaskMove me stores task choice { stores with buffer := stores.buffer ++ [task.item me waiter] }
      (task.goto (.deleting waiter rest))
  | delete {waiter : Waiter} {rest : List Waiter} (taken : choice = .proceed)
    (phase : task.phase = .deleting waiter rest) :
    TaskMove me stores task choice
      { EventTask.deleteWaiter stores waiter with consumed := waiter :: stores.consumed }
      (task.goto (.looping rest))
  | acknowledge (phase : task.phase = .awaiting) :
    TaskMove me stores task choice
      { stores with acknowledged := task.position :: stores.acknowledged } (task.goto .returned)
  | throw : TaskMove me stores task choice stores (task.goto .threw)

/-- The next command of an event task is one of the moves. -/
theorem EventTask.proceed_moves {task later : EventTask}
    (taken : task.proceed me stores = some (after, later)) :
    TaskMove me stores task .proceed after later := by
  unfold EventTask.proceed at taken
  split at taken
  next phase =>
    split at taken
    next =>
      obtain ⟨rfl, rfl⟩ := Prod.mk.inj (Option.some.inj taken)
      exact .await (.inl phase)
    next =>
      obtain ⟨rfl, rfl⟩ := Prod.mk.inj (Option.some.inj taken)
      exact .select phase
  next phase =>
    obtain ⟨rfl, rfl⟩ := Prod.mk.inj (Option.some.inj taken)
    exact .await (.inr phase)
  next waiter rest phase =>
    split at taken
    next missing =>
      obtain ⟨rfl, rfl⟩ := Prod.mk.inj (Option.some.inj taken)
      exact .missing phase missing
    next =>
      obtain ⟨rfl, rfl⟩ := Prod.mk.inj (Option.some.inj taken)
      exact .readSteps phase
  next waiter rest phase =>
    obtain ⟨rfl, rfl⟩ := Prod.mk.inj (Option.some.inj taken)
    exact .drop phase
  next waiter rest stepIndex phase =>
    obtain ⟨rfl, rfl⟩ := Prod.mk.inj (Option.some.inj taken)
    exact .answer phase
  next waiter rest phase =>
    obtain ⟨rfl, rfl⟩ := Prod.mk.inj (Option.some.inj taken)
    exact .push phase
  next waiter rest phase =>
    obtain ⟨rfl, rfl⟩ := Prod.mk.inj (Option.some.inj taken)
    exact .delete rfl phase
  next phase =>
    split at taken
    next =>
      obtain ⟨rfl, rfl⟩ := Prod.mk.inj (Option.some.inj taken)
      exact .throw
    next =>
      obtain ⟨_, same⟩ := Option.ite_none_right_eq_some.mp taken
      obtain ⟨rfl, rfl⟩ := Prod.mk.inj (Option.some.inj same)
      exact .acknowledge phase
  all_goals cases taken

/-- A step of an event task is one of the moves. -/
theorem EventTask.step_moves {task later : EventTask} {choice : TaskChoice}
    (taken : task.step me stores choice = some (after, later)) :
    TaskMove me stores task choice after later := by
  unfold EventTask.step at taken
  split at taken
  next rest position phase =>
    obtain ⟨turned, found, same⟩ := Option.map_eq_some_iff.mp taken
    obtain ⟨rfl, rfl⟩ := Prod.mk.inj same
    obtain ⟨waiter, present, rfl⟩ := Option.map_eq_some_iff.mp found
    split
    next matched => exact .handle phase present matched
    next unmatched => exact .pass phase present (Bool.not_eq_true _ ▸ unmatched)
  next waiter rest stepIndex phase =>
    obtain ⟨awaits, same⟩ := Option.ite_none_right_eq_some.mp taken
    obtain ⟨rfl, rfl⟩ := Prod.mk.inj (Option.some.inj same)
    exact .found rfl phase awaits
  next waiter rest phase =>
    obtain ⟨isOver, same⟩ := Option.ite_none_right_eq_some.mp taken
    obtain ⟨rfl, rfl⟩ := Prod.mk.inj (Option.some.inj same)
    refine .nothingAwaits phase fun row member => ?_
    simpa using List.all_eq_true.mp isOver row member
  next => cases taken
  next => cases taken
  next => exact EventTask.proceed_moves taken
  next =>
    obtain ⟨rfl, rfl⟩ := Prod.mk.inj (Option.some.inj taken)
    exact .throw
  next => cases taken

/-- What a step of a reaper can do. -/
inductive ReapMove (stores : Stores) (reap : Reap) (choice : ReapChoice) : Stores → Reap → Prop where
  | scan {candidates : List InstanceId} :
    ReapMove stores reap choice stores { reap with candidates := candidates, phase := .testing }
  | skip : ReapMove stores reap choice stores reap.next
  | abandon (failed : choice = .fail) :
    ReapMove stores reap choice stores { reap with candidates := [], phase := .testing }
  | test {instanceId : InstanceId} {rest : List InstanceId}
    (first : reap.candidates = instanceId :: rest)
    (free : stores.locks.get stores.clock instanceId = none) :
    ReapMove stores reap choice stores
      { reap with phase := .updating, since := stores.acquired instanceId }
  | update {instanceId : InstanceId} {rest : List InstanceId} (taken : choice = .proceed)
    (phase : reap.phase = .updating) (first : reap.candidates = instanceId :: rest) :
    ReapMove stores reap choice (Reap.update stores instanceId) reap.next

/-- A step of a reaper is one of the moves. -/
theorem Reap.step_moves {reap later : Reap} {choice : ReapChoice}
    (taken : reap.step stores choice = some (after, later)) :
    ReapMove stores reap choice after later := by
  unfold Reap.step at taken
  split at taken
  next =>
    obtain ⟨_, same⟩ := Option.ite_none_right_eq_some.mp taken
    obtain ⟨rfl, rfl⟩ := Prod.mk.inj (Option.some.inj same)
    exact .scan
  next instanceId rest phase first =>
    obtain ⟨rfl, rfl⟩ := Prod.mk.inj (Option.some.inj taken)
    unfold Reap.test
    split
    next => exact .skip
    next free => exact .test first (not_not.mp free)
  next instanceId rest phase first =>
    obtain ⟨rfl, rfl⟩ := Prod.mk.inj (Option.some.inj taken)
    exact .update rfl phase first
  next =>
    obtain ⟨rfl, rfl⟩ := Prod.mk.inj (Option.some.inj taken)
    exact .abandon rfl
  next => cases taken

/-- A step of an actor is a move of the run, the poll, the event task or the reaper it is. -/
inductive AgentMove (triggers : InstanceId → Trigger) (me : Nat) (stores : Stores) :
    Role → Choice → Stores → Role → Prop where
  | run {run later : Run} {choice : RunChoice} {after : Stores}
    (move : RunMove triggers me stores run after later) :
    AgentMove triggers me stores (.run run) (.run choice) after (.run later)
  | poll {poll later : Poll} {choice : PollChoice} {after : Stores}
    (move : PollMove me stores poll choice after later) :
    AgentMove triggers me stores (.poll poll) (.poll choice) after (.poll later)
  | task {task later : EventTask} {choice : TaskChoice} {after : Stores}
    (move : TaskMove me stores task choice after later) :
    AgentMove triggers me stores (.task task) (.task choice) after (.task later)
  | reap {reap later : Reap} {choice : ReapChoice} {after : Stores}
    (move : ReapMove stores reap choice after later) :
    AgentMove triggers me stores (.reap reap) (.reap choice) after (.reap later)

/-- Only an actor of a living process moves, and it stays what it is. -/
theorem Agent.move_moves {agent later : Agent} {choice : Choice}
    (taken : agent.move triggers me stores choice = some (after, later)) :
    agent.process ∉ stores.dead ∧ later.process = agent.process ∧
      AgentMove triggers me stores agent.role choice after later.role := by
  unfold Agent.move at taken
  replace ⟨alive, taken⟩ := Option.ite_none_left_eq_some.mp taken
  split at taken
  next run choice role =>
    obtain ⟨moved, stepped, same⟩ := Option.map_eq_some_iff.mp taken
    obtain ⟨rfl, rfl⟩ := Prod.mk.inj same
    rw [role]
    exact ⟨alive, rfl, .run (Run.step_moves stepped)⟩
  next poll choice role =>
    obtain ⟨moved, stepped, same⟩ := Option.map_eq_some_iff.mp taken
    obtain ⟨rfl, rfl⟩ := Prod.mk.inj same
    rw [role]
    exact ⟨alive, rfl, .poll (Poll.step_moves stepped)⟩
  next task choice role =>
    obtain ⟨moved, stepped, same⟩ := Option.map_eq_some_iff.mp taken
    obtain ⟨rfl, rfl⟩ := Prod.mk.inj same
    rw [role]
    exact ⟨alive, rfl, .task (EventTask.step_moves stepped)⟩
  next reap choice role =>
    obtain ⟨moved, stepped, same⟩ := Option.map_eq_some_iff.mp taken
    obtain ⟨rfl, rfl⟩ := Prod.mk.inj same
    rw [role]
    exact ⟨alive, rfl, .reap (Reap.step_moves stepped)⟩
  next => cases taken

/-- What a step outside the actors leaves: the rows, the timers, the locks and the ghosts of
runs and polls. A cancel ends an instance and takes its waiters; time passes, and processes
die. -/
structure OutsideFrame (stores after : Stores) : Prop where
  clock : stores.clock ≤ after.clock
  locks : after.locks = stores.locks
  instances : ∀ instanceId, after.instances instanceId = stores.instances instanceId ∨
    after.instances instanceId = some .canceled ∧ (stores.instances instanceId = some .pending ∨
      stores.instances instanceId = some .running)
  steps : after.steps = stores.steps
  waiters : ∀ waiter ∈ after.waiters, waiter ∈ stores.waiters
  taken : ∀ waiter ∈ stores.waiters, waiter ∈ after.waiters ∨
    after.instances waiter.instanceId = some .canceled
  nextWaiter : after.nextWaiter = stores.nextWaiter
  timers : after.timers = stores.timers
  dead : ∀ process ∈ stores.dead, process ∈ after.dead
  performed : after.performed = stores.performed
  runner : after.runner = stores.runner
  added : after.added = stores.added
  armed : after.armed = stores.armed
  reaped : after.reaped = stores.reaped
  acquired : after.acquired = stores.acquired
  expiring : after.expiring = stores.expiring
  registrations : after.registrations = stores.registrations
  answered : after.answered = stores.answered

theorem OutsideFrame.refl (stores : Stores) : OutsideFrame stores stores where
  clock := Nat.le_refl _
  locks := rfl
  instances _ := .inl rfl
  steps := rfl
  waiters _ member := member
  taken _ member := .inl member
  nextWaiter := rfl
  timers := rfl
  dead _ was := was
  performed := rfl
  runner := rfl
  added := rfl
  armed := rfl
  reaped := rfl
  acquired := rfl
  expiring := rfl
  registrations := rfl
  answered := rfl

/-- A step outside the actors leaves what it should. -/
theorem outsideStep_frame {event : Outside} (taken : outsideStep stores event = some after) :
    OutsideFrame stores after := by
  cases event with
  | tick ms =>
    obtain rfl := Option.some.inj taken
    exact { OutsideFrame.refl stores with clock := Nat.le_add_right _ _ }
  | cancel instanceId =>
    obtain ⟨open', same⟩ := Option.ite_none_right_eq_some.mp taken
    obtain rfl := Option.some.inj same
    refine { OutsideFrame.refl stores with
      instances := fun other => ?_
      waiters := fun _ => List.mem_of_mem_filter
      taken := fun waiter member => ?_ }
    · by_cases own : other = instanceId
      · exact .inr ⟨by simp [Stores.setStatus, own], own ▸ open'⟩
      · exact .inl (by simp [Stores.setStatus, own])
    · by_cases own : waiter.instanceId = instanceId
      · exact .inr (by simp [Stores.setStatus, own])
      · exact .inl (by simp [member, own])
  | flush process batch =>
    obtain ⟨_, same⟩ := Option.ite_none_right_eq_some.mp taken
    obtain rfl := Option.some.inj same
    exact { OutsideFrame.refl stores with }
  | publishItem position =>
    obtain ⟨item, _, taken⟩ := Option.bind_eq_some_iff.mp taken
    obtain ⟨_, same⟩ := Option.ite_none_right_eq_some.mp taken
    obtain rfl := Option.some.inj same
    exact { OutsideFrame.refl stores with }
  | flushPasses batch =>
    obtain ⟨_, same⟩ := Option.ite_none_right_eq_some.mp taken
    obtain rfl := Option.some.inj same
    exact { OutsideFrame.refl stores with }
  | send instanceId =>
    obtain rfl := Option.some.inj taken
    exact { OutsideFrame.refl stores with }
  | emit event =>
    obtain rfl := Option.some.inj taken
    exact { OutsideFrame.refl stores with }
  | flushFails batch =>
    obtain rfl := Option.some.inj taken
    exact { OutsideFrame.refl stores with }
  | crash process =>
    obtain rfl := Option.some.inj taken
    exact { OutsideFrame.refl stores with dead := fun _ was => List.mem_cons_of_mem _ was }

/-- Outside the actors, only a cancel changes a status, and time passes only in a tick. -/
theorem outsideStep_quiet {event : Outside} (taken : outsideStep stores event = some after) :
    (after.instances = stores.instances ∨ ∃ instanceId, event = .cancel instanceId) ∧
      (after.clock = stores.clock ∨ ∃ ms, event = .tick ms ∧ after.clock = stores.clock + ms) := by
  cases event with
  | tick ms =>
    obtain rfl := Option.some.inj taken
    exact ⟨.inl rfl, .inr ⟨ms, rfl, rfl⟩⟩
  | cancel instanceId =>
    obtain ⟨_, same⟩ := Option.ite_none_right_eq_some.mp taken
    obtain rfl := Option.some.inj same
    exact ⟨.inr ⟨instanceId, rfl⟩, .inl rfl⟩
  | flush process batch =>
    obtain ⟨_, same⟩ := Option.ite_none_right_eq_some.mp taken
    obtain rfl := Option.some.inj same
    exact ⟨.inl rfl, .inl rfl⟩
  | publishItem position =>
    obtain ⟨item, _, taken⟩ := Option.bind_eq_some_iff.mp taken
    obtain ⟨_, same⟩ := Option.ite_none_right_eq_some.mp taken
    obtain rfl := Option.some.inj same
    exact ⟨.inl rfl, .inl rfl⟩
  | flushPasses batch =>
    obtain ⟨_, same⟩ := Option.ite_none_right_eq_some.mp taken
    obtain rfl := Option.some.inj same
    exact ⟨.inl rfl, .inl rfl⟩
  | send instanceId =>
    obtain rfl := Option.some.inj taken
    exact ⟨.inl rfl, .inl rfl⟩
  | emit event =>
    obtain rfl := Option.some.inj taken
    exact ⟨.inl rfl, .inl rfl⟩
  | flushFails batch =>
    obtain rfl := Option.some.inj taken
    exact ⟨.inl rfl, .inl rfl⟩
  | crash process =>
    obtain rfl := Option.some.inj taken
    exact ⟨.inl rfl, .inl rfl⟩

/-- No instance goes away outside the actors. -/
theorem OutsideFrame.present (frame : OutsideFrame stores after) {instanceId : InstanceId}
    (there : stores.instances instanceId ≠ none) : after.instances instanceId ≠ none := by
  rcases frame.instances instanceId with same | ⟨canceled, _⟩
  · rwa [same]
  · simp [canceled]

/-- None becomes pending either. -/
theorem OutsideFrame.pending (frame : OutsideFrame stores after) {instanceId : InstanceId}
    (is : after.instances instanceId = some .pending) :
    stores.instances instanceId = some .pending := by
  rcases frame.instances instanceId with same | ⟨canceled, _⟩
  · rwa [← same]
  · simp [canceled] at is

/-- An actor that a step has just started. -/
inductive Agent.Starts (stores : Stores) : Action → Agent → Prop where
  | run {process : Nat} {instanceId : InstanceId} :
    Starts stores (.takeMessage process instanceId) ⟨process, .run { instanceId }⟩
  | poll {process : Nat} : Starts stores (.startPoll process) ⟨process, .poll {}⟩
  | reap {process : Nat} : Starts stores (.startReap process) ⟨process, .reap {}⟩
  | task {process position : Nat} {event : Event} (present : stores.events[position]? = some event) :
    Starts stores (.takeEvent process position)
      ⟨process, .task { process, position, event, now := stores.clock }⟩

/-- What is to be shown of a step of the services: about the move of an actor, about an actor
that is started, and about what happens outside. -/
theorem holds_step {invariant : Stores → Prop} {knows : Nat → Option Agent → Stores → Prop}
    {world next : World} {action : Action} (holds : Crowd.Holds invariant knows world)
    (taken : step triggers world action = some next)
    (acts : ∀ index choice, action = .act index choice → ∀ agent later shared,
      world.actors[index]? = some agent → agent.process ∉ world.shared.dead →
      later.process = agent.process →
      AgentMove triggers index world.shared agent.role choice shared later.role →
        invariant shared ∧ knows index (some later) shared ∧
          ∀ other : Nat, other ≠ index → knows other world.actors[other]? world.shared →
            knows other world.actors[other]? shared)
    (starts : ∀ agent, agent.Starts world.shared action →
      knows world.actors.length none world.shared →
        knows world.actors.length (some agent) world.shared)
    (outside : ∀ event shared, action = .outside event →
      outsideStep world.shared event = some shared → invariant shared ∧
        ∀ other : Nat, knows other world.actors[other]? world.shared →
          knows other world.actors[other]? shared) :
    Crowd.Holds invariant knows next := by
  cases action with
  | act index choice =>
    obtain ⟨agent, shared, later, present, moved, rfl⟩ := Crowd.act_eq_some taken
    obtain ⟨alive, place, move⟩ := Agent.move_moves moved
    obtain ⟨kept, mine, others⟩ := acts index choice rfl agent later shared present alive place move
    exact holds.act present kept mine others
  | takeMessage process instanceId =>
    obtain ⟨_, same⟩ := Option.ite_none_right_eq_some.mp taken
    obtain rfl := Option.some.inj same
    exact holds.join (starts _ .run)
  | startPoll process =>
    obtain ⟨_, same⟩ := Option.ite_none_right_eq_some.mp taken
    obtain rfl := Option.some.inj same
    exact holds.join (starts _ .poll)
  | startReap process =>
    obtain ⟨_, same⟩ := Option.ite_none_right_eq_some.mp taken
    obtain rfl := Option.some.inj same
    exact holds.join (starts _ .reap)
  | takeEvent process position =>
    obtain ⟨event, present, taken⟩ := Option.bind_eq_some_iff.mp taken
    obtain ⟨_, same⟩ := Option.ite_none_right_eq_some.mp taken
    obtain rfl := Option.some.inj same
    exact holds.join (starts _ (.task present))
  | outside event =>
    obtain ⟨shared, changed, rfl⟩ := Option.map_eq_some_iff.mp taken
    obtain ⟨kept, others⟩ := outside event shared rfl changed
    exact holds.change kept others

end Notifkit.Workflow
