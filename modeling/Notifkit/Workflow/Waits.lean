import Notifkit.Workflow.Registrations

/-!
# What a wait is kept by

A `waitForEvent` step without an output is kept by its waiter and by its timeout: an event
that meets the waiter, or a poll that takes the timeout, answers the step and resumes the
instance. The three parts are added one by one and removed one by one, by actors that have
looked at another part before.

Five slips take a part away from a step that still needs it. A poll that has deleted the
waiters may never record the timeout. It deletes them by their event name, and so those of
the instance's other waits. An event task that comes to a waiter answers whatever step of the
instance waits. An instance may be set back whose wait was not fully set up. And a poll takes
a timeout out which a replay has put in again since. Each is a condition on a step below.
-/

namespace Notifkit.Workflow

variable {stores after : Stores} {me : Nat}

/-- The timeout of a waiter's step. -/
def Waiter.timer (waiter : Waiter) : Member :=
  .eventTimeout waiter.instanceId waiter.eventName (some waiter.stepIndex)

/-- The step a timeout is for. -/
def Member.key : Member → Option (InstanceId × StepIndex)
  | .eventTimeout instanceId _ (some stepIndex) => some (instanceId, stepIndex)
  | .eventTimeout _ _ none | .sleep _ | .deferred _ => none

/-- The step a poll has deleted the waiters of and is about to record the timeout of. -/
def Poll.expires (poll : Poll) : Option (InstanceId × StepIndex) :=
  match poll.phase, poll.tasks with
  | .selecting, task :: _ | .recording _, task :: _ => task.key
  | _, _ => none

/-- The same of an actor. -/
def Role.expires : Role → Option (InstanceId × StepIndex)
  | .poll current => current.expires
  | .run _ | .task _ | .reap _ => none

/-- A step waits, and its instance has not ended. -/
def Stores.waits (stores : Stores) (key : InstanceId × StepIndex) : Bool :=
  !stores.gone key.1 && stores.awaits key.1 key.2

/-- A waiter of the step was inserted once. -/
def Stores.listed (stores : Stores) (key : InstanceId × StepIndex) : Bool :=
  stores.registrations.any fun waiter => waiter.key = key

/-- A poll of a living process has deleted the waiters of a step and is about to record its
timeout. -/
def Expires (world : World) (key : InstanceId × StepIndex) : Prop :=
  ∃ agent ∈ world.actors, agent.process ∉ world.shared.dead ∧ agent.role.expires = some key

/-- A step has its own waiter and its own timeout, unless it is just timing out. -/
def Kept (world : World) (key : InstanceId × StepIndex) : Prop :=
  (∃ waiter ∈ world.shared.waiters, waiter.key = key ∧
    world.shared.timers.score waiter.timer ≠ none) ∨ Expires world key

/-- A poll that has deleted the waiters of a step that waits goes on to record its timeout: no
command of it fails there, and its process does not die. -/
def recordsTimeout (world : World) : Action → Bool
  | .act index (.poll .fail) =>
    (world.actors[index]?).all fun agent =>
      agent.role.expires.all fun key => !world.shared.waits key
  | .outside (.crash process) =>
    world.actors.all fun agent =>
      agent.process ≠ process || agent.role.expires.all fun key => !world.shared.waits key
  | _ => true

/-- A poll deletes no waiter of another step that waits. -/
def deletesOwn (world : World) : Action → Bool
  | .act index (.poll .proceed) =>
    (world.actors[index]?).all fun agent =>
      match agent.role with
      | .poll poll =>
        match poll.phase, poll.tasks with
        | .deleting, .eventTimeout instanceId eventName stepId :: _ =>
          world.shared.waiters.all fun waiter =>
            !(waiter.instanceId = instanceId && waiter.eventName = eventName) ||
              !world.shared.waits waiter.key || stepId = some waiter.stepIndex
        | _, _ => true
      | _ => true
  | _ => true

/-- An event task that comes to a waiter whose step waits finds that step. -/
def answersOwn (world : World) : Action → Bool
  | .act index (.task (.select (some stepIndex))) =>
    (world.actors[index]?).all fun agent =>
      match agent.role with
      | .task task =>
        match task.phase with
        | .readingSteps waiter _ =>
          !world.shared.waits waiter.key || stepIndex = waiter.stepIndex
        | _ => true
      | _ => true
  | _ => true

/-- A reaper sets back only an instance that no living run has, and each of whose steps that
wait had its waiter inserted. -/
def reapsWhole (world : World) : Action → Bool
  | .act index (.reap .proceed) =>
    (world.actors[index]?).all fun agent =>
      agent.role.setsBack.all fun instanceId =>
        world.shared.instances instanceId ≠ some .running ||
          ((world.shared.runner instanceId).all fun owner =>
            (world.actors[owner]?).all fun run => run.process ∈ world.shared.dead) &&
          (world.shared.steps instanceId).all fun row =>
            !row.awaits || world.shared.listed (instanceId, row.stepIndex)
  | _ => true

/-- A poll takes out no timeout of an instance that was set back, if the timeout was put in
again since the poll claimed it and its step still needs it. -/
def removesOwn (world : World) : Action → Bool
  | .act index (.poll .proceed) =>
    (world.actors[index]?).all fun agent =>
      match agent.role with
      | .poll poll =>
        match poll.phase, poll.tasks with
        | .removing, member :: _ =>
          !world.shared.reaped member.instanceId ||
            (poll.since member).length = (world.shared.added member).length ||
            world.shared.gone member.instanceId ||
            member.key.all fun key =>
              world.shared.hasRow key.1 key.2 && !world.shared.awaits key.1 key.2
        | _, _ => true
      | _ => true
  | _ => true

/-- The instance is there and has ended. -/
def Stores.Over (stores : Stores) (instanceId : InstanceId) : Prop :=
  stores.gone instanceId = true ∧ stores.instances instanceId ≠ none

/-- A step does not wait, and never will. -/
def Stores.Shut (stores : Stores) (key : InstanceId × StepIndex) : Prop :=
  stores.Over key.1 ∨
    stores.hasRow key.1 key.2 = true ∧ stores.awaits key.1 key.2 = false

/-- A timeout is neither being set up nor that of a waiter that was inserted. -/
def Stores.Idle (stores : Stores) (member : Member) : Prop :=
  stores.armed member.instanceId ≠ some member ∧
    ∀ waiter ∈ stores.registrations, waiter.timer ≠ member

/-- A poll has a timeout of an instance that was set back, from before that: it was put in
again since, or nothing has come of it. -/
def Stores.Outdated (stores : Stores) (poll : Poll) (member : Member) : Prop :=
  stores.reaped member.instanceId = true ∧
    ((poll.since member).length < (stores.added member).length ∨ stores.Idle member)

/-- Some poll is marked as timing the step out. -/
def Stores.Expiring (stores : Stores) (key : InstanceId × StepIndex) : Prop :=
  ∃ poll, stores.expiring poll = some key

/-- A timeout in the set belongs to a step. -/
def Stores.Sound (stores : Stores) (member : Member) : Prop :=
  ∀ instanceId eventName stepId, member = .eventTimeout instanceId eventName stepId →
    stores.instances instanceId ≠ none ∧ ∃ stepIndex, stepId = some stepIndex ∧
      (stores.hasRow instanceId stepIndex = true ∨ stores.armed instanceId = some member ∨
        stores.Over instanceId ∨ stores.reaped instanceId = true)

/-- What holds of the waits at any time. -/
structure Stores.Watched (stores : Stores) : Prop where
  kept : ∀ waiter ∈ stores.registrations, stores.waits waiter.key = true →
    waiter ∈ stores.waiters ∧ stores.timers.score waiter.timer ≠ none ∨
      stores.Expiring waiter.key
  listed : ∀ instanceId stepIndex, stores.instances instanceId = some .pending →
    stores.awaits instanceId stepIndex = true → stores.listed (instanceId, stepIndex) = true
  unarmed : ∀ instanceId, stores.instances instanceId = some .pending →
    stores.armed instanceId = none
  armed : ∀ instanceId, stores.armed instanceId ≠ none → stores.instances instanceId ≠ none
  timers : ∀ member, stores.timers.score member ≠ none → stores.Sound member
  unique : ∀ instanceId, ∀ one ∈ stores.steps instanceId, ∀ two ∈ stores.steps instanceId,
    one.stepIndex = two.stepIndex → one = two

/-- A poll that has found the instance of its timeout pending: the step is over, or it has its
row and its waiter, or the timeout is an old one. -/
def Stores.Checked (stores : Stores) (poll : Poll) (member : Member)
    (key : InstanceId × StepIndex) : Prop :=
  stores.Over key.1 ∨
    (stores.hasRow key.1 key.2 = true ∧
      (stores.awaits key.1 key.2 = true → stores.listed key = true)) ∨
    stores.Outdated poll member

/-- A poll that is done with a timeout: nobody needs it any more, unless another poll is about
to record it, or the timeout is an old one. -/
def Stores.Spent (stores : Stores) (poll : Poll) (member : Member)
    (key : InstanceId × StepIndex) : Prop :=
  stores.Shut key ∨ (stores.listed key = true ∧ stores.Expiring key) ∨
    (∃ waiter ∈ stores.registrations, waiter.key = key ∧ waiter.timer ≠ member) ∨
    stores.Outdated poll member

/-- What a poll knows of its tasks. -/
structure Poll.Minds (stores : Stores) (poll : Poll) : Prop where
  since : ∀ member, (poll.since member).length ≤ (stores.added member).length
  tasks : ∀ member ∈ poll.tasks, stores.Sound member
  checking : poll.phase = .checkingOwn → ∀ member rest key, poll.tasks = member :: rest →
    member.key = some key → stores.Checked poll member key
  recording : (poll.phase = .deleting ∨ poll.phase = .selecting ∨
      ∃ stepIndex, poll.phase = .recording stepIndex) →
    ∀ member rest key, poll.tasks = member :: rest → member.key = some key →
      stores.Checked poll member key ∧ (stores.Over key.1 ∨ stores.hasRow key.1 key.2 = true)
  own : ∀ stepIndex, poll.phase = .recording stepIndex → ∀ member rest key,
    poll.tasks = member :: rest → member.key = some key → stepIndex = key.2
  removing : (poll.phase = .publishing ∨ poll.phase = .removing) →
    ∀ member rest key, poll.tasks = member :: rest → member.key = some key →
      stores.Spent poll member key

/-- What an event task knows of the waiter it is at. -/
structure EventTask.Minds (stores : Stores) (task : EventTask) : Prop where
  dropping : ∀ waiter rest, task.phase ≠ .dropping waiter rest
  answering : ∀ waiter rest stepIndex, task.phase = .answering waiter rest stepIndex →
    stepIndex = waiter.stepIndex ∨ stores.Shut waiter.key
  done : ∀ waiter rest, task.phase = .pushing waiter rest ∨ task.phase = .deleting waiter rest →
    stores.Shut waiter.key

/-- The timeout a run is setting up. -/
def Run.arms (run : Run) : Option Member :=
  match run.phase with
  | .stepping (.waitForEvent eventName _) (.recording _ _) | .registering eventName _ _ =>
    some (.eventTimeout run.instanceId eventName (some run.stepId))
  | _ => none

/-- A run has its instance and may still suspend it. -/
def RunPhase.working : RunPhase → Bool
  | .loading | .calling | .stepping _ _ | .registering _ _ _ | .finishing .pending => true
  | _ => false

/-- What a run knows of the waits of its instance. -/
structure Run.Minds (stores : Stores) (run : Run) : Prop where
  listed : run.phase.working = true → ∀ stepIndex,
    stores.awaits run.instanceId stepIndex = true → run.registers = false ∨ stepIndex ≠ run.stepId →
      stores.listed (run.instanceId, stepIndex) = true
  armed : run.phase.working = true → stores.armed run.instanceId = run.arms
  recording : run.registers = false → ∀ member ∈ run.arms, stores.timers.score member ≠ none ∨
    stores.Over run.instanceId ∨ stores.hasRow run.instanceId run.stepId = true
  registering : run.registers = true → ∀ member ∈ run.arms, stores.timers.score member ≠ none ∨
    stores.Shut (run.instanceId, run.stepId)

/-- What everybody sees of a step: instances, rows and waiters once inserted stay, what is over
stays over, and a mark that a step is timing out is taken away only with its need. -/
structure Stores.Minds (stores after : Stores) : Prop where
  present : ∀ instanceId, stores.instances instanceId ≠ none → after.instances instanceId ≠ none
  isOver : ∀ instanceId, stores.Over instanceId → after.Over instanceId
  hasRow : ∀ instanceId stepIndex, stores.hasRow instanceId stepIndex = true →
    after.hasRow instanceId stepIndex = true
  awaits : ∀ instanceId stepIndex, stores.hasRow instanceId stepIndex = true →
    after.awaits instanceId stepIndex = true → stores.awaits instanceId stepIndex = true
  registrations : ∀ waiter ∈ stores.registrations, waiter ∈ after.registrations
  reaped : ∀ instanceId, stores.reaped instanceId = true → after.reaped instanceId = true
  added : ∀ member, (stores.added member).length ≤ (after.added member).length
  idle : ∀ member, stores.Idle member → after.Idle member ∨
    (stores.added member).length < (after.added member).length
  armed : ∀ member key, member.key = some key → stores.armed key.1 = some member →
    after.armed key.1 = some member ∨ after.hasRow key.1 key.2 = true ∨ after.reaped key.1 = true
  expiring : ∀ key, stores.listed key = true → stores.Expiring key →
    after.Expiring key ∨ after.Shut key

/-- What the run of an instance sees of a step of somebody else: its instance is not armed anew
and gets no row, and the timeout it is setting up stays while it is needed. -/
structure Stores.Leaves (owner : Nat) (stores after : Stores) : Prop where
  armed : ∀ instanceId, stores.runner instanceId = some owner →
    after.armed instanceId = stores.armed instanceId
  awaits : ∀ instanceId stepIndex, stores.runner instanceId = some owner →
    after.awaits instanceId stepIndex = true → stores.awaits instanceId stepIndex = true
  timers : ∀ member key, stores.runner key.1 = some owner → stores.armed key.1 = some member →
    member.key = some key → stores.timers.score member ≠ none →
      after.timers.score member ≠ none ∨ stores.Shut key ∨ stores.listed key = true

theorem Stores.waits_iff {key : InstanceId × StepIndex} :
    stores.waits key = true ↔ stores.gone key.1 = false ∧ stores.awaits key.1 key.2 = true := by
  simp [Stores.waits]

theorem Stores.listed_iff {key : InstanceId × StepIndex} :
    stores.listed key = true ↔ ∃ waiter ∈ stores.registrations, waiter.key = key := by
  simp [Stores.listed]

/-- A step that is shut does not wait. -/
theorem Stores.Shut.not_waits {key : InstanceId × StepIndex} (shut : stores.Shut key) :
    stores.waits key = false := by
  rw [← Bool.not_eq_true, Stores.waits_iff]
  rintro ⟨alive, awaits⟩
  rcases shut with ⟨gone, _⟩ | ⟨_, answered⟩
  · exact nomatch gone.symm.trans alive
  · exact nomatch awaits.symm.trans answered

/-- A step with a row that does not wait is shut. -/
theorem Stores.shut_of_not_waits {key : InstanceId × StepIndex}
    (present : stores.instances key.1 ≠ none) (row : stores.hasRow key.1 key.2 = true)
    (idle : stores.waits key = false) : stores.Shut key := by
  by_cases gone : stores.gone key.1 = true
  · exact .inl ⟨gone, present⟩
  · refine .inr ⟨row, ?_⟩
    simpa [Stores.waits, gone] using idle

/-- A timeout with a step is one of that step. -/
theorem Member.of_key {member : Member} {key : InstanceId × StepIndex}
    (is : member.key = some key) :
    ∃ eventName, member = .eventTimeout key.1 eventName (some key.2) := by
  unfold Member.key at is
  split at is
  next =>
    obtain rfl := Option.some.inj is
    exact ⟨_, rfl⟩
  all_goals cases is

theorem Member.instanceId_of_key {member : Member} {key : InstanceId × StepIndex}
    (is : member.key = some key) : member.instanceId = key.1 := by
  obtain ⟨eventName, rfl⟩ := Member.of_key is
  rfl

namespace Stores.Minds

theorem refl (stores : Stores) : stores.Minds stores where
  present _ there := there
  isOver _ was := was
  hasRow _ _ there := there
  awaits _ _ _ awaits := awaits
  registrations _ was := was
  reaped _ was := was
  added _ := Nat.le_refl _
  idle _ idle := .inl idle
  armed _ _ _ is := .inl is
  expiring _ _ marked := .inl marked

theorem listed (minds : stores.Minds after) {key : InstanceId × StepIndex}
    (listed : stores.listed key = true) : after.listed key = true := by
  obtain ⟨waiter, member, is⟩ := Stores.listed_iff.mp listed
  exact Stores.listed_iff.mpr ⟨waiter, minds.registrations waiter member, is⟩

theorem shut (minds : stores.Minds after) {key : InstanceId × StepIndex} (shut : stores.Shut key) :
    after.Shut key := by
  rcases shut with isOver | ⟨row, answered⟩
  · exact .inl (minds.isOver _ isOver)
  · refine .inr ⟨minds.hasRow _ _ row, ?_⟩
    rw [← Bool.not_eq_true] at answered ⊢
    exact fun awaits => answered (minds.awaits _ _ row awaits)

theorem sound (minds : stores.Minds after) {member : Member} (sound : stores.Sound member) :
    after.Sound member := by
  intro instanceId eventName stepId is
  obtain ⟨present, stepIndex, rfl, where'⟩ := sound instanceId eventName stepId is
  refine ⟨minds.present _ present, stepIndex, rfl, ?_⟩
  rcases where' with row | armed | isOver | reaped
  · exact .inl (minds.hasRow _ _ row)
  · have own : member.key = some (instanceId, stepIndex) := by rw [is]; rfl
    rcases minds.armed member (instanceId, stepIndex) own armed with still | row | reaped
    · exact .inr (.inl still)
    · exact .inl row
    · exact .inr (.inr (.inr reaped))
  · exact .inr (.inr (.inl (minds.isOver _ isOver)))
  · exact .inr (.inr (.inr (minds.reaped _ reaped)))

theorem outdated (minds : stores.Minds after) {poll : Poll} {member : Member}
    (since : (poll.since member).length ≤ (stores.added member).length)
    (outdated : stores.Outdated poll member) : after.Outdated poll member := by
  obtain ⟨reaped, again | idle⟩ := outdated
  · exact ⟨minds.reaped _ reaped, .inl (Nat.lt_of_lt_of_le again (minds.added member))⟩
  · rcases minds.idle member idle with still | again
    · exact ⟨minds.reaped _ reaped, .inr still⟩
    · exact ⟨minds.reaped _ reaped, .inl (Nat.lt_of_le_of_lt since again)⟩

theorem checked (minds : stores.Minds after) {poll : Poll} {member : Member}
    {key : InstanceId × StepIndex}
    (since : (poll.since member).length ≤ (stores.added member).length)
    (checked : stores.Checked poll member key) : after.Checked poll member key := by
  rcases checked with isOver | ⟨row, listed⟩ | outdated
  · exact .inl (minds.isOver _ isOver)
  · exact .inr (.inl ⟨minds.hasRow _ _ row, fun awaits =>
      minds.listed (listed (minds.awaits _ _ row awaits))⟩)
  · exact .inr (.inr (minds.outdated since outdated))

theorem spent (minds : stores.Minds after) {poll : Poll} {member : Member}
    {key : InstanceId × StepIndex}
    (since : (poll.since member).length ≤ (stores.added member).length)
    (spent : stores.Spent poll member key) : after.Spent poll member key := by
  rcases spent with shut | ⟨listed, expiring⟩ | ⟨waiter, was, own, other⟩ | outdated
  · exact .inl (minds.shut shut)
  · rcases minds.expiring key listed expiring with still | shut
    · exact .inr (.inl ⟨minds.listed listed, still⟩)
    · exact .inl shut
  · exact .inr (.inr (.inl ⟨waiter, minds.registrations waiter was, own, other⟩))
  · exact .inr (.inr (.inr (minds.outdated since outdated)))

/-- A poll's knowledge is kept. -/
theorem poll (minds : stores.Minds after) {poll : Poll} (knows : poll.Minds stores) :
    poll.Minds after where
  since member := Nat.le_trans (knows.since member) (minds.added member)
  tasks member listed := minds.sound (knows.tasks member listed)
  checking phase member rest key first own :=
    minds.checked (knows.since member) (knows.checking phase member rest key first own)
  recording phase member rest key first own := by
    obtain ⟨checked, there⟩ := knows.recording phase member rest key first own
    exact ⟨minds.checked (knows.since member) checked,
      there.imp (minds.isOver _) (minds.hasRow _ _)⟩
  own := knows.own
  removing phase member rest key first own :=
    minds.spent (knows.since member) (knows.removing phase member rest key first own)

/-- An event task's knowledge is kept. -/
theorem task (minds : stores.Minds after) {task : EventTask} (knows : task.Minds stores) :
    task.Minds after where
  dropping := knows.dropping
  answering waiter rest stepIndex phase :=
    (knows.answering waiter rest stepIndex phase).imp_right minds.shut
  done waiter rest phase := minds.shut (knows.done waiter rest phase)

end Stores.Minds

end Notifkit.Workflow
