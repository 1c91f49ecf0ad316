import Notifkit.Workflow.Rows

/-!
# Waiters and the steps that registered them

A `waitForEvent` inserts its row first and its waiter afterwards, each once: a second row
of the same index is refused. So a waiter belongs to one step, a step has one waiter, and
whatever waiters an event task has in hand were registered for the event it is about.
-/

namespace Notifkit.Workflow

open Crowd

variable {triggers : InstanceId → Trigger} {stores after : Stores} {me : Nat}

/-- Waiters are told apart by their ids and by their steps, and each was inserted after the
row of its step. -/
structure Stores.Registered (stores : Stores) : Prop where
  known : ∀ waiter ∈ stores.waiters, waiter ∈ stores.registrations
  ids : ∀ waiter ∈ stores.registrations, waiter.id < stores.nextWaiter
  distinct : ∀ one ∈ stores.registrations, ∀ two ∈ stores.registrations,
    one.id = two.id ∨ one.key = two.key → one = two
  placed : ∀ waiter ∈ stores.registrations, stores.Placed waiter.instanceId waiter.stepIndex

/-- A run about to insert a waiter has inserted the row and not yet a waiter. -/
def Run.Registers (stores : Stores) (run : Run) : Prop :=
  ∀ eventName matchCriteria expiresAt,
    run.phase = .registering eventName matchCriteria expiresAt →
      stores.Placed run.instanceId run.stepId ∧
        ∀ waiter ∈ stores.registrations, waiter.key ≠ (run.instanceId, run.stepId)

/-- The waiter an event task is at. -/
def EventTask.current (task : EventTask) : Option Waiter :=
  match task.phase with
  | .readingInstance waiter _ | .dropping waiter _ | .readingSteps waiter _
  | .answering waiter _ _ | .pushing waiter _ | .deleting waiter _ => some waiter
  | .selecting | .looping _ | .awaiting | .returned | .threw => none

/-- The waiters an event task still has to come to. -/
def EventTask.rest (task : EventTask) : List Waiter :=
  match task.phase with
  | .looping rest | .readingInstance _ rest | .dropping _ rest | .readingSteps _ rest
  | .answering _ rest _ | .pushing _ rest | .deleting _ rest => rest
  | .selecting | .awaiting | .returned | .threw => []

/-- A waiter was registered for the name and the project of an event. -/
def Waiter.Awaits (stores : Stores) (event : Event) (waiter : Waiter) : Prop :=
  waiter ∈ stores.registrations ∧ waiter.eventName = event.eventName ∧
    waiter.projectId = event.projectId

/-- The waiters an event task has in hand were registered for its event, and the one it is at
is met by it. -/
structure EventTask.Registered (stores : Stores) (task : EventTask) : Prop where
  rest : ∀ waiter ∈ task.rest, waiter.Awaits stores task.event
  current : ∀ waiter ∈ task.current,
    waiter.Awaits stores task.event ∧ waiter.matched task.event = true

/-- What an actor knows of the registrations. -/
def Agent.Registered (_ : Nat) (agent : Option Agent) (stores : Stores) : Prop :=
  ∀ process role, agent = some ⟨process, role⟩ →
    match role with
    | .run run => process ∉ stores.dead → run.Registers stores
    | .task task => task.Registered stores
    | .poll _ | .reap _ => True

/-- What the others see of a move: registrations stay, and only the run of an instance adds
one for it. -/
structure RegistrationsKept (mover : Option Nat) (stores after : Stores) : Prop where
  registrations : ∀ waiter ∈ stores.registrations, waiter ∈ after.registrations
  fresh : ∀ waiter ∈ after.registrations, waiter ∈ stores.registrations ∨
    ∃ owner, mover = some owner ∧ stores.runner waiter.instanceId = some owner
  placed : ∀ instanceId stepIndex, stores.Placed instanceId stepIndex →
    after.Placed instanceId stepIndex

theorem RegistrationsKept.task {mover : Option Nat} (kept : RegistrationsKept mover stores after)
    {task : EventTask} (registered : task.Registered stores) : task.Registered after :=
  ⟨fun waiter member =>
      (registered.rest waiter member).imp_left (kept.registrations waiter),
    fun waiter is => (registered.current waiter is).imp_left
      (And.imp_left (kept.registrations waiter))⟩

theorem RegistrationsKept.run {mover : Option Nat} (kept : RegistrationsKept mover stores after)
    {run : Run} (apart : mover ≠ some me) (owns : run.Owns me stores)
    (registers : run.Registers stores) : run.Registers after := by
  intro eventName matchCriteria expiresAt phase
  obtain ⟨placed, none⟩ := registers eventName matchCriteria expiresAt phase
  refine ⟨kept.placed _ _ placed, fun waiter member key => ?_⟩
  rcases kept.fresh waiter member with old | ⟨owner, moves, runs⟩
  · exact none waiter old key
  · have place : waiter.instanceId = run.instanceId := congrArg Prod.fst key
    have mine := owns (by simp [phase, RunPhase.outer])
    rw [place] at runs
    exact apart (moves.trans (runs.symm.trans mine))

theorem RegistrationsKept.agent {mover : Option Nat} (kept : RegistrationsKept mover stores after)
    (dead : LeavesDead stores after) {other : Nat} (apart : mover ≠ some other)
    {agent : Option Agent} (owns : Agent.Owns other agent stores)
    (registered : Agent.Registered other agent stores) : Agent.Registered other agent after := by
  rintro process role rfl
  have known := registered process role rfl
  cases role with
  | run run =>
    intro alive
    have before : process ∉ stores.dead := fun was => alive (dead process was)
    exact kept.run apart (owns run ⟨process, rfl, before⟩) (known before)
  | task task => exact kept.task known
  | poll => trivial
  | reap => trivial

/-- No waiter is inserted, and rows stay. -/
structure NoneRegistered (stores after : Stores) : Prop where
  registrations : after.registrations = stores.registrations
  nextWaiter : after.nextWaiter = stores.nextWaiter
  waiters : ∀ waiter ∈ after.waiters, waiter ∈ stores.waiters
  placed : ∀ instanceId stepIndex, stores.Placed instanceId stepIndex →
    after.Placed instanceId stepIndex

theorem NoneRegistered.registered (none : NoneRegistered stores after)
    (registered : stores.Registered) : after.Registered := by
  obtain ⟨registrations, nextWaiter, waiters, placed⟩ := none
  refine ⟨fun waiter member => ?_, ?_, ?_, fun waiter member => ?_⟩
  · rw [registrations]
    exact registered.known waiter (waiters waiter member)
  · rw [registrations, nextWaiter]
    exact registered.ids
  · rw [registrations]
    exact registered.distinct
  · rw [registrations] at member
    exact placed _ _ (registered.placed waiter member)

theorem NoneRegistered.kept (none : NoneRegistered stores after) (mover : Option Nat) :
    RegistrationsKept mover stores after :=
  ⟨fun _ member => none.registrations ▸ member, fun _ member => .inl (none.registrations ▸ member),
    none.placed⟩

/-- A waiter is about to be inserted in a step of a run. -/
def Run.registers (run : Run) : Bool :=
  match run.phase with
  | .registering _ _ _ => true
  | _ => false

/-- Every move but one inserts no waiter. -/
theorem AgentMove.noneRegistered {agent later : Role} {choice : Choice}
    (move : AgentMove triggers me stores agent choice after later) :
    NoneRegistered stores after ∨ ∃ run eventName matchCriteria expiresAt, agent = .run run ∧
      run.phase = .registering eventName matchCriteria expiresAt ∧
      later = .run (run.goto (.finishing .pending)) ∧
      after = { stores with
        waiters := stores.waiters ++ [run.waiter triggers stores eventName matchCriteria expiresAt]
        nextWaiter := stores.nextWaiter + 1
        registrations := run.waiter triggers stores eventName matchCriteria expiresAt ::
          stores.registrations
        armed := Function.update stores.armed run.instanceId none } := by
  have placed : ∀ instanceId stepIndex, stores.Placed instanceId stepIndex →
      after.Placed instanceId stepIndex := fun _ _ => move.placed
  cases move with
  | run move =>
    cases move with
    | outer was outer same =>
      exact .inl ⟨same.registrations, same.nextWaiter, fun _ member => same.waiters ▸ member, placed⟩
    | renew same =>
      exact .inl ⟨same.registrations, same.nextWaiter, fun _ member => same.waiters ▸ member, placed⟩
    | register phase => exact .inr ⟨_, _, _, _, rfl, phase, rfl, rfl⟩
    | _ => exact .inl ⟨rfl, rfl, fun _ member => member, placed⟩
  | poll move =>
    cases move with
    | deleteWaiters => exact .inl ⟨rfl, rfl, fun _ => List.mem_of_mem_filter, placed⟩
    | _ => exact .inl ⟨rfl, rfl, fun _ member => member, placed⟩
  | task move =>
    cases move with
    | drop => exact .inl ⟨rfl, rfl, fun _ => List.mem_of_mem_filter, placed⟩
    | delete => exact .inl ⟨rfl, rfl, fun _ => List.mem_of_mem_filter, placed⟩
    | _ => exact .inl ⟨rfl, rfl, fun _ member => member, placed⟩
  | reap move =>
    cases move with
    | update =>
      refine .inl ⟨?_, ?_, ?_, placed⟩
      all_goals
        unfold Reap.update
        split
      any_goals rfl
      all_goals exact fun _ member => member
    | _ => exact .inl ⟨rfl, rfl, fun _ member => member, placed⟩

theorem OutsideFrame.noneRegistered (frame : OutsideFrame stores after) :
    NoneRegistered stores after :=
  ⟨frame.registrations, frame.nextWaiter, frame.waiters, fun _ _ ⟨row, member, same⟩ =>
    ⟨row, by rwa [frame.steps], same⟩⟩

/-- The rest of an event task after a move. -/
theorem TaskMove.rest {task later : EventTask} {choice : TaskChoice}
    (move : TaskMove me stores task choice after later) :
    later.event = task.event ∧ ∀ waiter ∈ later.rest, waiter ∈ task.rest ∨
      waiter ∈ task.selected stores := by
  cases move with
  | select phase => exact ⟨rfl, fun _ member => .inr member⟩
  | handle phase found matched =>
    refine ⟨rfl, fun _ member => .inl ?_⟩
    simp only [EventTask.rest, phase]
    exact List.mem_of_mem_eraseIdx member
  | pass phase found unmatched =>
    refine ⟨rfl, fun _ member => .inl ?_⟩
    simp only [EventTask.rest, phase]
    exact List.mem_of_mem_eraseIdx member
  | await => exact ⟨rfl, nofun⟩
  | acknowledge => exact ⟨rfl, nofun⟩
  | throw => exact ⟨rfl, nofun⟩
  | missing phase missing => exact ⟨rfl, fun _ member => .inl (by simpa only [EventTask.rest, phase])⟩
  | readSteps phase => exact ⟨rfl, fun _ member => .inl (by simpa only [EventTask.rest, phase])⟩
  | drop phase => exact ⟨rfl, fun _ member => .inl (by simpa only [EventTask.rest, phase])⟩
  | found taken phase awaits =>
    exact ⟨rfl, fun _ member => .inl (by simpa only [EventTask.rest, phase])⟩
  | nothingAwaits phase isOver =>
    exact ⟨rfl, fun _ member => .inl (by simpa only [EventTask.rest, phase])⟩
  | answer phase => exact ⟨rfl, fun _ member => .inl (by simpa only [EventTask.rest, phase])⟩
  | push phase => exact ⟨rfl, fun _ member => .inl (by simpa only [EventTask.rest, phase])⟩
  | delete taken phase => exact ⟨rfl, fun _ member => .inl (by simpa only [EventTask.rest, phase])⟩

/-- The waiter an event task is at after a move: the same, or the next one if it is met. -/
theorem TaskMove.current {task later : EventTask} {choice : TaskChoice}
    (move : TaskMove me stores task choice after later) {waiter : Waiter}
    (current : later.current = some waiter) : task.current = some waiter ∨
      waiter ∈ task.rest ∧ waiter.matched task.event = true := by
  cases move with
  | handle phase found matched =>
    obtain rfl := Option.some.inj current
    refine .inr ⟨?_, matched⟩
    simp only [EventTask.rest, phase]
    exact List.mem_of_getElem? found
  | missing phase missing => exact .inl (by simpa only [EventTask.current, phase])
  | readSteps phase => exact .inl (by simpa only [EventTask.current, phase])
  | found taken phase awaits => exact .inl (by simpa only [EventTask.current, phase])
  | nothingAwaits phase isOver => exact .inl (by simpa only [EventTask.current, phase])
  | answer phase => exact .inl (by simpa only [EventTask.current, phase])
  | push phase => exact .inl (by simpa only [EventTask.current, phase])
  | select phase => cases current
  | pass phase found unmatched => cases current
  | await => cases current
  | drop => cases current
  | delete => cases current
  | acknowledge => cases current
  | throw => cases current

/-- A task's waiters after its move. -/
theorem TaskMove.registered {task later : EventTask} {choice : TaskChoice}
    (move : TaskMove me stores task choice after later) (registered : stores.Registered)
    (known : task.Registered stores) (same : after.registrations = stores.registrations) :
    later.Registered after := by
  obtain ⟨event, rest⟩ := move.rest
  have awaits : ∀ waiter : Waiter, waiter.Awaits stores task.event →
      waiter.Awaits after later.event := by
    intro waiter awaits
    rw [Waiter.Awaits, same, event]
    exact awaits
  refine ⟨fun waiter member => awaits waiter ?_, fun waiter is => ?_⟩
  · rcases rest waiter member with old | selected
    · exact known.rest waiter old
    · obtain ⟨there, fits⟩ := List.mem_filter.mp selected
      simp only [decide_eq_true_eq] at fits
      exact ⟨registered.known waiter there, fits.1, fits.2.1⟩
  · rw [event]
    rcases move.current is with old | ⟨member, matched⟩
    · exact (known.current waiter old).imp_left fun was => event ▸ awaits waiter was
    · exact ⟨event ▸ awaits waiter (known.rest waiter member), matched⟩

/-- A run registers the waiter of the step whose row it inserted. -/
theorem Stores.Registered.insert (registered : stores.Registered) {waiter : Waiter}
    {armed : InstanceId → Option Member} (id : waiter.id = stores.nextWaiter)
    (placed : stores.Placed waiter.instanceId waiter.stepIndex)
    (none : ∀ other ∈ stores.registrations, other.key ≠ waiter.key) :
    Stores.Registered { stores with
      waiters := stores.waiters ++ [waiter]
      nextWaiter := stores.nextWaiter + 1
      registrations := waiter :: stores.registrations
      armed := armed } := by
  have apart : ∀ other ∈ stores.registrations, ¬ (other.id = waiter.id ∨ other.key = waiter.key) := by
    rintro other member (same | same)
    · have early := registered.ids other member
      rw [same, id] at early
      exact absurd early (Nat.lt_irrefl _)
    · exact none other member same
  refine ⟨fun other member => ?_, fun other member => ?_, fun one member two member' same => ?_,
    fun other member => ?_⟩
  · rcases List.mem_append.mp member with old | fresh
    · exact List.mem_cons_of_mem _ (registered.known other old)
    · exact List.mem_singleton.mp fresh ▸ List.mem_cons_self
  · rcases List.mem_cons.mp member with rfl | old
    · exact id ▸ Nat.lt_succ_self _
    · exact Nat.lt_succ_of_lt (registered.ids other old)
  · rcases List.mem_cons.mp member with rfl | old
    · rcases List.mem_cons.mp member' with rfl | old'
      · rfl
      · exact absurd (same.imp Eq.symm Eq.symm) (apart two old')
    · rcases List.mem_cons.mp member' with rfl | old'
      · exact absurd same (apart one old)
      · exact registered.distinct one old two old' same
  · rcases List.mem_cons.mp member with rfl | old
    · exact placed
    · exact registered.placed other old

/-- A move of an actor, and what the mover knows after it. -/
theorem AgentMove.registered {agent later : Agent} {choice : Choice}
    (alive : agent.process ∉ stores.dead) (owns : Agent.Owns me (some agent) stores)
    (registered : stores.Registered) (known : Agent.Registered me (some agent) stores)
    (move : AgentMove triggers me stores agent.role choice after later.role) :
    after.Registered ∧ Agent.Registered me (some later) after ∧
      RegistrationsKept (some me) stores after := by
  obtain ⟨process, role⟩ := agent
  obtain ⟨process', role'⟩ := later
  rcases move.noneRegistered with none |
    ⟨run, eventName, matchCriteria, expiresAt, rfl, phase, rfl, rfl⟩
  · refine ⟨none.registered registered, ?_, none.kept _⟩
    rintro _ _ same
    cases same
    cases move with
    | @run run later _ _ move =>
      intro _ eventName matchCriteria expiresAt phase
      cases move with
      | outer was outer same =>
        have phase : _ = RunPhase.registering _ _ _ := phase
        subst phase
        exact absurd outer id
      | giveUp inner outer =>
        have phase : _ = RunPhase.registering _ _ _ := phase
        subst phase
        exact absurd outer id
      | renew same =>
        obtain ⟨placed, empty⟩ := known _ _ rfl alive eventName matchCriteria expiresAt phase
        exact ⟨none.placed _ _ placed, fun waiter member => empty waiter (none.registrations ▸ member)⟩
      | @recordPending _ _ output _ was fresh =>
        refine ⟨?_, fun waiter member key => ?_⟩
        · refine ⟨⟨run.stepId, .waitForEvent, output⟩, ?_, rfl, rfl⟩
          simp only [Run.goto, Stores.steps_insertStep, if_true]
          exact List.mem_append_right _ (List.mem_singleton_self _)
        · obtain ⟨row, there, index, _⟩ := registered.placed waiter member
          obtain ⟨place, step⟩ := Prod.mk.inj key
          rw [place] at there
          exact fresh row there (index.trans step)
      | recollect was => simp [was] at phase
      | _ => cases phase
    | @task task _ _ _ move =>
      exact move.registered registered (known _ _ rfl) none.registrations
    | poll => trivial
    | reap => trivial
  · have runs := owns run ⟨process, rfl, alive⟩ (by simp [phase, RunPhase.outer])
    obtain ⟨placed, empty⟩ := known _ _ rfl alive eventName matchCriteria expiresAt phase
    refine ⟨registered.insert rfl placed empty, ?_, fun _ => List.mem_cons_of_mem _, ?_,
      fun _ _ placed => placed⟩
    · rintro _ _ same
      cases same
      exact fun _ => (fun _ _ _ other => by cases other)
    · intro waiter member
      rcases List.mem_cons.mp member with rfl | old
      · exact .inr ⟨me, rfl, runs⟩
      · exact .inl old

/-- Every waiter belongs to one step, and event tasks have the waiters of their events. -/
abbrev Registered : World → Prop := Crowd.Holds Stores.Registered Agent.Registered

/-- A step keeps the registrations in order. -/
theorem registered_step {world next : World} {action : Action} (owned : Owned world)
    (registered : Registered world) (taken : step triggers world action = some next) :
    Registered next := by
  refine holds_step registered taken ?_ ?_ ?_
  · intro index choice _ agent later shared present alive _ move
    have owns := owned.actor index
    have known := registered.actor index
    rw [present] at owns known
    obtain ⟨registered', known', kept⟩ := move.registered alive owns registered.shared known
    have dead : LeavesDead world.shared shared := fun _ was => move.dead ▸ was
    refine ⟨registered', known', fun other apart => ?_⟩
    exact kept.agent dead (fun same => apart (Option.some.inj same).symm) (owned.actor other)
  · intro agent starts _ process role same
    cases starts with
    | run =>
      cases same
      exact fun _ => nofun
    | task =>
      cases same
      exact ⟨nofun, nofun⟩
    | poll =>
      cases same
      trivial
    | reap =>
      cases same
      trivial
  · intro event shared _ changed
    have frame := outsideStep_frame changed
    exact ⟨frame.noneRegistered.registered registered.shared, fun other =>
      (frame.noneRegistered.kept none).agent frame.dead (Option.some_ne_none other).symm
        (owned.actor other)⟩

/-- Nobody waits. -/
theorem registered_start : Registered start where
  shared := ⟨nofun, nofun, nofun, nofun⟩
  actor _ := nofun

end Notifkit.Workflow
