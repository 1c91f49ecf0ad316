import Notifkit.Workflow.Moves

/-!
# One run at a time

The status of an instance is set to running by compare and swap, and only the run that
set it sets it back, or the reaper. So from the claim to the finish a run has its instance
to itself, whether or not its lock has lasted, as long as the reaper sets back only what
a dead process has left.
-/

namespace Notifkit.Workflow

open Crowd

variable {triggers : InstanceId → Trigger} {stores after : Stores} {me : Nat}

/-- An instance somebody runs is not pending, and one that has rows is there. -/
structure Stores.Owned (stores : Stores) : Prop where
  idle : ∀ instanceId, stores.runner instanceId ≠ none →
    ∃ status, stores.instances instanceId = some status ∧ status ≠ .pending
  present : ∀ instanceId, stores.steps instanceId ≠ [] → stores.instances instanceId ≠ none

/-- Between setting the instance running and giving it up, a run has it. -/
def Run.Owns (me : Nat) (stores : Stores) (run : Run) : Prop :=
  ¬ run.phase.outer → stores.runner run.instanceId = some me

/-- An actor is a run, and its process is alive. -/
def LivingRun (stores : Stores) (agent : Option Agent) (run : Run) : Prop :=
  ∃ process, agent = some ⟨process, .run run⟩ ∧ process ∉ stores.dead

/-- What an actor has, if it is a living run. -/
def Agent.Owns (me : Nat) (agent : Option Agent) (stores : Stores) : Prop :=
  ∀ run, LivingRun stores agent run → run.Owns me stores

/-- A change takes no instance away from a run. -/
def LeavesRunner (owner : Nat) (stores after : Stores) : Prop :=
  ∀ instanceId, stores.runner instanceId = some owner → after.runner instanceId = some owner

/-- The dead stay dead. -/
def LeavesDead (stores after : Stores) : Prop := ∀ process ∈ stores.dead, process ∈ after.dead

theorem LivingRun.before {agent : Option Agent} {run : Run} (dead : LeavesDead stores after)
    (living : LivingRun after agent run) : LivingRun stores agent run := by
  obtain ⟨process, same, alive⟩ := living
  exact ⟨process, same, fun was => alive (dead process was)⟩

theorem LeavesRunner.agent {other : Nat} {agent : Option Agent} (dead : LeavesDead stores after)
    (leaves : ∀ run, LivingRun stores agent run → LeavesRunner other stores after)
    (owns : Agent.Owns other agent stores) : Agent.Owns other agent after := by
  intro run living inner
  have before := living.before dead
  exact leaves run before _ (owns run before inner)

/-- A change that gives no run up, sets no instance to pending and adds no first row. -/
structure LeavesOwned (stores after : Stores) : Prop where
  runner : after.runner = stores.runner
  pending : ∀ instanceId, after.instances instanceId = some .pending →
    stores.instances instanceId = some .pending
  present : ∀ instanceId, stores.instances instanceId ≠ none → after.instances instanceId ≠ none
  steps : ∀ instanceId, after.steps instanceId ≠ [] → stores.steps instanceId ≠ []

theorem LeavesOwned.owned (leaves : LeavesOwned stores after) (owned : stores.Owned) :
    after.Owned := by
  refine ⟨fun instanceId runs => ?_, fun instanceId rows => ?_⟩
  · rw [leaves.runner] at runs
    obtain ⟨status, was, apart⟩ := owned.idle instanceId runs
    have there : after.instances instanceId ≠ none := leaves.present instanceId (by simp [was])
    obtain ⟨status', is⟩ := Option.ne_none_iff_exists'.mp there
    refine ⟨status', is, fun same => apart ?_⟩
    have wasPending := leaves.pending instanceId (same ▸ is)
    exact Option.some.inj (was.symm.trans wasPending)
  · exact leaves.present instanceId (owned.present instanceId (leaves.steps instanceId rows))

theorem LeavesOwned.leaves (leaves : LeavesOwned stores after) (owner : Nat) :
    LeavesRunner owner stores after := by
  intro instanceId runs
  rw [leaves.runner, runs]

/-- Statuses, rows and runners are as they were. -/
theorem LeavesOwned.of_same (runner : after.runner = stores.runner)
    (instances : after.instances = stores.instances) (steps : after.steps = stores.steps) :
    LeavesOwned stores after :=
  ⟨runner, fun _ is => instances ▸ is, fun _ there => instances ▸ there, fun _ rows => steps ▸ rows⟩

/-- Writing an output adds no row. -/
theorem LeavesOwned.answer {instanceId : InstanceId} {stepIndex : StepIndex} {output : Json} :
    LeavesOwned stores (stores.answerStep instanceId stepIndex output) := by
  refine ⟨rfl, fun _ is => is, fun _ there => there, fun other rows empty => rows ?_⟩
  by_cases same : other = instanceId
  · subst same
    simp [Stores.answerStep, empty]
  · simp [Stores.answerStep, same, empty]

/-- A move of a run that leaves its instance with it, or was never in it. -/
theorem LeavesOwned.run {later : Run} (leaves : LeavesOwned stores after) (owned : stores.Owned)
    (owns : ¬ later.phase.outer → stores.runner later.instanceId = some me) :
    after.Owned ∧ later.Owns me after ∧ ∀ other, other ≠ me → LeavesRunner other stores after :=
  ⟨leaves.owned owned, fun inner => by rw [leaves.runner]; exact owns inner,
    fun other _ => leaves.leaves other⟩

/-- An instance is there after its status is set, and none goes away. -/
theorem Stores.setStatus_present (stores : Stores) (instanceId : InstanceId) (status : Status)
    (other : InstanceId) (there : stores.instances other ≠ none) :
    (stores.setStatus instanceId status).instances other ≠ none := by
  by_cases same : other = instanceId
  · simp [Stores.setStatus, same]
  · simpa [Stores.setStatus, same] using there

/-- What finishing changes: the status of an instance still running. -/
theorem Run.finish_instances (stores : Stores) (run : Run) (status : Status) (other : InstanceId) :
    (run.finish stores status).instances other =
      if other = run.instanceId ∧ stores.instances run.instanceId = some .running then some status
      else stores.instances other := by
  unfold Run.finish Run.letGo
  by_cases running : stores.instances run.instanceId = some .running
  · simp [running, Function.update_apply]
  · simp [running]

/-- No instance goes away when a run finishes. -/
theorem Run.finish_present (stores : Stores) (run : Run) (status : Status) (other : InstanceId)
    (there : stores.instances other ≠ none) : (run.finish stores status).instances other ≠ none := by
  rw [Run.finish_instances]
  split
  · simp
  · exact there

/-- The rows of the instances after a run added one. -/
theorem Stores.steps_insertStep (stores : Stores) (instanceId other : InstanceId) (row : StepRow) :
    (stores.insertStep instanceId row).steps other =
      if other = instanceId then stores.steps instanceId ++ [row] else stores.steps other := by
  simp [Stores.insertStep, Function.update_apply]

/-- A run adds a row to the instance it has. -/
theorem Stores.Owned.insert {run later : Run} {row : StepRow} (owned : stores.Owned)
    (runs : stores.runner run.instanceId = some me) (runner : after.runner = stores.runner)
    (instances : after.instances = stores.instances)
    (steps : after.steps = (stores.insertStep run.instanceId row).steps)
    (same : later.instanceId = run.instanceId) :
    after.Owned ∧ later.Owns me after ∧ ∀ other, other ≠ me → LeavesRunner other stores after := by
  refine ⟨⟨fun instanceId => ?_, fun instanceId rows => ?_⟩, fun _ => ?_,
    fun other _ instanceId => ?_⟩
  · rw [runner, instances]
    exact owned.idle instanceId
  · rw [instances]
    by_cases own : instanceId = run.instanceId
    · obtain ⟨status, is, _⟩ := owned.idle run.instanceId (by simp [runs])
      simp [own, is]
    · rw [steps, Stores.steps_insertStep, if_neg own] at rows
      exact owned.present instanceId rows
  · rw [runner, same, runs]
  · rw [runner]
    exact fun runs => runs

/-- A run that gives its instance up leaves the others theirs. -/
theorem Run.letGo_leaves {run : Run} (runs : stores.runner run.instanceId = some me) (other : Nat)
    (apart : other ≠ me) : LeavesRunner other stores (run.letGo stores) := by
  intro instanceId owned
  have differs : instanceId ≠ run.instanceId := by
    rintro rfl
    exact apart (Option.some.inj (owned.symm.trans runs))
  simpa [Run.letGo, differs] using owned

/-- A move of a run leaves it its instance until it gives it up. -/
theorem RunMove.owned {run later : Run} (owned : stores.Owned) (owns : run.Owns me stores)
    (move : RunMove triggers me stores run after later) :
    after.Owned ∧ later.Owns me after ∧ ∀ other, other ≠ me → LeavesRunner other stores after := by
  have unchanged : LeavesOwned stores stores := .of_same rfl rfl rfl
  cases move with
  | outer was outer same =>
    exact (LeavesOwned.of_same same.runner same.instances same.steps).run owned (absurd outer)
  | giveUp inner outer =>
    refine ⟨⟨fun instanceId runs => ?_, owned.present⟩, absurd outer,
      Run.letGo_leaves (owns inner)⟩
    have apart : instanceId ≠ run.instanceId := by
      rintro rfl
      simp [Run.letGo] at runs
    exact owned.idle instanceId (by simpa [Run.letGo, apart] using runs)
  | renew same =>
    exact (LeavesOwned.of_same same.runner same.instances same.steps).run owned owns
  | insert phase missing =>
    have apart : ∀ instanceId, stores.runner instanceId ≠ none → instanceId ≠ run.instanceId := by
      rintro _ runs rfl
      obtain ⟨status, was, _⟩ := owned.idle _ runs
      simp [missing] at was
    refine ⟨⟨fun instanceId runs => ?_, fun instanceId rows => ?_⟩, absurd trivial,
      fun _ _ _ runs => runs⟩
    · obtain ⟨status, was, other⟩ := owned.idle instanceId runs
      exact ⟨status, by simpa [Stores.setStatus, apart instanceId runs] using was, other⟩
    · exact Stores.setStatus_present _ _ _ _ (owned.present instanceId rows)
  | claim phase pending =>
    have free : stores.runner run.instanceId = none := by
      by_contra runs
      obtain ⟨status, was, apart⟩ := owned.idle run.instanceId runs
      exact apart (Option.some.inj (was.symm.trans pending))
    refine ⟨⟨fun instanceId runs => ?_, fun instanceId rows => ?_⟩, fun _ => ?_,
      fun other _ instanceId runs => ?_⟩
    · by_cases same : instanceId = run.instanceId
      · exact ⟨.running, by simp [Stores.setStatus, same], by simp⟩
      · simp only [Function.update_of_ne same] at runs
        obtain ⟨status, was, other⟩ := owned.idle instanceId runs
        exact ⟨status, by simpa [Stores.setStatus, same] using was, other⟩
    · exact Stores.setStatus_present _ _ _ _ (owned.present instanceId rows)
    · simp [Run.goto]
    · have apart : instanceId ≠ run.instanceId := by
        rintro rfl
        simp [free] at runs
      simpa [apart] using runs
  | load phase => exact unchanged.run owned fun _ => owns (by simp [phase, RunPhase.outer])
  | returns phase asks => exact unchanged.run owned fun _ => owns (by simp [phase, RunPhase.outer])
  | throws inner => exact unchanged.run owned fun _ => owns inner
  | suspend phase asks found silent =>
    exact unchanged.run owned fun _ => owns (by simp [phase, RunPhase.outer])
  | recollect phase asks found answer =>
    exact unchanged.run owned fun _ => owns (by simp [phase, RunPhase.outer])
  | «meet» phase asks absent =>
    exact unchanged.run owned fun _ => owns (by simp [phase, RunPhase.outer])
  | clear phase alive => exact unchanged.run owned fun _ => owns (by simp [phase, RunPhase.outer])
  | schedule phase => exact unchanged.run owned fun _ => owns (by simp [phase, RunPhase.outer])
  | perform phase kind =>
    refine LeavesOwned.run (.of_same rfl rfl rfl) owned fun _ => ?_
    exact owns (by simp [phase, RunPhase.outer])
  | armWait phase =>
    refine LeavesOwned.run (.of_same rfl rfl rfl) owned fun _ => ?_
    exact owns (by simp [phase, RunPhase.outer])
  | armTimeout phase =>
    refine LeavesOwned.run (.of_same rfl rfl rfl) owned fun _ => ?_
    exact owns (by simp [phase, RunPhase.outer])
  | recordResult phase kind fresh =>
    exact owned.insert (owns (by simp [phase, RunPhase.outer])) rfl rfl rfl rfl
  | recordWait phase fresh =>
    exact owned.insert (owns (by simp [phase, RunPhase.outer])) rfl rfl rfl rfl
  | recordPending phase fresh =>
    exact owned.insert (owns (by simp [phase, RunPhase.outer])) rfl rfl rfl rfl
  | register phase =>
    refine LeavesOwned.run (.of_same rfl rfl rfl) owned fun _ => ?_
    exact owns (by simp [phase, RunPhase.outer])
  | @finish status phase =>
    refine ⟨⟨fun instanceId runs => ?_, fun instanceId rows => ?_⟩, absurd trivial,
      Run.letGo_leaves (owns (by simp [phase, RunPhase.outer]))⟩
    · have apart : instanceId ≠ run.instanceId := by
        rintro rfl
        simp [Run.finish, Run.letGo] at runs
      rw [Run.finish_instances, if_neg fun both => apart both.1]
      exact owned.idle instanceId (by simpa [Run.finish, Run.letGo, apart] using runs)
    · exact Run.finish_present _ _ _ _ (owned.present instanceId rows)

/-- A poll has nothing to do with who runs. -/
theorem PollMove.leavesOwned {poll later : Poll} {choice : PollChoice}
    (move : PollMove me stores poll choice after later) : LeavesOwned stores after := by
  cases move with
  | @record instanceId eventName stepId stepIndex =>
    have leaves : LeavesOwned stores (stores.answerStep instanceId stepIndex timedOut) := .answer
    exact ⟨rfl, leaves.pending, leaves.present, leaves.steps⟩
  | _ => exact .of_same rfl rfl rfl

/-- Nor has an event task. -/
theorem TaskMove.leavesOwned {task later : EventTask} {choice : TaskChoice}
    (move : TaskMove me stores task choice after later) : LeavesOwned stores after := by
  cases move with
  | @answer waiter rest stepIndex =>
    have leaves : LeavesOwned stores
      (stores.answerStep waiter.instanceId stepIndex task.event.data) := .answer
    exact ⟨rfl, leaves.pending, leaves.present, leaves.steps⟩
  | _ => exact .of_same rfl rfl rfl

/-- Nor what happens outside the services. -/
theorem OutsideFrame.leavesOwned (frame : OutsideFrame stores after) : LeavesOwned stores after :=
  ⟨frame.runner, fun _ => frame.pending, fun _ => frame.present,
    fun _ rows => by rwa [frame.steps] at rows⟩

/-- What setting an instance back changes: the status of one that is running. -/
theorem Reap.update_instances (stores : Stores) (instanceId other : InstanceId) :
    (Reap.update stores instanceId).instances other =
      if other = instanceId ∧ stores.instances instanceId = some .running then some .pending
      else stores.instances other := by
  unfold Reap.update
  by_cases running : stores.instances instanceId = some .running
  · simp [running, Stores.setStatus, Function.update_apply]
  · simp [running]

/-- Setting an instance back takes it from the run that has it, and from no other. -/
theorem Reap.update_runner (stores : Stores) (instanceId other : InstanceId) :
    (Reap.update stores instanceId).runner other =
      if other = instanceId ∧ stores.instances instanceId = some .running then none
      else stores.runner other := by
  unfold Reap.update
  by_cases running : stores.instances instanceId = some .running
  · simp [running, Function.update_apply]
  · simp [running]

theorem Reap.update_steps (stores : Stores) (instanceId : InstanceId) :
    (Reap.update stores instanceId).steps = stores.steps := by
  unfold Reap.update
  split <;> rfl

/-- An instance that is set back is pending, and nobody runs it. -/
theorem Reap.update_owned (owned : stores.Owned) (instanceId : InstanceId) :
    (Reap.update stores instanceId).Owned := by
  refine ⟨fun other runs => ?_, fun other rows => ?_⟩
  · rw [Reap.update_runner] at runs
    rw [Reap.update_instances]
    split
    next same => exact absurd (if_pos same) runs
    next differs => exact owned.idle other (by rwa [if_neg differs] at runs)
  · rw [Reap.update_instances]
    split
    · simp
    · exact owned.present other (by rwa [Reap.update_steps] at rows)

/-- The instance a reaper is about to set back. -/
def Role.setsBack : Role → Option InstanceId
  | .reap current =>
    match current.phase, current.candidates with
    | .updating, instanceId :: _ => some instanceId
    | _, _ => none
  | _ => none

/-- The reaper whose next command is executed in a step. -/
def Action.reaps : Action → Option Nat
  | .act index (.reap .proceed) => some index
  | _ => none

/-- A reaper sets an instance back only where no living run has it. -/
def ReapsLost (world : World) (action : Action) : Prop :=
  ∀ index ∈ action.reaps, ∀ agent ∈ world.actors[index]?, ∀ instanceId ∈ agent.role.setsBack,
    world.shared.instances instanceId = some .running →
      ∀ owner ∈ world.shared.runner instanceId, ∀ run ∈ world.actors[owner]?,
        run.process ∈ world.shared.dead

/-- The actor that moves in a step, and its choice. -/
def Action.move : Action → Option (Nat × Choice)
  | .act index choice => some (index, choice)
  | _ => none

/-- A step without a reaper. -/
def Action.reaperless : Action → Bool
  | .startReap _ | .act _ (.reap _) => false
  | _ => true

/-- Without a reaper, nothing is set back. -/
theorem Action.reaperless_reapsLost {world : World} {action : Action}
    (reaperless : action.reaperless = true) : ReapsLost world action := by
  intro index reaps
  unfold Action.reaps at reaps
  split at reaps
  next => cases reaperless
  next => cases reaps

/-- Who is dead is not for an actor to change. -/
theorem AgentMove.dead {agent later : Role} {choice : Choice}
    (move : AgentMove triggers me stores agent choice after later) : after.dead = stores.dead := by
  cases move with
  | run move =>
    cases move with
    | outer _ _ same => exact same.dead
    | renew same => exact same.dead
    | _ => rfl
  | poll move => cases move <;> rfl
  | task move => cases move <;> rfl
  | reap move =>
    cases move with
    | update =>
      unfold Reap.update
      split <;> rfl
    | _ => rfl

/-- No two living runs have the same instance at a time. -/
abbrev Owned : World → Prop := Crowd.Holds Stores.Owned Agent.Owns

/-- A move of an actor, and what it leaves the others. -/
theorem AgentMove.owned {world : World} {index : Nat} {agent later : Agent} {choice : Choice}
    {shared : Stores} (owned : Owned world) (present : world.actors[index]? = some agent)
    (alive : agent.process ∉ world.shared.dead) (lost : ReapsLost world (.act index choice))
    (move : AgentMove triggers index world.shared agent.role choice shared later.role) :
    shared.Owned ∧ Agent.Owns index (some later) shared ∧ ∀ other : Nat, other ≠ index →
      ∀ run, LivingRun world.shared world.actors[other]? run →
        LeavesRunner other world.shared shared := by
  have owns := owned.actor index
  rw [present] at owns
  obtain ⟨process, role⟩ := agent
  obtain ⟨process', role'⟩ := later
  cases move with
  | run move =>
    obtain ⟨owned', owns', leaves⟩ := move.owned owned.shared (owns _ ⟨process, rfl, alive⟩)
    refine ⟨owned', fun run living => ?_, fun other apart _ _ => leaves other apart⟩
    obtain ⟨_, same, _⟩ := living
    cases same
    exact owns'
  | poll move =>
    have leaves := move.leavesOwned
    exact ⟨leaves.owned owned.shared, nofun, fun other _ _ _ => leaves.leaves other⟩
  | task move =>
    have leaves := move.leavesOwned
    exact ⟨leaves.owned owned.shared, nofun, fun other _ _ _ => leaves.leaves other⟩
  | @reap reap _ _ _ move =>
    cases move with
    | @update instanceId rest taken phase first =>
      subst taken
      refine ⟨Reap.update_owned owned.shared instanceId, nofun, fun other _ run living other' runs => ?_⟩
      rw [Reap.update_runner]
      split
      next same =>
        obtain ⟨rfl, running⟩ := same
        obtain ⟨place, is, there⟩ := living
        have dead := lost index rfl _ present other' (by simp [Role.setsBack, phase, first]) running
          other runs _ is
        exact absurd dead there
      next => exact runs
    | _ => exact ⟨owned.shared, nofun, fun _ _ _ _ _ runs => runs⟩

/-- A step in which the reaper sets back only what is lost leaves each run its instance. -/
theorem owned_step {world next : World} {action : Action} (owned : Owned world)
    (lost : ReapsLost world action) (taken : step triggers world action = some next) :
    Owned next := by
  refine holds_step owned taken ?_ ?_ ?_
  · rintro index choice rfl agent later shared present alive _ move
    obtain ⟨owned', owns, leaves⟩ := move.owned owned present alive lost
    have dead : LeavesDead world.shared shared := fun _ was => move.dead ▸ was
    exact ⟨owned', owns, fun other apart => LeavesRunner.agent dead (leaves other apart)⟩
  · rintro agent starts _ run ⟨process, same, _⟩
    cases starts <;> cases same
    exact absurd trivial
  · intro event shared _ changed
    have frame := outsideStep_frame changed
    exact ⟨frame.leavesOwned.owned owned.shared, fun other =>
      LeavesRunner.agent frame.dead fun _ _ => frame.leavesOwned.leaves other⟩

/-- Nobody runs. -/
theorem owned_start : Owned start where
  shared := ⟨fun _ runs => absurd rfl runs, fun _ rows => absurd rfl rows⟩
  actor _ := nofun

/-- No two living runs have the same instance at a time, if the reaper sets back only what is
lost. -/
theorem owned_reached {allowed : World → Action → Prop} {world : World}
    (run : Runs.Reaches (step triggers) allowed start world)
    (lost : ∀ before action, allowed before action → ReapsLost before action) : Owned world :=
  run.invariant owned_start fun _ _ _ owned admitted taken =>
    owned_step owned (lost _ _ admitted) taken

end Notifkit.Workflow
