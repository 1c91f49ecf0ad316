import Notifkit.Workflow.Runners

/-!
# The lock of an instance and the reaper

A run holds its instance's lock from before it claims the instance until after it has set
its next status, so while no lock is lost, an instance that is running is locked. The
reaper reads the running instances, asks for the lock of each later, and sets the instance
back later still. Between the question and the update one run may release the lock and
another take it; then the update sets back an instance that is being run, and the run's
own finish no longer finds it running.

Where no lock is taken in that gap, the reaper sets back only what nobody holds, and a
handler that returned leaves its instance completed.
-/

namespace Notifkit.Workflow

open Crowd Runs

variable {triggers : InstanceId → Trigger} {stores after : Stores} {me : Nat}

/-- A process dies or an instance is canceled. -/
def Action.disturbs : Action → Bool
  | .outside (.crash _) | .outside (.cancel _) => true
  | _ => false

/-- The time that passes in a step. -/
def Action.ticks : Action → Option Nat
  | .outside (.tick ms) => some ms
  | _ => none

/-- The run whose command fails in a step. -/
def Action.failsRun : Action → Option Nat
  | .act index (.run .fail) => some index
  | _ => none

/-- The instance whose handler has returned and that is about to be completed. -/
def Role.completes : Role → Option InstanceId
  | .run current =>
    match current.phase with
    | .finishing .completed => some current.instanceId
    | _ => none
  | _ => none

/-- The instance whose lock a run has taken and not released. -/
def Role.locks : Role → Option InstanceId
  | .run current => if current.phase.locked then some current.instanceId else none
  | _ => none

/-- How often a candidate's lock had been taken when the reaper asked for it. -/
def Role.since : Role → Nat
  | .reap current => current.since
  | _ => 0

/-- No process dies, nothing is canceled, the command that completes an instance does not
fail, and no lock runs out while its run is at work. -/
def Undisturbed (world : World) (action : Action) : Prop :=
  action.disturbs = false ∧
    (∀ index ∈ action.failsRun, ∀ agent ∈ world.actors[index]?, agent.role.completes = none) ∧
    ∀ ms ∈ action.ticks, ∀ index < world.actors.length, ∀ agent ∈ world.actors[index]?,
      ∀ instanceId ∈ agent.role.locks,
        world.shared.locks.get (world.shared.clock + ms) instanceId = some index

/-- When a reaper sets back an instance that is running, its lock has not been taken since
the reaper asked for it. -/
def ReapsUnlocked (world : World) (action : Action) : Prop :=
  ∀ index ∈ action.reaps, ∀ agent ∈ world.actors[index]?, ∀ instanceId ∈ agent.role.setsBack,
    world.shared.instances instanceId = some .running →
      world.shared.acquired instanceId = agent.role.since

instance (world : World) (action : Action) : Decidable (Undisturbed world action) :=
  inferInstanceAs (Decidable (_ ∧ _ ∧ _))

instance (world : World) (action : Action) : Decidable (ReapsUnlocked world action) := by
  unfold ReapsUnlocked
  infer_instance

/-- A run between the claim and the finish has its lock. -/
theorem RunPhase.locked_of_inner {phase : RunPhase} (inner : ¬ phase.outer) :
    phase.locked = true := by
  cases phase with
  | deferring locked => exact absurd trivial inner
  | locking => exact absurd trivial inner
  | returned => exact absurd trivial inner
  | ended => exact absurd trivial inner
  | _ => rfl

/-- What a step of a run does to its lock. -/
theorem RunMove.lock {run later : Run} (move : RunMove triggers me stores run after later) :
    LockStep me stores run after later := by
  have within : ¬ run.phase.outer → run.phase.locked = true := RunPhase.locked_of_inner
  cases move with
  | outer was outer same lock => exact lock
  | renew same lock => exact lock
  | insert phase missing => exact .keep rfl rfl fun _ => by rw [phase]; rfl
  | claim phase pending => exact .keep rfl rfl fun _ => by rw [phase]; rfl
  | giveUp inner => exact .keep rfl rfl fun _ => within inner
  | throws inner => exact .keep rfl rfl fun _ => within inner
  | load phase => exact .keep rfl rfl fun _ => by rw [phase]; rfl
  | returns phase => exact .keep rfl rfl fun _ => by rw [phase]; rfl
  | suspend phase => exact .keep rfl rfl fun _ => by rw [phase]; rfl
  | recollect phase => exact .keep rfl rfl fun _ => by rw [phase]; rfl
  | «meet» phase => exact .keep rfl rfl fun _ => by rw [phase]; rfl
  | clear phase => exact .keep rfl rfl fun _ => by rw [phase]; rfl
  | schedule phase => exact .keep rfl rfl fun _ => by rw [phase]; rfl
  | perform phase => exact .keep rfl rfl fun _ => by rw [phase]; rfl
  | armWait phase => exact .keep rfl rfl fun _ => by rw [phase]; rfl
  | armTimeout phase => exact .keep rfl rfl fun _ => by rw [phase]; rfl
  | recordResult phase => exact .keep rfl rfl fun _ => by rw [phase]; rfl
  | recordWait phase => exact .keep rfl rfl fun _ => by rw [phase]; rfl
  | recordPending phase => exact .keep rfl rfl fun _ => by rw [phase]; rfl
  | register phase => exact .keep rfl rfl fun _ => by rw [phase]; rfl
  | finish phase => exact .keep rfl rfl fun _ => by rw [phase]; rfl

/-- What the others see of a step: nobody's lock is touched but the mover's, a lock that is
taken is counted, and only the mover is set as a runner. -/
structure LocksKept (mover : Option Nat) (stores after : Stores) : Prop where
  held : ∀ other instanceId, mover ≠ some other →
    stores.locks.get stores.clock instanceId = some other →
      after.locks.get after.clock instanceId = some other
  acquired : ∀ instanceId, stores.acquired instanceId ≤ after.acquired instanceId
  free : ∀ instanceId, after.acquired instanceId = stores.acquired instanceId →
    stores.locks.get stores.clock instanceId = none →
      after.locks.get after.clock instanceId = none
  runner : ∀ other instanceId, mover ≠ some other → after.runner instanceId = some other →
    stores.runner instanceId = some other

/-- The lock of a run that is at work is its own. -/
def Run.Locked (me : Nat) (stores : Stores) (run : Run) : Prop :=
  run.phase.locked = true → stores.locks.get stores.clock run.instanceId = some me

/-- What an actor knows of locks: a run at work has its own, a run that is named as a runner is
one, and where nobody took the lock a reaper asked for, it is still free. -/
structure Agent.Locked (me : Nat) (agent : Option Agent) (stores : Stores) : Prop where
  held : ∀ process run, agent = some ⟨process, .run run⟩ → run.Locked me stores
  runner : ∀ instanceId, stores.runner instanceId = some me → ∃ process run,
    agent = some ⟨process, .run run⟩ ∧ run.instanceId = instanceId ∧ ¬ run.phase.outer
  free : ∀ process reap instanceId, agent = some ⟨process, .reap reap⟩ →
    (Role.reap reap).setsBack = some instanceId → reap.since ≤ stores.acquired instanceId ∧
      (stores.acquired instanceId = reap.since →
        stores.locks.get stores.clock instanceId = none)

theorem LocksKept.agent {mover : Option Nat} (kept : LocksKept mover stores after) {other : Nat}
    (apart : mover ≠ some other) {agent : Option Agent} (known : Agent.Locked other agent stores) :
    Agent.Locked other agent after := by
  refine ⟨fun process run same locked => ?_, fun instanceId runs => ?_,
    fun process reap instanceId same setsBack => ?_⟩
  · exact kept.held other _ apart (known.held process run same locked)
  · exact known.runner instanceId (kept.runner other instanceId apart runs)
  · obtain ⟨earlier, free⟩ := known.free process reap instanceId same setsBack
    have grown := kept.acquired instanceId
    refine ⟨Nat.le_trans earlier grown, fun unchanged => ?_⟩
    have before : stores.acquired instanceId = reap.since := by omega
    exact kept.free instanceId (unchanged.trans before.symm) (free before)

/-- A step of a run touches no other run's lock, and its own as it should. -/
theorem LockStep.kept {run later : Run} (lock : LockStep me stores run after later)
    (clock : after.clock = stores.clock) (place : later.instanceId = run.instanceId)
    (locked : run.Locked me stores)
    (runner : ∀ other instanceId, other ≠ me → after.runner instanceId = some other →
      stores.runner instanceId = some other) :
    LocksKept (some me) stores after ∧ later.Locked me after := by
  have others : ∀ other instanceId, some me ≠ some other → after.runner instanceId = some other →
      stores.runner instanceId = some other := fun other instanceId apart =>
    runner other instanceId fun same => apart (congrArg some same.symm)
  have mine : stores.clock ≤ stores.clock + WORKFLOW_LOCK_TTL_MS := Nat.le_add_right _ _
  cases lock with
  | keep locks acquired held =>
    refine ⟨⟨fun other instanceId _ holds => ?_, fun instanceId => ?_, fun instanceId _ free => ?_,
      others⟩, fun phase => ?_⟩
    · rw [locks, clock, holds]
    · exact Nat.le_of_eq (congrFun acquired instanceId).symm
    · rw [locks, clock, free]
    · rw [locks, clock, place]
      exact locked (held phase)
  | take free locks acquired =>
    refine ⟨⟨fun other instanceId _ holds => ?_, fun instanceId => ?_,
      fun instanceId same unlocked => ?_, others⟩, fun phase => ?_⟩
    · have apart : instanceId ≠ run.instanceId := by
        rintro rfl
        simp [free] at holds
      rw [locks, clock]
      simpa [ExpiringStore.get, apart] using holds
    · rw [acquired, Function.update_apply]
      split
      next same =>
        rw [same]
        exact Nat.le_succ _
      next => exact Nat.le_refl _
    · have apart : instanceId ≠ run.instanceId := by
        rintro rfl
        simp [acquired] at same
      rw [locks, clock]
      simpa [ExpiringStore.get, apart] using unlocked
    · rw [locks, clock, place]
      exact ExpiringStore.get_eq_some.mpr ⟨_, by simp, mine⟩
  | extend holds locks acquired held =>
    refine ⟨⟨fun other instanceId apart holds' => ?_, fun instanceId => ?_,
      fun instanceId _ unlocked => ?_, others⟩, fun phase => ?_⟩
    · have differs : instanceId ≠ run.instanceId := by
        rintro rfl
        exact apart (holds.symm.trans holds')
      rw [locks, clock]
      simpa [ExpiringStore.get, differs] using holds'
    · exact Nat.le_of_eq (congrFun acquired instanceId).symm
    · have differs : instanceId ≠ run.instanceId := by
        rintro rfl
        simp [holds] at unlocked
      rw [locks, clock]
      simpa [ExpiringStore.get, differs] using unlocked
    · rw [locks, clock, place]
      exact ExpiringStore.get_eq_some.mpr ⟨_, by simp, mine⟩
  | release holds locks acquired isOver =>
    refine ⟨⟨fun other instanceId apart holds' => ?_, fun instanceId => ?_,
      fun instanceId _ unlocked => ?_, others⟩, fun phase => ?_⟩
    · have differs : instanceId ≠ run.instanceId := by
        rintro rfl
        exact apart (holds.symm.trans holds')
      rw [locks, clock]
      simpa [ExpiringStore.get, differs] using holds'
    · exact Nat.le_of_eq (congrFun acquired instanceId).symm
    · rw [locks, clock]
      by_cases same : instanceId = run.instanceId
      · simp [ExpiringStore.get, same]
      · simpa [ExpiringStore.get, same] using unlocked
    · rw [isOver] at phase
      cases phase

/-- Only the claim of a run names a runner, and it names that run. -/
theorem RunMove.runner {run later : Run} (move : RunMove triggers me stores run after later) :
    after.clock = stores.clock ∧
      (∀ other instanceId, other ≠ me → after.runner instanceId = some other →
        stores.runner instanceId = some other) ∧
      ∀ instanceId, after.runner instanceId = some me →
        stores.runner instanceId = some me ∧ (run.phase.outer ∨ instanceId ≠ run.instanceId ∨
          ¬ later.phase.outer) ∨
        instanceId = run.instanceId ∧ ¬ later.phase.outer := by
  have letGo : ∀ other instanceId, (run.letGo stores).runner instanceId = some other →
      stores.runner instanceId = some other ∧ instanceId ≠ run.instanceId := by
    intro other instanceId runs
    by_cases same : instanceId = run.instanceId
    · simp [Run.letGo, same] at runs
    · exact ⟨by simpa [Run.letGo, same] using runs, same⟩
  cases move with
  | outer was outer same =>
    exact ⟨same.clock, fun _ _ _ runs => same.runner ▸ runs, fun _ runs =>
      .inl ⟨same.runner ▸ runs, .inl was⟩⟩
  | giveUp inner outer =>
    refine ⟨rfl, fun _ _ _ runs => (letGo _ _ runs).1, fun _ runs => .inl ?_⟩
    exact (letGo _ _ runs).imp_right fun apart => .inr (.inl apart)
  | renew same =>
    refine ⟨same.clock, fun _ _ _ runs => same.runner ▸ runs, fun _ runs => .inl
      ⟨same.runner ▸ runs, ?_⟩⟩
    exact (Classical.em run.phase.outer).imp_right .inr
  | insert phase missing =>
    exact ⟨rfl, fun _ _ _ runs => runs, fun _ runs => .inl
      ⟨runs, .inl (by simp [phase, RunPhase.outer])⟩⟩
  | claim phase pending =>
    refine ⟨rfl, fun other instanceId apart runs => ?_, fun instanceId runs => ?_⟩
    · have differs : instanceId ≠ run.instanceId := by
        rintro rfl
        simp only [Function.update_self, Option.some.injEq] at runs
        exact apart runs.symm
      simpa [differs] using runs
    · by_cases same : instanceId = run.instanceId
      · exact .inr ⟨same, by simp [Run.goto, RunPhase.outer]⟩
      · exact .inl ⟨by simpa [same] using runs, .inr (.inl same)⟩
  | finish phase =>
    refine ⟨rfl, fun _ _ _ runs => (letGo _ _ runs).1, fun _ runs => .inl ?_⟩
    exact (letGo _ _ runs).imp_right fun apart => .inr (.inl apart)
  | recollect phase =>
    exact ⟨rfl, fun _ _ _ runs => runs, fun _ runs => .inl
      ⟨runs, .inr (.inr (by simp [phase, RunPhase.outer]))⟩⟩
  | _ =>
    exact ⟨rfl, fun _ _ _ runs => runs, fun _ runs => .inl
      ⟨runs, .inr (.inr (by simp [Run.goto, Run.perform, RunPhase.outer]))⟩⟩

/-- Nothing happens to locks and runners. -/
theorem LocksKept.of_same (mover : Option Nat) (clock : after.clock = stores.clock)
    (locks : after.locks = stores.locks) (acquired : after.acquired = stores.acquired)
    (runner : ∀ other instanceId, after.runner instanceId = some other →
      stores.runner instanceId = some other) : LocksKept mover stores after := by
  refine ⟨fun _ _ _ holds => ?_, fun instanceId => ?_, fun _ _ free => ?_,
    fun other instanceId _ => ?_⟩
  · rw [locks, clock, holds]
  · exact Nat.le_of_eq (congrFun acquired instanceId).symm
  · rw [locks, clock, free]
  · exact runner other instanceId

/-- A move of an actor, and what it knows of locks after it. -/
theorem AgentMove.locks {agent later : Agent} {choice : Choice}
    (known : Agent.Locked me (some agent) stores)
    (move : AgentMove triggers me stores agent.role choice after later.role) :
    LocksKept (some me) stores after ∧ Agent.Locked me (some later) after := by
  obtain ⟨process, role⟩ := agent
  obtain ⟨process', role'⟩ := later
  -- an actor that is no run is nobody's runner
  have idle : (∀ run, role ≠ .run run) → ∀ instanceId, stores.runner instanceId ≠ some me := by
    intro other instanceId runs
    obtain ⟨_, run, same, _⟩ := known.runner instanceId runs
    cases same
    exact other run rfl
  cases move with
  | @run run later choice _ move =>
    have place := move.place
    obtain ⟨clock, others, mine⟩ := move.runner
    obtain ⟨kept, locked⟩ := move.lock.kept clock place (known.held process run rfl) others
    refine ⟨kept, ?_, fun instanceId runs => ?_, nofun⟩
    · rintro _ _ ⟨⟩
      exact locked
    · refine ⟨process', later, rfl, ?_⟩
      rcases mine instanceId runs with ⟨was, apart⟩ | ⟨same, inner⟩
      · obtain ⟨_, _, ⟨⟩, same, inner⟩ := known.runner instanceId was
        refine ⟨place.trans same, fun outer => ?_⟩
        rcases apart with outer' | differs | inner'
        · exact inner outer'
        · exact differs same.symm
        · exact inner' outer
      · exact ⟨place.trans same.symm, inner⟩
  | poll move =>
    have none := idle nofun
    have quiet : LocksKept (some me) stores after ∧ after.runner = stores.runner := by
      cases move <;> exact ⟨.of_same _ rfl rfl rfl fun _ _ runs => runs, rfl⟩
    refine ⟨quiet.1, nofun, fun instanceId runs => ?_, nofun⟩
    exact absurd (quiet.2 ▸ runs) (none instanceId)
  | task move =>
    have none := idle nofun
    have quiet : LocksKept (some me) stores after ∧ after.runner = stores.runner := by
      cases move <;> exact ⟨.of_same _ rfl rfl rfl fun _ _ runs => runs, rfl⟩
    refine ⟨quiet.1, nofun, fun instanceId runs => ?_, nofun⟩
    exact absurd (quiet.2 ▸ runs) (none instanceId)
  | reap move =>
    have none := idle nofun
    have same : LocksKept (some me) stores stores := .of_same _ rfl rfl rfl fun _ _ runs => runs
    cases move with
    | scan =>
      refine ⟨same, nofun, fun instanceId runs => absurd runs (none instanceId), ?_⟩
      rintro _ _ _ ⟨⟩ setsBack
      cases setsBack
    | skip =>
      refine ⟨same, nofun, fun instanceId runs => absurd runs (none instanceId), ?_⟩
      rintro _ _ _ ⟨⟩ setsBack
      cases setsBack
    | abandon =>
      refine ⟨same, nofun, fun instanceId runs => absurd runs (none instanceId), ?_⟩
      rintro _ _ _ ⟨⟩ setsBack
      cases setsBack
    | test first free =>
      refine ⟨same, nofun, fun instanceId runs => absurd runs (none instanceId), ?_⟩
      rintro _ _ instanceId ⟨⟩ setsBack
      simp only [Role.setsBack, first, Option.some.injEq] at setsBack
      subst setsBack
      exact ⟨Nat.le_refl _, fun _ => free⟩
    | @update updated rest taken phase first =>
      have runner : ∀ other instanceId, (Reap.update stores updated).runner instanceId = some other →
          stores.runner instanceId = some other := by
        intro other instanceId runs
        rw [Reap.update_runner] at runs
        split at runs
        · cases runs
        · exact runs
      have kept : LocksKept (some me) stores (Reap.update stores updated) := by
        refine .of_same _ ?_ ?_ ?_ runner
        all_goals
          unfold Reap.update
          split <;> rfl
      refine ⟨kept, nofun, fun instanceId runs => absurd (runner _ _ runs) (none instanceId), ?_⟩
      rintro _ _ _ ⟨⟩ setsBack
      cases setsBack

/-- Whoever runs an instance finds it running. -/
def Stores.Running (stores : Stores) : Prop :=
  ∀ instanceId, stores.runner instanceId ≠ none → stores.instances instanceId = some .running

/-- A change of other instances than those somebody runs. -/
theorem Stores.Running.of_runner (running : stores.Running)
    (kept : ∀ instanceId, after.runner instanceId ≠ none → stores.runner instanceId ≠ none ∧
      after.instances instanceId = stores.instances instanceId ∨
        after.instances instanceId = some .running) : after.Running := by
  intro instanceId runs
  rcases kept instanceId runs with ⟨was, same⟩ | is
  · rw [same]
    exact running instanceId was
  · exact is

/-- A move of an actor leaves running what somebody runs. -/
theorem AgentMove.running {agent later : Role} {choice : Choice}
    (move : AgentMove triggers me stores agent choice after later) (running : stores.Running) :
    after.Running := by
  have letGo : ∀ (run : Run) instanceId, (run.letGo stores).runner instanceId ≠ none →
      stores.runner instanceId ≠ none ∧ instanceId ≠ run.instanceId := by
    intro run instanceId runs
    by_cases same : instanceId = run.instanceId
    · simp [Run.letGo, same] at runs
    · exact ⟨by simpa [Run.letGo, same] using runs, same⟩
  cases move with
  | @run run _ _ _ move =>
    cases move with
    | outer was outer same =>
      exact running.of_runner fun _ runs => .inl ⟨same.runner ▸ runs, by rw [same.instances]⟩
    | giveUp inner outer =>
      exact running.of_runner fun _ runs => .inl ⟨(letGo _ _ runs).1, rfl⟩
    | renew same =>
      exact running.of_runner fun _ runs => .inl ⟨same.runner ▸ runs, by rw [same.instances]⟩
    | insert phase missing =>
      refine running.of_runner fun instanceId runs => .inl ⟨runs, ?_⟩
      have apart : instanceId ≠ run.instanceId := by
        rintro rfl
        have is := running _ runs
        simp [missing] at is
      simp [Stores.setStatus, apart]
    | claim phase pending =>
      refine running.of_runner fun instanceId runs => ?_
      by_cases same : instanceId = run.instanceId
      · exact .inr (by simp [Stores.setStatus, same])
      · exact .inl ⟨by simpa [same] using runs, by simp [Stores.setStatus, same]⟩
    | finish phase =>
      refine running.of_runner fun instanceId runs => .inl ⟨(letGo _ _ runs).1, ?_⟩
      rw [Run.finish_instances, if_neg fun both => (letGo _ _ runs).2 both.1]
    | _ => exact running
  | poll move => cases move <;> exact running
  | task move => cases move <;> exact running
  | reap move =>
    cases move with
    | update =>
      refine running.of_runner fun instanceId runs => .inl ?_
      rw [Reap.update_runner] at runs
      split at runs
      next => exact absurd rfl runs
      next differs => exact ⟨runs, by rw [Reap.update_instances, if_neg differs]⟩
    | _ => exact running

/-- What a step must not undo: whoever runs an instance finds it running, and everybody knows
of locks what he should. -/
abbrev Locked : World → Prop := Crowd.Holds Stores.Running Agent.Locked

/-- A step in which nothing is disturbed keeps the locks with their runs. -/
theorem locked_step {world next : World} {action : Action} (locked : Locked world)
    (undisturbed : Undisturbed world action) (taken : step triggers world action = some next) :
    Locked next := by
  refine holds_step locked taken ?_ ?_ ?_
  · rintro index choice rfl agent later shared present _ _ move
    have known := locked.actor index
    rw [present] at known
    obtain ⟨kept, mine⟩ := move.locks known
    exact ⟨move.running locked.shared, mine, fun other apart => kept.agent fun same =>
      apart (Option.some.inj same).symm⟩
  · intro agent starts known
    have idle : ∀ instanceId, world.shared.runner instanceId ≠ some world.actors.length := by
      intro instanceId runs
      obtain ⟨_, _, same, _⟩ := known.runner instanceId runs
      cases same
    refine ⟨?_, fun instanceId runs => absurd runs (idle instanceId), ?_⟩
    · intro process run same held
      cases starts <;> cases same
      cases held
    · intro process reap instanceId same setsBack
      cases starts <;> cases same
      cases setsBack
  · rintro event shared rfl changed
    have frame := outsideStep_frame changed
    obtain ⟨instances, clock⟩ := outsideStep_quiet changed
    have same : shared.instances = world.shared.instances := by
      rcases instances with same | ⟨instanceId, rfl⟩
      · exact same
      · cases undisturbed.1
    refine ⟨fun instanceId runs => ?_, fun other known => ⟨?_, ?_, ?_⟩⟩
    · rw [same]
      exact locked.shared instanceId (frame.runner ▸ runs)
    · intro process run present held
      rw [frame.locks]
      rcases clock with still | ⟨ms, rfl, later⟩
      · rw [still]
        exact known.held process run present held
      · have bound : other < world.actors.length := (List.getElem?_eq_some_iff.mp present).1
        rw [later]
        exact undisturbed.2.2 ms rfl other bound _ present run.instanceId (by simp [Role.locks, held])
    · intro instanceId runs
      exact known.runner instanceId (frame.runner ▸ runs)
    · intro process reap instanceId present setsBack
      rw [frame.acquired, frame.locks]
      obtain ⟨earlier, free⟩ := known.free process reap instanceId present setsBack
      exact ⟨earlier, fun unchanged => ExpiringStore.get_eq_none.mpr fun owner expiry there =>
        Nat.lt_of_lt_of_le (ExpiringStore.get_eq_none.mp (free unchanged) owner expiry there)
          frame.clock⟩

/-- Nothing runs, and no lock is taken. -/
theorem locked_start : Locked start where
  shared := fun _ runs => absurd rfl runs
  actor _ := ⟨nofun, nofun, nofun⟩

/-- Where a reaper sets back a running instance whose lock was not taken since it asked, the
lock is free. -/
theorem unlocked_of_reaps {world : World} {index : Nat} {agent : Agent} {instanceId : InstanceId}
    (locked : Locked world) (reaps : ReapsUnlocked world (.act index (.reap .proceed)))
    (present : world.actors[index]? = some agent) (setsBack : agent.role.setsBack = some instanceId)
    (running : world.shared.instances instanceId = some .running) :
    world.shared.locks.get world.shared.clock instanceId = none := by
  have unchanged := reaps index rfl agent present instanceId setsBack running
  have known := locked.actor index
  rw [present] at known
  obtain ⟨process, role⟩ := agent
  cases role with
  | reap reap => exact (known.free process reap instanceId rfl setsBack).2 unchanged
  | run => cases setsBack
  | poll => cases setsBack
  | task => cases setsBack

/-- So it takes no instance from a run. -/
theorem reapsLost_of_locked {world : World} {action : Action} (locked : Locked world)
    (reaps : ReapsUnlocked world action) : ReapsLost world action := by
  intro index reaper agent present instanceId setsBack running owner runs run there
  have same : action = .act index (.reap .proceed) := by
    unfold Action.reaps at reaper
    split at reaper
    next => rw [Option.some.inj reaper]
    next => cases reaper
  subst same
  have free := unlocked_of_reaps locked reaps present setsBack running
  obtain ⟨process, holder, is, place, inner⟩ := (locked.actor owner).runner instanceId runs
  have held := (locked.actor owner).held process holder is (RunPhase.locked_of_inner inner)
  rw [place, free] at held
  cases held

/-- In a step, the reaper sets back only an instance whose lock nobody holds, and a run whose
handler has returned leaves its instance completed. -/
structure SparesRunning (world next : World) (action : Action) : Prop where
  reaper : ∀ index choice, action = .act index (.reap choice) → ∀ instanceId,
    world.shared.instances instanceId = some .running →
      next.shared.instances instanceId ≠ some .running →
        world.shared.locks.get world.shared.clock instanceId = none
  finish : ∀ index, action = .act index (.run .proceed) → ∀ agent, world.actors[index]? = some agent →
    ∀ instanceId, agent.role.completes = some instanceId →
      next.shared.instances instanceId = some .completed

/-- A run that is about to finish does so with its next command. -/
theorem finish_taken {world next : World} {index process : Nat} {run : Run} {status : Status}
    (present : world.actors[index]? = some ⟨process, .run run⟩) (phase : run.phase = .finishing status)
    (taken : step triggers world (.act index (.run .proceed)) = some next) :
    next.shared = run.finish world.shared status := by
  obtain ⟨agent, shared, later, there, moved, rfl⟩ := Crowd.act_eq_some taken
  obtain rfl := Option.some.inj (present.symm.trans there)
  obtain ⟨_, moved⟩ := Option.ite_none_left_eq_some.mp moved
  obtain ⟨pair, stepped, same⟩ := Option.map_eq_some_iff.mp moved
  simp only [Run.step, Run.proceed, phase, Option.some.injEq] at stepped
  subst stepped
  exact (Prod.mk.inj same).1.symm

/-- A step in which nothing is disturbed and no lock is taken behind the reaper's back spares
what runs. -/
theorem sparesRunning_step {world next : World} {action : Action} (locked : Locked world)
    (owned : Owned world) (undisturbed : Undisturbed world action)
    (reaps : ReapsUnlocked world action) (taken : step triggers world action = some next) :
    SparesRunning world next action := by
  refine ⟨?_, ?_⟩
  · rintro index choice rfl instanceId running changed
    obtain ⟨agent, shared, later, present, moved, rfl⟩ := Crowd.act_eq_some taken
    obtain ⟨_, _, move⟩ := Agent.move_moves moved
    obtain ⟨process, role⟩ := agent
    obtain ⟨process', role'⟩ := later
    cases move with
    | reap move =>
      cases move with
      | @update updated rest chosen phase first =>
        subst chosen
        by_cases same : instanceId = updated
        · subst same
          exact unlocked_of_reaps locked reaps present (by simp [Role.setsBack, phase, first]) running
        · rw [Reap.update_instances, if_neg fun both => same both.1] at changed
          exact absurd running changed
      | _ => exact absurd running changed
  · rintro index rfl agent present instanceId completes
    obtain ⟨process, role⟩ := agent
    cases role with
    | run run =>
      simp only [Role.completes] at completes
      split at completes
      next phase =>
        obtain rfl := Option.some.inj completes
        obtain ⟨_, _, _, there, moved, _⟩ := Crowd.act_eq_some taken
        obtain ⟨alive, _⟩ := Agent.move_moves moved
        obtain rfl := Option.some.inj (present.symm.trans there)
        have mine := owned.actor index run ⟨process, present, alive⟩ (by simp [phase, RunPhase.outer])
        have running := locked.shared run.instanceId (by simp [mine])
        rw [finish_taken present phase taken, Run.finish_instances, if_pos ⟨rfl, running⟩]
      next => cases completes
    | poll => cases completes
    | task => cases completes
    | reap => cases completes

/-- The steps in which nothing is disturbed and no lock is taken between a reaper's question
and its update. -/
def Spared (world : World) (action : Action) : Prop :=
  Undisturbed world action ∧ ReapsUnlocked world action

instance (world : World) (action : Action) : Decidable (Spared world action) :=
  inferInstanceAs (Decidable (_ ∧ _))

/-- In every run of workers, polls, event tasks and reapers in which nobody dies and no lock is
lost, and no lock is taken between a reaper's question and its update, the reaper spares what
runs. -/
theorem reaper_spares_running (triggers : InstanceId → Trigger) (world next : World)
    (action : Action) (run : Reaches (step triggers) Spared start world)
    (spared : Spared world action) (taken : step triggers world action = some next) :
    SparesRunning world next action := by
  have locked : ∀ reached, Reaches (step triggers) Spared start reached → Locked reached :=
    fun _ reaches => reaches.invariant locked_start fun _ _ _ locked spared taken =>
      locked_step locked spared.1 taken
  have owned : Owned world := run.invariant_given locked owned_start
    fun _ _ _ locked owned spared taken =>
      owned_step owned (reapsLost_of_locked locked spared.2) taken
  exact sparesRunning_step (locked world run) owned spared.1 spared.2 taken

/-- A handler that waits no time at all and returns. -/
def pauses : Trigger where
  projectId := 0
  handler
    | [] => .step (.wait ⟨some 0⟩)
    | _ => .returns

/-- The state some actions lead to, for one instance that pauses. -/
def pausedBy (actions : List Action) : World :=
  (perform (step fun _ => pauses) start actions).getD start

/-- A run cannot read the rows and gives its instance up; the reaper sets it back; the message
is delivered again, and the handler pauses, is resumed and returns. -/
def setBack : List Action :=
  [Action.outside (.send 0), .takeMessage 0 0] ++ runs 0 4 ++ [Action.act 0 (.run .fail)] ++ runs 0 1 ++
    [Action.startReap 0, .act 1 (.reap (.scan [0]))] ++ reaps 1 2 ++ [Action.takeMessage 0 0] ++ runs 2 12 ++
    [Action.outside (.send 0), .takeMessage 0 0] ++ runs 3 6

/-- The instance is completed. -/
theorem reaper_spares_running_run : ∃ world next,
    Reaches (step fun _ => pauses) Spared start world ∧
      Spared world (.act 3 (.run .proceed)) ∧
      step (fun _ => pauses) world (.act 3 (.run .proceed)) = some next ∧
      next.shared.instances 0 = some .completed ∧
      SparesRunning world next (.act 3 (.run .proceed)) := by
  have run : Reaches (step fun _ => pauses) Spared start (pausedBy setBack) :=
    reaches_of_perform setBack (by decide +kernel) rfl
  have spared : Spared (pausedBy setBack) (.act 3 (.run .proceed)) := by decide +kernel
  exact ⟨_, _, run, spared, rfl, rfl, reaper_spares_running _ _ _ _ run spared rfl⟩

/-- The reaper reads the instance while its first run is at work and asks for the lock when it
is over; then the message of a second run comes, which takes the lock and sets the instance
running. -/
def takenBehindReaper : List Action :=
  [Action.outside (.send 0), .takeMessage 0 0] ++ runs 0 4 ++ [Action.startReap 0, .act 1 (.reap (.scan [0]))] ++
    runs 0 9 ++ reaps 1 1 ++ [Action.outside (.send 0), .takeMessage 0 0] ++ runs 2 3

/-- The reaper sets the instance back under the second run. Its handler returns, and the
instance is left pending, with no message that would bring it on. -/
theorem reaper_sets_back_running : ∃ triggers world next later,
    Reaches (step triggers) Undisturbed start world ∧
      step triggers world (.act 1 (.reap .proceed)) = some next ∧
      ¬ SparesRunning world next (.act 1 (.reap .proceed)) ∧
      Reaches (step triggers) Undisturbed next later ∧
      later.shared.instances 0 = some .pending ∧ later.shared.stream = [] := by
  have run : Reaches (step fun _ => pauses) Undisturbed start (pausedBy takenBehindReaper) :=
    reaches_of_perform takenBehindReaper (by decide +kernel) rfl
  have more : Reaches (step fun _ => pauses) Undisturbed
      (pausedBy (takenBehindReaper ++ reaps 1 1)) _ :=
    reaches_of_perform (runs 2 6) (by decide +kernel) rfl
  refine ⟨_, _, _, _, run, rfl, fun spares => ?_, more, rfl, rfl⟩
  have free := spares.reaper 1 .proceed rfl 0 rfl (by decide +kernel)
  exact absurd free (by decide +kernel)

end Notifkit.Workflow
