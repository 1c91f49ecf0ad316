import Notifkit.Workflow.Sequential

/-!
# A sleeping instance keeps its wake-up

A `wait` puts its wake-up time under a member of the timer set that names the instance
and nothing else. A poll that finds the member due publishes the resume first and removes
the member afterwards. In between, the resumed instance may come to its next `wait` and
put that wake-up time under the same member; then the removal takes it away, and nothing
is left to wake the instance.

Where every poll removes the member it claimed, no sleeper is stranded, for any handler
and in any interleaving of runs and polls.
-/

namespace Notifkit.Workflow

open Crowd Runs

variable {triggers : InstanceId → Trigger} {stores after : Stores} {me : Nat}

/-- An instance that is suspended in a `wait` whose time has not passed has its wake-up in
the timers, or a message about it is under way. -/
def SleepersWake (stores : Stores) : Prop :=
  ∀ instanceId row resumeAt, stores.instances instanceId = some .pending →
    (stores.steps instanceId).getLast? = some row → row.action = .wait →
    row.output = scheduledAt resumeAt → stores.clock < resumeAt →
      stores.timers.score (.sleep instanceId) = some resumeAt ∨ instanceId ∈ stores.stream

/-- The sleep timer a poll is about to remove, with the wake-ups `wait` had registered under
it when the poll claimed it. -/
def Role.removesSleep : Role → Option (InstanceId × List Nat)
  | .poll current =>
    match current.phase, current.tasks with
    | .removing, .sleep instanceId :: _ => some (instanceId, current.since (.sleep instanceId))
    | _, _ => none
  | _ => none

/-- A poll removes the sleep timer it claimed: `wait` has not registered the instance anew
since, or the instance has ended. -/
def RemovesItsClaim (stores : Stores) (role : Role) : Prop :=
  ∀ removed ∈ role.removesSleep,
    stores.gone removed.1 = true ∨ stores.added (.sleep removed.1) = removed.2

instance (stores : Stores) (role : Role) : Decidable (RemovesItsClaim stores role) :=
  inferInstanceAs (Decidable (∀ _ ∈ _, _))

/-- The steps of runs and polls alone, without events for the waiters and without a reaper. -/
def Action.plain : Action → Bool
  | .takeEvent _ _ => false
  | action => action.reaperless

/-- The poll whose next command is executed in a step. -/
def Action.polls : Action → Option Nat
  | .act index (.poll .proceed) => some index
  | _ => none

/-- A step of runs and polls in which every poll removes what it claimed. -/
def KeepsSleepers (world : World) (action : Action) : Prop :=
  action.plain = true ∧
    ∀ index ∈ action.polls, ∀ agent ∈ world.actors[index]?, RemovesItsClaim world.shared agent.role

instance (world : World) (action : Action) : Decidable (KeepsSleepers world action) :=
  inferInstanceAs (Decidable (_ ∧ _))

/-- The wake-up time `wait` registered last for an instance. -/
def Stores.nap (stores : Stores) (instanceId : InstanceId) : Option Nat :=
  (stores.added (.sleep instanceId)).head?

/-- A row of an instance agrees with the timers: a wake-up to come is the last one
registered, and without events a `waitForEvent` can only have timed out. -/
structure StepRow.Agrees (stores : Stores) (instanceId : InstanceId) (row : StepRow) : Prop where
  wait : row.action = .wait → ∀ resumeAt, row.output = scheduledAt resumeAt →
    stores.clock < resumeAt → stores.nap instanceId = some resumeAt
  waitForEvent : row.action = .waitForEvent → row.output = .null ∨ row.output = timedOut

/-- The wake-up registered last is in the timers until its time has come. -/
structure Stores.Sleepers (stores : Stores) : Prop where
  timers : ∀ instanceId resumeAt, stores.nap instanceId = some resumeAt →
    stores.gone instanceId = false → stores.clock < resumeAt →
      stores.timers.score (.sleep instanceId) = some resumeAt
  rows : ∀ instanceId, ∀ row ∈ stores.steps instanceId, row.Agrees stores instanceId
  unborn : ∀ instanceId, stores.instances instanceId = none → stores.added (.sleep instanceId) = []

/-- What a run knows of the row it is about to insert. -/
structure Run.Sleeps (stores : Stores) (run : Run) : Prop where
  wait : ∀ duration output resumeAt,
    run.phase = .stepping (.wait duration) (.recording output resumeAt) →
      output = scheduledAt resumeAt ∧ stores.nap run.instanceId = some resumeAt
  waitForEvent : ∀ eventName options output resumeAt,
    run.phase = .stepping (.waitForEvent eventName options) (.recording output resumeAt) →
      output = .null

/-- What a poll knows of its tasks: a sleep timer it claimed was due, and still is unless
`wait` registered the instance anew; the step it records a timeout for waits for an event. -/
structure Poll.Sleeps (stores : Stores) (poll : Poll) : Prop where
  due : ∀ instanceId, .sleep instanceId ∈ poll.tasks →
    stores.gone instanceId = true ∨
      poll.since (.sleep instanceId) ≠ stores.added (.sleep instanceId) ∨
      ∀ resumeAt, stores.nap instanceId = some resumeAt → resumeAt ≤ stores.clock
  since : ∀ instanceId,
    (poll.since (.sleep instanceId)).length ≤ (stores.added (.sleep instanceId)).length
  awaits : ∀ instanceId stepIndex output, poll.writes = some (instanceId, stepIndex, output) →
    output = timedOut ∧ ∃ row, (stores.steps instanceId)[stepIndex]? = some row ∧
      row.action = .waitForEvent

/-- What an actor knows of the sleepers; there is no event task and no reaper. -/
def Agent.Sleeps (_ : Nat) (agent : Option Agent) (stores : Stores) : Prop :=
  ∀ process role, agent = some ⟨process, role⟩ →
    match role with
    | .run run => process ∉ stores.dead → run.Sleeps stores
    | .poll poll => poll.Sleeps stores
    | .task _ | .reap _ => False

/-- What the others see of a move: a wake-up is registered by the run of its instance only,
and an instance that has ended does not begin again. -/
structure SleepKeeps (mover : Option Nat) (stores after : Stores) : Prop extends
    Keeps mover stores after where
  naps : ∀ instanceId, after.added (.sleep instanceId) = stores.added (.sleep instanceId) ∨
    ∃ owner resumeAt, mover = some owner ∧ stores.runner instanceId = some owner ∧
      after.added (.sleep instanceId) = resumeAt :: stores.added (.sleep instanceId)
  gone : ∀ instanceId, stores.gone instanceId = true → after.gone instanceId = true ∨
    stores.instances instanceId = none

/-- A run's row is not touched by others. -/
theorem SleepKeeps.run {mover : Option Nat} (keeps : SleepKeeps mover stores after) {run : Run}
    (apart : mover ≠ some me) (owns : run.Owns me stores) (sleeps : run.Sleeps stores) :
    run.Sleeps after := by
  refine ⟨fun duration output resumeAt phase => ?_, sleeps.waitForEvent⟩
  have runs := owns (by simp [phase, RunPhase.outer])
  obtain ⟨shape, nap⟩ := sleeps.wait duration output resumeAt phase
  refine ⟨shape, ?_⟩
  rcases keeps.naps run.instanceId with same | ⟨owner, _, moves, owned, _⟩
  · rw [Stores.nap, same]
    exact nap
  · have same : owner = me := Option.some.inj (owned.symm.trans runs)
    exact absurd (same ▸ moves) apart

/-- A poll's knowledge survives every move, its own included. -/
theorem SleepKeeps.poll {mover : Option Nat} (keeps : SleepKeeps mover stores after) {poll : Poll}
    (sleepers : stores.Sleepers) (sleeps : poll.Sleeps stores) : poll.Sleeps after := by
  refine ⟨fun instanceId member => ?_, fun instanceId => ?_, fun instanceId stepIndex output writes => ?_⟩
  · rcases keeps.naps instanceId with same | ⟨_, resumeAt, _, _, more⟩
    · rcases sleeps.due instanceId member with gone | differs | due
      · rcases keeps.gone instanceId gone with still | unborn
        · exact .inl still
        · refine .inr (.inr fun resumeAt nap => ?_)
          simp [Stores.nap, same, sleepers.unborn instanceId unborn] at nap
      · exact .inr (.inl (same ▸ differs))
      · refine .inr (.inr fun resumeAt nap => ?_)
        rw [Stores.nap, same] at nap
        exact Nat.le_trans (due resumeAt nap) keeps.clock
    · refine .inr (.inl fun unchanged => ?_)
      have longer := sleeps.since instanceId
      rw [unchanged, more, List.length_cons] at longer
      omega
  · rcases keeps.naps instanceId with same | ⟨_, resumeAt, _, _, more⟩
    · rw [same]
      exact sleeps.since instanceId
    · rw [more, List.length_cons]
      exact Nat.le_succ_of_le (sleeps.since instanceId)
  · obtain ⟨shape, row, present, kind⟩ := sleeps.awaits instanceId stepIndex output writes
    refine ⟨shape, ?_⟩
    rcases keeps.rows instanceId with extended | ⟨_, _, _, _, added⟩
    · obtain ⟨later, found, extends'⟩ := extended.row present
      exact ⟨later, found, extends'.action.trans kind⟩
    · exact ⟨row, by rw [added]; exact Tables.row_append.mpr (.inl present), kind⟩

/-- What one actor knows is not lost by a move of another. -/
theorem SleepKeeps.agent {mover : Option Nat} (keeps : SleepKeeps mover stores after)
    (dead : LeavesDead stores after) (sleepers : stores.Sleepers) {other : Nat}
    (apart : mover ≠ some other) {agent : Option Agent} (owns : Agent.Owns other agent stores)
    (sleeps : Agent.Sleeps other agent stores) : Agent.Sleeps other agent after := by
  rintro process role rfl
  have known := sleeps process role rfl
  cases role with
  | run run =>
    intro alive
    have before : process ∉ stores.dead := fun was => alive (dead process was)
    exact keeps.run apart (owns run ⟨process, rfl, before⟩) (known before)
  | poll poll => exact keeps.poll sleepers known
  | task => exact known
  | reap => exact known

/-- A change after which the wake-ups are the same: the timers keep those to come, and the
rows agree. -/
structure NapsKept (stores after : Stores) : Prop where
  clock : stores.clock ≤ after.clock
  added : ∀ instanceId, after.added (.sleep instanceId) = stores.added (.sleep instanceId)
  timers : ∀ instanceId resumeAt, stores.nap instanceId = some resumeAt →
    after.gone instanceId = false → after.clock < resumeAt →
    stores.timers.score (.sleep instanceId) = some resumeAt →
      after.timers.score (.sleep instanceId) = some resumeAt
  rows : ∀ instanceId, ∀ row ∈ after.steps instanceId,
    row ∈ stores.steps instanceId ∨ row.Agrees after instanceId
  gone : ∀ instanceId, stores.gone instanceId = true → after.gone instanceId = true ∨
    stores.instances instanceId = none
  present : ∀ instanceId, stores.instances instanceId ≠ none → after.instances instanceId ≠ none

/-- The wake-ups to come stay registered. -/
theorem NapsKept.sleepers (kept : NapsKept stores after) (sleepers : stores.Sleepers) :
    after.Sleepers := by
  have nap : ∀ instanceId, after.nap instanceId = stores.nap instanceId := by
    intro instanceId
    rw [Stores.nap, kept.added, Stores.nap]
  refine ⟨fun instanceId resumeAt registered alive early => ?_, fun instanceId row member => ?_,
    fun instanceId unborn => ?_⟩
  · rw [nap] at registered
    refine kept.timers instanceId resumeAt registered alive early ?_
    have earlier := Nat.lt_of_le_of_lt kept.clock early
    refine sleepers.timers instanceId resumeAt registered ?_ earlier
    cases was : stores.gone instanceId with
    | false => rfl
    | true =>
      rcases kept.gone instanceId was with still | unborn
      · rw [alive] at still
        cases still
      · simp [Stores.nap, sleepers.unborn instanceId unborn] at registered
  · rcases kept.rows instanceId row member with old | fresh
    · have agrees := sleepers.rows instanceId row old
      refine ⟨fun kind resumeAt shape early => ?_, agrees.waitForEvent⟩
      rw [nap]
      exact agrees.wait kind resumeAt shape (Nat.lt_of_le_of_lt kept.clock early)
    · exact fresh
  · rw [kept.added]
    refine sleepers.unborn instanceId ?_
    by_contra there
    exact kept.present instanceId there unborn

theorem NapsKept.keeps {mover : Option Nat} (kept : NapsKept stores after)
    (keeps : Keeps mover stores after) : SleepKeeps mover stores after :=
  { keeps with naps := fun instanceId => .inl (kept.added instanceId), gone := kept.gone }

/-- Nothing a sleeper depends on changed. -/
theorem NapsKept.of_same (clock : after.clock = stores.clock)
    (added : ∀ instanceId, after.added (.sleep instanceId) = stores.added (.sleep instanceId))
    (timers : ∀ instanceId, after.timers.score (.sleep instanceId) =
      stores.timers.score (.sleep instanceId))
    (steps : after.steps = stores.steps) (instances : after.instances = stores.instances) :
    NapsKept stores after where
  clock := Nat.le_of_eq clock.symm
  added := added
  timers _ _ _ _ _ score := (timers _).trans score
  rows _ _ member := .inl (by rwa [steps] at member)
  gone instanceId gone := .inl (by rw [Stores.gone, instances]; exact gone)
  present _ there := instances ▸ there

/-- Whether an instance has ended, after a status was set. -/
theorem Stores.setStatus_gone (stores : Stores) (instanceId other : InstanceId) (status : Status) :
    (stores.setStatus instanceId status).gone other =
      if other = instanceId then
        match status with
        | .pending | .running => false
        | _ => true
      else stores.gone other := by
  by_cases same : other = instanceId
  · cases status <;> simp [Stores.gone, Stores.setStatus, same]
  · simp [Stores.gone, Stores.setStatus, same]

/-- A `wait` row tells its wake-up time. -/
theorem scheduledAt_inj {first second : Nat} (same : scheduledAt first = scheduledAt second) :
    first = second := by
  simpa [scheduledAt, Rat.natCast_inj] using same

/-- A move that changes no row and no wake-up, or adds a row that agrees. -/
theorem NapsKept.sleeps {later : Run} (kept : NapsKept stores after)
    (keeps : Keeps (some me) stores after) (sleepers : stores.Sleepers)
    (sleeps : later.Sleeps after) :
    after.Sleepers ∧ later.Sleeps after ∧ SleepKeeps (some me) stores after :=
  ⟨kept.sleepers sleepers, sleeps, kept.keeps keeps⟩

/-- A run that is not about to insert a row knows nothing of it. -/
theorem Run.Sleeps.of_phase {run : Run}
    (other : ∀ call output resumeAt,
      run.phase ≠ .stepping call (.recording output resumeAt) := by rintro _ _ _ ⟨⟩) :
    run.Sleeps stores :=
  ⟨fun _ _ _ phase => absurd phase (other _ _ _), fun _ _ _ _ phase => absurd phase (other _ _ _)⟩

/-- No wake-up of a run at a new step is still to come. -/
theorem Run.Replays.awake {run : Run} (replays : run.Replays stores)
    (bound : run.seen.length ≤ run.stepId) {row : StepRow} {resumeAt : Nat}
    (member : row ∈ stores.steps run.instanceId) (kind : row.action = .wait)
    (shape : row.output = scheduledAt resumeAt) : resumeAt ≤ stores.clock := by
  obtain ⟨value, answered⟩ := answer_of_answers (replays.all bound).2 member
  rw [StepRow.answer, kind, shape, recall_scheduledAt] at answered
  exact Nat.le_of_not_lt (Option.ite_none_left_eq_some.mp answered).1

/-- A change that leaves the sleepers' part of the stores as it is. -/
theorem NapsKept.refl (stores : Stores) : NapsKept stores stores :=
  .of_same rfl (fun _ => rfl) (fun _ => rfl) rfl rfl

theorem SameRows.napsKept (same : SameRows stores after) : NapsKept stores after :=
  .of_same same.clock (fun _ => by rw [same.added]) (fun _ => same.timers _ (by simp)) same.steps
    same.instances

/-- A move of a run keeps the wake-ups registered. -/
theorem RunMove.sleeps {run later : Run} (owned : stores.Owned) (owns : run.Owns me stores)
    (conforms : stores.Conforms triggers) (knows : run.Knows triggers stores)
    (sleepers : stores.Sleepers) (sleeps : run.Sleeps stores)
    (move : RunMove triggers me stores run after later) :
    after.Sleepers ∧ later.Sleeps after ∧ SleepKeeps (some me) stores after := by
  have keeps := (move.sequential owns conforms knows).2.2
  cases move with
  | @outer _ phase was outer same =>
    refine same.napsKept.sleeps keeps sleepers (.of_phase fun _ _ _ is => ?_)
    simp [Run.goto] at is
    simp [is, RunPhase.outer] at outer
  | @giveUp phase inner outer =>
    refine NapsKept.sleeps (.of_same rfl (fun _ => rfl) (fun _ => rfl) rfl rfl) keeps sleepers
      (.of_phase fun _ _ _ is => ?_)
    simp [Run.goto] at is
    simp [is, RunPhase.outer] at outer
  | renew same =>
    refine same.napsKept.sleeps keeps sleepers
      ⟨fun duration output resumeAt phase => ?_, sleeps.waitForEvent⟩
    rw [Stores.nap, same.added]
    exact sleeps.wait duration output resumeAt phase
  | insert phase missing =>
    refine NapsKept.sleeps ⟨Nat.le_refl _, fun _ => rfl, fun _ _ _ _ _ score => score,
      fun _ _ member => .inl member, fun instanceId gone => ?_, Stores.setStatus_present _ _ _⟩
      keeps sleepers .of_phase
    by_cases same : instanceId = run.instanceId
    · exact .inr (same ▸ missing)
    · exact .inl (by rwa [Stores.setStatus_gone, if_neg same])
  | claim phase pending =>
    refine NapsKept.sleeps ⟨Nat.le_refl _, fun _ => rfl, fun _ _ _ _ _ score => score,
      fun _ _ member => .inl member, fun instanceId gone => .inl ?_, Stores.setStatus_present _ _ _⟩
      keeps sleepers .of_phase
    have apart : instanceId ≠ run.instanceId := by
      rintro rfl
      simp [Stores.gone, pending] at gone
    exact (Stores.setStatus_gone _ _ _ _).trans (by rwa [if_neg apart])
  | load phase => exact (NapsKept.refl stores).sleeps keeps sleepers .of_phase
  | returns phase asks => exact (NapsKept.refl stores).sleeps keeps sleepers .of_phase
  | throws inner => exact (NapsKept.refl stores).sleeps keeps sleepers .of_phase
  | suspend phase asks found silent =>
    exact (NapsKept.refl stores).sleeps keeps sleepers .of_phase
  | recollect phase asks found answer =>
    refine (NapsKept.refl stores).sleeps keeps sleepers (.of_phase fun _ _ _ other => ?_)
    simp [phase] at other
  | «meet» phase asks absent => exact (NapsKept.refl stores).sleeps keeps sleepers .of_phase
  | clear phase alive => exact (NapsKept.refl stores).sleeps keeps sleepers .of_phase
  | schedule phase => exact (NapsKept.refl stores).sleeps keeps sleepers .of_phase
  | @perform call output phase kind =>
    refine NapsKept.sleeps (.of_same rfl (fun _ => rfl) (fun _ => rfl) rfl rfl) keeps sleepers
      ⟨fun _ _ _ is => ?_, fun _ _ _ _ is => ?_⟩
    · obtain ⟨same, _⟩ := RunPhase.stepping.inj is
      rcases kind with rfl | rfl <;> cases same
    · obtain ⟨same, _⟩ := RunPhase.stepping.inj is
      rcases kind with rfl | rfl <;> cases same
  | @armWait duration resumeAt phase =>
    have runs := owns (by simp [phase, RunPhase.outer])
    obtain ⟨replays, bound, _⟩ := knows.steps _ _ phase
    have added : ∀ instanceId, (stores.addTimer resumeAt (.sleep run.instanceId)).added
        (.sleep instanceId) = if instanceId = run.instanceId then
          resumeAt :: stores.added (.sleep run.instanceId) else stores.added (.sleep instanceId) := by
      intro instanceId
      simp [Stores.addTimer, Function.update_apply]
    refine ⟨⟨fun instanceId wakeAt nap alive early => ?_, fun instanceId row member => ?_,
      fun instanceId unborn => ?_⟩, ⟨fun _ _ _ is => ?_, fun _ _ _ _ other => by cases other⟩,
      { keeps with
        naps := fun instanceId => ?_
        gone := fun _ gone => .inl gone }⟩
    · by_cases same : instanceId = run.instanceId
      · subst same
        rw [Stores.nap, added, if_pos rfl, List.head?_cons] at nap
        simpa [Stores.addTimer] using nap
      · rw [Stores.nap, added, if_neg same] at nap
        simpa [Stores.addTimer, same] using sleepers.timers instanceId wakeAt nap alive early
    · have agrees := sleepers.rows instanceId row member
      refine ⟨fun kind wakeAt shape early => ?_, agrees.waitForEvent⟩
      by_cases same : instanceId = run.instanceId
      · subst same
        -- The run has come past every earlier wait.
        exact absurd (replays.awake bound member kind shape) (Nat.not_le_of_lt early)
      · rw [Stores.nap, added, if_neg same]
        exact agrees.wait kind wakeAt shape early
    · have apart : instanceId ≠ run.instanceId := by
        rintro rfl
        obtain ⟨status, is, _⟩ := owned.idle run.instanceId (by simp [runs])
        have unborn : stores.instances run.instanceId = none := unborn
        simp [is] at unborn
      rw [added, if_neg apart]
      exact sleepers.unborn instanceId unborn
    · obtain ⟨_, same⟩ := RunPhase.stepping.inj is
      obtain ⟨rfl, rfl⟩ := StepStage.recording.inj same
      exact ⟨rfl, by simp [Stores.nap, Run.goto, added]⟩
    · by_cases same : instanceId = run.instanceId
      · subst same
        exact .inr ⟨me, resumeAt, rfl, runs, by rw [added, if_pos rfl]⟩
      · exact .inl (by rw [added, if_neg same])
  | @armTimeout eventName options resumeAt phase =>
    refine NapsKept.sleeps (.of_same rfl (fun _ => by simp [Stores.addTimer])
      (fun _ => by simp [Stores.addTimer]) rfl rfl) keeps sleepers
      ⟨(fun _ _ _ other => by cases other), fun _ _ _ _ is => ?_⟩
    obtain ⟨_, same⟩ := RunPhase.stepping.inj is
    exact (StepStage.recording.inj same).1.symm
  | @recordResult call output resumeAt phase kind fresh =>
    refine NapsKept.sleeps ⟨Nat.le_refl _, fun _ => rfl, fun _ _ _ _ _ score => score,
      fun instanceId row member => ?_, fun _ gone => .inl gone, fun _ there => there⟩
      keeps sleepers .of_phase
    rcases mem_insertStep member with old | ⟨_, rfl⟩
    · exact .inl old
    · right
      rcases kind with rfl | rfl <;>
        exact ⟨(fun other => by cases other), fun other => by cases other⟩
  | @recordWait duration output resumeAt phase fresh =>
    obtain ⟨shape, nap⟩ := sleeps.wait _ _ _ phase
    refine NapsKept.sleeps ⟨Nat.le_refl _, fun _ => rfl, fun _ _ _ _ _ score => score,
      fun instanceId row member => ?_, fun _ gone => .inl gone, fun _ there => there⟩
      keeps sleepers .of_phase
    rcases mem_insertStep member with old | ⟨rfl, rfl⟩
    · exact .inl old
    · refine .inr ⟨fun _ wakeAt same _ => ?_, fun other => by cases other⟩
      have wakesThen : resumeAt = wakeAt := scheduledAt_inj (shape.symm.trans same)
      exact wakesThen ▸ nap
  | @recordPending eventName options output resumeAt phase fresh =>
    refine NapsKept.sleeps ⟨Nat.le_refl _, fun _ => rfl, fun _ _ _ _ _ score => score,
      fun instanceId row member => ?_, fun _ gone => .inl gone, fun _ there => there⟩
      keeps sleepers .of_phase
    rcases mem_insertStep member with old | ⟨_, rfl⟩
    · exact .inl old
    · exact .inr ⟨(fun other => by cases other), fun _ => .inl (sleeps.waitForEvent _ _ _ _ phase)⟩
  | register phase =>
    exact NapsKept.sleeps (.of_same rfl (fun _ => rfl) (fun _ => rfl) rfl rfl) keeps sleepers
      .of_phase
  | @finish status phase =>
    refine NapsKept.sleeps ⟨Nat.le_refl _, fun _ => rfl, fun _ _ _ _ _ score => score,
      fun _ _ member => .inl member, fun instanceId gone => .inl ?_, Run.finish_present _ _ _⟩
      keeps sleepers .of_phase
    rw [Stores.gone, Run.finish_instances, if_neg]
    · exact gone
    · rintro ⟨rfl, running⟩
      simp [Stores.gone, running] at gone

/-- A poll with some of its tasks still to do, and no timeout to record, knows no less. -/
theorem Poll.Sleeps.fewer {poll later : Poll} (sleeps : poll.Sleeps stores)
    (tasks : ∀ task ∈ later.tasks, task ∈ poll.tasks) (since : later.since = poll.since)
    (idle : later.writes = none) : later.Sleeps stores := by
  refine ⟨fun instanceId member => ?_, fun instanceId => ?_, fun _ _ _ writes => ?_⟩
  · rw [since]
    exact sleeps.due instanceId (tasks _ member)
  · rw [since]
    exact sleeps.since instanceId
  · rw [idle] at writes
    cases writes

/-- The timeout a poll records goes to an empty `waitForEvent`, or is there already. -/
theorem Poll.Sleeps.writesOnce {poll : Poll} (conforms : stores.Conforms triggers)
    (sleepers : stores.Sleepers) (sleeps : poll.Sleeps stores) :
    (Role.poll poll).WritesOnce stores := by
  intro instanceId stepIndex output writes row member index
  obtain ⟨rfl, other, present, kind⟩ := sleeps.awaits instanceId stepIndex output writes
  have found := conforms.place member
  rw [index, present] at found
  obtain rfl : other = row := Option.some.inj found
  rcases (sleepers.rows instanceId other member).waitForEvent kind with empty | isOver
  · exact .inl ⟨kind, empty⟩
  · exact .inr isOver

/-- A member that a poll claims is no wake-up to come. -/
theorem Stores.Sleepers.due (sleepers : stores.Sleepers) {now : Nat} {tasks : List Member}
    (early : now ≤ stores.clock)
    (due : ∀ task ∈ tasks, ∃ score ∈ stores.timers.score task, score ≤ now)
    {instanceId : InstanceId} (claimed : .sleep instanceId ∈ tasks)
    (alive : stores.gone instanceId = false) {resumeAt : Nat}
    (nap : stores.nap instanceId = some resumeAt) : resumeAt ≤ stores.clock := by
  by_contra later
  have score := sleepers.timers instanceId resumeAt nap alive (Nat.lt_of_not_le later)
  obtain ⟨other, found, past⟩ := due _ claimed
  rw [score] at found
  obtain rfl := Option.some.inj found
  exact later (Nat.le_trans past early)

/-- Moves of a poll that leave the stores' part about sleepers as it is. -/
theorem NapsKept.polls {poll later : Poll} (kept : NapsKept stores after)
    (beside : Beside stores after) (sleepers : stores.Sleepers) (sleeps : poll.Sleeps stores)
    (tasks : ∀ task ∈ later.tasks, task ∈ poll.tasks) (since : later.since = poll.since)
    (idle : later.writes = none) :
    after.Sleepers ∧ later.Sleeps after ∧ SleepKeeps (some me) stores after := by
  have keeps := kept.keeps (beside.keeps (some me))
  exact ⟨kept.sleepers sleepers, keeps.poll sleepers (sleeps.fewer tasks since idle), keeps⟩

/-- A move of a poll that removes what it claimed keeps the wake-ups registered. -/
theorem PollMove.sleeps {poll later : Poll} {choice : PollChoice}
    (conforms : stores.Conforms triggers) (sleepers : stores.Sleepers) (sleeps : poll.Sleeps stores)
    (removes : choice = .proceed → RemovesItsClaim stores (.poll poll))
    (move : PollMove me stores poll choice after later) :
    after.Sleepers ∧ later.Sleeps after ∧ SleepKeeps (some me) stores after := by
  have beside := move.beside (sleeps.writesOnce conforms sleepers)
  have unchanged := NapsKept.refl stores
  cases move with
  | @claim now tasks phase early due =>
    have kept : NapsKept stores { stores with
        timers := stores.timers.rescore tasks (now + WORKFLOW_TIMER_VISIBILITY_MS) } := by
      refine ⟨Nat.le_refl _, fun _ => rfl, fun instanceId resumeAt nap alive early' score => ?_,
        fun _ _ member => .inl member, fun _ gone => .inl gone, fun _ there => there⟩
      have unclaimed : .sleep instanceId ∉ tasks := fun claimed =>
        absurd (sleepers.due early due claimed alive nap) (Nat.not_le_of_lt early')
      simpa [unclaimed] using score
    refine ⟨kept.sleepers sleepers, ⟨fun instanceId claimed => ?_, fun _ => Nat.le_refl _,
      fun _ _ _ other => by cases other⟩, kept.keeps (beside.keeps _)⟩
    cases gone : stores.gone instanceId with
    | true => exact .inl gone
    | false => exact .inr (.inr fun _ nap => sleepers.due early due claimed gone nap)
  | skip =>
    exact unchanged.polls beside sleepers sleeps (fun _ => List.mem_of_mem_tail) rfl rfl
  | abandon failed =>
    exact NapsKept.polls (.of_same rfl (fun _ => rfl) (fun _ => rfl) rfl rfl) beside sleepers sleeps
      (fun _ other => by cases other) rfl rfl
  | gone phase first gone =>
    exact unchanged.polls beside sleepers sleeps (fun _ member => member) rfl rfl
  | checkOwn phase first pending =>
    exact unchanged.polls beside sleepers sleeps (fun _ member => member) rfl rfl
  | «anyStep» phase first =>
    exact unchanged.polls beside sleepers sleeps (fun _ member => member) rfl rfl
  | resume phase first plain =>
    exact unchanged.polls beside sleepers sleeps (fun _ member => member) rfl rfl
  | stale phase first isOver =>
    exact unchanged.polls beside sleepers sleeps (fun _ member => member) rfl rfl
  | own phase first found empty =>
    exact unchanged.polls beside sleepers sleeps (fun _ member => member) rfl rfl
  | noWaiter phase first none =>
    exact unchanged.polls beside sleepers sleeps (fun _ member => member) rfl rfl
  | deleteWaiters taken phase first =>
    exact NapsKept.polls (.of_same rfl (fun _ => rfl) (fun _ => rfl) rfl rfl) beside sleepers sleeps
      (fun _ member => member) rfl rfl
  | @found instanceId eventName stepId stepIndex rest taken phase first awaits own =>
    refine ⟨sleepers, ⟨sleeps.due, sleeps.since, fun _ _ _ writes => ?_⟩,
      unchanged.keeps (beside.keeps _)⟩
    simp only [Poll.writes, Poll.goto, first, Option.some.injEq, Prod.mk.injEq] at writes
    obtain ⟨rfl, rfl, rfl⟩ := writes
    obtain ⟨row, member, holds⟩ := List.any_eq_true.mp awaits
    simp only [StepRow.awaits, Bool.and_eq_true, decide_eq_true_eq] at holds
    obtain ⟨rfl, kind, _⟩ := holds
    exact ⟨rfl, row, conforms.place member, kind⟩
  | nothingAwaits phase first isOver =>
    exact NapsKept.polls (.of_same rfl (fun _ => rfl) (fun _ => rfl) rfl rfl) beside sleepers sleeps
      (fun _ member => member) rfl rfl
  | @record instanceId eventName stepId stepIndex rest phase first =>
    have agrees : ∀ other, ∀ row ∈ (stores.answerStep instanceId stepIndex timedOut).steps other,
        row ∈ stores.steps other ∨ row.action = .waitForEvent ∧ row.output = timedOut := by
      intro other row member
      rcases mem_answerStep member with old | ⟨rfl, old, was, index, rfl⟩
      · exact .inl old
      · obtain ⟨_, awaiting, present, kind⟩ := sleeps.awaits other stepIndex timedOut
          (by simp [Poll.writes, phase, first])
        have found := conforms.place was
        rw [index, present] at found
        obtain rfl : awaiting = old := Option.some.inj found
        exact .inr ⟨kind, rfl⟩
    refine NapsKept.polls ?_ beside sleepers sleeps (fun _ member => member) rfl rfl
    refine ⟨Nat.le_refl _, fun _ => rfl, fun _ _ _ _ _ score => score, ?_,
      fun _ gone => .inl gone, fun _ there => there⟩
    intro other row member
    refine (agrees other row member).imp_right ?_
    rintro ⟨kind, isOver⟩
    exact ⟨fun wait => by simp [kind] at wait, fun _ => .inr isOver⟩
  | publish phase first =>
    exact NapsKept.polls (.of_same rfl (fun _ => rfl) (fun _ => rfl) rfl rfl) beside sleepers sleeps
      (fun _ member => member) rfl rfl
  | @remove task rest taken phase first =>
    refine NapsKept.polls ?_ beside sleepers sleeps (fun _ => List.mem_of_mem_tail) rfl rfl
    refine ⟨Nat.le_refl _, fun _ => rfl, fun instanceId resumeAt nap alive early score => ?_,
      fun _ _ member => .inl member, fun _ gone => .inl gone, fun _ there => there⟩
    have apart : Member.sleep instanceId ≠ task := by
      rintro rfl
      have claimed := sleeps.due instanceId (by simp [first])
      have alive : stores.gone instanceId = false := alive
      have claim := removes taken (instanceId, poll.since (.sleep instanceId)) (by
        simp [Role.removesSleep, phase, first])
      rcases claimed with gone | differs | due
      · simp [alive] at gone
      · rcases claim with gone | same
        · simp [alive] at gone
        · exact differs same.symm
      · exact absurd (due resumeAt nap) (Nat.not_le_of_lt early)
    simpa [apart] using score

/-- What happens outside the services takes no wake-up away. -/
theorem OutsideFrame.napsKept (frame : OutsideFrame stores after) : NapsKept stores after := by
  refine ⟨frame.clock, fun _ => by rw [frame.added], fun _ _ _ _ _ score => frame.timers ▸ score,
    fun _ _ member => .inl (by rwa [frame.steps] at member), fun instanceId gone => .inl ?_,
    fun _ => frame.present⟩
  rcases frame.instances instanceId with same | ⟨canceled, _⟩
  · rw [Stores.gone, same]
    exact gone
  · simp [Stores.gone, canceled]

/-- The wake-ups to come are registered, and everybody knows what it needs to keep them. -/
abbrev Sleepful : World → Prop := Crowd.Holds Stores.Sleepers Agent.Sleeps

/-- Without events, outputs are written once. -/
theorem sleepful_writesOnce {world : World} {action : Action} (sequential : Sequential triggers world)
    (sleepful : Sleepful world) : WritesOnce world action := by
  intro index choice agent _ present
  have sleeps := sleepful.actor index
  rw [present] at sleeps
  obtain ⟨process, role⟩ := agent
  have known := sleeps process role rfl
  cases role with
  | run run => exact nofun
  | poll poll => exact Poll.Sleeps.writesOnce sequential.shared sleepful.shared known
  | task => exact known.elim
  | reap => exact known.elim

/-- A move that keeps the wake-ups registered, and what the mover and the others know. -/
theorem AgentMove.sleeps {agent later : Agent} {choice : Choice} (owned : stores.Owned)
    (alive : agent.process ∉ stores.dead) (owns : Agent.Owns me (some agent) stores)
    (conforms : stores.Conforms triggers) (knows : Agent.Knows triggers me (some agent) stores)
    (sleepers : stores.Sleepers) (sleeps : Agent.Sleeps me (some agent) stores)
    (removes : choice = .poll .proceed → RemovesItsClaim stores agent.role)
    (move : AgentMove triggers me stores agent.role choice after later.role) :
    after.Sleepers ∧ Agent.Sleeps me (some later) after ∧ SleepKeeps (some me) stores after := by
  obtain ⟨process, role⟩ := agent
  obtain ⟨process', role'⟩ := later
  have known := sleeps process role rfl
  cases move with
  | @run run _ _ _ move =>
    have living : LivingRun stores (some ⟨process, .run run⟩) run := ⟨process, rfl, alive⟩
    obtain ⟨sleepers', sleeps', keeps⟩ :=
      move.sleeps owned (owns _ living) conforms (knows _ living) sleepers (known alive)
    refine ⟨sleepers', fun _ _ same => ?_, keeps⟩
    cases same
    exact fun _ => sleeps'
  | poll move =>
    obtain ⟨sleepers', sleeps', keeps⟩ := move.sleeps conforms sleepers known
      fun taken => removes (by rw [taken])
    refine ⟨sleepers', fun _ _ same => ?_, keeps⟩
    cases same
    exact sleeps'
  | task => exact known.elim
  | reap => exact known.elim

/-- A step of runs and polls in which every poll removes what it claimed keeps the wake-ups
registered. -/
theorem sleepful_step {world next : World} {action : Action} (owned : Owned world)
    (sequential : Sequential triggers world) (sleepful : Sleepful world)
    (kept : KeepsSleepers world action) (taken : step triggers world action = some next) :
    Sleepful next := by
  obtain ⟨plain, removes⟩ := kept
  refine holds_step sleepful taken ?_ ?_ ?_
  · rintro index choice rfl agent later shared present alive _ move
    have owns := owned.actor index
    have knows := sequential.actor index
    have sleeps := sleepful.actor index
    rw [present] at owns knows sleeps
    have claims : choice = .poll .proceed → RemovesItsClaim world.shared agent.role := by
      rintro rfl
      exact removes index rfl agent present
    obtain ⟨sleepers, sleeps', keeps⟩ := move.sleeps owned.shared alive owns sequential.shared knows
      sleepful.shared sleeps claims
    have dead : LeavesDead world.shared shared := fun _ was => move.dead ▸ was
    refine ⟨sleepers, sleeps', fun other apart => ?_⟩
    exact keeps.agent dead sleepful.shared (fun same => apart (Option.some.inj same).symm)
      (owned.actor other)
  · intro agent starts _ process role same
    cases starts with
    | run =>
      cases same
      exact fun _ => .of_phase nofun
    | poll =>
      cases same
      exact ⟨nofun, fun _ => Nat.zero_le _, nofun⟩
    | reap => cases plain
    | task => cases plain
  · intro event shared _ changed
    have frame := outsideStep_frame changed
    have keeps := frame.napsKept.keeps (frame.beside.keeps none)
    exact ⟨frame.napsKept.sleepers sleepful.shared, fun other => keeps.agent frame.dead
      sleepful.shared (Option.some_ne_none other).symm (owned.actor other)⟩

/-- Nobody sleeps. -/
theorem sleepful_start : Sleepful start where
  shared := ⟨fun _ _ nap => (nomatch nap), fun _ _ member => (nomatch member), fun _ _ => rfl⟩
  actor _ := nofun

theorem Action.plain_reaperless {action : Action} (plain : action.plain = true) :
    action.reaperless = true := by
  cases action with
  | takeEvent => cases plain
  | _ => exact plain

/-- The rows follow the handlers, and the wake-ups to come are registered. -/
abbrev Rested (triggers : InstanceId → Trigger) (world : World) : Prop :=
  Sequential triggers world ∧ Sleepful world

/-- The invariants hold in every state a run of runs and polls reaches. -/
theorem rested_reached {world : World} (run : Reaches (step triggers) KeepsSleepers start world) :
    Rested triggers world := by
  have owned : ∀ reached, Reaches (step triggers) KeepsSleepers start reached → Owned reached :=
    fun _ reaches => owned_reached reaches fun _ _ kept => Action.reaperless_reapsLost (Action.plain_reaperless kept.1)
  refine run.invariant_given owned ⟨sequential_start, sleepful_start⟩ ?_
  rintro before action next owned ⟨sequential, sleepful⟩ kept taken
  have once : WritesOnce before action := sleepful_writesOnce sequential sleepful
  exact ⟨sequential_step owned sequential once taken,
    sleepful_step owned sequential sleepful kept taken⟩

/-- A handler that sleeps for a millisecond and then for an hour. -/
def naps : Trigger where
  projectId := 0
  handler
    | [] => .step (.wait ⟨some 1⟩)
    | [_] => .step (.wait ⟨some 3_600_000⟩)
    | _ => .returns

/-- The first nap is over, and a poll has published the resume. -/
def firstNap : List Action :=
  [Action.outside (.send 0), .takeMessage 0 0] ++ runs 0 13 ++
    [Action.outside (.tick 1), .startPoll 0, .act 1 (.poll (.claim 1 [.sleep 0]))] ++ polls 1 2

/-- The steps of runs and polls of which no command fails, and nobody cancels or dies. -/
def Action.undisturbed : Action → Bool
  | .act _ (.run .fail) | .act _ (.poll .fail) | .takeEvent _ _ | .startReap _
  | .outside (.cancel _) | .outside (.crash _) => false
  | _ => true

end Notifkit.Workflow
