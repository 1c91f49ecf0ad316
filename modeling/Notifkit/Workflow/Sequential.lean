import Notifkit.Workflow.Rows

/-!
# Every run replays one log

Only the run that set an instance running adds step rows to it. So the rows of an
instance are in order, each records the kind of step the handler asked for after the
answers of the rows before it, and a run that replays them meets the calls the rows were
made for.

This needs no lock. It needs that an output once written is not changed, which is a
condition on the actors that fill in outputs, and that no two living runs have one
instance.
-/

namespace Notifkit.Workflow

open Crowd

variable {triggers : InstanceId → Trigger} {stores after : Stores} {me : Nat}

/-- The handler asks for a step under an index, given the answers of the rows before it. -/
def Stores.Asked (triggers : InstanceId → Trigger) (stores : Stores) (instanceId : InstanceId)
    (stepIndex : StepIndex) (call : StepCall) : Prop :=
  stepIndex ≤ (stores.steps instanceId).length ∧ ∃ results,
    answers stores.clock ((stores.steps instanceId).take stepIndex) = some results ∧
      (triggers instanceId).handler results = .step call

/-- A handler asks for one step at a time. -/
theorem Stores.Asked.unique {instanceId : InstanceId} {stepIndex : StepIndex}
    {first second : StepCall} (one : stores.Asked triggers instanceId stepIndex first)
    (two : stores.Asked triggers instanceId stepIndex second) : first = second := by
  obtain ⟨_, results, answered, asksFirst⟩ := one
  obtain ⟨_, others, answered', asksSecond⟩ := two
  obtain rfl : results = others := Option.some.inj (answered.symm.trans answered')
  exact Call.step.inj (asksFirst.symm.trans asksSecond)

/-- The rows follow the handler. -/
structure Stores.Conforms (triggers : InstanceId → Trigger) (stores : Stores) : Prop where
  rows : ∀ instanceId (index : Nat) row, (stores.steps instanceId)[index]? = some row →
    row.stepIndex = index ∧
      ∃ call, stores.Asked triggers instanceId index call ∧ call.action = row.action

/-- A run in the handler: the rows it read are still there, its results are the answers of
the first rows, and there are no others. -/
structure Run.Replays (stores : Stores) (run : Run) : Prop where
  seen : Extended run.seen ((stores.steps run.instanceId).take run.seen.length)
  results : answers stores.clock ((stores.steps run.instanceId).take run.stepId) =
    some run.results
  rows : (stores.steps run.instanceId).length = max run.seen.length run.stepId

/-- What a run knows of the stores. -/
structure Run.Knows (triggers : InstanceId → Trigger) (stores : Stores) (run : Run) : Prop where
  calls : run.phase = .calling → run.Replays stores
  steps : ∀ call stage, run.phase = .stepping call stage → run.Replays stores ∧
    run.seen.length ≤ run.stepId ∧ (triggers run.instanceId).handler run.results = .step call
  registers : ∀ eventName matchCriteria expiresAt,
    run.phase = .registering eventName matchCriteria expiresAt →
      (stores.steps run.instanceId).length = run.stepId + 1 ∧ ∃ options : WaitOptions,
        options.matchCriteria = matchCriteria ∧
        stores.Asked triggers run.instanceId run.stepId (.waitForEvent eventName options)

/-- Outside the part between setting the instance running and giving it up, a run knows
nothing. -/
theorem Run.Knows.of_outer {run : Run} (outer : run.phase.outer) : run.Knows triggers stores where
  calls phase := by simp [phase, RunPhase.outer] at outer
  steps _ _ phase := by simp [phase, RunPhase.outer] at outer
  registers _ _ _ phase := by simp [phase, RunPhase.outer] at outer

/-- What the others see of a move: time passes, rows are filled in, and only the run of an
instance adds a row to it. -/
structure Keeps (mover : Option Nat) (stores after : Stores) : Prop where
  clock : stores.clock ≤ after.clock
  rows : ∀ instanceId, Extended (stores.steps instanceId) (after.steps instanceId) ∨
    ∃ owner row, mover = some owner ∧ stores.runner instanceId = some owner ∧
      after.steps instanceId = stores.steps instanceId ++ [row]

/-- What a handler asks for under an index stays as it is. -/
theorem Keeps.asked {mover : Option Nat} (keeps : Keeps mover stores after)
    {instanceId : InstanceId} {stepIndex : StepIndex} {call : StepCall}
    (asked : stores.Asked triggers instanceId stepIndex call) :
    after.Asked triggers instanceId stepIndex call := by
  obtain ⟨bound, results, answered, asks⟩ := asked
  rcases keeps.rows instanceId with extended | ⟨_, row, _, _, added⟩
  · refine ⟨extended.length_eq ▸ bound, results, ?_, asks⟩
    exact answers_extended (List.forall₂_take _ extended) keeps.clock answered
  · have longer : (stores.steps instanceId).length ≤ (after.steps instanceId).length := by
      rw [added, List.length_append]
      exact Nat.le_add_right _ _
    refine ⟨Nat.le_trans bound longer, results, ?_, asks⟩
    rw [added, List.take_append_of_le_length bound]
    exact answers_extended (.refl _) keeps.clock answered

/-- A run is not disturbed by what others do. -/
theorem Keeps.knows {mover : Option Nat} (keeps : Keeps mover stores after) {run : Run}
    (apart : mover ≠ some me) (owns : run.Owns me stores) (knows : run.Knows triggers stores) :
    run.Knows triggers after := by
  have extended : ¬ run.phase.outer →
      Extended (stores.steps run.instanceId) (after.steps run.instanceId) := by
    intro inner
    rcases keeps.rows run.instanceId with extended | ⟨owner, _, moves, runs, _⟩
    · exact extended
    · have same : owner = me := Option.some.inj (runs.symm.trans (owns inner))
      exact absurd (same ▸ moves) apart
  have replays : ¬ run.phase.outer → run.Replays stores → run.Replays after := by
    intro inner replays
    have rows := extended inner
    exact ⟨replays.seen.trans (List.forall₂_take _ rows),
      answers_extended (List.forall₂_take _ rows) keeps.clock replays.results,
      rows.length_eq ▸ replays.rows⟩
  refine ⟨fun phase => ?_, fun call stage phase => ?_, ?_⟩
  · exact replays (by simp [phase, RunPhase.outer]) (knows.calls phase)
  · obtain ⟨was, bound, asks⟩ := knows.steps call stage phase
    exact ⟨replays (by simp [phase, RunPhase.outer]) was, bound, asks⟩
  · intro eventName matchCriteria expiresAt phase
    obtain ⟨length, options, criteria, asked⟩ := knows.registers _ _ _ phase
    have rows := extended (by simp [phase, RunPhase.outer])
    exact ⟨rows.length_eq ▸ length, options, criteria, keeps.asked asked⟩

/-- A change that adds no row. -/
structure Beside (stores after : Stores) : Prop where
  clock : stores.clock ≤ after.clock
  rows : ∀ instanceId, Extended (stores.steps instanceId) (after.steps instanceId)

theorem Beside.keeps (beside : Beside stores after) (mover : Option Nat) :
    Keeps mover stores after :=
  ⟨beside.clock, fun instanceId => .inl (beside.rows instanceId)⟩

/-- The rows follow the handler still. -/
theorem Beside.conforms (beside : Beside stores after) (conforms : stores.Conforms triggers) :
    after.Conforms triggers := by
  refine ⟨fun instanceId index row present => ?_⟩
  obtain ⟨old, was, extends'⟩ := (beside.rows instanceId).rowBefore present
  obtain ⟨place, call, asked, kind⟩ := conforms.rows instanceId index old was
  rw [extends'.stepIndex, extends'.action]
  exact ⟨place, call, (beside.keeps none).asked asked, kind⟩

/-- Neither the time nor the rows changed. -/
theorem Beside.of_same (clock : after.clock = stores.clock) (steps : after.steps = stores.steps) :
    Beside stores after :=
  ⟨Nat.le_of_eq clock.symm, fun _ => steps ▸ .refl _⟩

theorem SameRows.beside (same : SameRows stores after) : Beside stores after :=
  .of_same same.clock same.steps

/-- In a replay, a row the run has read stands where its index says, in its later version. -/
theorem Run.Replays.found {run : Run} {row : StepRow} {stepIndex : StepIndex}
    (conforms : stores.Conforms triggers) (replays : run.Replays stores)
    (found : (run.seen.find? fun row => row.stepIndex = stepIndex) = some row) :
    stepIndex < run.seen.length ∧
      ∃ later, (stores.steps run.instanceId)[stepIndex]? = some later ∧ row.Extends later := by
  obtain ⟨position, seen⟩ := List.mem_iff_getElem?.mp (List.mem_of_find?_eq_some found)
  obtain ⟨later, present, extends'⟩ := replays.seen.row seen
  have inside : position < run.seen.length := (List.getElem?_eq_some_iff.mp seen).1
  rw [List.getElem?_take_of_lt inside] at present
  have index : row.stepIndex = stepIndex := by simpa using List.find?_some found
  have place := (conforms.rows run.instanceId position later present).1
  have same : position = stepIndex := by rw [← place, extends'.stepIndex, index]
  subst same
  exact ⟨inside, later, present, extends'⟩

/-- In a replay, a row the run has not read is not among those it has. -/
theorem Run.Replays.absent {run : Run} {stepIndex : StepIndex}
    (conforms : stores.Conforms triggers) (replays : run.Replays stores)
    (absent : (run.seen.find? fun row => row.stepIndex = stepIndex) = none) :
    run.seen.length ≤ stepIndex := by
  by_contra inside
  have seen := List.getElem?_eq_getElem (Nat.lt_of_not_le inside)
  obtain ⟨later, present, extends'⟩ := replays.seen.row seen
  rw [List.getElem?_take_of_lt (Nat.lt_of_not_le inside)] at present
  have place := (conforms.rows run.instanceId stepIndex later present).1
  have apart := List.find?_eq_none.mp absent _ (List.mem_of_getElem? seen)
  simp only [decide_eq_true_eq] at apart
  exact apart (extends'.stepIndex ▸ place)

/-- A run at a new step has an answer of every row. -/
theorem Run.Replays.all {run : Run} (replays : run.Replays stores)
    (bound : run.seen.length ≤ run.stepId) :
    (stores.steps run.instanceId).length = run.stepId ∧
      answers stores.clock (stores.steps run.instanceId) = some run.results := by
  have length : (stores.steps run.instanceId).length = run.stepId := by
    rw [replays.rows, Nat.max_eq_right bound]
  have results := replays.results
  rw [← length, List.take_length] at results
  exact ⟨length, results⟩

/-- Rows that conform are found by their index where it says. -/
theorem Stores.Conforms.place (conforms : stores.Conforms triggers) {instanceId : InstanceId}
    {row : StepRow} (member : row ∈ stores.steps instanceId) :
    (stores.steps instanceId)[row.stepIndex]? = some row := by
  obtain ⟨position, found⟩ := List.mem_iff_getElem?.mp member
  rw [(conforms.rows instanceId position row found).1]
  exact found

/-- A run records the step its handler asks for. -/
theorem Stores.Conforms.insert (conforms : stores.Conforms triggers) {run later : Run}
    {call : StepCall} {stage : StepStage} {output : Json} (owns : run.Owns me stores)
    (knows : run.Knows triggers stores) (phase : run.phase = .stepping call stage)
    (clock : after.clock = stores.clock)
    (steps : after.steps =
      (stores.insertStep run.instanceId ⟨run.stepId, call.action, output⟩).steps)
    (next : Keeps (some me) stores after → later.Knows triggers after) :
    after.Conforms triggers ∧ later.Knows triggers after ∧ Keeps (some me) stores after := by
  have runs := owns (by simp [phase, RunPhase.outer])
  obtain ⟨replays, bound, asks⟩ := knows.steps call stage phase
  obtain ⟨length, answered⟩ := replays.all bound
  have rows : ∀ instanceId, after.steps instanceId =
      if instanceId = run.instanceId then
        stores.steps run.instanceId ++ [⟨run.stepId, call.action, output⟩]
      else stores.steps instanceId := by
    intro instanceId
    rw [steps, Stores.steps_insertStep]
  have keeps : Keeps (some me) stores after := by
    refine ⟨Nat.le_of_eq clock.symm, fun instanceId => ?_⟩
    by_cases same : instanceId = run.instanceId
    · subst same
      exact .inr ⟨me, _, rfl, runs, by rw [rows, if_pos rfl]⟩
    · rw [rows, if_neg same]
      exact .inl (.refl _)
  refine ⟨⟨fun instanceId index row present => ?_⟩, next keeps, keeps⟩
  rw [rows] at present
  split at present
  next same =>
    subst same
    rcases Tables.row_append.mp present with old | ⟨place, fresh⟩
    · obtain ⟨place, call', asked, kind⟩ := conforms.rows _ index row old
      exact ⟨place, call', keeps.asked asked, kind⟩
    · subst fresh
      rw [length] at place
      subst place
      refine ⟨rfl, call, keeps.asked ⟨Nat.le_of_eq length.symm, run.results, ?_, asks⟩, rfl⟩
      rw [← length, List.take_length]
      exact answered
  next =>
    obtain ⟨place, call', asked, kind⟩ := conforms.rows _ index row present
    exact ⟨place, call', keeps.asked asked, kind⟩

/-- A run whose part of the stores is as it was, at another phase. -/
theorem Run.Replays.congr {run later : Run} (replays : run.Replays stores)
    (instanceId : later.instanceId = run.instanceId) (seen : later.seen = run.seen)
    (results : later.results = run.results) (clock : after.clock = stores.clock)
    (steps : after.steps = stores.steps) : later.Replays after := by
  obtain ⟨was, answered, rows⟩ := replays
  refine ⟨?_, ?_, ?_⟩
  · rw [seen, instanceId, steps]
    exact was
  · rw [clock, steps, instanceId, Run.stepId, results]
    exact answered
  · rw [steps, instanceId, seen, Run.stepId, results]
    exact rows

/-- A run about to give its instance up knows nothing more. -/
theorem Run.Knows.finishing {run : Run} {status : Status} :
    (run.goto (.finishing status)).Knows triggers after :=
  ⟨nofun, nofun, nofun⟩

/-- A run moves on beside the rows. -/
theorem Beside.sequential {later : Run} (beside : Beside stores after)
    (conforms : stores.Conforms triggers) (knows : later.Knows triggers after) :
    after.Conforms triggers ∧ later.Knows triggers after ∧ Keeps (some me) stores after :=
  ⟨beside.conforms conforms, knows, beside.keeps _⟩

/-- A run goes on with its step; time and rows are as they were. -/
theorem Run.Knows.goesOn {run : Run} {call : StepCall} {stage later : StepStage}
    (knows : run.Knows triggers stores) (phase : run.phase = .stepping call stage)
    (clock : after.clock = stores.clock) (steps : after.steps = stores.steps) :
    (run.goto (.stepping call later)).Knows triggers after := by
  obtain ⟨replays, bound, asks⟩ := knows.steps call stage phase
  refine ⟨nofun, ?_, nofun⟩
  intro _ _ same
  obtain ⟨rfl, _⟩ := RunPhase.stepping.inj same
  exact ⟨replays.congr rfl rfl rfl clock steps, bound, asks⟩

/-- A move of a run keeps the rows conforming and tells it what it needs. -/
theorem RunMove.sequential {run later : Run} (owns : run.Owns me stores)
    (conforms : stores.Conforms triggers) (knows : run.Knows triggers stores)
    (move : RunMove triggers me stores run after later) :
    after.Conforms triggers ∧ later.Knows triggers after ∧ Keeps (some me) stores after := by
  have unchanged : Beside stores stores := .of_same rfl rfl
  cases move with
  | outer was outer same => exact same.beside.sequential conforms (.of_outer outer)
  | giveUp inner outer => exact Beside.sequential (.of_same rfl rfl) conforms (.of_outer outer)
  | renew same =>
    refine same.beside.sequential conforms ((same.beside.keeps none).knows nofun owns knows)
  | insert phase missing => exact Beside.sequential (.of_same rfl rfl) conforms (.of_outer trivial)
  | claim phase pending => exact Beside.sequential (.of_same rfl rfl) conforms ⟨nofun, nofun, nofun⟩
  | load phase =>
    refine unchanged.sequential conforms ⟨fun _ => ⟨?_, rfl, ?_⟩, nofun, nofun⟩
    · rw [List.take_length]
      exact .refl _
    · exact (Nat.max_eq_left (Nat.zero_le _)).symm
  | returns phase asks => exact unchanged.sequential conforms .finishing
  | throws inner => exact unchanged.sequential conforms .finishing
  | suspend phase asks found silent => exact unchanged.sequential conforms .finishing
  | @recollect call row value phase asks found answer =>
    have replays := knows.calls phase
    obtain ⟨inside, later, present, extends'⟩ := replays.found conforms found
    -- The row was made for the call the handler makes now.
    have bound : run.stepId ≤ (stores.steps run.instanceId).length :=
      Nat.le_of_lt (List.getElem?_eq_some_iff.mp present).1
    have asked : stores.Asked triggers run.instanceId run.stepId call :=
      ⟨bound, run.results, replays.results, asks⟩
    obtain ⟨_, made, askedBefore, kind⟩ := conforms.rows _ _ _ present
    obtain rfl := asked.unique askedBefore
    have answered : later.answer stores.clock = some value := by
      refine extends'.answer (Nat.le_refl _) ?_
      rw [StepRow.answer, ← extends'.action, ← kind]
      exact answer
    have next : Run.stepId { run with results := run.results ++ [value] } = run.stepId + 1 := by
      simp [Run.stepId]
    refine unchanged.sequential conforms ⟨fun _ => ⟨replays.seen, ?_, ?_⟩,
      fun _ _ other => by simp [phase] at other, fun _ _ _ other => by simp [phase] at other⟩
    · rw [next, List.take_add_one, present]
      exact answers_append replays.results answered
    · rw [next, replays.rows, Nat.max_eq_left (Nat.le_of_lt inside)]
      exact (Nat.max_eq_left inside).symm
  | @«meet» call phase asks absent =>
    have replays := knows.calls phase
    have bound := replays.absent conforms absent
    refine unchanged.sequential conforms ⟨nofun, ?_, nofun⟩
    intro _ _ same
    obtain ⟨rfl, _⟩ := RunPhase.stepping.inj same
    exact ⟨replays.congr rfl rfl rfl rfl rfl, bound, asks⟩
  | clear phase alive => exact unchanged.sequential conforms (knows.goesOn phase rfl rfl)
  | schedule phase => exact unchanged.sequential conforms (knows.goesOn phase rfl rfl)
  | perform phase kind =>
    exact Beside.sequential (.of_same rfl rfl) conforms (knows.goesOn phase rfl rfl)
  | armWait phase =>
    exact Beside.sequential (.of_same rfl rfl) conforms (knows.goesOn phase rfl rfl)
  | armTimeout phase =>
    exact Beside.sequential (.of_same rfl rfl) conforms (knows.goesOn phase rfl rfl)
  | @recordResult call output resumeAt phase kind fresh =>
    obtain ⟨replays, bound, asks⟩ := knows.steps _ _ phase
    obtain ⟨length, answered⟩ := replays.all bound
    refine conforms.insert owns knows phase rfl rfl fun _ => ?_
    have rows : (stores.insertStep run.instanceId ⟨run.stepId, call.action, output⟩).steps
        run.instanceId = stores.steps run.instanceId ++ [⟨run.stepId, call.action, output⟩] := by
      rw [Stores.steps_insertStep, if_pos rfl]
    have answer : StepRow.answer stores.clock ⟨run.stepId, call.action, output⟩ = some output := by
      rcases kind with rfl | rfl <;> rfl
    have next : Run.stepId { run with phase := .calling, results := run.results ++ [output] } =
        run.stepId + 1 := by simp [Run.stepId]
    refine ⟨fun _ => ⟨?_, ?_, ?_⟩, nofun, nofun⟩
    · rw [rows, List.take_append_of_le_length (by rw [length]; exact bound)]
      exact replays.seen
    · rw [rows, next, List.take_of_length_le (by simp [length])]
      exact answers_append answered answer
    · rw [rows, next, List.length_append, length, List.length_singleton]
      exact (Nat.max_eq_right (Nat.le_succ_of_le bound)).symm
  | recordWait phase fresh => exact conforms.insert owns knows phase rfl rfl fun _ => .finishing
  | @recordPending eventName options output resumeAt phase fresh =>
    obtain ⟨replays, bound, asks⟩ := knows.steps _ _ phase
    obtain ⟨length, answered⟩ := replays.all bound
    refine conforms.insert owns knows phase rfl rfl fun keeps => ⟨nofun, nofun, ?_⟩
    intro _ _ _ same
    obtain ⟨rfl, rfl, _⟩ := RunPhase.registering.inj same
    have asked : stores.Asked triggers run.instanceId run.stepId
        (.waitForEvent eventName options) :=
      ⟨Nat.le_of_eq length.symm, run.results, replays.results, asks⟩
    refine ⟨?_, options, rfl, keeps.asked asked⟩
    simp [Run.goto, Stores.insertStep, length, Run.stepId]
  | register phase => exact Beside.sequential (.of_same rfl rfl) conforms .finishing
  | finish phase => exact Beside.sequential (.of_same rfl rfl) conforms (.of_outer trivial)

/-- Two changes beside the runs are one. -/
theorem Beside.trans {middle : Stores} (first : Beside stores middle) (second : Beside middle after) :
    Beside stores after where
  clock := Nat.le_trans first.clock second.clock
  rows instanceId := (first.rows instanceId).trans (second.rows instanceId)

/-- Filling in an empty output, or writing what is there. -/
theorem Beside.answer {instanceId : InstanceId} {stepIndex : StepIndex} {output : Json}
    (open' : ∀ row ∈ stores.steps instanceId, row.stepIndex = stepIndex →
      row.action = .waitForEvent ∧ row.output = .null ∨ row.output = output) :
    Beside stores (stores.answerStep instanceId stepIndex output) := by
  refine ⟨Nat.le_refl _, fun other => ?_⟩
  by_cases same : other = instanceId
  · subst same
    simpa [Stores.answerStep] using Extended.fill open'
  · simpa [Stores.answerStep, same] using Extended.refl (stores.steps other)

/-- What an actor is about to write goes to a `waitForEvent` step without an output, or is
there already. -/
def Role.WritesOnce (role : Role) (stores : Stores) : Prop :=
  ∀ instanceId stepIndex output, role.writes = some (instanceId, stepIndex, output) →
    ∀ row ∈ stores.steps instanceId, row.stepIndex = stepIndex →
      row.action = .waitForEvent ∧ row.output = .null ∨ row.output = output

/-- A poll that writes outputs only once moves beside the runs. -/
theorem PollMove.beside {poll later : Poll} {choice : PollChoice}
    (move : PollMove me stores poll choice after later)
    (writes : (Role.poll poll).WritesOnce stores) : Beside stores after := by
  cases move with
  | @record instanceId eventName stepId stepIndex rest phase first =>
    refine Beside.trans (.answer (writes _ _ _ ?_)) (.of_same rfl rfl)
    simp [Role.writes, Poll.writes, phase, first]
  | _ => exact .of_same rfl rfl

/-- An event task that writes outputs only once moves beside the runs. -/
theorem TaskMove.beside {task later : EventTask} {choice : TaskChoice}
    (move : TaskMove me stores task choice after later)
    (writes : (Role.task task).WritesOnce stores) : Beside stores after := by
  cases move with
  | @answer waiter rest stepIndex phase =>
    have answered := Beside.answer (writes waiter.instanceId stepIndex task.event.data
      (by simp [Role.writes, EventTask.writes, phase]))
    exact answered.trans (.of_same rfl rfl)
  | _ => exact .of_same rfl rfl

/-- A reaper moves beside the runs. -/
theorem ReapMove.beside {reap later : Reap} {choice : ReapChoice}
    (move : ReapMove stores reap choice after later) : Beside stores after := by
  cases move with
  | update =>
    unfold Reap.update
    split <;> exact .of_same rfl rfl
  | _ => exact .of_same rfl rfl

/-- What happens outside the services happens beside the runs. -/
theorem OutsideFrame.beside (frame : OutsideFrame stores after) : Beside stores after :=
  ⟨frame.clock, fun _ => frame.steps ▸ .refl _⟩

/-- What an actor knows, if it is a living run. -/
def Agent.Knows (triggers : InstanceId → Trigger) (_ : Nat) (agent : Option Agent)
    (stores : Stores) : Prop :=
  ∀ run, LivingRun stores agent run → run.Knows triggers stores

/-- The rows follow their handlers, and every run knows where it stands. -/
abbrev Sequential (triggers : InstanceId → Trigger) : World → Prop :=
  Crowd.Holds (Stores.Conforms triggers) (Agent.Knows triggers)

theorem Keeps.agent {mover : Option Nat} (keeps : Keeps mover stores after) {other : Nat}
    (dead : LeavesDead stores after) (apart : mover ≠ some other) {agent : Option Agent}
    (owns : Agent.Owns other agent stores) (knows : Agent.Knows triggers other agent stores) :
    Agent.Knows triggers other agent after := by
  intro run living
  have before := living.before dead
  exact keeps.knows apart (owns run before) (knows run before)

/-- Everybody whose turn it is writes outputs only once. -/
def WritesOnce (world : World) (action : Action) : Prop :=
  ∀ index choice agent, action = .act index choice → world.actors[index]? = some agent →
    agent.role.WritesOnce world.shared

/-- The actor that moves in a step. -/
def Action.mover : Action → Option Nat
  | .act index _ => some index
  | _ => none

/-- A move that writes no output twice, and what the mover and the others know after it. -/
theorem AgentMove.sequential {agent later : Agent} {choice : Choice}
    (alive : agent.process ∉ stores.dead) (owns : Agent.Owns me (some agent) stores)
    (conforms : stores.Conforms triggers) (knows : Agent.Knows triggers me (some agent) stores)
    (once : agent.role.WritesOnce stores)
    (move : AgentMove triggers me stores agent.role choice after later.role) :
    after.Conforms triggers ∧ Agent.Knows triggers me (some later) after ∧
      Keeps (some me) stores after := by
  obtain ⟨process, role⟩ := agent
  obtain ⟨process', role'⟩ := later
  cases move with
  | @run run _ _ _ move =>
    have living : LivingRun stores (some ⟨process, .run run⟩) run := ⟨process, rfl, alive⟩
    obtain ⟨conforms', knows', keeps⟩ :=
      move.sequential (owns _ living) conforms (knows _ living)
    refine ⟨conforms', fun run living => ?_, keeps⟩
    obtain ⟨_, same, _⟩ := living
    cases same
    exact knows'
  | poll move =>
    have beside := move.beside once
    exact ⟨beside.conforms conforms, nofun, beside.keeps _⟩
  | task move =>
    have beside := move.beside once
    exact ⟨beside.conforms conforms, nofun, beside.keeps _⟩
  | reap move =>
    have beside := move.beside
    exact ⟨beside.conforms conforms, nofun, beside.keeps _⟩

/-- What the others see of a step that writes no output twice. -/
theorem step_keeps {world next : World} {action : Action} (owned : Owned world)
    (sequential : Sequential triggers world) (writes : WritesOnce world action)
    (taken : step triggers world action = some next) :
    Keeps action.mover world.shared next.shared := by
  have nobody : Keeps none world.shared world.shared := (Beside.of_same rfl rfl).keeps _
  cases action with
  | act index choice =>
    obtain ⟨agent, shared, later, present, moved, rfl⟩ := Crowd.act_eq_some taken
    obtain ⟨alive, _, move⟩ := Agent.move_moves moved
    have owns := owned.actor index
    have knows := sequential.actor index
    rw [present] at owns knows
    exact (move.sequential alive owns sequential.shared knows
      (writes index choice agent rfl present)).2.2
  | takeMessage process instanceId =>
    obtain ⟨_, same⟩ := Option.ite_none_right_eq_some.mp taken
    exact (Option.some.inj same) ▸ nobody
  | startPoll process =>
    obtain ⟨_, same⟩ := Option.ite_none_right_eq_some.mp taken
    exact (Option.some.inj same) ▸ nobody
  | startReap process =>
    obtain ⟨_, same⟩ := Option.ite_none_right_eq_some.mp taken
    exact (Option.some.inj same) ▸ nobody
  | takeEvent process position =>
    obtain ⟨event, _, taken⟩ := Option.bind_eq_some_iff.mp taken
    obtain ⟨_, same⟩ := Option.ite_none_right_eq_some.mp taken
    exact (Option.some.inj same) ▸ nobody
  | outside event =>
    obtain ⟨shared, changed, rfl⟩ := Option.map_eq_some_iff.mp taken
    exact (outsideStep_frame changed).beside.keeps none

/-- A step that writes no output twice keeps the runs sequential. -/
theorem sequential_step {world next : World} {action : Action} (owned : Owned world)
    (sequential : Sequential triggers world) (writes : WritesOnce world action)
    (taken : step triggers world action = some next) : Sequential triggers next := by
  refine holds_step sequential taken ?_ ?_ ?_
  · rintro index choice rfl agent later shared present alive _ move
    have owns := owned.actor index
    have knows := sequential.actor index
    rw [present] at owns knows
    obtain ⟨conforms, knows', keeps⟩ := move.sequential alive owns sequential.shared knows
      (writes index choice agent rfl present)
    have dead : LeavesDead world.shared shared := fun _ was => move.dead ▸ was
    refine ⟨conforms, knows', fun other apart => keeps.agent dead (fun same => ?_) (owned.actor other)⟩
    exact apart (Option.some.inj same).symm
  · rintro agent starts _ run ⟨process, same, _⟩
    cases starts <;> cases same
    exact .of_outer trivial
  · intro event shared _ changed
    have frame := outsideStep_frame changed
    exact ⟨frame.beside.conforms sequential.shared, fun other =>
      (frame.beside.keeps none).agent frame.dead (Option.some_ne_none other).symm
        (owned.actor other)⟩

/-- Nothing has been recorded and nobody runs. -/
theorem sequential_start : Sequential triggers start where
  shared := ⟨nofun⟩
  actor _ := nofun

end Notifkit.Workflow
