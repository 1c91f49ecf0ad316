import Notifkit.Workflow.Rows

/-!
# Stored definitions that change

A workflow may be stored as a list of steps instead of being written as a handler. Every
call of the worker reads the list and awaits its steps one after another, and a step is
answered from the row of its position, whatever the step was when the row was recorded.
`createWorkflow` replaces the list at any time.

So an instance keeps to its definition only as long as the steps it has recorded stay at
their positions. Here one definition is edited while its instances run; each run keeps the
list it has read.
-/

namespace Notifkit.Workflow

open Crowd Runs

variable {triggers : InstanceId → Trigger} {stores after : Stores} {me : Nat}

/-- A step of a stored definition. -/
inductive StepDef where
  | notify (payload : Json)
  | wait (duration : Duration)
  | waitForEvent (event : Text) (options : WaitOptions)
deriving DecidableEq

/-- What the worker awaits for a step. -/
def StepDef.call : StepDef → StepCall
  | .notify _ => .notify
  | .wait duration => .wait duration
  | .waitForEvent event options => .waitForEvent event options

/-- The handler of a stored definition: its steps one after another. -/
def storedHandler (steps : List StepDef) (results : List Json) : Call :=
  match steps[results.length]? with
  | some stepDef => .step stepDef.call
  | none => .returns

/-- The workflow services over the instances of one stored definition. An empty list of steps
stands for no definition: the schema refuses it. -/
structure Authored where
  world : World := start
  steps : List StepDef
  /-- the steps each run has read, by its position among the actors -/
  read : Nat → List StepDef := fun _ => []
  /-- ghost: the step a row was recorded for -/
  recorded : InstanceId → StepIndex → Option StepDef := fun _ _ => none

/-- What can happen: an edit of the definition, or a step of the services. -/
inductive Authoring where
  | createWorkflow (steps : List StepDef)
  | work (action : Action)

/-- The position of the actor that moves or is started. -/
def Authored.actor (state : Authored) : Action → Nat
  | .act index _ => index
  | _ => state.world.actors.length

/-- The steps the actors have read once an action has been taken. -/
def Authored.reads (state : Authored) : Action → Nat → List StepDef
  | .takeMessage _ _ => Function.update state.read state.world.actors.length state.steps
  | _ => state.read

/-- Ghost: the steps of the rows once an action has led to a world. -/
def Authored.records (state : Authored) (action : Action) (world : World)
    (instanceId : InstanceId) (stepIndex : StepIndex) : Option StepDef :=
  if !state.world.shared.hasRow instanceId stepIndex && world.shared.hasRow instanceId stepIndex then
    (state.read (state.actor action))[stepIndex]?
  else state.recorded instanceId stepIndex

/-- What a run of the definition is triggered with. -/
def Authored.trigger (projectId : Nat) (state : Authored) (action : Action) :
    InstanceId → Trigger :=
  fun _ => ⟨projectId, storedHandler (state.read (state.actor action))⟩

/-- One step. Without a definition the worker drops the messages it gets. -/
def Authored.step (projectId : Nat) (state : Authored) : Authoring → Option Authored
  | .createWorkflow steps => if steps = [] then none else some { state with steps := steps }
  | .work action =>
    if state.steps = [] then none
    else (Workflow.step (state.trigger projectId action) state.world action).map fun world =>
      { state with
        world := world
        read := state.reads action
        recorded := state.records action world }

/-- Whether an actor is a run of an instance that is still to replay or perform a step. -/
def Role.underWay (instanceId : InstanceId) : Role → Bool
  | .run current => current.instanceId = instanceId && !current.phase.isOver
  | _ => false

/-- No run of the instance is under way. -/
def Authored.Suspended (state : Authored) (instanceId : InstanceId) : Prop :=
  ∀ agent ∈ state.world.actors, agent.process ∉ state.world.shared.dead →
    agent.role.underWay instanceId = false

instance (state : Authored) (instanceId : InstanceId) : Decidable (state.Suspended instanceId) :=
  inferInstanceAs (Decidable (∀ _ ∈ _, _ → _))

/-- The definition is edited only while the instance is suspended. -/
def EditedWhileSuspended (instanceId : InstanceId) (state : Authored) : Authoring → Prop
  | .createWorkflow _ => state.Suspended instanceId ∧
      state.world.shared.instances instanceId = some .pending
  | .work _ => True

/-- The definition is edited only while no run of the instance is under way, and the edit keeps
the steps the instance has recorded. -/
def KeepsRecorded (instanceId : InstanceId) (state : Authored) : Authoring → Prop
  | .createWorkflow steps => state.Suspended instanceId ∧
      ∀ row ∈ state.world.shared.steps instanceId,
        steps[row.stepIndex]? = state.recorded instanceId row.stepIndex
  | .work _ => True

instance (instanceId : InstanceId) (state : Authored) (action : Authoring) :
    Decidable (EditedWhileSuspended instanceId state action) :=
  match action with
  | .createWorkflow _ => inferInstanceAs (Decidable (_ ∧ _))
  | .work _ => inferInstanceAs (Decidable True)

instance (instanceId : InstanceId) (state : Authored) (action : Authoring) :
    Decidable (KeepsRecorded instanceId state action) :=
  match action with
  | .createWorkflow _ => inferInstanceAs (Decidable (_ ∧ _))
  | .work _ => inferInstanceAs (Decidable True)

/-- Where a replay of the instance answers a step from its row, the row was recorded for that
very step. -/
def RepliesOwn (instanceId : InstanceId) (state : Authored) : Prop :=
  ∀ (index : Nat) process run, state.world.actors[index]? = some ⟨process, .run run⟩ →
    process ∉ state.world.shared.dead → run.instanceId = instanceId → run.phase = .calling →
    ∀ stepDef, (state.read index)[run.stepId]? = some stepDef →
      ∀ row ∈ run.seen.find? fun row => row.stepIndex = run.stepId,
        state.recorded instanceId row.stepIndex = some stepDef

/-- Only a run inserts a row, at the step it is in. -/
theorem AgentMove.newRow {agent later : Role} {choice : Choice}
    (move : AgentMove triggers me stores agent choice after later) {instanceId : InstanceId}
    {stepIndex : StepIndex} (there : after.hasRow instanceId stepIndex = true) :
    stores.hasRow instanceId stepIndex = true ∨ ∃ run call stage, agent = .run run ∧
      run.phase = .stepping call stage ∧ run.instanceId = instanceId ∧ run.stepId = stepIndex := by
  obtain ⟨row, member, rfl⟩ := Stores.hasRow_iff.mp there
  have unchanged : after.steps = stores.steps → stores.hasRow instanceId row.stepIndex = true :=
    fun same => Stores.hasRow_iff.mpr ⟨row, same ▸ member, rfl⟩
  have inserted : ∀ {owner : InstanceId} {added : StepRow},
      row ∈ (stores.insertStep owner added).steps instanceId →
        stores.hasRow instanceId row.stepIndex = true ∨
          instanceId = owner ∧ row = added := fun member =>
    (mem_insertStep member).imp_left fun old => Stores.hasRow_iff.mpr ⟨row, old, rfl⟩
  have answered : ∀ {owner : InstanceId} {index : StepIndex} {output : Json},
      row ∈ (stores.answerStep owner index output).steps instanceId →
        stores.hasRow instanceId row.stepIndex = true := by
    intro owner index output member
    rcases mem_answerStep member with old | ⟨_, old, was, _, rfl⟩
    · exact Stores.hasRow_iff.mpr ⟨row, old, rfl⟩
    · exact Stores.hasRow_iff.mpr ⟨old, was, rfl⟩
  cases move with
  | run move =>
    cases move with
    | outer was outer same => exact .inl (unchanged same.steps)
    | renew same => exact .inl (unchanged same.steps)
    | recordResult phase =>
      rcases inserted member with old | ⟨rfl, rfl⟩
      · exact .inl old
      · exact .inr ⟨_, _, _, rfl, phase, rfl, rfl⟩
    | recordWait phase =>
      rcases inserted member with old | ⟨rfl, rfl⟩
      · exact .inl old
      · exact .inr ⟨_, _, _, rfl, phase, rfl, rfl⟩
    | recordPending phase =>
      rcases inserted member with old | ⟨rfl, rfl⟩
      · exact .inl old
      · exact .inr ⟨_, _, _, rfl, phase, rfl, rfl⟩
    | _ => exact .inl (unchanged rfl)
  | poll move =>
    cases move with
    | record => exact .inl (answered member)
    | _ => exact .inl (unchanged rfl)
  | task move =>
    cases move with
    | answer => exact .inl (answered member)
    | _ => exact .inl (unchanged rfl)
  | reap move =>
    cases move with
    | update => exact .inl (unchanged (Reap.update_steps _ _))
    | _ => exact .inl (unchanged rfl)

/-- A step of the handler that is asked for is the one at its position. -/
theorem storedHandler_step {steps : List StepDef} {results : List Json} {call : StepCall}
    (asks : storedHandler steps results = .step call) :
    ∃ stepDef, steps[results.length]? = some stepDef := by
  unfold storedHandler at asks
  split at asks
  next stepDef found => exact ⟨stepDef, found⟩
  next => cases asks

/-- What a living run of the instance knows while it is under way: it has read the steps as
they are, the rows it has read are there, and the step it is in is one of the steps. -/
structure Run.Keeps (steps own : List StepDef) (stores : Stores) (run : Run) : Prop where
  current : own = steps
  seen : ∀ row ∈ run.seen, stores.hasRow run.instanceId row.stepIndex = true
  step : ∀ call stage, run.phase = .stepping call stage → ∃ stepDef, own[run.stepId]? = some stepDef

/-- What an actor knows, if it is a living run of the instance. -/
def Agent.Keeps (instanceId : InstanceId) (steps : List StepDef) (read : Nat → List StepDef)
    (me : Nat) (agent : Option Agent) (stores : Stores) : Prop :=
  ∀ process run, agent = some ⟨process, .run run⟩ → process ∉ stores.dead →
    run.instanceId = instanceId → run.phase.isOver = false → run.Keeps steps (read me) stores

/-- The rows of the instance are those of steps that are still in the definition. -/
structure Faithful (instanceId : InstanceId) (state : Authored) : Prop where
  rows : ∀ stepIndex, state.world.shared.hasRow instanceId stepIndex = true → ∃ stepDef,
    state.recorded instanceId stepIndex = some stepDef ∧ state.steps[stepIndex]? = some stepDef
  runs : ∀ index : Nat, Agent.Keeps instanceId state.steps state.read index
    state.world.actors[index]? state.world.shared

/-- Between the claim and the finish a run is not over. -/
theorem RunPhase.under_of_inner {phase : RunPhase} (inner : ¬ phase.outer) : phase.isOver = false := by
  cases phase with
  | releasing => exact absurd trivial inner
  | returned => exact absurd trivial inner
  | ended => exact absurd trivial inner
  | _ => rfl

/-- What a run knows after its move. -/
theorem RunMove.keeps {steps own : List StepDef} {run later : Run} {projectId : Nat}
    (move : RunMove (fun _ => ⟨projectId, storedHandler own⟩) me stores run after later)
    (kept : ∀ stepIndex, stores.hasRow run.instanceId stepIndex = true →
      after.hasRow run.instanceId stepIndex = true)
    (under : later.phase.isOver = false) (known : run.phase.isOver = false → run.Keeps steps own stores) :
    later.Keeps steps own after := by
  have onward : run.Keeps steps own stores → ∀ {phase : RunPhase},
      (∀ call stage, phase = .stepping call stage → ∃ stepDef, own[run.stepId]? = some stepDef) →
        (run.goto phase).Keeps steps own after := fun was _ step =>
    ⟨was.current, fun row member => kept _ (was.seen row member), step⟩
  cases move with
  | outer was outer same lock isOver =>
    have before : run.phase.isOver = false := by
      cases past : run.phase.isOver with
      | false => rfl
      | true => exact absurd (isOver past) (Bool.eq_false_iff.mp under)
    refine onward (known before) fun call stage phase => ?_
    simp [phase, RunPhase.outer] at outer
  | giveUp inner outer =>
    refine onward (known (RunPhase.under_of_inner inner)) fun call stage phase => ?_
    simp [phase, RunPhase.outer] at outer
  | renew same =>
    have was := known under
    exact ⟨was.current, fun row member => kept _ (was.seen row member), was.step⟩
  | insert phase => exact onward (known (by rw [phase]; rfl)) (by simp)
  | claim phase => exact onward (known (by rw [phase]; rfl)) (by simp)
  | load phase =>
    refine ⟨(known (by rw [phase]; rfl)).current, fun row member => ?_, (by simp)⟩
    exact Stores.hasRow_iff.mpr ⟨row, member, rfl⟩
  | returns phase => exact onward (known (by rw [phase]; rfl)) (by simp)
  | throws inner => exact onward (known (RunPhase.under_of_inner inner)) (by simp)
  | suspend phase => exact onward (known (by rw [phase]; rfl)) (by simp)
  | recollect phase =>
    have was := known (by rw [phase]; rfl)
    refine ⟨was.current, was.seen, fun call stage stepping => ?_⟩
    simp [phase] at stepping
  | «meet» phase asks =>
    exact onward (known (by rw [phase]; rfl)) fun _ _ _ => storedHandler_step asks
  | clear phase =>
    have was := known (by rw [phase]; rfl)
    exact onward was fun _ _ _ => was.step _ _ phase
  | schedule phase =>
    have was := known (by rw [phase]; rfl)
    exact onward was fun _ _ _ => was.step _ _ phase
  | perform phase =>
    have was := known (by rw [phase]; rfl)
    exact onward was fun _ _ _ => was.step _ _ phase
  | armWait phase =>
    have was := known (by rw [phase]; rfl)
    exact onward was fun _ _ _ => was.step _ _ phase
  | armTimeout phase =>
    have was := known (by rw [phase]; rfl)
    exact onward was fun _ _ _ => was.step _ _ phase
  | recordResult phase =>
    have was := known (by rw [phase]; rfl)
    exact ⟨was.current, fun row member => kept _ (was.seen row member), (by simp)⟩
  | recordWait phase => exact onward (known (by rw [phase]; rfl)) (by simp)
  | recordPending phase => exact onward (known (by rw [phase]; rfl)) (by simp)
  | register phase => exact onward (known (by rw [phase]; rfl)) (by simp)
  | finish phase => exact onward (known (by rw [phase]; rfl)) (by simp)

/-- What others do takes nothing from a run. -/
theorem Agent.Keeps.kept {instanceId : InstanceId} {steps : List StepDef}
    {read : Nat → List StepDef} {other : Nat} {agent : Option Agent}
    (keeps : Agent.Keeps instanceId steps read other agent stores)
    (dead : LeavesDead stores after)
    (rows : ∀ stepIndex, stores.hasRow instanceId stepIndex = true →
      after.hasRow instanceId stepIndex = true) :
    Agent.Keeps instanceId steps read other agent after := by
  intro process run same alive place under
  have was := keeps process run same (fun gone => alive (dead process gone)) place under
  refine ⟨was.current, fun row member => ?_, was.step⟩
  rw [place]
  exact rows _ (place ▸ was.seen row member)

/-- A step of the services keeps every run at the steps as they are. -/
theorem Faithful.work {projectId : Nat} {instanceId : InstanceId} {state : Authored}
    {action : Action} {world : World} (faithful : Faithful instanceId state)
    (taken : Workflow.step (state.trigger projectId action) state.world action = some world) :
    ∀ index : Nat, Agent.Keeps instanceId state.steps (state.reads action) index
      world.actors[index]? world.shared := by
  have before : Crowd.Holds (fun _ => True)
      (Agent.Keeps instanceId state.steps (state.reads action)) state.world := by
    refine ⟨trivial, fun index process run present alive place under => ?_⟩
    have was := faithful.runs index process run present alive place under
    have bound : index < state.world.actors.length := (List.getElem?_eq_some_iff.mp present).1
    cases action with
    | takeMessage => simpa [Authored.reads, Nat.ne_of_lt bound] using was
    | _ => exact was
  refine (holds_step before taken ?_ ?_ ?_).actor
  · rintro index choice rfl agent later shared present alive place move
    have rows : ∀ (own : InstanceId) stepIndex,
        state.world.shared.hasRow own stepIndex = true → shared.hasRow own stepIndex = true :=
      fun _ _ => move.hasRow
    have dead : LeavesDead state.world.shared shared := fun _ was => move.dead ▸ was
    refine ⟨trivial, ?_, fun other _ keeps => keeps.kept dead (rows _)⟩
    rintro process run ⟨⟩ alive' place' under
    obtain ⟨process', role⟩ := agent
    obtain rfl : process = process' := place
    cases move with
    | @run was _ _ _ move =>
      have own : was.instanceId = instanceId := move.place.symm.trans place'
      refine RunMove.keeps move (rows _) under fun before => ?_
      exact faithful.runs index process was present alive own before
  · intro agent starts _ process run same alive place under
    cases starts <;> cases same
    exact ⟨by simp [Authored.reads], nofun, nofun⟩
  · intro event shared _ changed
    have frame := outsideStep_frame changed
    refine ⟨trivial, fun other keeps => keeps.kept frame.dead fun stepIndex there => ?_⟩
    rwa [Stores.hasRow, frame.steps]

/-- A row that is there after a step was there before, or a living run inserted it at the step
it was in. -/
theorem step_newRow {world next : World} {action : Action} {instanceId : InstanceId}
    {stepIndex : StepIndex} (taken : Workflow.step triggers world action = some next)
    (there : next.shared.hasRow instanceId stepIndex = true) :
    world.shared.hasRow instanceId stepIndex = true ∨ ∃ index choice process run call stage,
      action = .act index choice ∧ world.actors[index]? = some ⟨process, .run run⟩ ∧
        process ∉ world.shared.dead ∧ run.phase = .stepping call stage ∧
        run.instanceId = instanceId ∧ run.stepId = stepIndex := by
  have before : Crowd.Holds (fun stores : Stores => stores.hasRow instanceId stepIndex = true →
      world.shared.hasRow instanceId stepIndex = true ∨ ∃ index choice process run call stage,
        action = .act index choice ∧ world.actors[index]? = some ⟨process, .run run⟩ ∧
          process ∉ world.shared.dead ∧ run.phase = .stepping call stage ∧
          run.instanceId = instanceId ∧ run.stepId = stepIndex)
      (fun _ (_ : Option Agent) _ => True) world := ⟨.inl, fun _ => trivial⟩
  refine (holds_step before taken ?_ ?_ ?_).shared there
  · rintro index choice rfl agent later shared present alive _ move
    refine ⟨fun there => ?_, trivial, fun _ _ _ => trivial⟩
    refine (move.newRow there).imp_right ?_
    rintro ⟨run, call, stage, role, phase, own, place⟩
    obtain ⟨process, _⟩ := agent
    subst role
    exact ⟨index, choice, process, run, call, stage, rfl, present, alive, phase, own, place⟩
  · exact fun _ _ _ => trivial
  · intro event shared _ changed
    refine ⟨fun there => .inl ?_, fun _ _ => trivial⟩
    rwa [Stores.hasRow, (outsideStep_frame changed).steps] at there

/-- An edit that keeps what is recorded, and any step of the services, leaves the rows to the
steps they were recorded for. -/
theorem faithful_step {projectId : Nat} {instanceId : InstanceId} {state next : Authored}
    {action : Authoring} (faithful : Faithful instanceId state)
    (kept : KeepsRecorded instanceId state action)
    (taken : state.step projectId action = some next) : Faithful instanceId next := by
  cases action with
  | createWorkflow steps =>
    obtain ⟨suspended, recorded⟩ := kept
    obtain ⟨_, same⟩ := Option.ite_none_left_eq_some.mp taken
    obtain rfl := Option.some.inj same
    refine ⟨fun stepIndex there => ?_, fun index process run present alive place under => ?_⟩
    · obtain ⟨stepDef, was, _⟩ := faithful.rows stepIndex there
      obtain ⟨row, member, rfl⟩ := Stores.hasRow_iff.mp there
      exact ⟨stepDef, was, (recorded row member).trans was⟩
    · have idle := suspended _ (List.mem_of_getElem? present) alive
      simp [Role.underWay, place, under] at idle
  | work action =>
    obtain ⟨_, worked⟩ := Option.ite_none_left_eq_some.mp taken
    obtain ⟨world, stepped, rfl⟩ := Option.map_eq_some_iff.mp worked
    refine ⟨fun stepIndex there => ?_, faithful.work stepped⟩
    cases old : state.world.shared.hasRow instanceId stepIndex with
    | true =>
      obtain ⟨stepDef, was, current⟩ := faithful.rows stepIndex old
      exact ⟨stepDef, by simp [Authored.records, old, was], current⟩
    | false =>
      rcases step_newRow stepped there with was | ⟨index, choice, process, run, call, stage, rfl,
        present, alive, phase, own, place⟩
      · rw [old] at was
        cases was
      · have keeps := faithful.runs index process run present alive own (by rw [phase]; rfl)
        obtain ⟨stepDef, found⟩ := keeps.step call stage phase
        rw [place] at found
        have recorded : state.records (.act index choice) world instanceId stepIndex =
            some stepDef := by
          simpa [Authored.records, old, there, Authored.actor] using found
        exact ⟨stepDef, recorded, keeps.current ▸ found⟩

/-- A definition is stored, and nothing has happened yet. -/
def stored (steps : List StepDef) : Authored := { steps }

/-- In every run of the services, crashes and reapers included, in which the definition is edited
only while no run of the instance is under way and the edits keep the steps the instance has
recorded, a replay answers each step from the row recorded for that step. -/
theorem replays_answer_own_steps (projectId : Nat) (instanceId : InstanceId)
    (steps : List StepDef) (state : Authored)
    (run : Reaches (Authored.step projectId) (KeepsRecorded instanceId) (stored steps) state) :
    RepliesOwn instanceId state := by
  have initial : Faithful instanceId (stored steps) := ⟨nofun, fun _ _ _ => nofun⟩
  have faithful : Faithful instanceId state :=
    run.invariant initial fun _ _ _ faithful kept taken => faithful_step faithful kept taken
  intro index process current present alive place phase stepDef asked row found
  have keeps := faithful.runs index process current present alive place (by rw [phase]; rfl)
  have own : row.stepIndex = current.stepId := by simpa using List.find?_some found
  have there := keeps.seen row (List.mem_of_find?_eq_some found)
  rw [place] at there
  obtain ⟨recorded, was, now⟩ := faithful.rows row.stepIndex there
  rw [keeps.current] at asked
  rw [was, ← now, own, asked]

/-- A definition that waits and then notifies. -/
def waitsThenNotifies : List StepDef := [.wait ⟨some 0⟩, .notify .empty]

/-- The first run suspends in the wait. -/
def suspends : List Authoring :=
  ([.outside (.send 0), .takeMessage 0 0] ++ runs 0 13 : List Action).map .work

/-- The notification is edited while the instance waits, and the next run replays the wait. -/
theorem replays_answer_own_steps_run : ∃ state,
    Reaches (Authored.step 0) (KeepsRecorded 0) (stored waitsThenNotifies) state ∧
      state.recorded 0 0 = some (.wait ⟨some 0⟩) ∧ RepliesOwn 0 state := by
  have run : Reaches (Authored.step 0) (KeepsRecorded 0) (stored waitsThenNotifies) _ :=
    reaches_of_perform (suspends ++
        [.createWorkflow [.wait ⟨some 0⟩, .notify (.obj [("urgent".toList, .bool true)])]] ++
        ([.outside (.send 0), .takeMessage 0 0] ++ runs 1 4 : List Action).map .work)
      (by decide +kernel) rfl
  exact ⟨_, run, rfl, replays_answer_own_steps _ _ _ _ run⟩

/-- The wait is replaced by a notification while the instance is suspended in it. The next run
takes the output of the wait for that of the notification, which is never published. -/
theorem edited_step_is_skipped : ∃ projectId instanceId steps state,
    Reaches (Authored.step projectId) (EditedWhileSuspended instanceId) (stored steps) state ∧
      ¬ RepliesOwn instanceId state := by
  have run : Reaches (Authored.step 0) (EditedWhileSuspended 0) (stored waitsThenNotifies) _ :=
    reaches_of_perform (suspends ++ [.createWorkflow [.notify .empty, .notify .empty]] ++
        ([.outside (.send 0), .takeMessage 0 0] ++ runs 1 4 : List Action).map .work)
      (by decide +kernel) rfl
  refine ⟨_, _, _, _, run, fun own => ?_⟩
  have recorded := own 1 0 _ rfl (by decide +kernel) rfl rfl (.notify .empty) rfl
    ⟨0, .wait, scheduledAt 0⟩ rfl
  cases recorded

end Notifkit.Workflow
