import Notifkit.Workflow.Outputs

/-!
# What `waitForEvent` returns

Whether a wait is open, has timed out or was met by an event is told by one column of its
row. A poll writes the timeout there, an event task the data of the event, and a replay
reads the result off it.

Beside the services, a chronicle keeps what became of each wait, and what each run could
know of it when it read the rows. The column is always the encoding of what became of the
wait. Reading it gives that back, but for an event whose data says `timedOut` itself.
-/

namespace Notifkit.Workflow

open Runs

variable {triggers : InstanceId → Trigger} {stores after : Stores} {me : Nat}

/-- What becomes of a wait. -/
inductive Outcome where
  | timedOut
  | matched (event : Event)

/-- The output that is written for it. -/
def Outcome.output : Outcome → Json
  | .timedOut => Workflow.timedOut
  | .matched event => event.data

/-- The output of a wait of which something has become, or nothing yet. -/
def outputOf (outcome : Option Outcome) : Json := (outcome.map Outcome.output).getD .null

/-- What an actor writes to a step when it takes a choice. -/
def Role.records : Role → Choice → Option (InstanceId × StepIndex × Outcome)
  | .poll current, .poll .proceed =>
    current.writes.map fun written => (written.1, written.2.1, .timedOut)
  | .task current, .task .proceed =>
    current.writes.map fun written => (written.1, written.2.1, .matched current.event)
  | _, _ => none

/-- Whether an actor reads the rows of its instance when it takes a choice. -/
def Role.loads : Role → Choice → Option InstanceId
  | .run current, .run .proceed =>
    match current.phase with
    | .loading => some current.instanceId
    | _ => none
  | _, _ => none

/-- What became of the waits, by instance and step. -/
abbrev Outcomes := InstanceId → StepIndex → Option Outcome

/-- The outcomes once an actor has written one. -/
def Outcomes.record (outcomes : Outcomes) : Option (InstanceId × StepIndex × Outcome) → Outcomes
  | some (instanceId, stepIndex, outcome) => Function.update outcomes instanceId
      (Function.update (outcomes instanceId) stepIndex (some outcome))
  | none => outcomes

/-- The services with what became of the waits. -/
structure Chronicle where
  world : World := start
  outcomes : Outcomes := fun _ _ => none
  /-- what each run read, by its position among the actors -/
  read : Nat → StepIndex → Option Outcome := fun _ _ => none

/-- What a move of an actor adds to the chronicle. -/
def Chronicle.act (state : Chronicle) (world : World) (index : Nat) (agent : Agent)
    (choice : Choice) : Chronicle where
  world := world
  outcomes := state.outcomes.record (agent.role.records choice)
  read :=
    match agent.role.loads choice with
    | some instanceId => Function.update state.read index (state.outcomes instanceId)
    | none => state.read

/-- One step of the services, chronicled. -/
def Chronicle.step (triggers : InstanceId → Trigger) (state : Chronicle) (action : Action) :
    Option Chronicle :=
  (Workflow.step triggers state.world action).map fun world =>
    match action with
    | .act index choice =>
      match state.world.actors[index]? with
      | some agent => state.act world index agent choice
      | none => { state with world := world }
    | _ => { state with world := world }

/-- A wait returns what became of it: nothing while it is open, `null` where it timed out and
only there, and the data of the event that met it. -/
structure Returns (outcome : Option Outcome) (answer : Option Json) : Prop where
  suspended : answer = none ↔ outcome = none
  null : answer = some .null ↔ outcome = some .timedOut
  data : ∀ event, outcome = some (.matched event) → answer = some event.data

/-- The data of an event says that it timed out. -/
def Event.SaysTimedOut (event : Event) : Prop :=
  event.data.property "timedOut".toList = some (.bool true)

instance (event : Event) : Decidable event.SaysTimedOut := inferInstanceAs (Decidable (_ = _))

/-- What is read back from the data of an event. -/
theorem recall_data (event : Event) (now : Nat) : recollect now .waitForEvent event.data =
    if event.data.property "timedOut".toList = some (.bool true) then some .null
    else some event.data := by
  have filled : event.data.isNull = false :=
    Bool.eq_false_iff.mpr fun null => Event.data_ne_null event (Json.isNull_iff.mp null)
  simp only [recollect, filled, Bool.false_eq_true, if_false]
  split
  next claims => rw [if_pos claims]
  next silent => rw [if_neg silent]

/-- Reading the column gives back what became of the wait, except where it is an event that
says it timed out. -/
theorem returns_iff (outcome : Option Outcome) (now : Nat) :
    Returns outcome (recollect now .waitForEvent (outputOf outcome)) ↔
      ∀ event, outcome = some (.matched event) → ¬ event.SaysTimedOut := by
  cases outcome with
  | none =>
    have silent : recollect now .waitForEvent (outputOf none) = none := rfl
    rw [silent]
    exact ⟨(fun _ _ nothing => by cases nothing), fun _ => ⟨by simp, by simp, by simp⟩⟩
  | some outcome =>
    cases outcome with
    | timedOut =>
      have null : recollect now .waitForEvent (outputOf (some .timedOut)) = some .null := by
        simp [outputOf, Outcome.output, Workflow.timedOut, recollect, Json.isNull, Json.property]
      rw [null]
      exact ⟨(fun _ _ other => by cases other), fun _ => ⟨by simp, by simp, by simp⟩⟩
    | matched event =>
      have column : outputOf (some (.matched event)) = event.data := rfl
      rw [column, recall_data]
      split
      next claims =>
        constructor
        · intro returns
          exact absurd (returns.null.mp rfl) (by rintro ⟨⟩)
        · intro silent
          exact absurd claims (silent event rfl)
      next silent =>
        constructor
        · intro _ other same
          cases same
          exact silent
        · intro _
          refine ⟨by simp, ?_, fun other same => by cases same; rfl⟩
          have filled := Event.data_ne_null event
          simp [filled]

/-- A choice that does not fail performs the write an actor is about to do, and no other choice
changes a row. -/
theorem Agent.move_records {agent later : Agent} {choice : Choice}
    {written : InstanceId × StepIndex × Json}
    (moved : agent.move triggers me stores choice = some (after, later))
    (writes : agent.role.writes = some written) :
    (∃ outcome, agent.role.records choice = some (written.1, written.2.1, outcome) ∧
        written.2.2 = outcome.output ∧
        after.steps = (stores.answerStep written.1 written.2.1 outcome.output).steps) ∨
      agent.role.records choice = none ∧ after.steps = stores.steps := by
  obtain ⟨process, role⟩ := agent
  replace ⟨_, moved⟩ := Option.ite_none_left_eq_some.mp moved
  cases role with
  | run current => cases writes
  | reap current => cases writes
  | poll current =>
    cases choice with
    | poll choice =>
      obtain ⟨stepped, taken, same⟩ := Option.map_eq_some_iff.mp moved
      obtain ⟨rfl, rfl⟩ := Prod.mk.inj same
      have writes : current.writes = some written := writes
      have kept := writes
      unfold Poll.writes at writes
      split at writes
      next stepIndex instanceId eventName stepId rest phase first =>
        obtain rfl := Option.some.inj writes
        cases choice with
        | proceed =>
          simp only [Poll.step, phase, first, Poll.record, Option.some.injEq] at taken
          obtain rfl := taken
          exact .inl ⟨.timedOut, by simp [Role.records, kept], rfl, rfl⟩
        | fail =>
          simp only [Poll.step, phase, first, Option.some.injEq] at taken
          obtain rfl := taken
          exact .inr ⟨rfl, rfl⟩
        | claim now tasks => simp [Poll.step, phase, first] at taken
        | select found => simp [Poll.step, phase, first] at taken
      next => cases writes
    | run choice => cases moved
    | task choice => cases moved
    | reap choice => cases moved
  | task current =>
    cases choice with
    | task choice =>
      obtain ⟨stepped, taken, same⟩ := Option.map_eq_some_iff.mp moved
      obtain ⟨rfl, rfl⟩ := Prod.mk.inj same
      have writes : current.writes = some written := writes
      have kept := writes
      unfold EventTask.writes at writes
      split at writes
      next waiter rest stepIndex phase =>
        obtain rfl := Option.some.inj writes
        cases choice with
        | proceed =>
          simp only [EventTask.step, EventTask.proceed, phase, Option.some.injEq] at taken
          obtain rfl := taken
          exact .inl ⟨.matched current.event, by simp [Role.records, kept], rfl, rfl⟩
        | fail =>
          simp only [EventTask.step, phase, Option.some.injEq] at taken
          obtain rfl := taken
          exact .inr ⟨rfl, rfl⟩
        | handle position => simp [EventTask.step, phase] at taken
        | select found => simp [EventTask.step, phase] at taken
      next => cases writes
    | run choice => cases moved
    | poll choice => cases moved
    | reap choice => cases moved

/-- The rows of an instance after an output was written, the row that was written apart from the
others. -/
theorem mem_answerStep_cases {instanceId other : InstanceId} {stepIndex : StepIndex}
    {output : Json} {row : StepRow}
    (member : row ∈ (stores.answerStep instanceId stepIndex output).steps other) :
    (∃ old ∈ stores.steps other, old.stepIndex = row.stepIndex ∧ old.action = row.action) ∧
      (row ∈ stores.steps other ∧ ¬ (other = instanceId ∧ row.stepIndex = stepIndex) ∨
        other = instanceId ∧ row.stepIndex = stepIndex ∧ row.output = output) := by
  simp only [Stores.answerStep, Function.update_apply] at member
  split at member
  next same =>
    subst same
    obtain ⟨old, was, rfl⟩ := List.mem_map.mp member
    split
    next index => exact ⟨⟨old, was, rfl, rfl⟩, .inr ⟨rfl, index, rfl⟩⟩
    next apart => exact ⟨⟨old, was, rfl, rfl⟩, .inl ⟨was, fun both => apart both.2⟩⟩
  next apart => exact ⟨⟨row, member, rfl, rfl⟩, .inl ⟨member, fun both => apart both.1⟩⟩

/-- A run that is about to insert the row of a `waitForEvent` inserts an open one. -/
def Role.Opens : Role → Prop
  | .run current => ∀ eventName options output resumeAt,
      current.phase = .stepping (.waitForEvent eventName options) (.recording output resumeAt) →
        output = .null
  | _ => True

/-- A run comes to insert the row of a `waitForEvent` only with an empty output. -/
theorem AgentMove.opens {agent later : Role} {choice : Choice} (opens : agent.Opens)
    (move : AgentMove triggers me stores agent choice after later) : later.Opens := by
  cases move with
  | run move =>
    intro eventName options output resumeAt phase
    cases move with
    | outer was outer =>
      obtain rfl : _ = _ := phase
      cases outer
    | giveUp inner outer =>
      obtain rfl : _ = _ := phase
      cases outer
    | renew => exact opens _ _ _ _ phase
    | recollect was => cases was.symm.trans phase
    | perform was kind =>
      rcases kind with rfl | rfl <;> cases phase
    | armTimeout was =>
      cases phase
      rfl
    | _ => cases phase
  | poll => trivial
  | task => trivial
  | reap => trivial

/-- The row of a `waitForEvent` that a move places is open. -/
theorem AgentMove.fresh_open {agent later : Role} {choice : Choice} (opens : agent.Opens)
    (move : AgentMove triggers me stores agent choice after later) {instanceId : InstanceId}
    {row : StepRow} (member : row ∈ after.steps instanceId) (kind : row.action = .waitForEvent)
    (fresh : ∀ old ∈ stores.steps instanceId, old.stepIndex ≠ row.stepIndex) :
    row.output = .null := by
  have unchanged : after.steps = stores.steps → row.output = .null :=
    fun same => absurd rfl (fresh row (same ▸ member))
  cases move with
  | run move =>
    cases move with
    | outer was outer same => exact unchanged same.steps
    | renew same => exact unchanged same.steps
    | recordResult phase which =>
      rcases mem_insertStep member with old | ⟨_, rfl⟩
      · exact absurd rfl (fresh row old)
      · rcases which with rfl | rfl <;> cases kind
    | recordWait phase =>
      rcases mem_insertStep member with old | ⟨_, rfl⟩
      · exact absurd rfl (fresh row old)
      · cases kind
    | recordPending phase =>
      rcases mem_insertStep member with old | ⟨_, rfl⟩
      · exact absurd rfl (fresh row old)
      · exact opens _ _ _ _ phase
    | _ => exact unchanged rfl
  | poll move =>
    cases move with
    | record phase first =>
      rcases mem_answerStep member with old | ⟨rfl, old, was, rfl, rfl⟩
      · exact absurd rfl (fresh row old)
      · exact absurd rfl (fresh old was)
    | _ => exact unchanged rfl
  | task move =>
    cases move with
    | answer phase =>
      rcases mem_answerStep member with old | ⟨rfl, old, was, rfl, rfl⟩
      · exact absurd rfl (fresh row old)
      · exact absurd rfl (fresh old was)
    | _ => exact unchanged rfl
  | reap move =>
    cases move with
    | update => exact unchanged (Reap.update_steps _ _)
    | _ => exact unchanged rfl

/-- A run reads the rows of its instance, or keeps the ones it has read. -/
theorem Run.step_seen {run later : Run} {choice : RunChoice}
    (taken : run.step triggers me stores choice = some (after, later)) :
    (Role.run run).loads (.run choice) = some run.instanceId ∧
        later.seen = stores.steps run.instanceId ∨
      (Role.run run).loads (.run choice) = none ∧ later.seen = run.seen := by
  by_cases loading : run.phase = .loading
  · cases choice with
    | proceed =>
      simp only [Run.step, Run.proceed, loading, Option.some.injEq, Prod.mk.injEq] at taken
      obtain ⟨_, rfl⟩ := taken
      exact .inl ⟨by simp [Role.loads, loading], rfl⟩
    | fail =>
      simp only [Run.step, Run.failed, loading, Option.some.injEq, Prod.mk.injEq] at taken
      obtain ⟨_, rfl⟩ := taken
      exact .inr ⟨rfl, rfl⟩
    | renew =>
      simp only [Run.step, loading, Option.some.injEq, Prod.mk.injEq] at taken
      obtain ⟨_, rfl⟩ := taken
      exact .inr ⟨rfl, rfl⟩
    | produce output => simp [Run.step, loading] at taken
  · refine .inr ⟨?_, ?_⟩
    · cases choice with
      | proceed => simp only [Role.loads]
      | _ => rfl
    · cases Run.step_moves taken with
      | load phase => exact absurd phase loading
      | _ => rfl

/-- The columns tell what became of the waits, and the rows a run has read tell what it could
know. -/
structure Told (state : Chronicle) : Prop where
  rows : ∀ instanceId, ∀ row ∈ state.world.shared.steps instanceId, row.action = .waitForEvent →
    row.output = outputOf (state.outcomes instanceId row.stepIndex)
  placed : ∀ instanceId stepIndex, state.outcomes instanceId stepIndex ≠ none →
    state.world.shared.Placed instanceId stepIndex
  writers : ∀ agent ∈ state.world.actors, ∀ written ∈ agent.role.writes,
    state.world.shared.Placed written.1 written.2.1
  opens : ∀ agent ∈ state.world.actors, agent.role.Opens
  reads : ∀ (index : Nat) process run, state.world.actors[index]? = some ⟨process, .run run⟩ →
    ∀ row ∈ run.seen, row.action = .waitForEvent →
      row.output = outputOf (state.read index row.stepIndex)

/-- Nothing has been written or read. -/
theorem told_start : Told {} := ⟨nofun, by simp, nofun, nofun, nofun⟩

/-- An outcome recorded for one step leaves those of the others. -/
theorem Outcomes.record_self (outcomes : Outcomes) (instanceId : InstanceId)
    (stepIndex : StepIndex) (outcome : Outcome) :
    outcomes.record (some (instanceId, stepIndex, outcome)) instanceId stepIndex = some outcome := by
  simp [Outcomes.record]

theorem Outcomes.record_apart (outcomes : Outcomes) {instanceId other : InstanceId}
    {stepIndex position : StepIndex} (outcome : Outcome)
    (apart : ¬ (other = instanceId ∧ position = stepIndex)) :
    outcomes.record (some (instanceId, stepIndex, outcome)) other position =
      outcomes other position := by
  by_cases same : other = instanceId
  · subst same
    have index : position ≠ stepIndex := fun same => apart ⟨rfl, same⟩
    simp [Outcomes.record, index]
  · simp [Outcomes.record, same]

/-- What an actor records is about the step it is about to write to. -/
theorem Role.writes_of_records {role : Role} {choice : Choice} {instanceId : InstanceId}
    {stepIndex : StepIndex} {outcome : Outcome}
    (records : role.records choice = some (instanceId, stepIndex, outcome)) :
    ∃ output, role.writes = some (instanceId, stepIndex, output) := by
  unfold Role.records at records
  split at records
  next current =>
    obtain ⟨⟨_, _, output⟩, writes, same⟩ := Option.map_eq_some_iff.mp records
    cases same
    exact ⟨output, writes⟩
  next current =>
    obtain ⟨⟨_, _, output⟩, writes, same⟩ := Option.map_eq_some_iff.mp records
    cases same
    exact ⟨output, writes⟩
  next => cases records

/-- After a move of an actor the columns still tell what became of the waits. -/
theorem Told.rows_act {state : Chronicle} (told : Told state) {index : Nat} {agent later : Agent}
    {choice : Choice} {shared : Stores} (member : agent ∈ state.world.actors)
    (moved : agent.move triggers index state.world.shared choice = some (shared, later))
    (instanceId : InstanceId) (row : StepRow) (there : row ∈ shared.steps instanceId)
    (kind : row.action = .waitForEvent) :
    row.output =
      outputOf (state.outcomes.record (agent.role.records choice) instanceId row.stepIndex) := by
  obtain ⟨_, _, move⟩ := Agent.move_moves moved
  cases writes : agent.role.writes with
  | some written =>
    rcases Agent.move_records moved writes with ⟨outcome, records, _, steps⟩ | ⟨records, steps⟩
    · rw [steps] at there
      rw [records]
      rcases (mem_answerStep_cases there).2 with ⟨old, apart⟩ | ⟨rfl, index, output⟩
      · rw [Outcomes.record_apart _ _ apart]
        exact told.rows instanceId row old kind
      · rw [index, Outcomes.record_self, output]
        rfl
    · rw [steps] at there
      rw [records]
      exact told.rows instanceId row there kind
  | none =>
    have records : agent.role.records choice = none := by
      unfold Role.records
      split
      next current role => 
        rw [role] at writes
        exact Option.map_eq_none_iff.mpr writes
      next current role => 
        rw [role] at writes
        exact Option.map_eq_none_iff.mpr writes
      next => rfl
    rw [records]
    rcases move.rowBefore there kind with ⟨old, was, index, same, kept | wrote⟩ | ⟨places, fresh⟩
    · rw [kept, ← index]
      exact told.rows instanceId old was (same.trans kind)
    · simp [writes] at wrote
    · have nothing : state.outcomes instanceId row.stepIndex = none := by
        by_contra some
        obtain ⟨old, was, index, _⟩ := told.placed instanceId row.stepIndex some
        exact fresh old was index
      have same : state.outcomes.record none instanceId row.stepIndex = none := nothing
      rw [same, move.fresh_open (told.opens agent member) there kind fresh]
      rfl

/-- A move of an actor keeps the chronicle true. -/
theorem Told.act {state : Chronicle} (told : Told state) {index : Nat} {agent later : Agent}
    {choice : Choice} {shared : Stores} (present : state.world.actors[index]? = some agent)
    (moved : agent.move triggers index state.world.shared choice = some (shared, later)) :
    Told (state.act ⟨shared, state.world.actors.set index later⟩ index agent choice) := by
  obtain ⟨_, _, move⟩ := Agent.move_moves moved
  have member : agent ∈ state.world.actors := List.mem_of_getElem? present
  obtain ⟨inside, _⟩ := List.getElem?_eq_some_iff.mp present
  have actors : ∀ other ∈ state.world.actors.set index later,
      other ∈ state.world.actors ∨ other = later := fun other => List.mem_or_eq_of_mem_set
  refine ⟨told.rows_act member moved, ?_, ?_, ?_, ?_⟩
  · intro instanceId stepIndex some
    cases records : agent.role.records choice with
    | none =>
      simp only [Chronicle.act, records, Outcomes.record] at some
      exact move.placed (told.placed instanceId stepIndex some)
    | some record =>
      obtain ⟨writer, position, outcome⟩ := record
      by_cases same : instanceId = writer ∧ stepIndex = position
      · obtain ⟨rfl, rfl⟩ := same
        obtain ⟨output, writes⟩ := Role.writes_of_records records
        exact move.placed (told.writers agent member _ writes)
      · simp only [Chronicle.act, records, Outcomes.record_apart _ _ same] at some
        exact move.placed (told.placed instanceId stepIndex some)
  · intro other there written writes
    rcases actors other there with old | rfl
    · exact move.placed (told.writers other old written writes)
    · obtain ⟨_, same, awaits⟩ := move.writes writes
      exact move.placed (Stores.placed_of_awaits awaits)
  · intro other there
    rcases actors other there with old | rfl
    · exact told.opens other old
    · exact move.opens (told.opens agent member)
  · intro other process run found row seen kind
    by_cases same : other = index
    · subst same
      obtain rfl := Option.some.inj ((List.getElem?_set_self inside).symm.trans found)
      obtain ⟨place, role⟩ := agent
      replace ⟨_, moved⟩ := Option.ite_none_left_eq_some.mp moved
      cases role with
      | run current =>
        cases choice with
        | run choice =>
          obtain ⟨⟨after, stepped⟩, taken, same⟩ := Option.map_eq_some_iff.mp moved
          cases same
          rcases Run.step_seen taken with ⟨loads, rows⟩ | ⟨loads, rows⟩
          · simp only [Chronicle.act, loads, Function.update_self]
            rw [rows] at seen
            exact told.rows _ row seen kind
          · simp only [Chronicle.act, loads]
            rw [rows] at seen
            exact told.reads _ _ current present row seen kind
        | _ => cases moved
      | poll current =>
        cases choice with
        | poll choice =>
          obtain ⟨_, _, same⟩ := Option.map_eq_some_iff.mp moved
          cases same
        | _ => cases moved
      | task current =>
        cases choice with
        | task choice =>
          obtain ⟨_, _, same⟩ := Option.map_eq_some_iff.mp moved
          cases same
        | _ => cases moved
      | reap current =>
        cases choice with
        | reap choice =>
          obtain ⟨_, _, same⟩ := Option.map_eq_some_iff.mp moved
          cases same
        | _ => cases moved
    · have kept : (state.act ⟨shared, state.world.actors.set index later⟩ index agent choice).read
          other = state.read other := by
        cases loads : agent.role.loads choice with
        | some instanceId => simp only [Chronicle.act, loads, Function.update_of_ne same]
        | none => simp only [Chronicle.act, loads]
      rw [kept]
      exact told.reads other process run
        ((List.getElem?_set_ne (Ne.symm same)).symm.trans found) row seen kind

/-- Where only the actors and the stores change, and neither a row nor what an actor knows of
the rows does, the chronicle stays true. -/
theorem Told.of_same {state : Chronicle} (told : Told state) {world : World}
    (steps : world.shared.steps = state.world.shared.steps)
    (actors : ∀ (index : Nat) agent, world.actors[index]? = some agent →
      state.world.actors[index]? = some agent ∨ agent.role.writes = none ∧ agent.role.Opens ∧
        ∀ run, agent.role = .run run → run.seen = []) :
    Told { state with world := world } where
  rows instanceId row there := told.rows instanceId row (steps ▸ there)
  placed instanceId stepIndex some := by
    rw [Stores.Placed, steps]
    exact told.placed instanceId stepIndex some
  writers agent member written writes := by
    obtain ⟨index, found⟩ := List.mem_iff_getElem?.mp member
    rw [Stores.Placed, steps]
    rcases actors index agent found with old | ⟨silent, _⟩
    · exact told.writers agent (List.mem_of_getElem? old) written writes
    · simp [silent] at writes
  opens agent member := by
    obtain ⟨index, found⟩ := List.mem_iff_getElem?.mp member
    rcases actors index agent found with old | ⟨_, opens, _⟩
    · exact told.opens agent (List.mem_of_getElem? old)
    · exact opens
  reads index process run found row seen := by
    rcases actors index _ found with old | ⟨_, _, blank⟩
    · exact told.reads index process run old row seen
    · rw [blank run rfl] at seen
      cases seen

/-- Every step keeps the chronicle true. -/
theorem told_step {state next : Chronicle} {action : Action} (told : Told state)
    (taken : state.step triggers action = some next) : Told next := by
  obtain ⟨world, moved, rfl⟩ := Option.map_eq_some_iff.mp taken
  have joined : ∀ agent : Agent, agent.role.writes = none → agent.role.Opens →
      (∀ run, agent.role = .run run → run.seen = []) →
        Told { state with world := state.world.join agent } := by
    intro agent silent opens blank
    refine told.of_same rfl fun index other found => ?_
    rcases Tables.row_append.mp found with old | ⟨_, rfl⟩
    · exact .inl old
    · exact .inr ⟨silent, opens, blank⟩
  cases action with
  | act index choice =>
    obtain ⟨agent, shared, later, present, acted, rfl⟩ := Crowd.act_eq_some moved
    simp only [present]
    exact told.act present acted
  | takeMessage process instanceId =>
    obtain ⟨_, same⟩ := Option.ite_none_right_eq_some.mp moved
    obtain rfl := Option.some.inj same
    exact joined _ rfl nofun fun _ same => by cases same; rfl
  | startPoll process =>
    obtain ⟨_, same⟩ := Option.ite_none_right_eq_some.mp moved
    obtain rfl := Option.some.inj same
    exact joined _ rfl trivial nofun
  | startReap process =>
    obtain ⟨_, same⟩ := Option.ite_none_right_eq_some.mp moved
    obtain rfl := Option.some.inj same
    exact joined _ rfl trivial nofun
  | takeEvent process position =>
    obtain ⟨event, _, moved⟩ := Option.bind_eq_some_iff.mp moved
    obtain ⟨_, same⟩ := Option.ite_none_right_eq_some.mp moved
    obtain rfl := Option.some.inj same
    exact joined _ rfl trivial nofun
  | outside event =>
    obtain ⟨shared, changed, rfl⟩ := Option.map_eq_some_iff.mp moved
    exact told.of_same (outsideStep_frame changed).steps fun _ _ => .inl

/-- What a handler gets from a `waitForEvent` whose row the run has read. -/
theorem Run.call_waitForEvent {run later : Run} {eventName : Text} {options : WaitOptions}
    {row : StepRow} (calling : run.phase = .calling)
    (asks : (triggers run.instanceId).handler run.results =
      .step (.waitForEvent eventName options))
    (found : (run.seen.find? fun row => row.stepIndex = run.stepId) = some row)
    (taken : run.proceed triggers me stores = some (after, later)) :
    later.results[run.stepId]? = recollect stores.clock .waitForEvent row.output := by
  simp only [Run.proceed, calling, Option.some.injEq, Prod.mk.injEq] at taken
  obtain ⟨_, rfl⟩ := taken
  simp only [Run.call, asks, found]
  cases answer : recollect stores.clock .waitForEvent row.output with
  | none => simp [StepCall.action, answer, Run.goto, Run.stepId]
  | some value => simp [StepCall.action, answer, Run.stepId]

/-- In every run of workers, polls, event tasks and reapers, crashes and races included, a replay
that comes to a `waitForEvent` whose row it has read returns what had become of the wait, exactly
where that is no event that says it timed out. -/
theorem waits_return_iff {state : Chronicle}
    (run : Reaches (Chronicle.step triggers) anyStep {} state) {index process : Nat}
    {current later : Run} {eventName : Text} {options : WaitOptions} {row : StepRow}
    (present : state.world.actors[index]? = some ⟨process, .run current⟩)
    (calling : current.phase = .calling)
    (asks : (triggers current.instanceId).handler current.results =
      .step (.waitForEvent eventName options))
    (found : (current.seen.find? fun row => row.stepIndex = current.stepId) = some row)
    (kind : row.action = .waitForEvent)
    (taken : current.proceed triggers index state.world.shared = some (after, later)) :
    Returns (state.read index current.stepId) later.results[current.stepId]? ↔
      ∀ event, state.read index current.stepId = some (.matched event) → ¬ event.SaysTimedOut := by
  have told : Told state := run.invariant told_start fun _ _ _ told _ taken => told_step told taken
  have column := told.reads index process current present row (List.mem_of_find?_eq_some found) kind
  have own : row.stepIndex = current.stepId := by simpa using List.find?_some found
  rw [Run.call_waitForEvent calling asks found taken, column, own]
  exact returns_iff _ _

/-- An event with some properties meets the wait, the resume goes out, and the run that takes it
comes to the wait again. -/
def met (properties : Json) : List Action :=
  [Action.outside (.send 0), .takeMessage 0 0] ++ runs 0 14 ++
    [Action.outside (.emit ⟨0, "paid".toList, properties⟩), .takeEvent 1 0] ++ tasks 1 1 ++
    [Action.act 1 (.task (.handle 0))] ++ tasks 1 1 ++ [Action.act 1 (.task (.select (some 0)))] ++ tasks 1 3 ++
    [Action.outside (.flush 1 0), .outside (.publishItem 0), .outside (.flushPasses 0),
      .takeMessage 0 0] ++ runs 2 4

/-- The chronicle of such a run. -/
def metBy (properties : Json) : Chronicle :=
  (perform (Chronicle.step fun _ => awaitsOne) {} (met properties)).getD {}

/-- The run that comes to the wait again. -/
def resumed (properties : Json) : Run where
  instanceId := 0
  phase := .calling
  seen := [⟨0, .waitForEvent, properties⟩]

/-- An event with an amount is returned as it came. -/
theorem waits_return_paid :
    Returns ((metBy (.obj [("amount".toList, .num 3)])).read 2 0)
      [Json.obj [("amount".toList, .num 3)]][0]? := by
  have run : Reaches (Chronicle.step fun _ => awaitsOne) anyStep {}
      (metBy (.obj [("amount".toList, .num 3)])) := reaches_any_performed _ (by decide +kernel)
  have returns := @waits_return_iff (fun _ => awaitsOne) _ _ run 2 0 (resumed _) _ "paid".toList _ _
    rfl rfl rfl rfl rfl rfl
  have read : (metBy (.obj [("amount".toList, .num 3)])).read 2 0 =
      some (.matched ⟨0, "paid".toList, .obj [("amount".toList, .num 3)]⟩) := rfl
  refine returns.mpr fun event same => ?_
  obtain rfl := Outcome.matched.inj (Option.some.inj (read.symm.trans same))
  decide

/-- An event that says it timed out is taken for a timeout. -/
theorem event_taken_for_timeout :
    ¬ ∀ (triggers : InstanceId → Trigger) (stores : Stores) (state : Chronicle),
      Reaches (Chronicle.step triggers) anyStep {} state → ∀ (index process : Nat)
      (current later : Run) (eventName : Text) (options : WaitOptions) (row : StepRow),
      state.world.actors[index]? = some ⟨process, .run current⟩ → current.phase = .calling →
      (triggers current.instanceId).handler current.results =
        .step (.waitForEvent eventName options) →
      (current.seen.find? fun row => row.stepIndex = current.stepId) = some row →
      row.action = .waitForEvent →
      current.proceed triggers index state.world.shared = some (stores, later) →
        Returns (state.read index current.stepId) later.results[current.stepId]? := by
  intro claimed
  have run : Reaches (Chronicle.step fun _ => awaitsOne) anyStep {} (metBy timedOut) :=
    reaches_any_performed _ (by decide +kernel)
  have returns := claimed (fun _ => awaitsOne) _ _ run 2 0 (resumed timedOut) _ "paid".toList _ _
    rfl rfl rfl rfl rfl rfl
  cases returns.null.mp rfl

end Notifkit.Workflow
