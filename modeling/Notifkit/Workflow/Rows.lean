import Notifkit.Workflow.Runners

/-!
# The rows and what becomes of them

A step of the services adds a row at the end, or writes one output; rows keep their
place, their index and their kind. An output that is written is not empty, so a
`waitForEvent` that has been answered does not wait again.
-/

namespace Notifkit.Workflow

variable {triggers : InstanceId → Trigger} {stores after : Stores} {me : Nat}

/-- The output a poll is about to write to a step. -/
def Poll.writes (poll : Poll) : Option (InstanceId × StepIndex × Json) :=
  match poll.phase, poll.tasks with
  | .recording stepIndex, .eventTimeout instanceId _ _ :: _ =>
    some (instanceId, stepIndex, timedOut)
  | _, _ => none

/-- The output an event task is about to write to a step. -/
def EventTask.writes (task : EventTask) : Option (InstanceId × StepIndex × Json) :=
  match task.phase with
  | .answering waiter _ stepIndex => some (waiter.instanceId, stepIndex, task.event.data)
  | _ => none

/-- The output an actor is about to write to a step. -/
def Role.writes : Role → Option (InstanceId × StepIndex × Json)
  | .run _ | .reap _ => none
  | .poll current => current.writes
  | .task current => current.writes

/-- A row after a step: its output is as it was, or the mover wrote it. -/
structure RowAfter (written : Option (InstanceId × StepIndex × Json)) (instanceId : InstanceId)
    (row later : StepRow) : Prop where
  stepIndex : later.stepIndex = row.stepIndex
  action : later.action = row.action
  output : later.output = row.output ∨ written = some (instanceId, row.stepIndex, later.output)

theorem RowAfter.refl (written : Option (InstanceId × StepIndex × Json)) (instanceId : InstanceId)
    (row : StepRow) : RowAfter written instanceId row row := ⟨rfl, rfl, .inl rfl⟩

/-- A row after an output was written. -/
theorem Stores.answerStep_row {instanceId other : InstanceId} {stepIndex : StepIndex}
    {output : Json} {position : Nat} {row : StepRow}
    (present : (stores.steps other)[position]? = some row) :
    ∃ later, ((stores.answerStep instanceId stepIndex output).steps other)[position]? = some later ∧
      RowAfter (some (instanceId, stepIndex, output)) other row later := by
  by_cases same : other = instanceId
  · subst same
    refine ⟨if row.stepIndex = stepIndex then { row with output := output } else row, ?_, ?_⟩
    · simp only [Stores.answerStep, Function.update_self, List.getElem?_map, present,
        Option.map_some]
    split
    next index => exact ⟨rfl, rfl, .inr (by rw [index])⟩
    next => exact .refl _ _ _
  · exact ⟨row, by simpa [Stores.answerStep, same] using present, .refl _ _ _⟩

/-- A row after a run has added one. -/
theorem Stores.insertStep_row {instanceId other : InstanceId} {added : StepRow} {position : Nat}
    {row : StepRow} (present : (stores.steps other)[position]? = some row) :
    ((stores.insertStep instanceId added).steps other)[position]? = some row := by
  rw [Stores.steps_insertStep]
  split
  next same =>
    subst same
    exact Tables.row_append.mpr (.inl present)
  next => exact present

/-- A move changes no output but the one its actor was about to write. -/
theorem AgentMove.row {agent later : Role} {choice : Choice}
    (move : AgentMove triggers me stores agent choice after later) {instanceId : InstanceId}
    {position : Nat} {row : StepRow} (present : (stores.steps instanceId)[position]? = some row) :
    ∃ later, (after.steps instanceId)[position]? = some later ∧
      RowAfter agent.writes instanceId row later := by
  have unchanged : after.steps = stores.steps → ∃ later,
      (after.steps instanceId)[position]? = some later ∧
        RowAfter agent.writes instanceId row later :=
    fun same => ⟨row, same ▸ present, .refl _ _ _⟩
  cases move with
  | run move =>
    cases move with
    | outer was outer same => exact unchanged same.steps
    | renew same => exact unchanged same.steps
    | recordResult => exact ⟨row, Stores.insertStep_row present, .refl _ _ _⟩
    | recordWait => exact ⟨row, Stores.insertStep_row present, .refl _ _ _⟩
    | recordPending => exact ⟨row, Stores.insertStep_row present, .refl _ _ _⟩
    | _ => exact unchanged rfl
  | @poll poll _ _ _ move =>
    cases move with
    | @record owner eventName stepId stepIndex rest phase first =>
      have writes : (Role.poll poll).writes = some (owner, stepIndex, timedOut) := by
        simp only [Role.writes, Poll.writes, phase, first]
      rw [writes]
      exact Stores.answerStep_row present
    | _ => exact unchanged rfl
  | @task task _ _ _ move =>
    cases move with
    | @answer waiter rest stepIndex phase =>
      have writes : (Role.task task).writes =
          some (waiter.instanceId, stepIndex, task.event.data) := by
        simp only [Role.writes, EventTask.writes, phase]
      rw [writes]
      exact Stores.answerStep_row present
    | _ => exact unchanged rfl
  | reap move =>
    cases move with
    | update => exact unchanged (Reap.update_steps _ _)
    | _ => exact unchanged rfl

/-- The rows of an instance after a run added one. -/
theorem mem_insertStep {instanceId other : InstanceId} {row added : StepRow}
    (member : row ∈ (stores.insertStep instanceId added).steps other) :
    row ∈ stores.steps other ∨ other = instanceId ∧ row = added := by
  rw [Stores.steps_insertStep] at member
  split at member
  next same =>
    subst same
    rcases List.mem_append.mp member with old | fresh
    · exact .inl old
    · exact .inr ⟨rfl, List.mem_singleton.mp fresh⟩
  next => exact .inl member

/-- The rows of an instance after an output was written. -/
theorem mem_answerStep {instanceId other : InstanceId} {stepIndex : StepIndex} {output : Json}
    {row : StepRow} (member : row ∈ (stores.answerStep instanceId stepIndex output).steps other) :
    row ∈ stores.steps other ∨ other = instanceId ∧ ∃ old ∈ stores.steps other,
      old.stepIndex = stepIndex ∧ row = { old with output := output } := by
  simp only [Stores.answerStep, Function.update_apply] at member
  split at member
  next same =>
    subst same
    obtain ⟨old, was, rfl⟩ := List.mem_map.mp member
    split
    next index => exact .inr ⟨rfl, old, was, index, rfl⟩
    next => exact .inl was
  next => exact .inl member

/-- The instance has a `waitForEvent` row under an index. -/
def Stores.Placed (stores : Stores) (instanceId : InstanceId) (stepIndex : StepIndex) : Prop :=
  ∃ row ∈ stores.steps instanceId, row.stepIndex = stepIndex ∧ row.action = .waitForEvent

theorem Stores.awaits_iff {instanceId : InstanceId} {stepIndex : StepIndex} :
    stores.awaits instanceId stepIndex = true ↔
      ∃ row ∈ stores.steps instanceId, row.stepIndex = stepIndex ∧ row.awaits = true := by
  simp [Stores.awaits, List.any_eq_true]

theorem StepRow.awaits_iff {row : StepRow} :
    row.awaits = true ↔ row.action = .waitForEvent ∧ row.output = .null := by
  simp [StepRow.awaits, Json.isNull_iff]

/-- A step that waits has its row. -/
theorem Stores.placed_of_awaits {instanceId : InstanceId} {stepIndex : StepIndex}
    (awaits : stores.awaits instanceId stepIndex = true) : stores.Placed instanceId stepIndex := by
  obtain ⟨row, member, index, holds⟩ := Stores.awaits_iff.mp awaits
  exact ⟨row, member, index, (StepRow.awaits_iff.mp holds).1⟩

/-- A step whose row was placed stays placed. -/
theorem AgentMove.placed {agent later : Role} {choice : Choice}
    (move : AgentMove triggers me stores agent choice after later) {instanceId : InstanceId}
    {stepIndex : StepIndex} (placed : stores.Placed instanceId stepIndex) :
    after.Placed instanceId stepIndex := by
  obtain ⟨row, member, index, kind⟩ := placed
  obtain ⟨position, present⟩ := List.mem_iff_getElem?.mp member
  obtain ⟨later, found, same⟩ := move.row present
  exact ⟨later, List.mem_of_getElem? found, same.stepIndex.trans index, same.action.trans kind⟩

/-- An instance has a row under an index. -/
def Stores.hasRow (stores : Stores) (instanceId : InstanceId) (stepIndex : StepIndex) : Bool :=
  (stores.steps instanceId).any fun row => row.stepIndex = stepIndex

theorem Stores.hasRow_iff {instanceId : InstanceId} {stepIndex : StepIndex} :
    stores.hasRow instanceId stepIndex = true ↔
      ∃ row ∈ stores.steps instanceId, row.stepIndex = stepIndex := by
  simp [Stores.hasRow]

/-- Rows do not go away. -/
theorem AgentMove.hasRow {agent later : Role} {choice : Choice}
    (move : AgentMove triggers me stores agent choice after later) {instanceId : InstanceId}
    {stepIndex : StepIndex} (there : stores.hasRow instanceId stepIndex = true) :
    after.hasRow instanceId stepIndex = true := by
  obtain ⟨row, member, index⟩ := Stores.hasRow_iff.mp there
  obtain ⟨position, present⟩ := List.mem_iff_getElem?.mp member
  obtain ⟨later, found, same⟩ := move.row present
  exact Stores.hasRow_iff.mpr ⟨later, List.mem_of_getElem? found, same.stepIndex.trans index⟩

/-- The data of an event is never empty. -/
theorem Event.data_ne_null (event : Event) : event.data ≠ .null := by
  unfold Event.data
  split
  next object =>
    intro null
    simp [null, Json.isObject] at object
  next => exact (by rintro ⟨⟩)

/-- What an actor is about to write is not empty. -/
theorem Role.writes_ne_null {role : Role} {written : InstanceId × StepIndex × Json}
    (writes : role.writes = some written) : written.2.2 ≠ .null := by
  cases role with
  | run => cases writes
  | reap => cases writes
  | poll current =>
    simp only [Role.writes, Poll.writes] at writes
    split at writes
    next =>
      obtain rfl := Option.some.inj writes
      exact nofun
    next => cases writes
  | task current =>
    simp only [Role.writes, EventTask.writes] at writes
    split at writes
    next =>
      obtain rfl := Option.some.inj writes
      exact Event.data_ne_null _
    next => cases writes

/-- The step of a run that is about to insert the row of a `waitForEvent`. -/
def Role.places : Role → Option (InstanceId × StepIndex)
  | .run current =>
    match current.phase with
    | .stepping (.waitForEvent _ _) (.recording _ _) => some (current.instanceId, current.stepId)
    | _ => none
  | _ => none

/-- A `waitForEvent` row that is there after a move was there before, or the move placed it
where no row was. -/
theorem AgentMove.rowBefore {agent later : Role} {choice : Choice}
    (move : AgentMove triggers me stores agent choice after later) {instanceId : InstanceId}
    {row : StepRow} (member : row ∈ after.steps instanceId) (kind : row.action = .waitForEvent) :
    (∃ old ∈ stores.steps instanceId, old.stepIndex = row.stepIndex ∧ old.action = row.action ∧
      (row.output = old.output ∨ agent.writes = some (instanceId, row.stepIndex, row.output))) ∨
    agent.places = some (instanceId, row.stepIndex) ∧
      ∀ old ∈ stores.steps instanceId, old.stepIndex ≠ row.stepIndex := by
  have unchanged : after.steps = stores.steps → ∃ old ∈ stores.steps instanceId,
      old.stepIndex = row.stepIndex ∧ old.action = row.action ∧
        (row.output = old.output ∨ agent.writes = some (instanceId, row.stepIndex, row.output)) :=
    fun same => ⟨row, same ▸ member, rfl, rfl, .inl rfl⟩
  cases move with
  | run move =>
    cases move with
    | outer was outer same => exact .inl (unchanged same.steps)
    | renew same => exact .inl (unchanged same.steps)
    | recordResult phase which fresh =>
      rcases mem_insertStep member with old | ⟨_, rfl⟩
      · exact .inl ⟨row, old, rfl, rfl, .inl rfl⟩
      · rcases which with rfl | rfl <;> cases kind
    | recordWait phase fresh =>
      rcases mem_insertStep member with old | ⟨_, rfl⟩
      · exact .inl ⟨row, old, rfl, rfl, .inl rfl⟩
      · cases kind
    | recordPending phase fresh =>
      rcases mem_insertStep member with old | ⟨rfl, rfl⟩
      · exact .inl ⟨row, old, rfl, rfl, .inl rfl⟩
      · exact .inr ⟨by simp only [Role.places, phase], fresh⟩
    | _ => exact .inl (unchanged rfl)
  | @poll poll _ _ _ move =>
    cases move with
    | @record owner eventName stepId stepIndex rest phase first =>
      have writes : (Role.poll poll).writes = some (owner, stepIndex, timedOut) := by
        simp only [Role.writes, Poll.writes, phase, first]
      rcases mem_answerStep member with old | ⟨rfl, old, was, rfl, rfl⟩
      · exact .inl ⟨row, old, rfl, rfl, .inl rfl⟩
      · exact .inl ⟨old, was, rfl, rfl, .inr writes⟩
    | _ => exact .inl (unchanged rfl)
  | @task task _ _ _ move =>
    cases move with
    | @answer waiter rest stepIndex phase =>
      have writes : (Role.task task).writes =
          some (waiter.instanceId, stepIndex, task.event.data) := by
        simp only [Role.writes, EventTask.writes, phase]
      rcases mem_answerStep member with old | ⟨rfl, old, was, rfl, rfl⟩
      · exact .inl ⟨row, old, rfl, rfl, .inl rfl⟩
      · exact .inl ⟨old, was, rfl, rfl, .inr writes⟩
    | _ => exact .inl (unchanged rfl)
  | reap move =>
    cases move with
    | update => exact .inl (unchanged (Reap.update_steps _ _))
    | _ => exact .inl (unchanged rfl)

/-- A step that waits after a move waited before, or the move placed its row. -/
theorem AgentMove.awaited {agent later : Role} {choice : Choice}
    (move : AgentMove triggers me stores agent choice after later) {instanceId : InstanceId}
    {stepIndex : StepIndex} (awaits : after.awaits instanceId stepIndex = true) :
    stores.awaits instanceId stepIndex = true ∨
      agent.places = some (instanceId, stepIndex) ∧ ¬ stores.Placed instanceId stepIndex := by
  obtain ⟨row, member, rfl, holds⟩ := Stores.awaits_iff.mp awaits
  obtain ⟨kind, empty⟩ := StepRow.awaits_iff.mp holds
  rcases move.rowBefore member kind with ⟨old, was, index, same, kept | wrote⟩ | ⟨places, fresh⟩
  · exact .inl (Stores.awaits_iff.mpr ⟨old, was, index,
      StepRow.awaits_iff.mpr ⟨same.trans kind, kept ▸ empty⟩⟩)
  · exact absurd empty (Role.writes_ne_null wrote)
  · exact .inr ⟨places, fun ⟨old, was, index, _⟩ => fresh old was index⟩

end Notifkit.Workflow
