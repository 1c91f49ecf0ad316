import Mathlib.Data.Fintype.EquivFin
import Notifkit.Workflow.Watched

/-!
# What one actor can bring about alone

A wait that has its waiter and its timeout can be resumed without anybody's help: a poll
started once the timeout is due claims it, records it and publishes the resume, and an event
task that comes to the waiter in time answers the step and pushes the resume. The runs are
put together command by command, the actor being the last that joined.
-/

namespace Notifkit.Workflow

open Crowd Runs

variable {triggers : InstanceId → Trigger} {stores after : Stores} {me : Nat}

/-- A run in which nothing fails, dies or is canceled, and no reaper is at work. -/
abbrev Calmly (triggers : InstanceId → Trigger) : World → World → Prop :=
  Reaches (step triggers) fun _ action => action.calm = true

namespace Calmly

variable {world middle final : World} {actors : List Agent} {process : Nat}

theorem here : Calmly triggers world world := Reaches.here

/-- The run goes on with an action. -/
theorem go (before : Calmly triggers world middle) (action : Action) (calm : action.calm = true)
    (taken : step triggers middle action = some final) : Calmly triggers world final :=
  before.next calm taken

/-- Something happens outside. -/
theorem outside (before : Calmly triggers world ⟨stores, actors⟩) (event : Outside)
    (calm : (Action.outside event).calm = true) (changed : outsideStep stores event = some after) :
    Calmly triggers world ⟨after, actors⟩ :=
  before.go (.outside event) calm (by simp [step, changed])

/-- The poll that joined last goes on. -/
theorem poll {poll later : Poll}
    (before : Calmly triggers world (Crowd.join ⟨stores, actors⟩ ⟨process, .poll poll⟩))
    (alive : process ∉ stores.dead) (choice : PollChoice) (calm : choice ≠ .fail)
    (stepped : poll.step actors.length stores choice = some (after, later)) :
    Calmly triggers world (Crowd.join ⟨after, actors⟩ ⟨process, .poll later⟩) := by
  apply before.go (.act actors.length (.poll choice))
  · cases choice <;> first | rfl | exact absurd rfl calm
  · exact @Crowd.act_join _ _ _ _ ⟨stores, actors⟩ _ _ _ _ (by simp [Agent.move, alive, stepped])

/-- The event task that joined last goes on. -/
theorem task {task later : EventTask}
    (before : Calmly triggers world (Crowd.join ⟨stores, actors⟩ ⟨process, .task task⟩))
    (alive : process ∉ stores.dead) (choice : TaskChoice) (calm : choice ≠ .fail)
    (stepped : task.step actors.length stores choice = some (after, later)) :
    Calmly triggers world (Crowd.join ⟨after, actors⟩ ⟨process, .task later⟩) := by
  apply before.go (.act actors.length (.task choice))
  · cases choice <;> first | rfl | exact absurd rfl calm
  · exact @Crowd.act_join _ _ _ _ ⟨stores, actors⟩ _ _ _ _ (by simp [Agent.move, alive, stepped])

end Calmly

/-- From here a step can be answered with an output and the resume of its instance published. -/
def CanResume (triggers : InstanceId → Trigger) (world : World) (key : InstanceId × StepIndex)
    (output : Json) : Prop :=
  ∃ later, Calmly triggers world later ∧
    later.shared.steps = (world.shared.answerStep key.1 key.2 output).steps ∧
    later.shared.stream = world.shared.stream ++ [key.1]

/-- There is always a process that has not died. -/
theorem exists_living (stores : Stores) : ∃ process, process ∉ stores.dead := by
  obtain ⟨process, fresh⟩ := Infinite.exists_notMem_finset stores.dead.toFinset
  exact ⟨process, fun dead => fresh (List.mem_toFinset.mpr dead)⟩

/-- The first row under the index of a step that waits is empty. -/
theorem Stores.Watched.row_empty (watched : stores.Watched) {instanceId : InstanceId}
    {stepIndex : StepIndex} (awaits : stores.awaits instanceId stepIndex = true) :
    ∃ row, stores.row? instanceId stepIndex = some row ∧ row.output = .null := by
  obtain ⟨waiting, member, index, waits⟩ := Stores.awaits_iff.mp awaits
  cases found : stores.row? instanceId stepIndex with
  | none =>
    have apart := List.find?_eq_none.mp found waiting member
    simp [index] at apart
  | some first =>
    have place : first.stepIndex = stepIndex := by simpa using List.find?_some found
    obtain rfl := watched.unique instanceId first (List.mem_of_find?_eq_some found) waiting member
      (place.trans index.symm)
    exact ⟨first, rfl, (StepRow.awaits_iff.mp waits).2⟩

/-- A poll goes on with the timeout of a step whose instance is suspended. -/
theorem Poll.step_reading {poll : Poll} {waiter : Waiter} {rest : List Member}
    (phase : poll.phase = .reading) (first : poll.tasks = waiter.timer :: rest)
    (pending : stores.instances waiter.instanceId = some .pending) :
    poll.step me stores .proceed = some (stores, poll.goto .checkingOwn) := by
  simp [Poll.step, Poll.afterReading, phase, first, Stores.gone, Waiter.timer, Member.instanceId,
    pending]

/-- It goes on to the waiters if the step has no output. -/
theorem Poll.step_checkingOwn {poll : Poll} {waiter : Waiter} {rest : List Member} {row : StepRow}
    (phase : poll.phase = .checkingOwn) (first : poll.tasks = waiter.timer :: rest)
    (found : stores.row? waiter.instanceId waiter.stepIndex = some row) (empty : row.output = .null) :
    poll.step me stores .proceed = some (stores, poll.goto .deleting) := by
  have isNull : row.output.isNull = true := Json.isNull_iff.mpr empty
  simp [Poll.step, Poll.checkOwn, phase, first, Waiter.timer, found, isNull]

/-- A poll that claims the timeout of a wait records it and publishes the resume. -/
theorem times_out {actors : List Agent} {waiter : Waiter} (watched : stores.Watched)
    (pending : stores.instances waiter.instanceId = some .pending)
    (awaits : stores.awaits waiter.instanceId waiter.stepIndex = true)
    (there : waiter ∈ stores.waiters) (timer : stores.timers.score waiter.timer ≠ none) :
    CanResume triggers ⟨stores, actors⟩ waiter.key timedOut := by
  obtain ⟨score, scored⟩ := Option.ne_none_iff_exists'.mp timer
  obtain ⟨process, alive⟩ := exists_living stores
  obtain ⟨row, found, empty⟩ := watched.row_empty awaits
  have due : ∀ task ∈ [waiter.timer], ∃ score' ∈ stores.timers.score task,
      score' ≤ stores.clock + score := by
    simp [scored]
  have waiting : ¬ (stores.waiters.filter fun other => other.instanceId = waiter.instanceId ∧
      other.eventName = waiter.eventName).isEmpty = true := by
    simpa using ⟨waiter, there, rfl, rfl⟩
  have ticked : Calmly triggers ⟨stores, actors⟩
      ⟨{ stores with clock := stores.clock + score }, actors⟩ :=
    Calmly.here.outside (.tick score) rfl rfl
  have started := ticked.go (.startPoll process) rfl (if_pos alive)
  have claimed := started.poll alive (.claim (stores.clock + score) [waiter.timer]) nofun
    (if_pos ⟨Nat.le_refl _, List.nodup_singleton _, by simp [pollLimit], due⟩)
  have read := claimed.poll alive .proceed nofun (Poll.step_reading rfl rfl pending)
  have checked := read.poll alive .proceed nofun (Poll.step_checkingOwn rfl rfl found empty)
  have deleted := checked.poll alive .proceed nofun (if_neg waiting)
  have selected := deleted.poll alive (.select (some waiter.stepIndex)) nofun
    (if_pos ⟨awaits, fun own is => (Option.some.inj is).symm⟩)
  have recorded := selected.poll alive .proceed nofun rfl
  have published := recorded.poll alive .proceed nofun rfl
  exact ⟨_, published, rfl, rfl⟩

/-- An event in the stream answers a wait. -/
structure Answers (stores : Stores) (waiter : Waiter) (position : Nat) (event : Event) : Prop where
  delivered : stores.events[position]? = some event
  fresh : position ∉ stores.acknowledged
  named : event.eventName ≠ []
  name : waiter.eventName = event.eventName
  project : waiter.projectId = event.projectId
  matched : waiter.matched event = true
  early : stores.clock < waiter.expiresAt

/-- There is always a name for a flush. -/
theorem exists_batch (items : List Item) : ∃ batch, ∀ item ∈ items, item.batch ≠ some batch := by
  obtain ⟨batch, fresh⟩ := Infinite.exists_notMem_finset (items.filterMap Item.batch).toFinset
  refine ⟨batch, fun item member is => fresh (List.mem_toFinset.mpr ?_)⟩
  exact List.mem_filterMap.mpr ⟨item, member, is⟩

/-- An item of a flush is published. -/
theorem outsideStep_publishItem {position : Nat} {item : Item}
    (there : stores.buffer[position]? = some item) (flushed : item.batch ≠ none)
    (unpublished : item.published = false) :
    outsideStep stores (.publishItem position) =
      some { stores.publish item.waiter.instanceId with
        buffer := stores.buffer.set position { item with published := true }
        durable := item.waiter.id :: stores.durable } := by
  simp [outsideStep, there, flushed, unpublished]

/-- The resume that was pushed last is published by a flush. -/
theorem Calmly.flushed {world : World} {actors : List Agent} {items : List Item} {item : Item}
    (before : Calmly triggers world ⟨stores, actors⟩) (buffer : stores.buffer = items ++ [item])
    (alive : item.process ∉ stores.dead) (waits : item.batch = none)
    (unpublished : item.published = false) :
    ∃ later, Calmly triggers world later ∧ later.shared.steps = stores.steps ∧
      later.shared.stream = stores.stream ++ [item.waiter.instanceId] := by
  obtain ⟨batch, fresh⟩ := exists_batch stores.buffer
  have flushed := before.outside (.flush item.process batch) rfl (if_pos ⟨alive, fresh⟩)
  have there : (stores.buffer.map fun other =>
      if other.process = item.process ∧ other.batch = none then { other with batch := some batch }
      else other)[items.length]? = some { item with batch := some batch } := by
    simp [buffer, waits]
  have published := flushed.outside (.publishItem items.length) rfl
    (outsideStep_publishItem there nofun unpublished)
  exact ⟨_, published, rfl, rfl⟩

/-- An event task goes on with a waiter that its event meets. -/
theorem EventTask.step_looping {task : EventTask} {rest : List Waiter} {position : Nat}
    {waiter : Waiter} (phase : task.phase = .looping rest) (found : rest[position]? = some waiter)
    (matched : waiter.matched task.event = true) :
    task.step me stores (.handle position) =
      some (stores, task.goto (.readingInstance waiter (rest.eraseIdx position))) := by
  simp [EventTask.step, EventTask.handle, phase, found, matched]

/-- It goes on to the rows of an instance that is there. -/
theorem EventTask.step_readingInstance {task : EventTask} {waiter : Waiter} {rest : List Waiter}
    {status : Status} (phase : task.phase = .readingInstance waiter rest)
    (present : stores.instances waiter.instanceId = some status) :
    task.step me stores .proceed = some (stores, task.goto (.readingSteps waiter rest)) := by
  simp [EventTask.step, EventTask.proceed, phase, present]

/-- An event task that comes to the waiter of a wait answers it, and the resume it pushes is
published by the next flush. -/
theorem event_resumes {actors : List Agent} {waiter : Waiter} {position : Nat} {event : Event}
    (pending : stores.instances waiter.instanceId = some .pending)
    (awaits : stores.awaits waiter.instanceId waiter.stepIndex = true)
    (there : waiter ∈ stores.waiters) (answers : Answers stores waiter position event) :
    CanResume triggers ⟨stores, actors⟩ waiter.key event.data := by
  obtain ⟨process, alive⟩ := exists_living stores
  have selected : waiter ∈ EventTask.selected ⟨process, position, event, stores.clock, .selecting⟩
      stores := by
    simp [EventTask.selected, there, answers.name, answers.project, answers.early]
  obtain ⟨place, found⟩ := List.mem_iff_getElem?.mp selected
  have taken : Calmly triggers ⟨stores, actors⟩ (Crowd.join ⟨stores, actors⟩
      ⟨process, .task ⟨process, position, event, stores.clock, .selecting⟩⟩) := by
    apply Calmly.here.go (.takeEvent process position) rfl
    simp [step, answers.delivered, alive, answers.fresh]
  have read := taken.task alive .proceed nofun (if_neg answers.named)
  have met := read.task alive (.handle place) nofun
    (EventTask.step_looping rfl found answers.matched)
  have looked := met.task alive .proceed nofun (EventTask.step_readingInstance rfl pending)
  have sought := looked.task alive (.select (some waiter.stepIndex)) nofun (if_pos awaits)
  have answered := sought.task alive .proceed nofun rfl
  have pushed := answered.task alive .proceed nofun rfl
  obtain ⟨later, run, steps, stream⟩ := pushed.flushed rfl alive rfl rfl
  exact ⟨later, run, steps, stream⟩

end Notifkit.Workflow
