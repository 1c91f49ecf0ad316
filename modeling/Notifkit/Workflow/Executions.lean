import Notifkit.Workflow.Outputs
import Notifkit.Workflow.Waits

/-!
# One uninterrupted execution

A handler that ran through at once would get an answer from each step it asks for, and that
would be all. Replayed from a log it is stopped and started any number of times. Here it is
shown to come to the same: what it has seen in a run is what one execution gives it, with the
events and the results of this run as answers, and each notification is published and each
function executed once.

Two things stand in the way. An output that is written over leads a later replay another way
than the log, and the data of an event may read as a timeout.
-/

namespace Notifkit.Workflow

open Crowd Runs

variable {triggers : InstanceId → Trigger} {stores after : Stores} {me : Nat}

/-- What answers the steps of an execution, by index. -/
abbrev Oracle := StepIndex → StepCall → Json

/-- An uninterrupted execution of a handler, for so many steps: every step it asks for is
answered at once. -/
def execute (handler : List Json → Call) (oracle : Oracle) : Nat → List Json → List Json × Call
  | 0, results => (results, handler results)
  | steps + 1, results =>
    match handler results with
    | .step call => execute handler oracle steps (results ++ [oracle results.length call])
    | ended => (results, ended)

/-- Results that answer, one after another, the steps asked for before them are those of an
execution. -/
theorem execute_eq {handler : List Json → Call} {oracle : Oracle} {results : List Json}
    (follows : ∀ index, index < results.length → ∃ call,
      handler (results.take index) = .step call ∧ results[index]? = some (oracle index call)) :
    execute handler oracle results.length [] = (results, handler results) := by
  suffices onward : ∀ steps index, index + steps = results.length →
      execute handler oracle steps (results.take index) = (results, handler results) by
    exact onward results.length 0 (Nat.zero_add _)
  intro steps
  induction steps with
  | zero =>
    intro index all
    rw [Nat.add_zero] at all
    rw [all, List.take_length]
    rfl
  | succ steps inductionHypothesis =>
    intro index some'
    have inside : index < results.length := by omega
    obtain ⟨call, asks, present⟩ := follows index inside
    have length : (results.take index).length = index := by simp; omega
    have next : results.take index ++ [oracle index call] = results.take (index + 1) := by
      rw [List.take_add_one, present]
      rfl
    simp only [execute, asks, length, next]
    exact inductionHypothesis (index + 1) (by omega)

/-- The step a deed was done for. -/
def Deed.key (deed : Deed) : InstanceId × StepIndex := (deed.instanceId, deed.stepIndex)

/-- What the steps of an instance came to: the result of a notification or a function, nothing
from a wait, and the data of the event that answered a `waitForEvent`, or nothing where its
timeout did. -/
def Stores.oracle (stores : Stores) (instanceId : InstanceId) : Oracle := fun stepIndex call =>
  match call with
  | .notify | .run =>
    match stores.performed.find? fun deed =>
      deed.key = (instanceId, stepIndex) ∧ deed.action = call.action with
    | some deed => deed.output
    | none => .null
  | .wait _ => .null
  | .waitForEvent _ _ =>
    match stores.answered.find? fun answer =>
      answer.instanceId = instanceId ∧ answer.stepIndex = stepIndex with
    | some answer => answer.event.data
    | none => .null

/-- The data of an event does not read as a timeout. -/
def Event.plain (event : Event) : Bool :=
  match event.data.property "timedOut".toList with
  | some (.bool true) => false
  | _ => true

/-- An event task answers no step with data that reads as a timeout. -/
def answersPlain (world : World) : Action → Bool
  | .act index (.task (.select (some _))) =>
    (world.actors[index]?).all fun agent =>
      match agent.role with
      | .task task => task.event.plain
      | _ => true
  | _ => true

/-- Nobody finds a step that another is about to answer otherwise, and no event reads as a
timeout. -/
def AnswersPlainly (world : World) (action : Action) : Prop :=
  FindsAlone world action ∧ answersPlain world action = true

instance (world : World) (action : Action) : Decidable (AnswersPlainly world action) :=
  instDecidableAnd

/-- The rows tell what was done and what has answered. -/
structure Stores.Traced (stores : Stores) : Prop where
  distinct : (stores.performed.map Deed.key).Nodup
  done : ∀ instanceId, ∀ row ∈ stores.steps instanceId, row.action = .notify ∨ row.action = .run →
    ∃ deed ∈ stores.performed, deed.key = (instanceId, row.stepIndex) ∧
      deed.action = row.action ∧ deed.output = row.output
  recorded : ∀ deed ∈ stores.performed, stores.instances deed.instanceId = some .pending →
    deed.stepIndex < (stores.steps deed.instanceId).length
  known : ∀ deed ∈ stores.performed, stores.instances deed.instanceId ≠ none
  answered : ∀ answer ∈ stores.answered, answer.event.plain = true ∧
    ∃ row, (stores.steps answer.instanceId)[answer.stepIndex]? = some row ∧
      row.output = answer.event.data
  filled : ∀ instanceId, ∀ row ∈ stores.steps instanceId, row.action = .waitForEvent →
    row.output = .null ∨ row.output = timedOut ∨ ∃ answer ∈ stores.answered,
      answer.instanceId = instanceId ∧ answer.stepIndex = row.stepIndex

/-- The result a run is about to record. -/
def Run.done (run : Run) : Option (StepAction × Json) :=
  match run.phase with
  | .stepping .notify (.recording output _) => some (.notify, output)
  | .stepping .run (.recording output _) => some (.run, output)
  | _ => none

/-- The output a run is about to record for a step that waits for an event. -/
def Run.pends (run : Run) : Option Json :=
  match run.phase with
  | .stepping (.waitForEvent _ _) (.recording output _) => some output
  | _ => none

/-- What a run knows of the deeds of its instance: each has its row, but the one it is about to
record; and a handler that has returned had the answers of the first rows. -/
structure Run.Traces (triggers : InstanceId → Trigger) (stores : Stores) (run : Run) : Prop where
  deeds : run.phase.working = true → ∀ deed ∈ stores.performed,
    deed.instanceId = run.instanceId → deed.stepIndex < (stores.steps run.instanceId).length ∨
      run.done ≠ none ∧ deed.stepIndex = run.stepId
  done : ∀ result ∈ run.done, ∃ deed ∈ stores.performed,
    deed.key = (run.instanceId, run.stepId) ∧ deed.action = result.1 ∧ deed.output = result.2
  empty : ∀ output ∈ run.pends, output = .null
  returned : run.phase = .finishing .completed →
    run.results.length ≤ (stores.steps run.instanceId).length ∧
      answers stores.clock ((stores.steps run.instanceId).take run.results.length) =
        some run.results ∧ (triggers run.instanceId).handler run.results = .returns

/-- An event task about to answer a step has data that does not read as a timeout. -/
def EventTask.Plain (task : EventTask) : Prop :=
  ∀ waiter rest stepIndex, task.phase = .answering waiter rest stepIndex → task.event.plain = true

/-- What an actor knows, by its kind. -/
def Role.Traces (triggers : InstanceId → Trigger) (stores : Stores) : Role → Prop
  | .run current => current.Traces triggers stores
  | .task current => current.Plain
  | .poll _ | .reap _ => True

/-- What a living actor knows. -/
def Agent.Traces (triggers : InstanceId → Trigger) (_ : Nat) (agent : Option Agent)
    (stores : Stores) : Prop :=
  ∀ current, agent = some current → current.process ∉ stores.dead →
    current.role.Traces triggers stores

/-- The rows tell what was done, and every actor knows where it stands. -/
abbrev Traced (triggers : InstanceId → Trigger) : World → Prop :=
  Crowd.Holds Stores.Traced (Agent.Traces triggers)

/-- What the others see of a move: deeds stay, and only the run of an instance adds one. -/
structure TracesKept (mover : Option Nat) (stores after : Stores) : Prop where
  keeps : Keeps mover stores after
  performed : ∀ deed ∈ stores.performed, deed ∈ after.performed
  fresh : ∀ deed ∈ after.performed, deed ∈ stores.performed ∨
    ∃ owner, mover = some owner ∧ stores.runner deed.instanceId = some owner

theorem Grown.length (grown : Grown stores after) (instanceId : InstanceId) :
    (stores.steps instanceId).length ≤ (after.steps instanceId).length := by
  have length := (grown.rows instanceId).length_eq
  rw [List.length_take] at length
  omega

/-- A run at work has its instance. -/
theorem RunPhase.not_outer_of_working {phase : RunPhase} (working : phase.working = true) :
    ¬ phase.outer := by
  cases phase <;> simp_all [RunPhase.outer, RunPhase.working]

/-- A run is not disturbed by what others do. -/
theorem TracesKept.run {mover : Option Nat} (kept : TracesKept mover stores after) {run : Run}
    (apart : mover ≠ some me) (owns : run.Owns me stores) (traces : run.Traces triggers stores) :
    run.Traces triggers after := by
  have grown := kept.keeps.grown
  constructor
  · intro working deed member own
    rcases kept.fresh deed member with old | ⟨owner, moves, runs⟩
    · refine (traces.deeds working deed old own).imp_left fun inside => ?_
      exact Nat.lt_of_lt_of_le inside (grown.length _)
    · have mine := owns (RunPhase.not_outer_of_working working)
      rw [own] at runs
      exact absurd (moves.trans (runs.symm.trans mine)) apart
  · intro result is
    obtain ⟨deed, member, key⟩ := traces.done result is
    exact ⟨deed, kept.performed deed member, key⟩
  · exact traces.empty
  · intro phase
    obtain ⟨bound, answered, returns⟩ := traces.returned phase
    exact ⟨Nat.le_trans bound (grown.length _), grown.answers bound answered, returns⟩

/-- A run that is not at work, and whose handler has not returned, knows nothing. -/
theorem Run.Traces.of_idle {run : Run} (idle : run.phase.working = false)
    (open' : run.phase ≠ .finishing .completed) : run.Traces triggers stores := by
  have undone : run.done = none := by
    unfold Run.done
    cases phase : run.phase <;> simp_all [RunPhase.working]
  have none : run.pends = none := by
    unfold Run.pends
    cases phase : run.phase <;> simp_all [RunPhase.working]
  constructor
  · intro working
    exact nomatch idle.symm.trans working
  · intro result is
    exact nomatch undone.symm.trans is
  · intro output is
    exact nomatch none.symm.trans is
  · exact fun phase => absurd phase open'

/-- A run at work that is not about to record a result. -/
theorem Run.Traces.of_deeds {run : Run} (undone : run.done = none)
    (empty : ∀ output ∈ run.pends, output = .null) (open' : run.phase ≠ .finishing .completed)
    (deeds : ∀ deed ∈ stores.performed, deed.instanceId = run.instanceId →
      deed.stepIndex < (stores.steps run.instanceId).length) : run.Traces triggers stores := by
  constructor
  · exact fun _ deed member own => .inl (deeds deed member own)
  · intro result is
    exact nomatch undone.symm.trans is
  · exact empty
  · exact fun phase => absurd phase open'

/-- A run at work that is about to record neither a result nor a wait. -/
theorem Run.Traces.of_plain_deeds {run : Run} (undone : run.done = none)
    (unpending : run.pends = none) (open' : run.phase ≠ .finishing .completed)
    (deeds : ∀ deed ∈ stores.performed, deed.instanceId = run.instanceId →
      deed.stepIndex < (stores.steps run.instanceId).length) : run.Traces triggers stores := by
  refine .of_deeds undone ?_ open' deeds
  intro output listed
  cases unpending.symm.trans listed

/-- Deeds and rows are as they were, and an instance becomes pending only where its deeds have
their rows. -/
theorem Stores.Traced.of_same (traced : stores.Traced) (performed : after.performed = stores.performed)
    (steps : after.steps = stores.steps) (answered : after.answered = stores.answered)
    (pending : ∀ instanceId, after.instances instanceId = some .pending →
      stores.instances instanceId = some .pending ∨ ∀ deed ∈ stores.performed,
        deed.instanceId = instanceId → deed.stepIndex < (stores.steps instanceId).length)
    (present : ∀ instanceId, stores.instances instanceId ≠ none →
      after.instances instanceId ≠ none) : after.Traced where
  distinct := performed ▸ traced.distinct
  done := by
    rw [steps, performed]
    exact traced.done
  recorded := by
    rw [steps, performed]
    intro deed member is
    rcases pending _ is with was | recorded
    · exact traced.recorded deed member was
    · exact recorded deed member rfl
  known := by
    rw [performed]
    exact fun deed member => present _ (traced.known deed member)
  answered := by
    rw [answered, steps]
    exact traced.answered
  filled := by
    rw [steps, answered]
    exact traced.filled

/-- A run inserts the row of a step: a result that was produced, or a step that waits. -/
theorem Stores.Traced.insert (traced : stores.Traced) {instanceId : InstanceId} {row : StepRow}
    (done : row.action = .notify ∨ row.action = .run → ∃ deed ∈ stores.performed,
      deed.key = (instanceId, row.stepIndex) ∧ deed.action = row.action ∧ deed.output = row.output)
    (empty : row.action = .waitForEvent → row.output = .null) :
    (stores.insertStep instanceId row).Traced := by
  have longer : ∀ other, (stores.steps other).length ≤
      ((stores.insertStep instanceId row).steps other).length := by
    intro other
    rw [Stores.steps_insertStep]
    split
    next same =>
      subst same
      simp
    next => exact Nat.le_refl _
  constructor
  · exact traced.distinct
  · intro other found member kind
    rcases mem_insertStep member with old | ⟨rfl, rfl⟩
    · exact traced.done other found old kind
    · exact done kind
  · exact fun deed member pending =>
      Nat.lt_of_lt_of_le (traced.recorded deed member pending) (longer _)
  · exact traced.known
  · intro answer member
    obtain ⟨plain, found, present, output⟩ := traced.answered answer member
    exact ⟨plain, found, Stores.insertStep_row present, output⟩
  · intro other found member kind
    rcases mem_insertStep member with old | ⟨rfl, rfl⟩
    · exact traced.filled other found old kind
    · exact .inl (empty kind)

/-- A step is answered, by an event or by its timeout. -/
theorem Stores.Traced.answer (traced : stores.Traced) {instanceId : InstanceId}
    {stepIndex : StepIndex} {output : Json} {row : StepRow} {more : List Answer}
    (beside : Beside stores (stores.answerStep instanceId stepIndex output))
    (present : (stores.steps instanceId)[stepIndex]? = some row) (place : row.stepIndex = stepIndex)
    (who : output = timedOut ∨ more ≠ [])
    (fits : ∀ answer ∈ more, answer.instanceId = instanceId ∧ answer.stepIndex = stepIndex ∧
      answer.event.data = output ∧ answer.event.plain = true)
    (steps : after.steps = (stores.answerStep instanceId stepIndex output).steps)
    (performed : after.performed = stores.performed) (instances : after.instances = stores.instances)
    (answered : after.answered = more ++ stores.answered) : after.Traced := by
  have grown : ∀ other, Extended (stores.steps other) (after.steps other) :=
    fun other => steps ▸ beside.rows other
  constructor
  · exact performed ▸ traced.distinct
  · intro other later member kind
    obtain ⟨position, found⟩ := List.mem_iff_getElem?.mp member
    obtain ⟨old, was, extended⟩ := (grown other).rowBefore found
    have action := extended.action
    have same : later = old := by
      rcases extended with same | ⟨waits, _, _⟩
      · exact same
      · rw [action, waits] at kind
        rcases kind with kind | kind <;> cases kind
    subst same
    rw [performed]
    exact traced.done other later (List.mem_of_getElem? was) kind
  · rw [performed]
    intro deed member pending
    rw [instances] at pending
    rw [← (grown deed.instanceId).length_eq]
    exact traced.recorded deed member pending
  · rw [performed, instances]
    exact traced.known
  · rw [answered]
    intro answer member
    rcases List.mem_append.mp member with new | old
    · obtain ⟨rfl, rfl, data, plain⟩ := fits answer new
      refine ⟨plain, { row with output := output }, ?_, data.symm⟩
      rw [steps]
      simp [Stores.answerStep, present, place]
    · obtain ⟨plain, found, was, is⟩ := traced.answered answer old
      obtain ⟨later, now, extended⟩ := (grown answer.instanceId).row was
      have filled : found.output ≠ .null := is ▸ Event.data_ne_null _
      exact ⟨plain, later, now, by rw [extended.filled filled, is]⟩
  · rw [answered, steps]
    intro other later member kind
    rcases mem_answerStep member with old | ⟨rfl, old, was, rfl, rfl⟩
    · refine (traced.filled other later old kind).imp_right (Or.imp_right ?_)
      rintro ⟨answer, there, key⟩
      exact ⟨answer, List.mem_append_right _ there, key⟩
    · rcases who with rfl | some'
      · exact .inr (.inl rfl)
      · obtain ⟨answer, there⟩ := List.exists_mem_of_ne_nil more some'
        obtain ⟨place, step, _⟩ := fits answer there
        exact .inr (.inr ⟨answer, List.mem_append_left _ there, place, step⟩)

end Notifkit.Workflow
