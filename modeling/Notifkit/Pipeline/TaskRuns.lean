import Notifkit.Foundations.Cascades
import Notifkit.Pipeline.ParkingTimes

/-!
# From a request to the ends of its tasks

The enricher's events wait in the enriched streams, or are handed to the engine by calls where the
pipeline is fused and the request is for one user. The engine makes a task for each address of an
event; a task may be generated, wait for its time and go to delivery several times, and ends where
it is delivered, fails, or leaves an event for the next channel.

Ids are drawn at random. Of the events with one key of the engine only one is processed, so that an
event is known by its key here. What is outside is given by functions: the clocks, the throttle, the
generation and the providers, each asked about one event or task.
-/

namespace Notifkit.Pipeline.TaskRuns

open Runs Cascades ParkingTimes

/-- What events are known by: the id of a request, or the engine's key of an event made of one. -/
inductive EventId where
  | requested (eventId : Text)
  | enriched (rawEventId : EventId) (recipientId : Text) (channel : NotificationChannel)
      (contactId : Option Text)
deriving DecidableEq

/-- An enriched event, with what it came of: the request, or the event whose task failed. -/
structure Event where
  rawEventId : EventId
  enriched : NotificationEnriched
deriving DecidableEq

/-- The engine's idempotency key. -/
def Event.id (event : Event) : EventId :=
  .enriched event.rawEventId event.enriched.recipientId event.enriched.channel
    (truthy event.enriched.contactId)

/-- The event delivery makes for the next channel. -/
def Event.fallback (event : Event) : Option Event :=
  match event.enriched.fallbackChain with
  | [] => none
  | nextChannel :: remainingChain => some
      { rawEventId := event.id
        enriched := { event.enriched with
          channel := nextChannel
          scheduledAt := none
          fallbackChain := remainingChain
          contactId := none
          destination := none
          throttleCounted := true } }

/-- `taskId`, the key of delivery's lease. -/
structure TaskId where
  rawEventId : EventId
  contactId : Text
deriving DecidableEq

inductive Phase where
  | aiPending (scheduledAt : Option Int)
  | parked (sendAt : Int)
  | outbound
  | delivered
  | failed
  /-- given up for the next channel -/
  | fellBack
  | generationFailed
  /-- a copy of a task that another one stands for -/
  | skipped
deriving DecidableEq

structure Task where
  event : Event
  contact : UserContact
  phase : Phase
  deliveryAttemptCount : Nat := 0
  throttleAttemptCount : Nat := 0
  /-- calls of delivery that took it -/
  trips : Nat := 0
  /-- those that reached a provider -/
  sends : Nat := 0
  parkedFor : List Int := []
deriving DecidableEq

def Task.id (task : Task) : TaskId := ⟨task.event.rawEventId, task.contact.id⟩

/-- What becomes of a task in delivery. A send is refused for good, or failed and may be tried
again. -/
inductive Answer where
  | noTransport
  | noCapacity (delayMs : Nat)
  | accepted
  | refused
  | failed
deriving DecidableEq

/-- What is outside. Providers and clocks are asked at each call of delivery for a task. -/
structure Surroundings where
  judgedAt : EventId → Int
  throttled : EventId → Bool
  dispatchedAt : TaskId → Int
  generates : TaskId → Bool
  answers : TaskId → Nat → Answer
  answeredAt : TaskId → Nat → Int

/-- Both sources of prompts; a request's own go before those of its template. -/
def usesAi (snapshot : Snapshot) (enriched : NotificationEnriched) : Bool :=
  let dbTemplate := (truthy enriched.templateId).bind (snapshot.findTemplate enriched.projectId)
  (dbTemplate.map TemplateRow.aiPrompts).getD [] ++ enriched.aiPrompts ≠ []

namespace Task

/-- `scheduleOrDispatch` -/
def scheduleOrDispatch (task : Task) (now : Int) (scheduledAt : Option Int) : Task :=
  let sendAt := scheduledAt.getD now
  if now < sendAt then
    { task with phase := .parked sendAt, parkedFor := task.parkedFor ++ [sendAt] }
  else { task with phase := .outbound }

/-- `reschedule` -/
def reschedule (task : Task) (sendAt : Int) : Task :=
  { task with phase := .parked sendAt, parkedFor := task.parkedFor ++ [sendAt] }

/-- Goes on to the next channel, if there is one. -/
def giveUp (task : Task) : Task :=
  { task with phase := if task.event.enriched.fallbackChain = [] then .failed else .fellBack }

/-- The end of a send that failed: tried later, or given up. -/
def retryLater (task : Task) (now : Int) : Task :=
  let attemptNo := task.deliveryAttemptCount + 1
  if attemptNo < maxAttempts then
    { task with deliveryAttemptCount := attemptNo }.reschedule
      (now + (retryDelayMs task.deliveryAttemptCount : Nat))
  else task.giveUp

/-- A wait for capacity, if there were not too many. -/
def deferForCapacity (task : Task) (now : Int) (delayMs : Nat) : Task :=
  let throttleAttemptCount := task.throttleAttemptCount + 1
  if throttleAttemptCount ≤ Delivery.Log.MAX_THROTTLE_DEFERRALS then
    { task with throttleAttemptCount := throttleAttemptCount }.reschedule (now + delayMs)
  else task.giveUp

/-- One call of delivery. -/
def deliver (task : Task) (now : Int) (answer : Answer) : Task :=
  let task := { task with trips := task.trips + 1 }
  match answer with
  | .noTransport => task.giveUp
  | .noCapacity delayMs => task.deferForCapacity now delayMs
  | .accepted => { task with sends := task.sends + 1, phase := .delivered }
  | .refused => { task with sends := task.sends + 1 }.giveUp
  | .failed => { task with sends := task.sends + 1 }.retryLater now

/-- What happens to a task next, at its `nth` call of delivery. -/
def advance (surroundings : Surroundings) (nth : Nat) (task : Task) : Option Task :=
  match task.phase with
  | .aiPending scheduledAt =>
    if surroundings.generates task.id then
      some (task.scheduleOrDispatch (surroundings.dispatchedAt task.id) scheduledAt)
    else some { task with phase := .generationFailed }
  | .parked _ => some { task with phase := .outbound }
  | .outbound =>
    some (task.deliver (surroundings.answeredAt task.id nth) (surroundings.answers task.id nth))
  | .delivered | .failed | .fellBack | .generationFailed | .skipped => none

/-- The event a task leaves that was given up. -/
def leaves (task : Task) : Option Event :=
  if task.phase = .fellBack then task.event.fallback else none

/-- Nothing more happens to a task. -/
def isOver (task : Task) : Bool :=
  match task.phase with
  | .aiPending _ | .parked _ | .outbound => false
  | .delivered | .failed | .fellBack | .generationFailed | .skipped => true

/-- Delivery is through with a task, and its lease says so. -/
def completed (task : Task) : Bool := task.phase = .delivered || task.phase = .fellBack

end Task

section System

variable (toLowerCase : Text → Text) (zoneOf : Text → Zone) (snapshot : Snapshot)
  (surroundings : Surroundings)

/-- The task the engine makes for an address. -/
def taskFor (event : Event) (contact : UserContact) : Task :=
  let scheduledAt := deferQuiet zoneOf event.enriched.recipient event.enriched.priority
    (surroundings.judgedAt event.id) (event.enriched.scheduledAt.map Nat.cast)
  let task : Task := { event := event, contact := contact, phase := .aiPending scheduledAt }
  if usesAi snapshot event.enriched then task
  else task.scheduleOrDispatch (surroundings.dispatchedAt task.id) scheduledAt

/-- `EngineWorker.process`: the tasks of an event. A fallback was counted before. -/
def tasksOf (event : Event) : List Task :=
  if event.enriched.throttleCounted = false ∧ surroundings.throttled event.id then []
  else
    match Engine.targets toLowerCase snapshot event.enriched with
    | .error _ => []
    | .ok contacts => contacts.map (taskFor zoneOf snapshot surroundings event)

/-- Where a request is. Calls are those of the fused enricher that the engine has not taken up. -/
structure State where
  called : List Event := []
  streamed : List Event := []
  marks : List EventId := []
  tasks : List Task := []
  /-- tasks as they are after each send that reached a provider -/
  trace : List Task := []
deriving DecidableEq

inductive Action where
  | call (position : Nat)
  | take (position : Nat)
  | advance (position : Nat)
  | skip (position : Nat)
deriving DecidableEq

/-- The calls of delivery there were for a task id. -/
def State.tripsOf (state : State) (id : TaskId) : Nat :=
  ((state.tasks.filter fun task => task.id = id).map Task.trips).sum

/-- A task is sent with a copy of it completed: its lease is not to be had. -/
def State.standsFor (state : State) (task : Task) : Bool :=
  task.phase = .outbound ∧ state.tasks.any fun other => other.id = task.id ∧ other.completed

/-- Another copy of a task is in delivery, or was. -/
def State.copied (state : State) (position : Nat) (task : Task) : Bool :=
  task.phase = .outbound ∧ (state.tasks.eraseIdx position).any fun other =>
    other.id = task.id ∧ (other.phase = .outbound ∨ other.completed = true)

def step (state : State) : Action → Option State
  | .call position => do
    let event ← state.called[position]?
    -- inline, the engine asks for no mark
    some { state with
      called := state.called.eraseIdx position
      tasks := state.tasks ++ tasksOf toLowerCase zoneOf snapshot surroundings event }
  | .take position => do
    let event ← state.streamed[position]?
    let streamed := state.streamed.eraseIdx position
    if event.id ∈ state.marks then some { state with streamed := streamed }
    else some { state with
      streamed := streamed
      marks := event.id :: state.marks
      tasks := state.tasks ++ tasksOf toLowerCase zoneOf snapshot surroundings event }
  | .advance position => do
    let task ← state.tasks[position]?
    if state.standsFor task then none
    else
      let next ← task.advance surroundings (state.tripsOf task.id)
      some { state with
        streamed := state.streamed ++ next.leaves.toList
        tasks := state.tasks.set position next
        trace := if task.sends < next.sends then state.trace ++ [next] else state.trace }
  | .skip position => do
    let task ← state.tasks[position]?
    if state.copied position task then
      some { state with tasks := state.tasks.set position { task with phase := .skipped } }
    else none

/-- The events of the enricher. -/
def firstEvents (raw : NotificationRequested) : List Event :=
  (Enricher.fanOut snapshot raw).map fun enriched => ⟨.requested raw.eventId, enriched⟩

/-- Each stage reads its own stream. -/
def streamedStart (raw : NotificationRequested) : State :=
  { streamed := firstEvents snapshot raw }

/-- The enricher calls the engine. -/
def fusedStart (raw : NotificationRequested) : State :=
  { called := firstEvents snapshot raw }

/-- How a request begins; only one for a single user is handed on by calls. -/
inductive Begins (raw : NotificationRequested) : State → Prop where
  | streamed : Begins raw (streamedStart snapshot raw)
  | fused {userId : Text} (single : raw.userIds = [userId]) : Begins raw (fusedStart snapshot raw)

/-- The engine and delivery without their ids: what becomes of events and tasks by themselves. -/
def rules : Rules Event Task EventId where
  key := Event.id
  jobs := tasksOf toLowerCase zoneOf snapshot surroundings
  advance task := task.advance surroundings task.trips
  leaves := Task.leaves

end System

/-- Nothing is left to do. -/
structure State.Ended (state : State) : Prop where
  called : state.called = []
  streamed : state.streamed = []
  tasks : ∀ task ∈ state.tasks, task.isOver = true

section Tasks

variable {surroundings : Surroundings} {task next : Task}

/-- A task goes on until it is over. -/
theorem Task.advance_eq_none {nth : Nat} :
    task.advance surroundings nth = none ↔ task.isOver = true := by
  rw [Task.advance, Task.isOver]
  cases task.phase with
  | aiPending scheduledAt => cases surroundings.generates task.id <;> simp
  | _ => simp

theorem Task.giveUp_event : task.giveUp.event = task.event ∧ task.giveUp.contact = task.contact :=
  ⟨rfl, rfl⟩

theorem Task.scheduleOrDispatch_event (now : Int) (scheduledAt : Option Int) :
    (task.scheduleOrDispatch now scheduledAt).event = task.event ∧
      (task.scheduleOrDispatch now scheduledAt).contact = task.contact := by
  unfold Task.scheduleOrDispatch
  dsimp only
  split <;> exact ⟨rfl, rfl⟩

/-- A call of delivery leaves the task's event and address. -/
theorem Task.deliver_event (now : Int) (answer : Answer) :
    (task.deliver now answer).event = task.event ∧
      (task.deliver now answer).contact = task.contact := by
  cases answer with
  | noTransport => exact ⟨rfl, rfl⟩
  | noCapacity delayMs =>
    simp only [Task.deliver, Task.deferForCapacity]
    split <;> exact ⟨rfl, rfl⟩
  | accepted => exact ⟨rfl, rfl⟩
  | refused => exact ⟨rfl, rfl⟩
  | failed =>
    simp only [Task.deliver, Task.retryLater]
    split <;> exact ⟨rfl, rfl⟩

/-- A task keeps its event and its address. -/
theorem Task.advance_event {nth : Nat} (moved : task.advance surroundings nth = some next) :
    next.event = task.event ∧ next.contact = task.contact := by
  unfold Task.advance at moved
  split at moved
  · split at moved
    · exact Option.some.inj moved ▸ scheduleOrDispatch_event _ _
    · exact Option.some.inj moved ▸ ⟨rfl, rfl⟩
  · exact Option.some.inj moved ▸ ⟨rfl, rfl⟩
  · exact Option.some.inj moved ▸ deliver_event _ _
  all_goals cases moved

theorem Task.advance_id {nth : Nat} (moved : task.advance surroundings nth = some next) :
    next.id = task.id := by
  obtain ⟨event, contact⟩ := advance_event moved
  simp only [Task.id, event, contact]

/-- The task for an address has the event and the address. -/
theorem taskFor_event (zoneOf : Text → Zone) (snapshot : Snapshot) (surroundings : Surroundings)
    (event : Event) (contact : UserContact) :
    (taskFor zoneOf snapshot surroundings event contact).event = event ∧
      (taskFor zoneOf snapshot surroundings event contact).contact = contact := by
  unfold taskFor
  dsimp only
  split
  · exact ⟨rfl, rfl⟩
  · exact Task.scheduleOrDispatch_event _ _

end Tasks

section Tasks

variable {toLowerCase : Text → Text} {zoneOf : Text → Zone} {snapshot : Snapshot}
  {surroundings : Surroundings} {event : Event} {task : Task}

/-- The tasks of an event are for addresses it is sent to. -/
theorem mem_tasksOf : task ∈ tasksOf toLowerCase zoneOf snapshot surroundings event ↔
    ¬ (event.enriched.throttleCounted = false ∧ surroundings.throttled event.id = true) ∧
    ∃ contacts, Engine.targets toLowerCase snapshot event.enriched = .ok contacts ∧
      ∃ contact ∈ contacts, taskFor zoneOf snapshot surroundings event contact = task := by
  unfold tasksOf
  split
  next dropped => simp [dropped]
  next passed =>
    cases Engine.targets toLowerCase snapshot event.enriched with
    | error reason => simp
    | ok contacts => simpa using fun _ _ _ => passed

end Tasks

end Notifkit.Pipeline.TaskRuns
