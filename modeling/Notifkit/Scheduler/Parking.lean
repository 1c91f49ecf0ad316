import Notifkit.Scheduler.Stores

/-!
# Who parks a task, and who takes it back

Four callers work on parked tasks beside the polls. `scheduleOrDispatch` parks a task that
is due later, for the engine and for the AI worker; `reschedule` parks one again whose
delivery has to wait; the scheduler worker brings the member a message names to its
sorted set; and `cancelNotification` deletes the row. The effects of each are separate
commands. A command that fails ends the call, and its message stays.
-/

namespace Notifkit.Scheduler

/-- Where a call of `scheduleOrDispatch` stands. -/
inductive ParkPhase where
  | deciding
  | inserting (scheduledAt : SendTime)
  | announcing (scheduledAt : SendTime)
  | dispatching
  /-- the message is still to be acknowledged -/
  | acking
  | ended

/-- One call of `scheduleOrDispatch` for the message at a position. -/
structure Park where
  position : Nat
  source : Source
  phase : ParkPhase := .deciding

namespace Park

/-- The call at another phase. -/
def goto (park : Park) (phase : ParkPhase) : Park := { park with phase := phase }

/-- Whether the task is due later. -/
def decide (stores : Stores) (park : Park) : Park :=
  match park.source.scheduledAt with
  | some scheduledAt =>
    if stores.clock < scheduledAt.ms then park.goto (.inserting scheduledAt)
    else park.goto .dispatching
  | none => park.goto .dispatching

/-- The payload of the task, under its send time where it is parked. -/
def payload (park : Park) (scheduledAt : Option SendTime) : Payload :=
  ⟨park.source.projectId, park.source.enrichedEventId, scheduledAt⟩

/-- The message that brings the task to its sorted set. -/
def message (park : Park) (scheduledAt : SendTime) : Scheduled :=
  { taskId := park.source.taskId
    enrichedEventId := park.source.enrichedEventId
    scheduledAt := scheduledAt
    traceId := park.source.traceId
    home := none }

/-- A step of a call; `fails` is a command that fails. -/
def step (stores : Stores) (park : Park) (fails : Bool) : Option (Stores × Park) :=
  match park.phase, fails with
  | .ended, _ => none
  | _, true => some (stores, park.goto .ended)
  | .deciding, false => some (stores, park.decide stores)
  | .inserting scheduledAt, false =>
    some (stores.insertPayload park.source.taskId (park.payload (some scheduledAt)),
      park.goto (.announcing scheduledAt))
  | .announcing scheduledAt, false =>
    some (stores.announce (park.message scheduledAt), park.goto .acking)
  | .dispatching, false =>
    some (stores.dispatch park.source.taskId (park.payload none), park.goto .acking)
  | .acking, false =>
    some ({ stores with sourcesDone := park.position :: stores.sourcesDone }, park.goto .ended)

end Park

/-- Where the delivery of a dispatch stands. -/
inductive DeliveryPhase where
  | deciding
  /-- about to write the row -/
  | storing (scheduledAt : SendTime) (reason : Text)
  | announcing (scheduledAt : SendTime) (reason : Text)
  /-- the message is still to be acknowledged -/
  | acking
  | ended

/-- One delivery of the dispatch at a position. -/
structure Delivery where
  position : Nat
  task : Dispatch
  phase : DeliveryPhase := .deciding

/-- What a delivery does next. -/
inductive DeliveryChoice where
  /-- the task comes to its end: sent, skipped or given up -/
  | settle
  /-- the task has to wait -/
  | reschedule (delay : Nat) (reason : Text)
  | proceed
  | fail

namespace Delivery

/-- The delivery at another phase. -/
def goto (delivery : Delivery) (phase : DeliveryPhase) : Delivery := { delivery with phase := phase }

/-- The payload under its new send time. -/
def payload (delivery : Delivery) (scheduledAt : SendTime) : Payload :=
  { delivery.task.payload with scheduledAt := some scheduledAt }

/-- The trace id of a task parked again. -/
def traceId (delivery : Delivery) (reason : Text) (now : Nat) : Text :=
  delivery.task.taskId ++ ':' :: reason ++ ':' :: Nat.toDigits 10 now

/-- The message that brings the task to its sorted set again. -/
def message (delivery : Delivery) (scheduledAt : SendTime) (reason : Text) (now : Nat) :
    Scheduled :=
  { taskId := delivery.task.taskId
    enrichedEventId := delivery.task.payload.enrichedEventId
    scheduledAt := scheduledAt
    traceId := some (delivery.traceId reason now)
    home := some delivery.position }

/-- A step of a delivery. A task that has to wait waits at least a millisecond. -/
def step (stores : Stores) (delivery : Delivery) (choice : DeliveryChoice) :
    Option (Stores × Delivery) :=
  match delivery.phase, choice with
  | .ended, _ => none
  | _, .fail => some (stores, delivery.goto .ended)
  | .deciding, .settle =>
    some ({ stores with ended := delivery.task.taskId :: stores.ended }, delivery.goto .acking)
  | .deciding, .reschedule delay reason =>
    if 0 < delay then
      some (stores, delivery.goto (.storing ⟨stores.clock + delay, none⟩ reason))
    else none
  | .storing scheduledAt reason, .proceed =>
    some (stores.upsertPayload delivery.task.taskId (delivery.payload scheduledAt),
      delivery.goto (.announcing scheduledAt reason))
  | .announcing scheduledAt reason, .proceed =>
    some (stores.announce (delivery.message scheduledAt reason stores.clock),
      delivery.goto .acking)
  | .acking, .proceed =>
    some ({ stores with outboundDone := delivery.position :: stores.outboundDone },
      delivery.goto .ended)
  | _, _ => none

end Delivery

/-- Where the processing of a `notification.scheduled` message stands. -/
inductive QueueingPhase where
  | adding
  /-- the message is still to be acknowledged -/
  | acking
  | ended

/-- One call of the scheduler worker's `process` for the message at a position. -/
structure Queueing where
  position : Nat
  scheduled : Scheduled
  phase : QueueingPhase := .adding

namespace Queueing

/-- The call at another phase. -/
def goto (queueing : Queueing) (phase : QueueingPhase) : Queueing :=
  { queueing with phase := phase }

/-- A step of a call; `fails` is a command that fails. -/
def step (stores : Stores) (queueing : Queueing) (fails : Bool) : Option (Stores × Queueing) :=
  match queueing.phase, fails with
  | .ended, _ => none
  | _, true => some (stores, queueing.goto .ended)
  | .adding, false =>
    some (stores.zadd queueing.scheduled.scheduledAt.ms queueing.scheduled.member,
      queueing.goto .acking)
  | .acking, false =>
    some ({ stores with scheduledDone := queueing.position :: stores.scheduledDone },
      queueing.goto .ended)

end Queueing

/-- Where a call of `cancelNotification` stands. -/
inductive CancelPhase where
  | reading
  | deleting
  | answered (success : Bool)
  | threw

/-- One call of `cancelNotification`. -/
structure Cancel where
  projectId : Nat
  taskId : TaskId
  phase : CancelPhase := .reading

namespace Cancel

/-- The call at another phase. -/
def goto (cancel : Cancel) (phase : CancelPhase) : Cancel := { cancel with phase := phase }

/-- A step of a call; `fails` is a command that fails. -/
def step (stores : Stores) (cancel : Cancel) (fails : Bool) : Option (Stores × Cancel) :=
  match cancel.phase, fails with
  | .answered _, _ | .threw, _ => none
  | _, true => some (stores, cancel.goto .threw)
  | .reading, false =>
    match stores.scheduledPayloads.lookup cancel.taskId with
    | some row =>
      if row.payload.projectId = cancel.projectId then some (stores, cancel.goto .deleting)
      else some (stores, cancel.goto (.answered false))
    | none => some (stores, cancel.goto (.answered false))
  | .deleting, false =>
    match stores.scheduledPayloads.lookup cancel.taskId with
    | some row =>
      some ({ stores.deletePayloads fun taskId _ => taskId = cancel.taskId with
          canceled := row.id :: stores.canceled
          ended := cancel.taskId :: stores.ended },
        cancel.goto (.answered true))
    | none => some (stores, cancel.goto (.answered false))

end Cancel

end Notifkit.Scheduler
