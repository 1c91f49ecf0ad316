import Notifkit.Delivery.Outcomes
import Notifkit.Foundations.Promises

/-!
# The delivery log rows of the event worker

A log event becomes one row, or two where it also stands for the dispatch. Rows
wait in a buffer, the oldest making room when it is full, and are inserted in
batches of whatever events came together. A batch is inserted as a whole or
not at all, its flush hears of that some time later, or is told of a failure in
either case; what is already recorded under a row's key is skipped. `process`
waits for its own rows.

Events for the workflow worker wait in a second buffer and are published behind
the rows of a flush, so a flush may fail after its rows were resolved. Both
buffers are drained by size, by an interval, and by a flush that ends.
-/

namespace Notifkit.Events

open Delivery.Log Pipeline Promises UniqueRows

/-- A row of `message_logs`. One without a timestamp has the time of its insert. -/
structure MessageLogRow where
  projectId : Text
  taskId : Text
  providerMessageId : Option Text
  channel : NotificationChannel
  attempt : Nat
  kind : LogKind
  status : Outcome
  templateId : Option Text
  workflowInstanceId : Option Text
  campaignId : Option Text
  timestamp : Option Text
deriving DecidableEq

/-- What rows are unique by. -/
def MessageLogRow.key (row : MessageLogRow) : Text × NotificationChannel × Nat × LogKind :=
  (row.taskId, row.channel, row.attempt, row.kind)

/-- Two rows claim one place. -/
def MessageLogRow.sameKey (one two : MessageLogRow) : Bool := one.key = two.key

/-- Inserts rows, skipping any already recorded. -/
def insertMessageLogs (table rows : List MessageLogRow) : List MessageLogRow :=
  insertNew MessageLogRow.sameKey table rows

/-- A log event with its payload. -/
structure LogEvent where
  type : Outcome
  projectId : Text
  taskId : Text
  providerMessageId : Option Text := none
  channel : NotificationChannel
  attempt : Option Nat := none
  templateId : Option Text := none
  workflowInstanceId : Option Text := none
  campaignId : Option Text := none
  dispatchedAt : Option Text := none
deriving DecidableEq

/-- An empty text counts as none. -/
def orNull : Option Text → Option Text
  | some [] => none
  | other => other

/-- A row of an event. -/
def LogEvent.row (event : LogEvent) (rowKind : LogKind) (rowStatus : Outcome)
    (providerMessageId timestamp : Option Text) : MessageLogRow where
  projectId := event.projectId
  taskId := event.taskId
  providerMessageId := providerMessageId
  channel := event.channel
  attempt := match event.attempt with
    | some (number + 1) => number + 1
    | _ => 1
  kind := rowKind
  status := rowStatus
  templateId := orNull event.templateId
  workflowInstanceId := orNull event.workflowInstanceId
  campaignId := orNull event.campaignId
  timestamp := timestamp

/-- The kind of the row of an event itself. -/
def LogEvent.kind (event : LogEvent) : LogKind :=
  if event.type = .dispatched then .dispatched else .attempt

/-- The rows of an event. An outcome with a dispatch time stands for the dispatched entry too. -/
def LogEvent.rows (event : LogEvent) : List MessageLogRow :=
  let own := event.row event.kind event.type (orNull event.providerMessageId) none
  if event.kind = .attempt ∧ (orNull event.dispatchedAt).isSome then
    [event.row .dispatched .dispatched none event.dispatchedAt, own]
  else [own]

/-- Why a promise was rejected. -/
inductive Rejection where
  | overflow
  | failed (error : Text)
deriving DecidableEq

/-- How a promise was settled. -/
abbrev Settlement := Except Rejection Unit

/-- A buffered row and the number of its promise. -/
structure BufferedLog where
  log : MessageLogRow
  promise : Nat
deriving DecidableEq

/-- A flush under way: its rows, the promises of the events to publish behind them, whether the
insert took effect, and whether nothing is left to insert. -/
structure Flush where
  batch : List BufferedLog
  events : List Nat
  landed : Bool := false
  written : Bool
deriving DecidableEq

/-- A call of `process`: its event and the promises it waits for. -/
structure ProcessCall where
  event : LogEvent
  promises : List Nat
deriving DecidableEq

/-- What the worker is configured with. -/
structure Limits where
  flushThreshold : Nat
  LOG_BUFFER_MAX_SIZE : Nat

/-- The flushes that may be under way at once. -/
def MAX_CONCURRENT_FLUSHES : Nat := 4

/-- The worker and the table. What each promise was made for is kept by its number: a row, or none
for an event to publish. -/
structure State where
  table : List MessageLogRow
  messageLogBuffer : List BufferedLog := []
  eventBuffer : List Nat := []
  flights : List Flush := []
  made : List (Option MessageLogRow) := []
  calls : List ProcessCall := []
  settled : List (Nat × Settlement) := []
  acknowledged : List LogEvent := []

/-- No slot is free, or there is nothing to flush. -/
def NothingToFlush (s : State) : Prop :=
  MAX_CONCURRENT_FLUSHES ≤ s.flights.length ∨
    s.messageLogBuffer.length = 0 ∧ s.eventBuffer.length = 0

instance (s : State) : Decidable (NothingToFlush s) := inferInstanceAs (Decidable (_ ∨ _))

/-- What is buffered goes out as one flush. -/
def flushLogs (s : State) : State :=
  if NothingToFlush s then s
  else { s with
    messageLogBuffer := []
    eventBuffer := []
    flights := s.flights ++
      [{ batch := s.messageLogBuffer
         events := s.eventBuffer
         written := s.messageLogBuffer.length = 0 }] }

/-- A full buffer drops its oldest row. -/
def dropOldest (limits : Limits) (s : State) : State :=
  if limits.LOG_BUFFER_MAX_SIZE ≤ s.messageLogBuffer.length then
    match s.messageLogBuffer with
    | [] => s
    | dropped :: rest =>
      { s with
        messageLogBuffer := rest
        settled := settleAll s.settled [(dropped.promise, .error .overflow)] }
  else s

/-- A row joins the buffer. -/
def pushRow (s : State) (log : MessageLogRow) : State :=
  { s with
    messageLogBuffer := s.messageLogBuffer ++ [⟨log, s.made.length⟩]
    made := s.made ++ [some log] }

/-- A flush by size. -/
def flushAtThreshold (limits : Limits) (s : State) : State :=
  if limits.flushThreshold ≤ s.messageLogBuffer.length then flushLogs s else s

/-- A log event is processed up to the wait for its rows. -/
def process (limits : Limits) (s : State) (event : LogEvent) : State :=
  let roomy := dropOldest limits s
  let pushed := event.rows.foldl pushRow roomy
  let call : ProcessCall := ⟨event, List.range' roomy.made.length event.rows.length⟩
  flushAtThreshold limits { pushed with calls := pushed.calls ++ [call] }

/-- An event for the workflow worker joins the second buffer. -/
def resume (s : State) : State :=
  { s with eventBuffer := s.eventBuffer ++ [s.made.length], made := s.made ++ [none] }

/-- The promises of some rows, with how they are settled. -/
def settleRows (batch : List BufferedLog) (value : Settlement) : List (Nat × Settlement) :=
  batch.map fun entry => (entry.promise, value)

/-- The promises of some events, with how they are settled. -/
def settleEvents (events : List Nat) (value : Settlement) : List (Nat × Settlement) :=
  events.map fun promise => (promise, value)

/-- A flush ends and settles what it has left: its slot is free again, and what gathered meanwhile
may go out. -/
def leave (limits : Limits) (s : State) (place : Nat) (entries : List (Nat × Settlement)) : State :=
  flushAtThreshold limits { s with
    settled := settleAll s.settled entries
    flights := s.flights.eraseIdx place }

/-- The insert of a flush takes effect. -/
def lands (s : State) (place : Nat) : Option State :=
  match s.flights[place]? with
  | none => none
  | some flush =>
    if flush.landed ∨ flush.written then none
    else some { s with
      table := insertMessageLogs s.table (flush.batch.map BufferedLog.log)
      flights := s.flights.set place { flush with landed := true } }

/-- A flush hears that its rows are inserted and resolves them; without events to publish it
ends. -/
def inserted (limits : Limits) (s : State) (place : Nat) : Option State :=
  match s.flights[place]? with
  | none => none
  | some flush =>
    if flush.landed ∧ ¬ flush.written then
      if flush.events.length = 0 then
        some (leave limits s place (settleRows flush.batch (.ok ())))
      else some { s with
        settled := settleAll s.settled (settleRows flush.batch (.ok ()))
        flights := s.flights.set place { flush with written := true } }
    else none

/-- Everything of a flush is rejected, whether or not it was settled before. -/
def rejectAll (flush : Flush) (error : Text) : List (Nat × Settlement) :=
  settleRows flush.batch (.error (.failed error)) ++
    settleEvents flush.events (.error (.failed error))

/-- The insert of a flush fails, or its answer is lost. -/
def insertFails (limits : Limits) (s : State) (place : Nat) (error : Text) : Option State :=
  match s.flights[place]? with
  | none => none
  | some flush =>
    if flush.written then none else some (leave limits s place (rejectAll flush error))

/-- The events of a flush are published. -/
def published (limits : Limits) (s : State) (place : Nat) : Option State :=
  match s.flights[place]? with
  | none => none
  | some flush =>
    if flush.written then some (leave limits s place (settleEvents flush.events (.ok ())))
    else none

/-- Publishing the events of a flush fails. -/
def publishFails (limits : Limits) (s : State) (place : Nat) (error : Text) : Option State :=
  match s.flights[place]? with
  | none => none
  | some flush =>
    if flush.written then some (leave limits s place (rejectAll flush error)) else none

/-- A promise was resolved. -/
def isResolved (settled : List (Nat × Settlement)) (promise : Nat) : Bool :=
  match settled.lookup promise with
  | some (.ok _) => true
  | _ => false

/-- `process` resolves once all its rows are. -/
def ProcessCall.resolved (call : ProcessCall) (settled : List (Nat × Settlement)) : Bool :=
  call.promises.all (isResolved settled)

/-- The event of a call that resolved is acknowledged. -/
def acknowledge (s : State) (place : Nat) : Option State :=
  match s.calls[place]? with
  | none => none
  | some call =>
    if call.resolved s.settled then
      some { s with acknowledged := s.acknowledged ++ [call.event] }
    else none

/-- What can happen next. -/
inductive Action where
  | process (event : LogEvent)
  | resume
  | interval
  | lands (place : Nat)
  | inserted (place : Nat)
  | insertFails (place : Nat) (error : Text)
  | published (place : Nat)
  | publishFails (place : Nat) (error : Text)
  | acknowledge (place : Nat)

/-- What goes on by itself: intervals, inserts and the answers to flushes. -/
def Action.isOwn : Action → Prop
  | .process _ | .resume | .acknowledge _ => False
  | .interval | .lands _ | .inserted _ | .insertFails _ _ | .published _ | .publishFails _ _ => True

/-- One turn. An interval that finds nothing to flush is none. -/
def step (limits : Limits) (s : State) : Action → Option State
  | .process event => some (process limits s event)
  | .resume => some (resume s)
  | .interval => if NothingToFlush s then none else some (flushLogs s)
  | .lands place => lands s place
  | .inserted place => inserted limits s place
  | .insertFails place error => insertFails limits s place error
  | .published place => published limits s place
  | .publishFails place error => publishFails limits s place error
  | .acknowledge place => acknowledge s place

end Notifkit.Events
