import Notifkit.Delivery.SendOnce
import Notifkit.Foundations.UniqueRows
import Notifkit.Pipeline.Snapshot

/-!
# The outcomes of a task and the rows they become

The delivery worker takes entries of the outbound stream, one call of `process` for each time an
entry is delivered. The call's attempt number is the count its payload carries, plus the times the
entry was delivered. A failed send is parked with the count brought up to date; a send that failed
for good goes to the dead letters with the payload it came with, from where an operator may put it
back.

A call publishes its outcome, and the event worker makes a row of the delivery log of it. Rows are
unique by task, channel, attempt number and kind; a row whose place is taken is skipped.
-/

namespace Notifkit.Delivery.Log

open Pipeline Runs Tables UniqueRows

/-- A task as it travels, as far as its attempt numbers and outcomes go. -/
structure Payload where
  taskId : Text
  channel : NotificationChannel
  maxAttempts : Nat := 3
  hasFallback : Bool := false
  deliveryAttemptCount : Nat := 0
  throttleAttemptCount : Nat := 0
deriving DecidableEq

/-- An entry of the outbound stream, with the number of its deliveries so far. -/
structure Entry where
  payload : Payload
  deliveryCount : Nat := 0
  live : Bool := true
deriving DecidableEq

/-- What a call of `process` remembers beside what it shares with all calls. -/
structure Pass where
  entry : Nat
  payload : Payload
  dispatchStarted : Bool := false
  dispatchLogged : Bool := false
  nonRetryable : Bool := false
deriving DecidableEq

inductive Outcome where
  | dispatched | delivered | failed
deriving DecidableEq

/-- An outcome event. Where `dispatchedAt` is set it stands for the dispatched entry too. -/
structure OutcomeEvent where
  outcome : Outcome
  taskId : Text
  channel : NotificationChannel
  attempt : Option Nat
  dispatchedAt : Bool
deriving DecidableEq

inductive LogKind where
  | dispatched | attempt
deriving DecidableEq

/-- A row of `message_logs`. -/
structure LogRow where
  taskId : Text
  channel : NotificationChannel
  attempt : Nat
  kind : LogKind
  status : Outcome
deriving DecidableEq

/-- Two rows claim one place. -/
def LogRow.sameKey (one two : LogRow) : Bool :=
  one.taskId = two.taskId ∧ one.channel = two.channel ∧ one.attempt = two.attempt ∧
    one.kind = two.kind

/-- The attempt number of an event: 1 where it has none. -/
def OutcomeEvent.attemptNo (event : OutcomeEvent) : Nat :=
  match event.attempt with
  | some (number + 1) => number + 1
  | _ => 1

/-- The row of an event itself. -/
def OutcomeEvent.row (event : OutcomeEvent) : LogRow where
  taskId := event.taskId
  channel := event.channel
  attempt := event.attemptNo
  kind := if event.outcome = .dispatched then .dispatched else .attempt
  status := event.outcome

/-- The rows of an event. -/
def OutcomeEvent.rows (event : OutcomeEvent) : List LogRow :=
  if event.outcome ≠ .dispatched ∧ event.dispatchedAt = true then
    [{ event.row with kind := .dispatched, status := .dispatched }, event.row]
  else [event.row]

/-- Insert rows, skipping those that are recorded already. -/
def insertMessageLogs (logs rows : List LogRow) : List LogRow :=
  insertNew LogRow.sameKey logs rows

/-- The calls of all workers, with the streams and tables around them. `passes` runs along the
calls. -/
structure LogWorld where
  delivery : World := {}
  passes : List Pass := []
  outbound : List Entry := []
  scheduledPayloads : List Payload := []
  deadLetters : List Payload := []
  events : List OutcomeEvent := []
  messageLogs : List LogRow := []

def MAX_THROTTLE_DEFERRALS : Nat := 50

/-- Deliveries of an entry before it counts as a poison pill. -/
def maxRetriesBeforeDlq : Nat := 3

/-- How a call ends before it asks for the lease. -/
inductive GateEnd where
  | noTransport | providerThrottleExceeded | deferred
deriving DecidableEq

/-- What can happen. `published` says whether the event worker's stream took the call's event. -/
inductive LogAction where
  | dispatch (payload : Payload)
  | schedule (payload : Payload)
  | release (position : Nat) (kept : Bool)
  | replay (position : Nat) (kept : Bool)
  | take (entry transports : Nat)
  | gateEnds (call : Nat) (ending : GateEnd)
  | render (call : Nat) (ok nonRetryable : Bool)
  /-- a step of a call that neither publishes nor parks anything -/
  | quiet (action : Action)
  | timer (call : Nat) (published : Bool)
  | conclude (call : Nat) (published : Bool)
  | concludeThrows (call : Nat) (published parked : Bool)
  | leave (call : Nat) (released published : Bool)
  | crash (call : Nat)
  | ack (call : Nat)
  | deadLetter (call : Nat)
  | poison (entry : Nat)
  | store (position : Nat) (acked : Bool)
deriving DecidableEq

/-- The steps of a call that only the call itself sees. -/
def Action.quiet : Action → Bool
  | .start .. | .gate _ none | .gateThrows _ | .render .. | .effectsPass _ | .effectThrows _
  | .leave .. => false
  | _ => true

/-- The outcome that goes with a call's result; none where the send is tried again later. -/
def outcomeOf (call : Call) (result : Response) : Option Outcome :=
  if call.isPush && result.invalidToken then some .failed
  else if result.success then some .delivered
  else if retriesLater call result then none
  else some .failed

/-- The event of an outcome. The event of a delivery has its number with the dispatched entry, and
lacks both where that entry went out alone. -/
def eventOf (call : Call) (pass : Pass) (outcome : Outcome) : OutcomeEvent where
  outcome := outcome
  taskId := call.task
  channel := pass.payload.channel
  attempt := if outcome = .delivered ∧ pass.dispatchLogged = true then none else some call.attemptNo
  dispatchedAt := pass.dispatchStarted && !pass.dispatchLogged && outcome ≠ .dispatched

namespace LogWorld

variable (world : LogWorld)

/-- Publish an event, unless that fails. -/
def publish (published : Bool) (event : OutcomeEvent) : LogWorld :=
  if published then { world with events := world.events ++ [event] } else world

/-- The dispatched entry, unless it went out or there is none. -/
def logDispatched (published : Bool) (index : Nat) (call : Call) (pass : Pass) : LogWorld :=
  if pass.dispatchStarted && !pass.dispatchLogged then
    { world.publish published (eventOf call pass .dispatched) with
      passes := world.passes.set index { pass with dispatchLogged := true } }
  else world

/-- Park a payload in place of the task's last one. -/
def reschedule (parked : Bool) (payload : Payload) : LogWorld :=
  if parked then
    { world with scheduledPayloads :=
        (world.scheduledPayloads.filter fun other => other.taskId ≠ payload.taskId) ++ [payload] }
  else world

/-- The entry of a pass leaves the stream. -/
def leaveStream (entry : Nat) : LogWorld :=
  { world with outbound := world.outbound.modify entry fun old => { old with live := false } }

end LogWorld

/-- What a call of `process` does, with what it publishes and parks. -/
def passStep (IDEMPOTENCY_TTL_SECONDS : Nat) (world : LogWorld) (index : Nat) (call : Call)
    (pass : Pass) : LogAction → Option LogWorld
  | .gateEnds _ ending => do
    let delivery ← Delivery.step IDEMPOTENCY_TTL_SECONDS world.delivery (.gate index none)
    let after := { world with delivery := delivery }
    let failed := after.publish (!call.hasFallback) (eventOf call pass .failed)
    match ending with
    | .noTransport => if call.transports = 0 then some failed else none
    | .providerThrottleExceeded =>
      if MAX_THROTTLE_DEFERRALS < pass.payload.throttleAttemptCount + 1 then some failed else none
    | .deferred =>
      if pass.payload.throttleAttemptCount + 1 ≤ MAX_THROTTLE_DEFERRALS then
        some (after.reschedule true { pass.payload with
          throttleAttemptCount := pass.payload.throttleAttemptCount + 1 })
      else none
  | .render _ ok nonRetryable => do
    let delivery ← Delivery.step IDEMPOTENCY_TTL_SECONDS world.delivery (.render index ok)
    some { world with
      delivery := delivery
      passes := world.passes.set index { pass with
        dispatchStarted := ok, nonRetryable := !ok && nonRetryable } }
  | .timer _ published =>
    match call.phase with
    | .dispatching .. | .sending _ | .concluding _ =>
      some (world.logDispatched published index call pass)
    | _ => none
  | .conclude _ published =>
    match call.phase with
    | .concluding result => do
      let delivery ← Delivery.step IDEMPOTENCY_TTL_SECONDS world.delivery (.effectsPass index)
      let after := { world with delivery := delivery }
      match outcomeOf call result with
      | some outcome =>
        some { after.publish published (eventOf call pass outcome) with
          passes := world.passes.set index { pass with
            dispatchLogged := true, nonRetryable := afterEffects call result = .caught } }
      | none =>
        some ((after.reschedule true
          { pass.payload with deliveryAttemptCount := call.attemptNo }).logDispatched published index
            call pass)
    | _ => none
  | .concludeThrows _ published parked =>
    match call.phase with
    | .concluding result => do
      let delivery ← Delivery.step IDEMPOTENCY_TTL_SECONDS world.delivery (.effectThrows index)
      let after := { world with delivery := delivery }
      match outcomeOf call result with
      | some .failed =>
        some { after.publish published (eventOf call pass .failed) with
          passes := world.passes.set index { pass with dispatchLogged := published } }
      | some _ => some after
      | none => some (after.reschedule parked
          { pass.payload with deliveryAttemptCount := call.attemptNo })
    | _ => none
  | .leave _ released published => do
    let delivery ← Delivery.step IDEMPOTENCY_TTL_SECONDS world.delivery (.leave index released)
    some (LogWorld.logDispatched { world with delivery := delivery } published index call pass)
  | .crash _ => some { world with delivery := world.delivery.moveTo index call .threw }
  | .ack _ => if call.phase = .returned true then some (world.leaveStream pass.entry) else none
  | .deadLetter _ =>
    if call.phase = .threw ∧ pass.nonRetryable = true then
      some { world.leaveStream pass.entry with
        deadLetters := world.deadLetters ++ [pass.payload] }
    else none
  | _ => none

/-- The call an action is about. -/
def LogAction.call : LogAction → Option Nat
  | .gateEnds call _ | .render call .. | .timer call _ | .conclude call _ | .concludeThrows call ..
  | .leave call .. | .crash call | .ack call | .deadLetter call => some call
  | _ => none

/-- One step of the delivery workers, the scheduler, the dead letters or the event worker. -/
def step (IDEMPOTENCY_TTL_SECONDS : Nat) (world : LogWorld) (action : LogAction) :
    Option LogWorld :=
  match action with
  | .dispatch payload =>
    if payload.deliveryAttemptCount = 0 ∧ payload.throttleAttemptCount = 0 then
      some { world with outbound := world.outbound ++ [{ payload := payload }] }
    else none
  | .schedule payload =>
    if payload.deliveryAttemptCount = 0 ∧ payload.throttleAttemptCount = 0 ∧
        ∀ other ∈ world.scheduledPayloads, other.taskId ≠ payload.taskId then
      some { world with scheduledPayloads := world.scheduledPayloads ++ [payload] }
    else none
  | .release position kept => do
    let payload ← world.scheduledPayloads[position]?
    some { world with
      outbound := world.outbound ++ [{ payload := payload }]
      scheduledPayloads :=
        if kept then world.scheduledPayloads else world.scheduledPayloads.eraseIdx position }
  | .replay position kept => do
    let payload ← world.deadLetters[position]?
    some { world with
      outbound := world.outbound ++ [{ payload := payload }]
      deadLetters := if kept then world.deadLetters else world.deadLetters.eraseIdx position }
  | .take position transports => do
    let entry ← world.outbound[position]?
    let deliveryCount := entry.deliveryCount + 1
    let payload := entry.payload
    if entry.live = true ∧ deliveryCount ≤ maxRetriesBeforeDlq then
      let delivery ← Delivery.step IDEMPOTENCY_TTL_SECONDS world.delivery
        (.start payload.taskId (payload.channel = .push)
          (payload.deliveryAttemptCount + deliveryCount) payload.maxAttempts transports
          payload.hasFallback)
      some { world with
        delivery := delivery
        passes := world.passes ++ [{ entry := position, payload := payload }]
        outbound := world.outbound.set position { entry with deliveryCount := deliveryCount } }
    else none
  | .quiet action =>
    if Action.quiet action then do
      let delivery ← Delivery.step IDEMPOTENCY_TTL_SECONDS world.delivery action
      some { world with delivery := delivery }
    else none
  | .poison position => do
    let entry ← world.outbound[position]?
    if entry.live = true ∧ maxRetriesBeforeDlq < entry.deliveryCount + 1 then
      some { world.leaveStream position with deadLetters := world.deadLetters ++ [entry.payload] }
    else none
  | .store position acked => do
    let event ← world.events[position]?
    some { world with
      messageLogs := insertMessageLogs world.messageLogs event.rows
      events := if acked then world.events.eraseIdx position else world.events }
  | _ => do
    let index ← action.call
    let call ← world.delivery.calls[index]?
    let pass ← world.passes[index]?
    passStep IDEMPOTENCY_TTL_SECONDS world index call pass action

end Notifkit.Delivery.Log
