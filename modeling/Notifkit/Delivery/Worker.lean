import Notifkit.Foundations.Tables
import Notifkit.Foundations.Runs
import Notifkit.Idempotency

/-!
# The delivery worker

One call of `process` serves one copy of a task: it passes the provider gates, takes
the lease on the task's id, renders, tries the providers in order and then runs a tail
of effects that depends on the last result. Everything from the rendering to the tail
stands inside one `try`, whose `catch` releases the lease and rethrows.

Any number of calls run beside each other, in one worker or in many, for any number of
copies of a task. What a provider answers, which gate refuses and which effect throws
are choices of the environment. A send that runs into its timeout is given up by the
call but still running; the provider may report on it later. Log lines, metrics and
the contents of the published events are left out.
-/

namespace Notifkit.Delivery

open Runs Tables

/-- A provider's answer, as far as the worker reads it; an error thrown by the send
is an answer without success. -/
structure Response where
  success : Bool
  invalidToken : Bool := false
  retryable : Option Bool := none
deriving DecidableEq

/-- Where a call stands. -/
inductive CallPhase where
  /-- before the lease -/
  | gating
  /-- about to set the lease unless the key exists -/
  | asking
  /-- the key existed; about to read it -/
  | reading
  /-- the key was gone when read; about to try once more -/
  | retrying
  | rendering
  /-- at the head of the provider loop, with the result so far -/
  | dispatching (next : Nat) (result : Response)
  /-- waiting for a provider -/
  | sending (index : Nat)
  /-- past the loop: the effects that go with the result -/
  | concluding (result : Response)
  /-- past the effects: the lease is released for a retry, or upgraded -/
  | settling (retryScheduled : Bool)
  /-- in the `catch` block -/
  | caught
  | returned (ack : Bool)
  | threw
deriving DecidableEq

/-- One call of `process`. `upgrade` says that the write of the completion marker, which
nobody awaits, is under way. -/
structure Call where
  task : Text
  isPush : Bool
  attemptNo : Nat
  maxAttempts : Nat
  transports : Nat
  hasFallback : Bool
  startAt : Nat := 0
  phase : CallPhase := .gating
  upgrade : Bool := false
deriving DecidableEq

/-- The lifetime of the lease, in seconds. -/
def leaseSeconds : Nat := 60

/-- The result before any provider was asked. -/
def noTransports : Response := ⟨false, false, none⟩

/-- A rejected push token is an answer; it ends the loop like a success. -/
def Response.final (response : Response) (isPush : Bool) : Bool :=
  response.success || (isPush && response.invalidToken)

/-- An answer that is thrown inside the breaker, so that it counts as a failure. -/
def Response.thrown (response : Response) (isPush : Bool) : Bool :=
  !response.success && !(isPush && response.invalidToken) && response.retryable ≠ some false

/-- Where the loop goes with a provider's answer. -/
def afterResponse (call : Call) (index : Nat) (response : Response) : CallPhase :=
  if response.thrown call.isPush then .dispatching (index + 1) ⟨false, false, response.retryable⟩
  else if response.final call.isPush then .concluding response
  else .dispatching (index + 1) response

/-- Whether a failed result is queued again. -/
def retriesLater (call : Call) (result : Response) : Bool :=
  result.retryable ≠ some false && decide (call.attemptNo < call.maxAttempts)

/-- Where a call goes when none of the effects that go with its result throws. A failure
without a retry or a further channel ends in the worker's own `NonRetryableError`. -/
def afterEffects (call : Call) (result : Response) : CallPhase :=
  if call.isPush && result.invalidToken then
    if call.hasFallback then .settling false else .caught
  else if result.success then .settling false
  else if retriesLater call result then .settling true
  else if call.hasFallback then .settling false
  else .caught

/-- The calls, the keys they share, and the sends that were reported successful. -/
structure World where
  now : Nat := 0
  marks : Marks := .empty
  calls : List Call := []
  /-- the tasks of sends that were given up at their timeout and still run -/
  abandoned : List Text := []
  /-- ghost: the task of every send a provider reported successful -/
  delivered : List Text := []

/-- What can happen. `ok` and `released` say whether the step's own command succeeded. -/
inductive Action where
  | tick (ms : Nat)
  | start (task : Text) (isPush : Bool) (attemptNo maxAttempts transports : Nat)
      (hasFallback : Bool)
  /-- the gates let the call pass to a provider, or end it before the lease -/
  | gate (call : Nat) (startAt : Option Nat)
  | gateThrows (call : Nat)
  | setLease (call : Nat)
  | readLease (call : Nat)
  | retryLease (call : Nat)
  | render (call : Nat) (ok : Bool)
  | gateRefuses (call : Nat)
  | breakerOpen (call : Nat)
  | budgetExhausted (call : Nat)
  | send (call : Nat)
  | respond (call : Nat) (response : Response)
  | sendThrows (call : Nat) (retryable : Option Bool)
  | timeout (call : Nat)
  | lateReport (task : Text) (success : Bool)
  | loopEnds (call : Nat)
  | effectsPass (call : Nat)
  | effectThrows (call : Nat)
  | settle (call : Nat) (released : Bool)
  | leave (call : Nat) (released : Bool)
  | upgrade (call : Nat) (ok : Bool)
deriving DecidableEq

/-- The world after one call moved to another phase. -/
def World.moveTo (world : World) (index : Nat) (call : Call) (phase : CallPhase) : World :=
  { world with calls := world.calls.set index { call with phase := phase } }

/-- Set the lease unless the key exists; on failure the call goes where it is told. -/
def World.tryLease (world : World) (index : Nat) (call : Call) (otherwise : CallPhase) : World :=
  match world.marks.setNX world.now call.task .lease
      (IdempotencyGuard.expiry world.now leaseSeconds) with
  | some marks => { world.moveTo index call .rendering with marks := marks }
  | none => world.moveTo index call otherwise

/-- Delete the task's key, unless the command fails. -/
def World.release (world : World) (call : Call) (released : Bool) : World :=
  if released then { world with marks := IdempotencyGuard.unmark world.marks call.task } else world

/-- What a call does, given its place in the list. -/
def callStep (IDEMPOTENCY_TTL_SECONDS : Nat) (world : World) (index : Nat) (call : Call) :
    Action → Option World
  | .gate _ (some startAt) =>
    if call.phase = .gating ∧ startAt < call.transports then
      some { world with
        calls := world.calls.set index { call with phase := .asking, startAt := startAt } }
    else none
  | .gate _ none =>
    if call.phase = .gating then some (world.moveTo index call (.returned true)) else none
  | .gateThrows _ =>
    if call.phase = .gating then some (world.moveTo index call .threw) else none
  | .setLease _ =>
    if call.phase = .asking then some (world.tryLease index call .reading) else none
  | .readLease _ =>
    if call.phase = .reading then
      match world.marks.get world.now call.task with
      | some .processed => some (world.moveTo index call (.returned true))
      | some .lease => some (world.moveTo index call (.returned false))
      | none => some (world.moveTo index call .retrying)
    else none
  | .retryLease _ =>
    if call.phase = .retrying then some (world.tryLease index call (.returned false)) else none
  | .render _ ok =>
    if call.phase = .rendering then
      some (world.moveTo index call (if ok then .dispatching call.startAt noTransports else .caught))
    else none
  | .gateRefuses _ =>
    match call.phase with
    | .dispatching next result =>
      if next < call.transports ∧ call.startAt < next then
        some (world.moveTo index call (.dispatching (next + 1) result))
      else none
    | _ => none
  | .breakerOpen _ =>
    match call.phase with
    | .dispatching next _ =>
      if next < call.transports then
        some (world.moveTo index call (.dispatching (next + 1) ⟨false, false, none⟩))
      else none
    | _ => none
  | .budgetExhausted _ =>
    match call.phase with
    | .dispatching next result =>
      if next < call.transports then some (world.moveTo index call (.concluding result)) else none
    | _ => none
  | .send _ =>
    match call.phase with
    | .dispatching next _ =>
      if next < call.transports then some (world.moveTo index call (.sending next)) else none
    | _ => none
  | .respond _ response =>
    match call.phase with
    | .sending provider =>
      some { world.moveTo index call (afterResponse call provider response) with
        delivered := if response.success then call.task :: world.delivered else world.delivered }
    | _ => none
  | .sendThrows _ retryable =>
    match call.phase with
    | .sending provider =>
      some (world.moveTo index call (.dispatching (provider + 1) ⟨false, false, retryable⟩))
    | _ => none
  | .timeout _ =>
    match call.phase with
    | .sending provider =>
      some { world.moveTo index call (.dispatching (provider + 1) ⟨false, false, none⟩) with
        abandoned := call.task :: world.abandoned }
    | _ => none
  | .loopEnds _ =>
    match call.phase with
    | .dispatching next result =>
      if next = call.transports then some (world.moveTo index call (.concluding result)) else none
    | _ => none
  | .effectsPass _ =>
    match call.phase with
    | .concluding result => some (world.moveTo index call (afterEffects call result))
    | _ => none
  | .effectThrows _ =>
    match call.phase with
    | .concluding _ => some (world.moveTo index call .caught)
    | _ => none
  | .settle _ released =>
    match call.phase with
    | .settling true => some ((world.release call released).moveTo index call (.returned true))
    | .settling false =>
      some { world with
        calls := world.calls.set index { call with phase := .returned true, upgrade := true } }
    | _ => none
  | .leave _ released =>
    if call.phase = .caught then some ((world.release call released).moveTo index call .threw)
    else none
  | .upgrade _ ok =>
    if call.upgrade then
      some { world with
        calls := world.calls.set index { call with upgrade := false }
        marks := if ok then
            IdempotencyGuard.markProcessed world.marks world.now call.task IDEMPOTENCY_TTL_SECONDS
          else world.marks }
    else none
  | _ => none

/-- The call an action is about. -/
def Action.call : Action → Option Nat
  | .tick _ | .start .. | .lateReport .. => none
  | .gate call _ | .gateThrows call | .setLease call | .readLease call | .retryLease call
  | .render call _ | .gateRefuses call | .breakerOpen call | .budgetExhausted call | .send call
  | .respond call _ | .sendThrows call _ | .timeout call | .loopEnds call | .effectsPass call
  | .effectThrows call | .settle call _ | .leave call _ | .upgrade call _ => some call

/-- One step of the delivery workers. -/
def step (IDEMPOTENCY_TTL_SECONDS : Nat) (world : World) (action : Action) : Option World :=
  match action with
  | .tick ms => some { world with now := world.now + ms }
  | .start task isPush attemptNo maxAttempts transports hasFallback =>
    some { world with
      calls := world.calls ++ [{ task, isPush, attemptNo, maxAttempts, transports, hasFallback }] }
  | .lateReport task success =>
    if task ∈ world.abandoned then
      some { world with
        abandoned := world.abandoned.erase task
        delivered := if success then task :: world.delivered else world.delivered }
    else none
  | _ => do
    let index ← action.call
    let call ← world.calls[index]?
    callStep IDEMPOTENCY_TTL_SECONDS world index call action

/-- Releasing a lease changes no call and no clock. -/
theorem release_frame (world : World) (call : Call) (released : Bool) :
    (world.release call released).calls = world.calls ∧
      (world.release call released).now = world.now := by
  unfold World.release
  split <;> exact ⟨rfl, rfl⟩

/-- What stays of a call as it moves. -/
structure Call.Keeps (call later : Call) : Prop where
  task : later.task = call.task
  attemptNo : later.attemptNo = call.attemptNo
  maxAttempts : later.maxAttempts = call.maxAttempts
  hasFallback : later.hasFallback = call.hasFallback

/-- A step of a call moves this call only, and keeps what it came with. -/
theorem callStep_keeps {IDEMPOTENCY_TTL_SECONDS : Nat} {world next : World} {index : Nat}
    {call : Call} {action : Action}
    (taken : callStep IDEMPOTENCY_TTL_SECONDS world index call action = some next) :
    ∃ later, next.calls = world.calls.set index later ∧ call.Keeps later := by
  have leased : ∀ phase, ∃ later, (world.tryLease index call phase).calls =
      world.calls.set index later ∧ call.Keeps later := by
    intro phase
    unfold World.tryLease
    split <;> exact ⟨_, rfl, rfl, rfl, rfl, rfl⟩
  have released : ∀ released phase, ∃ later, ((world.release call released).moveTo index call
      phase).calls = world.calls.set index later ∧ call.Keeps later := by
    intro released phase
    unfold World.release
    split <;> exact ⟨_, rfl, rfl, rfl, rfl, rfl⟩
  revert taken
  fun_cases callStep <;> intro taken
  all_goals first
    | exact Option.some.inj taken ▸ ⟨_, rfl, rfl, rfl, rfl, rfl⟩
    | exact Option.some.inj taken ▸ leased _
    | exact Option.some.inj taken ▸ released _ _
    | cases taken

end Notifkit.Delivery
