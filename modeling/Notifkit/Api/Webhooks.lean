import Notifkit.Foundations.Runs
import Notifkit.Foundations.Tables
import Notifkit.Foundations.UniqueRows
import Notifkit.Pipeline.Gates

/-!
# What a provider reports afterwards

A provider reports on messages it accepted: that one was opened, bounced, or that its recipient
wants no more. The handler finds the project and task of a message by the provider's id in the
delivery log, which the event worker writes in its own time. It makes a row of the log for each
event it can attribute, and a suppression for each that asks for one, in two statements.

A provider delivers a request again until it is answered with success. `Attributed` says that a
look-up finds the messages that were sent; then every answer stands for a suppression, and handling
a request again adds nothing.
-/

namespace Notifkit.Api.Webhooks

open Pipeline Runs Tables UniqueRows

inductive WebhookStatus where
  | opened | clicked | bounced | complained | unsubscribed
deriving DecidableEq

inductive BounceType where
  | hard | soft
deriving DecidableEq

structure WebhookEvent where
  providerMessageId : Text
  status : WebhookStatus
  recipient : Option Text := none
  bounceType : Option BounceType := none
deriving DecidableEq

/-- What a row of the delivery log is about. -/
inductive LogKind where
  | dispatched | attempt
  | engagement (status : WebhookStatus)
deriving DecidableEq

/-- A row of `message_logs`. -/
structure MessageLog where
  projectId : Text
  taskId : Text
  providerMessageId : Option Text
  channel : NotificationChannel
  attempt : Nat
  kind : LogKind
deriving DecidableEq

/-- Two rows claim one place. -/
def MessageLog.sameKey (one two : MessageLog) : Bool :=
  one.taskId = two.taskId ∧ one.channel = two.channel ∧ one.attempt = two.attempt ∧
    one.kind = two.kind

/-- A row of `suppressions`. -/
structure Suppression where
  projectId : Text
  channel : NotificationChannel
  target : Text
  reason : WebhookStatus
  taskId : Text
deriving DecidableEq

/-- Two suppressions claim one place: the first reason wins. -/
def Suppression.sameKey (one two : Suppression) : Bool :=
  one.projectId = two.projectId ∧ one.channel = two.channel ∧ one.target = two.target

section Handler

variable (toLowerCase : Text → Text) (channel : NotificationChannel) (existing : List MessageLog)

/-- The project and task of a message: those of the last row that was found for its id. -/
def attribution (providerMessageId : Text) : Option (Text × Text) :=
  if providerMessageId = [] then none
  else (existing.reverse.find? fun row => row.providerMessageId = some providerMessageId).map
    fun row => (row.projectId, row.taskId)

/-- The rows of the log for the events that can be attributed. Engagement is no attempt. -/
def engagementRows (events : List WebhookEvent) : List MessageLog :=
  events.filterMap fun e => (attribution existing e.providerMessageId).map fun (projectId, taskId) =>
    { projectId := projectId, taskId := taskId, providerMessageId := some e.providerMessageId,
      channel := channel, attempt := 0, kind := .engagement e.status }

/-- Sends to the recipient are to stop: on unsubscribes, complaints and hard bounces. -/
def WebhookEvent.stops (e : WebhookEvent) : Bool :=
  (truthy e.recipient).isSome && (e.status = .unsubscribed || e.status = .complained ||
    (e.status = .bounced && e.bounceType = some .hard))

/-- The suppressions of the events that ask for one and can be attributed. -/
def suppressionRows (events : List WebhookEvent) : List Suppression :=
  events.filterMap fun e =>
    if e.stops then (attribution existing e.providerMessageId).map fun (projectId, taskId) =>
      { projectId := projectId, channel := channel,
        target := normaliseTarget toLowerCase (e.recipient.getD []), reason := e.status,
        taskId := taskId }
    else none

end Handler

/-- A message a provider accepted. -/
structure Sent where
  projectId : Text
  taskId : Text
  channel : NotificationChannel
  providerMessageId : Text
deriving DecidableEq

/-- A request of a provider. It is delivered again until it was answered with success. -/
structure Request where
  channel : NotificationChannel
  events : List WebhookEvent
  done : Bool := false
deriving DecidableEq

/-- Where the handling of a request stands. -/
inductive HandlingPhase where
  | received
  | found (existing : List MessageLog)
  | logged (existing : List MessageLog)
  | suppressed
  | ended
deriving DecidableEq

/-- One delivery of a request; `answered` once it ran into the time limit. -/
structure Handling where
  request : Nat
  channel : NotificationChannel
  events : List WebhookEvent
  phase : HandlingPhase := .received
  answered : Bool := false
deriving DecidableEq

structure World where
  sent : List Sent := []
  /-- rows on their way to the log -/
  pending : List MessageLog := []
  messageLogs : List MessageLog := []
  suppressions : List Suppression := []
  requests : List Request := []
  handlings : List Handling := []

inductive Action where
  | send (message : Sent)
  /-- an outcome is published that the event worker will make a row of -/
  | publish (row : MessageLog)
  | flush (position : Nat)
  | prune (position : Nat)
  | report (channel : NotificationChannel) (events : List WebhookEvent)
  | deliver (request : Nat)
  | lookUp (handling : Nat) (existing : List MessageLog)
  | insertLogs (handling : Nat)
  | insertSuppressions (handling : Nat)
  | answer (handling : Nat)
  | timeout (handling : Nat)
  | fail (handling : Nat)
deriving DecidableEq

/-- A row of a message, or of an outcome that has none. -/
def MessageLog.of (row : MessageLog) (sent : List Sent) : Prop :=
  row.providerMessageId = none ∨ ∃ message ∈ sent, row.projectId = message.projectId ∧
    row.taskId = message.taskId ∧ row.channel = message.channel ∧
    row.providerMessageId = some message.providerMessageId

instance (row : MessageLog) (sent : List Sent) : Decidable (row.of sent) :=
  inferInstanceAs (Decidable (_ ∨ _))

/-- These are the rows a look-up finds, in some order. -/
def World.finds (world : World) (events : List WebhookEvent) (existing : List MessageLog) : Bool :=
  let matching := world.messageLogs.filter fun row => events.any fun e =>
    e.providerMessageId ≠ [] ∧ row.providerMessageId = some e.providerMessageId
  existing.all (· ∈ matching) && matching.all (· ∈ existing)

/-- One handling moves to another phase. -/
def World.moveTo (world : World) (index : Nat) (handling : Handling) (phase : HandlingPhase) :
    World :=
  { world with handlings := world.handlings.set index { handling with phase := phase } }

/-- What a handling does. -/
def handlingStep (toLowerCase : Text → Text) (world : World) (index : Nat) (handling : Handling) :
    Action → Option World
  | .lookUp _ existing =>
    if handling.phase = .received ∧ world.finds handling.events existing = true then
      some (world.moveTo index handling (.found existing))
    else none
  | .insertLogs _ =>
    match handling.phase with
    | .found existing =>
      some { world.moveTo index handling (.logged existing) with
        messageLogs := insertNew MessageLog.sameKey world.messageLogs
          (engagementRows handling.channel existing handling.events) }
    | _ => none
  | .insertSuppressions _ =>
    match handling.phase with
    | .logged existing =>
      some { world.moveTo index handling .suppressed with
        suppressions := insertNew Suppression.sameKey world.suppressions
          (suppressionRows toLowerCase handling.channel existing handling.events) }
    | _ => none
  | .answer _ =>
    if handling.phase = .suppressed then
      some { world.moveTo index handling .ended with
        requests := if handling.answered then world.requests
          else world.requests.modify handling.request fun request => { request with done := true } }
    else none
  | .timeout _ =>
    some { world with handlings := world.handlings.set index { handling with answered := true } }
  | .fail _ => some (world.moveTo index handling .ended)
  | _ => none

/-- The handling an action is about. -/
def Action.handling : Action → Option Nat
  | .lookUp handling _ | .insertLogs handling | .insertSuppressions handling | .answer handling
  | .timeout handling | .fail handling => some handling
  | _ => none

/-- One step of the providers, the event worker, the pruning or a handler. A provider reports on a
message after it accepted it. -/
def step (toLowerCase : Text → Text) (world : World) (action : Action) : Option World :=
  match action with
  | .send message =>
    if ∀ request ∈ world.requests, request.channel = message.channel →
        ∀ e ∈ request.events, e.providerMessageId ≠ message.providerMessageId then
      some { world with sent := message :: world.sent }
    else none
  | .publish row =>
    if row.of world.sent then some { world with pending := world.pending ++ [row] } else none
  | .flush position => do
    let row ← world.pending[position]?
    some { world with
      pending := world.pending.eraseIdx position
      messageLogs := insertNew MessageLog.sameKey world.messageLogs [row] }
  | .prune position => some { world with messageLogs := world.messageLogs.eraseIdx position }
  | .report channel events =>
    some { world with requests := world.requests ++ [{ channel := channel, events := events }] }
  | .deliver position => do
    let request ← world.requests[position]?
    if request.done = false then
      some { world with handlings := world.handlings ++
        [{ request := position, channel := request.channel, events := request.events }] }
    else none
  | _ => do
    let index ← action.handling
    let handling ← world.handlings[index]?
    handlingStep toLowerCase world index handling action

/-- The event asks to stop sends to its recipient, about this message. -/
structure Concerns (e : WebhookEvent) (channel : NotificationChannel) (message : Sent) : Prop where
  stops : e.stops = true
  id : e.providerMessageId ≠ []
  channel : message.channel = channel
  same : message.providerMessageId = e.providerMessageId

instance (e : WebhookEvent) (channel : NotificationChannel) (message : Sent) :
    Decidable (Concerns e channel message) :=
  decidable_of_iff (e.stops = true ∧ e.providerMessageId ≠ [] ∧ message.channel = channel ∧
      message.providerMessageId = e.providerMessageId)
    ⟨fun ⟨stops, id, onChannel, same⟩ => ⟨stops, id, onChannel, same⟩,
      fun concerns => ⟨concerns.stops, concerns.id, concerns.channel, concerns.same⟩⟩

/-- A look-up finds the message an event asks to stop sends about. -/
def Attributed (world : World) : Action → Prop
  | .lookUp index existing => ∀ handling ∈ world.handlings[index]?, ∀ e ∈ handling.events,
      ∀ message ∈ world.sent, Concerns e handling.channel message →
        attribution existing e.providerMessageId = some (message.projectId, message.taskId)
  | _ => True

instance (world : World) (action : Action) : Decidable (Attributed world action) := by
  unfold Attributed
  split <;> infer_instance

/-- The row of the log an event asks for. -/
def engagementOf (e : WebhookEvent) (message : Sent) : MessageLog where
  projectId := message.projectId
  taskId := message.taskId
  providerMessageId := some e.providerMessageId
  channel := message.channel
  attempt := 0
  kind := .engagement e.status

/-- The suppression an event asks for. -/
def suppressionOf (toLowerCase : Text → Text) (e : WebhookEvent) (message : Sent) : Suppression where
  projectId := message.projectId
  channel := message.channel
  target := normaliseTarget toLowerCase (e.recipient.getD [])
  reason := e.status
  taskId := message.taskId

section Events

variable {toLowerCase : Text → Text} {channel : NotificationChannel} {existing : List MessageLog}
  {events : List WebhookEvent} {e : WebhookEvent} {message : Sent}

/-- What an event that is attributed rightly adds to the log. -/
theorem engagementRows_single (concerns : Concerns e channel message)
    (right : attribution existing e.providerMessageId = some (message.projectId, message.taskId)) :
    engagementRows channel existing [e] = [engagementOf e message] := by
  simp [engagementRows, right, engagementOf, concerns.channel]

/-- What it adds to the suppressions. -/
theorem suppressionRows_single (concerns : Concerns e channel message)
    (right : attribution existing e.providerMessageId = some (message.projectId, message.taskId)) :
    suppressionRows toLowerCase channel existing [e] = [suppressionOf toLowerCase e message] := by
  simp [suppressionRows, right, suppressionOf, concerns.channel, concerns.stops]

theorem mem_suppressionRows (listed : e ∈ events) (concerns : Concerns e channel message)
    (right : attribution existing e.providerMessageId = some (message.projectId, message.taskId)) :
    suppressionOf toLowerCase e message ∈ suppressionRows toLowerCase channel existing events := by
  refine List.mem_filterMap.mpr ⟨e, listed, ?_⟩
  simp [right, suppressionOf, concerns.channel, concerns.stops]

end Events

/-- The message's project has a suppression for the channel and the recipient of the event. -/
def Stopped (toLowerCase : Text → Text) (world : World) (e : WebhookEvent) (message : Sent) : Prop :=
  ∃ row ∈ world.suppressions, (suppressionOf toLowerCase e message).sameKey row = true

/-- What holds where every look-up finds the messages. -/
structure Kept (toLowerCase : Text → Text) (world : World) : Prop where
  ofRequest : ∀ handling ∈ world.handlings, ∃ request, world.requests[handling.request]? =
    some request ∧ request.channel = handling.channel ∧ request.events = handling.events
  right : ∀ handling ∈ world.handlings, ∀ existing, handling.phase = .found existing ∨
    handling.phase = .logged existing → ∀ e ∈ handling.events, ∀ message ∈ world.sent,
      Concerns e handling.channel message →
        attribution existing e.providerMessageId = some (message.projectId, message.taskId)
  suppressed : ∀ handling ∈ world.handlings, handling.phase = .suppressed →
    ∀ e ∈ handling.events, ∀ message ∈ world.sent, Concerns e handling.channel message →
      Stopped toLowerCase world e message
  done : ∀ request ∈ world.requests, request.done = true → ∀ e ∈ request.events,
    ∀ message ∈ world.sent, Concerns e request.channel message → Stopped toLowerCase world e message

section Kept

variable {toLowerCase : Text → Text} {world after : World}

/-- A handling moves on. -/
theorem Kept.move (kept : Kept toLowerCase world) {index : Nat} {handling later : Handling}
    (present : world.handlings[index]? = some handling)
    (sent : after.sent = world.sent) (requests : after.requests = world.requests)
    (grows : ∀ row ∈ world.suppressions, row ∈ after.suppressions)
    (handlings : after.handlings = world.handlings.set index later)
    (same : later.request = handling.request ∧ later.channel = handling.channel ∧
      later.events = handling.events)
    (right : ∀ existing, later.phase = .found existing ∨ later.phase = .logged existing →
      ∀ e ∈ handling.events, ∀ message ∈ world.sent, Concerns e handling.channel message →
        attribution existing e.providerMessageId = some (message.projectId, message.taskId))
    (suppressed : later.phase = .suppressed → ∀ e ∈ handling.events, ∀ message ∈ world.sent,
      Concerns e handling.channel message → Stopped toLowerCase after e message) :
    Kept toLowerCase after := by
  obtain ⟨sameRequest, sameChannel, sameEvents⟩ := same
  have stays : ∀ e message, Stopped toLowerCase world e message → Stopped toLowerCase after e message :=
    fun e message ⟨row, stored, key⟩ => ⟨row, grows row stored, key⟩
  refine ⟨?_, ?_, ?_, ?_⟩
  · rw [handlings, requests]
    refine all_set kept.ofRequest ?_
    rw [sameRequest, sameChannel, sameEvents]
    exact kept.ofRequest handling (List.mem_of_getElem? present)
  · rw [handlings, sent]
    refine all_set kept.right ?_
    rw [sameChannel, sameEvents]
    exact right
  · rw [handlings, sent]
    refine all_set (fun other has isSuppressed e listed message known concerns =>
      stays e message (kept.suppressed other has isSuppressed e listed message known concerns)) ?_
    rw [sameChannel, sameEvents]
    exact suppressed
  · rw [requests, sent]
    exact fun request listed isDone e has message known concerns =>
      stays e message (kept.done request listed isDone e has message known concerns)

/-- A handler that inserted its suppressions has stopped the sends its events ask to stop. -/
theorem stopped_of_insert {existing : List MessageLog} {handling : Handling} {e : WebhookEvent}
    {message : Sent} (listed : e ∈ handling.events) (concerns : Concerns e handling.channel message)
    (right : attribution existing e.providerMessageId = some (message.projectId, message.taskId))
    (suppressions : after.suppressions = insertNew Suppression.sameKey world.suppressions
      (suppressionRows toLowerCase handling.channel existing handling.events)) :
    Stopped toLowerCase after e message := by
  have place : suppressionOf toLowerCase e message ∈ after.suppressions ∨
      ∃ stored ∈ after.suppressions, (suppressionOf toLowerCase e message).sameKey stored = true ∧
        _ := suppressions ▸ insertNew_place (mem_suppressionRows listed concerns right)
  rcases place with there | ⟨stored, member, same, _⟩
  · exact ⟨_, there, by simp [Suppression.sameKey]⟩
  · exact ⟨stored, member, same⟩

/-- A request is done once a handler of it that stopped the sends answers. -/
theorem Kept.close (kept : Kept toLowerCase world) {handling : Handling}
    (ofRequest : ∃ request, world.requests[handling.request]? = some request ∧
      request.channel = handling.channel ∧ request.events = handling.events)
    (stopped : ∀ e ∈ handling.events, ∀ message ∈ world.sent,
      Concerns e handling.channel message → Stopped toLowerCase world e message) :
    Kept toLowerCase { world with
      requests := world.requests.modify handling.request fun request =>
        { request with done := true } } := by
  have rows : ∀ position, (world.requests.modify handling.request
      fun request => { request with done := true })[position]? =
        (world.requests[position]?).map fun request =>
          if handling.request = position then { request with done := true } else request := by
    intro position
    rw [List.getElem?_modify]
    cases world.requests[position]? <;> rfl
  refine ⟨?_, kept.right, kept.suppressed, ?_⟩
  · intro other has
    obtain ⟨request, found, sameChannel, sameEvents⟩ := kept.ofRequest other has
    refine ⟨_, by rw [rows, found, Option.map_some], ?_, ?_⟩
    · split <;> exact sameChannel
    · split <;> exact sameEvents
  · intro request has isDone e listed message known concerns
    obtain ⟨position, found⟩ := List.mem_iff_getElem?.mp has
    rw [rows] at found
    obtain ⟨before, was, same⟩ := Option.map_eq_some_iff.mp found
    split at same
    next own =>
      obtain ⟨first, foundFirst, sameChannel, sameEvents⟩ := ofRequest
      obtain rfl : before = first := Option.some.inj (was.symm.trans (own ▸ foundFirst))
      subst same
      exact stopped e (sameEvents ▸ listed) message known (sameChannel ▸ concerns)
    next =>
      subst same
      exact kept.done before (List.mem_of_getElem? was) isDone e listed message known concerns

/-- A step of a handler keeps the facts where its look-up finds the messages. -/
theorem Kept.handling (kept : Kept toLowerCase world) {index : Nat} {handling : Handling}
    {action : Action} (about : action.handling = some index)
    (present : world.handlings[index]? = some handling) (attributed : Attributed world action)
    (taken : handlingStep toLowerCase world index handling action = some after) :
    Kept toLowerCase after := by
  have member : handling ∈ world.handlings := List.mem_of_getElem? present
  cases action with
  | lookUp _ existing =>
    obtain rfl := Option.some.inj about
    obtain ⟨_, same⟩ := Option.ite_none_right_eq_some.mp taken
    obtain rfl := Option.some.inj same
    refine kept.move present rfl rfl (fun _ stored => stored) rfl ⟨rfl, rfl, rfl⟩ ?_ nofun
    rintro other (found | logged) e listed message known concerns
    · obtain rfl := HandlingPhase.found.inj found
      exact attributed handling present e listed message known concerns
    · cases logged
  | insertLogs _ =>
    simp only [handlingStep] at taken
    split at taken
    next existing phase =>
      obtain rfl := Option.some.inj taken
      refine kept.move present rfl rfl (fun _ stored => stored) rfl ⟨rfl, rfl, rfl⟩ ?_ nofun
      rintro other (found | logged)
      · cases found
      · obtain rfl := HandlingPhase.logged.inj logged
        exact kept.right handling member existing (.inl phase)
    next => cases taken
  | insertSuppressions _ =>
    simp only [handlingStep] at taken
    split at taken
    next existing phase =>
      obtain rfl := Option.some.inj taken
      refine kept.move present rfl rfl (fun _ stored => mem_insertNew stored) rfl ⟨rfl, rfl, rfl⟩
        (fun _ other => by rcases other with other | other <;> cases other) ?_
      intro _ e listed message known concerns
      have right := kept.right handling member existing (.inr phase) e listed message known concerns
      exact stopped_of_insert listed concerns right rfl
    next => cases taken
  | answer _ =>
    obtain ⟨phase, same⟩ := Option.ite_none_right_eq_some.mp taken
    obtain rfl := Option.some.inj same
    have moved : Kept toLowerCase (world.moveTo index handling .ended) :=
      kept.move present rfl rfl (fun _ stored => stored) rfl ⟨rfl, rfl, rfl⟩
        (fun _ other => by rcases other with other | other <;> cases other) nofun
    cases answered : handling.answered with
    | true => exact moved
    | false =>
      exact moved.close (kept.ofRequest handling member) (kept.suppressed handling member phase)
  | timeout _ =>
    obtain rfl := Option.some.inj taken
    exact kept.move present rfl rfl (fun _ stored => stored) rfl ⟨rfl, rfl, rfl⟩
      (kept.right handling member) (kept.suppressed handling member)
  | fail _ =>
    obtain rfl := Option.some.inj taken
    exact kept.move present rfl rfl (fun _ stored => stored) rfl ⟨rfl, rfl, rfl⟩
      (fun _ other => by rcases other with other | other <;> cases other) nofun
  | _ => cases about

/-- Every step in which look-ups find the messages keeps the facts. -/
theorem kept_step {action : Action} (kept : Kept toLowerCase world)
    (attributed : Attributed world action) (taken : step toLowerCase world action = some after) :
    Kept toLowerCase after := by
  cases about : action.handling with
  | some index =>
    have own : ((world.handlings[index]?).bind fun handling =>
        handlingStep toLowerCase world index handling action) = some after := by
      cases action with
      | send | publish | flush | prune | report | deliver => cases about
      | _ => obtain rfl := Option.some.inj about; exact taken
    obtain ⟨handling, present, taken⟩ := Option.bind_eq_some_iff.mp own
    exact kept.handling about present attributed taken
  | none =>
    cases action with
    | send message =>
      obtain ⟨unreported, same⟩ := Option.ite_none_right_eq_some.mp taken
      obtain rfl := Option.some.inj same
      -- No request names the new message, so the facts are about the old ones.
      have old : ∀ request ∈ world.requests, ∀ e ∈ request.events, ∀ other ∈ message :: world.sent,
          Concerns e request.channel other → other ∈ world.sent := by
        intro request has e listed other known concerns
        rcases List.mem_cons.mp known with rfl | before
        · exact absurd concerns.same.symm (unreported request has concerns.channel.symm e listed)
        · exact before
      have oldHere : ∀ handling ∈ world.handlings, ∀ e ∈ handling.events,
          ∀ other ∈ message :: world.sent, Concerns e handling.channel other →
            other ∈ world.sent := by
        intro handling has e listed other known concerns
        obtain ⟨request, found, sameChannel, sameEvents⟩ := kept.ofRequest handling has
        exact old request (List.mem_of_getElem? found) e (sameEvents ▸ listed) other known
          (sameChannel ▸ concerns)
      exact ⟨kept.ofRequest,
        fun handling has existing phase e listed other known concerns =>
          kept.right handling has existing phase e listed other
            (oldHere handling has e listed other known concerns) concerns,
        fun handling has phase e listed other known concerns =>
          kept.suppressed handling has phase e listed other
            (oldHere handling has e listed other known concerns) concerns,
        fun request has isDone e listed other known concerns =>
          kept.done request has isDone e listed other
            (old request has e listed other known concerns) concerns⟩
    | publish row =>
      obtain ⟨_, same⟩ := Option.ite_none_right_eq_some.mp taken
      obtain rfl := Option.some.inj same
      exact ⟨kept.ofRequest, kept.right, kept.suppressed, kept.done⟩
    | flush position =>
      obtain ⟨row, _, same⟩ := Option.bind_eq_some_iff.mp taken
      obtain rfl := Option.some.inj same
      exact ⟨kept.ofRequest, kept.right, kept.suppressed, kept.done⟩
    | prune position =>
      obtain rfl := Option.some.inj taken
      exact ⟨kept.ofRequest, kept.right, kept.suppressed, kept.done⟩
    | report channel events =>
      obtain rfl := Option.some.inj taken
      refine ⟨fun handling has => ?_, kept.right, kept.suppressed, all_append kept.done nofun⟩
      obtain ⟨request, found, same⟩ := kept.ofRequest handling has
      exact ⟨request, row_append.mpr (.inl found), same⟩
    | deliver position =>
      obtain ⟨request, found, taken⟩ := Option.bind_eq_some_iff.mp taken
      obtain ⟨_, same⟩ := Option.ite_none_right_eq_some.mp taken
      obtain rfl := Option.some.inj same
      refine ⟨all_append kept.ofRequest ⟨request, found, rfl, rfl⟩, all_append kept.right ?_,
        all_append kept.suppressed nofun, kept.done⟩
      rintro existing (other | other) <;> cases other
    | _ => cases about

end Kept

/-- In every run in which look-ups find the messages: once a request was answered with success, each
of its events that asks to stop the sends of a message has its suppression. And whatever handling of
the event is at its inserts, it adds nothing where the row or the suppression is there. -/
theorem answered_events_stop_sends (toLowerCase : Text → Text) (world : World)
    (run : Reaches (step toLowerCase) Attributed {} world) (e : WebhookEvent) (message : Sent)
    (known : message ∈ world.sent) (channel : NotificationChannel)
    (concerns : Concerns e channel message) :
    (∀ request ∈ world.requests, request.channel = channel → e ∈ request.events →
      request.done = false ∨ ∃ row ∈ world.suppressions, row.projectId = message.projectId ∧
        row.channel = channel ∧ row.target = normaliseTarget toLowerCase (e.recipient.getD [])) ∧
    ∀ handling ∈ world.handlings, handling.channel = channel → e ∈ handling.events →
      ∀ existing, handling.phase = .found existing ∨ handling.phase = .logged existing →
        ((∃ row ∈ world.messageLogs, (engagementOf e message).sameKey row = true) →
          insertNew MessageLog.sameKey world.messageLogs (engagementRows channel existing [e]) =
            world.messageLogs) ∧
        ((∃ row ∈ world.suppressions, (suppressionOf toLowerCase e message).sameKey row = true) →
          insertNew Suppression.sameKey world.suppressions
            (suppressionRows toLowerCase channel existing [e]) = world.suppressions) := by
  have kept : Kept toLowerCase world := by
    refine run.invariant ⟨nofun, nofun, nofun, nofun⟩ ?_
    exact fun _ _ _ kept attributed taken => kept_step kept attributed taken
  constructor
  · intro request has sameChannel listed
    cases isDone : request.done with
    | false => exact .inl rfl
    | true =>
      obtain ⟨row, stored, same⟩ := kept.done request has isDone e listed message known
        (sameChannel.symm ▸ concerns)
      have key : message.projectId = row.projectId ∧ message.channel = row.channel ∧
          normaliseTarget toLowerCase (e.recipient.getD []) = row.target :=
        of_decide_eq_true same
      exact .inr ⟨row, stored, key.1.symm, key.2.1.symm.trans concerns.channel, key.2.2.symm⟩
  · intro handling has sameChannel listed existing phase
    have right := kept.right handling has existing phase e listed message known
      (sameChannel.symm ▸ concerns)
    rw [engagementRows_single concerns right, suppressionRows_single concerns right]
    exact ⟨insertNew_taken, insertNew_taken⟩

/-- A message, and the complaint of its recipient. -/
def mail : Sent := ⟨"p".toList, "t".toList, .email, "m".toList⟩

def complaint : WebhookEvent := ⟨"m".toList, .complained, some "A@x".toList, none⟩

/-- The row the event worker makes of the message's outcome. -/
def outcomeRow : MessageLog := ⟨"p".toList, "t".toList, some "m".toList, .email, 1, .attempt⟩

/-- The complaint comes after the log was written. The first handling fails between its inserts. -/
def complaintAfterFlush : List Action :=
  [.send mail, .publish outcomeRow, .flush 0, .report .email [complaint], .deliver 0,
    .lookUp 0 [outcomeRow], .insertLogs 0, .fail 0, .deliver 0,
    .lookUp 1 [engagementOf complaint mail, outcomeRow], .insertLogs 1, .insertSuppressions 1,
    .answer 1]

theorem answered_events_stop_sends_run : ∃ world,
    Reaches (step Text.toLowerCase) Attributed {} world ∧
    world.requests.map Request.done = [true] ∧ world.messageLogs.length = 2 ∧
    ∀ request ∈ world.requests, request.channel = .email → complaint ∈ request.events →
      request.done = false ∨ ∃ row ∈ world.suppressions, row.projectId = "p".toList ∧
        row.channel = .email ∧ row.target = normaliseTarget Text.toLowerCase "A@x".toList := by
  have run : Reaches (step Text.toLowerCase) Attributed {} _ :=
    reaches_of_perform complaintAfterFlush (by decide +kernel) rfl
  have concerns : Concerns complaint .email mail := ⟨by decide, by decide, rfl, rfl⟩
  have told := answered_events_stop_sends _ _ run complaint mail (by decide) .email concerns
  exact ⟨_, run, rfl, rfl, told.1⟩

/-- The complaint comes before the log is written: it is answered with success, and nothing is
suppressed. -/
def complaintBeforeFlush : List Action :=
  [.send mail, .publish outcomeRow, .report .email [complaint], .deliver 0, .lookUp 0 [],
    .insertLogs 0, .insertSuppressions 0, .answer 0, .flush 0]

theorem early_complaint_dropped : ∃ world, Reaches (step Text.toLowerCase) anyStep {} world ∧
    ∃ message ∈ world.sent, ∃ request ∈ world.requests, ∃ e ∈ request.events,
      Concerns e request.channel message ∧ request.done = true ∧ world.suppressions = [] := by
  have run : Reaches (step Text.toLowerCase) anyStep {} _ := reaches_any complaintBeforeFlush rfl
  exact ⟨_, run, mail, by decide, ⟨.email, [complaint], true⟩, by decide, complaint, by decide,
    ⟨by decide, by decide, rfl, rfl⟩, rfl, rfl⟩

end Notifkit.Api.Webhooks
