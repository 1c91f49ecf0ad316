import Notifkit.Idempotency
import Notifkit.Pipeline.Snapshot
import Notifkit.Templates.Render

/-!
# The AI worker

A message asks for prompts to be answered by a model before its task goes on. Each answer is a call
that is paid for, so a worker takes a lease on the task first, makes no more calls than allowed, and
marks the task once it has handed it on.

Any number of workers handle messages, the same one also again and at the same time. Each command to
Redis and each call is a step of its own; a command that fails may still have taken effect, and a
worker may stop at any point. A message a worker does not acknowledge can be handled again.
-/

namespace Notifkit.Ai

open Pipeline Templates IdempotencyGuard

/-- What a failed generation is told by. -/
structure ModelError where
  name : Text := []
  statusCode : Option Int := none
  status : Option Int := none
  isPermanentAiError : Bool := false
deriving DecidableEq

/-- `isRetryableAiError`; absent for what is thrown without being an error. -/
def isRetryableAiError : Option ModelError → Bool
  | none => false
  | some e =>
    if e.isPermanentAiError then false
    else if e.name = "TimeoutError".toList ∨ e.name = "AbortError".toList then true
    else
      match e.statusCode.or e.status with
      | some status => status = 408 || status = 409 || status = 429 || 500 ≤ status
      | none => true

/-- `getAiConfig()`, the lifetime of a processed mark, and what the language makes of values: lower
case, `String` of what is no text, and the content of a notification without a template. -/
structure AiConfig where
  timeoutMs : Option Nat := none
  maxPromptsPerNotification : Option Nat := none
  IDEMPOTENCY_TTL_SECONDS : Nat := 3600
  /-- the schema's bound -/
  ttlBound : 60 ≤ IDEMPOTENCY_TTL_SECONDS
  toLowerCase : Text → Text
  stringOf : Text → Text
  standardContent : Variables → Json

namespace AiConfig

def timeout (config : AiConfig) : Nat := config.timeoutMs.getD 30000

def maxPrompts (config : AiConfig) : Nat := config.maxPromptsPerNotification.getD 5

/-- The prompt the model gets: `prompt.replace(/\{\{(\w+)\}\}/g, …)`. -/
def interpolated (config : AiConfig) (vars : Variables) (prompt : Text) : Text :=
  Placeholders.replace 2 (fun key =>
    match vars key with
    | .undefined | .null => []
    | .text text => text
    | .other json => config.stringOf json) prompt

/-- `renderWithTemplate` -/
def renderWithTemplate (config : AiConfig) (dbTemplate : Option Json) (vars : Variables) : Json :=
  match dbTemplate with
  | some content => renderNode config.toLowerCase vars .text content
  | none => config.standardContent vars

/-- Long enough for all the calls, and some more. -/
def leaseSeconds (config : AiConfig) : Nat := (config.timeout * config.maxPrompts + 999) / 1000 + 30

end AiConfig

/-- The addresses of a recipient. -/
structure Recipient where
  email : Option Text := none
  phone : Option Text := none
  webhook : Option Text := none
  telegram : Option Text := none
  discord : Option Text := none
  slack : Option Text := none
  pushTokens : Option (List Text) := none
  pushToken : Option Text := none
deriving DecidableEq

/-- `notification.ai_pending` -/
structure AiPending where
  projectId : Text
  enrichedEventId : Text
  recipientId : Text
  channel : NotificationChannel
  priority : NotificationPriority
  templateId : Option Text := none
  templateVariables : Variables
  recipient : Recipient := {}
  aiPrompts : List (Text × Text)
  scheduledAt : Option Nat := none
  fallbackChain : Option (List NotificationChannel) := none
  taskId : Option Text := none
  destination : Option Text := none
  deliveryHeaders : Option (List (Text × Text)) := none
  campaignId : Option Text := none
  workflowInstanceId : Option Text := none

/-- `notification.dispatched`, as the AI worker hands it on; delivery may try it three times, for ten
seconds each. -/
structure NotificationDispatched where
  projectId : Text
  taskId : Text
  enrichedEventId : Text
  recipientId : Text
  channel : NotificationChannel
  priority : NotificationPriority
  templateId : Option Text
  templateVariables : Variables
  aiPrompts : List (Text × Text)
  recipient : Recipient
  renderedContent : Json
  destination : Option Text
  headers : Option (List (Text × Text))
  fallbackChain : Option (List NotificationChannel)
  campaignId : Option Text
  workflowInstanceId : Option Text

namespace AiPending

/-- The id of the task: the engine's, or one made of what the message is about. -/
def task (pending : AiPending) : Text :=
  pending.taskId.getD
    (pending.enrichedEventId ++ ":".toList ++ pending.recipientId ++ ":".toList ++
      pending.channel.name)

/-- The id the task is guarded by. -/
def idempotencyKey (pending : AiPending) : Text := pending.task ++ ":ai".toList

/-- The prompts that are answered. -/
def prompts (config : AiConfig) (pending : AiPending) : List (Text × Text) :=
  pending.aiPrompts.take config.maxPrompts

/-- What the model is asked, in order. -/
def questions (config : AiConfig) (pending : AiPending) : List Text :=
  (pending.prompts config).map fun entry => config.interpolated pending.templateVariables entry.2

/-- `{ ...templateVariables, ...generatedVars }` -/
def finalVars (pending : AiPending) (generated : List (Text × Text)) : Variables := fun key =>
  match generated.reverse.lookup key with
  | some text => .text text
  | none => pending.templateVariables key

/-- Where the task goes. -/
def resolvedDestination (pending : AiPending) : Option Text :=
  let ofChannel := match pending.channel with
    | .email => pending.recipient.email
    | .sms | .whatsapp => pending.recipient.phone
    | .webhook => pending.recipient.webhook
    | .telegram => pending.recipient.telegram
    | .discord => pending.recipient.discord
    | .slack => pending.recipient.slack
    | .push => (pending.recipient.pushTokens.bind List.head?).or pending.recipient.pushToken
    | .inApp => none
  (pending.destination.or ofChannel).or
    (if pending.channel = .push then none else some pending.recipientId)

/-- The task with its content, of the template that was found and the answers. -/
def taskPayload (config : AiConfig) (pending : AiPending) (dbTemplate : Option Json)
    (generated : List (Text × Text)) : NotificationDispatched where
  projectId := pending.projectId
  taskId := pending.task
  enrichedEventId := pending.enrichedEventId
  recipientId := pending.recipientId
  channel := pending.channel
  priority := pending.priority
  templateId := pending.templateId
  templateVariables := pending.templateVariables
  aiPrompts := pending.aiPrompts
  recipient := pending.recipient
  renderedContent := config.renderWithTemplate dbTemplate (pending.finalVars generated)
  destination := pending.resolvedDestination
  headers := pending.deliveryHeaders
  fallbackChain := pending.fallbackChain
  campaignId := pending.campaignId
  workflowInstanceId := pending.workflowInstanceId

end AiPending

/-- Where `process` is with a message. -/
inductive Phase where
  /-- `acquireLease`: the key was there, and is to be read -/
  | asked
  /-- `acquireLease`: the key had gone by then, and is to be set -/
  | askedAgain
  /-- a call to the model is under way -/
  | generating
  /-- all prompts are answered, the task is to be handed on -/
  | handing
  /-- handed on, to be marked as processed -/
  | marking
  /-- failed, the lease is to be given back -/
  | failing (isPermanent : Bool)
  /-- handed on and marked -/
  | completed
  /-- failed or stopped after it had the lease -/
  | gaveUp
  /-- did not get the lease -/
  | turnedAway
deriving DecidableEq

/-- A worker's run on a message. -/
structure Job where
  pending : AiPending
  phase : Phase
  /-- the last instant of the mark it set -/
  lasts : Nat := 0
  /-- the calls it began, with what the model was asked -/
  calls : List Text := []
  /-- when its call began, or its last one ended -/
  reached : Nat := 0
  /-- the answers so far, under the keys of their prompts -/
  generated : List (Text × Text) := []
  /-- what a call of it failed with -/
  refusal : Option (Option ModelError) := none
  /-- the task it handed on -/
  handed : Option NotificationDispatched := none
  /-- whether the message was acknowledged -/
  ack : Bool := false

structure World where
  now : Nat := 0
  marks : Marks := .empty
  jobs : List Job := []

/-- What happens. A command or call is named by the place of its job. -/
inductive Action where
  | tick (ms : Nat)
  /-- a worker is handed a message, and asks for the lease -/
  | attempt (pending : AiPending)
  | look (index : Nat)
  | leaseAgain (index : Nat)
  /-- the model answers the prompt -/
  | answer (index : Nat) (text : Text)
  /-- the call fails -/
  | refuse (index : Nat) (error : Option ModelError)
  /-- the template is looked up and the task handed on, by `scheduleOrDispatch` -/
  | handOver (index : Nat) (dbTemplate : Option Json)
  /-- one of them fails, the task may have gone out -/
  | handOverFails (index : Nat) (dbTemplate : Option Json) (landed : Bool)
  | mark (index : Nat)
  | markFails (index : Nat) (landed : Bool)
  | unmark (index : Nat)
  | unmarkFails (index : Nat) (landed : Bool)
  /-- the worker's process stops -/
  | crash (index : Nat)

/-- The next prompt is begun, or none is left. -/
def Job.goOn (config : AiConfig) (now : Nat) (job : Job) : Job :=
  match (job.pending.questions config)[job.generated.length]? with
  | some question =>
    { job with phase := .generating, calls := job.calls ++ [question], reached := now }
  | none => { job with phase := .handing, reached := now }

/-- `SET key L EX leaseSeconds NX`, and what the worker does with the answer. -/
def take (config : AiConfig) (world : World) (pending : AiPending) (refused : Phase) :
    Job × Marks :=
  let lasts := expiry world.now config.leaseSeconds
  match world.marks.setNX world.now pending.idempotencyKey .lease lasts with
  | some marks =>
    (Job.goOn config world.now
      { pending := pending, phase := .generating, lasts := lasts }, marks)
  | none => ({ pending := pending, phase := refused }, world.marks)

/-- The job at a place, where it is in a phase. -/
def World.jobIn (world : World) (index : Nat) (phase : Phase) : Option Job :=
  (world.jobs[index]?).filter fun job => job.phase = phase

/-- A job goes on. -/
def World.put (world : World) (index : Nat) (job : Job) : World :=
  { world with jobs := world.jobs.set index job }

/-- The jobs that have the lease and have not ended. -/
def Phase.isActive : Phase → Bool
  | generating | handing | marking | failing _ => true
  | _ => false

/-- The job has or had the lease. -/
def Phase.hadLease : Phase → Bool
  | asked | askedAgain | turnedAway => false
  | _ => true

def step (config : AiConfig) (world : World) : Action → Option World
  | .tick ms => some { world with now := world.now + ms }
  | .attempt pending =>
    let (job, marks) := take config world pending .asked
    some { world with marks := marks, jobs := world.jobs ++ [job] }
  | .look index => do
    let job ← world.jobIn index .asked
    let job := match world.marks.get world.now job.pending.idempotencyKey with
      | some .processed => { job with phase := .turnedAway, ack := true }
      | some .lease => { job with phase := .turnedAway }
      | none => { job with phase := .askedAgain }
    some (world.put index job)
  | .leaseAgain index => do
    let job ← world.jobIn index .askedAgain
    let (job, marks) := take config world job.pending .turnedAway
    some { world.put index job with marks := marks }
  | .answer index text => do
    let job ← world.jobIn index .generating
    let (key, _) ← (job.pending.prompts config)[job.generated.length]?
    some (world.put index
      (Job.goOn config world.now { job with generated := job.generated ++ [(key, text)] }))
  | .refuse index error => do
    let job ← world.jobIn index .generating
    some (world.put index
      { job with
        phase := .failing (!isRetryableAiError error), reached := world.now, refusal := some error })
  | .handOver index dbTemplate => do
    let job ← world.jobIn index .handing
    let task := job.pending.taskPayload config dbTemplate job.generated
    some (world.put index { job with phase := .marking, handed := some task })
  | .handOverFails index dbTemplate landed => do
    let job ← world.jobIn index .handing
    let task := job.pending.taskPayload config dbTemplate job.generated
    some (world.put index
      { job with phase := .failing false, handed := if landed then some task else job.handed })
  | .mark index => do
    let job ← world.jobIn index .marking
    let lasts := expiry world.now config.IDEMPOTENCY_TTL_SECONDS
    some { world.put index { job with phase := .completed, lasts := lasts, ack := true } with
      marks := markProcessed world.marks world.now job.pending.idempotencyKey
        config.IDEMPOTENCY_TTL_SECONDS }
  | .markFails index landed => do
    let job ← world.jobIn index .marking
    if landed then
      let lasts := expiry world.now config.IDEMPOTENCY_TTL_SECONDS
      some { world.put index { job with phase := .failing false, lasts := lasts } with
        marks := markProcessed world.marks world.now job.pending.idempotencyKey
          config.IDEMPOTENCY_TTL_SECONDS }
    else some (world.put index { job with phase := .failing false })
  | .unmark index => do
    let job ← world.jobs[index]?
    match job.phase with
    | .failing isPermanent =>
      some { world.put index { job with phase := .gaveUp, ack := isPermanent } with
        marks := unmark world.marks job.pending.idempotencyKey }
    | _ => none
  | .unmarkFails index landed => do
    let job ← world.jobs[index]?
    match job.phase with
    | .failing _ =>
      let marks := if landed then unmark world.marks job.pending.idempotencyKey else world.marks
      some { world.put index { job with phase := .gaveUp } with marks := marks }
    | _ => none
  | .crash index => do
    let job ← world.jobs[index]?
    if job.phase.isActive then some (world.put index { job with phase := .gaveUp })
    else if job.phase.hadLease then none
    else some (world.put index { job with phase := .turnedAway })

/-- Time does not pass a job by: a call ends within its timeout, and what a worker does around its
calls takes it no more than the thirty seconds its lease has to spare. -/
def Job.InTime (config : AiConfig) (now : Nat) (job : Job) : Prop :=
  match job.phase with
  | .generating => now ≤ job.reached + config.timeout
  | .handing | .marking | .failing _ => now ≤ job.reached + 30000
  | _ => True

instance (config : AiConfig) (now : Nat) (job : Job) : Decidable (job.InTime config now) := by
  unfold Job.InTime
  cases job.phase <;> infer_instance

/-- Model calls end by their timeout and workers do the rest in time. -/
def Timely (config : AiConfig) (world : World) : Action → Prop
  | .tick ms => ∀ job ∈ world.jobs, job.InTime config (world.now + ms)
  | _ => True

instance (config : AiConfig) (world : World) (action : Action) :
    Decidable (Timely config world action) :=
  match action with
  | .tick _ => inferInstanceAs (Decidable (∀ _ ∈ _, _))
  | .attempt _ | .look _ | .leaseAgain _ | .answer _ _ | .refuse _ _ | .handOver _ _
  | .handOverFails _ _ _ | .mark _ | .markFails _ _ | .unmark _ | .unmarkFails _ _
  | .crash _ => .isTrue trivial

/-- No processed mark is outlived by the run. -/
def Remembering (world : World) : Action → Prop
  | .tick ms => ∀ job ∈ world.jobs, job.phase = .completed → world.now + ms ≤ job.lasts
  | _ => True

instance (world : World) (action : Action) : Decidable (Remembering world action) :=
  match action with
  | .tick _ => inferInstanceAs (Decidable (∀ _ ∈ _, _))
  | .attempt _ | .look _ | .leaseAgain _ | .answer _ _ | .refuse _ _ | .handOver _ _
  | .handOverFails _ _ _ | .mark _ | .markFails _ _ | .unmark _ | .unmarkFails _ _
  | .crash _ => .isTrue trivial

end Notifkit.Ai
