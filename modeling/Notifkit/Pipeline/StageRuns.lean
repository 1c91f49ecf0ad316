import Notifkit.Foundations.Runs
import Notifkit.Idempotency
import Notifkit.Queue.PendingEntries

/-!
# Runs of a deduplicated pipeline stage

A stage reads entries from a stream, asks the idempotency guard whether the
message's key was seen, works, publishes its outputs and marks the key done. Any
number of consumers share the stream: a run is one processing of one delivery, and
an entry can have several. A run waits for a permit as long as it likes before it
starts, and its process can die at any point.

An output either goes to the next stream or, in the fused pipeline, is handed to the
engine and the delivery worker in the same process; there it may be dropped,
rescheduled, or sent under a lease on its task id. What the lookups of a stage
return, what a gate decides and how a send ends are choices of the environment, made
by the actions. The two ghost lists `starts` and `holds` remember who set a mark
that nobody has taken back; no step reads them.
-/

namespace Notifkit.Pipeline

open Notifkit.Queue

/-- How a notification ended, or that another durable entry carries it on. -/
inductive Outcome where
  | delivered | failed | dropped | carried
deriving DecidableEq

/-- Where one output of a run stands. -/
inductive TaskPhase where
  /-- not begun -/
  | todo
  /-- handed to the engine in this process -/
  | inline
  /-- the delivery worker holds the task's lease -/
  | leased
  /-- failed for good; its lease is being released and its event dead-lettered -/
  | rejected
  /-- the call threw -/
  | threw
  /-- outcome on record; the lease is still to be upgraded or released -/
  | settled
  /-- the call is over -/
  | returned
deriving DecidableEq

/-- One output of a run, under the id the delivery worker leases. -/
structure Task where
  id : Text
  phase : TaskPhase := .todo
deriving DecidableEq

/-- The call for this output has come back without throwing. -/
def Task.isOver (task : Task) : Bool := task.phase = .settled || task.phase = .returned

/-- Why an entry was acknowledged. -/
inductive AckReason where
  | processed | duplicate | invalid | deadLettered
deriving DecidableEq

/-- Where a run stands. -/
inductive RunPhase where
  /-- delivered, waiting for a permit -/
  | waiting
  /-- the mark is set; the outputs are being worked out -/
  | working
  /-- the outputs are under way -/
  | publishing
  /-- returned normally, to be acknowledged -/
  | done
  /-- found the mark, to be acknowledged as a duplicate -/
  | skipped
  /-- the payload did not parse, to be acknowledged -/
  | invalid
  /-- threw; the entry stays pending -/
  | failed
  /-- the process died -/
  | dead
  | acked (reason : AckReason)
deriving DecidableEq

/-- One processing of one delivery of an entry. `doneTtl` is fixed at the start. -/
structure Run (Message : Type) where
  entry : Nat
  message : Message
  attempt : Nat
  phase : RunPhase := .waiting
  doneTtl : Nat := 0
  tasks : Option (List Task) := none

/-- The run published everything it had to: its outputs are known and each call for
one is over. -/
def Run.completed {Message : Type} (run : Run Message) : Bool :=
  match run.tasks with
  | some tasks => tasks.all Task.isOver
  | none => false

/-- What distinguishes a stage: the key it dedupes a valid message by, how long it
marks the key when done, its limit of deliveries, and how long the delivery worker
behind it marks a task. -/
structure Stage (Message : Type) where
  dedupeKey : Message → Option Text
  doneTtlSeconds : Message → Nat → Nat
  maxRetriesBeforeDlq : Nat
  deliveryTtlSeconds : Nat

/-- How long the mark set at the start lives. -/
def startTtlSeconds : Nat := 60

/-- How long a lease on a task lives. -/
def leaseTtlSeconds : Nat := 60

/-- Ghost: a run set the mark of its key, and nobody unmarked the key since. -/
structure Start where
  key : Text
  at' : Nat
  run : Nat
deriving DecidableEq

/-- Ghost: a run took the lease of a task, and nobody deleted it since. -/
structure Hold where
  task : Text
  at' : Nat
  run : Nat
deriving DecidableEq

/-- Ghost: a run published an output, or handed one on. -/
structure Publication where
  run : Nat
  at' : Nat
deriving DecidableEq

/-- Everything the runs of one stage share. -/
structure World (Message : Type) where
  now : Nat := 0
  stream : List Message := []
  unread : Nat := 0
  pending : List PendingEntry := []
  marks : Marks := .empty
  leases : Marks := .empty
  runs : List (Run Message) := []
  outcomes : List (Text × Outcome) := []
  published : List Publication := []
  starts : List Start := []
  holds : List Hold := []

/-- What a delivery worker outside this stage does with a task it was handed. -/
inductive OutsideAction where
  | acquire | complete | release
deriving DecidableEq

/-- What happens to the stream and the clock. -/
inductive StreamAction (Message : Type) where
  | tick (ms : Nat)
  | append (message : Message)
  | read
  | reclaim (entry : Nat)
  | outside (task : Text) (change : OutsideAction)

/-- What a run does as a whole. `begin` is the dedupe check; `leave` returns before
there is anything to publish and without a done mark; `released` says whether
unmarking the key succeeded, which is not awaited for success in the source. -/
inductive RunAction where
  | deadLetter
  | begin
  | leave
  | resolve (ids : List Text)
  | mark
  | fail (released : Bool)
  | crash
  | touch
  | ack
deriving DecidableEq

/-- What a run does about one of its outputs. -/
inductive TaskAction where
  | publish
  | handOver
  | settle (outcome : Outcome)
  | lease
  | reject
  | deadLetter
  | conclude (keep : Bool)
  | throw (released : Bool)
deriving DecidableEq

inductive Action (Message : Type) where
  | stream (action : StreamAction Message)
  | run (index : Nat) (action : RunAction)
  | task (index position : Nat) (action : TaskAction)

variable {Message : Type}

/-- The clock, the producers of the stream, the read and the reclaim that hand an
entry to a run, and the delivery workers that serve tasks other entries carry. -/
def streamStep (stage : Stage Message) (world : World Message) :
    StreamAction Message → Option (World Message)
  | .tick ms => some { world with now := world.now + ms }
  | .append message => some { world with stream := world.stream ++ [message] }
  | .read => do
    let message ← world.stream[world.unread]?
    pure { world with
      unread := world.unread + 1
      pending := deliver world.pending world.unread world.now
      runs := world.runs ++ [{ entry := world.unread, message := message, attempt := 1 }] }
  | .reclaim entry => do
    let held ← world.pending.find? fun other => other.id = entry
    let message ← world.stream[entry]?
    if held.claimable world.now then
      pure { world with
        pending := claim world.pending entry world.now
        runs := world.runs ++
          [{ entry := entry, message := message, attempt := held.deliveryCount + 1 }] }
    else none
  | .outside task change =>
    if (task, .carried) ∈ world.outcomes then
      match change with
      | .acquire =>
        some { world with
          leases := (IdempotencyGuard.acquireLease world.leases world.now task leaseTtlSeconds).2 }
      | .complete =>
        some { world with
          leases := IdempotencyGuard.markProcessed world.leases world.now task
            stage.deliveryTtlSeconds }
      | .release => some { world with leases := IdempotencyGuard.unmark world.leases task }
    else none

/-- The run's key, for a payload that parses. -/
def Stage.keyOf (stage : Stage Message) (run : Run Message) : Option Text :=
  stage.dedupeKey run.message

/-- The dedupe check. The done mark's lifetime is worked out before it. -/
def beginRun (stage : Stage Message) (world : World Message) (index : Nat) (run : Run Message) :
    World Message :=
  match stage.keyOf run with
  | none => { world with runs := world.runs.set index { run with phase := .invalid } }
  | some key =>
    match IdempotencyGuard.checkAndMark world.marks world.now key startTtlSeconds with
    | none => { world with runs := world.runs.set index { run with phase := .skipped } }
    | some marks =>
      { world with
        marks := marks
        starts := ⟨key, world.now, index⟩ :: world.starts
        runs := world.runs.set index
          { run with phase := .working, doneTtl := stage.doneTtlSeconds run.message world.now } }

/-- Unmark a run's key: nobody's mark of it is left. -/
def unmarkRun (stage : Stage Message) (world : World Message) (run : Run Message) :
    World Message :=
  match stage.keyOf run with
  | none => world
  | some key =>
    { world with
      marks := IdempotencyGuard.unmark world.marks key
      starts := world.starts.filter fun start => start.key ≠ key }

/-- Mark a run's key done for the run's own lifetime. -/
def markRun (stage : Stage Message) (world : World Message) (run : Run Message) : World Message :=
  match stage.keyOf run with
  | none => world
  | some key =>
    { world with
      marks := IdempotencyGuard.markProcessed world.marks world.now key run.doneTtl }

/-- The phases a run is acknowledged from, and as what. -/
def RunPhase.acknowledgement : RunPhase → Option AckReason
  | .done => some .processed
  | .skipped => some .duplicate
  | .invalid => some .invalid
  | _ => none

/-- One action of a run as a whole. -/
def runStep (stage : Stage Message) (world : World Message) (index : Nat) (run : Run Message) :
    RunAction → Option (World Message)
  | .deadLetter =>
    -- the nack writes the dead-letter entry before it acknowledges
    if run.phase = .waiting ∧ stage.maxRetriesBeforeDlq < run.attempt then
      some { world with
        pending := Queue.ack world.pending run.entry
        runs := world.runs.set index { run with phase := .acked .deadLettered } }
    else none
  | .begin =>
    if run.phase = .waiting ∧ run.attempt ≤ stage.maxRetriesBeforeDlq then
      some (beginRun stage world index run)
    else none
  | .leave =>
    if run.phase = .working then
      some { world with runs := world.runs.set index { run with phase := .done, tasks := some [] } }
    else none
  | .resolve ids =>
    if run.phase = .working then
      some { world with
        runs := world.runs.set index
          { run with phase := .publishing, tasks := some (ids.map fun id => ⟨id, .todo⟩) } }
    else none
  | .mark =>
    if run.phase = .publishing ∧ run.completed then
      some { markRun stage world run with
        runs := world.runs.set index { run with phase := .done } }
    else none
  | .fail released =>
    if run.phase = .working ∨ run.phase = .publishing then
      let world' := if released then unmarkRun stage world run else world
      some { world' with runs := world.runs.set index { run with phase := .failed } }
    else none
  | .crash =>
    if run.phase ≠ .dead then
      some { world with runs := world.runs.set index { run with phase := .dead } }
    else none
  | .touch =>
    if run.phase = .working ∨ run.phase = .publishing then
      some { world with pending := Queue.touch world.pending run.entry world.now }
    else none
  | .ack => do
    let reason ← run.phase.acknowledgement
    pure { world with
      pending := Queue.ack world.pending run.entry
      runs := world.runs.set index { run with phase := .acked reason } }

/-- The runs after one output of one of them moved on. -/
def setTask (runs : List (Run Message)) (index : Nat) (run : Run Message) (tasks : List Task)
    (position : Nat) (task : Task) (phase : TaskPhase) : List (Run Message) :=
  runs.set index { run with tasks := some (tasks.set position { task with phase := phase }) }

/-- Release the lease of a task: nobody's hold on it is left. -/
def releaseTask (world : World Message) (id : Text) : World Message :=
  { world with
    leases := IdempotencyGuard.unmark world.leases id
    holds := world.holds.filter fun hold => hold.task ≠ id }

/-- One action of a run about one of its outputs. -/
def taskStep (stage : Stage Message) (world : World Message) (index : Nat) (run : Run Message)
    (tasks : List Task) (position : Nat) (task : Task) : TaskAction → Option (World Message)
  | .publish =>
    if run.phase = .publishing ∧ task.phase = .todo then
      some { world with
        runs := setTask world.runs index run tasks position task .returned
        outcomes := (task.id, .carried) :: world.outcomes
        published := ⟨index, world.now⟩ :: world.published }
    else none
  | .handOver =>
    if run.phase = .publishing ∧ task.phase = .todo then
      some { world with
        runs := setTask world.runs index run tasks position task .inline
        published := ⟨index, world.now⟩ :: world.published }
    else none
  | .settle outcome =>
    match task.phase with
    | .inline =>
      -- dropped by a gate, rescheduled, or failed before the lease
      some { world with
        runs := setTask world.runs index run tasks position task .returned
        outcomes := (task.id, outcome) :: world.outcomes }
    | .leased =>
      some { world with
        runs := setTask world.runs index run tasks position task .settled
        outcomes := (task.id, outcome) :: world.outcomes }
    | _ => none
  | .lease =>
    if task.phase = .inline then
      match IdempotencyGuard.acquireLease world.leases world.now task.id leaseTtlSeconds with
      | (.acquired, leases) =>
        some { world with
          leases := leases
          holds := ⟨task.id, world.now, index⟩ :: world.holds
          runs := setTask world.runs index run tasks position task .leased }
      -- `{ ack: false }` is discarded like any other result of an inline call
      | (.locked, _) | (.completed, _) =>
        some { world with runs := setTask world.runs index run tasks position task .returned }
    else none
  | .reject =>
    if task.phase = .leased then
      some { world with
        runs := setTask world.runs index run tasks position task .rejected
        outcomes := (task.id, .failed) :: world.outcomes }
    else none
  | .deadLetter =>
    if task.phase = .rejected then
      some { releaseTask world task.id with
        runs := setTask world.runs index run tasks position task .returned
        outcomes := (task.id, .carried) :: world.outcomes }
    else none
  | .conclude keep =>
    if task.phase = .settled then
      let world' := if keep then
          { world with
            leases := IdempotencyGuard.markProcessed world.leases world.now task.id
              stage.deliveryTtlSeconds }
        else releaseTask world task.id
      some { world' with runs := setTask world.runs index run tasks position task .returned }
    else none
  | .throw released =>
    match task.phase with
    | .inline =>
      some { world with runs := setTask world.runs index run tasks position task .threw }
    | .leased | .rejected =>
      let world' := if released then releaseTask world task.id else world
      some { world' with runs := setTask world.runs index run tasks position task .threw }
    | _ => none

/-- One step of the stage. A process that died does nothing more. -/
def step (stage : Stage Message) (world : World Message) :
    Action Message → Option (World Message)
  | .stream action => streamStep stage world action
  | .run index action => do
    let run ← world.runs[index]?
    runStep stage world index run action
  | .task index position action => do
    let run ← world.runs[index]?
    let tasks ← run.tasks
    let task ← tasks[position]?
    if run.phase ≠ .dead then taskStep stage world index run tasks position task action else none

end Notifkit.Pipeline
