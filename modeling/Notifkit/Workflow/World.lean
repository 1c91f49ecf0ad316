import Notifkit.Foundations.Crowds
import Notifkit.Foundations.Runs
import Notifkit.Workflow.Reaper
import Notifkit.Workflow.Resume
import Notifkit.Workflow.Events

/-!
# The workflow services together

Any number of runs, polls, event tasks and reapers, in any number of processes, over one
set of stores. Messages and events may come at any time, and a message may be delivered again
while it is not acknowledged. A process that dies takes its buffer with it, and none of
its actors moves again.
-/

namespace Notifkit.Workflow

/-- What an actor is doing. -/
inductive Role where
  | run (run : Run)
  | poll (poll : Poll)
  | task (task : EventTask)
  | reap (reap : Reap)

/-- An actor in a process. -/
structure Agent where
  process : Nat
  role : Role

/-- The stores and everybody at work on them. -/
abbrev World := Crowd Stores Agent

/-- What an actor does next. -/
inductive Choice where
  | run (choice : RunChoice)
  | poll (choice : PollChoice)
  | task (choice : TaskChoice)
  | reap (choice : ReapChoice)

/-- A step of one actor, whose process must be alive. -/
def Agent.move (triggers : InstanceId → Trigger) (me : Nat) (stores : Stores) (agent : Agent)
    (choice : Choice) : Option (Stores × Agent) :=
  if agent.process ∈ stores.dead then none
  else match agent.role, choice with
    | .run run, .run choice =>
      (run.step triggers me stores choice).map fun (stores, run) =>
        (stores, ⟨agent.process, .run run⟩)
    | .poll poll, .poll choice =>
      (poll.step me stores choice).map fun (stores, poll) =>
        (stores, ⟨agent.process, .poll poll⟩)
    | .task task, .task choice =>
      (task.step me stores choice).map fun (stores, task) =>
        (stores, ⟨agent.process, .task task⟩)
    | .reap reap, .reap choice =>
      (reap.step stores choice).map fun (stores, reap) =>
        (stores, ⟨agent.process, .reap reap⟩)
    | _, _ => none

/-- What happens outside the services, or to them. -/
inductive Outside where
  | tick (ms : Nat)
  /-- a message about the instance: its trigger, or a resume from anywhere -/
  | send (instanceId : InstanceId)
  | emit (event : Event)
  /-- `cancelInstance` -/
  | cancel (instanceId : InstanceId)
  /-- a worker's flush takes its buffer -/
  | flush (process batch : Nat)
  /-- an item of a flush is published -/
  | publishItem (position : Nat)
  | flushPasses (batch : Nat)
  | flushFails (batch : Nat)
  | crash (process : Nat)

/-- What can happen. -/
inductive Action where
  | act (index : Nat) (choice : Choice)
  /-- a message is delivered to a workflow worker -/
  | takeMessage (process : Nat) (instanceId : InstanceId)
  | startPoll (process : Nat)
  | startReap (process : Nat)
  /-- an event is delivered to an event worker -/
  | takeEvent (process position : Nat)
  | outside (event : Outside)

/-- The items of a flush. -/
def Stores.flushed (stores : Stores) (batch : Nat) : List Item :=
  stores.buffer.filter fun item => item.batch = some batch

/-- The buffer without a flush. -/
def Stores.withoutFlush (stores : Stores) (batch : Nat) : List Item :=
  stores.buffer.filter fun item => item.batch ≠ some batch

/-- A step outside the actors. -/
def outsideStep (stores : Stores) : Outside → Option Stores
  | .tick ms => some { stores with clock := stores.clock + ms }
  | .send instanceId => some (stores.publish instanceId)
  | .emit event => some { stores with events := stores.events ++ [event] }
  | .cancel instanceId =>
    if stores.instances instanceId = some .pending ∨ stores.instances instanceId = some .running then
      some { stores.setStatus instanceId .canceled with
        waiters := stores.waiters.filter fun waiter => waiter.instanceId ≠ instanceId }
    else none
  | .flush process batch =>
    if process ∉ stores.dead ∧ ∀ item ∈ stores.buffer, item.batch ≠ some batch then
      some { stores with
        buffer := stores.buffer.map fun item =>
          if item.process = process ∧ item.batch = none then { item with batch := some batch }
          else item }
    else none
  | .publishItem position => do
    let item ← stores.buffer[position]?
    if item.batch ≠ none ∧ item.published = false then
      some { stores.publish item.waiter.instanceId with
        buffer := stores.buffer.set position { item with published := true }
        durable := item.waiter.id :: stores.durable }
    else none
  | .flushPasses batch =>
    if (stores.flushed batch).all Item.published then
      some { stores with buffer := stores.withoutFlush batch }
    else none
  | .flushFails batch =>
    some { stores with
      buffer := stores.withoutFlush batch
      rejected := (stores.flushed batch).map Item.task ++ stores.rejected }
  | .crash process =>
    some { stores with
      dead := process :: stores.dead
      buffer := stores.buffer.filter fun item => item.process ≠ process }

/-- One step of the workflow services. -/
def step (triggers : InstanceId → Trigger) (world : World) : Action → Option World
  | .act index choice => world.act (Agent.move triggers) index choice
  | .takeMessage process instanceId =>
    if process ∉ world.shared.dead ∧ instanceId ∈ world.shared.stream then
      some (world.join ⟨process, .run { instanceId }⟩)
    else none
  | .startPoll process =>
    if process ∉ world.shared.dead then some (world.join ⟨process, .poll {}⟩) else none
  | .startReap process =>
    if process ∉ world.shared.dead then some (world.join ⟨process, .reap {}⟩) else none
  | .takeEvent process position => do
    let event ← world.shared.events[position]?
    if process ∉ world.shared.dead ∧ position ∉ world.shared.acknowledged then
      some (world.join ⟨process, .task { process, position, event, now := world.shared.clock }⟩)
    else none
  | .outside event =>
    (outsideStep world.shared event).map fun shared => { world with shared := shared }

/-- Nothing has happened yet. -/
def start : World := ⟨{}, []⟩

/-- Some commands of one run, in a written-out run of the services. -/
def runs (index count : Nat) : List Action := List.replicate count (.act index (.run .proceed))

/-- Some commands of one poll. -/
def polls (index count : Nat) : List Action := List.replicate count (.act index (.poll .proceed))

/-- Some commands of one reaper. -/
def reaps (index count : Nat) : List Action := List.replicate count (.act index (.reap .proceed))

/-- Some commands of one event task. -/
def tasks (index count : Nat) : List Action := List.replicate count (.act index (.task .proceed))

/-- The steps in which no command fails, nobody dies, nothing is canceled and no reaper is at
work. -/
def Action.calm : Action → Bool
  | .act _ (.run .fail) | .act _ (.poll .fail) | .act _ (.task .fail) | .act _ (.reap _)
  | .startReap _ | .outside (.cancel _) | .outside (.flushFails _) | .outside (.crash _) => false
  | _ => true

/-- A handler that waits an hour for one event. -/
def awaitsOne : Trigger where
  projectId := 0
  handler
    | [] => .step (.waitForEvent "paid".toList { timeout := some ⟨some 3_600_000⟩ })
    | _ => .returns

/-- The event arrives while the instance waits for it, and a task fills it in and pushes the
resume. -/
def matched : List Action :=
  [Action.outside (.send 0), .takeMessage 0 0] ++ runs 0 14 ++
    [Action.outside (.emit ⟨0, "paid".toList, .null⟩), .takeEvent 1 0] ++ tasks 1 1 ++
    [Action.act 1 (.task (.handle 0))] ++ tasks 1 1 ++ [Action.act 1 (.task (.select (some 0)))] ++ tasks 1 2

end Notifkit.Workflow
