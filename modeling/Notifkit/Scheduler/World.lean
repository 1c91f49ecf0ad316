import Mathlib.Data.Char
import Mathlib.Data.List.Lex
import Notifkit.Foundations.Crowds
import Notifkit.Foundations.Runs
import Notifkit.Scheduler.Parking
import Notifkit.Scheduler.Poll
import Notifkit.Scheduler.Rebuild

/-!
# The scheduler and its callers together

Any number of calls of each kind, in any number of processes, over one set of stores. A
message may be delivered again while it is not acknowledged. A process that dies makes no
further move, and Redis may lose everything it holds: the messages, the sorted sets, the
sentinel and the poll lock.
-/

namespace Notifkit.Scheduler

/-- What an actor is doing. -/
inductive Role where
  | park (park : Park)
  | delivery (delivery : Delivery)
  | queueing (queueing : Queueing)
  | poll (poll : Poll)
  | cancel (cancel : Cancel)
  | rebuild (rebuild : Rebuild)

/-- An actor in a process. -/
structure Agent where
  process : Nat
  role : Role

/-- The stores and everybody at work on them. -/
abbrev World := Crowd Stores Agent

/-- What an actor does next; for a call without choices, whether its command fails. -/
inductive Choice where
  | plain (fails : Bool)
  | delivery (choice : DeliveryChoice)
  | poll (choice : PollChoice)

/-- A step of what an actor is doing. -/
def Role.step (order : LinearOrder TaskId) (me : Nat) (stores : Stores) (role : Role)
    (choice : Choice) : Option (Stores × Role) :=
  match role, choice with
  | .park current, .plain fails =>
    (current.step stores fails).map fun (stores, later) => (stores, .park later)
  | .delivery current, .delivery choice =>
    (current.step stores choice).map fun (stores, later) => (stores, .delivery later)
  | .queueing current, .plain fails =>
    (current.step stores fails).map fun (stores, later) => (stores, .queueing later)
  | .poll current, .poll choice =>
    (current.step me stores choice).map fun (stores, later) => (stores, .poll later)
  | .cancel current, .plain fails =>
    (current.step stores fails).map fun (stores, later) => (stores, .cancel later)
  | .rebuild current, .plain fails =>
    (current.step order stores fails).map fun (stores, later) => (stores, .rebuild later)
  | _, _ => none

/-- A step of one actor, whose process must be alive. -/
def Agent.move (order : LinearOrder TaskId) (me : Nat) (stores : Stores) (agent : Agent)
    (choice : Choice) : Option (Stores × Agent) :=
  if agent.process ∈ stores.dead then none
  else (agent.role.step order me stores choice).map fun (stores, later) =>
    (stores, ⟨agent.process, later⟩)

/-- What happens outside the calls, or to them. -/
inductive Outside where
  | tick (ms : Nat)
  | receive (source : Source)
  /-- a row of an earlier version, without a send time -/
  | legacy (taskId : TaskId) (projectId enrichedEventId : Nat)
  | crash (process : Nat)
  /-- Redis loses its data -/
  | wipe

/-- What can happen. -/
inductive Action where
  | act (index : Nat) (choice : Choice)
  | takeSource (process position : Nat)
  | takeDispatch (process position : Nat)
  | takeScheduled (process position : Nat)
  | startPoll (process : Nat)
  | startCancel (process projectId : Nat) (taskId : TaskId)
  | startRebuild (process pageSize : Nat)
  | outside (event : Outside)

/-- A step outside the actors. -/
def outsideStep (stores : Stores) : Outside → Stores
  | .tick ms => { stores with clock := stores.clock + ms }
  | .receive source => { stores with sources := stores.sources ++ [source] }
  | .legacy taskId projectId enrichedEventId =>
    stores.insertPayload taskId ⟨projectId, enrichedEventId, none⟩
  | .crash process => { stores with dead := process :: stores.dead }
  | .wipe => stores.wipe

/-- One step of the scheduler and its callers. -/
def step (order : LinearOrder TaskId) (world : World) : Action → Option World
  | .act index choice => world.act (Agent.move order) index choice
  | .takeSource process position => do
    let source ← world.shared.sources[position]?
    if process ∉ world.shared.dead ∧ position ∉ world.shared.sourcesDone then
      some (world.join ⟨process, .park { position, source }⟩)
    else none
  | .takeDispatch process position => do
    let task ← world.shared.outbound[position]?
    if process ∉ world.shared.dead ∧ position ∉ world.shared.outboundDone then
      some (world.join ⟨process, .delivery { position, task }⟩)
    else none
  | .takeScheduled process position => do
    let scheduled ← world.shared.scheduled[position]?
    if process ∉ world.shared.dead ∧ position ∉ world.shared.scheduledDone then
      some (world.join ⟨process, .queueing { position, scheduled }⟩)
    else none
  | .startPoll process =>
    if process ∉ world.shared.dead then some (world.join ⟨process, .poll {}⟩) else none
  | .startCancel process projectId taskId =>
    if process ∉ world.shared.dead then
      some (world.join ⟨process, .cancel { projectId, taskId }⟩)
    else none
  | .startRebuild process pageSize =>
    if process ∉ world.shared.dead ∧ world.shared.sentinel = false then
      some (world.join ⟨process, .rebuild { pageSize }⟩)
    else none
  | .outside event => some { world with shared := outsideStep world.shared event }

/-- Nothing has happened yet. -/
def start : World := ⟨{}, []⟩

/-- The order of the characters' code points. -/
abbrev codePoints : LinearOrder TaskId := inferInstanceAs (LinearOrder (List Char))

/-- Some commands of one call, in a written-out run. -/
def calls (index count : Nat) : List Action := List.replicate count (.act index (.plain false))

/-- One command of a poll. -/
def polls (index : Nat) (choice : PollChoice) : List Action := [.act index (.poll choice)]

/-- A poll takes its lock and the time, and claims from the first shard alone. -/
def claims (index : Nat) (members : List Member) : List Action :=
  polls index .proceed ++ polls index .proceed ++ polls index (.claim members) ++
    (List.replicate 15 (Action.act index (.poll (.claim []))))

end Notifkit.Scheduler
