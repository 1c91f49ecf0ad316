import Notifkit.Scheduler.SendTimes

/-!
# No parked task is lost

A task that is waiting has a row and something that brings it on: a member of its sorted
set, or a message that is still to be acknowledged. What brings it on changes hands at every
release and re-park, so each fact below is about the last dispatch of a task, or about its
first parking while there is none. The task is still owed to that dispatch as long as no
later one was published and the task has not come to its end; and while it is owed, its row
stands, the messages and members that were put out for it stay, and whoever holds one of
its members is still to publish the task.

Two slips break this. A re-park may write the very send time with which a poll has read the
row before, and the poll's delete, which tells rows apart by their send times, takes the row
of the re-park. And a re-park may announce, byte for byte, a member that a poll has claimed
and is about to take out. The runs without the two, in which Redis keeps its data and no row
of an earlier version appears, are the careful ones.
-/

namespace Notifkit.Scheduler

open Runs

variable {order : LinearOrder TaskId} {stores after : Stores} {taskId : TaskId}
  {home : Option Nat}

/-- The last dispatch of a task is the one at a position, or there is none; and the task has
not come to its end. -/
structure Stores.Owed (stores : Stores) (taskId : TaskId) (home : Option Nat) : Prop where
  own : ∀ position ∈ home, ∃ task, stores.outbound[position]? = some task ∧ task.taskId = taskId
  latest : ∀ position task, stores.outbound[position]? = some task → task.taskId = taskId →
    ∃ last ∈ home, position ≤ last
  unended : taskId ∉ stores.ended

/-- The position is that of a dispatch. -/
def Stores.Valid (stores : Stores) (home : Option Nat) : Prop :=
  ∀ position ∈ home, position < stores.outbound.length

/-- How many rows had been written before the dispatch. -/
def Stores.since (stores : Stores) (home : Option Nat) : Nat :=
  (home.bind fun position => (stores.outbound[position]?).map Dispatch.since).getD 0

/-- While the task is owed to the dispatch, it has a row written since. -/
structure Stores.Stands (stores : Stores) (taskId : TaskId) (home : Option Nat) : Prop where
  valid : stores.Valid home
  row : stores.Owed taskId home → ∃ row, stores.scheduledPayloads.lookup taskId = some row ∧
    stores.since home ≤ row.id

/-- A message that was announced for the dispatch is unacknowledged, or its member is there. -/
def Stores.Carried (stores : Stores) (taskId : TaskId) (home : Option Nat) : Prop :=
  ∃ position message, stores.scheduled[position]? = some message ∧ message.taskId = taskId ∧
    message.home = home ∧
      (position ∉ stores.scheduledDone ∨ stores.zset.score message.member.slot ≠ none)

/-- While the task is owed to the dispatch, it is carried on. -/
structure Stores.Carrying (stores : Stores) (taskId : TaskId) (home : Option Nat) : Prop where
  valid : stores.Valid home
  carried : stores.Owed taskId home → stores.Carried taskId home

/-- While the task of a message is owed to where it was announced, its member is there. -/
structure Stores.Holding (stores : Stores) (message : Scheduled) : Prop where
  valid : stores.Valid message.home
  announced : message ∈ stores.scheduled
  there : stores.Owed message.taskId message.home →
    stores.zset.score message.member.slot ≠ none

/-- A message that brings a member was announced for the dispatch. -/
def Stores.Announced (stores : Stores) (member : Member) (home : Option Nat) : Prop :=
  ∃ message ∈ stores.scheduled, message.member = member ∧ message.home = home

/-- A task is brought on: by a message that parks it, a dispatch, a message that brings its
member, or the member. -/
def Stores.Supported (stores : Stores) (taskId : TaskId) : Prop :=
  (∃ position source, stores.sources[position]? = some source ∧ source.taskId = taskId ∧
    position ∉ stores.sourcesDone) ∨
  (∃ position task, stores.outbound[position]? = some task ∧ task.taskId = taskId ∧
    position ∉ stores.outboundDone) ∨
  (∃ position message, stores.scheduled[position]? = some message ∧ message.taskId = taskId ∧
    position ∉ stores.scheduledDone) ∨
  ∃ member : Member, member.taskId = taskId ∧ stores.zset.score member.slot ≠ none

/-- No parked task is stranded or lost. -/
structure Stores.Safe (stores : Stores) : Prop where
  /-- the row of a task that has not come to its end is brought on -/
  supported : ∀ taskId row, stores.scheduledPayloads.lookup taskId = some row →
    taskId ∉ stores.ended → stores.Supported taskId
  /-- a task that was accepted and has not come to its end has a message that parks or
  delivers it, or it has a row -/
  kept : ∀ source ∈ stores.sources, source.taskId ∉ stores.ended →
    stores.Supported source.taskId ∧
      ((∃ position other, stores.sources[position]? = some other ∧
          other.taskId = source.taskId ∧ position ∉ stores.sourcesDone) ∨
        (∃ position task, stores.outbound[position]? = some task ∧
          task.taskId = source.taskId ∧ position ∉ stores.outboundDone) ∨
        ∃ row, stores.scheduledPayloads.lookup source.taskId = some row)
  /-- a row is deleted once it was published, refused by the gate or canceled -/
  deleted : ∀ id ∈ stores.deleted, (∃ release ∈ stores.releases, release.row.id = id) ∨
    id ∈ stores.refused ∨ id ∈ stores.canceled

/-- A poll is still to publish or to drop a task. -/
def Poll.pends (poll : Poll) (taskId : TaskId) : Bool :=
  match poll.phase with
  | .gating => (poll.payloadMap taskId).isSome
  | .publishing rest => rest.any (fun event => event.1.taskId = taskId) || taskId ∈ poll.dropped
  | .deleting => taskId ∈ poll.dropped
  | _ => false

/-- The members a poll that has read its rows is still to take out. -/
def Poll.removing (poll : Poll) : List Member :=
  match poll.phase with
  | .gating | .publishing _ | .deleting => poll.parsedTasks
  | .cleaning rest => rest
  | _ => []

/-- The rows a poll is about to delete are those it has read. -/
def Poll.deletesOwn (stores : Stores) (poll : Poll) : Bool :=
  stores.scheduledPayloads.entries.all fun entry =>
    !poll.cleanup entry.1 entry.2 ||
      (poll.payloadMap entry.1).any fun read => read.id = entry.2.id

/-- An actor of a living process is a poll that takes a member out without having published
its task. -/
def Agent.takesOut (stores : Stores) (member : Member) (agent : Agent) : Bool :=
  agent.process ∉ stores.dead &&
    match agent.role with
    | .poll poll => member ∈ poll.removing && !poll.pends member.taskId
    | _ => false

/-- A poll deletes only rows it has read, and a re-park announces no member that a poll is
about to take out; Redis keeps its data, and no row of an earlier version appears. -/
def careful (world : World) : Action → Bool
  | .act index (.delivery .proceed) =>
    (world.actors[index]?).all fun agent =>
      match agent.role with
      | .delivery delivery =>
        match delivery.phase with
        | .announcing scheduledAt reason => world.actors.all fun other =>
          !other.takesOut world.shared
            (delivery.message scheduledAt reason world.shared.clock).member
        | _ => true
      | _ => true
  | .act index (.poll .proceed) =>
    (world.actors[index]?).all fun agent =>
      match agent.role with
      | .poll poll =>
        match poll.phase with
        | .deleting => poll.deletesOwn world.shared
        | _ => true
      | _ => true
  | .outside .wipe | .outside (.legacy _ _ _) => false
  | _ => true

/-- The condition on the steps of a run. -/
abbrev Careful (world : World) (action : Action) : Prop := careful world action = true

/-- A step adds to what was announced, dispatched, released, refused and ended. -/
structure Stores.Grows (stores after : Stores) : Prop where
  sources : ∀ (position : Nat) source, stores.sources[position]? = some source →
    after.sources[position]? = some source
  scheduled : ∀ (position : Nat) message, stores.scheduled[position]? = some message →
    after.scheduled[position]? = some message
  outbound : ∀ (position : Nat) task, stores.outbound[position]? = some task →
    after.outbound[position]? = some task
  nextRow : stores.nextRow ≤ after.nextRow
  releases : ∀ release ∈ stores.releases, release ∈ after.releases
  refused : ∀ id ∈ stores.refused, id ∈ after.refused
  ended : ∀ taskId ∈ stores.ended, taskId ∈ after.ended
  dead : ∀ process ∈ stores.dead, process ∈ after.dead

theorem Stores.Grows.refl (stores : Stores) : stores.Grows stores :=
  ⟨fun _ _ is => is, fun _ _ is => is, fun _ _ is => is, Nat.le_refl _, fun _ is => is,
    fun _ is => is, fun _ is => is, fun _ is => is⟩

/-- Dispatches stay. -/
theorem Stores.Grows.valid (grows : stores.Grows after) (valid : stores.Valid home) :
    after.Valid home := by
  intro position is
  have inside := valid position is
  have found := grows.outbound position _ (List.getElem?_eq_getElem inside)
  exact (List.getElem?_eq_some_iff.mp found).1

theorem Stores.Grows.since (grows : stores.Grows after) (valid : stores.Valid home) :
    after.since home = stores.since home := by
  cases home with
  | none => rfl
  | some position =>
    have inside := valid position rfl
    have found := List.getElem?_eq_getElem inside
    simp only [Stores.since, Option.bind_some, found, grows.outbound position _ found]

/-- What is owed after a step was owed before it. -/
theorem Stores.Grows.owed (grows : stores.Grows after) (valid : stores.Valid home)
    (owed : after.Owed taskId home) : stores.Owed taskId home := by
  constructor
  · intro position is
    obtain ⟨task, found, own⟩ := owed.own position is
    have old := List.getElem?_eq_getElem (valid position is)
    have same := (grows.outbound position _ old).symm.trans found
    exact ⟨_, old, (congrArg Dispatch.taskId (Option.some.inj same)).trans own⟩
  · intro position task found own
    exact owed.latest position task (grows.outbound position task found) own
  · intro was
    exact owed.unended (grows.ended taskId was)

/-- What the others see of a step: what stands goes on standing, what is carried is carried
on, and members that are needed stay. -/
structure Stores.Keeps (stores after : Stores) : Prop where
  grows : stores.Grows after
  stands : ∀ taskId home, stores.Stands taskId home → after.Stands taskId home
  carrying : ∀ taskId home, stores.Carrying taskId home → after.Carrying taskId home
  holding : ∀ message, stores.Holding message → after.Holding message

/-- It is enough to look at rows, members and messages of tasks that are still owed. -/
theorem Stores.Keeps.of (grows : stores.Grows after)
    (rows : ∀ taskId home row, stores.Valid home → after.Owed taskId home →
      stores.scheduledPayloads.lookup taskId = some row → stores.since home ≤ row.id →
        ∃ later, after.scheduledPayloads.lookup taskId = some later ∧ stores.since home ≤ later.id)
    (zset : ∀ message ∈ stores.scheduled, after.Owed message.taskId message.home →
      stores.zset.score message.member.slot ≠ none → after.zset.score message.member.slot ≠ none)
    (done : ∀ (position : Nat) message, stores.scheduled[position]? = some message →
      after.Owed message.taskId message.home → position ∉ stores.scheduledDone →
        position ∉ after.scheduledDone ∨ after.zset.score message.member.slot ≠ none) :
    stores.Keeps after := by
  refine ⟨grows, fun taskId home stands => ?_, fun taskId home carrying => ?_,
    fun message holding => ?_⟩
  · refine ⟨grows.valid stands.valid, fun owed => ?_⟩
    obtain ⟨row, found, since⟩ := stands.row (grows.owed stands.valid owed)
    rw [grows.since stands.valid]
    exact rows taskId home row stands.valid owed found since
  · refine ⟨grows.valid carrying.valid, fun owed => ?_⟩
    obtain ⟨position, message, found, rfl, rfl, carries⟩ :=
      carrying.carried (grows.owed carrying.valid owed)
    refine ⟨position, message, grows.scheduled position message found, rfl, rfl, ?_⟩
    rcases carries with unacknowledged | there
    · exact done position message found owed unacknowledged
    · exact .inr (zset message (List.mem_of_getElem? found) owed there)
  · obtain ⟨position, found⟩ := List.mem_iff_getElem?.mp holding.announced
    refine ⟨grows.valid holding.valid,
      List.mem_of_getElem? (grows.scheduled position message found), fun owed => ?_⟩
    exact zset message holding.announced owed (holding.there (grows.owed holding.valid owed))

/-- A step that takes nothing away. -/
theorem Stores.Keeps.of_more (grows : stores.Grows after)
    (rows : ∀ taskId row, stores.scheduledPayloads.lookup taskId = some row →
      ∃ later, after.scheduledPayloads.lookup taskId = some later ∧ row.id ≤ later.id)
    (zset : ∀ slot, stores.zset.score slot ≠ none → after.zset.score slot ≠ none)
    (done : after.scheduledDone = stores.scheduledDone) : stores.Keeps after := by
  apply Stores.Keeps.of grows
  · intro taskId home row _ _ found since
    obtain ⟨later, present, newer⟩ := rows taskId row found
    exact ⟨later, present, Nat.le_trans since newer⟩
  · exact fun message _ _ => zset message.member.slot
  · intro position message _ _ unacknowledged
    rw [done]
    exact .inl unacknowledged

/-- Some source message is about a task. -/
def Stores.Accepted (stores : Stores) (taskId : TaskId) : Prop :=
  ∃ source ∈ stores.sources, source.taskId = taskId

/-- A row was released, refused or canceled. -/
def Stores.Accounted (stores : Stores) (id : Nat) : Prop :=
  (∃ release ∈ stores.releases, release.row.id = id) ∨ id ∈ stores.refused ∨
    id ∈ stores.canceled

/-- What holds of the stores at any time. -/
structure Stores.Parked (stores : Stores) : Prop where
  homes : ∀ message ∈ stores.scheduled, ∀ position ∈ message.home,
    ∃ task, stores.outbound[position]? = some task ∧ task.taskId = message.taskId
  ordered : ∀ (one two : Nat) task later, one ≤ two → stores.outbound[one]? = some task →
    stores.outbound[two]? = some later → task.since ≤ later.since
  before : ∀ task ∈ stores.outbound, task.since ≤ stores.nextRow
  written : ∀ taskId row, stores.scheduledPayloads.lookup taskId = some row →
    row.id < stores.nextRow ∧ stores.Accepted taskId
  counted : ∀ position ∈ stores.scheduledDone, position < stores.scheduled.length
  messages : ∀ message ∈ stores.scheduled, stores.Stands message.taskId message.home
  members : ∀ shard (member : Member), stores.zset.score (shard, member) ≠ none →
    stores.Stands member.taskId none
  delivered : ∀ position ∈ stores.outboundDone, ∃ task,
    stores.outbound[position]? = some task ∧ stores.Carrying task.taskId (some position)
  parked : ∀ position ∈ stores.sourcesDone, ∃ source,
    stores.sources[position]? = some source ∧ stores.Carrying source.taskId none
  tasks : ∀ task ∈ stores.outbound, stores.Accepted task.taskId
  accounted : ∀ id ∈ stores.deleted, stores.Accounted id

/-- What a step adds to the stores. -/
structure Stores.Adds (stores after : Stores) : Prop where
  scheduled : ∀ message ∈ after.scheduled, message ∈ stores.scheduled ∨
    (∀ position ∈ message.home,
      ∃ task, stores.outbound[position]? = some task ∧ task.taskId = message.taskId) ∧
    stores.Stands message.taskId message.home
  outbound : ∀ (position : Nat) task, after.outbound[position]? = some task →
    stores.outbound[position]? = some task ∨ position = stores.outbound.length ∧
      task.since = stores.nextRow ∧ stores.Accepted task.taskId
  rows : ∀ taskId row, after.scheduledPayloads.lookup taskId = some row →
    stores.scheduledPayloads.lookup taskId = some row ∨
      row.id < after.nextRow ∧ stores.Accepted taskId
  counted : ∀ position ∈ after.scheduledDone, position ∈ stores.scheduledDone ∨
    position < stores.scheduled.length
  members : ∀ shard (member : Member), after.zset.score (shard, member) ≠ none →
    stores.zset.score (shard, member) ≠ none ∨ stores.Stands member.taskId none
  delivered : ∀ position ∈ after.outboundDone, position ∈ stores.outboundDone ∨ ∃ task,
    stores.outbound[position]? = some task ∧ stores.Carrying task.taskId (some position)
  parked : ∀ position ∈ after.sourcesDone, position ∈ stores.sourcesDone ∨ ∃ source,
    stores.sources[position]? = some source ∧ stores.Carrying source.taskId none
  accounted : ∀ id ∈ after.deleted, id ∈ stores.deleted ∨ after.Accounted id
  canceled : ∀ id ∈ stores.canceled, id ∈ after.canceled

theorem Stores.Adds.refl (stores : Stores) : stores.Adds stores where
  scheduled _ listed := .inl listed
  outbound _ _ found := .inl found
  rows _ _ found := .inl found
  counted _ done := .inl done
  members _ _ there := .inl there
  delivered _ done := .inl done
  parked _ done := .inl done
  accounted _ gone := .inl gone
  canceled _ was := was

theorem Stores.Grows.accepted (grows : stores.Grows after) (accepted : stores.Accepted taskId) :
    after.Accepted taskId := by
  obtain ⟨source, listed, same⟩ := accepted
  obtain ⟨position, found⟩ := List.mem_iff_getElem?.mp listed
  exact ⟨source, List.mem_of_getElem? (grows.sources position source found), same⟩

/-- A dispatch keeps its position. -/
theorem Stores.Grows.dispatched (grows : stores.Grows after) {position : Nat}
    (one : ∃ task, stores.outbound[position]? = some task ∧ task.taskId = taskId) :
    ∃ task, after.outbound[position]? = some task ∧ task.taskId = taskId := by
  obtain ⟨task, found, same⟩ := one
  exact ⟨task, grows.outbound position task found, same⟩

/-- A step that keeps what it must and adds what it may. -/
theorem Stores.Parked.step (parked : stores.Parked) (keeps : stores.Keeps after)
    (adds : stores.Adds after) : after.Parked := by
  have grows := keeps.grows
  constructor
  · intro message listed position is
    rcases adds.scheduled message listed with old | ⟨own, _⟩
    · exact grows.dispatched (parked.homes message old position is)
    · exact grows.dispatched (own position is)
  · intro one two task later below found found'
    rcases adds.outbound two later found' with old' | ⟨rfl, since, _⟩
    · rcases adds.outbound one task found with old | ⟨rfl, _⟩
      · exact parked.ordered one two task later below old old'
      · have inside := (List.getElem?_eq_some_iff.mp old').1
        omega
    · rcases adds.outbound one task found with old | ⟨rfl, since', _⟩
      · rw [since]
        exact parked.before task (List.mem_of_getElem? old)
      · rw [since, since']
  · intro task listed
    obtain ⟨position, found⟩ := List.mem_iff_getElem?.mp listed
    rcases adds.outbound position task found with old | ⟨_, since, _⟩
    · exact Nat.le_trans (parked.before task (List.mem_of_getElem? old)) grows.nextRow
    · exact since ▸ grows.nextRow
  · intro taskId row found
    rcases adds.rows taskId row found with old | ⟨new, accepted⟩
    · obtain ⟨earlier, accepted⟩ := parked.written taskId row old
      exact ⟨Nat.lt_of_lt_of_le earlier grows.nextRow, grows.accepted accepted⟩
    · exact ⟨new, grows.accepted accepted⟩
  · intro position done
    have inside : position < stores.scheduled.length := by
      rcases adds.counted position done with old | inside
      · exact parked.counted position old
      · exact inside
    have found := grows.scheduled position _ (List.getElem?_eq_getElem inside)
    exact (List.getElem?_eq_some_iff.mp found).1
  · intro message listed
    rcases adds.scheduled message listed with old | ⟨_, stands⟩
    · exact keeps.stands _ _ (parked.messages message old)
    · exact keeps.stands _ _ stands
  · intro shard member there
    rcases adds.members shard member there with old | stands
    · exact keeps.stands _ _ (parked.members shard member old)
    · exact keeps.stands _ _ stands
  · intro position done
    obtain ⟨task, found, carrying⟩ := (adds.delivered position done).elim
      (parked.delivered position) id
    exact ⟨task, grows.outbound position task found, keeps.carrying _ _ carrying⟩
  · intro position done
    obtain ⟨source, found, carrying⟩ := (adds.parked position done).elim
      (parked.parked position) id
    exact ⟨source, grows.sources position source found, keeps.carrying _ _ carrying⟩
  · intro task listed
    obtain ⟨position, found⟩ := List.mem_iff_getElem?.mp listed
    rcases adds.outbound position task found with old | ⟨_, _, accepted⟩
    · exact grows.accepted (parked.tasks task (List.mem_of_getElem? old))
    · exact grows.accepted accepted
  · intro id gone
    rcases adds.accounted id gone with old | now
    · rcases parked.accounted id old with ⟨release, listed, same⟩ | refused | canceled
      · exact .inl ⟨release, grows.releases release listed, same⟩
      · exact .inr (.inl (grows.refused id refused))
      · exact .inr (.inr (adds.canceled id canceled))
    · exact now

end Notifkit.Scheduler
