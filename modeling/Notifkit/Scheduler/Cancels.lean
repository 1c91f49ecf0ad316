import Notifkit.Scheduler.SendTimes

/-!
# A canceled task is not released

A cancel answers success when its delete has found the row. A poll reads the row before it
publishes the task and deletes it only afterwards, and nothing in between asks whether the
row is still there: a cancel whose delete comes in between succeeds although the task goes
out, and so does one that finds the row of a task which went out already.

The runs in which no cancel comes in between are the ones below. In them no parked copy is
both canceled and released. A copy is a row as it was written; rows are told apart by how
many had been written before them.
-/

namespace Notifkit.Scheduler

open Runs

variable {order : LinearOrder TaskId} {stores after : Stores}

/-- A poll has read a row and may still publish it. -/
def Poll.mayPublish (poll : Poll) (id : Nat) : Bool :=
  match poll.phase with
  | .gating => poll.parsedTasks.any fun member =>
      (poll.payloadMap member.taskId).any fun row => row.id = id
  | .publishing rest => rest.any fun event => event.2.id = id
  | _ => false

/-- An actor of a living process may still publish a row it has read. -/
def Agent.mayPublish (stores : Stores) (id : Nat) (agent : Agent) : Bool :=
  agent.process ∉ stores.dead &&
    match agent.role with
    | .poll poll => poll.mayPublish id
    | _ => false

/-- A cancel that is about to delete a row finds it unreleased, and no poll that has read it
may still publish it. -/
def inTime (world : World) : Action → Bool
  | .act index (.plain false) =>
    (world.actors[index]?).all fun agent =>
      match agent.role with
      | .cancel cancel =>
        match cancel.phase with
        | .deleting =>
          (world.shared.scheduledPayloads.lookup cancel.taskId).all fun row =>
            (world.shared.releases.all fun release => release.row.id ≠ row.id) &&
              world.actors.all fun other => !other.mayPublish world.shared row.id
        | _ => true
      | _ => true
  | _ => true

/-- The condition on the steps of a run. -/
abbrev InTime (world : World) (action : Action) : Prop := inTime world action = true

/-- Rows are told apart, and those that were canceled are gone and were not released. -/
structure Stores.Withdrawn (stores : Stores) : Prop where
  written : ∀ taskId row, stores.scheduledPayloads.lookup taskId = some row →
    row.id < stores.nextRow
  distinct : ∀ taskId other row found, stores.scheduledPayloads.lookup taskId = some row →
    stores.scheduledPayloads.lookup other = some found → row.id = found.id → taskId = other
  gone : ∀ taskId row, stores.scheduledPayloads.lookup taskId = some row →
    row.id ∉ stores.canceled
  before : ∀ id ∈ stores.canceled, id < stores.nextRow
  unreleased : ∀ release ∈ stores.releases, release.row.id ∉ stores.canceled

/-- A living poll publishes no row that was canceled. -/
def Agent.Withdrawn (_ : Nat) (agent : Option Agent) (stores : Stores) : Prop :=
  ∀ agent' ∈ agent, ∀ id, agent'.mayPublish stores id = true → id ∉ stores.canceled

theorem Agent.mayPublish_iff {agent : Agent} {id : Nat} :
    agent.mayPublish stores id = true ↔ agent.process ∉ stores.dead ∧
      ∃ poll, agent.role = .poll poll ∧ poll.mayPublish id = true := by
  unfold Agent.mayPublish
  rw [Bool.and_eq_true, decide_eq_true_eq]
  refine and_congr_right fun _ => ?_
  cases agent.role <;> simp

/-- A step that writes and deletes no row, releases none and cancels none. -/
theorem Stores.Withdrawn.of_same (withdrawn : stores.Withdrawn)
    (rows : after.scheduledPayloads = stores.scheduledPayloads)
    (nextRow : after.nextRow = stores.nextRow) (canceled : after.canceled = stores.canceled)
    (releases : after.releases = stores.releases) : after.Withdrawn := by
  obtain ⟨written, distinct, gone, before, unreleased⟩ := withdrawn
  constructor
  · rwa [rows, nextRow]
  · rwa [rows]
  · rwa [rows, canceled]
  · rwa [canceled, nextRow]
  · rwa [releases, canceled]

/-- Rows may go. -/
theorem Stores.Withdrawn.fewer (withdrawn : stores.Withdrawn)
    (rows : ∀ taskId row, after.scheduledPayloads.lookup taskId = some row →
      stores.scheduledPayloads.lookup taskId = some row)
    (nextRow : after.nextRow = stores.nextRow) (canceled : after.canceled = stores.canceled)
    (releases : after.releases = stores.releases) : after.Withdrawn := by
  constructor
  · intro taskId row found
    rw [nextRow]
    exact withdrawn.written taskId row (rows taskId row found)
  · intro taskId other row row' found found' same
    exact withdrawn.distinct taskId other row row' (rows _ _ found) (rows _ _ found') same
  · intro taskId row found
    rw [canceled]
    exact withdrawn.gone taskId row (rows taskId row found)
  · rw [canceled, nextRow]
    exact withdrawn.before
  · rw [releases, canceled]
    exact withdrawn.unreleased

/-- A row that is written is a new one. -/
theorem Stores.Withdrawn.write (withdrawn : stores.Withdrawn) {taskId : TaskId} {payload : Payload}
    (rows : ∀ other row, after.scheduledPayloads.lookup other = some row →
      stores.scheduledPayloads.lookup other = some row ∨
        other = taskId ∧ row = ⟨payload, stores.nextRow⟩)
    (nextRow : after.nextRow = stores.nextRow + 1) (canceled : after.canceled = stores.canceled)
    (releases : after.releases = stores.releases) : after.Withdrawn := by
  have fresh : ∀ other row, stores.scheduledPayloads.lookup other = some row →
      row.id ≠ stores.nextRow := fun other row found =>
    Nat.ne_of_lt (withdrawn.written other row found)
  constructor
  · intro other row found
    rw [nextRow]
    rcases rows other row found with old | ⟨_, rfl⟩
    · exact Nat.lt_succ_of_lt (withdrawn.written other row old)
    · exact Nat.lt_succ_self _
  · intro one two row row' found found' same
    rcases rows one row found with old | ⟨rfl, rfl⟩
    · rcases rows two row' found' with old' | ⟨_, rfl⟩
      · exact withdrawn.distinct one two row row' old old' same
      · exact absurd same (fresh one row old)
    · rcases rows two row' found' with old' | ⟨rfl, _⟩
      · exact absurd same.symm (fresh two row' old')
      · rfl
  · intro other row found
    rw [canceled]
    rcases rows other row found with old | ⟨_, rfl⟩
    · exact withdrawn.gone other row old
    · intro was
      exact absurd (withdrawn.before _ was) (Nat.lt_irrefl _)
  · intro id was
    rw [nextRow]
    exact Nat.lt_succ_of_lt (withdrawn.before id (canceled ▸ was))
  · rw [releases, canceled]
    exact withdrawn.unreleased

/-- What every step but a cancel's delete keeps. -/
theorem RoleMove.withdrawn {role later : Role} {choice : Choice}
    (move : RoleMove order stores role choice after later) (withdrawn : stores.Withdrawn)
    (mine : ∀ poll id, role = .poll poll → poll.mayPublish id = true → id ∉ stores.canceled)
    (noCancel : after.canceled = stores.canceled) : after.Withdrawn := by
  have same : after.scheduledPayloads = stores.scheduledPayloads →
      after.nextRow = stores.nextRow → after.releases = stores.releases → after.Withdrawn :=
    fun rows nextRow releases => withdrawn.of_same rows nextRow noCancel releases
  cases move with
  | park move =>
    cases move with
    | insert => exact withdrawn.write (fun _ _ => Stores.lookup_insertPayload) rfl rfl rfl
    | _ => exact same rfl rfl rfl
  | delivery move =>
    cases move with
    | store => exact withdrawn.write (fun _ _ => Stores.lookup_upsertPayload) rfl rfl rfl
    | _ => exact same rfl rfl rfl
  | queueing move => cases move <;> exact same rfl rfl rfl
  | @poll poll _ _ _ move =>
    cases move with
    | delete =>
      exact withdrawn.fewer (fun _ _ found => (Stores.lookup_deletePayloads.mp found).1)
        rfl rfl rfl
    | @publish rest position member row phase next =>
      have kept := mine poll row.id rfl (by
        simp only [Poll.mayPublish, phase]
        exact List.any_eq_true.mpr ⟨_, List.mem_of_getElem? next, by simp⟩)
      refine ⟨withdrawn.written, withdrawn.distinct, withdrawn.gone, withdrawn.before, ?_⟩
      intro release listed
      rcases List.mem_cons.mp listed with rfl | old
      · exact kept
      · exact withdrawn.unreleased release old
    | _ => exact same rfl rfl rfl
  | cancel move =>
    cases move with
    | quiet => exact withdrawn
    | delete =>
      exact withdrawn.fewer (fun _ _ found => (Stores.lookup_deletePayloads.mp found).1)
        rfl noCancel rfl
  | @rebuild rebuild _ _ _ move =>
    cases move with
    | @add taskId row =>
      rcases stores.zaddNX_cases (rebuild.sendAt row) (Rebuild.member taskId row) with is | is
      · exact same (by rw [is]; rfl) (by rw [is]; rfl) (by rw [is]; rfl)
      · exact same (by rw [is]) (by rw [is]) (by rw [is])
    | _ => exact same rfl rfl rfl

/-- What a poll may publish after a move it could publish before, or it has just read it. -/
theorem PollMove.mayPublish {poll later : Poll} {choice : PollChoice}
    (move : PollMove stores poll choice after later) {id : Nat}
    (may : later.mayPublish id = true) : poll.mayPublish id = true ∨
      ∃ taskId row, stores.scheduledPayloads.lookup taskId = some row ∧ row.id = id := by
  cases move with
  | turn outer => rcases outer with ⟨_, rfl⟩ | rfl <;> cases may
  | start => cases may
  | claim _ _ goes => rcases goes with ⟨_, rfl⟩ | rfl | rfl <;> cases may
  | read =>
    obtain ⟨member, _, any⟩ := List.any_eq_true.mp may
    obtain ⟨row, found, same⟩ := (Option.any_eq_true _ _).mp any
    exact .inr ⟨member.taskId, row, found, of_decide_eq_true same⟩
  | gate phase =>
    obtain ⟨event, listed, same⟩ := List.any_eq_true.mp may
    obtain ⟨claimed, found⟩ := Poll.mem_batchedEvents listed
    left
    simp only [Poll.mayPublish, phase]
    apply List.any_eq_true.mpr
    exact ⟨event.1, claimed, by rw [found]; exact same⟩
  | publish phase next =>
    obtain ⟨event, listed, same⟩ := List.any_eq_true.mp may
    left
    simp only [Poll.mayPublish, phase]
    exact List.any_eq_true.mpr ⟨event, List.mem_of_mem_eraseIdx listed, same⟩
  | published => cases may
  | delete => cases may
  | pass => cases may
  | remove => cases may
  | leave => cases may
  | unlock => cases may

/-- Nobody's knowledge changes in a step that cancels nothing and brings nobody back. -/
theorem Agent.Withdrawn.of_same {index : Nat} {agent : Option Agent}
    (known : Agent.Withdrawn index agent stores) (canceled : after.canceled = stores.canceled)
    (dead : ∀ process ∈ stores.dead, process ∈ after.dead) :
    Agent.Withdrawn index agent after := by
  intro agent' is id may
  obtain ⟨alive, poll, role, reads⟩ := Agent.mayPublish_iff.mp may
  rw [canceled]
  refine known agent' is id (Agent.mayPublish_iff.mpr ⟨?_, poll, role, reads⟩)
  exact fun was => alive (dead _ was)

/-- Nobody comes back in a move. -/
theorem RoleMove.dead {role later : Role} {choice : Choice}
    (move : RoleMove order stores role choice after later) : after.dead = stores.dead := by
  cases move with
  | park move => cases move <;> rfl
  | delivery move => cases move <;> rfl
  | queueing move => cases move <;> rfl
  | poll move => cases move <;> rfl
  | cancel move => cases move <;> rfl
  | @rebuild rebuild _ _ _ move =>
    cases move with
    | @add taskId row =>
      rcases stores.zaddNX_cases (rebuild.sendAt row) (Rebuild.member taskId row) with is | is <;>
        rw [is]
      rfl
    | _ => rfl

/-- Only the delete of a cancel cancels a row. -/
theorem RoleMove.canceled {role later : Role} {choice : Choice}
    (move : RoleMove order stores role choice after later) :
    after.canceled = stores.canceled ∨
      ∃ cancel row, role = .cancel cancel ∧ choice = .plain false ∧ cancel.phase = .deleting ∧
        stores.scheduledPayloads.lookup cancel.taskId = some row ∧
        after = { stores.deletePayloads fun taskId _ => taskId = cancel.taskId with
          canceled := row.id :: stores.canceled
          ended := cancel.taskId :: stores.ended } ∧
        later = .cancel (cancel.goto (.answered true)) := by
  cases move with
  | park move => cases move <;> exact .inl rfl
  | delivery move => cases move <;> exact .inl rfl
  | queueing move => cases move <;> exact .inl rfl
  | poll move => cases move <;> exact .inl rfl
  | @cancel cancel _ fails _ move =>
    cases move with
    | quiet => exact .inl rfl
    | @delete row works phase found =>
      exact .inr ⟨cancel, row, rfl, congrArg _ works, phase, found, rfl, rfl⟩
  | @rebuild rebuild _ _ _ move =>
    cases move with
    | @add taskId row =>
      rcases stores.zaddNX_cases (rebuild.sendAt row) (Rebuild.member taskId row) with is | is <;>
        rw [is]
      · exact .inl rfl
      · exact .inl rfl
    | _ => exact .inl rfl

/-- Cancels and releases keep apart. -/
abbrev Withdrawn : World → Prop := Crowd.Holds Stores.Withdrawn Agent.Withdrawn

/-- A cancel in time deletes a row that is neither released nor about to be. -/
theorem Stores.Withdrawn.cancel (withdrawn : stores.Withdrawn) {taskId : TaskId} {row : Row}
    (found : stores.scheduledPayloads.lookup taskId = some row)
    (unreleased : ∀ release ∈ stores.releases, release.row.id ≠ row.id) :
    Stores.Withdrawn { stores.deletePayloads fun other _ => other = taskId with
      canceled := row.id :: stores.canceled
      ended := taskId :: stores.ended } := by
  have rows : ∀ other found,
      (stores.deletePayloads fun other _ => other = taskId).scheduledPayloads.lookup other =
        some found → stores.scheduledPayloads.lookup other = some found ∧ other ≠ taskId := by
    intro other found present
    exact (Stores.lookup_deletePayloads.mp present).imp_right fun apart => by simpa using apart
  constructor
  · intro other row' present
    exact withdrawn.written other row' (rows other row' present).1
  · intro one two row' row'' present present' same
    exact withdrawn.distinct one two row' row'' (rows _ _ present).1 (rows _ _ present').1 same
  · intro other row' present was
    obtain ⟨old, apart⟩ := rows other row' present
    rcases List.mem_cons.mp was with same | earlier
    · exact apart (withdrawn.distinct other taskId row' row old found same)
    · exact withdrawn.gone other row' old earlier
  · intro id was
    rcases List.mem_cons.mp was with rfl | earlier
    · exact withdrawn.written taskId row found
    · exact withdrawn.before id earlier
  · intro release listed was
    rcases List.mem_cons.mp was with same | earlier
    · exact unreleased release listed same
    · exact withdrawn.unreleased release listed earlier

/-- A step in time keeps cancels and releases apart. -/
theorem withdrawn_step {world next : World} {action : Action} (withdrawn : Withdrawn world)
    (timely : InTime world action) (taken : step order world action = some next) :
    Withdrawn next := by
  refine holds_step withdrawn taken ?_ ?_ ?_
  · rintro index choice rfl ⟨process, role⟩ ⟨place, role'⟩ shared present alive same move
    obtain rfl : place = process := same
    have known := withdrawn.actor index
    rw [present] at known
    have dead : ∀ process ∈ world.shared.dead, process ∈ shared.dead :=
      fun _ was => move.dead ▸ was
    rcases move.canceled with noCancel |
      ⟨cancel, row, rfl, rfl, phase, found, rfl, rfl⟩
    · have mine : ∀ poll id, role = .poll poll → poll.mayPublish id = true →
          id ∉ world.shared.canceled := by
        rintro poll id rfl may
        exact known _ rfl id (Agent.mayPublish_iff.mpr ⟨alive, poll, rfl, may⟩)
      refine ⟨move.withdrawn withdrawn.shared mine noCancel, ?_,
        fun other _ was => was.of_same noCancel dead⟩
      rintro _ ⟨⟩ id may
      obtain ⟨_, poll, is, reads⟩ := Agent.mayPublish_iff.mp may
      obtain rfl : role' = .poll poll := is
      rw [noCancel]
      cases move with
      | poll move =>
        rcases move.mayPublish reads with before | ⟨taskId, row, found, rfl⟩
        · exact mine _ id rfl before
        · exact withdrawn.shared.gone taskId row found
    · have checked := timely
      simp only [InTime, inTime, present, Option.all_some, phase, found, Bool.and_eq_true,
        List.all_eq_true, Bool.not_eq_true', decide_eq_true_eq] at checked
      obtain ⟨unreleased, unread⟩ := checked
      refine ⟨withdrawn.shared.cancel found unreleased, ?_, fun other _ was => ?_⟩
      · rintro _ ⟨⟩ id may
        obtain ⟨_, poll, is, _⟩ := Agent.mayPublish_iff.mp may
        cases is
      · intro agent is id may again
        have before : agent.mayPublish world.shared id = true := may
        rcases List.mem_cons.mp again with rfl | earlier
        · have not := unread agent (List.mem_of_getElem? is)
          rw [before] at not
          cases not
        · exact was agent is id before earlier
  · rintro ⟨process, role⟩ starts _ ⟨⟩ id may
    obtain ⟨_, poll, is, reads⟩ := Agent.mayPublish_iff.mp may
    obtain rfl : role = .poll poll := is
    cases starts
    cases reads
  · rintro event rfl
    cases event with
    | legacy taskId projectId enrichedEventId =>
      exact ⟨withdrawn.shared.write (fun _ _ => Stores.lookup_insertPayload) rfl rfl rfl,
        fun other was => was.of_same rfl fun _ dead => dead⟩
    | tick =>
      exact ⟨withdrawn.shared.of_same rfl rfl rfl rfl, fun other was =>
        was.of_same rfl fun _ dead => dead⟩
    | receive =>
      exact ⟨withdrawn.shared.of_same rfl rfl rfl rfl, fun other was =>
        was.of_same rfl fun _ dead => dead⟩
    | crash =>
      exact ⟨withdrawn.shared.of_same rfl rfl rfl rfl, fun other was =>
        was.of_same rfl fun _ dead => List.mem_cons_of_mem _ dead⟩
    | wipe =>
      exact ⟨withdrawn.shared.of_same rfl rfl rfl rfl, fun other was =>
        was.of_same rfl fun _ dead => dead⟩

/-- There is no row yet. -/
theorem withdrawn_start : Withdrawn start where
  shared := ⟨nofun, nofun, nofun, nofun, nofun⟩
  actor _ := nofun

/-- In every run in which no cancel comes between a poll's reading a row and its publishing it,
or after that, a parked copy that was canceled is not released. -/
theorem canceled_is_not_released (order : LinearOrder TaskId) (world : World)
    (run : Reaches (step order) InTime start world) :
    ∀ release ∈ world.shared.releases, release.row.id ∉ world.shared.canceled := by
  have withdrawn : Withdrawn world :=
    run.invariant withdrawn_start fun _ _ _ kept timely taken => withdrawn_step kept timely taken
  exact withdrawn.shared.unreleased

/-- A second task, due later. -/
def dueAtThousand : Source := ⟨"b0".toList, 0, 8, some ⟨1000, none⟩, some "u".toList⟩

/-- Its member. -/
def secondMember : Member := ⟨"b0".toList, 8, some "u".toList⟩

/-- The first task is released; the second is parked and canceled, and a later poll finds its
member without a row. -/
def canceledInTime : List Action :=
  releasedOnce ++ [Action.outside (.receive dueAtThousand), .takeSource 0 1] ++ calls 3 4 ++
    [Action.takeScheduled 0 1] ++ calls 4 2 ++ [Action.startCancel 0 0 "b0".toList] ++ calls 5 2 ++
    [Action.outside (.tick 60_000), .startPoll 0] ++ claims 6 [secondMember] ++ polls 6 .proceed ++
    polls 6 (.gate [])

theorem canceled_is_not_released_run : (reached canceledInTime).shared.canceled = [1] ∧
    (reached canceledInTime).shared.releases.length = 1 ∧
    ∀ release ∈ (reached canceledInTime).shared.releases,
      release.row.id ∉ (reached canceledInTime).shared.canceled := by
  have run : Reaches (step codePoints) InTime start (reached canceledInTime) :=
    reaches_of_perform canceledInTime (by decide +kernel) rfl
  exact ⟨rfl, rfl, canceled_is_not_released codePoints _ run⟩

/-- A poll has read the row when the cancel's delete commits; the cancel answers success, and
the poll publishes the task. -/
def canceledBehindPoll : List Action :=
  [Action.outside (.receive dueAtHundred), .takeSource 0 0] ++ calls 0 4 ++ [Action.takeScheduled 0 0] ++
    calls 1 2 ++ [Action.outside (.tick 100), .startPoll 1] ++ claims 2 [firstMember] ++
    polls 2 .proceed ++ [Action.startCancel 0 0 "a0".toList] ++ calls 3 2 ++ polls 2 (.gate []) ++
    polls 2 (.publish 0)

/-- The task is canceled and goes out. -/
theorem canceled_is_released : ∃ world, Reaches (step codePoints) anyStep start world ∧
    (∃ agent ∈ world.actors, ∃ cancel, agent.role = .cancel cancel ∧
      cancel.phase = .answered true) ∧
    ∃ release ∈ world.shared.releases, release.row.id ∈ world.shared.canceled := by
  refine ⟨reached canceledBehindPoll, reaches_any canceledBehindPoll rfl,
    ⟨⟨0, .cancel ⟨0, "a0".toList, .answered true⟩⟩, ?_, _, rfl, rfl⟩,
    ⟨"a0".toList, ⟨⟨0, 7, some ⟨100, none⟩⟩, 0⟩, 100⟩, ?_, ?_⟩
  · exact List.mem_of_getElem? (i := 3) rfl
  · exact List.mem_of_getElem? (i := 0) rfl
  · exact List.mem_of_getElem? (i := 0) rfl

end Notifkit.Scheduler
