import Notifkit.Scheduler.ParkedRuns

/-!
# Every careful run keeps the parked tasks

The parts are put together here: a move of any call keeps what the others rely on, so each
careful run keeps the invariant, and with it every task that was accepted and has not come
to its end has a message or a member that brings it on, and a message or a row that holds
its payload. A row that is gone was published, refused or canceled. Without the condition
a poll deletes the row of a task that was parked again under the same send time.
-/

namespace Notifkit.Scheduler

open Runs

variable {order : LinearOrder TaskId} {stores after : Stores} {taskId : TaskId}

theorem Role.Knows.kept {role : Role} (knows : role.Knows stores) (parked : stores.Parked)
    (keeps : stores.Keeps after)
    (announced : ∀ poll, role = .poll poll → ∀ member home, after.Announced member home →
      stores.Announced member home ∨ home = none ∨
        (member ∈ poll.removing → poll.pends member.taskId = true)) : role.Knows after := by
  cases role with
  | park => exact Park.Knows.kept knows keeps
  | delivery => exact Delivery.Knows.kept knows keeps
  | queueing => exact Queueing.Knows.kept knows keeps
  | poll poll => exact Poll.Knows.kept knows parked keeps (announced poll rfl)
  | cancel => trivial
  | rebuild => exact Rebuild.Knows.kept knows keeps

/-- What a move keeps and adds; a re-park may announce a member for a dispatch. -/
theorem RoleMove.kept {role later : Role} {choice : Choice}
    (move : RoleMove order stores role choice after later) (parked : stores.Parked)
    (knows : role.Knows stores)
    (own : ∀ poll, role = .poll poll → choice = .poll .proceed → poll.phase = .deleting →
      poll.deletesOwn stores = true) :
    stores.Keeps after ∧ stores.Adds after ∧ later.Knows after ∧
      ∀ member home, after.Announced member home → stores.Announced member home ∨ home = none ∨
        ∃ delivery scheduledAt reason, role = .delivery delivery ∧
          choice = .delivery .proceed ∧ delivery.phase = .announcing scheduledAt reason ∧
          member = (delivery.message scheduledAt reason stores.clock).member := by
  have fairly : stores.Fair after → later.Knows after →
      stores.Keeps after ∧ stores.Adds after ∧ later.Knows after ∧
        ∀ member home, after.Announced member home → stores.Announced member home ∨ home = none ∨
          ∃ delivery scheduledAt reason, role = .delivery delivery ∧
            choice = .delivery .proceed ∧ delivery.phase = .announcing scheduledAt reason ∧
            member = (delivery.message scheduledAt reason stores.clock).member :=
    fun fair knows => ⟨fair.keeps, fair.adds, knows, fun member home announced =>
      (fair.announced member home announced).imp_right .inl⟩
  cases move with
  | park move =>
    obtain ⟨fair, knows⟩ := move.fair parked knows
    exact fairly fair knows
  | @delivery delivery _ _ _ move =>
    obtain ⟨keeps, adds, knows, announced⟩ := move.fair parked knows
    refine ⟨keeps, adds, knows, fun member home now => ?_⟩
    rcases announced member home now with old | none | ⟨scheduledAt, reason, rfl, phase, is⟩
    · exact .inl old
    · exact .inr (.inl none)
    · exact .inr (.inr ⟨delivery, scheduledAt, reason, rfl, rfl, phase, is⟩)
  | queueing move =>
    obtain ⟨fair, knows⟩ := move.fair parked knows
    exact fairly fair knows
  | poll move =>
    obtain ⟨fair, knows⟩ := move.fair parked knows fun chosen => own _ rfl (congrArg _ chosen)
    exact fairly fair knows
  | cancel move => exact fairly move.fair trivial
  | rebuild move =>
    obtain ⟨fair, knows⟩ := move.fair knows
    exact fairly fair knows

/-- A call that has just been started knows what it needs. -/
theorem Role.Starts.knows {role : Role} (starts : role.Starts stores) : role.Knows stores := by
  cases starts with
  | park present => exact ⟨present, nofun, nofun⟩
  | delivery present => exact ⟨present, nofun, nofun⟩
  | queueing present => exact ⟨present, nofun⟩
  | poll => exact .of_light trivial nofun
  | cancel => trivial
  | rebuild => exact nofun

/-- What happens outside, if Redis keeps its data and no row appears. -/
theorem outside_fair {event : Outside} (keptData : event ≠ .wipe)
    (noLegacy : ∀ taskId projectId enrichedEventId,
      event ≠ .legacy taskId projectId enrichedEventId) :
    stores.Fair (outsideStep stores event) := by
  cases event with
  | tick =>
    exact .of_quiet { Stores.Grows.refl stores with }
      { Stores.Adds.refl stores with accounted := fun _ gone => .inl gone } rfl rfl rfl rfl
  | receive source =>
    exact .of_quiet { Stores.Grows.refl stores with
        sources := fun position other found => Tables.row_append.mpr (.inl found) }
      { Stores.Adds.refl stores with accounted := fun _ gone => .inl gone } rfl rfl rfl rfl
  | crash process =>
    exact .of_quiet { Stores.Grows.refl stores with
        dead := fun _ was => List.mem_cons_of_mem _ was }
      { Stores.Adds.refl stores with accounted := fun _ gone => .inl gone } rfl rfl rfl rfl
  | legacy => exact absurd rfl (noLegacy _ _ _)
  | wipe => exact absurd rfl keptData

/-- The stores and what everybody knows of them. -/
abbrev KeepsTasks : World → Prop := Crowd.Holds Stores.Parked Agent.Knows

/-- An agent's knowledge is kept if a member that a poll of a living process is to take out is
announced for a dispatch only while the poll is still to publish its task. -/
theorem Agent.Knows.kept {index : Nat} {agent : Option Agent}
    (known : Agent.Knows index agent stores) (parked : stores.Parked) (keeps : stores.Keeps after)
    (announced : ∀ other ∈ agent, other.process ∉ stores.dead → ∀ poll, other.role = .poll poll →
      ∀ member home, after.Announced member home →
        stores.Announced member home ∨ home = none ∨
          (member ∈ poll.removing → poll.pends member.taskId = true)) :
    Agent.Knows index agent after := by
  intro process role is alive
  have alive' : process ∉ stores.dead := fun was => alive (keeps.grows.dead _ was)
  exact (known process role is alive').kept parked keeps
    (announced ⟨process, role⟩ is alive')

/-- A fair step leaves everybody what they know. -/
theorem Stores.Fair.agent (fair : stores.Fair after) (parked : stores.Parked) {index : Nat}
    {agent : Option Agent} (known : Agent.Knows index agent stores) :
    Agent.Knows index agent after :=
  known.kept parked fair.keeps fun _ _ _ _ _ member home now =>
    (fair.announced member home now).imp_right .inl

/-- A poll that may take a member out without publishing its task is seen by the condition. -/
theorem Agent.pends_of_spared {agent : Agent} {poll : Poll} {member : Member}
    (spared : agent.takesOut stores member = false) (alive : agent.process ∉ stores.dead)
    (role : agent.role = .poll poll) (removing : member ∈ poll.removing) :
    poll.pends member.taskId = true := by
  unfold Agent.takesOut at spared
  simp only [role, alive, removing, not_false_eq_true, decide_true, Bool.true_and,
    Bool.not_eq_false'] at spared
  exact spared

/-- A careful step keeps the parked tasks. -/
theorem keepsTasks_step {world next : World} {action : Action} (holds : KeepsTasks world)
    (careful : Careful world action) (taken : step order world action = some next) :
    KeepsTasks next := by
  have parked := holds.shared
  apply holds_step holds taken
  · rintro index choice rfl ⟨process, role⟩ ⟨place, role'⟩ shared present alive same move
    obtain rfl : place = process := same
    have known : role.Knows world.shared := holds.actor index _ _ present alive
    have own : ∀ poll, role = .poll poll → choice = .poll .proceed → poll.phase = .deleting →
        poll.deletesOwn world.shared = true := by
      rintro poll rfl rfl phase
      have checked := careful
      simp only [Careful, Scheduler.careful, present, Option.all_some, phase] at checked
      exact checked
    obtain ⟨keeps, adds, knows, announced⟩ := move.kept parked known own
    refine ⟨parked.step keeps adds, ?_, fun other _ was => was.kept parked keeps ?_⟩
    · rintro _ _ ⟨⟩ _
      exact knows
    · rintro agent there living poll is member home now
      rcases announced member home now with old | none | ⟨delivery, scheduledAt, reason, rfl, rfl,
        phase, rfl⟩
      · exact .inl old
      · exact .inr (.inl none)
      · refine .inr (.inr fun removing => ?_)
        have checked := careful
        simp only [Careful, Scheduler.careful, present, Option.all_some, phase, List.all_eq_true,
          Bool.not_eq_true'] at checked
        exact Agent.pends_of_spared (checked agent (List.mem_of_getElem? there)) living is removing
  · rintro ⟨process, role⟩ starts _ _ ⟨⟩ _
    exact starts.knows
  · rintro event rfl
    have fair : world.shared.Fair (outsideStep world.shared event) := by
      apply outside_fair
      · rintro rfl
        cases careful
      · rintro taskId projectId enrichedEventId rfl
        cases careful
    exact ⟨parked.step fair.keeps fair.adds, fun other known => fair.agent parked known⟩

theorem keepsTasks_start : KeepsTasks start := by
  constructor
  · constructor
    case written => rintro taskId row ⟨⟩
    all_goals simp [start]
  · rintro index process role present
    cases present

/-- A task that has not come to its end is owed to its last dispatch, or to its first
parking. -/
theorem Stores.exists_owed (unended : taskId ∉ stores.ended) : ∃ home, stores.Owed taskId home := by
  classical
  let dispatched : Nat → Prop := fun position =>
    ∃ task, stores.outbound[position]? = some task ∧ task.taskId = taskId
  by_cases some' : ∃ position, dispatched position
  · obtain ⟨position, found⟩ := some'
    have bound : ∀ position, dispatched position → position ≤ stores.outbound.length :=
      fun position ⟨_, there, _⟩ => Nat.le_of_lt (List.getElem?_eq_some_iff.mp there).1
    refine ⟨some (Nat.findGreatest dispatched stores.outbound.length), ?_, ?_, unended⟩
    · rintro _ ⟨⟩
      exact Nat.findGreatest_spec (bound position found) found
    · intro other task there own
      exact ⟨_, rfl, Nat.le_findGreatest (bound other ⟨task, there, own⟩) ⟨task, there, own⟩⟩
  · refine ⟨none, nofun, fun position task there own => ?_, unended⟩
    exact absurd ⟨position, task, there, own⟩ some'

/-- What is carried on is brought on. -/
theorem Stores.Carried.supported {home : Option Nat} (carried : stores.Carried taskId home) :
    stores.Supported taskId := by
  obtain ⟨position, message, found, same, _, waits | there⟩ := carried
  · exact .inr (.inr (.inl ⟨position, message, found, same, waits⟩))
  · exact .inr (.inr (.inr ⟨message.member, same, there⟩))

/-- A task that is owed and carried on has a row. -/
theorem Stores.Parked.row (parked : stores.Parked) {home : Option Nat}
    (owed : stores.Owed taskId home) (carried : stores.Carried taskId home) :
    ∃ row, stores.scheduledPayloads.lookup taskId = some row := by
  obtain ⟨position, message, found, rfl, rfl, _⟩ := carried
  obtain ⟨row, present, _⟩ := (parked.messages _ (List.mem_of_getElem? found)).row owed
  exact ⟨row, present⟩

/-- No parked task is stranded or lost. -/
theorem Stores.Parked.safe (parked : stores.Parked) : stores.Safe := by
  have kept : ∀ source ∈ stores.sources, source.taskId ∉ stores.ended →
      stores.Supported source.taskId ∧
        ((∃ position other, stores.sources[position]? = some other ∧
            other.taskId = source.taskId ∧ position ∉ stores.sourcesDone) ∨
          (∃ position task, stores.outbound[position]? = some task ∧
            task.taskId = source.taskId ∧ position ∉ stores.outboundDone) ∨
          ∃ row, stores.scheduledPayloads.lookup source.taskId = some row) := by
    intro source listed unended
    obtain ⟨position, found⟩ := List.mem_iff_getElem?.mp listed
    obtain ⟨home, owed⟩ := Stores.exists_owed unended
    have rests : stores.Carried source.taskId home → stores.Supported source.taskId ∧
        ((∃ position other, stores.sources[position]? = some other ∧
            other.taskId = source.taskId ∧ position ∉ stores.sourcesDone) ∨
          (∃ position task, stores.outbound[position]? = some task ∧
            task.taskId = source.taskId ∧ position ∉ stores.outboundDone) ∨
          ∃ row, stores.scheduledPayloads.lookup source.taskId = some row) :=
      fun carried => ⟨carried.supported, .inr (.inr (parked.row owed carried))⟩
    cases home with
    | none =>
      by_cases done : position ∈ stores.sourcesDone
      · obtain ⟨other, found', carrying⟩ := parked.parked position done
        obtain rfl := Option.some.inj (found.symm.trans found')
        exact rests (carrying.carried owed)
      · have waits : ∃ position other, stores.sources[position]? = some other ∧
            other.taskId = source.taskId ∧ position ∉ stores.sourcesDone :=
          ⟨position, source, found, rfl, done⟩
        exact ⟨.inl waits, .inl waits⟩
    | some last =>
      obtain ⟨task, sent, own⟩ := owed.own last rfl
      by_cases done : last ∈ stores.outboundDone
      · obtain ⟨task', sent', carrying⟩ := parked.delivered last done
        obtain rfl := Option.some.inj (sent.symm.trans sent')
        rw [own] at carrying
        exact rests (carrying.carried owed)
      · have waits : ∃ position task, stores.outbound[position]? = some task ∧
            task.taskId = source.taskId ∧ position ∉ stores.outboundDone :=
          ⟨last, task, sent, own, done⟩
        exact ⟨.inr (.inl waits), .inr (.inl waits)⟩
  refine ⟨?_, kept, parked.accounted⟩
  intro taskId row found unended
  obtain ⟨source, listed, rfl⟩ := (parked.written taskId row found).2
  exact (kept source listed unended).1

/-- In every careful run, no parked task is stranded or lost. -/
theorem parked_tasks_are_kept (order : LinearOrder TaskId) (world : World)
    (run : Reaches (step order) Careful start world) : world.shared.Safe :=
  (run.invariant keepsTasks_start fun _ _ _ holds careful taken =>
    keepsTasks_step holds careful taken).shared.safe

theorem parked_tasks_are_kept_run : (reached releasedOnce).shared.Safe :=
  parked_tasks_are_kept codePoints _
    (reaches_of_perform releasedOnce (by decide +kernel) rfl)

/-- The member of a re-park at a time. -/
def laterMember (now : Nat) : Member :=
  ⟨"a0".toList, 7, some ("a0:throttle:".toList ++ Nat.toDigits 10 now)⟩

/-- The delivery of a dispatch has to wait and parks the task again; its member is put in. -/
def parksAgain (position index delay : Nat) : List Action :=
  [Action.takeDispatch 0 position, .act index (.delivery (.reschedule delay "throttle".toList))] ++
    List.replicate 3 (Action.act index (.delivery .proceed)) ++ [Action.takeScheduled 0 (position + 1)] ++
    calls (index + 1) 2

/-- Process 1 dies before its poll has taken the member out, and the delivery parks the task
again. The next poll publishes the row of the re-park under the first member; that delivery too
has to wait, until the same millisecond, and its row is written before the poll deletes. -/
def losesTask : List Action :=
  releasedOnce ++ [Action.outside (.crash 1)] ++ parksAgain 0 3 3_600_000 ++
    [Action.outside (.tick 60_000), .startPoll 0] ++ claims 5 [firstMember] ++
    polls 5 .proceed ++ polls 5 (.gate []) ++ polls 5 (.publish 0) ++ polls 5 .proceed ++
    parksAgain 1 6 3_540_000 ++ List.replicate 4 (Action.act 5 (.poll .proceed)) ++
    [Action.outside (.tick 3_540_000), .startPoll 0] ++ claims 8 [laterMember 100, laterMember 60_100] ++
    polls 8 .proceed ++ polls 8 (.gate []) ++ List.replicate 6 (Action.act 8 (.poll .proceed))

/-- The first member is put in and claimed by both polls, then taken out by the second; the
others are put in, claimed and taken out by the third. -/
theorem members_of_losesTask : (reached losesTask).shared.zset =
    ((((((((ScoredSet.empty.zadd 100 firstMember.slot).rescore
      [firstMember.slot] 60_100).zadd 3_600_100 (laterMember 100).slot).rescore
      [firstMember.slot] 120_100).zadd 3_600_100 (laterMember 60_100).slot).zrem
      firstMember.slot).rescore
      [(laterMember 100).slot, (laterMember 60_100).slot] 3_660_100).zrem
      (laterMember 100).slot).zrem (laterMember 60_100).slot := by
  rfl

/-- The actions can all be taken. -/
theorem perform_reached {actions : List Action}
    (taken : (perform (step codePoints) start actions).isSome = true) :
    perform (step codePoints) start actions = some (reached actions) := by
  obtain ⟨world, is⟩ := Option.isSome_iff_exists.mp taken
  rw [reached, is, Option.getD_some]

/-- The messages at some positions are all acknowledged. -/
theorem acknowledged {α : Type} {messages : List α} {done : List Nat} {position : Nat} {message : α}
    (all : ∀ position < messages.length, position ∈ done)
    (found : messages[position]? = some message) : position ∈ done :=
  all position (List.getElem?_eq_some_iff.mp found).1

/-- A row that nobody published is deleted, and nothing is left of a task that was not
delivered, refused or canceled. -/
theorem reparked_task_is_lost : ∃ world, Reaches (step codePoints) anyStep start world ∧
    (∃ id ∈ world.shared.deleted, ¬ world.shared.Accounted id) ∧
    dueAtHundred ∈ world.shared.sources ∧ dueAtHundred.taskId ∉ world.shared.ended ∧
    world.shared.scheduledPayloads.lookup dueAtHundred.taskId = none ∧
    ¬ world.shared.Supported dueAtHundred.taskId := by
  refine ⟨reached losesTask, reaches_any losesTask (perform_reached rfl), ⟨2, ?_, ?_⟩, ?_, ?_, ?_, ?_⟩
  · exact List.mem_of_getElem? (i := 0) rfl
  · rintro (⟨release, listed, is⟩ | refused | canceled)
    · have released : (reached losesTask).shared.releases.map (·.row.id) = [1, 0] := rfl
      have among := List.mem_map_of_mem (f := fun release => release.row.id) listed
      rw [released, is] at among
      exact absurd among (by decide)
    · cases refused
    · cases canceled
  · exact List.mem_of_getElem? (i := 0) rfl
  · exact List.not_mem_nil
  · rfl
  · rintro (⟨position, source, found, _, waits⟩ | ⟨position, task, found, _, waits⟩ |
      ⟨position, message, found, _, waits⟩ | ⟨member, _, there⟩)
    · exact waits (acknowledged (by decide +kernel) found)
    · exact waits (acknowledged (by decide +kernel) found)
    · exact waits (acknowledged (by decide +kernel) found)
    · rw [members_of_losesTask] at there
      simp only [ScoredSet.zrem_score, ScoredSet.rescore_score, ScoredSet.zadd_score,
        ScoredSet.empty_score, List.mem_cons, List.not_mem_nil, or_false] at there
      split_ifs at there <;> simp_all

end Notifkit.Scheduler
