import Notifkit.Scheduler.Moves

/-!
# Released in time

A member carries a send time as its score and the row of its task carries one too. The
score never falls below the time the member was last put in for, so what a poll claims was
put in for a time that has come. The row is read afterwards, and a re-park may have given it
a later time meanwhile, while the member of an earlier time is still there: the poll that put
it in order died before it took the member out. Such a stale member releases the task
before its time.

The runs in which no poll is misled by a stale member are the punctual ones below. In them
nothing is released early, whatever is parked, redelivered, rebuilt, canceled or lost.
-/

namespace Notifkit.Scheduler

open Runs

variable {order : LinearOrder TaskId} {stores after : Stores}

/-- The send time of a row, if it has one, is not later than a time. -/
def Row.DueBy (row : Row) (now : Nat) : Prop :=
  ∀ scheduledAt ∈ row.payload.scheduledAt, scheduledAt.ms ≤ now

/-- The rows a poll reads are due, if they were re-parked for a later time than the member it
has claimed was put in for. -/
def Poll.punctual (stores : Stores) (poll : Poll) : Bool :=
  poll.parsedTasks.all fun member =>
    (stores.scheduledPayloads.lookup member.taskId).all fun row =>
      row.payload.scheduledAt.all fun scheduledAt =>
        poll.due member < scheduledAt.ms → scheduledAt.ms ≤ poll.now

/-- No poll that reads its rows is misled by a stale member. -/
def punctual (world : World) : Action → Bool
  | .act index (.poll .proceed) =>
    (world.actors[index]?).all fun agent =>
      match agent.role with
      | .poll poll =>
        match poll.phase with
        | .reading => poll.punctual world.shared
        | _ => true
      | _ => true
  | _ => true

/-- The condition on the steps of a run. -/
abbrev Punctual (world : World) (action : Action) : Prop := punctual world action = true

/-- A member's score is at least the time it was put in for, and what was released was due. -/
structure Stores.Timely (stores : Stores) : Prop where
  scores : ∀ slot score, stores.zset.score slot = some score → stores.putFor slot ≤ score
  released : ∀ release ∈ stores.releases, release.row.DueBy release.now

/-- What a poll knows of its members and rows. -/
def Poll.Timely (poll : Poll) : Prop :=
  match poll.phase with
  | .starting => poll.parsedTasks = []
  | .claiming _ | .reading => ∀ member ∈ poll.parsedTasks, poll.due member ≤ poll.now
  | .gating => ∀ member ∈ poll.parsedTasks, ∀ row,
      poll.payloadMap member.taskId = some row → row.DueBy poll.now
  | .publishing rest => ∀ event ∈ rest, event.2.DueBy poll.now
  | .locking => poll.parsedTasks = []
  | .deleting | .cleaning _ | .unlocking | .ended => True

/-- What an actor knows: only polls know anything. -/
def Agent.Timely (_ : Nat) (agent : Option Agent) (_ : Stores) : Prop :=
  ∀ process poll, agent = some ⟨process, .poll poll⟩ → poll.Timely

/-- A step that leaves the sorted sets, or takes members out, and releases nothing. -/
theorem Stores.Timely.of_same (timely : stores.Timely)
    (zset : ∀ slot score, after.zset.score slot = some score →
      stores.zset.score slot = some score)
    (putFor : after.putFor = stores.putFor) (releases : after.releases = stores.releases) :
    after.Timely := by
  constructor
  · intro slot score found
    rw [putFor]
    exact timely.scores slot score (zset slot score found)
  · rw [releases]
    exact timely.released

/-- A member that is put in has the score it is put in for. -/
theorem Stores.Timely.zadd (timely : stores.Timely) (score : Nat) (member : Member) :
    (stores.zadd score member).Timely := by
  refine ⟨fun slot found present => ?_, timely.released⟩
  simp only [Stores.zadd, ScoredSet.zadd_score, Function.update_apply] at present ⊢
  split at present
  next same =>
    rw [if_pos same]
    exact Nat.le_of_eq (Option.some.inj present)
  next apart =>
    rw [if_neg apart]
    exact timely.scores slot found present

theorem Stores.Timely.zaddNX (timely : stores.Timely) (score : Nat) (member : Member) :
    (stores.zaddNX score member).Timely := by
  unfold Stores.zaddNX
  split
  · exact timely.zadd score member
  · exact timely

/-- A move of a poll keeps the times in order. -/
theorem PollMove.timely {poll later : Poll} {choice : PollChoice}
    (move : PollMove stores poll choice after later) (timely : stores.Timely)
    (known : poll.Timely)
    (punctual : choice = .proceed → poll.phase = .reading → poll.punctual stores = true) :
    after.Timely ∧ later.Timely := by
  unfold Poll.Timely at known
  cases move with
  | turn outer =>
    refine ⟨timely.of_same (fun _ _ found => found) rfl rfl, ?_⟩
    rcases outer with ⟨phase, rfl⟩ | rfl
    · simp only [phase] at known
      exact known
    · trivial
  | start phase =>
    simp only [phase] at known
    refine ⟨timely, ?_⟩
    simp only [Poll.Timely, known]
    exact nofun
  | @claim shard members phase was due goes =>
    simp only [was] at known
    constructor
    · refine ⟨fun slot score found => ?_, timely.released⟩
      simp only [ScoredSet.rescore_score] at found
      split at found
      next listed =>
        obtain ⟨member, claimed, rfl⟩ := List.mem_map.mp listed
        obtain ⟨old, present, early⟩ := due member claimed
        have put := timely.scores _ old present
        have later := Option.some.inj found
        dsimp only
        omega
      next => exact timely.scores slot score found
    · have claims : ∀ member ∈ poll.parsedTasks ++ members,
          (if member ∈ members then stores.putFor (shard, member) else poll.due member) ≤
            poll.now := by
        intro member listed
        split
        next claimed =>
          obtain ⟨old, present, early⟩ := due member claimed
          exact Nat.le_trans (timely.scores _ old present) early
        next not =>
          rcases List.mem_append.mp listed with earlier | claimed
          · exact known member earlier
          · exact absurd claimed not
      rcases goes with ⟨shard, rfl⟩ | rfl | rfl
      · exact claims
      · trivial
      · exact claims
  | read chosen phase =>
    simp only [phase] at known
    refine ⟨timely, fun member claimed row found scheduledAt is => ?_⟩
    have checked := List.all_eq_true.mp (punctual chosen phase) member claimed
    dsimp only at found
    have due : scheduledAt.ms ≤ poll.due member ∨ scheduledAt.ms ≤ poll.now := by
      simpa [found, Option.mem_def.mp is] using checked
    rcases due with fresh | come
    · exact Nat.le_trans fresh (known member claimed)
    · exact come
  | gate phase =>
    simp only [phase] at known
    refine ⟨timely.of_same (fun _ _ found => found) rfl rfl, fun event listed => ?_⟩
    obtain ⟨claimed, found⟩ := Poll.mem_batchedEvents listed
    exact known event.1 claimed event.2 found
  | @publish rest position member row phase next =>
    simp only [phase] at known
    have due := known _ (List.mem_of_getElem? next)
    constructor
    · refine ⟨timely.scores, fun release listed => ?_⟩
      rcases List.mem_cons.mp listed with rfl | old
      · exact due
      · exact timely.released release old
    · intro event listed
      exact known event (List.mem_of_mem_eraseIdx listed)
  | published => exact ⟨timely, trivial⟩
  | delete => exact ⟨timely.of_same (fun _ _ found => found) rfl rfl, trivial⟩
  | pass => exact ⟨timely.of_same (fun _ _ found => found) rfl rfl, trivial⟩
  | remove =>
    refine ⟨timely.of_same (fun slot score found => ?_) rfl rfl, trivial⟩
    simp only [Stores.zrem, ScoredSet.zrem_score] at found
    split at found
    next => cases found
    next => exact found
  | leave => exact ⟨timely, trivial⟩
  | unlock => exact ⟨timely, trivial⟩

/-- A move of any other actor releases nothing and puts members in as they should be. -/
theorem RoleMove.timely {role later : Role} {choice : Choice} (others : ∀ poll, role ≠ .poll poll)
    (move : RoleMove order stores role choice after later) (timely : stores.Timely) :
    after.Timely := by
  have same : after.zset = stores.zset → after.putFor = stores.putFor →
      after.releases = stores.releases → after.Timely := fun zset putFor releases =>
    timely.of_same (fun _ _ found => zset ▸ found) putFor releases
  cases move with
  | park move => cases move <;> exact same rfl rfl rfl
  | delivery move => cases move <;> exact same rfl rfl rfl
  | queueing move =>
    cases move with
    | add => exact timely.zadd _ _
    | fail => exact timely
    | ack => exact same rfl rfl rfl
  | poll move => exact absurd rfl (others _)
  | cancel move => cases move <;> exact same rfl rfl rfl
  | rebuild move =>
    cases move with
    | add => exact timely.zaddNX _ _
    | _ => exact same rfl rfl rfl

/-- Scores and what polls know of them are in order. -/
abbrev Timely : World → Prop := Crowd.Holds Stores.Timely Agent.Timely

/-- A punctual step keeps them in order. -/
theorem timely_step {world next : World} {action : Action} (timely : Timely world)
    (punctual : Punctual world action) (taken : step order world action = some next) :
    Timely next := by
  refine holds_step timely taken ?_ ?_ ?_
  · rintro index choice rfl ⟨process, role⟩ ⟨place, role'⟩ shared present _ same move
    obtain rfl : place = process := same
    have known := timely.actor index
    rw [present] at known
    by_cases polls : ∃ poll, role = .poll poll
    · obtain ⟨poll, rfl⟩ := polls
      cases move with
      | @poll _ later choice _ move =>
        have checked : choice = .proceed → poll.phase = .reading →
            poll.punctual world.shared = true := by
          rintro rfl phase
          simpa [Punctual, Scheduler.punctual, present, phase] using punctual
        obtain ⟨kept, mine⟩ := move.timely timely.shared (known place poll rfl) checked
        refine ⟨kept, ?_, fun _ _ => id⟩
        rintro _ _ same
        cases same
        exact mine
    · have others : ∀ poll, role ≠ .poll poll := fun poll is => polls ⟨poll, is⟩
      refine ⟨move.timely others timely.shared, ?_, fun _ _ => id⟩
      rintro _ poll same
      cases same
      cases move
      exact absurd rfl (others _)
  · rintro ⟨process, role⟩ starts _ poll same
    cases same
    cases starts
    rfl
  · rintro event rfl
    refine ⟨?_, fun _ => id⟩
    cases event with
    | tick => exact timely.shared.of_same (fun _ _ found => found) rfl rfl
    | receive => exact timely.shared.of_same (fun _ _ found => found) rfl rfl
    | legacy => exact timely.shared.of_same (fun _ _ found => found) rfl rfl
    | crash => exact timely.shared.of_same (fun _ _ found => found) rfl rfl
    | wipe => exact timely.shared.of_same nofun rfl rfl

/-- Nothing is put in and nothing released. -/
theorem timely_start : Timely start where
  shared := ⟨nofun, nofun⟩
  actor _ := nofun

/-- A task that is due at the hundredth millisecond. -/
def dueAtHundred : Source := ⟨"a0".toList, 0, 7, some ⟨100, none⟩, some "t".toList⟩

/-- Its member. -/
def firstMember : Member := ⟨"a0".toList, 7, some "t".toList⟩

/-- The task is parked and its member put in, its time comes, and a poll of process 1 releases
it. -/
def releasedOnce : List Action :=
  [Action.outside (.receive dueAtHundred), .takeSource 0 0] ++ calls 0 4 ++ [Action.takeScheduled 0 0] ++
    calls 1 2 ++ [Action.outside (.tick 100), .startPoll 1] ++ claims 2 [firstMember] ++
    polls 2 .proceed ++ polls 2 (.gate []) ++ polls 2 (.publish 0)

/-- The state some actions lead to. -/
def reached (actions : List Action) : World := (perform (step codePoints) start actions).getD start

/-- Process 1 dies before its poll has taken the member out. The delivery of the task has to
wait and parks it again for much later; the next poll finds the first member in the sorted set,
and the row of the second parking under it. -/
def releasedEarly : List Action :=
  releasedOnce ++ [Action.outside (.crash 1), .takeDispatch 0 0,
    .act 3 (.delivery (.reschedule 3_600_000 "throttle".toList)), .act 3 (.delivery .proceed),
    .outside (.tick 60_000), .startPoll 0] ++ claims 4 [firstMember] ++
    polls 4 .proceed ++ polls 4 (.gate []) ++ polls 4 (.publish 0)

end Notifkit.Scheduler
