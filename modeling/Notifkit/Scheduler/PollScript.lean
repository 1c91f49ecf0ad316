import Notifkit.Foundations.SortedSets
import Notifkit.Scheduler.Poll
import Mathlib.Order.Hom.Basic

/-!
# The script behind a claim

A call reads the first due members of a sorted set and gives each of them a score beyond the call's
own time, so that they are due again only when the visibility timeout has passed. Members that were
never claimed, that are claimed, and whose claim has run out stand in one order; the calls so far
are known from the scores alone.

Scores are any ordered values that the instants are among. Sums of instants are exact. The range
that is read begins at zero.
-/

namespace Notifkit.Scheduler

universe u v
variable {Task : Type u} {Score : Type v} [LinearOrder Task] [LinearOrder Score] (ms : Nat ↪o Score)

/-- `LUA_SCHEDULER_POLL`: the set that is left, and the tasks that are returned. -/
def schedulerPoll (set : SortedSet Task Score) (maxScore limit visibilityTimeout : Nat) :
    SortedSet Task Score × List Task :=
  let tasks := set.zrange (ms 0) (ms maxScore) limit
  (set.rescore tasks (ms (maxScore + visibilityTimeout)), tasks)

/-- A call as it went: the set it found, its time and its answer. -/
structure PollCall (Task : Type u) (Score : Type v) where
  found : SortedSet Task Score
  now : Nat
  tasks : List Task

/-- Calls one after the other, with nothing in between. -/
def pollCalls (limit visibilityTimeout : Nat) :
    SortedSet Task Score → List Nat → List (PollCall Task Score)
  | _, [] => []
  | set, now :: rest =>
    let (next, tasks) := schedulerPoll ms set now limit visibilityTimeout
    ⟨set, now, tasks⟩ :: pollCalls limit visibilityTimeout next rest

/-- The due members of a set, as far as their scores are not negative. -/
def due (set : SortedSet Task Score) (now : Nat) : List (Task × Score) :=
  set.between (ms 0) (ms now)

/-- What a call returns is due, and in the order of the scores. -/
def PollCall.InOrder (call : PollCall Task Score) : Prop :=
  ∃ entries : List (Task × Score), call.tasks = entries.map Prod.fst ∧
    (∀ entry ∈ entries, entry ∈ call.found.entries ∧ entry.2 ≤ ms call.now) ∧
    entries.Pairwise fun first second => first.2 ≤ second.2

/-- A task stands at a bound or behind it. -/
def StandsBehind (set : SortedSet Task Score) (task : Task) (bound : Nat) : Prop :=
  ∃ score, (task, score) ∈ set.entries ∧ ms bound ≤ score

variable {ms} {set : SortedSet Task Score} {now limit visibilityTimeout bound : Nat} {task : Task}
  {nows : List Nat} {call : PollCall Task Score}

theorem schedulerPoll_inOrder (visibilityTimeout : Nat) : PollCall.InOrder ms
    ⟨set, now, (schedulerPoll ms set now limit visibilityTimeout).2⟩ := by
  refine ⟨set.first (ms 0) (ms now) limit, rfl, ?_, ?_⟩
  · intro entry listed
    obtain ⟨inside, _, high⟩ :=
      SortedSet.mem_between.mp (SortedSet.mem_between_of_mem_first listed)
    exact ⟨inside, high⟩
  · exact (set.first_ordered _ _ _).imp SortedSet.Before.score

/-- The entries a call leaves. -/
theorem schedulerPoll_entries : (schedulerPoll ms set now limit visibilityTimeout).1.entries =
    set.entries.map fun entry =>
      if entry.1 ∈ (schedulerPoll ms set now limit visibilityTimeout).2 then
        (entry.1, ms (now + visibilityTimeout))
      else entry :=
  SortedSet.rescore_entries SortedSet.zrange_present

/-- What a call returns stands behind its time and the timeout. -/
theorem standsBehind_of_returned
    (returned : task ∈ (schedulerPoll ms set now limit visibilityTimeout).2) :
    StandsBehind ms (schedulerPoll ms set now limit visibilityTimeout).1 task
      (now + visibilityTimeout) := by
  obtain ⟨entry, listed, same⟩ := List.mem_map.mp (SortedSet.zrange_present task returned)
  refine ⟨ms (now + visibilityTimeout), ?_, le_rfl⟩
  rw [schedulerPoll_entries]
  refine List.mem_map.mpr ⟨entry, listed, ?_⟩
  rw [same, if_pos returned]

/-- A later call moves nothing to the front. -/
theorem StandsBehind.schedulerPoll (stands : StandsBehind ms set task bound)
    (later : bound ≤ now + visibilityTimeout) :
    StandsBehind ms (schedulerPoll ms set now limit visibilityTimeout).1 task bound := by
  obtain ⟨score, listed, behind⟩ := stands
  by_cases returned : task ∈ (Scheduler.schedulerPoll ms set now limit visibilityTimeout).2
  · obtain ⟨moved, listed, far⟩ := standsBehind_of_returned returned
    exact ⟨moved, listed, le_trans (ms.monotone later) far⟩
  · refine ⟨score, ?_, behind⟩
    rw [schedulerPoll_entries]
    exact List.mem_map.mpr ⟨_, listed, if_neg returned⟩

/-- A task is returned at its bound or after it. -/
theorem StandsBehind.le_of_returned (stands : StandsBehind ms set task bound)
    (returned : task ∈ (Scheduler.schedulerPoll ms set now limit visibilityTimeout).2) :
    bound ≤ now := by
  obtain ⟨score, listed, behind⟩ := stands
  obtain ⟨entry, read, rfl⟩ := List.mem_map.mp returned
  obtain ⟨inside, _, high⟩ := SortedSet.mem_between.mp (SortedSet.mem_between_of_mem_first read)
  have same := SortedSet.entry_eq listed inside rfl
  rw [← same] at high
  exact ms.le_iff_le.mp (le_trans behind high)

/-- Along calls at later times, a task that stands behind a bound is returned after it. -/
theorem StandsBehind.le_of_called (stands : StandsBehind ms set task bound)
    (later : ∀ now ∈ nows, bound ≤ now + visibilityTimeout)
    (listed : call ∈ pollCalls ms limit visibilityTimeout set nows)
    (returned : task ∈ call.tasks) : bound ≤ call.now := by
  induction nows generalizing set with
  | nil => cases listed
  | cons now rest inductionHypothesis =>
    rcases List.mem_cons.mp listed with rfl | listed
    · have read : task ∈ (Scheduler.schedulerPoll ms set now limit visibilityTimeout).2 := returned
      exact stands.le_of_returned read
    · exact inductionHypothesis (stands.schedulerPoll (later now List.mem_cons_self))
        (fun other member => later other (List.mem_cons_of_mem _ member)) listed

/-- Every call returns due members in order. -/
theorem calls_inOrder (listed : call ∈ pollCalls ms limit visibilityTimeout set nows) :
    call.InOrder ms := by
  induction nows generalizing set with
  | nil => cases listed
  | cons now rest inductionHypothesis =>
    rcases List.mem_cons.mp listed with rfl | listed
    · exact schedulerPoll_inOrder visibilityTimeout
    · exact inductionHypothesis listed

/-- The times of calls are those they were made at. -/
theorem now_mem_of_call (listed : call ∈ pollCalls ms limit visibilityTimeout set nows) :
    call.now ∈ nows := by
  induction nows generalizing set with
  | nil => cases listed
  | cons now rest inductionHypothesis =>
    rcases List.mem_cons.mp listed with rfl | listed
    · exact List.mem_cons_self
    · exact List.mem_cons_of_mem _ (inductionHypothesis listed)

/-- No task is returned again before the timeout has passed. -/
theorem calls_apart (ordered : nows.Pairwise (· ≤ ·)) :
    (pollCalls ms limit visibilityTimeout set nows).Pairwise fun first second =>
      ∀ task ∈ first.tasks, task ∈ second.tasks → first.now + visibilityTimeout ≤ second.now := by
  induction nows generalizing set with
  | nil => exact List.Pairwise.nil
  | cons now rest inductionHypothesis =>
    obtain ⟨first, others⟩ := List.pairwise_cons.mp ordered
    refine List.pairwise_cons.mpr ⟨?_, inductionHypothesis others⟩
    intro call listed task returned again
    refine (standsBehind_of_returned returned).le_of_called ?_ listed again
    intro other member
    exact Nat.add_le_add_right (first other member) _

/-- What is behind some calls are calls. -/
theorem pollCalls_suffix {earlier later : List (PollCall Task Score)}
    (split : pollCalls ms limit visibilityTimeout set nows = earlier ++ later) :
    ∃ next rest, later = pollCalls ms limit visibilityTimeout next rest := by
  induction earlier generalizing set nows with
  | nil => exact ⟨set, nows, split.symm⟩
  | cons call earlier inductionHypothesis =>
    cases nows with
    | nil => cases split
    | cons now rest => exact inductionHypothesis (List.tail_eq_of_cons_eq split)

/-- Calls at one time return everything that is due then, if there is room for it. -/
theorem calls_drain (timeout : 0 < visibilityTimeout)
    {same later : List (PollCall Task Score)}
    (split : pollCalls ms limit visibilityTimeout set nows = same ++ later)
    (times : ∀ call ∈ same, call.now = now)
    (room : (due ms set now).length ≤ same.length * limit) :
    ∀ entry ∈ due ms set now, ∃ call ∈ same, entry.1 ∈ call.tasks := by
  induction same generalizing set nows with
  | nil =>
    intro entry listed
    rw [List.length_nil, Nat.zero_mul, Nat.le_zero, List.length_eq_zero_iff] at room
    rw [room] at listed
    cases listed
  | cons call same inductionHypothesis =>
    cases nows with
    | nil => cases split
    | cons first rest =>
      obtain rfl := List.head_eq_of_cons_eq split
      obtain rfl : first = now := times _ List.mem_cons_self
      have behind : ms first < ms (first + visibilityTimeout) := by
        rw [ms.lt_iff_lt]
        omega
      have left : (due ms (schedulerPoll ms set first limit visibilityTimeout).1 first).length =
          (due ms set first).length - limit := SortedSet.length_between_rescore behind
      intro entry listed
      rcases SortedSet.read_or_left behind listed with read | remains
      · exact ⟨_, List.mem_cons_self, read⟩
      · have fits : (due ms (schedulerPoll ms set first limit visibilityTimeout).1 first).length ≤
            same.length * limit := by
          rw [left, List.length_cons, Nat.add_mul, Nat.one_mul] at *
          omega
        obtain ⟨call, member, returned⟩ := inductionHypothesis (List.tail_eq_of_cons_eq split)
          (fun call member => times call (List.mem_cons_of_mem _ member)) fits entry remains
        exact ⟨call, List.mem_cons_of_mem _ member, returned⟩

/-- So many rounds have room for all. -/
theorem le_rounds (positive : 0 < limit) (number : Nat) :
    number ≤ (number + limit - 1) / limit * limit := by
  have whole := Nat.div_add_mod (number + limit - 1) limit
  have part := Nat.mod_lt (number + limit - 1) positive
  rw [Nat.mul_comm] at whole
  omega

/-- Calls at times that do not go back return due members in order, no member again before the
timeout has passed, and, at one time, every member that is due with a score of at least zero after
as many calls as there are limits in their number. -/
theorem polls_claim_apart (ms : Nat ↪o Score) (set : SortedSet Task Score) (nows : List Nat)
    (limit visibilityTimeout : Nat) (ordered : nows.Pairwise (· ≤ ·)) (positive : 0 < limit)
    (timeout : 0 < visibilityTimeout) :
    (∀ call ∈ pollCalls ms limit visibilityTimeout set nows, call.InOrder ms) ∧
      ((pollCalls ms limit visibilityTimeout set nows).Pairwise fun first second =>
        ∀ task ∈ first.tasks, task ∈ second.tasks →
          first.now + visibilityTimeout ≤ second.now) ∧
      ∀ earlier same later,
        pollCalls ms limit visibilityTimeout set nows = earlier ++ (same ++ later) →
        ∀ first ∈ same.head?, (∀ call ∈ same, call.now = first.now) →
          same.length = ((due ms first.found first.now).length + limit - 1) / limit →
          ∀ entry ∈ due ms first.found first.now, ∃ call ∈ same, entry.1 ∈ call.tasks := by
  refine ⟨fun call => calls_inOrder, calls_apart ordered, ?_⟩
  intro earlier same later split first begins times count
  obtain ⟨found, rest, split⟩ := pollCalls_suffix split
  cases same with
  | nil => cases begins
  | cons call same =>
    obtain rfl : call = first := Option.some.inj begins
    cases rest with
    | nil => cases split
    | cons now rest =>
      obtain rfl := List.head_eq_of_cons_eq split
      apply calls_drain timeout split.symm times
      rw [count]
      exact le_rounds positive _

/-- Instants among whole scores. -/
def wholeMs : Nat ↪o Int where
  toFun instant := instant
  inj' _ _ same := Int.ofNat.inj same
  map_rel_iff' := Int.ofNat_le

/-- A member with a score below zero, which no call returns. -/
def forgotten : SortedSet Nat Int where
  entries := [(1, -1)]
  distinct := List.nodup_singleton 1

/-- The one member is due, and not returned. -/
theorem negative_score_never_returned :
    (∀ entry ∈ forgotten.entries, entry.2 ≤ wholeMs 0) ∧
      (pollCalls wholeMs 1 60000 forgotten [0]).map PollCall.tasks = [[]] := by
  decide

/-- Two members, of which the second is due first. -/
def twoDue : SortedSet Nat Int where
  entries := [(1, 4), (2, 3)]
  distinct := by decide

theorem two_calls_claim_apart :
    (∀ call ∈ pollCalls wholeMs 1 10 twoDue [5, 5],
        call.InOrder wholeMs) ∧
      ((pollCalls wholeMs 1 10 twoDue [5, 5]).Pairwise fun first second =>
        ∀ task ∈ first.tasks, task ∈ second.tasks → first.now + 10 ≤ second.now) ∧
      ∀ earlier same later,
        pollCalls wholeMs 1 10 twoDue [5, 5] = earlier ++ (same ++ later) →
        ∀ first ∈ same.head?, (∀ call ∈ same, call.now = first.now) →
          same.length =
            ((due wholeMs first.found first.now).length + 1 - 1) / 1 →
          ∀ entry ∈ due wholeMs first.found first.now,
            ∃ call ∈ same, entry.1 ∈ call.tasks :=
  polls_claim_apart wholeMs twoDue [5, 5] 1 10 (by decide) (by decide) (by decide)

section Claims

variable [LinearOrder Member]

/-- What the script returns for a shard is a claim that a poll can make, and it leaves the scores
the claim leaves. -/
theorem claim_of_script {stores : Stores} {poll : Poll} {shard : Nat} {set : SortedSet Member Nat}
    (kept : ∀ member, stores.zset.score (shard, member) = set.score member) :
    ∃ next, poll.claim stores shard (schedulerPoll (RelEmbedding.refl (· ≤ ·)) set poll.now
        perShardLimit Scheduler.visibilityTimeout).2 = some next ∧
      ∀ member, next.1.zset.score (shard, member) = (schedulerPoll (RelEmbedding.refl (· ≤ ·)) set
        poll.now perShardLimit Scheduler.visibilityTimeout).1.score member := by
  have found : ∀ member ∈ set.zrange 0 poll.now perShardLimit,
      ∃ score ∈ stores.zset.score (shard, member), score ≤ poll.now := by
    intro member listed
    obtain ⟨entry, read, rfl⟩ := List.mem_map.mp listed
    obtain ⟨inside, _, high⟩ := SortedSet.mem_between.mp (SortedSet.mem_between_of_mem_first read)
    exact ⟨entry.2, (kept _).trans (SortedSet.score_eq_some.mpr inside), high⟩
  refine ⟨_, if_pos ⟨SortedSet.zrange_nodup _ _ _ _, SortedSet.zrange_length_le _ _ _ _, found⟩, ?_⟩
  intro member
  refine Eq.trans ?_ (SortedSet.rescore_score SortedSet.zrange_present member).symm
  rw [ScoredSet.rescore_score, kept]
  have same : (shard, member) ∈ (set.zrange 0 poll.now perShardLimit).map (fun one => (shard, one)) ↔
      member ∈ set.zrange 0 poll.now perShardLimit := by
    constructor
    · intro listed
      obtain ⟨other, listed, pair⟩ := List.mem_map.mp listed
      rwa [← (Prod.mk.inj pair).2]
    · exact List.mem_map_of_mem
  by_cases read : member ∈ set.zrange 0 poll.now perShardLimit
  · exact (if_pos (same.mpr read)).trans (if_pos read).symm
  · exact (if_neg fun listed => read (same.mp listed)).trans (if_neg read).symm

end Claims

end Notifkit.Scheduler
