import Mathlib.Algebra.Order.BigOperators.Group.List
import Mathlib.Algebra.Order.Ring.Nat
import Mathlib.Algebra.Group.Action.Defs
import Notifkit.Pipeline.Uncopied

/-!
# Every run can be brought to its end

A task is tried a bounded number of times and waits for capacity a bounded number of times, and each
event left behind has a shorter chain. What there is still to do is counted by what it may at most
come to; every step lessens the count, and there is a step as long as anything is left.
-/

namespace Notifkit.Pipeline.TaskRuns

open Runs Tables ParkingTimes Delivery.Log

section Weights

variable (toLowerCase : Text → Text) (zoneOf : Text → Zone) (snapshot : Snapshot)
  (surroundings : Surroundings)

/-- The tries and the deferrals a task has left. -/
def Task.triesLeft (task : Task) : Nat :=
  (maxAttempts - task.deliveryAttemptCount) +
    (MAX_THROTTLE_DEFERRALS + 1 - task.throttleAttemptCount)

/-- The steps a task may at most take. -/
def Task.stepsLeft (task : Task) : Nat :=
  match task.phase with
  | .aiPending _ => 3 * task.triesLeft + 3
  | .parked _ => 3 * task.triesLeft + 2
  | .outbound => 3 * task.triesLeft + 1
  | .delivered | .failed | .fellBack | .generationFailed | .skipped => 0

/-- The steps a new task may at most take. -/
def freshSteps : Nat := 3 * (maxAttempts + (MAX_THROTTLE_DEFERRALS + 1)) + 3

/-- What an event may come to, up to so many channels behind its own. -/
def weightWithin : Nat → Event → Nat
  | 0, event => 1 + (tasksOf toLowerCase zoneOf snapshot surroundings event).length * freshSteps
  | channels + 1, event => 1 + (tasksOf toLowerCase zoneOf snapshot surroundings event).length *
      (freshSteps + (event.fallback.map (weightWithin channels)).getD 0)

/-- What an event may come to. -/
def Event.weight (event : Event) : Nat :=
  weightWithin toLowerCase zoneOf snapshot surroundings event.enriched.fallbackChain.length event

/-- What the fallback of an event may come to. -/
def Event.behind (event : Event) : Nat :=
  (event.fallback.map (Event.weight toLowerCase zoneOf snapshot surroundings)).getD 0

/-- What a task may come to. -/
def Task.weight (task : Task) : Nat :=
  if task.isOver then 0
  else task.stepsLeft + task.event.behind toLowerCase zoneOf snapshot surroundings

/-- What is still to do. -/
def State.weight (state : State) : Nat :=
  (state.called.map (Event.weight toLowerCase zoneOf snapshot surroundings)).sum +
    (state.streamed.map (Event.weight toLowerCase zoneOf snapshot surroundings)).sum +
    (state.tasks.map (Task.weight toLowerCase zoneOf snapshot surroundings)).sum

end Weights

section Counting

variable {toLowerCase : Text → Text} {zoneOf : Text → Zone} {snapshot : Snapshot}
  {surroundings : Surroundings} {event : Event} {task next : Task}

/-- An event comes to itself, and to its tasks with what they leave. -/
theorem Event.weight_eq (event : Event) :
    event.weight toLowerCase zoneOf snapshot surroundings =
      1 + (tasksOf toLowerCase zoneOf snapshot surroundings event).length *
        (freshSteps + event.behind toLowerCase zoneOf snapshot surroundings) := by
  rw [Event.weight, Event.behind]
  cases chain : event.enriched.fallbackChain with
  | nil =>
    have none : event.fallback = none := by simp [Event.fallback, chain]
    simp [weightWithin, none]
  | cons nextChannel remaining =>
    rw [List.length_cons, weightWithin]
    cases fallback : event.fallback with
    | none => simp
    | some left =>
      have rest := (fallback_eq_some fallback).2.2.1
      rw [chain] at rest
      simp only [Option.map_some, Option.getD_some, Event.weight, (List.cons.inj rest).2]

/-- A new task comes to no more than its steps and what it leaves. -/
theorem Task.weight_fresh (begun : task ∈ tasksOf toLowerCase zoneOf snapshot surroundings event) :
    task.weight toLowerCase zoneOf snapshot surroundings ≤
      freshSteps + event.behind toLowerCase zoneOf snapshot surroundings := by
  have own : task.event = event := event_of_mem_tasksOf begun
  have steps : task.stepsLeft ≤ freshSteps := by
    obtain ⟨_, _, _, contact, _, rfl⟩ := mem_tasksOf.mp begun
    unfold taskFor
    dsimp only
    split
    · exact Nat.le_refl _
    · unfold Task.scheduleOrDispatch
      dsimp only
      split
      · exact Nat.le_succ _
      · exact Nat.le_add_right _ 2
  rw [Task.weight, own]
  split
  · exact Nat.zero_le _
  · omega

/-- The tasks of an event come to less than the event. -/
theorem sum_tasksOf_lt (event : Event) :
    ((tasksOf toLowerCase zoneOf snapshot surroundings event).map
      (Task.weight toLowerCase zoneOf snapshot surroundings)).sum <
        event.weight toLowerCase zoneOf snapshot surroundings := by
  have bounded := List.sum_le_card_nsmul
    ((tasksOf toLowerCase zoneOf snapshot surroundings event).map
      (Task.weight toLowerCase zoneOf snapshot surroundings))
    (freshSteps + event.behind toLowerCase zoneOf snapshot surroundings)
    (by
      intro weight member
      obtain ⟨task, begun, rfl⟩ := List.mem_map.mp member
      exact Task.weight_fresh begun)
  rw [Event.weight_eq]
  simp only [List.length_map, smul_eq_mul] at bounded
  omega

/-- What a task leaves is what was behind it. -/
theorem Task.weight_giveUp :
    (task.giveUp).weight toLowerCase zoneOf snapshot surroundings +
      (task.giveUp.leaves.toList.map (Event.weight toLowerCase zoneOf snapshot surroundings)).sum ≤
        task.event.behind toLowerCase zoneOf snapshot surroundings := by
  have ended : task.giveUp.isOver = true := by
    by_cases last : task.event.enriched.fallbackChain = []
    · simp [Task.giveUp, Task.isOver, last]
    · simp [Task.giveUp, Task.isOver, last]
  rw [Task.weight, if_pos ended, Nat.zero_add]
  cases left : task.giveUp.leaves with
  | none => exact Nat.zero_le _
  | some fallback =>
    have own : task.event.fallback = some fallback := (leaves_eq_some.mp left).2
    simp [Event.behind, own]

/-- A task that is parked or sent on comes to its steps and what is behind it. -/
theorem Task.weight_going (going : task.isOver = false) :
    task.weight toLowerCase zoneOf snapshot surroundings +
      (task.leaves.toList.map (Event.weight toLowerCase zoneOf snapshot surroundings)).sum =
        task.stepsLeft + task.event.behind toLowerCase zoneOf snapshot surroundings := by
  have none : task.leaves = none := by
    rw [Task.leaves, if_neg]
    intro fellBack
    simp [Task.isOver, fellBack] at going
  rw [Task.weight, if_neg (by simp [going]), none]
  rfl

/-- A task waits for a time or is sent on, with a try or a deferral less than it had. -/
theorem Task.weight_reschedule (sendAt : Int) :
    (task.reschedule sendAt).weight toLowerCase zoneOf snapshot surroundings +
      ((task.reschedule sendAt).leaves.toList.map
        (Event.weight toLowerCase zoneOf snapshot surroundings)).sum =
      3 * task.triesLeft + 2 + task.event.behind toLowerCase zoneOf snapshot surroundings :=
  Task.weight_going rfl

/-- A call of delivery comes to less than the task. -/
theorem Task.weight_deliver (now : Int) (answer : Answer) :
    (task.deliver now answer).weight toLowerCase zoneOf snapshot surroundings +
      ((task.deliver now answer).leaves.toList.map
        (Event.weight toLowerCase zoneOf snapshot surroundings)).sum <
      3 * task.triesLeft + 1 + task.event.behind toLowerCase zoneOf snapshot surroundings := by
  cases answer with
  | noTransport => exact Nat.lt_of_le_of_lt Task.weight_giveUp (Nat.lt_add_of_pos_left (Nat.succ_pos _))
  | noCapacity delayMs =>
    simp only [Task.deliver, Task.deferForCapacity]
    split
    next within =>
      rw [Task.weight_reschedule]
      simp only [Task.triesLeft]
      omega
    next => exact Nat.lt_of_le_of_lt Task.weight_giveUp (Nat.lt_add_of_pos_left (Nat.succ_pos _))
  | accepted => simp [Task.deliver, Task.weight, Task.isOver, Task.leaves]
  | refused => exact Nat.lt_of_le_of_lt Task.weight_giveUp (Nat.lt_add_of_pos_left (Nat.succ_pos _))
  | failed =>
    simp only [Task.deliver, Task.retryLater]
    split
    next within =>
      rw [Task.weight_reschedule]
      simp only [Task.triesLeft]
      omega
    next => exact Nat.lt_of_le_of_lt Task.weight_giveUp (Nat.lt_add_of_pos_left (Nat.succ_pos _))

/-- Each step of a task lessens what it comes to, with the event it leaves. -/
theorem Task.weight_advance {nth : Nat} (moved : task.advance surroundings nth = some next) :
    next.weight toLowerCase zoneOf snapshot surroundings +
      (next.leaves.toList.map (Event.weight toLowerCase zoneOf snapshot surroundings)).sum <
        task.weight toLowerCase zoneOf snapshot surroundings := by
  have going : task.isOver = false := by
    refine Bool.eq_false_iff.mpr fun isOver => ?_
    rw [Task.advance_eq_none.mpr isOver] at moved
    cases moved
  have before : task.weight toLowerCase zoneOf snapshot surroundings = task.stepsLeft +
      task.event.behind toLowerCase zoneOf snapshot surroundings := by
    rw [Task.weight, if_neg (by simp [going])]
  rw [before]
  unfold Task.advance at moved
  split at moved
  next scheduledAt phase =>
    have steps : task.stepsLeft = 3 * task.triesLeft + 3 := by rw [Task.stepsLeft, phase]
    split at moved
    · obtain rfl := Option.some.inj moved
      unfold Task.scheduleOrDispatch
      dsimp only
      split
      · rw [Task.weight_going rfl, steps]
        simp only [Task.stepsLeft, Task.triesLeft]
        omega
      · rw [Task.weight_going rfl, steps]
        simp only [Task.stepsLeft, Task.triesLeft]
        omega
    · obtain rfl := Option.some.inj moved
      simp [Task.weight, Task.isOver, Task.leaves, steps]
  next sendAt phase =>
    have steps : task.stepsLeft = 3 * task.triesLeft + 2 := by rw [Task.stepsLeft, phase]
    obtain rfl := Option.some.inj moved
    rw [Task.weight_going rfl, steps]
    simp only [Task.stepsLeft, Task.triesLeft]
    omega
  next phase =>
    have steps : task.stepsLeft = 3 * task.triesLeft + 1 := by rw [Task.stepsLeft, phase]
    obtain rfl := Option.some.inj moved
    rw [steps]
    exact Task.weight_deliver _ _
  all_goals cases moved

end Counting

section Ends

variable {toLowerCase : Text → Text} {zoneOf : Text → Zone} {snapshot : Snapshot}
  {surroundings : Surroundings}

/-- An event that is there can be taken up, with less to do afterwards. -/
theorem progress_event {state : State} (waits : state.called ≠ [] ∨ state.streamed ≠ []) :
    ∃ action next, step toLowerCase zoneOf snapshot surroundings state action = some next ∧
      next.weight toLowerCase zoneOf snapshot surroundings <
        state.weight toLowerCase zoneOf snapshot surroundings := by
  by_cases called : state.called = []
  · obtain ⟨event, rest, present⟩ := List.exists_cons_of_ne_nil (waits.resolve_left (· called))
    have fewer : ((tasksOf toLowerCase zoneOf snapshot surroundings event).map
        (Task.weight toLowerCase zoneOf snapshot surroundings)).sum <
          event.weight toLowerCase zoneOf snapshot surroundings := sum_tasksOf_lt event
    by_cases marked : event.id ∈ state.marks
    · refine ⟨.take 0, { state with streamed := rest }, ?_, ?_⟩
      · simp [step, present, marked]
      · simp only [State.weight, present, List.map_cons, List.sum_cons]
        omega
    · refine ⟨.take 0, { state with
        streamed := rest
        marks := event.id :: state.marks
        tasks := state.tasks ++ tasksOf toLowerCase zoneOf snapshot surroundings event }, ?_, ?_⟩
      · simp [step, present, marked]
      · simp only [State.weight, present, List.map_cons, List.sum_cons, List.map_append,
          List.sum_append]
        omega
  · obtain ⟨event, rest, present⟩ := List.exists_cons_of_ne_nil called
    have fewer : ((tasksOf toLowerCase zoneOf snapshot surroundings event).map
        (Task.weight toLowerCase zoneOf snapshot surroundings)).sum <
          event.weight toLowerCase zoneOf snapshot surroundings := sum_tasksOf_lt event
    refine ⟨.call 0, { state with
      called := rest
      tasks := state.tasks ++ tasksOf toLowerCase zoneOf snapshot surroundings event }, ?_, ?_⟩
    · simp [step, present]
    · simp only [State.weight, present, List.map_cons, List.sum_cons, List.map_append,
        List.sum_append]
      omega

/-- A task that is not over can go on or is passed over, with less to do afterwards. -/
theorem progress_task {state : State} {task : Task} (member : task ∈ state.tasks)
    (going : task.isOver = false) :
    ∃ action next, step toLowerCase zoneOf snapshot surroundings state action = some next ∧
      next.weight toLowerCase zoneOf snapshot surroundings <
        state.weight toLowerCase zoneOf snapshot surroundings := by
  obtain ⟨position, found⟩ := List.mem_iff_getElem?.mp member
  by_cases stands : state.standsFor task = true
  · have copied : state.copied position task = true := by
      simp only [State.standsFor, Bool.decide_and, Bool.and_eq_true, decide_eq_true_eq,
        Bool.decide_eq_true, List.any_eq_true] at stands
      obtain ⟨waits, other, present, same, completed⟩ := stands
      simp only [State.copied, Bool.decide_and, Bool.and_eq_true, decide_eq_true_eq,
        List.any_eq_true]
      obtain ⟨place, placed⟩ := List.mem_iff_getElem?.mp present
      refine ⟨waits, other, List.mem_eraseIdx_iff_getElem?.mpr ⟨place, fun here => ?_, placed⟩, same,
        by simp [completed]⟩
      rw [here, found] at placed
      rw [← Option.some.inj placed] at completed
      simp [Task.completed, waits] at completed
    refine ⟨.skip position, { state with
      tasks := state.tasks.set position { task with phase := .skipped } }, ?_, ?_⟩
    · simp [step, found, copied]
    · have changed : ((state.tasks.set position { task with phase := .skipped }).map
          (Task.weight toLowerCase zoneOf snapshot surroundings)).sum +
            task.weight toLowerCase zoneOf snapshot surroundings =
          (state.tasks.map (Task.weight toLowerCase zoneOf snapshot surroundings)).sum + 0 :=
        sum_set found
      have some : 0 < task.weight toLowerCase zoneOf snapshot surroundings := by
        simp only [State.copied, Bool.decide_and, Bool.and_eq_true, decide_eq_true_eq] at copied
        have steps : task.stepsLeft = 3 * task.triesLeft + 1 := by rw [Task.stepsLeft, copied.1]
        rw [Task.weight, if_neg (by simp [going]), steps]
        omega
      simp only [State.weight]
      omega
  · obtain ⟨next, moved⟩ : ∃ next,
        task.advance surroundings (state.tripsOf task.id) = some next := by
      refine Option.ne_none_iff_exists'.mp fun none => ?_
      rw [Task.advance_eq_none.mp none] at going
      cases going
    have fewer : next.weight toLowerCase zoneOf snapshot surroundings +
        (next.leaves.toList.map (Event.weight toLowerCase zoneOf snapshot surroundings)).sum <
          task.weight toLowerCase zoneOf snapshot surroundings := Task.weight_advance moved
    have changed : ((state.tasks.set position next).map
        (Task.weight toLowerCase zoneOf snapshot surroundings)).sum +
          task.weight toLowerCase zoneOf snapshot surroundings =
        (state.tasks.map (Task.weight toLowerCase zoneOf snapshot surroundings)).sum +
          next.weight toLowerCase zoneOf snapshot surroundings := sum_set found
    refine ⟨.advance position, { state with
      streamed := state.streamed ++ next.leaves.toList
      tasks := state.tasks.set position next
      trace := if task.sends < next.sends then state.trace ++ [next] else state.trace }, ?_, ?_⟩
    · simp [step, found, stands, moved]
    · simp only [State.weight, List.map_append, List.sum_append]
      omega

/-- Every run can be brought to its end. -/
theorem run_ends (state : State) :
    ∃ later, Reaches (step toLowerCase zoneOf snapshot surroundings) anyStep state later ∧
      later.Ended := by
  refine reaches_final (State.weight toLowerCase zoneOf snapshot surroundings)
    (fun state running => ?_) state
  by_cases waits : state.called ≠ [] ∨ state.streamed ≠ []
  · exact progress_event waits
  · obtain ⟨called, streamed⟩ := not_or.mp waits
    have going : ∃ task ∈ state.tasks, task.isOver = false := by
      refine Classical.byContradiction fun all => running ⟨not_not.mp called, not_not.mp streamed,
        fun task member => ?_⟩
      exact Bool.eq_true_of_not_eq_false fun going => all ⟨task, member, going⟩
    obtain ⟨task, member, going⟩ := going
    exact progress_task member going

end Ends

end Notifkit.Pipeline.TaskRuns
