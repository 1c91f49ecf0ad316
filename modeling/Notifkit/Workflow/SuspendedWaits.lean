import Notifkit.Workflow.KeptWaits

/-!
# Waits that survive a crash

A `waitForEvent` adds its timeout, inserts its row, inserts its waiter and sets the instance
back to pending, one after another. A worker may die between any two of these; the reaper sets
the instance back, the message is delivered again, and the replay does what it finds no row
of. If the reaper only sets back instances whose waits were registered, what suspends is a
wait that a matching event or else its timeout resumes. The cut between the row and the waiter
is the one that loses a wait.
-/

namespace Notifkit.Workflow

open Crowd Runs

variable {triggers : InstanceId → Trigger}

instance (world : World) (action : Action) : Decidable (SparesWaits world action) :=
  decidable_of_iff (recordsTimeout world action = true ∧ deletesOwn world action = true ∧
      answersOwn world action = true ∧ reapsWhole world action = true ∧
      removesOwn world action = true)
    ⟨fun ⟨records, deletes, answers, reaps, removes⟩ => ⟨records, deletes, answers, reaps, removes⟩,
      fun ⟨records, deletes, answers, reaps, removes⟩ => ⟨records, deletes, answers, reaps, removes⟩⟩

/-- In every run under the conditions, the waits are kept. -/
theorem guarded_spared {world : World} (run : Reaches (step triggers) SparesWaits start world) :
    Guarded world :=
  run.invariant guarded_start fun _ _ _ guarded spares taken => guarded_step guarded spares taken

/-- In every run of workers, polls, event tasks and reapers, with any crashes, redeliveries and
failing commands, that meets the conditions: an instance suspended at a step without an output
has the waiter and the timeout of that step, unless a poll is just timing it out; its timeout
can resume it, and so can every event in the stream that meets the waiter in time. -/
theorem suspended_waits_resume (triggers : InstanceId → Trigger) (world : World)
    (run : Reaches (step triggers) SparesWaits start world) (instanceId : InstanceId)
    (stepIndex : StepIndex) (pending : world.shared.instances instanceId = some .pending)
    (awaits : world.shared.awaits instanceId stepIndex = true)
    (idle : ¬ Expires world (instanceId, stepIndex)) :
    ∃ waiter ∈ world.shared.waiters, waiter.key = (instanceId, stepIndex) ∧
      world.shared.timers.score waiter.timer ≠ none ∧
      CanResume triggers world (instanceId, stepIndex) timedOut ∧
      ∀ position event, Answers world.shared waiter position event →
        CanResume triggers world (instanceId, stepIndex) event.data := by
  have guarded := guarded_spared run
  rcases guarded.kept pending awaits with ⟨waiter, there, own, timer⟩ | expires
  · obtain ⟨place, step⟩ := Prod.mk.inj own
    subst place step
    refine ⟨waiter, there, rfl, timer, guarded.resumes pending awaits idle, ?_⟩
    exact fun position event answers => event_resumes pending awaits there answers
  · exact absurd expires idle

/-- A worker dies while its handler is at a `waitForEvent`, the lock expires, and the reaper
sets the instance back. -/
def cut (commands : Nat) : List Action :=
  [Action.outside (.send 0), .takeMessage 0 0] ++ runs 0 commands ++
    [Action.outside (.crash 0), .outside (.tick 60_001), .startReap 1, .act 1 (.reap (.scan [0]))] ++
    reaps 1 2

/-- A worker that dies between the timeout and the row: the replay does the rest. -/
theorem suspended_waits_resume_run : ∃ world,
    Reaches (step fun _ => awaitsOne) SparesWaits start world ∧ world.shared.dead = [0] ∧
      world.shared.reaped 0 = true ∧ world.shared.instances 0 = some .pending ∧
      CanResume (fun _ => awaitsOne) world (0, 0) timedOut := by
  have run : Reaches (step fun _ => awaitsOne) SparesWaits start _ :=
    reaches_of_perform (cut 9 ++ [Action.takeMessage 2 0] ++ runs 2 13) (by decide +kernel) rfl
  obtain ⟨_, _, _, _, resumes, _⟩ :=
    suspended_waits_resume _ _ run 0 0 rfl rfl (by decide +kernel)
  exact ⟨_, run, rfl, rfl, rfl, resumes⟩

/-- A worker that dies between the row and the waiter: the replay suspends at the row, and
nobody inserts the waiter. The poll that claims the timeout finds no waiter and takes the
timeout out. -/
theorem cut_before_waiter_strands : ∃ triggers world later,
    Reaches (step triggers) anyStep start world ∧
      world.shared.instances 0 = some .pending ∧ world.shared.awaits 0 0 = true ∧
      ¬ HasParts world.shared (0, 0) ∧
      Reaches (step triggers) (fun _ action => action.calm = true) world later ∧
      Stranded later (0, 0) ∧ later.shared.timers.score
        (.eventTimeout 0 "paid".toList (some 0)) = none := by
  have run : Reaches (step fun _ => awaitsOne) anyStep start
      (reachedBy (cut 10 ++ [Action.takeMessage 2 0] ++ runs 2 8)) :=
    reaches_any (cut 10 ++ [Action.takeMessage 2 0] ++ runs 2 8) rfl
  have more : Reaches (step fun _ => awaitsOne) (fun _ action => action.calm = true)
      (reachedBy (cut 10 ++ [Action.takeMessage 2 0] ++ runs 2 8)) _ :=
    reaches_of_perform ([Action.outside (.tick 3_600_000), .startPoll 3,
        .act 3 (.poll (.claim 3_660_000 [.eventTimeout 0 "paid".toList (some 0)]))] ++ polls 3 4)
      (by decide +kernel) rfl
  exact ⟨_, _, _, run, by decide +kernel, by decide +kernel, by decide +kernel, more,
    by decide +kernel, rfl⟩

end Notifkit.Workflow
