import Notifkit.Workflow.Outputs
import Notifkit.Workflow.SoloRuns

/-!
# Waits that keep their waiter and their timeout

Without a reaper three slips are left: the deletion by name, the answer to another step, and
a poll that ends between deleting the waiters and recording the timeout. In the runs without
them every wait of a suspended instance keeps its own waiter and its own timeout, whatever
fails or dies elsewhere. Each slip has a run that loses a wait.
-/

namespace Notifkit.Workflow

open Crowd Runs

variable {triggers : InstanceId → Trigger} {stores after : Stores} {me : Nat}

/-- Everything the waits rest on. -/
structure Guarded (world : World) : Prop where
  owned : Owned world
  registered : Registered world
  watched : Watched world

theorem guarded_start : Guarded start := ⟨owned_start, registered_start, watched_start⟩

/-- A step under the conditions keeps it. -/
theorem guarded_step {world next : World} {action : Action} (guarded : Guarded world)
    (spares : SparesWaits world action) (taken : step triggers world action = some next) :
    Guarded next where
  owned := owned_step guarded.owned spares.reapsLost taken
  registered := registered_step guarded.owned guarded.registered taken
  watched := watched_step guarded.owned guarded.registered guarded.watched spares taken

/-- A wait of a suspended instance had its waiter inserted. -/
theorem Guarded.kept {world : World} (guarded : Guarded world) {instanceId : InstanceId}
    {stepIndex : StepIndex} (pending : world.shared.instances instanceId = some .pending)
    (awaits : world.shared.awaits instanceId stepIndex = true) :
    Kept world (instanceId, stepIndex) := by
  apply guarded.watched.kept (guarded.watched.shared.listed _ _ pending awaits)
  exact Stores.waits_iff.mpr ⟨by simp [Stores.gone, pending], awaits⟩

/-- A step of workers, polls and event tasks, or outside of them, that keeps to the
conditions on polls and event tasks. -/
def SparesOthers (world : World) (action : Action) : Prop :=
  action.reaperless = true ∧ recordsTimeout world action = true ∧
    deletesOwn world action = true ∧ answersOwn world action = true

instance (world : World) (action : Action) : Decidable (SparesOthers world action) :=
  instDecidableAnd

/-- Nothing was set back. -/
def Stores.Unreaped (stores : Stores) : Prop := ∀ instanceId, stores.reaped instanceId = false

/-- Only a reaper sets instances back. -/
theorem AgentMove.reaped {agent later : Role} {choice : Choice}
    (move : AgentMove triggers me stores agent choice after later)
    (reaperless : (Action.act me choice).reaperless = true) : after.reaped = stores.reaped := by
  cases move with
  | run move =>
    cases move with
    | outer was outer same => exact same.reaped
    | renew same => exact same.reaped
    | _ => rfl
  | poll move => cases move <;> rfl
  | task move => cases move <;> rfl
  | reap => cases reaperless

theorem unreaped_step {world next : World} {action : Action} (unreaped : world.shared.Unreaped)
    (reaperless : action.reaperless = true) (taken : step triggers world action = some next) :
    next.shared.Unreaped := by
  have holds : Crowd.Holds Stores.Unreaped (fun _ _ _ => True) world := ⟨unreaped, fun _ => trivial⟩
  refine (holds_step holds taken ?_ (fun _ _ _ => trivial) ?_).shared
  · rintro index choice rfl agent later shared _ _ _ move
    have same := move.reaped reaperless
    refine ⟨?_, trivial, fun _ _ _ => trivial⟩
    rwa [Stores.Unreaped, same]
  · intro event shared _ changed
    have same := (outsideStep_frame changed).reaped
    refine ⟨?_, fun _ _ => trivial⟩
    rwa [Stores.Unreaped, same]

/-- Where nothing was set back, the conditions about it are met. -/
theorem SparesOthers.spares {world : World} {action : Action} (spares : SparesOthers world action)
    (unreaped : world.shared.Unreaped) : SparesWaits world action := by
  obtain ⟨reaperless, records, deletes, answers⟩ := spares
  refine ⟨records, deletes, answers, ?_, ?_⟩
  · unfold reapsWhole
    split
    next => cases reaperless
    next => rfl
  · unfold removesOwn
    split
    next index =>
      cases world.actors[index]? with
      | none => rfl
      | some agent =>
        rw [Option.all_some]
        split
        next =>
          split
          next member _ _ _ => simp [unreaped member.instanceId]
          next => rfl
        next => rfl
    next => rfl

/-- In every run without a reaper that keeps to the conditions, the waits are kept. -/
theorem guarded_reached {world : World}
    (run : Reaches (step triggers) SparesOthers start world) : Guarded world := by
  have both : Guarded world ∧ world.shared.Unreaped := by
    apply run.invariant (And.intro guarded_start fun _ => rfl)
    rintro before action after ⟨guarded, unreaped⟩ spares taken
    exact ⟨guarded_step guarded (spares.spares unreaped) taken,
      unreaped_step unreaped spares.1 taken⟩
  exact both.1

/-- A step has its own waiter and its own timeout. -/
def HasParts (stores : Stores) (key : InstanceId × StepIndex) : Prop :=
  ∃ waiter ∈ stores.waiters, waiter.key = key ∧ stores.timers.score waiter.timer ≠ none

instance (world : World) (key : InstanceId × StepIndex) : Decidable (Expires world key) :=
  inferInstanceAs (Decidable (∃ agent ∈ world.actors, _ ∧ _))

instance (stores : Stores) (key : InstanceId × StepIndex) : Decidable (HasParts stores key) :=
  inferInstanceAs (Decidable (∃ waiter ∈ stores.waiters, _ ∧ _))

/-- A handler that waits for two events of one name. -/
def awaitsTwice : Trigger where
  projectId := 0
  handler
    | [] | [_] => .step (.waitForEvent "paid".toList { timeout := some ⟨some 3_600_000⟩ })
    | _ => .returns

/-- A poll finds the first wait open. Before it deletes the waiters on the name, an event
answers that wait and the handler registers the second one. -/
def overtaken : List Action :=
  [Action.outside (.send 0), .takeMessage 0 0] ++ runs 0 14 ++
    [Action.outside (.emit ⟨0, "paid".toList, .null⟩), .takeEvent 1 0, .outside (.tick 3_600_000),
      .startPoll 2, .act 2 (.poll (.claim 3_600_000 [.eventTimeout 0 "paid".toList (some 0)]))] ++
    polls 2 2 ++ tasks 1 1 ++ [Action.act 1 (.task (.handle 0))] ++ tasks 1 1 ++
    [Action.act 1 (.task (.select (some 0)))] ++ tasks 1 3 ++
    [Action.outside (.flush 1 0), .outside (.publishItem 0), .outside (.flushPasses 0),
      .takeMessage 0 0] ++ runs 3 14 ++ polls 2 1 ++ [Action.act 2 (.poll (.select none))] ++ polls 2 2

/-- A suspended instance waits for an event at a step that has no waiter; nothing is under way
to resume it, and no poll is timing the step out. -/
def Stranded (world : World) (key : InstanceId × StepIndex) : Prop :=
  world.shared.instances key.1 = some .pending ∧ world.shared.awaits key.1 key.2 = true ∧
    (∀ waiter ∈ world.shared.waiters, waiter.key ≠ key) ∧ key.1 ∉ world.shared.stream ∧
    ¬ Expires world key

instance (world : World) (key : InstanceId × StepIndex) : Decidable (Stranded world key) :=
  instDecidableAnd

/-- A wait with its parts can be resumed by a poll alone. -/
theorem Guarded.resumes {world : World} (guarded : Guarded world) {key : InstanceId × StepIndex}
    (pending : world.shared.instances key.1 = some .pending)
    (awaits : world.shared.awaits key.1 key.2 = true) (idle : ¬ Expires world key) :
    CanResume triggers world key timedOut := by
  rcases guarded.kept pending awaits with ⟨waiter, there, own, timer⟩ | expires
  · obtain rfl : waiter.key = key := own
    exact times_out guarded.watched.shared pending awaits there timer
  · exact absurd expires idle

/-- In the same runs, whoever crashes: no wait is stranded, and the timeout of one that no poll
is timing out can still resume its instance. -/
theorem expired_waits_resume (triggers : InstanceId → Trigger) (world : World)
    (run : Reaches (step triggers) SparesOthers start world) (key : InstanceId × StepIndex) :
    ¬ Stranded world key ∧
      (world.shared.instances key.1 = some .pending → world.shared.awaits key.1 key.2 = true →
        ¬ Expires world key → CanResume triggers world key timedOut) := by
  have guarded := guarded_reached run
  constructor
  · rintro ⟨pending, awaits, none, _, idle⟩
    rcases guarded.kept pending awaits with ⟨waiter, there, own, _⟩ | expires
    · exact none waiter there own
    · exact idle expires
  · exact fun pending awaits idle => guarded.resumes pending awaits idle

/-- An instance waits, its timeout comes due, and a poll claims it. -/
def claimed : List Action :=
  [Action.outside (.send 0), .takeMessage 0 0] ++ runs 0 14 ++ [Action.outside (.tick 3_600_000), .startPoll 1,
    .act 1 (.poll (.claim 3_600_000 [.eventTimeout 0 "paid".toList (some 0)]))]

/-- A poll that dies before it deletes the waiter costs nothing. -/
theorem expired_waits_resume_run : ∃ world,
    Reaches (step fun _ => awaitsOne) SparesOthers start world ∧ world.shared.dead = [1] ∧
      CanResume (fun _ => awaitsOne) world (0, 0) timedOut := by
  have run : Reaches (step fun _ => awaitsOne) SparesOthers start _ :=
    reaches_of_perform (claimed ++ polls 1 2 ++ [Action.outside (.crash 1)]) (by decide +kernel) rfl
  have resumes := (expired_waits_resume _ _ run (0, 0)).2 rfl rfl (by decide +kernel)
  exact ⟨_, run, rfl, resumes⟩

/-- A poll dies when it has deleted the waiter, and the next one to claim the timeout finds no
waiter and takes the timeout out. -/
theorem crashed_poll_strands : ∃ triggers world later,
    Reaches (step triggers) (fun _ action => action.reaperless = true) start world ∧
      Stranded world (0, 0) ∧
      Reaches (step triggers) (fun _ action => action.calm = true) world later ∧
      Stranded later (0, 0) ∧ later.shared.timers.score
        (.eventTimeout 0 "paid".toList (some 0)) = none := by
  have run : Reaches (step fun _ => awaitsOne) (fun _ action => action.reaperless = true) start
      (reachedBy (claimed ++ polls 1 3 ++ [Action.outside (.crash 1)])) :=
    reaches_of_perform (claimed ++ polls 1 3 ++ [Action.outside (.crash 1)]) (by decide +kernel) rfl
  have more : Reaches (step fun _ => awaitsOne) (fun _ action => action.calm = true)
      (reachedBy (claimed ++ polls 1 3 ++ [Action.outside (.crash 1)])) _ :=
    reaches_of_perform ([Action.outside (.tick 60_000), .startPoll 2,
        .act 2 (.poll (.claim 3_660_000 [.eventTimeout 0 "paid".toList (some 0)]))] ++ polls 2 4)
      (by decide +kernel) rfl
  exact ⟨_, _, _, run, by decide +kernel, more, by decide +kernel, rfl⟩

end Notifkit.Workflow
