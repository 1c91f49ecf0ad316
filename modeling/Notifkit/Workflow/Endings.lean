import Notifkit.Workflow.Runners

/-!
# Instances that have ended

Every command that sets a status names the status it starts from: a claim starts from
pending, a finish and the reaper from running, a cancel from either of them. So none of
them moves an instance that is completed, failed or canceled.

A run asks for a cancel before each step without a row. Once a cancel has committed no
run passes that check, and only the steps that had passed it before may still act, each
of them once.
-/

namespace Notifkit.Workflow

open Crowd Runs

variable {triggers : InstanceId → Trigger} {stores after : Stores} {me : Nat}

/-- The instance is done, whatever message comes for it. -/
def Status.ended : Status → Bool
  | .completed | .failed | .canceled => true
  | .pending | .running => false

/-- Instances that have ended stay as they are. -/
def EndingsStay (stores after : Stores) : Prop :=
  ∀ instanceId status, stores.instances instanceId = some status → status.ended = true →
    after.instances instanceId = some status

theorem EndingsStay.of_same (same : after.instances = stores.instances) :
    EndingsStay stores after := fun _ _ is _ => same ▸ is

/-- A move of a run ends no instance that has ended already. -/
theorem RunMove.endings {run later : Run} (move : RunMove triggers me stores run after later) :
    EndingsStay stores after := by
  cases move with
  | outer was outer same => exact .of_same same.instances
  | renew same => exact .of_same same.instances
  | insert phase missing =>
    intro instanceId status is _
    have apart : instanceId ≠ run.instanceId := by
      rintro rfl
      simp [missing] at is
    simpa [Stores.setStatus, apart] using is
  | claim phase pending =>
    intro instanceId status is ended
    have apart : instanceId ≠ run.instanceId := by
      rintro rfl
      obtain rfl := Option.some.inj (pending.symm.trans is)
      cases ended
    simpa [Stores.setStatus, apart] using is
  | finish phase =>
    intro instanceId status is ended
    have apart : ¬ (instanceId = run.instanceId ∧
        stores.instances run.instanceId = some .running) := by
      rintro ⟨rfl, running⟩
      obtain rfl := Option.some.inj (running.symm.trans is)
      cases ended
    rwa [Run.finish_instances, if_neg apart]
  | _ => exact .of_same rfl

/-- Nor does a move of anybody. -/
theorem AgentMove.endings {agent later : Role} {choice : Choice}
    (move : AgentMove triggers me stores agent choice after later) : EndingsStay stores after := by
  cases move with
  | run move => exact move.endings
  | poll move => cases move <;> exact .of_same rfl
  | task move => cases move <;> exact .of_same rfl
  | reap move =>
    cases move with
    | @update updated rest taken phase first =>
      intro instanceId status is ended
      have apart : ¬ (instanceId = updated ∧ stores.instances updated = some .running) := by
        rintro ⟨rfl, running⟩
        obtain rfl := Option.some.inj (running.symm.trans is)
        cases ended
      rwa [Reap.update_instances, if_neg apart]
    | _ => exact .of_same rfl

/-- A cancel is refused where the instance has ended. -/
theorem OutsideFrame.endings (frame : OutsideFrame stores after) : EndingsStay stores after := by
  intro instanceId status is ended
  rcases frame.instances instanceId with same | ⟨_, pending | running⟩
  · rw [same, is]
  · obtain rfl := Option.some.inj (pending.symm.trans is)
    cases ended
  · obtain rfl := Option.some.inj (running.symm.trans is)
    cases ended

/-- Only a step that has passed its check acts, and it goes on to record what it got. -/
theorem AgentMove.performed {agent later : Role} {choice : Choice}
    (move : AgentMove triggers me stores agent choice after later) :
    after.performed = stores.performed ∨ ∃ run call output, agent = .run run ∧
      run.phase = .stepping call .clear ∧
      later = .run (run.goto (.stepping call (.recording output 0))) ∧
      after.performed = ⟨me, run.instanceId, run.stepId, call.action, output⟩ ::
        stores.performed := by
  cases move with
  | run move =>
    cases move with
    | outer was outer same => exact .inl same.performed
    | renew same => exact .inl same.performed
    | perform phase kind => exact .inr ⟨_, _, _, rfl, phase, rfl, rfl⟩
    | _ => exact .inl rfl
  | poll move => cases move <;> exact .inl rfl
  | task move => cases move <;> exact .inl rfl
  | reap move =>
    cases move with
    | update =>
      unfold Reap.update
      split <;> exact .inl rfl
    | _ => exact .inl rfl

/-- A run comes past the check for a cancel only where there is none. -/
theorem RunMove.cleared {run later : Run} {call : StepCall}
    (move : RunMove triggers me stores run after later)
    (clear : later.phase = .stepping call .clear) :
    later = run ∨ later.instanceId = run.instanceId ∧
      stores.instances run.instanceId ≠ some .canceled := by
  cases move with
  | outer was outer same =>
    simp only [Run.goto] at clear
    simp [clear, RunPhase.outer] at outer
  | giveUp inner outer =>
    simp only [Run.goto] at clear
    simp [clear, RunPhase.outer] at outer
  | renew same => exact .inl rfl
  | clear phase alive => exact .inr ⟨rfl, alive⟩
  | recollect phase asks found answers => simp [phase] at clear
  | _ => cases clear

/-- An actor of a world stands past the check for a cancel, about to do a deed. -/
def Clears (world : World) (deed : Deed) : Prop :=
  ∃ process run call, world.actors[deed.actor]? = some ⟨process, .run run⟩ ∧
    run.phase = .stepping call .clear ∧ run.instanceId = deed.instanceId ∧
    run.stepId = deed.stepIndex ∧ call.action = deed.action

/-- What has been done for an instance since some moment: deeds that were cleared then, each
by another actor. -/
structure ClearedThen (world : World) (instanceId : InstanceId) (stores : Stores)
    (fresh : List Deed) : Prop where
  grown : stores.performed = fresh ++ world.shared.performed
  cleared : ∀ deed ∈ fresh, deed.instanceId = instanceId → Clears world deed
  once : ((fresh.filter fun deed => deed.instanceId = instanceId).map Deed.actor).Nodup

/-- The instance is canceled, and what was done since was cleared before. -/
def CanceledSince (world : World) (instanceId : InstanceId) (stores : Stores) : Prop :=
  stores.instances instanceId = some .canceled ∧ ∃ fresh, ClearedThen world instanceId stores fresh

/-- A run past its check stood there before the cancel and has not acted since. -/
def Agent.ClearedThen (world : World) (instanceId : InstanceId) (me : Nat) (agent : Option Agent)
    (stores : Stores) : Prop :=
  ∀ process run call, agent = some ⟨process, .run run⟩ → run.instanceId = instanceId →
    run.phase = .stepping call .clear → world.actors[me]? = some ⟨process, .run run⟩ ∧
      ∀ fresh, stores.performed = fresh ++ world.shared.performed →
        ∀ deed ∈ fresh, deed.instanceId = instanceId → deed.actor ≠ me

/-- What the others do takes no check back. -/
theorem Agent.ClearedThen.kept {world : World} {instanceId : InstanceId} {other : Nat}
    {agent : Option Agent} (cleared : Agent.ClearedThen world instanceId other agent stores)
    (grown : ∃ fresh, stores.performed = fresh ++ world.shared.performed)
    (performed : after.performed = stores.performed ∨ ∃ deed : Deed, deed.actor ≠ other ∧
      after.performed = deed :: stores.performed) :
    Agent.ClearedThen world instanceId other agent after := by
  intro process run call same place clear
  obtain ⟨there, none⟩ := cleared process run call same place clear
  refine ⟨there, fun fresh extended => ?_⟩
  obtain ⟨old, was⟩ := grown
  rcases performed with unchanged | ⟨deed, apart, added⟩
  · exact none fresh (unchanged ▸ extended)
  · have split : fresh = deed :: old := by
      rw [added, was, ← List.cons_append] at extended
      exact (List.append_cancel_right extended).symm
    subst split
    intro other' member own
    rcases List.mem_cons.mp member with rfl | member
    · exact apart
    · exact none old was other' member own

/-- One deed more, by an actor that stood past its check before the cancel. -/
theorem ClearedThen.act {world : World} {instanceId : InstanceId} {fresh : List Deed} {deed : Deed}
    (before : ClearedThen world instanceId stores fresh)
    (performed : after.performed = deed :: stores.performed)
    (clears : deed.instanceId = instanceId → Clears world deed ∧
      ∀ other ∈ fresh, other.instanceId = instanceId → other.actor ≠ deed.actor) :
    ClearedThen world instanceId after (deed :: fresh) := by
  refine ⟨by rw [performed, before.grown, List.cons_append], fun other member own => ?_, ?_⟩
  · rcases List.mem_cons.mp member with rfl | member
    · exact (clears own).1
    · exact before.cleared other member own
  · by_cases own : deed.instanceId = instanceId
    · rw [List.filter_cons_of_pos (by simp [own]), List.map_cons, List.nodup_cons]
      refine ⟨fun again => ?_, before.once⟩
      obtain ⟨other, member, same⟩ := List.mem_map.mp again
      obtain ⟨there, place⟩ := List.mem_filter.mp member
      exact (clears own).2 other there (by simpa using place) same
    · rw [List.filter_cons_of_neg (by simp [own])]
      exact before.once

/-- The canceled instance stays so, and nothing is done for it that was not cleared before. -/
theorem canceledSince_step {world before next : World} {instanceId : InstanceId} {action : Action}
    (holds : Crowd.Holds (CanceledSince world instanceId) (Agent.ClearedThen world instanceId) before)
    (taken : step triggers before action = some next) :
    Crowd.Holds (CanceledSince world instanceId) (Agent.ClearedThen world instanceId) next := by
  obtain ⟨canceled, fresh, since⟩ := holds.shared
  refine holds_step holds taken ?_ ?_ ?_
  · rintro index choice rfl agent later shared present _ place move
    have known := holds.actor index
    rw [present] at known
    have stays := move.endings instanceId .canceled canceled rfl
    obtain ⟨process, role⟩ := agent
    obtain ⟨process', role'⟩ := later
    obtain rfl : process' = process := place
    -- a run past its check has not moved on since: a new check would have failed
    have mine : ∀ run call, role' = .run run → run.instanceId = instanceId →
        run.phase = .stepping call .clear → role = .run run := by
      rintro run call rfl own clear
      cases move with
      | run move =>
        rcases move.cleared clear with same | ⟨same, alive⟩
        · rw [same]
        · exact absurd canceled (own ▸ same ▸ alive)
    rcases move.performed with same | ⟨run, call, output, rfl, phase, rfl, performed⟩
    · refine ⟨⟨stays, fresh, ?_⟩, ?_, fun other _ cleared => cleared.kept ⟨_, since.grown⟩ (.inl same)⟩
      · exact ⟨same.trans since.grown, since.cleared, since.once⟩
      · rintro _ run call ⟨⟩ own clear
        obtain ⟨there, none⟩ := known _ run call (by rw [mine run call rfl own clear]) own clear
        exact ⟨there, fun fresh extended => none fresh (same ▸ extended)⟩
    · refine ⟨⟨stays, _, since.act performed fun own => ?_⟩, ?_, fun other apart cleared =>
        cleared.kept ⟨_, since.grown⟩ (.inr ⟨_, Ne.symm apart, performed⟩)⟩
      · obtain ⟨there, none⟩ := known _ run call rfl own phase
        exact ⟨⟨_, run, call, there, phase, rfl, rfl, rfl⟩, none fresh since.grown⟩
      · rintro _ _ _ ⟨⟩ _ clear
        cases clear
  · rintro agent starts _ process run call ⟨⟩ _ clear
    cases starts
    cases clear
  · intro event shared _ changed
    have frame := outsideStep_frame changed
    exact ⟨⟨frame.endings instanceId .canceled canceled rfl, fresh,
      frame.performed.trans since.grown, since.cleared, since.once⟩, fun other cleared =>
        cleared.kept ⟨_, since.grown⟩ (.inl frame.performed)⟩

/-- A step ends no instance that has ended already. -/
theorem endings_step {world next : World} {action : Action}
    (taken : step triggers world action = some next) : EndingsStay world.shared next.shared := by
  have holds : Crowd.Holds (EndingsStay world.shared) (fun _ (_ : Option Agent) _ => True) world :=
    ⟨.of_same rfl, fun _ => trivial⟩
  refine (holds_step holds taken ?_ ?_ ?_).shared
  · exact fun _ _ _ _ _ _ _ _ _ move => ⟨move.endings, trivial, fun _ _ _ => trivial⟩
  · exact fun _ _ _ => trivial
  · exact fun _ _ _ changed => ⟨(outsideStep_frame changed).endings, fun _ _ => trivial⟩

/-- From a state on, instances that have ended stay so, and what is done for an instance that
is canceled there are steps that had passed their check by then, one for each run. -/
def EndingsFinal (world later : World) : Prop :=
  EndingsStay world.shared later.shared ∧
    ∀ instanceId, world.shared.instances instanceId = some .canceled →
      ∃ fresh, ClearedThen world instanceId later.shared fresh

/-- From any state and over any steps, endings are final. -/
theorem endings_are_final (triggers : InstanceId → Trigger) (world later : World)
    (run : Reaches (step triggers) anyStep world later) : EndingsFinal world later := by
  refine ⟨?_, fun instanceId canceled => ?_⟩
  · induction run with
    | here => exact .of_same rfl
    | next _ _ taken stayed =>
      intro instanceId status is ended
      exact endings_step taken instanceId status (stayed instanceId status is ended) ended
  · have initial : Crowd.Holds (CanceledSince world instanceId)
        (Agent.ClearedThen world instanceId) world := by
      refine ⟨⟨canceled, [], rfl, nofun, List.nodup_nil⟩, fun index process run call same _ _ =>
        ⟨same, fun fresh extended => ?_⟩⟩
      obtain rfl : fresh = [] := List.self_eq_append_left.mp extended
      exact nofun
    exact (run.invariant initial fun _ _ _ holds _ taken => canceledSince_step holds taken).shared.2

/-- A handler that notifies and then executes a function. -/
def actsTwice : Trigger where
  projectId := 0
  handler
    | [] => .step .notify
    | [_] => .step .run
    | _ => .returns

/-- The cancel lands after the check of the `notify`, and before that of the `run`. -/
def canceledMidRun : List Action :=
  [Action.outside (.send 0), .takeMessage 0 0] ++ runs 0 7 ++ [Action.outside (.cancel 0)]

/-- The notification is published, the function is not executed, and a resume finds the
instance canceled. -/
theorem endings_are_final_run : ∃ world later,
    Reaches (step fun _ => actsTwice) anyStep world later ∧
      world.shared.instances 0 = some .canceled ∧ later.shared.performed.length = 1 ∧
      EndingsFinal world later := by
  have run : Reaches (step fun _ => actsTwice) anyStep
      ((perform (step fun _ => actsTwice) start canceledMidRun).getD start) _ :=
    reaches_any ([Action.act 0 (.run (.produce .empty))] ++ runs 0 5 ++
        [Action.outside (.send 0), .takeMessage 0 0] ++ runs 1 4) rfl
  exact ⟨_, _, run, rfl, rfl, endings_are_final _ _ _ run⟩

end Notifkit.Workflow
