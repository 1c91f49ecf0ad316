import Notifkit.Workflow.Executions
import Notifkit.Workflow.WaitMoves

/-!
# Every step once

A run performs a step only where the log has no row of it, and there nobody has performed it
before: whoever did has recorded it, or has taken the instance with him. So a notification is
published once and a function executed once, and the log gives every replay what an
uninterrupted execution would have got.
-/

namespace Notifkit.Workflow

open Crowd Runs

variable {triggers : InstanceId → Trigger} {stores after : Stores} {me : Nat}

theorem TracesKept.of_same {mover : Option Nat} (keeps : Keeps mover stores after)
    (performed : after.performed = stores.performed) : TracesKept mover stores after :=
  ⟨keeps, fun _ member => performed ▸ member, fun _ member => .inl (performed ▸ member)⟩

/-- What a move of a run does to the deeds and the rows, and what it knows after it. -/
theorem RunMove.traces {run later : Run} (move : RunMove triggers me stores run after later)
    (owned : stores.Owned) (owns : run.Owns me stores) (knows : run.Knows triggers stores)
    (keeps : Keeps (some me) stores after) (traced : stores.Traced)
    (traces : run.Traces triggers stores) :
    after.Traced ∧ later.Traces triggers after ∧ TracesKept (some me) stores after := by
  have unchanged : stores.Traced := traced
  -- a run at work, not about to record a result, has a row for every deed
  have deeds : run.phase.working = true → run.done = none → ∀ deed ∈ stores.performed,
      deed.instanceId = run.instanceId →
        deed.stepIndex < (stores.steps run.instanceId).length := by
    intro working undone deed member own
    rcases traces.deeds working deed member own with inside | ⟨done, _⟩
    · exact inside
    · exact absurd undone done
  cases move with
  | @outer after phase was outer same =>
    refine ⟨traced.of_same same.performed same.steps same.answered ?_ ?_, ?_,
      .of_same keeps same.performed⟩
    · exact fun _ pending => .inl (same.instances ▸ pending)
    · exact fun _ there => same.instances ▸ there
    · apply Run.Traces.of_idle
      · cases phase <;> simp_all [Run.goto, RunPhase.outer, RunPhase.working]
      · cases phase <;> simp_all [Run.goto, RunPhase.outer]
  | @giveUp phase inner outer =>
    refine ⟨traced.of_same rfl rfl rfl (fun _ pending => .inl pending) (fun _ there => there), ?_,
      .of_same keeps rfl⟩
    apply Run.Traces.of_idle
    · cases phase <;> simp_all [Run.goto, RunPhase.outer, RunPhase.working]
    · cases phase <;> simp_all [Run.goto, RunPhase.outer]
  | renew same =>
    refine ⟨traced.of_same same.performed same.steps same.answered ?_ ?_, ?_,
      .of_same keeps same.performed⟩
    · exact fun _ pending => .inl (same.instances ▸ pending)
    · exact fun _ there => same.instances ▸ there
    · constructor
      · rw [same.performed, same.steps]
        exact traces.deeds
      · rw [same.performed]
        exact traces.done
      · exact traces.empty
      · rw [same.steps, same.clock]
        exact traces.returned
  | insert phase missing =>
    refine ⟨traced.of_same rfl rfl rfl ?_ (Stores.setStatus_present _ _ _),
      .of_idle rfl (fun other => by cases other), .of_same keeps rfl⟩
    intro instanceId pending
    by_cases own : instanceId = run.instanceId
    · right
      rintro deed member rfl
      exact absurd (own ▸ missing) (traced.known deed member)
    · simp only [Stores.setStatus, Function.update_of_ne own] at pending
      exact .inl pending
  | claim phase pending =>
    refine ⟨traced.of_same rfl rfl rfl ?_ (Stores.setStatus_present _ _ _), ?_, .of_same keeps rfl⟩
    · intro instanceId is
      by_cases own : instanceId = run.instanceId
      · simp [Stores.setStatus, own] at is
      · simp only [Stores.setStatus, Function.update_of_ne own] at is
        exact .inl is
    · refine .of_plain_deeds rfl rfl (fun other => by cases other) fun deed member own => ?_
      have recorded := traced.recorded deed member (by rw [own]; exact pending)
      rwa [own] at recorded
  | load phase =>
    refine ⟨unchanged, .of_plain_deeds rfl rfl (fun other => by cases other) ?_, .of_same keeps rfl⟩
    exact deeds (by simp [phase, RunPhase.working]) (by simp [Run.done, phase])
  | returns phase asks =>
    refine ⟨unchanged, ⟨?_, ?_, ?_, fun _ => ?_⟩, .of_same keeps rfl⟩
    · intro working
      cases working
    · intro result is
      cases is
    · intro output is
      cases is
    have replays := knows.calls phase
    have bound : run.results.length ≤ (stores.steps run.instanceId).length := by
      rw [replays.rows]
      exact Nat.le_max_right _ _
    exact ⟨bound, replays.results, asks⟩
  | throws inner =>
    exact ⟨unchanged, .of_idle rfl (fun other => by cases other), .of_same keeps rfl⟩
  | suspend phase =>
    refine ⟨unchanged, .of_plain_deeds rfl rfl (fun other => by cases other) ?_, .of_same keeps rfl⟩
    exact deeds (by simp [phase, RunPhase.working]) (by simp [Run.done, phase])
  | recollect phase =>
    refine ⟨unchanged, .of_deeds ?_ ?_ (by simp [phase]) ?_, .of_same keeps rfl⟩
    · simp [Run.done, phase]
    · simp [Run.pends, phase]
    · exact deeds (by simp [phase, RunPhase.working]) (by simp [Run.done, phase])
  | «meet» phase =>
    refine ⟨unchanged, .of_deeds ?_ ?_ (fun other => by cases other) ?_, .of_same keeps rfl⟩
    · simp [Run.done, Run.goto]
    · simp [Run.pends, Run.goto]
    · exact deeds (by simp [phase, RunPhase.working]) (by simp [Run.done, phase])
  | clear phase =>
    refine ⟨unchanged, .of_deeds ?_ ?_ (fun other => by cases other) ?_, .of_same keeps rfl⟩
    · simp [Run.done, Run.goto]
    · simp [Run.pends, Run.goto]
    · exact deeds (by simp [phase, RunPhase.working]) (by simp [Run.done, phase])
  | schedule phase =>
    refine ⟨unchanged, .of_deeds ?_ ?_ (fun other => by cases other) ?_, .of_same keeps rfl⟩
    · simp [Run.done, Run.goto]
    · simp [Run.pends, Run.goto]
    · exact deeds (by simp [phase, RunPhase.working]) (by simp [Run.done, phase])
  | @perform call output phase kind =>
    obtain ⟨replays, bound, _⟩ := knows.steps _ _ phase
    obtain ⟨length, _⟩ := replays.all bound
    have before := deeds (by simp [phase, RunPhase.working]) (by simp [Run.done, phase])
    obtain ⟨_, present, active⟩ :=
      Run.Owns.active owns owned (by simp [phase, RunPhase.outer])
    refine ⟨?_, ?_, keeps, fun _ => List.mem_cons_of_mem _, ?_⟩
    · constructor
      · refine List.nodup_cons.mpr ⟨fun twice => ?_, traced.distinct⟩
        obtain ⟨deed, member, same⟩ := List.mem_map.mp twice
        obtain ⟨place, step⟩ := Prod.mk.inj same
        have inside := before deed member place
        rw [length, step] at inside
        exact absurd inside (Nat.lt_irrefl _)
      · intro instanceId row there kind
        obtain ⟨deed, member, key⟩ := traced.done instanceId row there kind
        exact ⟨deed, List.mem_cons_of_mem _ member, key⟩
      · intro deed member pending
        rcases List.mem_cons.mp member with rfl | old
        · exact absurd pending active
        · exact traced.recorded deed old pending
      · intro deed member
        rcases List.mem_cons.mp member with rfl | old
        · exact present
        · exact traced.known deed old
      · exact traced.answered
      · exact traced.filled
    · constructor
      · intro _ deed member own
        rcases List.mem_cons.mp member with rfl | old
        · refine .inr ⟨?_, rfl⟩
          rcases kind with rfl | rfl <;> simp [Run.done, Run.perform, Run.goto]
        · exact .inl (before deed old own)
      · intro result is
        refine ⟨_, List.mem_cons_self, rfl, ?_⟩
        rcases kind with rfl | rfl
        · obtain rfl := Option.some.inj is
          exact ⟨rfl, rfl⟩
        · obtain rfl := Option.some.inj is
          exact ⟨rfl, rfl⟩
      · rcases kind with rfl | rfl <;> rintro output ⟨⟩
      · exact fun other => by cases other
    · intro deed member
      rcases List.mem_cons.mp member with rfl | old
      · exact .inr ⟨me, rfl, owns (by simp [phase, RunPhase.outer])⟩
      · exact .inl old
  | armWait phase =>
    refine ⟨traced.of_same rfl rfl rfl (fun _ pending => .inl pending) (fun _ there => there),
      .of_plain_deeds rfl rfl (fun other => by cases other) ?_, .of_same keeps rfl⟩
    exact deeds (by simp [phase, RunPhase.working]) (by simp [Run.done, phase])
  | armTimeout phase =>
    refine ⟨traced.of_same rfl rfl rfl (fun _ pending => .inl pending) (fun _ there => there),
      .of_deeds rfl ?_ (fun other => by cases other) ?_, .of_same keeps rfl⟩
    · exact fun _ is => (Option.some.inj is).symm
    exact deeds (by simp [phase, RunPhase.working]) (by simp [Run.done, phase])
  | @recordResult call output resumeAt phase kind fresh =>
    obtain ⟨replays, bound, _⟩ := knows.steps _ _ phase
    obtain ⟨length, _⟩ := replays.all bound
    have done : run.done = some (call.action, output) := by
      rcases kind with rfl | rfl <;> simp [Run.done, phase, StepCall.action]
    refine ⟨traced.insert (fun _ => ?_) ?_, .of_plain_deeds rfl rfl (fun other => by cases other) ?_,
      .of_same keeps rfl⟩
    · exact traces.done _ done
    · rcases kind with rfl | rfl <;> exact fun other => by cases other
    · intro deed member own
      have rows : ((stores.insertStep run.instanceId ⟨run.stepId, call.action, output⟩).steps
          run.instanceId).length = run.stepId + 1 := by
        simp [Stores.steps_insertStep, length]
      refine Nat.lt_of_lt_of_eq ?_ rows.symm
      rcases traces.deeds (by simp [phase, RunPhase.working]) deed member own with inside | ⟨_, same⟩
      · exact Nat.lt_succ_of_lt (length ▸ inside)
      · exact same ▸ Nat.lt_succ_self _
  | recordWait phase fresh =>
    refine ⟨traced.insert ?_ (fun other => by cases other),
      .of_plain_deeds rfl rfl (fun other => by cases other) ?_, .of_same keeps rfl⟩
    · rintro (kind | kind) <;> cases kind
    · intro deed member own
      refine Nat.lt_of_lt_of_le ?_ (keeps.grown.length _)
      exact deeds (by simp [phase, RunPhase.working]) (by simp [Run.done, phase]) deed member own
  | recordPending phase fresh =>
    refine ⟨traced.insert ?_ (fun _ => ?_), .of_plain_deeds rfl rfl (fun other => by cases other) ?_,
      .of_same keeps rfl⟩
    · rintro (kind | kind) <;> cases kind
    · exact traces.empty _ (by simp [Run.pends, phase])
    · intro deed member own
      refine Nat.lt_of_lt_of_le ?_ (keeps.grown.length _)
      exact deeds (by simp [phase, RunPhase.working]) (by simp [Run.done, phase]) deed member own
  | register phase =>
    refine ⟨traced.of_same rfl rfl rfl (fun _ pending => .inl pending) (fun _ there => there),
      .of_plain_deeds rfl rfl (fun other => by cases other) ?_, .of_same keeps rfl⟩
    exact deeds (by simp [phase, RunPhase.working]) (by simp [Run.done, phase])
  | @finish status phase =>
    refine ⟨traced.of_same rfl rfl rfl ?_ (Run.finish_present _ _ _),
      .of_idle rfl (fun other => by cases other), .of_same keeps rfl⟩
    intro instanceId pending
    rw [Run.finish_instances] at pending
    split at pending
    next own =>
      obtain ⟨rfl, _⟩ := own
      obtain rfl := Option.some.inj pending
      exact .inr (deeds (by simp [phase, RunPhase.working]) (by simp [Run.done, phase]))
    next => exact .inl pending

/-- A poll that writes outputs only once leaves what the rows tell. -/
theorem PollMove.traces {poll later : Poll} {choice : PollChoice}
    (move : PollMove me stores poll choice after later) (beside : Beside stores after)
    (there : ∀ instanceId (stepIndex : StepIndex) output,
      (Role.poll poll).writes = some (instanceId, stepIndex, output) →
        ∃ row, (stores.steps instanceId)[stepIndex]? = some row ∧ row.stepIndex = stepIndex)
    (traced : stores.Traced) : after.Traced := by
  cases move with
  | @record instanceId eventName stepId stepIndex rest phase first =>
    obtain ⟨row, present, place⟩ := there instanceId stepIndex timedOut
      (by simp only [Role.writes, Poll.writes, phase, first])
    have rows : Beside stores (stores.answerStep instanceId stepIndex timedOut) :=
      ⟨beside.clock, beside.rows⟩
    exact @Stores.Traced.answer _ _ traced _ _ _ _ [] rows present place (.inl rfl)
      (fun _ other => by cases other) rfl rfl rfl rfl
  | _ => exact traced.of_same rfl rfl rfl (fun _ pending => .inl pending) fun _ there => there

/-- An event task that writes outputs only once leaves what the rows tell, and its answer is one
that does not read as a timeout. -/
theorem TaskMove.traces {task later : EventTask} {choice : TaskChoice}
    (move : TaskMove me stores task choice after later) (beside : Beside stores after)
    (there : ∀ instanceId (stepIndex : StepIndex) output,
      (Role.task task).writes = some (instanceId, stepIndex, output) →
        ∃ row, (stores.steps instanceId)[stepIndex]? = some row ∧ row.stepIndex = stepIndex)
    (plain : task.Plain)
    (selects : ∀ stepIndex, choice = .select (some stepIndex) → task.event.plain = true)
    (traced : stores.Traced) : after.Traced ∧ later.Plain := by
  have still : ∀ {after : Stores}, after.performed = stores.performed →
      after.steps = stores.steps → after.answered = stores.answered →
        after.instances = stores.instances → after.Traced := by
    intro after performed steps answered instances
    exact traced.of_same performed steps answered (fun _ pending => .inl (instances ▸ pending))
      fun _ there => instances ▸ there
  cases move with
  | found taken phase awaits =>
    exact ⟨traced, fun _ _ _ _ => selects _ taken⟩
  | @answer waiter rest stepIndex phase =>
    obtain ⟨row, present, place⟩ := there waiter.instanceId stepIndex task.event.data
      (by simp only [Role.writes, EventTask.writes, phase])
    have rows : Beside stores (stores.answerStep waiter.instanceId stepIndex task.event.data) :=
      ⟨beside.clock, beside.rows⟩
    refine ⟨@Stores.Traced.answer _ _ traced _ _ _ _ [⟨waiter.instanceId, stepIndex, task.event,
      waiter⟩] rows present place (.inr (fun other => by cases other)) ?_ rfl rfl rfl rfl,
      fun _ _ _ other => by cases other⟩
    intro answer member
    obtain rfl := List.mem_singleton.mp member
    exact ⟨rfl, rfl, rfl, plain _ _ _ phase⟩
  | select => exact ⟨traced, fun _ _ _ other => by cases other⟩
  | handle => exact ⟨traced, fun _ _ _ other => by cases other⟩
  | pass => exact ⟨traced, fun _ _ _ other => by cases other⟩
  | await => exact ⟨traced, fun _ _ _ other => by cases other⟩
  | missing => exact ⟨traced, fun _ _ _ other => by cases other⟩
  | readSteps => exact ⟨traced, fun _ _ _ other => by cases other⟩
  | drop => exact ⟨still rfl rfl rfl rfl, fun _ _ _ other => by cases other⟩
  | nothingAwaits => exact ⟨traced, fun _ _ _ other => by cases other⟩
  | push => exact ⟨still rfl rfl rfl rfl, fun _ _ _ other => by cases other⟩
  | delete => exact ⟨still rfl rfl rfl rfl, fun _ _ _ other => by cases other⟩
  | acknowledge => exact ⟨still rfl rfl rfl rfl, fun _ _ _ other => by cases other⟩
  | throw => exact ⟨traced, fun _ _ _ other => by cases other⟩

/-- Polls and event tasks do nothing that is to be done once. -/
theorem AgentMove.traces {world : World} {index : Nat} {agent later : Agent} {choice : Choice}
    {shared : Stores} (answering : Answering triggers world)
    (spares : AnswersPlainly world (.act index choice))
    (present : world.actors[index]? = some agent) (alive : agent.process ∉ world.shared.dead)
    (move : AgentMove triggers index world.shared agent.role choice shared later.role)
    (traced : world.shared.Traced) (traces : Agent.Traces triggers index (some agent) world.shared) :
    shared.Traced ∧ Agent.Traces triggers index (some later) shared ∧
      TracesKept (some index) world.shared shared := by
  have member : agent ∈ world.actors := List.mem_of_getElem? present
  have owns := answering.owned.actor index
  have knows := answering.sequential.actor index
  have once := answering.writers.once answering.sequential.shared member alive
  have fills := answering.writers.fills agent member alive
  rw [present] at owns knows
  have keeps := (move.sequential alive owns answering.sequential.shared knows once).2.2
  have there : ∀ instanceId (stepIndex : StepIndex) output,
      agent.role.writes = some (instanceId, stepIndex, output) →
        ∃ row, (world.shared.steps instanceId)[stepIndex]? = some row ∧
          row.stepIndex = stepIndex := by
    intro instanceId stepIndex output writes
    obtain ⟨row, found, _⟩ := fills instanceId stepIndex output writes
    exact ⟨row, found, (answering.sequential.shared.rows _ _ _ found).1⟩
  obtain ⟨process, role⟩ := agent
  obtain ⟨process', role'⟩ := later
  have knew := traces _ rfl alive
  cases move with
  | @run run _ _ _ move =>
    have living : LivingRun world.shared (some ⟨process, .run run⟩) run := ⟨process, rfl, alive⟩
    obtain ⟨traced', traces', kept⟩ :=
      move.traces answering.owned.shared (owns run living) (knows run living) keeps traced knew
    refine ⟨traced', ?_, kept⟩
    rintro _ ⟨⟩ _
    exact traces'
  | poll move =>
    refine ⟨move.traces (move.beside once) there traced, ?_, .of_same keeps ?_⟩
    · rintro _ ⟨⟩ _
      trivial
    · cases move <;> rfl
  | @task task _ choice _ move =>
    have selects : ∀ stepIndex, choice = .select (some stepIndex) → task.event.plain = true := by
      rintro stepIndex rfl
      have plain := spares.2
      simpa only [answersPlain, present, Option.all_some] using plain
    obtain ⟨traced', plain⟩ := move.traces (move.beside once) there knew selects traced
    refine ⟨traced', ?_, .of_same keeps ?_⟩
    · rintro _ ⟨⟩ _
      exact plain
    · cases move <;> rfl
  | reap => exact nomatch spares.1.1

end Notifkit.Workflow
