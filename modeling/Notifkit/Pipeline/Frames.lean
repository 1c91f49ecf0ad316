import Notifkit.Foundations.Tables
import Notifkit.Pipeline.Stages

/-!
# What each kind of step leaves alone

A step of a stage is the stream's, a run's as a whole, or a run's about one of its
outputs. Each kind is taken apart once here; the invariants of the stage are proved
from these frames and never unfold a step of another kind.
-/

namespace Notifkit.Pipeline

open Tables

variable {Message : Type} {stage : Stage Message} {world after : World Message}

/-- A fresh run: delivered, and nothing else. -/
def Run.fresh (run : Run Message) : Prop := run.phase = .waiting ∧ run.tasks = none

/-- The stream's side: the clock may advance and a fresh run may be added; leases
change only for tasks another entry carries. -/
structure StreamFrame (world after : World Message) : Prop where
  clock : world.now ≤ after.now
  marks : after.marks = world.marks
  outcomes : after.outcomes = world.outcomes
  published : after.published = world.published
  starts : after.starts = world.starts
  holds : after.holds = world.holds
  runs : after.runs = world.runs ∨ ∃ run : Run Message, run.fresh ∧ after.runs = world.runs ++ [run]
  leases : ∀ id, (id, .carried) ∈ world.outcomes ∨ after.leases.cell id = world.leases.cell id

/-- Taking a lease touches no other task's. -/
theorem acquireLease_other {marks : Marks} {now : Nat} {id other : Text} {ttlSeconds : Nat}
    (apart : other ≠ id) :
    (IdempotencyGuard.acquireLease marks now id ttlSeconds).2.cell other = marks.cell other := by
  unfold IdempotencyGuard.acquireLease
  split
  · simp [apart]
  · rfl
  · rfl

theorem streamStep_frame {action : StreamAction Message}
    (taken : streamStep stage world action = some after) : StreamFrame world after := by
  cases action with
  | tick ms =>
    obtain rfl := Option.some.inj taken
    exact ⟨Nat.le_add_right _ _, rfl, rfl, rfl, rfl, rfl, .inl rfl, fun _ => .inr rfl⟩
  | append message =>
    obtain rfl := Option.some.inj taken
    exact ⟨Nat.le_refl _, rfl, rfl, rfl, rfl, rfl, .inl rfl, fun _ => .inr rfl⟩
  | read =>
    obtain ⟨message, _, same⟩ := Option.bind_eq_some_iff.mp taken
    obtain rfl := Option.some.inj same
    exact ⟨Nat.le_refl _, rfl, rfl, rfl, rfl, rfl, .inr ⟨_, ⟨rfl, rfl⟩, rfl⟩, fun _ => .inr rfl⟩
  | reclaim entry =>
    obtain ⟨held, _, taken⟩ := Option.bind_eq_some_iff.mp taken
    obtain ⟨message, _, taken⟩ := Option.bind_eq_some_iff.mp taken
    obtain ⟨_, same⟩ := Option.ite_none_right_eq_some.mp taken
    obtain rfl := Option.some.inj same
    exact ⟨Nat.le_refl _, rfl, rfl, rfl, rfl, rfl, .inr ⟨_, ⟨rfl, rfl⟩, rfl⟩, fun _ => .inr rfl⟩
  | outside task change =>
    obtain ⟨carried, taken⟩ := Option.ite_none_right_eq_some.mp taken
    cases change with
    | acquire =>
      obtain rfl := Option.some.inj taken
      refine ⟨Nat.le_refl _, rfl, rfl, rfl, rfl, rfl, .inl rfl, fun id => ?_⟩
      by_cases same : id = task
      · exact .inl (same ▸ carried)
      · exact .inr (acquireLease_other same)
    | complete =>
      obtain rfl := Option.some.inj taken
      refine ⟨Nat.le_refl _, rfl, rfl, rfl, rfl, rfl, .inl rfl, fun id => ?_⟩
      by_cases same : id = task
      · exact .inl (same ▸ carried)
      · exact .inr (by simp [IdempotencyGuard.markProcessed, same])
    | release =>
      obtain rfl := Option.some.inj taken
      refine ⟨Nat.le_refl _, rfl, rfl, rfl, rfl, rfl, .inl rfl, fun id => ?_⟩
      by_cases same : id = task
      · exact .inl (same ▸ carried)
      · exact .inr (by simp [IdempotencyGuard.unmark, same])

/-- The phase an action about an output takes the output's phase to. -/
inductive TaskMove : TaskPhase → TaskPhase → Prop where
  | publish : TaskMove .todo .returned
  | handOver : TaskMove .todo .inline
  | gate : TaskMove .inline .returned
  | lease : TaskMove .inline .leased
  | settle : TaskMove .leased .settled
  | reject : TaskMove .leased .rejected
  | deadLetter : TaskMove .rejected .returned
  | conclude : TaskMove .settled .returned
  | throw {phase : TaskPhase} (under : phase = .inline ∨ phase = .leased ∨ phase = .rejected) :
      TaskMove phase .threw

/-- A run's side about one output: marks, starts and clock stay, and the one output
moves on. -/
structure TaskFrame (world after : World Message) (index : Nat) (run : Run Message)
    (tasks : List Task) (position : Nat) (task : Task) : Prop where
  clock : after.now = world.now
  marks : after.marks = world.marks
  starts : after.starts = world.starts
  runs : ∃ phase, TaskMove task.phase phase ∧
    after.runs = setTask world.runs index run tasks position task phase
  outcomes : ∀ entry ∈ world.outcomes, entry ∈ after.outcomes
  published : after.published = world.published ∨
    run.phase = .publishing ∧ after.published = ⟨index, world.now⟩ :: world.published

theorem taskStep_frame {index position : Nat} {run : Run Message} {tasks : List Task} {task : Task}
    {action : TaskAction}
    (taken : taskStep stage world index run tasks position task action = some after) :
    TaskFrame world after index run tasks position task := by
  obtain ⟨id, phase⟩ := task
  cases action with
  | publish =>
    obtain ⟨⟨going, rfl⟩, same⟩ := Option.ite_none_right_eq_some.mp taken
    obtain rfl := Option.some.inj same
    exact ⟨rfl, rfl, rfl, ⟨_, .publish, rfl⟩, fun _ => List.mem_cons_of_mem _, .inr ⟨going, rfl⟩⟩
  | handOver =>
    obtain ⟨⟨going, rfl⟩, same⟩ := Option.ite_none_right_eq_some.mp taken
    obtain rfl := Option.some.inj same
    exact ⟨rfl, rfl, rfl, ⟨_, .handOver, rfl⟩, fun _ member => member, .inr ⟨going, rfl⟩⟩
  | settle outcome =>
    cases phase with
    | inline =>
      obtain rfl := Option.some.inj taken
      exact ⟨rfl, rfl, rfl, ⟨_, .gate, rfl⟩, fun _ => List.mem_cons_of_mem _, .inl rfl⟩
    | leased =>
      obtain rfl := Option.some.inj taken
      exact ⟨rfl, rfl, rfl, ⟨_, .settle, rfl⟩, fun _ => List.mem_cons_of_mem _, .inl rfl⟩
    | _ => cases taken
  | lease =>
    obtain ⟨rfl, taken⟩ := Option.ite_none_right_eq_some.mp taken
    dsimp only at taken
    split at taken
    · obtain rfl := Option.some.inj taken
      exact ⟨rfl, rfl, rfl, ⟨_, .lease, rfl⟩, fun _ member => member, .inl rfl⟩
    · obtain rfl := Option.some.inj taken
      exact ⟨rfl, rfl, rfl, ⟨_, .gate, rfl⟩, fun _ member => member, .inl rfl⟩
    · obtain rfl := Option.some.inj taken
      exact ⟨rfl, rfl, rfl, ⟨_, .gate, rfl⟩, fun _ member => member, .inl rfl⟩
  | reject =>
    obtain ⟨rfl, same⟩ := Option.ite_none_right_eq_some.mp taken
    obtain rfl := Option.some.inj same
    exact ⟨rfl, rfl, rfl, ⟨_, .reject, rfl⟩, fun _ => List.mem_cons_of_mem _, .inl rfl⟩
  | deadLetter =>
    obtain ⟨rfl, same⟩ := Option.ite_none_right_eq_some.mp taken
    obtain rfl := Option.some.inj same
    exact ⟨rfl, rfl, rfl, ⟨_, .deadLetter, rfl⟩, fun _ => List.mem_cons_of_mem _, .inl rfl⟩
  | conclude keep =>
    obtain ⟨rfl, same⟩ := Option.ite_none_right_eq_some.mp taken
    obtain rfl := Option.some.inj same
    cases keep <;> exact ⟨rfl, rfl, rfl, ⟨_, .conclude, rfl⟩, fun _ member => member, .inl rfl⟩
  | throw released =>
    cases phase with
    | inline =>
      obtain rfl := Option.some.inj taken
      exact ⟨rfl, rfl, rfl, ⟨_, .throw (.inl rfl), rfl⟩, fun _ member => member, .inl rfl⟩
    | leased =>
      obtain rfl := Option.some.inj taken
      cases released <;>
        exact ⟨rfl, rfl, rfl, ⟨_, .throw (.inr (.inl rfl)), rfl⟩, fun _ member => member, .inl rfl⟩
    | rejected =>
      obtain rfl := Option.some.inj taken
      cases released <;>
        exact ⟨rfl, rfl, rfl, ⟨_, .throw (.inr (.inr rfl)), rfl⟩, fun _ member => member, .inl rfl⟩
    | _ => cases taken

/-- A run's change of phase that touches neither marks nor starts. -/
inductive QuietMove (stage : Stage Message) (run : Run Message) :
    RunAction → Run Message → Prop where
  | deadLetter (waits : run.phase = .waiting) :
      QuietMove stage run .deadLetter { run with phase := .acked .deadLettered }
  | refuse (waits : run.phase = .waiting) (unkeyed : stage.keyOf run = none) :
      QuietMove stage run .begin { run with phase := .invalid }
  | leave (works : run.phase = .working) :
      QuietMove stage run .leave { run with phase := .done, tasks := some [] }
  | resolve (works : run.phase = .working) (ids : List Text) :
      QuietMove stage run (.resolve ids)
        { run with phase := .publishing, tasks := some (ids.map fun id => ⟨id, .todo⟩) }
  | fail (works : run.phase = .working ∨ run.phase = .publishing) :
      QuietMove stage run (.fail false) { run with phase := .failed }
  | crash (lives : run.phase ≠ .dead) : QuietMove stage run .crash { run with phase := .dead }
  | ack (reason : AckReason) (due : run.phase.acknowledgement = some reason) :
      QuietMove stage run .ack { run with phase := .acked reason }

/-- What a run's own step does to the runs, the marks and the starts. -/
inductive RunEffect (stage : Stage Message) (world after : World Message) (index : Nat)
    (run : Run Message) (action : RunAction) : Prop where
  | touched (runs : after.runs = world.runs) (marks : after.marks = world.marks)
      (starts : after.starts = world.starts)
  | moved (later : Run Message) (move : QuietMove stage run action later)
      (runs : after.runs = world.runs.set index later) (marks : after.marks = world.marks)
      (starts : after.starts = world.starts)
  | skipped (checks : action = .begin) (key : Text) (keyed : stage.keyOf run = some key)
      (waits : run.phase = .waiting)
      (seen : ∃ mark last, world.marks.cell key = some (mark, last) ∧ world.now ≤ last)
      (runs : after.runs = world.runs.set index { run with phase := .skipped })
      (marks : after.marks = world.marks) (starts : after.starts = world.starts)
  | started (checks : action = .begin) (key : Text) (keyed : stage.keyOf run = some key)
      (waits : run.phase = .waiting)
      (unseen : ∀ mark last, world.marks.cell key = some (mark, last) → last < world.now)
      (runs : after.runs = world.runs.set index
        { run with phase := .working, doneTtl := stage.doneTtlSeconds run.message world.now })
      (marks : after.marks = world.marks.set key .processed
        (IdempotencyGuard.expiry world.now startTtlSeconds))
      (starts : after.starts = ⟨key, world.now, index⟩ :: world.starts)
  | finished (publishes : run.phase = .publishing) (complete : run.completed = true)
      (runs : after.runs = world.runs.set index { run with phase := .done })
      (marks : after.marks = (markRun stage world run).marks) (starts : after.starts = world.starts)
  | released (fails : action = .fail true) (works : run.phase = .working ∨ run.phase = .publishing)
      (runs : after.runs = world.runs.set index { run with phase := .failed })
      (marks : after.marks = (unmarkRun stage world run).marks)
      (starts : after.starts = (unmarkRun stage world run).starts)

/-- A run's own step leaves the clock, the leases and what is on record alone. -/
structure RunFrame (world after : World Message) : Prop where
  clock : after.now = world.now
  leases : after.leases = world.leases
  outcomes : after.outcomes = world.outcomes
  published : after.published = world.published
  holds : after.holds = world.holds

theorem markRun_frame (stage : Stage Message) (world : World Message) (run : Run Message) :
    RunFrame world (markRun stage world run) ∧
      (markRun stage world run).starts = world.starts := by
  unfold markRun
  split <;> exact ⟨⟨rfl, rfl, rfl, rfl, rfl⟩, rfl⟩

theorem unmarkRun_frame (stage : Stage Message) (world : World Message) (run : Run Message) :
    RunFrame world (unmarkRun stage world run) := by
  unfold unmarkRun
  split <;> exact ⟨rfl, rfl, rfl, rfl, rfl⟩

/-- The dedupe check has three ends: the payload did not parse, the key was seen, or
the run starts. -/
theorem beginRun_effect {index : Nat} {run : Run Message} (waits : run.phase = .waiting) :
    RunFrame world (beginRun stage world index run) ∧
      RunEffect stage world (beginRun stage world index run) index run .begin := by
  unfold beginRun
  cases keyed : stage.keyOf run with
  | none => exact ⟨⟨rfl, rfl, rfl, rfl, rfl⟩, .moved _ (.refuse waits keyed) rfl rfl rfl⟩
  | some key =>
    dsimp only
    cases checked : IdempotencyGuard.checkAndMark world.marks world.now key startTtlSeconds with
    | none =>
      have seen := IdempotencyGuard.checkAndMark_eq_none.mp checked
      exact ⟨⟨rfl, rfl, rfl, rfl, rfl⟩, .skipped rfl key keyed waits seen rfl rfl rfl⟩
    | some marks =>
      obtain ⟨free, same⟩ := IdempotencyGuard.checkAndMark_eq_some.mp checked
      exact ⟨⟨rfl, rfl, rfl, rfl, rfl⟩, .started rfl key keyed waits
        (ExpiringStore.get_eq_none.mp free) rfl same.symm rfl⟩

theorem runStep_frame {index : Nat} {run : Run Message} {action : RunAction}
    (taken : runStep stage world index run action = some after) :
    RunFrame world after ∧ RunEffect stage world after index run action := by
  cases action with
  | deadLetter =>
    obtain ⟨⟨waits, _⟩, same⟩ := Option.ite_none_right_eq_some.mp taken
    obtain rfl := Option.some.inj same
    exact ⟨⟨rfl, rfl, rfl, rfl, rfl⟩, .moved _ (.deadLetter waits) rfl rfl rfl⟩
  | begin =>
    obtain ⟨⟨waits, _⟩, same⟩ := Option.ite_none_right_eq_some.mp taken
    obtain rfl := Option.some.inj same
    exact beginRun_effect waits
  | leave =>
    obtain ⟨works, same⟩ := Option.ite_none_right_eq_some.mp taken
    obtain rfl := Option.some.inj same
    exact ⟨⟨rfl, rfl, rfl, rfl, rfl⟩, .moved _ (.leave works) rfl rfl rfl⟩
  | resolve ids =>
    obtain ⟨works, same⟩ := Option.ite_none_right_eq_some.mp taken
    obtain rfl := Option.some.inj same
    exact ⟨⟨rfl, rfl, rfl, rfl, rfl⟩, .moved _ (.resolve works ids) rfl rfl rfl⟩
  | mark =>
    obtain ⟨⟨publishes, complete⟩, same⟩ := Option.ite_none_right_eq_some.mp taken
    obtain rfl := Option.some.inj same
    obtain ⟨frame, starts⟩ := markRun_frame stage world run
    exact ⟨⟨frame.clock, frame.leases, frame.outcomes, frame.published, frame.holds⟩,
      .finished publishes complete rfl rfl starts⟩
  | fail released =>
    obtain ⟨works, same⟩ := Option.ite_none_right_eq_some.mp taken
    obtain rfl := Option.some.inj same
    cases released with
    | false => exact ⟨⟨rfl, rfl, rfl, rfl, rfl⟩, .moved _ (.fail works) rfl rfl rfl⟩
    | true =>
      have frame := unmarkRun_frame stage world run
      exact ⟨⟨frame.clock, frame.leases, frame.outcomes, frame.published, frame.holds⟩,
        .released rfl works rfl rfl rfl⟩
  | crash =>
    obtain ⟨lives, same⟩ := Option.ite_none_right_eq_some.mp taken
    obtain rfl := Option.some.inj same
    exact ⟨⟨rfl, rfl, rfl, rfl, rfl⟩, .moved _ (.crash lives) rfl rfl rfl⟩
  | touch =>
    obtain ⟨_, same⟩ := Option.ite_none_right_eq_some.mp taken
    obtain rfl := Option.some.inj same
    exact ⟨⟨rfl, rfl, rfl, rfl, rfl⟩, .touched rfl rfl rfl⟩
  | ack =>
    obtain ⟨reason, due, same⟩ := Option.bind_eq_some_iff.mp taken
    obtain rfl := Option.some.inj same
    exact ⟨⟨rfl, rfl, rfl, rfl, rfl⟩, .moved _ (.ack reason due) rfl rfl rfl⟩

/-- A step, by the layer it belongs to. -/
inductive StepEffect (stage : Stage Message) (world after : World Message) :
    Action Message → Prop where
  | stream (action : StreamAction Message) (frame : StreamFrame world after) :
      StepEffect stage world after (.stream action)
  | run {index : Nat} {run : Run Message} (action : RunAction)
      (present : world.runs[index]? = some run) (frame : RunFrame world after)
      (effect : RunEffect stage world after index run action)
      (taken : runStep stage world index run action = some after) :
      StepEffect stage world after (.run index action)
  | task {index position : Nat} {run : Run Message} {tasks : List Task} {task : Task}
      (action : TaskAction) (present : world.runs[index]? = some run)
      (listed : run.tasks = some tasks) (placed : tasks[position]? = some task)
      (lives : run.phase ≠ .dead) (frame : TaskFrame world after index run tasks position task)
      (taken : taskStep stage world index run tasks position task action = some after) :
      StepEffect stage world after (.task index position action)

theorem step_effect {action : Action Message} (taken : step stage world action = some after) :
    StepEffect stage world after action := by
  cases action with
  | stream action => exact .stream action (streamStep_frame taken)
  | run index action =>
    obtain ⟨run, present, taken⟩ := Option.bind_eq_some_iff.mp taken
    obtain ⟨frame, effect⟩ := runStep_frame taken
    exact .run action present frame effect taken
  | task index position action =>
    obtain ⟨run, present, taken⟩ := Option.bind_eq_some_iff.mp taken
    obtain ⟨tasks, listed, taken⟩ := Option.bind_eq_some_iff.mp taken
    obtain ⟨task, placed, taken⟩ := Option.bind_eq_some_iff.mp taken
    obtain ⟨lives, taken⟩ := Option.ite_none_right_eq_some.mp taken
    exact .task action present listed placed lives (taskStep_frame taken) taken

/-! ## What holds of the runs in every state -/

/-- Before its outputs are worked out a run has none, and a run that returned
normally is complete. -/
structure WellFormed (world : World Message) : Prop where
  unresolved : ∀ run ∈ world.runs, run.phase = .waiting ∨ run.phase = .working → run.tasks = none
  finished : ∀ run ∈ world.runs, run.phase = .done ∨ run.phase = .acked .processed →
    run.completed = true

/-- Over is over: an output's call that came back does not start again. -/
theorem TaskMove.over_kept {task : Task} {phase : TaskPhase} (move : TaskMove task.phase phase)
    (isOver : task.isOver = true) : Task.isOver { task with phase := phase } = true := by
  obtain ⟨id, current⟩ := task
  cases move with
  | conclude => rfl
  | throw under =>
    rcases under with same | same | same
    · simp only at same; simp [Task.isOver, same] at isOver
    · simp only at same; simp [Task.isOver, same] at isOver
    · simp only at same; simp [Task.isOver, same] at isOver
  | _ => simp [Task.isOver] at isOver

/-- A run is complete exactly when its outputs are known and each call is over. -/
theorem completed_iff {run : Run Message} : run.completed = true ↔
    ∃ tasks, run.tasks = some tasks ∧ ∀ task ∈ tasks, task.isOver = true := by
  unfold Run.completed
  cases run.tasks <;> simp

/-- A complete run stays complete when one of its outputs moves on. -/
theorem completed_setTask {run : Run Message} {tasks : List Task} {position : Nat} {task : Task}
    {phase : TaskPhase} (listed : run.tasks = some tasks) (placed : tasks[position]? = some task)
    (move : TaskMove task.phase phase) (complete : run.completed = true) :
    Run.completed { run with tasks := some (tasks.set position { task with phase := phase }) } =
      true := by
  obtain ⟨known, same, isOver⟩ := completed_iff.mp complete
  obtain rfl : tasks = known := Option.some.inj (listed.symm.trans same)
  exact completed_iff.mpr ⟨_, rfl,
    all_set isOver (move.over_kept (isOver task (List.mem_of_getElem? placed)))⟩

/-- Complete work stays complete in a quiet move. -/
theorem QuietMove.completed_kept {run later : Run Message} {action : RunAction}
    (move : QuietMove stage run action later)
    (unresolved : run.phase = .waiting ∨ run.phase = .working → run.tasks = none)
    (complete : run.completed = true) : later.completed = true := by
  cases move with
  | leave works => rfl
  | resolve works ids =>
    obtain ⟨tasks, known, _⟩ := completed_iff.mp complete
    have none := unresolved (.inr works)
    rw [none] at known
    cases known
  | _ => exact complete

/-- A quiet move keeps the message, so it keeps the key. -/
theorem QuietMove.message_kept {run later : Run Message} {action : RunAction}
    (move : QuietMove stage run action later) :
    later.message = run.message := by
  cases move <;> rfl

/-- Every step keeps the runs well formed. -/
theorem wellFormed_step {action : Action Message} (formed : WellFormed world)
    (taken : step stage world action = some after) : WellFormed after := by
  cases step_effect taken with
  | stream action frame =>
    rcases frame.runs with same | ⟨run, ⟨waits, none⟩, same⟩
    · exact ⟨same ▸ formed.unresolved, same ▸ formed.finished⟩
    · refine ⟨?_, ?_⟩
      · rw [same]
        exact all_append formed.unresolved fun _ => none
      · rw [same]
        refine all_append formed.finished fun returned => ?_
        rw [waits] at returned
        simp at returned
  | @run index run action present frame effect _ =>
    have member := List.mem_of_getElem? present
    have unresolved := formed.unresolved run member
    have finished := formed.finished run member
    have kept : ∀ later : Run Message, after.runs = world.runs.set index later →
        (later.phase = .waiting ∨ later.phase = .working → later.tasks = none) →
        (later.phase = .done ∨ later.phase = .acked .processed → later.completed = true) →
        WellFormed after := by
      intro later same laterUnresolved laterFinished
      exact ⟨same ▸ all_set formed.unresolved laterUnresolved,
        same ▸ all_set formed.finished laterFinished⟩
    cases effect with
    | touched runs => exact ⟨runs ▸ formed.unresolved, runs ▸ formed.finished⟩
    | moved later move runs =>
      refine kept later runs ?_ ?_
      · cases move <;> simp
      · cases move with
        | ack reason due =>
          intro returned
          simp only [reduceCtorEq, RunPhase.acked.injEq, false_or] at returned
          subst returned
          refine finished (.inl ?_)
          cases phase : run.phase <;> simp_all [RunPhase.acknowledgement]
        | leave => exact fun _ => rfl
        | _ => simp
    | skipped checks key keyed waits seen runs => exact kept _ runs (by simp) (by simp)
    | started checks key keyed waits unseen runs =>
      exact kept _ runs (fun _ => unresolved (.inl waits)) (by simp)
    | finished publishes complete runs => exact kept _ runs (by simp) fun _ => complete
    | released fails works runs => exact kept _ runs (by simp) (by simp)
  | @task index position run tasks task action present listed placed lives frame _ =>
    obtain ⟨phase, move, runs⟩ := frame.runs
    have member := List.mem_of_getElem? present
    refine ⟨?_, ?_⟩
    · rw [runs]
      refine all_set formed.unresolved fun early => ?_
      have none := formed.unresolved run member early
      rw [none] at listed
      cases listed
    · rw [runs]
      exact all_set formed.finished fun returned =>
        completed_setTask listed placed move (formed.finished run member returned)

/-- Completed work of a key: some run of it published everything it had to. -/
def CompletedFor (stage : Stage Message) (runs : List (Run Message)) (key : Text) : Prop :=
  ∃ run ∈ runs, stage.keyOf run = some key ∧ run.completed = true

/-- Every step keeps completed work. -/
theorem completedFor_step {action : Action Message} {key : Text} (formed : WellFormed world)
    (taken : step stage world action = some after) (done : CompletedFor stage world.runs key) :
    CompletedFor stage after.runs key := by
  unfold CompletedFor
  cases step_effect taken with
  | stream action frame =>
    rcases frame.runs with same | ⟨run, _, same⟩
    · exact same ▸ done
    · rw [same]
      exact some_append done
  | @run index run action present frame effect _ =>
    have unresolved := formed.unresolved run (List.mem_of_getElem? present)
    cases effect with
    | touched runs => exact runs ▸ done
    | moved later move runs =>
      rw [runs]
      refine some_set present (fun ⟨keyed, complete⟩ => ⟨?_, ?_⟩) done
      · simpa only [Stage.keyOf, move.message_kept] using keyed
      · exact move.completed_kept unresolved complete
    | skipped checks key keyed waits seen runs => rw [runs]; exact some_set present (fun kept => kept) done
    | started checks key keyed waits unseen runs =>
      rw [runs]
      exact some_set present (fun kept => kept) done
    | finished publishes complete runs => rw [runs]; exact some_set present (fun kept => kept) done
    | released fails works runs => rw [runs]; exact some_set present (fun kept => kept) done
  | @task index position run tasks task action present listed placed lives frame _ =>
    obtain ⟨phase, move, runs⟩ := frame.runs
    rw [runs]
    exact some_set present
      (fun ⟨keyed, complete⟩ => ⟨keyed, completed_setTask listed placed move complete⟩) done

end Notifkit.Pipeline
