import Notifkit.Pipeline.Duplicates

/-!
# What an acknowledged inbound entry leaves behind in the fused pipeline

Fused, the enricher hands its outputs to the engine and the delivery worker in its
own process and acknowledges the entry when every call has come back. Two answers come
back without the work being done: the check that finds a start mark, and the lease
that is held by somebody else, whose `{ ack: false }` nobody reads.

An entry is accounted for when every notification it fanned out to has an outcome on
record, one of them being that another durable entry carries it. That holds in every
run in which no check finds the mark of an unaccounted start, and no call finds the
lease of an unfinished send of another run. The guard's keys do not ensure either: both
outlive their holder's process by up to a minute.
-/

namespace Notifkit.Pipeline

open Runs Tables

variable {Message : Type} {stage : Stage Message} {world after : World Message}

/-- The notification ended, or another durable entry carries it. -/
def SettledIn (outcomes : List (Text × Outcome)) (id : Text) : Prop :=
  ∃ entry ∈ outcomes, entry.1 = id

instance (outcomes : List (Text × Outcome)) (id : Text) : Decidable (SettledIn outcomes id) :=
  inferInstanceAs (Decidable (∃ _ ∈ _, _))

/-- All the run's notifications are known and settled. -/
def Run.accounted (run : Run Message) (outcomes : List (Text × Outcome)) : Prop :=
  ∃ tasks, run.tasks = some tasks ∧ ∀ task ∈ tasks, SettledIn outcomes task.id

/-- An entry is acknowledged as processed only when its notifications are settled, and
as a duplicate only when those of some run with its key are. -/
def Accounted (stage : Stage Message) (world : World Message) : Prop :=
  ∀ run ∈ world.runs,
    (run.phase = .done ∨ run.phase = .acked .processed → run.accounted world.outcomes) ∧
    (run.duplicate → ∀ key, stage.keyOf run = some key →
      ∃ other ∈ world.runs, stage.keyOf other = some key ∧ other.accounted world.outcomes)

/-- The task whose lease an action asks for, and the run that asks. -/
def askedLease (world : World Message) : Action Message → Option (Nat × Task)
  | .task index position .lease => do
    let run ← world.runs[index]?
    let tasks ← run.tasks
    let task ← tasks[position]?
    pure (index, task)
  | _ => none

/-- The lease taken with a hold is over by now. -/
def Hold.isOver (hold : Hold) (now : Nat) : Prop :=
  IdempotencyGuard.expiry hold.at' leaseTtlSeconds < now

instance (hold : Hold) (now : Nat) : Decidable (hold.isOver now) :=
  inferInstanceAs (Decidable (_ < _))

/-- A call may ask for a lease when the notification is settled, or when every lease
another run took on it and nobody released is over. Other steps are free. -/
def AsksLate (world : World Message) (action : Action Message) : Prop :=
  ∀ asked ∈ askedLease world action, SettledIn world.outcomes asked.2.id ∨
    ∀ hold ∈ world.holds, hold.task = asked.2.id → hold.run = asked.1 ∨ hold.isOver world.now

instance (world : World Message) (action : Action Message) : Decidable (AsksLate world action) :=
  inferInstanceAs (Decidable (∀ _ ∈ _, _))

/-- The call for this output is stuck on a lease it took, or threw. -/
def Task.unfinished (task : Task) : Prop := task.phase = .leased ∨ task.phase = .threw

/-- Some call for this notification among these outputs is unfinished. -/
def UnfinishedIn (tasks : List Task) (id : Text) : Prop :=
  ∃ task ∈ tasks, task.id = id ∧ task.unfinished

/-- Every key and every call that came back is accounted for. -/
structure LeasesExplained (world : World Message) : Prop where
  /-- a lease belongs to a settled notification, or to a hold and ends with it -/
  lease : ∀ id last, world.leases.cell id = some (.lease, last) → SettledIn world.outcomes id ∨
    ∃ hold ∈ world.holds, hold.task = id ∧
      last = IdempotencyGuard.expiry hold.at' leaseTtlSeconds
  /-- a completed notification is settled -/
  processed : ∀ id last, world.leases.cell id = some (.processed, last) →
    SettledIn world.outcomes id
  /-- a hold is of a settled notification, or of an unfinished call -/
  hold : ∀ hold ∈ world.holds, SettledIn world.outcomes hold.task ∨
    ∃ run, world.runs[hold.run]? = some run ∧ ∃ tasks, run.tasks = some tasks ∧
      UnfinishedIn tasks hold.task
  /-- what was put on record stays there -/
  recorded : ∀ run ∈ world.runs, ∀ tasks, run.tasks = some tasks → ∀ task ∈ tasks,
    task.phase = .settled ∨ task.phase = .rejected → SettledIn world.outcomes task.id
  /-- a call that came back settled its notification, or left it to another call of the
  same run -/
  back : ∀ run ∈ world.runs, ∀ tasks, run.tasks = some tasks → ∀ task ∈ tasks,
    task.isOver = true → SettledIn world.outcomes task.id ∨ UnfinishedIn tasks task.id

/-- In a complete run nobody is left to finish a notification, so all are settled. -/
theorem LeasesExplained.completed_accounted (explained : LeasesExplained world)
    {run : Run Message} (member : run ∈ world.runs) (complete : run.completed = true) :
    run.accounted world.outcomes := by
  obtain ⟨tasks, listed, isOver⟩ := completed_iff.mp complete
  refine ⟨tasks, listed, fun task inTasks => ?_⟩
  rcases explained.back run member tasks listed task inTasks (isOver task inTasks) with
    settled | ⟨other, inOther, _, unfinished⟩
  · exact settled
  · have otherOver := isOver other inOther
    rcases unfinished with leased | threw
    · simp [Task.isOver, leased] at otherOver
    · simp [Task.isOver, threw] at otherOver

/-- Marks and leases together account for every acknowledged entry. -/
theorem accounted_of_explained (formed : WellFormed world) (marks : MarksExplained stage world)
    (leases : LeasesExplained world) : Accounted stage world := by
  intro run member
  refine ⟨fun returned => leases.completed_accounted member (formed.finished run member returned),
    fun duplicate key keyed => ?_⟩
  obtain ⟨other, otherMember, otherKeyed, complete⟩ :=
    marks.duplicates run member duplicate key keyed
  exact ⟨other, otherMember, otherKeyed, leases.completed_accounted otherMember complete⟩

/-! ## What an output's step does to the leases -/

/-- What a step about an output does to the outcomes, the leases and the holds, by the
phase it takes the output to. -/
inductive TaskEffect (world after : World Message) (index : Nat) (task : Task)
    (action : TaskAction) : TaskPhase → Prop where
  | recorded {phase : TaskPhase} (record : SettledIn after.outcomes task.id)
      (leases : after.leases = world.leases) (holds : after.holds = world.holds) :
      TaskEffect world after index task action phase
  | handed (fresh : task.phase = .todo) (leases : after.leases = world.leases)
      (holds : after.holds = world.holds) : TaskEffect world after index task action .inline
  | acquired (fresh : task.phase = .inline)
      (leases : after.leases = world.leases.set task.id .lease
        (IdempotencyGuard.expiry world.now leaseTtlSeconds))
      (holds : after.holds = ⟨task.id, world.now, index⟩ :: world.holds) :
      TaskEffect world after index task action .leased
  | refused (asks : action = .lease) (fresh : task.phase = .inline) (mark : Mark) (last : Nat)
      (held : world.leases.cell task.id = some (mark, last)) (inTime : world.now ≤ last)
      (leases : after.leases = world.leases) (holds : after.holds = world.holds) :
      TaskEffect world after index task action .returned
  | upgraded (done : task.phase = .settled) (last : Nat)
      (leases : after.leases = world.leases.set task.id .processed last)
      (holds : after.holds = world.holds) : TaskEffect world after index task action .returned
  | released {phase : TaskPhase}
      (ends : (task.phase = .settled ∨ task.phase = .rejected) ∧ phase = .returned ∨ phase = .threw)
      (leases : after.leases = world.leases.del task.id)
      (holds : after.holds = world.holds.filter fun hold => hold.task ≠ task.id) :
      TaskEffect world after index task action phase
  | thrown (leases : after.leases = world.leases) (holds : after.holds = world.holds) :
      TaskEffect world after index task action .threw

/-- An answer to a request for a lease: it is taken where nothing is held, and refused
where something is. -/
theorem acquireLease_cases (marks : Marks) (now : Nat) (id : Text) (ttlSeconds : Nat) :
    IdempotencyGuard.acquireLease marks now id ttlSeconds =
        (.acquired, marks.set id .lease (IdempotencyGuard.expiry now ttlSeconds)) ∨
      ∃ result mark last, IdempotencyGuard.acquireLease marks now id ttlSeconds = (result, marks) ∧
        result ≠ .acquired ∧ marks.cell id = some (mark, last) ∧ now ≤ last := by
  unfold IdempotencyGuard.acquireLease
  cases read : marks.get now id with
  | none => exact .inl rfl
  | some mark =>
    obtain ⟨last, held, inTime⟩ := ExpiringStore.get_eq_some.mp read
    cases mark with
    | lease => exact .inr ⟨.locked, .lease, last, rfl, by simp, held, inTime⟩
    | processed => exact .inr ⟨.completed, .processed, last, rfl, by simp, held, inTime⟩

theorem taskStep_effect {index position : Nat} {run : Run Message} {tasks : List Task} {task : Task}
    {action : TaskAction}
    (taken : taskStep stage world index run tasks position task action = some after) :
    ∃ phase, after.runs = setTask world.runs index run tasks position task phase ∧
      TaskEffect world after index task action phase := by
  obtain ⟨id, phase⟩ := task
  have onRecord : ∀ outcome (outcomes : List (Text × Outcome)),
      SettledIn ((id, outcome) :: outcomes) id := fun outcome outcomes =>
    ⟨(id, outcome), List.mem_cons_self, rfl⟩
  cases action with
  | publish =>
    obtain ⟨⟨going, rfl⟩, same⟩ := Option.ite_none_right_eq_some.mp taken
    obtain rfl := Option.some.inj same
    exact ⟨_, rfl, .recorded (onRecord _ _) rfl rfl⟩
  | handOver =>
    obtain ⟨⟨going, rfl⟩, same⟩ := Option.ite_none_right_eq_some.mp taken
    obtain rfl := Option.some.inj same
    exact ⟨_, rfl, .handed rfl rfl rfl⟩
  | settle outcome =>
    cases phase with
    | inline =>
      obtain rfl := Option.some.inj taken
      exact ⟨_, rfl, .recorded (onRecord _ _) rfl rfl⟩
    | leased =>
      obtain rfl := Option.some.inj taken
      exact ⟨_, rfl, .recorded (onRecord _ _) rfl rfl⟩
    | _ => cases taken
  | lease =>
    obtain ⟨rfl, taken⟩ := Option.ite_none_right_eq_some.mp taken
    rcases acquireLease_cases world.leases world.now id leaseTtlSeconds with
      acquired | ⟨result, mark, last, answered, refused, held, inTime⟩
    · simp only [acquired] at taken
      obtain rfl := Option.some.inj taken
      exact ⟨_, rfl, .acquired rfl rfl rfl⟩
    · simp only [answered] at taken
      cases result with
      | acquired => exact absurd rfl refused
      | locked =>
        obtain rfl := Option.some.inj taken
        exact ⟨_, rfl, .refused rfl rfl mark last held inTime rfl rfl⟩
      | completed =>
        obtain rfl := Option.some.inj taken
        exact ⟨_, rfl, .refused rfl rfl mark last held inTime rfl rfl⟩
  | reject =>
    obtain ⟨rfl, same⟩ := Option.ite_none_right_eq_some.mp taken
    obtain rfl := Option.some.inj same
    exact ⟨_, rfl, .recorded (onRecord _ _) rfl rfl⟩
  | deadLetter =>
    obtain ⟨rfl, same⟩ := Option.ite_none_right_eq_some.mp taken
    obtain rfl := Option.some.inj same
    exact ⟨_, rfl, .released (.inl ⟨.inr rfl, rfl⟩) rfl rfl⟩
  | conclude keep =>
    obtain ⟨rfl, same⟩ := Option.ite_none_right_eq_some.mp taken
    obtain rfl := Option.some.inj same
    cases keep with
    | true => exact ⟨_, rfl, .upgraded rfl _ rfl rfl⟩
    | false => exact ⟨_, rfl, .released (.inl ⟨.inl rfl, rfl⟩) rfl rfl⟩
  | throw released =>
    cases phase with
    | inline =>
      obtain rfl := Option.some.inj taken
      exact ⟨_, rfl, .thrown rfl rfl⟩
    | leased =>
      obtain rfl := Option.some.inj taken
      cases released with
      | true => exact ⟨_, rfl, .released (.inr rfl) rfl rfl⟩
      | false => exact ⟨_, rfl, .thrown rfl rfl⟩
    | rejected =>
      obtain rfl := Option.some.inj taken
      cases released with
      | true => exact ⟨_, rfl, .released (.inr rfl) rfl rfl⟩
      | false => exact ⟨_, rfl, .thrown rfl rfl⟩
    | _ => cases taken

/-- An unfinished call stays unfinished until its notification is settled. -/
theorem TaskEffect.unfinished_kept {index : Nat} {task : Task} {action : TaskAction}
    {phase : TaskPhase} (effect : TaskEffect world after index task action phase)
    (unfinished : task.unfinished) :
    Task.unfinished { task with phase := phase } ∨ SettledIn after.outcomes task.id := by
  cases effect with
  | recorded record => exact .inr record
  | handed fresh => rcases unfinished with same | same <;> cases fresh.symm.trans same
  | acquired fresh => rcases unfinished with same | same <;> cases fresh.symm.trans same
  | refused asks fresh => rcases unfinished with same | same <;> cases fresh.symm.trans same
  | upgraded done => rcases unfinished with same | same <;> cases done.symm.trans same
  | released ends =>
    rcases ends with ⟨done | refused, _⟩ | rfl
    · rcases unfinished with same | same <;> cases done.symm.trans same
    · rcases unfinished with same | same <;> cases refused.symm.trans same
    · exact .inl (.inr rfl)
  | thrown => exact .inl (.inr rfl)

/-- The same for all calls about one notification, when one of them moves on. -/
theorem unfinishedIn_kept {index position : Nat} {tasks : List Task} {task : Task}
    {action : TaskAction} {phase : TaskPhase} {id : Text} (placed : tasks[position]? = some task)
    (effect : TaskEffect world after index task action phase) (unfinished : UnfinishedIn tasks id) :
    SettledIn after.outcomes id ∨ UnfinishedIn (tasks.set position { task with phase := phase }) id := by
  obtain ⟨other, member, same, still⟩ := unfinished
  obtain ⟨found, there⟩ := List.mem_iff_getElem?.mp member
  by_cases here : found = position
  · subst here
    obtain rfl : task = other := Option.some.inj (placed.symm.trans there)
    rcases effect.unfinished_kept still with kept | settled
    · exact .inr ⟨_, List.mem_of_getElem? ((row_set placed).mpr (.inl ⟨rfl, rfl⟩)), same, kept⟩
    · exact .inl (same ▸ settled)
  · exact .inr ⟨other, List.mem_of_getElem? ((row_set placed).mpr (.inr ⟨here, there⟩)), same, still⟩

/-- A run's own step leaves its outputs as they are, or brings them in untouched. -/
theorem RunEffect.tasks_kept {index : Nat} {run : Run Message} {action : RunAction}
    (effect : RunEffect stage world after index run action)
    (unresolved : run.phase = .waiting ∨ run.phase = .working → run.tasks = none) :
    after.runs = world.runs ∨ ∃ later : Run Message, after.runs = world.runs.set index later ∧
      (later.tasks = run.tasks ∨ run.tasks = none ∧
        ∀ tasks, later.tasks = some tasks → ∀ task ∈ tasks, task.phase = .todo) := by
  cases effect with
  | touched runs => exact .inl runs
  | moved later move runs =>
    refine .inr ⟨later, runs, ?_⟩
    cases move with
    | leave works =>
      refine .inr ⟨unresolved (.inr works), fun tasks listed => ?_⟩
      obtain rfl := Option.some.inj listed
      exact fun _ member => nomatch member
    | resolve works ids =>
      refine .inr ⟨unresolved (.inr works), fun tasks listed => ?_⟩
      obtain rfl := Option.some.inj listed
      intro task member
      obtain ⟨id, _, rfl⟩ := List.mem_map.mp member
      rfl
    | _ => exact .inl rfl
  | skipped checks key keyed waits seen runs => exact .inr ⟨_, runs, .inl rfl⟩
  | started checks key keyed waits unseen runs => exact .inr ⟨_, runs, .inl rfl⟩
  | finished publishes complete runs => exact .inr ⟨_, runs, .inl rfl⟩
  | released fails works runs => exact .inr ⟨_, runs, .inl rfl⟩

/-! ## What every step keeps -/

/-- What is on record stays there. -/
theorem settledIn_kept {before later : List (Text × Outcome)} {id : Text}
    (kept : ∀ entry ∈ before, entry ∈ later) (settled : SettledIn before id) : SettledIn later id := by
  obtain ⟨entry, member, same⟩ := settled
  exact ⟨entry, kept entry member, same⟩

/-- Steps that leave leases, holds and outcomes alone and bring in outputs untouched
keep every lease explained. -/
theorem LeasesExplained.run_set (explained : LeasesExplained world) {index : Nat}
    {run later : Run Message} (present : world.runs[index]? = some run)
    (frame : RunFrame world after) (runs : after.runs = world.runs.set index later)
    (tasks : later.tasks = run.tasks ∨ run.tasks = none ∧
      ∀ tasks, later.tasks = some tasks → ∀ task ∈ tasks, task.phase = .todo) :
    LeasesExplained after := by
  have member := List.mem_of_getElem? present
  refine ⟨?_, ?_, ?_, ?_, ?_⟩
  · rw [frame.leases, frame.outcomes, frame.holds]
    exact explained.lease
  · rw [frame.leases, frame.outcomes]
    exact explained.processed
  · rw [frame.outcomes, frame.holds, runs]
    intro hold held
    rcases explained.hold hold held with settled | stuck
    · exact .inl settled
    · refine .inr (at_set present ?_ stuck)
      rintro ⟨listed, known, unfinished⟩
      rcases tasks with same | ⟨none, _⟩
      · exact ⟨listed, same.trans known, unfinished⟩
      · rw [none] at known
        cases known
  · rw [frame.outcomes, runs]
    refine all_set explained.recorded fun listed known task inTasks phase => ?_
    rcases tasks with same | ⟨_, untouched⟩
    · exact explained.recorded run member listed (same.symm.trans known) task inTasks phase
    · rw [untouched listed known task inTasks] at phase
      simp at phase
  · rw [frame.outcomes, runs]
    refine all_set explained.back fun listed known task inTasks isOver => ?_
    rcases tasks with same | ⟨_, untouched⟩
    · exact explained.back run member listed (same.symm.trans known) task inTasks isOver
    · simp [Task.isOver, untouched listed known task inTasks] at isOver

/-- A call that asks for a lease late enough and is refused leaves its notification to
an outcome on record or to another call of its own run. -/
theorem LeasesExplained.refusal (explained : LeasesExplained world) {index : Nat}
    {run : Run Message} {tasks : List Task} {task : Task} {mark : Mark} {last : Nat}
    (present : world.runs[index]? = some run) (listed : run.tasks = some tasks)
    (late : SettledIn world.outcomes task.id ∨
      ∀ hold ∈ world.holds, hold.task = task.id → hold.run = index ∨ hold.isOver world.now)
    (held : world.leases.cell task.id = some (mark, last)) (inTime : world.now ≤ last) :
    SettledIn world.outcomes task.id ∨ UnfinishedIn tasks task.id := by
  cases mark with
  | processed => exact .inl (explained.processed _ last held)
  | lease =>
    rcases explained.lease _ last held with settled | ⟨hold, member, same, rfl⟩
    · exact .inl settled
    rcases late with settled | free
    · exact .inl settled
    rcases free hold member same with own | isOver
    · rcases explained.hold hold member with settled | ⟨holder, found, known, listedToo, stuck⟩
      · exact .inl (same ▸ settled)
      · obtain rfl : run = holder := Option.some.inj (present.symm.trans (own ▸ found))
        obtain rfl : tasks = known := Option.some.inj (listed.symm.trans listedToo)
        exact .inr (same ▸ stuck)
    · unfold Hold.isOver at isOver
      omega

/-- A step about an output that asks late enough keeps every lease explained. -/
theorem LeasesExplained.task_set (explained : LeasesExplained world) {index position : Nat}
    {run : Run Message} {tasks : List Task} {task : Task} {action : TaskAction} {phase : TaskPhase}
    (present : world.runs[index]? = some run) (listed : run.tasks = some tasks)
    (placed : tasks[position]? = some task)
    (late : AsksLate world (.task index position action))
    (kept : ∀ entry ∈ world.outcomes, entry ∈ after.outcomes)
    (runs : after.runs = setTask world.runs index run tasks position task phase)
    (effect : TaskEffect world after index task action phase) : LeasesExplained after := by
  have member := List.mem_of_getElem? present
  have inTasks := List.mem_of_getElem? placed
  have stuckKept : ∀ hold ∈ world.holds, SettledIn after.outcomes hold.task ∨
      ∃ run, after.runs[hold.run]? = some run ∧ ∃ tasks, run.tasks = some tasks ∧
        UnfinishedIn tasks hold.task := by
    intro hold held
    rcases explained.hold hold held with settled | ⟨holder, found, known, listedToo, stuck⟩
    · exact .inl (settledIn_kept kept settled)
    rw [runs]
    by_cases same : hold.run = index
    · obtain rfl : run = holder := Option.some.inj (present.symm.trans (same ▸ found))
      obtain rfl : tasks = known := Option.some.inj (listed.symm.trans listedToo)
      rcases unfinishedIn_kept placed effect stuck with settled | still
      · exact .inl settled
      · exact .inr ⟨_, (row_set present).mpr (.inl ⟨same, rfl⟩), _, rfl, still⟩
    · exact .inr ⟨holder, (row_set present).mpr (.inr ⟨same, found⟩), known, listedToo, stuck⟩
  have settledPhase : phase = .settled ∨ phase = .rejected → SettledIn after.outcomes task.id := by
    intro ends
    cases effect with
    | recorded record => exact record
    | released ends' =>
      rcases ends' with ⟨_, rfl⟩ | rfl <;> simp at ends
    | _ => simp at ends
  have overPhase : Task.isOver { task with phase := phase } = true →
      SettledIn after.outcomes task.id ∨ UnfinishedIn tasks task.id := by
    intro isOver
    cases effect with
    | recorded record => exact .inl record
    | refused asks fresh mark last held inTime =>
      subst asks
      have asked : askedLease world (.task index position .lease) = some (index, task) := by
        simp [askedLease, present, listed, placed]
      rcases explained.refusal present listed (late _ asked) held inTime with settled | stuck
      · exact .inl (settledIn_kept kept settled)
      · exact .inr stuck
    | upgraded done =>
      exact .inl (settledIn_kept kept
        (explained.recorded run member tasks listed task inTasks (.inl done)))
    | released ends =>
      rcases ends with ⟨was, _⟩ | rfl
      · exact .inl (settledIn_kept kept (explained.recorded run member tasks listed task inTasks was))
      · simp [Task.isOver] at isOver
    | _ => simp [Task.isOver] at isOver
  refine ⟨?_, ?_, ?_, ?_, ?_⟩
  · intro id last held
    have before : world.leases.cell id = some (.lease, last) → (∀ hold ∈ world.holds,
        hold.task = id → hold ∈ after.holds) → SettledIn after.outcomes id ∨
        ∃ hold ∈ after.holds, hold.task = id ∧
          last = IdempotencyGuard.expiry hold.at' leaseTtlSeconds := by
      intro was remain
      rcases explained.lease id last was with settled | ⟨hold, holds, same, ends⟩
      · exact .inl (settledIn_kept kept settled)
      · exact .inr ⟨hold, remain hold holds same, same, ends⟩
    cases effect with
    | acquired fresh leases holds =>
      rw [leases, ExpiringStore.set_cell] at held
      split at held
      next same =>
        obtain ⟨_, rfl⟩ := Prod.mk.inj (Option.some.inj held)
        exact .inr ⟨⟨task.id, world.now, index⟩, holds ▸ List.mem_cons_self, same.symm, rfl⟩
      next => exact before held fun hold holds' _ => holds ▸ List.mem_cons_of_mem _ holds'
    | upgraded done ends leases holds =>
      rw [leases, ExpiringStore.set_cell] at held
      split at held
      next => cases (Prod.mk.inj (Option.some.inj held)).1
      next => exact before held fun hold holds' _ => holds ▸ holds'
    | released ends leases holds =>
      rw [leases, ExpiringStore.del_cell] at held
      split at held
      next => cases held
      next apart =>
        refine before held fun hold holds' same => ?_
        rw [holds]
        exact List.mem_filter.mpr ⟨holds', by simp [same, apart]⟩
    | recorded record leases holds => exact before (leases ▸ held) fun hold holds' _ => holds ▸ holds'
    | handed fresh leases holds => exact before (leases ▸ held) fun hold holds' _ => holds ▸ holds'
    | refused asks fresh mark ends was inTime leases holds =>
      exact before (leases ▸ held) fun hold holds' _ => holds ▸ holds'
    | thrown leases holds => exact before (leases ▸ held) fun hold holds' _ => holds ▸ holds'
  · intro id last held
    have before : world.leases.cell id = some (.processed, last) → SettledIn after.outcomes id :=
      fun was => settledIn_kept kept (explained.processed id last was)
    cases effect with
    | acquired fresh leases holds =>
      rw [leases, ExpiringStore.set_cell] at held
      split at held
      next => cases (Prod.mk.inj (Option.some.inj held)).1
      next => exact before held
    | upgraded done ends leases holds =>
      rw [leases, ExpiringStore.set_cell] at held
      split at held
      next same =>
        rw [same]
        exact settledIn_kept kept
          (explained.recorded run member tasks listed task inTasks (.inl done))
      next => exact before held
    | released ends leases holds =>
      rw [leases, ExpiringStore.del_cell] at held
      split at held
      next => cases held
      next => exact before held
    | recorded record leases holds => exact before (leases ▸ held)
    | handed fresh leases holds => exact before (leases ▸ held)
    | refused asks fresh mark ends was inTime leases holds => exact before (leases ▸ held)
    | thrown leases holds => exact before (leases ▸ held)
  · intro hold held
    cases effect with
    | acquired fresh leases holds =>
      rw [holds] at held
      rcases List.mem_cons.mp held with rfl | old
      · refine .inr ⟨{ run with tasks := some (tasks.set position { task with phase := .leased }) },
          ?_, _, rfl, ?_⟩
        · rw [runs]
          exact (row_set present).mpr (.inl ⟨rfl, rfl⟩)
        · exact ⟨_, List.mem_of_getElem? ((row_set placed).mpr (.inl ⟨rfl, rfl⟩)), rfl, .inl rfl⟩
      · exact stuckKept hold old
    | released ends leases holds =>
      rw [holds] at held
      exact stuckKept hold (List.mem_filter.mp held).1
    | recorded record leases holds => exact stuckKept hold (holds ▸ held)
    | handed fresh leases holds => exact stuckKept hold (holds ▸ held)
    | upgraded done ends leases holds => exact stuckKept hold (holds ▸ held)
    | refused asks fresh mark ends was inTime leases holds => exact stuckKept hold (holds ▸ held)
    | thrown leases holds => exact stuckKept hold (holds ▸ held)
  · rw [runs]
    refine all_set (fun other isRun known listedToo some inKnown phase =>
      settledIn_kept kept (explained.recorded other isRun known listedToo some inKnown phase)) ?_
    intro known listedToo
    obtain rfl := Option.some.inj listedToo
    exact all_set (fun other isTask phase =>
      settledIn_kept kept (explained.recorded run member tasks listed other isTask phase)) settledPhase
  · rw [runs]
    refine all_set (fun other isRun known listedToo some inKnown isOver => ?_) ?_
    · rcases explained.back other isRun known listedToo some inKnown isOver with settled | stuck
      · exact .inl (settledIn_kept kept settled)
      · exact .inr stuck
    intro known listedToo
    obtain rfl := Option.some.inj listedToo
    have still : ∀ id, SettledIn after.outcomes id ∨ UnfinishedIn tasks id →
        SettledIn after.outcomes id ∨
          UnfinishedIn (tasks.set position { task with phase := phase }) id := by
      intro id either
      rcases either with settled | stuck
      · exact .inl settled
      · exact unfinishedIn_kept placed effect stuck
    refine all_set (fun other isTask isOver => still other.id ?_) fun isOver => still task.id (overPhase isOver)
    rcases explained.back run member tasks listed other isTask isOver with settled | stuck
    · exact .inl (settledIn_kept kept settled)
    · exact .inr stuck

/-- Every step that asks late enough keeps every lease explained. -/
theorem leasesExplained_step {action : Action Message} (formed : WellFormed world)
    (explained : LeasesExplained world) (late : AsksLate world action)
    (taken : step stage world action = some after) : LeasesExplained after := by
  cases step_effect taken with
  | stream action frame =>
    have fresh : ∀ {holds : Run Message → Prop}, (∀ run ∈ world.runs, holds run) →
        (∀ run : Run Message, run.tasks = none → holds run) → ∀ run ∈ after.runs, holds run := by
      intro holds all untouched
      rcases frame.runs with same | ⟨added, ⟨_, none⟩, same⟩
      · exact same ▸ all
      · exact same ▸ all_append all (untouched added none)
    refine ⟨?_, ?_, ?_, ?_, ?_⟩
    · intro id last held
      rw [frame.outcomes, frame.holds]
      rcases frame.leases id with carried | same
      · exact .inl ⟨_, carried, rfl⟩
      · exact explained.lease id last (same ▸ held)
    · intro id last held
      rw [frame.outcomes]
      rcases frame.leases id with carried | same
      · exact ⟨_, carried, rfl⟩
      · exact explained.processed id last (same ▸ held)
    · intro hold held
      rw [frame.outcomes]
      rw [frame.holds] at held
      rcases explained.hold hold held with settled | ⟨run, found, rest⟩
      · exact .inl settled
      · rcases frame.runs with same | ⟨added, _, same⟩
        · exact .inr ⟨run, same ▸ found, rest⟩
        · exact .inr ⟨run, same ▸ row_append.mpr (.inl found), rest⟩
    · rw [frame.outcomes]
      exact fresh explained.recorded fun run none tasks listed => by simp [none] at listed
    · rw [frame.outcomes]
      exact fresh explained.back fun run none tasks listed => by simp [none] at listed
  | @run index run action present frame effect _ =>
    rcases effect.tasks_kept (formed.unresolved run (List.mem_of_getElem? present)) with
      same | ⟨later, runs, tasks⟩
    · have runs : after.runs = world.runs.set index run := by
        obtain ⟨inside, found⟩ := List.getElem?_eq_some_iff.mp present
        rw [same, ← found, List.set_getElem_self]
      exact explained.run_set present frame runs (.inl rfl)
    · exact explained.run_set present frame runs tasks
  | @task index position run tasks task action present listed placed lives frame performed =>
    obtain ⟨phase, runs, effect⟩ := taskStep_effect performed
    exact explained.task_set present listed placed late frame.outcomes runs effect

/-- The first state has no leases and no runs. -/
theorem leasesExplained_start : LeasesExplained ({} : World Message) where
  lease _ _ held := nomatch held
  processed _ _ held := nomatch held
  hold _ held := nomatch held
  recorded _ member := nomatch member
  back _ member := nomatch member

/-- The steps in which checks come late enough and so do requests for leases. -/
def Unraced (stage : Stage Message) (world : World Message) (action : Action Message) : Prop :=
  ChecksLate stage world action ∧ AsksLate world action

instance (stage : Stage Message) (world : World Message) (action : Action Message) :
    Decidable (Unraced stage world action) :=
  inferInstanceAs (Decidable (_ ∧ _))

theorem leasesExplained_reached (run : Reaches (step stage) (Unraced stage) {} world) :
    LeasesExplained world :=
  run.invariant_given (fun _ reached => wellFormed_reached reached) leasesExplained_start
    fun _ _ _ formed explained admitted taken =>
      leasesExplained_step formed explained admitted.2 taken

/-- In every run of the fused pipeline in which checks and requests for leases come late
enough, an inbound entry is acknowledged only with its notifications settled: as
processed its own, as a duplicate those of some run with its key. -/
theorem acknowledged_entries_accounted (IDEMPOTENCY_TTL_SECONDS : Nat) (world : World InboundEvent)
    (run : Reaches (step (enricher IDEMPOTENCY_TTL_SECONDS))
      (Unraced (enricher IDEMPOTENCY_TTL_SECONDS)) {} world) :
    Accounted (enricher IDEMPOTENCY_TTL_SECONDS) world :=
  accounted_of_explained (wellFormed_reached run)
    (marksExplained_reached (run.weaken fun _ _ admitted => admitted.1))
    (leasesExplained_reached run)

/-- The process dies in the middle of a send. The entry is reclaimed after two minutes,
the lease is over, and the second run sends. -/
def sentBySecondRun : List (Action InboundEvent) :=
  [.stream (.append waitedRequest), .stream .read, .run 0 .begin, .run 0 (.resolve ["t".toList]),
    .task 0 0 .handOver, .stream (.tick 1000), .task 0 0 .lease, .run 0 .crash,
    .stream (.tick 120000), .stream (.reclaim 0), .run 1 .begin, .run 1 (.resolve ["t".toList]),
    .task 1 0 .handOver, .task 1 0 .lease, .task 1 0 (.settle .delivered),
    .task 1 0 (.conclude true), .run 1 .mark, .run 1 .ack]

theorem acknowledged_entries_accounted_run : ∃ world,
    Reaches (step (enricher 3600)) (Unraced (enricher 3600)) {} world ∧
      world.outcomes = [("t".toList, .delivered)] ∧ world.pending = [] ∧
        Accounted (enricher 3600) world := by
  have run : Reaches (step (enricher 3600)) (Unraced (enricher 3600)) {} _ :=
    reaches_of_perform sentBySecondRun (by decide +kernel) rfl
  exact ⟨_, run, rfl, rfl, acknowledged_entries_accounted 3600 _ run⟩

/-! ## The lease of a dead holder -/

/-- The process dies in the middle of a send it began five seconds after the start. When
the entry is reclaimed the start mark is over and the lease is not. -/
def leaseOutlivesHolder : List (Action InboundEvent) :=
  [.stream (.append waitedRequest), .stream .read, .run 0 .begin, .run 0 (.resolve ["t".toList]),
    .task 0 0 .handOver, .stream (.tick 5000), .task 0 0 .lease, .run 0 .crash,
    .stream (.tick 55001), .stream (.reclaim 0), .run 1 .begin, .run 1 (.resolve ["t".toList]),
    .task 1 0 .handOver, .task 1 0 .lease, .run 1 .mark, .run 1 .ack]

/-- The second run takes the answer "locked" for success and acknowledges the entry; the
notification has no outcome and no entry carries it. Nor has the one whose reclaimed
entry is skipped for the start mark of a run that died. -/
theorem acknowledged_without_outcome :
    (∃ world, Reaches (step (enricher 3600)) anyStep {} world ∧
      world.pending = [] ∧ world.outcomes = [] ∧ ¬ Accounted (enricher 3600) world) ∧
    (∃ world, Reaches (step (enricher 3600)) anyStep {} world ∧
      world.pending = [] ∧ world.outcomes = [] ∧ ¬ Accounted (enricher 3600) world) := by
  constructor
  · refine ⟨_, reaches_any leaseOutlivesHolder rfl, rfl, rfl, fun accounted => ?_⟩
    obtain ⟨tasks, listed, settled⟩ :=
      (accounted _ (List.mem_cons_of_mem _ List.mem_cons_self)).1 (.inr rfl)
    obtain rfl := Option.some.inj listed
    obtain ⟨_, member, _⟩ := settled _ List.mem_cons_self
    cases member
  · refine ⟨_, reaches_any crashAfterWait rfl, rfl, rfl, fun accounted => ?_⟩
    obtain ⟨other, member, _, tasks, listed, _⟩ :=
      (accounted _ (List.mem_cons_of_mem _ List.mem_cons_self)).2 (.inr rfl) _ rfl
    rcases List.mem_cons.mp member with rfl | later
    · cases listed
    · obtain rfl := List.mem_singleton.mp later
      cases listed

end Notifkit.Pipeline
