import Notifkit.Pipeline.Frames

/-!
# What stands behind an acknowledged duplicate

A check that finds a mark acknowledges the message as a duplicate, whether the mark
says "done" or only "started": both are the same value. Every mark is followed back
here to the run that set it. Either a run with the key completed, or the mark was set
at a start and dies 60 seconds after it.

So a duplicate stands for completed work in every run in which no check comes within
60 seconds of a start that is still unaccounted for. The idle time that lets an
entry be reclaimed does not ensure this: it counts from the read, not from the start.
-/

namespace Notifkit.Pipeline

open Runs Tables

variable {Message : Type} {stage : Stage Message} {world after : World Message}

/-- The run found a mark: it is, or is to be, acknowledged as a duplicate. -/
def Run.duplicate (run : Run Message) : Prop :=
  run.phase = .skipped ∨ run.phase = .acked .duplicate

/-- Whatever was found a duplicate, some run with its key had completed its work. -/
def DuplicatesCompleted (stage : Stage Message) (world : World Message) : Prop :=
  ∀ run ∈ world.runs, run.duplicate → ∀ key, stage.keyOf run = some key →
    CompletedFor stage world.runs key

/-- The mark set at a start is over by now. -/
def Start.isOver (start : Start) (now : Nat) : Prop :=
  IdempotencyGuard.expiry start.at' startTtlSeconds < now

instance (start : Start) (now : Nat) : Decidable (start.isOver now) :=
  inferInstanceAs (Decidable (_ < _))

/-- The run whose dedupe check an action is. -/
def checkedRun (world : World Message) : Action Message → Option (Run Message)
  | .run index .begin => world.runs[index]?
  | _ => none

/-- A run may check its key when some run with the key has completed, or when the
marks of all unaccounted starts of the key are over. Other steps are free. -/
def ChecksLate (stage : Stage Message) (world : World Message) (action : Action Message) : Prop :=
  ∀ run ∈ checkedRun world action, ∀ key ∈ stage.keyOf run,
    CompletedFor stage world.runs key ∨
      ∀ start ∈ world.starts, start.key = key → start.isOver world.now

instance (stage : Stage Message) (runs : List (Run Message)) (key : Text) :
    Decidable (CompletedFor stage runs key) :=
  inferInstanceAs (Decidable (∃ _ ∈ _, _))

instance (stage : Stage Message) (world : World Message) (action : Action Message) :
    Decidable (ChecksLate stage world action) :=
  inferInstanceAs (Decidable (∀ _ ∈ _, _))

/-- Every mark is accounted for: its key was completed, or it was set at a start and
lives as long as such a mark does. -/
structure MarksExplained (stage : Stage Message) (world : World Message) : Prop where
  origin : ∀ key mark last, world.marks.cell key = some (mark, last) →
    CompletedFor stage world.runs key ∨ ∃ start ∈ world.starts, start.key = key ∧
      last = IdempotencyGuard.expiry start.at' startTtlSeconds
  duplicates : DuplicatesCompleted stage world

/-- Steps that leave marks and starts alone keep every mark accounted for. -/
theorem origin_kept {action : Action Message} (formed : WellFormed world)
    (taken : step stage world action = some after) (explained : MarksExplained stage world)
    (marks : after.marks = world.marks) (starts : after.starts = world.starts) :
    ∀ key mark last, after.marks.cell key = some (mark, last) →
      CompletedFor stage after.runs key ∨ ∃ start ∈ after.starts, start.key = key ∧
        last = IdempotencyGuard.expiry start.at' startTtlSeconds := by
  intro key mark last held
  rw [marks] at held
  rw [starts]
  rcases explained.origin key mark last held with done | started
  · exact .inl (completedFor_step formed taken done)
  · exact .inr started

/-- A run's step that leaves it no duplicate brings no new duplicate. -/
theorem duplicates_kept {action : Action Message} {index : Nat} {run later : Run Message}
    (formed : WellFormed world) (taken : step stage world action = some after)
    (covered : DuplicatesCompleted stage world) (present : world.runs[index]? = some run)
    (runs : after.runs = world.runs.set index later) (message : later.message = run.message)
    (same : later.duplicate → run.duplicate) : DuplicatesCompleted stage after := by
  intro other member duplicate key keyed
  apply completedFor_step formed taken
  rw [runs] at member
  rcases List.mem_or_eq_of_mem_set member with old | rfl
  · exact covered other old duplicate key keyed
  · refine covered run (List.mem_of_getElem? present) (same duplicate) key ?_
    simpa only [Stage.keyOf, message] using keyed

/-- A quiet move makes no duplicate. -/
theorem QuietMove.duplicate_before {run later : Run Message} {action : RunAction}
    (move : QuietMove stage run action later) (duplicate : later.duplicate) : run.duplicate := by
  cases move with
  | ack reason due =>
    simp only [Run.duplicate, reduceCtorEq, RunPhase.acked.injEq, false_or] at duplicate
    subst duplicate
    left
    cases phase : run.phase <;> simp_all [RunPhase.acknowledgement]
  | _ => simp [Run.duplicate] at duplicate

/-- A step whose check comes late enough keeps every mark accounted for. -/
theorem marksExplained_step {action : Action Message} (formed : WellFormed world)
    (explained : MarksExplained stage world) (late : ChecksLate stage world action)
    (taken : step stage world action = some after) : MarksExplained stage after := by
  cases step_effect taken with
  | stream action frame =>
    refine ⟨origin_kept formed taken explained frame.marks frame.starts, ?_⟩
    intro run member duplicate key keyed
    apply completedFor_step formed taken
    rcases frame.runs with same | ⟨added, ⟨waits, _⟩, same⟩
    · exact explained.duplicates run (same ▸ member) duplicate key keyed
    · rw [same] at member
      rcases List.mem_append.mp member with old | new
      · exact explained.duplicates run old duplicate key keyed
      · obtain rfl := List.mem_singleton.mp new
        simp [Run.duplicate, waits] at duplicate
  | @task index position run tasks task action present listed placed lives frame _ =>
    obtain ⟨phase, _, runs⟩ := frame.runs
    exact ⟨origin_kept formed taken explained frame.marks frame.starts,
      duplicates_kept formed taken explained.duplicates present runs rfl fun kept => kept⟩
  | @run index run action present frame effect performed =>
    have noNew : ∀ later : Run Message, after.runs = world.runs.set index later →
        later.message = run.message → (later.duplicate → run.duplicate) →
        DuplicatesCompleted stage after :=
      fun later runs => duplicates_kept formed taken explained.duplicates present runs
    cases effect with
    | touched runs marks starts =>
      refine ⟨origin_kept formed taken explained marks starts, ?_⟩
      intro other member duplicate key keyed
      exact completedFor_step formed taken
        (explained.duplicates other (runs ▸ member) duplicate key keyed)
    | moved later move runs marks starts =>
      exact ⟨origin_kept formed taken explained marks starts,
        noNew later runs move.message_kept move.duplicate_before⟩
    | skipped checks key keyed waits seen runs marks starts =>
      refine ⟨origin_kept formed taken explained marks starts, ?_⟩
      obtain ⟨mark, last, held, inTime⟩ := seen
      -- Only a check finds a mark, and this one found it in time.
      have done : CompletedFor stage world.runs key := by
        subst checks
        rcases late run present key keyed with done | isOver
        · exact done
        · rcases explained.origin key mark last held with done | ⟨start, member, same, rfl⟩
          · exact done
          · have expired := isOver start member same
            unfold Start.isOver at expired
            omega
      intro other member duplicate otherKey otherKeyed
      apply completedFor_step formed taken
      rw [runs] at member
      rcases List.mem_or_eq_of_mem_set member with old | rfl
      · exact explained.duplicates other old duplicate otherKey otherKeyed
      · obtain rfl : key = otherKey := Option.some.inj (keyed.symm.trans otherKeyed)
        exact done
    | started checks key keyed waits unseen runs marks starts =>
      refine ⟨?_, noNew _ runs rfl fun duplicate => by simp [Run.duplicate] at duplicate⟩
      intro other mark last held
      rw [marks, ExpiringStore.set_cell] at held
      rw [starts]
      split at held
      next same =>
        obtain ⟨_, rfl⟩ := Prod.mk.inj (Option.some.inj held)
        exact .inr ⟨_, List.mem_cons_self, same.symm, rfl⟩
      next =>
        rcases explained.origin other mark last held with done | ⟨start, member, same⟩
        · exact .inl (completedFor_step formed taken done)
        · exact .inr ⟨start, List.mem_cons_of_mem _ member, same⟩
    | finished publishes complete runs marks starts =>
      refine ⟨?_, noNew _ runs rfl fun duplicate => by simp [Run.duplicate] at duplicate⟩
      intro other mark last held
      rw [starts]
      have before : world.marks.cell other = some (mark, last) ∨ stage.keyOf run = some other := by
        rw [marks] at held
        unfold markRun at held
        cases keyed : stage.keyOf run with
        | none => exact .inl (by simpa [keyed] using held)
        | some key =>
          by_cases same : other = key
          · exact .inr (congrArg some same.symm)
          · left
            simpa [keyed, IdempotencyGuard.markProcessed, same] using held
      rcases before with held | keyed
      · rcases explained.origin other mark last held with done | started
        · exact .inl (completedFor_step formed taken done)
        · exact .inr started
      · left
        exact completedFor_step formed taken
          ⟨run, List.mem_of_getElem? present, keyed, complete⟩
    | released fails works runs marks starts =>
      refine ⟨?_, noNew _ runs rfl fun duplicate => by simp [Run.duplicate] at duplicate⟩
      intro other mark last held
      rw [marks] at held
      rw [starts]
      unfold unmarkRun at held ⊢
      cases keyed : stage.keyOf run with
      | none =>
        rcases explained.origin other mark last (by simpa [keyed] using held) with done | started
        · exact .inl (completedFor_step formed taken done)
        · exact .inr (by simpa [keyed] using started)
      | some key =>
        have apart : other ≠ key := by
          rintro rfl
          simp [keyed, IdempotencyGuard.unmark] at held
        have before : world.marks.cell other = some (mark, last) := by
          simpa [keyed, IdempotencyGuard.unmark, apart] using held
        rcases explained.origin other mark last before with done | ⟨start, member, same, lifetime⟩
        · exact .inl (completedFor_step formed taken done)
        · right
          exact ⟨start, List.mem_filter.mpr ⟨member, by simp [same, apart]⟩, same, lifetime⟩

/-- The first state has no marks and no runs. -/
theorem marksExplained_start : MarksExplained stage {} :=
  ⟨fun _ _ _ held => (nomatch held), fun _ member => nomatch member⟩

theorem wellFormed_start : WellFormed ({} : World Message) :=
  ⟨fun _ member => (nomatch member), fun _ member => nomatch member⟩

/-- The runs of a stage are well formed in every state it reaches. -/
theorem wellFormed_reached {allowed : World Message → Action Message → Prop}
    (run : Reaches (step stage) allowed {} world) : WellFormed world :=
  run.invariant wellFormed_start fun _ _ _ formed _ taken => wellFormed_step formed taken

/-- Every mark is accounted for in every state reached by checks that come late
enough. -/
theorem marksExplained_reached (run : Reaches (step stage) (ChecksLate stage) {} world) :
    MarksExplained stage world :=
  run.invariant_given (fun _ reached => wellFormed_reached reached) marksExplained_start
    fun _ _ _ formed explained late taken => marksExplained_step formed explained late taken

/-- In every run of the enricher, and in every run of the streamed engine, whose
checks come late enough: whatever was found a duplicate, a run with the same dedupe
key had completed its work before. -/
theorem duplicates_stand_for_completed_work (IDEMPOTENCY_TTL_SECONDS : Nat) :
    (∀ world, Reaches (step (enricher IDEMPOTENCY_TTL_SECONDS))
        (ChecksLate (enricher IDEMPOTENCY_TTL_SECONDS)) {} world →
      DuplicatesCompleted (enricher IDEMPOTENCY_TTL_SECONDS) world) ∧
    (∀ world, Reaches (step (engine IDEMPOTENCY_TTL_SECONDS))
        (ChecksLate (engine IDEMPOTENCY_TTL_SECONDS)) {} world →
      DuplicatesCompleted (engine IDEMPOTENCY_TTL_SECONDS) world) :=
  ⟨fun _ run => (marksExplained_reached run).duplicates,
    fun _ run => (marksExplained_reached run).duplicates⟩

/-- A run completes and its process dies before the acknowledgement; the reclaimed
entry finds the mark of completed work. -/
def crashAfterMark : List (Action InboundEvent) :=
  [.stream (.append ⟨"e".toList, .requested "p".toList none⟩), .stream .read, .run 0 .begin,
    .run 0 (.resolve ["t".toList]), .task 0 0 .publish, .run 0 .mark, .run 0 .crash,
    .stream (.tick 60001), .stream (.reclaim 0), .run 1 .begin]

theorem duplicates_stand_for_completed_work_run : ∃ world,
    Reaches (step (enricher 3600)) (ChecksLate (enricher 3600)) {} world ∧
      (∃ run ∈ world.runs, run.duplicate) ∧ DuplicatesCompleted (enricher 3600) world := by
  have run : Reaches (step (enricher 3600)) (ChecksLate (enricher 3600)) {} _ :=
    reaches_of_perform crashAfterMark (by decide +kernel) rfl
  exact ⟨_, run, ⟨_, List.mem_cons_of_mem _ List.mem_cons_self, .inl rfl⟩,
    (duplicates_stand_for_completed_work 3600).1 _ run⟩

/-! ## The losing window -/

/-- A request read at 0 that waits five seconds for its permit. -/
def waitedRequest : InboundEvent := ⟨"e".toList, .requested "p".toList none⟩

/-- The process dies a second after the start. The entry has been idle for over 60
seconds at 60001, while the mark set at 5000 lives until 65000. -/
def crashAfterWait : List (Action InboundEvent) :=
  [.stream (.append waitedRequest), .stream .read, .stream (.tick 5000), .run 0 .begin,
    .stream (.tick 1000), .run 0 .crash, .stream (.tick 54001), .stream (.reclaim 0),
    .run 1 .begin, .run 1 .ack]

/-- The reclaimed entry is acknowledged as a duplicate of the run that died, and no
run of its key ever completed. -/
theorem started_mark_loses_message : ∃ world, Reaches (step (enricher 3600)) anyStep {} world ∧
    ¬ DuplicatesCompleted (enricher 3600) world := by
  refine ⟨_, reaches_any crashAfterWait rfl, fun covered => ?_⟩
  have found := covered ⟨0, waitedRequest, 2, .acked .duplicate, 0, none⟩
    (List.mem_cons_of_mem _ List.mem_cons_self) (.inr rfl) _ rfl
  obtain ⟨run, member, _, complete⟩ := found
  rcases List.mem_cons.mp member with rfl | later
  · cases complete
  · obtain rfl := List.mem_singleton.mp later
    cases complete

end Notifkit.Pipeline
