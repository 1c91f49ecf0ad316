import Notifkit.Pipeline.Duplicates

/-!
# One publishing run for each caller key and day

A run that publishes does so under a mark: the one set at its start, which lives 60
seconds, and from its end on the one that lives 24 hours. As long as every check of a
key finds the runs of that key that are still going within 60 seconds of their start,
the first mark lasts until the second replaces it, and no two runs of a key publish
within a day of each other. A run that goes on longer than 60 seconds loses its mark,
and a second run of the same key publishes beside it.

Failures and crashes are left out here; they end in a redelivery by design.
-/

namespace Notifkit.Pipeline

open Runs Tables

variable {Message : Type} {stage : Stage Message} {world after : World Message}

/-- The run is under way: it set the mark and has not come back. -/
def Run.active (run : Run Message) : Prop := run.phase = .working ∨ run.phase = .publishing

/-- Nothing fails and nothing dies. -/
def Action.faultless : Action Message → Bool
  | .run _ (.fail _) | .run _ .crash | .task _ _ (.throw _) => false
  | _ => true

instance (run : Run Message) : Decidable run.active := inferInstanceAs (Decidable (_ ∨ _))

/-- A run checks its key only while each run of the key that is under way is within 60
seconds of its start. Other steps are free. -/
def ChecksInTime (stage : Stage Message) (world : World Message) (action : Action Message) : Prop :=
  ∀ run ∈ checkedRun world action, ∀ key ∈ stage.keyOf run, ∀ start ∈ world.starts,
    start.key = key → ∀ other ∈ world.runs[start.run]?, other.active → ¬ start.isOver world.now

instance (stage : Stage Message) (world : World Message) (action : Action Message) :
    Decidable (ChecksInTime stage world action) :=
  inferInstanceAs (Decidable (∀ _ ∈ _, _))

/-- The end of the day that begins at an instant. -/
def dayAfter (instant : Nat) : Nat := IdempotencyGuard.expiry instant CALLER_KEY_TTL_SECONDS

/-- What holds while marks are not lost. `long` tells the messages whose done mark
lives a day. -/
structure Exclusive (stage : Stage Message) (long : Message → Prop) (world : World Message) :
    Prop where
  /-- a run under way has its key marked for as long as its start allows -/
  marked : ∀ (index : Nat) run, world.runs[index]? = some run → run.active →
    ∃ start ∈ world.starts, start.run = index ∧ stage.keyOf run = some start.key ∧
      ∃ mark last, world.marks.cell start.key = some (mark, last) ∧
        IdempotencyGuard.expiry start.at' startTtlSeconds ≤ last
  /-- two runs under way have different keys -/
  single : ∀ (index other : Nat) first second, world.runs[index]? = some first →
    world.runs[other]? = some second → first.active → second.active →
    stage.keyOf first = stage.keyOf second → index = other
  /-- a run under way will mark a long message for a day -/
  lifetime : ∀ run ∈ world.runs, run.active → long run.message →
    CALLER_KEY_TTL_SECONDS ≤ run.doneTtl
  /-- what was published was published by a run that knew its outputs -/
  published : ∀ publication ∈ world.published, publication.at' ≤ world.now ∧
    ∃ run, world.runs[publication.run]? = some run ∧ run.tasks ≠ none
  /-- a day has passed before another run of the key is under way -/
  apart : ∀ publication ∈ world.published, ∀ run, world.runs[publication.run]? = some run →
    long run.message → ∀ (index : Nat) other, world.runs[index]? = some other → other.active →
    stage.keyOf other = stage.keyOf run → index ≠ publication.run →
    dayAfter publication.at' < world.now
  /-- for a day after it came back, a run that published has its key marked -/
  kept : ∀ publication ∈ world.published, ∀ run, world.runs[publication.run]? = some run →
    long run.message → ¬ run.active → ∀ key, stage.keyOf run = some key →
    (∃ mark last, world.marks.cell key = some (mark, last) ∧ dayAfter publication.at' ≤ last) ∨
      dayAfter publication.at' < world.now
  /-- publications of one key by different runs are more than a day apart -/
  spaced : ∀ first ∈ world.published, ∀ second ∈ world.published, first.run ≠ second.run →
    ∀ one two, world.runs[first.run]? = some one → world.runs[second.run]? = some two →
    long one.message → long two.message → stage.keyOf one = stage.keyOf two →
    dayAfter first.at' < second.at' ∨ dayAfter second.at' < first.at'

/-- A later state of a run, as far as these facts go: it keeps its message and what it
published, no run comes to be under way, and none ends that may have published. -/
structure Run.Follows (run later : Run Message) : Prop where
  message : later.message = run.message
  active : later.active → run.active ∧ later.doneTtl = run.doneTtl
  ended : ¬ later.active → ¬ run.active ∨ run.tasks = none
  tasks : run.tasks ≠ none → later.tasks ≠ none

theorem Run.Follows.refl (run : Run Message) : run.Follows run where
  message := rfl
  active under := ⟨under, rfl⟩
  ended isOver := .inl isOver
  tasks known := known

theorem Run.Follows.keyOf {run later : Run Message} (follows : run.Follows later) :
    stage.keyOf later = stage.keyOf run := by
  simp only [Stage.keyOf, follows.message]

/-- The facts survive a step that leaves marks, starts and publications alone and in
which every run follows what it was, or is new and not under way. -/
theorem Exclusive.follow {long : Message → Prop} (exclusive : Exclusive stage long world)
    (clock : world.now ≤ after.now) (marks : after.marks = world.marks)
    (starts : after.starts = world.starts) (published : after.published = world.published)
    (forth : ∀ (index : Nat) run, world.runs[index]? = some run →
      ∃ later, after.runs[index]? = some later ∧ run.Follows later)
    (back : ∀ (index : Nat) later, after.runs[index]? = some later →
      (∃ run, world.runs[index]? = some run ∧ run.Follows later) ∨ ¬ later.active) :
    Exclusive stage long after := by
  -- A run under way was under way; the run behind a publication is the one from before.
  have activeBefore : ∀ (index : Nat) later, after.runs[index]? = some later → later.active →
      ∃ run, world.runs[index]? = some run ∧ run.Follows later ∧ run.active := by
    intro index later found under
    rcases back index later found with ⟨run, present, follows⟩ | idle
    · exact ⟨run, present, follows, (follows.active under).1⟩
    · exact absurd under idle
  have publisher : ∀ publication ∈ world.published, ∀ later,
      after.runs[publication.run]? = some later →
      ∃ run, world.runs[publication.run]? = some run ∧ run.Follows later ∧ run.tasks ≠ none := by
    intro publication member later found
    obtain ⟨_, run, present, known⟩ := exclusive.published publication member
    obtain ⟨same, placed, follows⟩ := forth _ run present
    obtain rfl : same = later := Option.some.inj (placed.symm.trans found)
    exact ⟨run, present, follows, known⟩
  refine ⟨?_, ?_, ?_, ?_, ?_, ?_, ?_⟩
  · intro index later found under
    obtain ⟨run, present, follows, wasUnder⟩ := activeBefore index later found under
    rw [marks, starts, follows.keyOf]
    exact exclusive.marked index run present wasUnder
  · intro index other first second foundFirst foundSecond underFirst underSecond same
    obtain ⟨one, presentOne, followsOne, wasOne⟩ := activeBefore _ _ foundFirst underFirst
    obtain ⟨two, presentTwo, followsTwo, wasTwo⟩ := activeBefore _ _ foundSecond underSecond
    rw [followsOne.keyOf, followsTwo.keyOf] at same
    exact exclusive.single index other one two presentOne presentTwo wasOne wasTwo same
  · intro later member under isLong
    obtain ⟨index, found⟩ := List.mem_iff_getElem?.mp member
    obtain ⟨run, present, follows, wasUnder⟩ := activeBefore index later found under
    rw [(follows.active under).2]
    exact exclusive.lifetime run (List.mem_of_getElem? present) wasUnder (follows.message ▸ isLong)
  · intro publication member
    rw [published] at member
    obtain ⟨before, run, present, known⟩ := exclusive.published publication member
    obtain ⟨later, found, follows⟩ := forth _ run present
    exact ⟨Nat.le_trans before clock, later, found, follows.tasks known⟩
  · intro publication member later found isLong index other foundOther under same differs
    rw [published] at member
    obtain ⟨run, present, follows, _⟩ := publisher publication member later found
    obtain ⟨earlier, presentOther, followsOther, wasUnder⟩ :=
      activeBefore index other foundOther under
    rw [follows.keyOf, followsOther.keyOf] at same
    exact Nat.lt_of_lt_of_le
      (exclusive.apart publication member run present (follows.message ▸ isLong) index earlier
        presentOther wasUnder same differs) clock
  · intro publication member later found isLong idle key keyed
    rw [published] at member
    obtain ⟨run, present, follows, known⟩ := publisher publication member later found
    have wasIdle : ¬ run.active := by
      rcases follows.ended idle with was | unknown
      · exact was
      · exact absurd unknown known
    rw [follows.keyOf] at keyed
    rw [marks]
    rcases exclusive.kept publication member run present (follows.message ▸ isLong) wasIdle key
      keyed with held | isOver
    · exact .inl held
    · exact .inr (Nat.lt_of_lt_of_le isOver clock)
  · intro first memberFirst second memberSecond differs one two foundOne foundTwo longOne longTwo
      same
    rw [published] at memberFirst memberSecond
    obtain ⟨runOne, presentOne, followsOne, _⟩ := publisher first memberFirst one foundOne
    obtain ⟨runTwo, presentTwo, followsTwo, _⟩ := publisher second memberSecond two foundTwo
    rw [followsOne.keyOf, followsTwo.keyOf] at same
    exact exclusive.spaced first memberFirst second memberSecond differs runOne runTwo presentOne
      presentTwo (followsOne.message ▸ longOne) (followsTwo.message ▸ longTwo) same

/-- A run under way may publish: whoever published under its key before did so more
than a day ago. -/
theorem Exclusive.publish {long : Message → Prop} (exclusive : Exclusive stage long world)
    {index : Nat} {run : Run Message} (present : world.runs[index]? = some run)
    (under : run.active) (known : run.tasks ≠ none) :
    Exclusive stage long { world with published := ⟨index, world.now⟩ :: world.published } := by
  refine ⟨exclusive.marked, exclusive.single, exclusive.lifetime, ?_, ?_, ?_, ?_⟩
  · intro publication member
    rcases List.mem_cons.mp member with rfl | old
    · exact ⟨Nat.le_refl _, run, present, known⟩
    · exact exclusive.published publication old
  · intro publication member other found isLong position second placed alive same differs
    rcases List.mem_cons.mp member with rfl | old
    · obtain rfl : run = other := Option.some.inj (present.symm.trans found)
      exact absurd (exclusive.single position index second run placed present alive under same)
        differs
    · exact exclusive.apart publication old other found isLong position second placed alive same
        differs
  · intro publication member other found isLong idle key keyed
    rcases List.mem_cons.mp member with rfl | old
    · obtain rfl : run = other := Option.some.inj (present.symm.trans found)
      exact absurd under idle
    · exact exclusive.kept publication old other found isLong idle key keyed
  · intro first memberFirst second memberSecond differs one two foundOne foundTwo longOne longTwo
      same
    rcases List.mem_cons.mp memberFirst with rfl | oldFirst
    · rcases List.mem_cons.mp memberSecond with rfl | oldSecond
      · exact absurd rfl differs
      · right
        exact exclusive.apart second oldSecond two foundTwo longTwo index one foundOne
          (Option.some.inj (present.symm.trans foundOne) ▸ under) same differs
    · rcases List.mem_cons.mp memberSecond with rfl | oldSecond
      · left
        exact exclusive.apart first oldFirst one foundOne longOne index two foundTwo
          (Option.some.inj (present.symm.trans foundTwo) ▸ under) same.symm (Ne.symm differs)
      · exact exclusive.spaced first oldFirst second oldSecond differs one two foundOne foundTwo
          longOne longTwo same

/-- When a run starts, whoever published under its key did so more than a day ago and
nobody else is under way with it. -/
theorem Exclusive.start {long : Message → Prop} (exclusive : Exclusive stage long world)
    (lasting : ∀ message now, long message →
      CALLER_KEY_TTL_SECONDS ≤ stage.doneTtlSeconds message now)
    {index : Nat} {run : Run Message} {key : Text} (present : world.runs[index]? = some run)
    (keyed : stage.keyOf run = some key) (unresolved : run.tasks = none)
    (unseen : ∀ mark last, world.marks.cell key = some (mark, last) → last < world.now)
    (inTime : ∀ start ∈ world.starts, start.key = key → ∀ other,
      world.runs[start.run]? = some other → other.active → ¬ start.isOver world.now)
    (clock : after.now = world.now) (published : after.published = world.published)
    (runs : after.runs = world.runs.set index
      { run with phase := .working, doneTtl := stage.doneTtlSeconds run.message world.now })
    (marks : after.marks = world.marks.set key .processed
      (IdempotencyGuard.expiry world.now startTtlSeconds))
    (starts : after.starts = ⟨key, world.now, index⟩ :: world.starts) :
    Exclusive stage long after := by
  have free : ∀ (position : Nat) other, world.runs[position]? = some other → other.active →
      stage.keyOf other ≠ some key := by
    intro position other found under same
    obtain ⟨start, member, isRun, isKey, mark, last, held, covers⟩ :=
      exclusive.marked position other found under
    obtain rfl : start.key = key := Option.some.inj (isKey.symm.trans same)
    have notOver := inTime start member rfl other (isRun ▸ found) under
    have lapsed := unseen mark last held
    unfold Start.isOver at notOver
    omega
  have rows : ∀ (position : Nat) later, after.runs[position]? = some later →
      position = index ∧ later = { run with
        phase := .working, doneTtl := stage.doneTtlSeconds run.message world.now } ∨
      position ≠ index ∧ world.runs[position]? = some later := by
    intro position later found
    rw [runs] at found
    exact (row_set present).mp found
  -- The run that starts has published nothing: its outputs are not known.
  have publisher : ∀ publication ∈ world.published, publication.run ≠ index := by
    intro publication member same
    obtain ⟨_, other, found, known⟩ := exclusive.published publication member
    rw [same] at found
    obtain rfl : run = other := Option.some.inj (present.symm.trans found)
    exact known unresolved
  have other : ∀ publication ∈ world.published, ∀ later,
      after.runs[publication.run]? = some later → world.runs[publication.run]? = some later := by
    intro publication member later found
    rcases rows _ later found with ⟨same, _⟩ | ⟨_, found⟩
    · exact absurd same (publisher publication member)
    · exact found
  refine ⟨?_, ?_, ?_, ?_, ?_, ?_, ?_⟩
  · intro position later found under
    rw [starts, marks]
    rcases rows position later found with ⟨rfl, rfl⟩ | ⟨_, found⟩
    · refine ⟨_, List.mem_cons_self, rfl, keyed, .processed, _, ?_, Nat.le_refl _⟩
      simp
    · obtain ⟨start, member, isRun, isKey, mark, last, held, covers⟩ :=
        exclusive.marked position later found under
      have apart : start.key ≠ key := fun same => free position later found under (same ▸ isKey)
      exact ⟨start, List.mem_cons_of_mem _ member, isRun, isKey, mark, last, by simp [apart, held],
        covers⟩
  · intro position second first later foundFirst foundSecond underFirst underSecond same
    rcases rows position first foundFirst with ⟨rfl, rfl⟩ | ⟨_, wasFirst⟩
    · rcases rows second later foundSecond with ⟨rfl, _⟩ | ⟨_, wasSecond⟩
      · rfl
      · exact absurd (same.symm.trans keyed) (free second later wasSecond underSecond)
    · rcases rows second later foundSecond with ⟨rfl, rfl⟩ | ⟨_, wasSecond⟩
      · exact absurd (same.trans keyed) (free position first wasFirst underFirst)
      · exact exclusive.single position second first later wasFirst wasSecond underFirst underSecond
          same
  · intro later member under isLong
    rw [runs] at member
    rcases List.mem_or_eq_of_mem_set member with old | rfl
    · exact exclusive.lifetime later old under isLong
    · exact lasting run.message world.now isLong
  · intro publication member
    rw [published] at member
    obtain ⟨before, one, found, known⟩ := exclusive.published publication member
    refine ⟨clock ▸ before, one, ?_, known⟩
    rw [runs]
    exact (row_set present).mpr (.inr ⟨publisher publication member, found⟩)
  · intro publication member one found isLong position later placed under same differs
    rw [published] at member
    rw [clock]
    have was := other publication member one found
    rcases rows position later placed with ⟨rfl, rfl⟩ | ⟨_, wasLater⟩
    · have keyOne : stage.keyOf one = some key := same.symm.trans keyed
      have idle : ¬ one.active := fun under => free _ one was under keyOne
      rcases exclusive.kept publication member one was isLong idle key keyOne with
        ⟨mark, last, held, covers⟩ | isOver
      · exact Nat.lt_of_le_of_lt covers (unseen mark last held)
      · exact isOver
    · exact exclusive.apart publication member one was isLong position later wasLater under same
        differs
  · intro publication member one found isLong idle held keyOne
    rw [published] at member
    rw [clock, marks]
    have was := other publication member one found
    rcases exclusive.kept publication member one was isLong idle held keyOne with
      ⟨mark, last, marked, covers⟩ | isOver
    · by_cases same : held = key
      · exact .inr (Nat.lt_of_le_of_lt covers (unseen mark last (same ▸ marked)))
      · exact .inl ⟨mark, last, by simp [same, marked], covers⟩
    · exact .inr isOver
  · intro first memberFirst second memberSecond differs one two foundOne foundTwo longOne longTwo
      same
    rw [published] at memberFirst memberSecond
    exact exclusive.spaced first memberFirst second memberSecond differs one two
      (other first memberFirst one foundOne) (other second memberSecond two foundTwo) longOne longTwo
      same

/-- When a run comes back its mark is replaced by one that lasts a day. -/
theorem Exclusive.finish {long : Message → Prop} (exclusive : Exclusive stage long world)
    {index : Nat} {run : Run Message} (present : world.runs[index]? = some run)
    (under : run.active) (clock : after.now = world.now) (published : after.published = world.published)
    (runs : after.runs = world.runs.set index { run with phase := .done })
    (marks : after.marks = (markRun stage world run).marks) (starts : after.starts = world.starts) :
    Exclusive stage long after := by
  obtain ⟨own, _, _, keyed, _⟩ := exclusive.marked index run present under
  have written : after.marks = world.marks.set own.key .processed
      (IdempotencyGuard.expiry world.now run.doneTtl) := by
    rw [marks]
    simp only [markRun, keyed, IdempotencyGuard.markProcessed]
  have idleNow : ¬ Run.active { run with phase := .done } := by simp [Run.active]
  have rows : ∀ (position : Nat) later, after.runs[position]? = some later →
      position = index ∧ later = { run with phase := .done } ∨
      position ≠ index ∧ world.runs[position]? = some later := by
    intro position later found
    rw [runs] at found
    exact (row_set present).mp found
  -- The run behind a publication has the message it had.
  have publisher : ∀ publication ∈ world.published, ∀ later,
      after.runs[publication.run]? = some later → ∃ before,
        world.runs[publication.run]? = some before ∧ later.message = before.message := by
    intro publication _ later found
    rcases rows _ later found with ⟨same, rfl⟩ | ⟨_, found⟩
    · exact ⟨run, same ▸ present, rfl⟩
    · exact ⟨later, found, rfl⟩
  have alive : ∀ (position : Nat) later, after.runs[position]? = some later → later.active →
      position ≠ index ∧ world.runs[position]? = some later := by
    intro position later found stillUnder
    rcases rows position later found with ⟨_, rfl⟩ | other
    · exact absurd stillUnder idleNow
    · exact other
  refine ⟨?_, ?_, ?_, ?_, ?_, ?_, ?_⟩
  · intro position later found stillUnder
    obtain ⟨differs, was⟩ := alive position later found stillUnder
    obtain ⟨start, member, isRun, isKey, mark, last, held, covers⟩ :=
      exclusive.marked position later was stillUnder
    have apart : start.key ≠ own.key := fun same =>
      differs (exclusive.single position index later run was present stillUnder under
        (isKey.trans (same ▸ keyed.symm)))
    rw [written, starts]
    exact ⟨start, member, isRun, isKey, mark, last, by simp [apart, held], covers⟩
  · intro position second first later foundFirst foundSecond underFirst underSecond same
    exact exclusive.single position second first later (alive _ _ foundFirst underFirst).2
      (alive _ _ foundSecond underSecond).2 underFirst underSecond same
  · intro later member stillUnder isLong
    rw [runs] at member
    rcases List.mem_or_eq_of_mem_set member with old | rfl
    · exact exclusive.lifetime later old stillUnder isLong
    · exact absurd stillUnder idleNow
  · intro publication member
    rw [published] at member
    obtain ⟨before, known⟩ := exclusive.published publication member
    rw [clock, runs]
    exact ⟨before, at_set present (fun resolved => resolved) known⟩
  · intro publication member one found isLong position later placed stillUnder same differs
    rw [published] at member
    rw [clock]
    obtain ⟨before, was, message⟩ := publisher publication member one found
    have sameKey : stage.keyOf later = stage.keyOf before := by
      simpa only [Stage.keyOf, message] using same
    exact exclusive.apart publication member before was (message ▸ isLong) position later
      (alive _ _ placed stillUnder).2 stillUnder sameKey differs
  · intro publication member one found isLong idle key keyOne
    rw [published] at member
    rw [clock, written]
    obtain ⟨notLater, _⟩ := exclusive.published publication member
    rcases rows _ one found with ⟨same, rfl⟩ | ⟨differs, was⟩
    · left
      obtain rfl : own.key = key := Option.some.inj (keyed.symm.trans keyOne)
      have lives := exclusive.lifetime run (List.mem_of_getElem? present) under isLong
      refine ⟨.processed, IdempotencyGuard.expiry world.now run.doneTtl, by simp, ?_⟩
      unfold dayAfter IdempotencyGuard.expiry
      omega
    · by_cases same : key = own.key
      · right
        exact exclusive.apart publication member one was isLong index run present under
          (keyed.trans (same ▸ keyOne.symm)) (Ne.symm differs)
      · rcases exclusive.kept publication member one was isLong idle key keyOne with
          ⟨mark, last, held, covers⟩ | isOver
        · exact .inl ⟨mark, last, by simp [same, held], covers⟩
        · exact .inr isOver
  · intro first memberFirst second memberSecond differs one two foundOne foundTwo longOne longTwo
      same
    rw [published] at memberFirst memberSecond
    obtain ⟨runOne, wasOne, messageOne⟩ := publisher first memberFirst one foundOne
    obtain ⟨runTwo, wasTwo, messageTwo⟩ := publisher second memberSecond two foundTwo
    have sameKey : stage.keyOf runOne = stage.keyOf runTwo := by
      simpa only [Stage.keyOf, messageOne, messageTwo] using same
    exact exclusive.spaced first memberFirst second memberSecond differs runOne runTwo wasOne wasTwo
      (messageOne ▸ longOne) (messageTwo ▸ longTwo) sameKey

/-- A run follows itself through a quiet move, unless it fails or its process dies. -/
theorem QuietMove.follows {index : Nat} {run later : Run Message} {action : RunAction}
    (move : QuietMove stage run action later)
    (unresolved : run.phase = .waiting ∨ run.phase = .working → run.tasks = none)
    (faultless : Action.faultless (.run index action : Action Message) = true) : run.Follows later := by
  cases move with
  | deadLetter waits =>
    exact ⟨rfl, by simp [Run.active], fun _ => .inl (by simp [Run.active, waits]), fun known => known⟩
  | refuse waits unkeyed =>
    exact ⟨rfl, by simp [Run.active], fun _ => .inl (by simp [Run.active, waits]), fun known => known⟩
  | leave works =>
    exact ⟨rfl, by simp [Run.active], fun _ => .inr (unresolved (.inr works)), by simp⟩
  | resolve works ids =>
    exact ⟨rfl, fun _ => ⟨.inl works, rfl⟩, fun idle => absurd (.inr rfl) idle, by simp⟩
  | fail works => cases faultless
  | crash lives => cases faultless
  | ack reason due =>
    refine ⟨rfl, by simp [Run.active], fun _ => .inl ?_, fun known => known⟩
    rintro (works | publishes)
    · simp [works, RunPhase.acknowledgement] at due
    · simp [publishes, RunPhase.acknowledgement] at due

/-- Where one run was replaced by one that follows it, every run follows what it was. -/
theorem follows_set {index : Nat} {run later : Run Message} (present : world.runs[index]? = some run)
    (follows : run.Follows later) (runs : after.runs = world.runs.set index later) :
    (∀ (position : Nat) other, world.runs[position]? = some other →
      ∃ next, after.runs[position]? = some next ∧ other.Follows next) ∧
    ∀ (position : Nat) next, after.runs[position]? = some next →
      (∃ other, world.runs[position]? = some other ∧ other.Follows next) ∨ ¬ next.active := by
  rw [runs]
  constructor
  · intro position other found
    by_cases same : position = index
    · subst same
      obtain rfl : run = other := Option.some.inj (present.symm.trans found)
      exact ⟨later, (row_set present).mpr (.inl ⟨rfl, rfl⟩), follows⟩
    · exact ⟨other, (row_set present).mpr (.inr ⟨same, found⟩), .refl other⟩
  · intro position next found
    left
    rcases (row_set present).mp found with ⟨rfl, rfl⟩ | ⟨_, was⟩
    · exact ⟨run, present, follows⟩
    · exact ⟨next, was, .refl next⟩

/-- Steps without faults whose checks come in time keep marks from being lost. -/
theorem exclusive_step {long : Message → Prop} {action : Action Message}
    (lasting : ∀ message now, long message →
      CALLER_KEY_TTL_SECONDS ≤ stage.doneTtlSeconds message now)
    (formed : WellFormed world) (exclusive : Exclusive stage long world)
    (faultless : action.faultless = true) (inTime : ChecksInTime stage world action)
    (taken : step stage world action = some after) : Exclusive stage long after := by
  cases step_effect taken with
  | stream action frame =>
    refine exclusive.follow frame.clock frame.marks frame.starts frame.published ?_ ?_
    · intro index run present
      rcases frame.runs with same | ⟨added, _, same⟩
      · exact ⟨run, same ▸ present, .refl run⟩
      · exact ⟨run, same ▸ row_append.mpr (.inl present), .refl run⟩
    · intro index later found
      rcases frame.runs with same | ⟨added, ⟨waits, _⟩, same⟩
      · exact .inl ⟨later, same ▸ found, .refl later⟩
      · rw [same] at found
        rcases row_append.mp found with old | ⟨_, rfl⟩
        · exact .inl ⟨later, old, .refl later⟩
        · exact .inr (by simp [Run.active, waits])
  | @run index run action present frame effect performed =>
    have unresolved := formed.unresolved run (List.mem_of_getElem? present)
    have clock : world.now ≤ after.now := Nat.le_of_eq frame.clock.symm
    cases effect with
    | touched runs marks starts =>
      exact exclusive.follow clock marks starts frame.published
        (fun index run found => ⟨run, runs ▸ found, .refl run⟩)
        (fun index later found => .inl ⟨later, runs ▸ found, .refl later⟩)
    | moved later move runs marks starts =>
      obtain ⟨forth, back⟩ := follows_set present (move.follows unresolved faultless) runs
      exact exclusive.follow clock marks starts frame.published forth back
    | skipped checks key keyed waits seen runs marks starts =>
      have follows : run.Follows { run with phase := .skipped } :=
        ⟨rfl, by simp [Run.active], fun _ => .inl (by simp [Run.active, waits]), fun known => known⟩
      obtain ⟨forth, back⟩ := follows_set present follows runs
      exact exclusive.follow clock marks starts frame.published forth back
    | started checks key keyed waits unseen runs marks starts =>
      subst checks
      exact exclusive.start lasting present keyed (unresolved (.inl waits)) unseen
        (inTime run present key keyed) frame.clock frame.published runs marks starts
    | finished publishes complete runs marks starts =>
      exact exclusive.finish present (.inr publishes) frame.clock frame.published runs marks starts
    | released fails works runs marks starts =>
      subst fails
      cases faultless
  | @task index position run tasks task action present listed placed lives frame _ =>
    obtain ⟨phase, _, runs⟩ := frame.runs
    have follows : run.Follows
        { run with tasks := some (tasks.set position { task with phase := phase }) } :=
      ⟨rfl, fun under => ⟨under, rfl⟩, fun idle => .inl idle, by simp⟩
    obtain ⟨forth, back⟩ := follows_set present follows runs
    have clock : world.now ≤ after.now := Nat.le_of_eq frame.clock.symm
    rcases frame.published with same | ⟨publishes, more⟩
    · exact exclusive.follow clock frame.marks frame.starts same forth back
    · have known : run.tasks ≠ none := by simp [listed]
      exact (exclusive.publish present (.inr publishes) known).follow clock frame.marks frame.starts
        more forth back

/-- The first state has nothing to lose. -/
theorem exclusive_start {long : Message → Prop} : Exclusive stage long {} where
  marked _ _ found := nomatch found
  single _ _ _ _ found := nomatch found
  lifetime _ member := nomatch member
  published _ member := nomatch member
  apart _ member := nomatch member
  kept _ member := nomatch member
  spaced _ member := nomatch member

/-- The steps of a run without faults in which no check of a key comes more than 60
seconds after the start of a run of that key still under way. -/
def Unhurried (stage : Stage Message) (world : World Message) (action : Action Message) : Prop :=
  action.faultless = true ∧ ChecksInTime stage world action

instance (stage : Stage Message) (world : World Message) (action : Action Message) :
    Decidable (Unhurried stage world action) :=
  inferInstanceAs (Decidable (_ ∧ _))

theorem exclusive_reached {long : Message → Prop}
    (lasting : ∀ message now, long message →
      CALLER_KEY_TTL_SECONDS ≤ stage.doneTtlSeconds message now)
    (run : Reaches (step stage) (Unhurried stage) {} world) : Exclusive stage long world :=
  run.invariant_given (fun _ reached => wellFormed_reached reached) exclusive_start
    fun _ _ _ formed exclusive admitted taken =>
      exclusive_step lasting formed exclusive admitted.1 admitted.2 taken

/-- Different runs of one caller key publish more than a day apart. -/
def OncePerDay (projectId idempotencyKey : Text) (world : World InboundEvent) : Prop :=
  ∀ first ∈ world.published, ∀ second ∈ world.published, first.run ≠ second.run →
    ∀ one two, world.runs[first.run]? = some one → world.runs[second.run]? = some two →
    one.message.payload = .requested projectId (some idempotencyKey) →
    two.message.payload = .requested projectId (some idempotencyKey) →
    dayAfter first.at' < second.at' ∨ dayAfter second.at' < first.at'

/-- In every run of the enricher whose checks come in time, the runs of a caller key
publish once a day. The empty key is held only for the configured time, so there that
time must be a day. -/
theorem caller_key_publishes_once_per_day (IDEMPOTENCY_TTL_SECONDS : Nat)
    (projectId idempotencyKey : Text)
    (held : idempotencyKey ≠ [] ∨ CALLER_KEY_TTL_SECONDS ≤ IDEMPOTENCY_TTL_SECONDS)
    (world : World InboundEvent)
    (run : Reaches (step (enricher IDEMPOTENCY_TTL_SECONDS))
      (Unhurried (enricher IDEMPOTENCY_TTL_SECONDS)) {} world) :
    OncePerDay projectId idempotencyKey world := by
  have lasting : ∀ (message : InboundEvent) (now : Nat),
      message.payload = .requested projectId (some idempotencyKey) →
      CALLER_KEY_TTL_SECONDS ≤ (enricher IDEMPOTENCY_TTL_SECONDS).doneTtlSeconds message now := by
    intro message now asked
    simp only [enricher, asked, dedupeTtl]
    cases idempotencyKey with
    | nil =>
      rcases held with nonempty | configured
      · exact absurd rfl nonempty
      · exact configured
    | cons first rest => exact Nat.le_refl _
  have exclusive := exclusive_reached lasting run
  intro first memberFirst second memberSecond differs one two foundOne foundTwo askedOne askedTwo
  refine exclusive.spaced first memberFirst second memberSecond differs one two foundOne foundTwo
    askedOne askedTwo ?_
  simp only [Stage.keyOf, enricher, askedOne, askedTwo, dedupeId, Option.getD_some]

/-- Two requests with one caller key. -/
def firstRequest : InboundEvent := ⟨"a".toList, .requested "p".toList (some "k".toList)⟩

def secondRequest : InboundEvent := ⟨"b".toList, .requested "p".toList (some "k".toList)⟩

/-- Both requests are read; the first publishes and is done before the second checks. -/
def oneAfterTheOther : List (Action InboundEvent) :=
  [.stream (.append firstRequest), .stream (.append secondRequest), .stream .read, .stream .read,
    .run 0 .begin, .run 0 (.resolve ["t".toList]), .task 0 0 .publish, .run 0 .mark, .run 1 .begin]

theorem caller_key_publishes_once_per_day_run : ∃ world,
    Reaches (step (enricher 3600)) (Unhurried (enricher 3600)) {} world ∧
      world.published.length = 1 ∧ OncePerDay "p".toList "k".toList world := by
  have run : Reaches (step (enricher 3600)) (Unhurried (enricher 3600)) {} _ :=
    reaches_of_perform oneAfterTheOther (by decide +kernel) rfl
  exact ⟨_, run, rfl, caller_key_publishes_once_per_day 3600 _ _ (.inl (by decide)) _ run⟩

/-- The first run is still under way when its mark is over, so the second does not find
it. -/
def oneBesideTheOther : List (Action InboundEvent) :=
  [.stream (.append firstRequest), .stream (.append secondRequest), .stream .read, .stream .read,
    .run 0 .begin, .run 0 (.resolve ["t".toList]), .stream (.tick 60001), .task 0 0 .publish,
    .run 1 .begin, .run 1 (.resolve ["u".toList]), .task 1 0 .publish]

/-- Nothing fails and nothing dies, yet two runs of one caller key publish within the
same minute. -/
theorem slow_run_loses_its_mark : ∃ world,
    Reaches (step (enricher 3600)) (fun _ action => action.faultless = true) {} world ∧
      ¬ OncePerDay "p".toList "k".toList world := by
  have run : Reaches (step (enricher 3600)) (fun _ action => action.faultless = true) {} _ :=
    reaches_of_perform oneBesideTheOther (by decide +kernel) rfl
  refine ⟨_, run, fun once => ?_⟩
  have spaced := once ⟨0, 60001⟩ (List.mem_cons_of_mem _ List.mem_cons_self) ⟨1, 60001⟩
    List.mem_cons_self (by decide) _ _ rfl rfl rfl rfl
  revert spaced
  decide

end Notifkit.Pipeline
