import Notifkit.Ai.AiJobs
import Notifkit.Foundations.Runs

/-!
# What is paid for

As long as model calls end by their timeout and workers do the rest within the thirty seconds their
lease has to spare, a worker that has the lease has it to its end. So no two workers ask the model for
the same task at the same time, and each set of calls beyond the first is owed to a worker that
failed or stopped.
-/

namespace Notifkit.Ai

open Runs Tables IdempotencyGuard

/-- The job has its key: it has the lease or has marked the task, and the mark's time is not over. -/
def Job.Owns (now : Nat) (job : Job) : Prop :=
  (job.phase.isActive = true ∨ job.phase = .completed) ∧ now ≤ job.lasts

/-- The schema's default lifetime of a processed mark. -/
theorem hour_long : 60 ≤ 3600 := by decide

/-- Two prompts a message at most. -/
def plainConfig : AiConfig where
  maxPromptsPerNotification := some 2
  ttlBound := hour_long
  toLowerCase := id
  stringOf := id
  standardContent := fun _ => .null

/-- A message with three prompts. -/
def threePrompts : AiPending where
  projectId := "p".toList
  enrichedEventId := "e".toList
  recipientId := "r".toList
  channel := .email
  priority := .normal
  templateVariables := fun _ => .undefined
  aiPrompts := [("a".toList, "x".toList), ("b".toList, "y".toList), ("c".toList, "z".toList)]

/-- The model turns a worker down for now at its second call, while another one looks on. -/
def turnedDown : List Action :=
  [.attempt threePrompts, .tick 1000, .attempt threePrompts, .look 1, .answer 0 "one".toList,
    .refuse 0 (some { statusCode := some 429 }), .unmark 0, .tick 500, .attempt threePrompts]

/-- The next one gets its answers, and the one after it is told so. -/
def allAnswered : List Action :=
  turnedDown ++ [.answer 2 "one".toList, .tick 30000, .answer 2 "two".toList, .handOver 2 none, .mark 2,
    .attempt threePrompts, .look 3]

section Steps

variable {config : AiConfig} {world : World} {phase : Phase} {job : Job}

/-- What a move does to the job's key: nothing to what is there, or it is the job's own then. -/
theorem Move.effect {moved : Job} {marks : Marks} (move : Move config world job moved marks)
    (sound : job.Sound config world.now) : moved.pending = job.pending ∧
    (marks = world.marks ∧
        (moved.Owns world.now → job.Owns world.now ∧ moved.lasts = job.lasts) ∨
      (world.marks.get world.now job.pending.idempotencyKey = none ∨ job.Owns world.now) ∧
        (∀ key, key ≠ job.pending.idempotencyKey → marks.cell key = world.marks.cell key) ∧
        (moved.Owns world.now →
          ∃ mark, marks.cell job.pending.idempotencyKey = some (mark, moved.lasts))) := by
  have goesOn : job.phase.isActive = true → job.Owns world.now := fun isActive =>
    ⟨.inl isActive, sound.lasting isActive⟩
  cases move with
  | waits without still told =>
    refine ⟨rfl, .inl ⟨rfl, fun owns => ?_⟩⟩
    rcases owns.1 with isActive | completed
    · rw [Phase.inactive still] at isActive
      cases isActive
    · obtain rfl : _ = Phase.completed := completed
      cases still
  | asks without =>
    rcases take_spec config world job.pending .turnedAway with ⟨free, took⟩ | took
    · rw [took]
      obtain ⟨_, _, same, lasts⟩ := taken_sound config world.now job.pending
      refine ⟨same, .inr ⟨.inl free, fun key other => if_neg other, fun _ => ⟨.lease, ?_⟩⟩⟩
      rw [ExpiringStore.set_cell, if_pos rfl, lasts]
    · rw [took]
      refine ⟨rfl, .inl ⟨rfl, fun owns => ?_⟩⟩
      rcases owns.1 with isActive | completed
      · cases isActive
      · cases completed
  | answered text generating next =>
    obtain ⟨phase, calls, _, same⟩ := goOn_eq config world.now
      { job with generated := job.generated ++ [(_, text)] }
    rw [same]
    exact ⟨rfl, .inl ⟨rfl, fun _ => ⟨goesOn (by rw [generating]; rfl), rfl⟩⟩⟩
  | refused error generating =>
    exact ⟨rfl, .inl ⟨rfl, fun _ => ⟨goesOn (by rw [generating]; rfl), rfl⟩⟩⟩
  | handsOver dbTemplate handing =>
    exact ⟨rfl, .inl ⟨rfl, fun _ => ⟨goesOn (by rw [handing]; rfl), rfl⟩⟩⟩
  | handOverFails dbTemplate landed handing =>
    exact ⟨rfl, .inl ⟨rfl, fun _ => ⟨goesOn (by rw [handing]; rfl), rfl⟩⟩⟩
  | marks told marking =>
    refine ⟨rfl, .inr ⟨.inr (goesOn (by rw [marking]; rfl)), fun key other => if_neg other,
      fun _ => ⟨.processed, if_pos rfl⟩⟩⟩
  | markFails marking =>
    exact ⟨rfl, .inl ⟨rfl, fun _ => ⟨goesOn (by rw [marking]; rfl), rfl⟩⟩⟩
  | stops isActive => exact ⟨rfl, .inl ⟨rfl, fun _ => ⟨goesOn isActive, rfl⟩⟩⟩
  | unmarks told failing =>
    refine ⟨rfl, .inr ⟨.inr (goesOn (by rw [failing]; rfl)), fun key other => if_neg other,
      fun owns => ?_⟩⟩
    rcases owns.1 with isActive | completed
    · cases isActive
    · cases completed

end Steps

/-- Each job that has its key is the only one, and its mark is there. -/
structure Owned (world : World) : Prop where
  kept : ∀ job ∈ world.jobs, job.Owns world.now →
    ∃ mark, world.marks.cell job.pending.idempotencyKey = some (mark, job.lasts)
  single : ∀ (one two : Nat) (job other : Job), world.jobs[one]? = some job →
    world.jobs[two]? = some other → job.pending.idempotencyKey = other.pending.idempotencyKey →
    job.Owns world.now → other.Owns world.now → one = two

section Owners

variable {config : AiConfig} {world : World} {index : Nat} {job : Job} {jobs : List Job}
  {marks : Marks}

/-- Where a key is free, no job has it. -/
theorem Owned.free (owned : Owned world) {key : Text} (free : world.marks.get world.now key = none)
    (present : job ∈ world.jobs) (same : job.pending.idempotencyKey = key) :
    ¬ job.Owns world.now := by
  intro owns
  obtain ⟨mark, there⟩ := owned.kept job present owns
  rw [same] at there
  exact absurd (ExpiringStore.get_eq_none.mp free mark _ there) (Nat.not_lt.mpr owns.2)

/-- One job is new or changed, the marks of the others are not, and if the job has its key then its
mark is there and none of the others has the key. -/
theorem Owned.change (owned : Owned world)
    (rows : ∀ (place : Nat) (row : Job), jobs[place]? = some row →
      place = index ∧ row = job ∨ place ≠ index ∧ world.jobs[place]? = some row)
    (others : ∀ (place : Nat) (other : Job), place ≠ index → world.jobs[place]? = some other →
      other.Owns world.now →
      marks.cell other.pending.idempotencyKey = world.marks.cell other.pending.idempotencyKey)
    (own : job.Owns world.now →
      (∃ mark, marks.cell job.pending.idempotencyKey = some (mark, job.lasts)) ∧
      ∀ (place : Nat) (other : Job), place ≠ index → world.jobs[place]? = some other →
        other.pending.idempotencyKey = job.pending.idempotencyKey → ¬ other.Owns world.now) :
    Owned { world with marks := marks, jobs := jobs } where
  kept row member owns := by
    obtain ⟨place, found⟩ := List.mem_iff_getElem?.mp member
    rcases rows place row found with ⟨_, rfl⟩ | ⟨differ, before⟩
    · exact (own owns).1
    · rw [others place row differ before owns]
      exact owned.kept row (List.mem_of_getElem? before) owns
  single one two row other foundRow foundOther sameKey ownsRow ownsOther := by
    rcases rows one row foundRow with ⟨rfl, rfl⟩ | ⟨differ, before⟩
    · rcases rows two other foundOther with ⟨rfl, _⟩ | ⟨differ, before⟩
      · rfl
      · exact absurd ownsOther ((own ownsRow).2 two other differ before sameKey.symm)
    · rcases rows two other foundOther with ⟨rfl, rfl⟩ | ⟨_, beforeOther⟩
      · exact absurd ownsRow ((own ownsOther).2 one row differ before sameKey)
      · exact owned.single one two row other before beforeOther sameKey ownsRow ownsOther

/-- The rows of a table where one is changed. -/
theorem rows_set {α : Type} {table : List α} {position : Nat} {old new : α}
    (present : table[position]? = some old) (place : Nat) (row : α)
    (found : (table.set position new)[place]? = some row) :
    place = position ∧ row = new ∨ place ≠ position ∧ table[place]? = some row :=
  (row_set present).mp found

/-- The rows of a table where one is added. -/
theorem rows_append {α : Type} {table : List α} {new : α} (place : Nat) (row : α)
    (found : (table ++ [new])[place]? = some row) :
    place = table.length ∧ row = new ∨ place ≠ table.length ∧ table[place]? = some row := by
  rcases row_append.mp found with before | last
  · exact .inr ⟨(Nat.ne_of_lt (List.getElem?_eq_some_iff.mp before).1), before⟩
  · exact .inl last

/-- A job makes a move. -/
theorem Owned.moved (owned : Owned world) {moved : Job} (found : world.jobs[index]? = some job)
    (sound : job.Sound config world.now) (move : Move config world job moved marks) :
    Owned { world with marks := marks, jobs := world.jobs.set index moved } := by
  have member := List.mem_of_getElem? found
  obtain ⟨same, quiet | ⟨free, elsewhere, own⟩⟩ := move.effect sound
  · obtain ⟨rfl, owning⟩ := quiet
    refine owned.change (rows_set found) (fun _ _ _ _ _ => rfl) fun owns => ?_
    obtain ⟨before, lasts⟩ := owning owns
    rw [same, lasts]
    refine ⟨owned.kept job member before, fun place other differ there sameKey ownsOther => ?_⟩
    exact differ (owned.single place index other job there found sameKey ownsOther before)
  · have alone : ∀ (place : Nat) (other : Job), place ≠ index → world.jobs[place]? = some other →
        other.pending.idempotencyKey = job.pending.idempotencyKey → ¬ other.Owns world.now := by
      intro place other differ there sameKey ownsOther
      rcases free with free | before
      · exact owned.free free (List.mem_of_getElem? there) sameKey ownsOther
      · exact differ (owned.single place index other job there found sameKey ownsOther before)
    refine owned.change (rows_set found) (fun place other differ there ownsOther => ?_) fun owns => ?_
    · exact elsewhere _ fun sameKey => alone place other differ there sameKey ownsOther
    · rw [same]
      exact ⟨own owns, alone⟩

/-- A worker is handed a message. -/
theorem Owned.joined (owned : Owned world) (pending : AiPending) (refused : Phase)
    (idle : refused.hadLease = false) :
    Owned { world with
      marks := (take config world pending refused).2
      jobs := world.jobs ++ [(take config world pending refused).1] } := by
  rcases take_spec config world pending refused with ⟨free, took⟩ | took
  · rw [took]
    obtain ⟨_, _, same, lasts⟩ := taken_sound config world.now pending
    have alone : ∀ (place : Nat) (other : Job), world.jobs[place]? = some other →
        other.pending.idempotencyKey = pending.idempotencyKey → ¬ other.Owns world.now :=
      fun place other there sameKey => owned.free free (List.mem_of_getElem? there) sameKey
    refine owned.change rows_append (fun place other _ there ownsOther => ?_) fun _ => ?_
    · exact if_neg fun sameKey => alone place other there sameKey ownsOther
    · dsimp only
      rw [same, lasts]
      exact ⟨⟨.lease, if_pos rfl⟩, fun place other _ there => alone place other there⟩
  · rw [took]
    refine owned.change rows_append (fun _ _ _ _ _ => rfl) fun owns => ?_
    rcases owns.1 with isActive | completed
    · rw [Phase.inactive idle] at isActive
      cases isActive
    · obtain rfl : refused = .completed := completed
      cases idle

/-- What holds in every state of a timely run. -/
structure Sound (config : AiConfig) (world : World) : Prop where
  jobs : ∀ job ∈ world.jobs, job.Sound config world.now
  owned : Owned world

/-- Time passes in time. -/
theorem Sound.tick (sound : Sound config world) {ms : Nat}
    (timely : Timely config world (.tick ms)) :
    Sound config { world with now := world.now + ms } where
  jobs job member := { sound.jobs job member with
    inTime := timely job member
    past := Nat.le_trans (sound.jobs job member).past (Nat.le_add_right _ _) }
  owned := {
    kept := fun job member owns =>
      sound.owned.kept job member ⟨owns.1, Nat.le_trans (Nat.le_add_right _ _) owns.2⟩
    single := fun one two job other found foundOther sameKey owns ownsOther =>
      sound.owned.single one two job other found foundOther sameKey
        ⟨owns.1, Nat.le_trans (Nat.le_add_right _ _) owns.2⟩
        ⟨ownsOther.1, Nat.le_trans (Nat.le_add_right _ _) ownsOther.2⟩ }

/-- What every step of a timely run keeps. -/
theorem Sound.step {action : Action} {after : World} (sound : Sound config world)
    (timely : Timely config world action) (taken : step config world action = some after) :
    Sound config after := by
  rcases step_cases taken with ⟨ms, rfl, rfl⟩ | ⟨pending, rfl⟩ |
    ⟨index, job, moved, marks, found, move, rfl⟩
  · exact sound.tick timely
  · refine ⟨all_append sound.jobs ?_, sound.owned.joined pending .asked rfl⟩
    rcases take_spec config world pending .asked with ⟨_, took⟩ | took
    · rw [took]
      exact (taken_sound config world.now pending).1
    · rw [took]
      exact waiting_sound config world.now rfl pending
  · have before := sound.jobs job (List.mem_of_getElem? found)
    exact ⟨all_set sound.jobs (move.sound before), sound.owned.moved found before move⟩

/-- What holds in every state of a timely run holds at its start. -/
theorem Sound.initial (config : AiConfig) : Sound config {} where
  jobs job member := by cases member
  owned := {
    kept := fun job member => by cases member
    single := fun one two job other found => by cases found }

/-- A timely run keeps to it. -/
theorem Sound.run (run : Reaches (Ai.step config) (Timely config) {} world) : Sound config world :=
  run.invariant (Sound.initial config) fun _ _ _ sound timely taken => sound.step timely taken

/-- No two workers ask the model for one task at the same time, or are about to hand it on, to mark it
or to give it back; and the one that does has the key of its task in Redis, in time. -/
theorem generations_exclusive (config : AiConfig) (world : World)
    (run : Reaches (Ai.step config) (Timely config) {} world) :
    (∀ (one two : Nat) (job other : Job), world.jobs[one]? = some job →
      world.jobs[two]? = some other → job.phase.isActive = true → other.phase.isActive = true →
      job.pending.task = other.pending.task → one = two) ∧
    ∀ job ∈ world.jobs, job.phase.isActive = true →
      ∃ mark, world.marks.get world.now job.pending.idempotencyKey = some mark := by
  have sound := Sound.run run
  have owns : ∀ job ∈ world.jobs, job.phase.isActive = true → job.Owns world.now :=
    fun job member isActive => ⟨.inl isActive, (sound.jobs job member).lasting isActive⟩
  constructor
  · intro one two job other found foundOther isActive otherActive sameTask
    refine sound.owned.single one two job other found foundOther ?_
      (owns job (List.mem_of_getElem? found) isActive)
      (owns other (List.mem_of_getElem? foundOther) otherActive)
    unfold AiPending.idempotencyKey
    rw [sameTask]
  · intro job member isActive
    have owner := owns job member isActive
    obtain ⟨mark, there⟩ := sound.owned.kept job member owner
    exact ⟨mark, ExpiringStore.get_eq_some.mpr ⟨job.lasts, there, owner.2⟩⟩

theorem third_worker_alone :
    let world := (perform (Ai.step plainConfig) {} turnedDown).getD {}
    (∀ (one two : Nat) (job other : Job), world.jobs[one]? = some job →
      world.jobs[two]? = some other → job.phase.isActive = true → other.phase.isActive = true →
      job.pending.task = other.pending.task → one = two) ∧
    ∀ job ∈ world.jobs, job.phase.isActive = true →
      ∃ mark, world.marks.get world.now job.pending.idempotencyKey = some mark :=
  generations_exclusive plainConfig _ (reaches_performed turnedDown (by decide) (by decide))

/-- The mark of every job that is done is in time. -/
def World.Remembered (world : World) : Prop :=
  ∀ job ∈ world.jobs, job.phase = .completed → world.now ≤ job.lasts

/-- In a run that outlives no processed mark, a job that is done has its key. -/
theorem completed_owns (config : AiConfig) (world : World)
    (run : Reaches (Ai.step config) (fun world action => Timely config world action ∧
      Remembering world action) {} world) : world.Remembered := by
  refine run.invariant (fun job member => by cases member) ?_
  intro before action after known allowed taken
  rcases step_cases taken with ⟨ms, rfl, rfl⟩ | ⟨pending, rfl⟩ |
    ⟨index, job, moved, marks, found, move, rfl⟩
  · exact allowed.2
  · refine all_append known fun completed => ?_
    rcases take_spec config before pending .asked with ⟨_, took⟩ | took
    · rw [took] at completed
      have isActive := (taken_sound config before.now pending).2.1
      rw [completed] at isActive
      cases isActive
    · rw [took] at completed
      cases completed
  · refine all_set known fun completed => ?_
    cases move with
    | waits without still told =>
      obtain rfl : _ = Phase.completed := completed
      cases still
    | asks without =>
      rcases take_spec config before job.pending .turnedAway with ⟨_, took⟩ | took
      · rw [took] at completed
        have isActive := (taken_sound config before.now job.pending).2.1
        rw [completed] at isActive
        cases isActive
      · rw [took] at completed
        cases completed
    | @answered prompt text generating next =>
      have isActive := goOn_isActive config before.now
        { job with generated := job.generated ++ [(prompt.1, text)] }
      rw [completed] at isActive
      cases isActive
    | marks told marking => exact Nat.le_add_right _ _
    | refused | handsOver | handOverFails | markFails | stops | unmarks => cases completed

/-- Of the jobs of a task, one may be at work or done; the others that had the lease gave up. -/
theorem owners_le_one (sound : Sound config world) (remembered : world.Remembered) (task : Text) :
    world.jobs.countP (fun job => job.pending.task = task ∧ job.phase.hadLease = true ∧
      job.phase ≠ .gaveUp) ≤ 1 := by
  have owns : ∀ job ∈ world.jobs, job.phase.hadLease = true → job.phase ≠ .gaveUp →
      job.Owns world.now := by
    intro job member had goesOn
    rcases Phase.of_hadLease had with isActive | completed | gaveUp
    · exact ⟨.inl isActive, (sound.jobs job member).lasting isActive⟩
    · exact ⟨.inr completed, remembered job member completed⟩
    · exact absurd gaveUp goesOn
  refine countP_le_one _ fun one two job other found foundOther meets meetsOther => ?_
  obtain ⟨rfl, had, goesOn⟩ := of_decide_eq_true meets
  obtain ⟨sameTask, otherHad, otherGoesOn⟩ := of_decide_eq_true meetsOther
  refine sound.owned.single one two job other found foundOther ?_
    (owns job (List.mem_of_getElem? found) had goesOn)
    (owns other (List.mem_of_getElem? foundOther) otherHad otherGoesOn)
  unfold AiPending.idempotencyKey
  rw [sameTask]

/-- The jobs of a task that ever had its lease. -/
theorem holders_le (sound : Sound config world) (remembered : world.Remembered) (task : Text) :
    (world.jobs.filter fun job => job.pending.task = task).countP (·.phase.hadLease) ≤
      1 + (world.jobs.filter fun job => job.pending.task = task).countP (·.phase = .gaveUp) := by
  have few := owners_le_one sound remembered task
  refine Nat.le_trans (countP_le_add _
    (fun job => job.phase.hadLease = true ∧ job.phase ≠ .gaveUp) _ fun job _ had => ?_)
    (Nat.add_le_add_right ?_ _)
  · by_cases gaveUp : job.phase = .gaveUp
    · exact .inr (decide_eq_true gaveUp)
    · exact .inl (decide_eq_true ⟨had, gaveUp⟩)
  · rw [List.countP_filter]
    refine Nat.le_trans (List.countP_mono_left fun job _ meets => ?_) few
    simp only [Bool.and_eq_true, decide_eq_true_eq] at meets ⊢
    exact ⟨meets.2, meets.1⟩

/-- A task is paid for once, and once more for each worker that failed with it or stopped: so often at
most its prompts are asked, and the task handed on. What is handed on has an answer to every prompt,
and no worker asks for more than the task is to ask, or for a prompt twice. -/
theorem paid_once (config : AiConfig) (world : World)
    (run : Reaches (Ai.step config) (fun world action => Timely config world action ∧
      Remembering world action) {} world) (task : Text) :
    let own := world.jobs.filter fun job => job.pending.task = task
    let failures := own.countP (·.phase = .gaveUp)
    (own.map (·.calls.length)).sum ≤ config.maxPrompts * (1 + failures) ∧
    own.countP (·.handed.isSome) ≤ 1 + failures ∧
    ∀ job ∈ own, job.calls <+: job.pending.questions config ∧
      ∀ dispatched ∈ job.handed, dispatched.taskId = task ∧ job.Answered config ∧ ∃ dbTemplate,
        dispatched = job.pending.taskPayload config dbTemplate job.generated := by
  have sound := Sound.run (run.weaken fun _ _ allowed => allowed.1)
  have few := holders_le sound (completed_owns config world run) task
  have own : ∀ job ∈ world.jobs.filter (fun job => job.pending.task = task),
      job.Sound config world.now ∧ job.pending.task = task := fun job member =>
    ⟨sound.jobs job (List.mem_filter.mp member).1, of_decide_eq_true (List.mem_filter.mp member).2⟩
  refine ⟨?_, ?_, fun job member => ?_⟩
  · refine Nat.le_trans (sum_le_countP (·.phase.hadLease) fun job member => ?_)
      (Nat.mul_le_mul_left _ few)
    obtain ⟨known, _⟩ := own job member
    cases had : job.phase.hadLease with
    | true => exact Nat.le_trans known.calls.length_le (questions_le config job.pending)
    | false =>
      rw [(known.idle had).1]
      exact Nat.le_refl 0
  · refine Nat.le_trans (List.countP_mono_left fun job member present => ?_) few
    cases had : job.phase.hadLease with
    | true => rfl
    | false =>
      rw [((own job member).1.idle had).2] at present
      cases present
  · obtain ⟨known, sameTask⟩ := own job member
    refine ⟨known.calls, fun dispatched present => ?_⟩
    obtain ⟨dbTemplate, rfl, answered⟩ := known.handed dispatched present
    exact ⟨sameTask, answered, dbTemplate, rfl⟩

theorem answered_paid_twice :
    let world := (perform (Ai.step plainConfig) {} allAnswered).getD {}
    let own := world.jobs.filter fun job => job.pending.task = threePrompts.task
    let failures := own.countP (·.phase = .gaveUp)
    (own.map (·.calls.length)).sum ≤ plainConfig.maxPrompts * (1 + failures) ∧
    own.countP (·.handed.isSome) ≤ 1 + failures ∧
    ∀ job ∈ own, job.calls <+: job.pending.questions plainConfig ∧
      ∀ dispatched ∈ job.handed, dispatched.taskId = threePrompts.task ∧ job.Answered plainConfig ∧
        ∃ dbTemplate, dispatched = job.pending.taskPayload plainConfig dbTemplate job.generated :=
  paid_once plainConfig _ (reaches_performed allAnswered (by decide) (by decide)) threePrompts.task

end Owners

/-- The message of a task is accounted for: some worker has handed the task on. -/
def World.Handed (world : World) (key : Text) : Prop :=
  ∃ job ∈ world.jobs, job.handed.isSome = true ∧ job.pending.idempotencyKey = key

/-- A call of the job failed with what no repetition cures. -/
def Job.Refused (job : Job) : Prop := ∃ error ∈ job.refusal, isRetryableAiError error = false

/-- What is known of a job's acknowledgement. -/
structure Job.Honest (world : World) (job : Job) : Prop where
  idle : job.phase.hadLease = false → job.handed = none
  marking : job.phase = .marking ∨ job.phase = .completed → job.handed.isSome = true
  failing : job.phase = .failing true → job.Refused
  atWork : job.phase.isActive = true → job.ack = false
  ack : job.ack = true → world.Handed job.pending.idempotencyKey ∨ job.Refused

/-- A processed mark is that of a task that was handed on, and no message is acknowledged without
reason. -/
structure Honest (world : World) : Prop where
  processed : ∀ key lasts, world.marks.cell key = some (.processed, lasts) → world.Handed key
  jobs : ∀ job ∈ world.jobs, job.Honest world

section Acknowledgements

variable {config : AiConfig} {world : World} {index : Nat} {job : Job} {marks : Marks}

/-- A job that keeps what it handed on, and why it failed. -/
theorem Job.Honest.keep (honest : job.Honest world) {moved : Job}
    (handed : moved.handed = job.handed) (refusal : moved.refusal = job.refusal)
    (had : moved.phase.hadLease = false → job.phase.hadLease = false)
    (marking : moved.phase = .marking ∨ moved.phase = .completed → job.handed.isSome = true)
    (failing : moved.phase ≠ .failing true)
    (atWork : moved.phase.isActive = true → moved.ack = false)
    (ack : moved.ack = true → world.Handed job.pending.idempotencyKey ∨ job.Refused)
    (pending : moved.pending = job.pending) : moved.Honest world where
  idle := fun idle => handed.trans (honest.idle (had idle))
  marking := fun late => handed ▸ marking late
  failing := fun failed => absurd failed failing
  atWork := atWork
  ack := fun acked => by
    unfold Job.Refused
    rw [pending, refusal]
    exact ack acked

/-- What a worker does when it asks for the lease. -/
theorem take_honest (config : AiConfig) (world : World) (pending : AiPending) (refused : Phase)
    (idle : refused.hadLease = false) :
    (take config world pending refused).1.Honest world ∧
      (take config world pending refused).1.pending = pending ∧
      ∀ key lasts, (take config world pending refused).2.cell key = some (.processed, lasts) →
        world.marks.cell key = some (.processed, lasts) := by
  have fresh : ∀ job : Job, job.handed = none → job.ack = false → job.phase ≠ .marking →
      job.phase ≠ .completed → job.phase ≠ .failing true → job.Honest world := by
    intro job notHanded notAcked notMarking notCompleted notFailing
    refine ⟨fun _ => notHanded, fun late => (late.elim notMarking notCompleted).elim,
      fun failing => absurd failing notFailing, fun _ => notAcked, fun acked => ?_⟩
    rw [notAcked] at acked
    cases acked
  rcases take_spec config world pending refused with ⟨_, took⟩ | took
  · rw [took]
    obtain ⟨phase, calls, early, same⟩ := goOn_eq config world.now
      { pending := pending, phase := .generating, lasts := expiry world.now config.leaseSeconds }
    rw [same]
    refine ⟨?_, rfl, fun key lasts there => ?_⟩
    · rcases early with rfl | rfl <;> exact fresh _ rfl rfl (by simp) (by simp) (by simp)
    · rw [ExpiringStore.set_cell] at there
      split at there
      · cases there
      · exact there
  · rw [took]
    refine ⟨fresh _ rfl rfl ?_ ?_ ?_, rfl, fun _ _ there => there⟩ <;>
    · rintro rfl
      cases idle

/-- What a move does to what is known: a task handed on stays so, a mark is written for a task that was
handed on, and an acknowledgement has its reason. -/
theorem Move.honest {moved : Job} (move : Move config world job moved marks) (honest : Honest world)
    (member : job ∈ world.jobs) :
    moved.Honest world ∧ moved.pending = job.pending ∧
    (job.handed.isSome = true → moved.handed.isSome = true) ∧
    ∀ key lasts, marks.cell key = some (.processed, lasts) → world.Handed key := by
  have known := honest.jobs job member
  have same := honest.processed
  cases move with
  | @waits phase ack without still told =>
    refine ⟨known.keep rfl rfl (fun _ => without) (fun late => ?_) ?_ (fun isActive => ?_)
      (fun acked => ?_) rfl, rfl, id, same⟩
    · rcases late with late | late
      · obtain rfl : phase = .marking := late
        cases still
      · obtain rfl : phase = .completed := late
        cases still
    · intro failing
      obtain rfl : phase = .failing true := failing
      cases still
    · rw [Phase.inactive still] at isActive
      cases isActive
    · rcases told acked with before | read
      · exact known.ack before
      · obtain ⟨lasts, there, _⟩ := ExpiringStore.get_eq_some.mp read
        exact .inl (same _ _ there)
  | asks without =>
    obtain ⟨fresh, pending, marked⟩ := take_honest config world job.pending .turnedAway rfl
    refine ⟨fresh, pending, fun handed => ?_, fun key lasts there => same key lasts (marked _ _ there)⟩
    rw [known.idle without] at handed
    cases handed
  | @answered prompt text generating next =>
    have notAcked := known.atWork (by rw [generating]; rfl)
    obtain ⟨phase, calls, early, goes⟩ := goOn_eq config world.now
      { job with generated := job.generated ++ [(prompt.1, text)] }
    rw [goes]
    refine ⟨known.keep rfl rfl (fun idle => ?_) (fun late => ?_) ?_ (fun _ => notAcked) known.ack rfl,
      rfl, id, same⟩
    · rcases early with rfl | rfl <;> cases idle
    · rcases early with rfl | rfl <;> rcases late with late | late <;> cases late
    · rcases early with rfl | rfl <;> simp
  | refused error generating =>
    have notAcked := known.atWork (by rw [generating]; rfl)
    exact ⟨{
      idle := fun idle => by cases idle
      marking := fun late => by rcases late with late | late <;> cases late
      failing := fun failing => ⟨error, rfl, by simpa using Phase.failing.inj failing⟩
      atWork := fun _ => notAcked
      ack := fun acked => by
        rw [notAcked] at acked
        cases acked }, rfl, id, same⟩
  | handsOver dbTemplate handing =>
    exact ⟨{
      idle := fun idle => by cases idle
      marking := fun _ => rfl
      failing := fun failing => by cases failing
      atWork := fun _ => known.atWork (by rw [handing]; rfl)
      ack := known.ack }, rfl, fun _ => rfl, same⟩
  | handOverFails dbTemplate landed handing =>
    refine ⟨{
      idle := fun idle => by cases idle
      marking := fun late => by rcases late with late | late <;> cases late
      failing := fun failing => by cases failing
      atWork := fun _ => known.atWork (by rw [handing]; rfl)
      ack := known.ack }, rfl, fun handed => ?_, same⟩
    cases landed with
    | true => rfl
    | false => exact handed
  | marks told marking =>
    have handed := known.marking (.inl marking)
    have own : world.Handed job.pending.idempotencyKey := ⟨job, member, handed, rfl⟩
    refine ⟨known.keep rfl rfl (fun idle => ?_) (fun _ => handed) ?_ (fun isActive => ?_)
      (fun _ => .inl own) rfl, rfl, id, fun key lasts there => ?_⟩
    · cases told <;> cases idle
    · cases told <;> simp
    · cases told with
      | true => cases isActive
      | false => exact known.atWork (by rw [marking]; rfl)
    · by_cases sameKey : key = job.pending.idempotencyKey
      · exact sameKey ▸ own
      · exact same key lasts ((if_neg sameKey).symm.trans there)
  | markFails marking =>
    refine ⟨known.keep rfl rfl (fun idle => by cases idle) (fun late => ?_) (by simp)
      (fun _ => known.atWork (by rw [marking]; rfl)) known.ack rfl, rfl, id, same⟩
    rcases late with late | late <;> cases late
  | stops isActive =>
    refine ⟨known.keep rfl rfl (fun idle => by cases idle) (fun late => ?_) (by simp)
      (fun isActive => by cases isActive) known.ack rfl, rfl, id, same⟩
    rcases late with late | late <;> cases late
  | @unmarks isPermanent told failing =>
    refine ⟨known.keep rfl rfl (fun idle => by cases idle) (fun late => ?_) (by simp)
      (fun isActive => by cases isActive) (fun acked => ?_) rfl, rfl, id, fun key lasts there => ?_⟩
    · rcases late with late | late <;> cases late
    · cases told with
      | false => exact known.ack acked
      | true =>
        obtain rfl : isPermanent = true := acked
        exact .inr (known.failing failing)
    · rw [unmark, ExpiringStore.del_cell] at there
      split at there
      · cases there
      · exact same key lasts there

/-- What is known of a job stays so as long as no task that was handed on is forgotten. -/
theorem Job.Honest.later {after : World} (honest : job.Honest world)
    (handed : ∀ key, world.Handed key → after.Handed key) : job.Honest after where
  idle := honest.idle
  marking := honest.marking
  failing := honest.failing
  atWork := honest.atWork
  ack := fun acked => (honest.ack acked).imp_left (handed _)

/-- What every step keeps. -/
theorem Honest.step {action : Action} {after : World} (honest : Honest world)
    (taken : step config world action = some after) : Honest after := by
  rcases step_cases taken with ⟨ms, rfl, rfl⟩ | ⟨pending, rfl⟩ |
    ⟨index, job, moved, marks, found, move, rfl⟩
  · exact ⟨honest.processed, fun job member => (honest.jobs job member).later fun _ handed => handed⟩
  · obtain ⟨fresh, _, marked⟩ := take_honest config world pending .asked rfl
    have handed : ∀ key, world.Handed key → World.Handed { world with
        marks := (take config world pending .asked).2
        jobs := world.jobs ++ [(take config world pending .asked).1] } key :=
      fun key one => some_append one
    refine ⟨fun key lasts there => handed key (honest.processed key lasts (marked _ _ there)),
      all_append (fun job member => (honest.jobs job member).later handed) (fresh.later handed)⟩
  · obtain ⟨known, pending, stays, marked⟩ := move.honest honest (List.mem_of_getElem? found)
    have handed : ∀ key, world.Handed key → World.Handed { world with
        marks := marks, jobs := world.jobs.set index moved } key := fun key one =>
      some_set found (fun own => ⟨stays own.1, by rw [pending]; exact own.2⟩) one
    exact ⟨fun key lasts there => handed key (marked key lasts there),
      all_set (fun job member => (honest.jobs job member).later handed) (known.later handed)⟩

end Acknowledgements

end Notifkit.Ai
