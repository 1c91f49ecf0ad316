import Notifkit.Ai.AiWorker
import Notifkit.Foundations.Tables

/-!
# One worker with one message

What a worker does with a message, move by move, and what is known of it after each: its lease covers
the calls it may still make and thirty seconds, what it asked the model so far is the beginning of
what it is to ask, and it hands the task on only with an answer to every prompt.
-/

namespace Notifkit.Ai

open Tables IdempotencyGuard

/-- The time the job may still need: its calls and the thirty seconds. -/
def Job.left (config : AiConfig) (job : Job) : Nat :=
  (if job.phase = .generating then
    ((job.pending.questions config).length - job.generated.length) * config.timeout else 0) + 30000

/-- The model was asked all it is to be asked, and every prompt is answered. -/
def Job.Answered (config : AiConfig) (job : Job) : Prop :=
  job.calls = job.pending.questions config ∧
    job.generated.map Prod.fst = (job.pending.prompts config).map Prod.fst

/-- What is known of a job by itself. -/
structure Job.Sound (config : AiConfig) (now : Nat) (job : Job) : Prop where
  inTime : job.InTime config now
  past : job.reached ≤ now
  covered : job.phase.isActive = true → job.reached + job.left config ≤ job.lasts
  calls : job.calls <+: job.pending.questions config
  began : job.phase = .generating → job.calls.length = job.generated.length + 1
  idle : job.phase.hadLease = false → job.calls = [] ∧ job.handed = none
  answered : job.generated.map Prod.fst <+: (job.pending.prompts config).map Prod.fst
  ready : job.phase = .handing → job.Answered config
  unhanded : job.phase = .generating ∨ job.phase = .handing → job.handed = none
  handed : ∀ task ∈ job.handed, ∃ dbTemplate,
    task = job.pending.taskPayload config dbTemplate job.generated ∧ job.Answered config

/-- A job that goes on has the lease. -/
theorem Phase.inactive {phase : Phase} (without : phase.hadLease = false) :
    phase.isActive = false := by
  cases phase <;> first | rfl | cases without

/-- A job that had the lease goes on, is done or gave up. -/
theorem Phase.of_hadLease {phase : Phase} (had : phase.hadLease = true) :
    phase.isActive = true ∨ phase = .completed ∨ phase = .gaveUp := by
  cases phase with
  | generating | handing | marking | failing _ => exact .inl rfl
  | completed => exact .inr (.inl rfl)
  | gaveUp => exact .inr (.inr rfl)
  | asked | askedAgain | turnedAway => cases had

/-- A beginning of a list, with what comes next in the list. -/
theorem prefix_next {α : Type _} {begun whole : List α} {item : α} (begins : begun <+: whole)
    (next : whole[begun.length]? = some item) : begun ++ [item] <+: whole := by
  obtain ⟨rest, rfl⟩ := begins
  rw [List.getElem?_append_right (Nat.le_refl _), Nat.sub_self] at next
  obtain ⟨tail, rfl⟩ := List.head?_eq_some_iff.mp (List.head?_eq_getElem?.trans next)
  exact ⟨tail, List.append_assoc ..⟩

section Jobs

variable {config : AiConfig} {now : Nat} {job : Job}

theorem length_questions (config : AiConfig) (pending : AiPending) :
    (pending.questions config).length = (pending.prompts config).length := List.length_map _

theorem questions_le (config : AiConfig) (pending : AiPending) :
    (pending.questions config).length ≤ config.maxPrompts := by
  rw [length_questions]
  exact List.length_take_le _ _

/-- A lease outlasts all calls and thirty seconds. -/
theorem leaseSeconds_covers (config : AiConfig) (pending : AiPending) :
    (pending.questions config).length * config.timeout + 30000 ≤ 1000 * config.leaseSeconds := by
  have few := Nat.mul_le_mul_right config.timeout (questions_le config pending)
  rw [Nat.mul_comm config.maxPrompts] at few
  have whole := Nat.div_add_mod (config.timeout * config.maxPrompts + 999) 1000
  have part := Nat.mod_lt (config.timeout * config.maxPrompts + 999) (show 0 < 1000 by decide)
  unfold AiConfig.leaseSeconds
  rw [Nat.mul_add]
  omega

/-- A job with a call under way may need the time of all its calls to come. -/
theorem left_generating (generating : job.phase = .generating) : job.left config =
    ((job.pending.questions config).length - job.generated.length) * config.timeout + 30000 := by
  unfold Job.left
  rw [if_pos generating]

/-- Any other job needs no more calls. -/
theorem left_other (other : job.phase ≠ .generating) : job.left config = 30000 := by
  unfold Job.left
  rw [if_neg other, Nat.zero_add]

/-- Going on begins a call or the handing on, and touches nothing else. -/
theorem goOn_eq (config : AiConfig) (now : Nat) (job : Job) : ∃ phase calls,
    (phase = .generating ∨ phase = .handing) ∧
      job.goOn config now = { job with phase := phase, calls := calls, reached := now } := by
  unfold Job.goOn
  cases (job.pending.questions config)[job.generated.length]? with
  | some question => exact ⟨_, _, .inl rfl, rfl⟩
  | none => exact ⟨_, _, .inr rfl, rfl⟩

/-- A job that goes on is at work. -/
theorem goOn_isActive (config : AiConfig) (now : Nat) (job : Job) :
    (job.goOn config now).phase.isActive = true := by
  obtain ⟨phase, calls, rfl | rfl, same⟩ := goOn_eq config now job <;> rw [same] <;> rfl

/-- A job whose calls have all ended goes on to the next prompt, or has all its answers. -/
theorem goOn_sound (calls : job.calls <+: job.pending.questions config)
    (ended : job.calls.length = job.generated.length)
    (covered : now + ((job.pending.questions config).length - job.generated.length) * config.timeout +
      30000 ≤ job.lasts)
    (answered : job.generated.map Prod.fst <+: (job.pending.prompts config).map Prod.fst)
    (handed : job.handed = none) :
    (job.goOn config now).Sound config now ∧ (job.goOn config now).phase.isActive = true ∧
      (job.goOn config now).pending = job.pending ∧ (job.goOn config now).lasts = job.lasts := by
  unfold Job.goOn
  cases next : (job.pending.questions config)[job.generated.length]? with
  | some question =>
    refine ⟨?_, rfl, rfl, rfl⟩
    exact {
      inTime := Nat.le_add_right _ _
      past := Nat.le_refl _
      covered := fun _ => by
        rw [left_generating rfl, ← Nat.add_assoc]
        exact covered
      calls := by
        rw [← ended] at next
        exact prefix_next calls next
      began := fun _ => by simp [ended]
      idle := fun none => by cases none
      answered := answered
      ready := fun other => by cases other
      unhanded := fun _ => handed
      handed := fun task present => by
        dsimp only at present
        rw [handed] at present
        cases present }
  | none =>
    have all : job.generated.map Prod.fst = (job.pending.prompts config).map Prod.fst := by
      have long := List.getElem?_eq_none_iff.mp next
      rw [length_questions] at long
      exact answered.eq_of_length_le (by simpa using long)
    refine ⟨?_, rfl, rfl, rfl⟩
    exact {
      inTime := Nat.le_add_right _ _
      past := Nat.le_refl _
      covered := fun _ => by
        rw [left_other (by simp)]
        exact Nat.le_trans (Nat.add_le_add_right (Nat.le_add_right _ _) _) covered
      calls := calls
      began := fun other => by cases other
      idle := fun none => by cases none
      answered := answered
      ready := fun _ => ⟨calls.eq_of_length_le (by rw [ended]; exact List.getElem?_eq_none_iff.mp next),
        all⟩
      unhanded := fun _ => handed
      handed := fun task present => by
        dsimp only at present
        rw [handed] at present
        cases present }

/-- Once the call under way has ended there is time for the calls to come, and thirty seconds. -/
theorem Job.Sound.spare (sound : job.Sound config now) (generating : job.phase = .generating) :
    now + ((job.pending.questions config).length - (job.generated.length + 1)) * config.timeout +
      30000 ≤ job.lasts := by
  have inTime := sound.inTime
  have enough := sound.covered (by rw [generating]; rfl)
  unfold Job.InTime at inTime
  rw [generating] at inTime
  dsimp only at inTime
  have more : job.generated.length < (job.pending.questions config).length := by
    have short := sound.calls.length_le
    rw [sound.began generating] at short
    exact short
  obtain ⟨rest, many⟩ : ∃ rest, (job.pending.questions config).length =
      job.generated.length + 1 + rest := Nat.exists_eq_add_of_le more
  rw [left_generating generating, many, Nat.add_assoc, Nat.add_sub_cancel_left,
    Nat.add_mul, Nat.one_mul] at enough
  rw [many, Nat.add_sub_cancel_left]
  calc now + rest * config.timeout + 30000
      ≤ job.reached + config.timeout + rest * config.timeout + 30000 :=
        Nat.add_le_add_right (Nat.add_le_add_right inTime _) _
    _ = job.reached + (config.timeout + rest * config.timeout + 30000) := by
        simp only [Nat.add_assoc]
    _ ≤ job.lasts := enough

/-- The lease of a job that goes on has time left. -/
theorem Job.Sound.lasting (sound : job.Sound config now) (isActive : job.phase.isActive = true) :
    now ≤ job.lasts := by
  by_cases generating : job.phase = .generating
  · have enough := sound.spare generating
    omega
  · have inTime := sound.inTime
    have enough := sound.covered isActive
    rw [left_other generating] at enough
    unfold Job.InTime at inTime
    cases phase : job.phase with
    | generating => exact absurd phase generating
    | handing | marking | failing _ =>
      rw [phase] at inTime
      dsimp only at inTime
      omega
    | asked | askedAgain | completed | gaveUp | turnedAway =>
      rw [phase] at isActive
      cases isActive

/-- No time is set for a job that does not go on. -/
theorem Job.inTime_idle (idle : job.phase.isActive = false) : job.InTime config now := by
  unfold Job.InTime
  cases phase : job.phase with
  | generating | handing | marking | failing _ =>
    rw [phase] at idle
    cases idle
  | asked | askedAgain | completed | gaveUp | turnedAway => trivial

/-- A job that makes no more calls, and says no other thing of its answers. -/
theorem Job.Sound.rest (sound : job.Sound config now) {phase : Phase} {lasts reached : Nat}
    {refusal : Option (Option ModelError)} {handed : Option NotificationDispatched} {ack : Bool}
    (had : phase.hadLease = true) (quiet : phase ≠ .generating ∧ phase ≠ .handing)
    (past : reached ≤ now)
    (covered : phase.isActive = true → now ≤ reached + 30000 ∧ reached + 30000 ≤ lasts)
    (whole : ∀ task ∈ handed, ∃ dbTemplate,
      task = job.pending.taskPayload config dbTemplate job.generated ∧ job.Answered config) :
    ({ job with
        phase := phase, lasts := lasts, reached := reached, refusal := refusal, handed := handed
        ack := ack } : Job).Sound config now where
  inTime := by
    cases isActive : phase.isActive with
    | false => exact Job.inTime_idle isActive
    | true =>
      have inTime := (covered isActive).1
      unfold Job.InTime
      cases phase with
      | generating => exact absurd rfl quiet.1
      | handing | marking | failing _ => exact inTime
      | asked | askedAgain | completed | gaveUp | turnedAway => trivial
  past := past
  covered := fun isActive => by
    rw [left_other quiet.1]
    exact (covered isActive).2
  calls := sound.calls
  began := fun generating => absurd generating quiet.1
  idle := fun without => by
    rw [had] at without
    cases without
  answered := sound.answered
  ready := fun handing => absurd handing quiet.2
  unhanded := fun early => (early.elim quiet.1 quiet.2).elim
  handed := whole

end Jobs

/-- What a job may do in a step, and the marks it leaves. -/
inductive Move (config : AiConfig) (world : World) (job : Job) : Job → Marks → Prop where
  /-- it has no lease, and looks or stops -/
  | waits {phase : Phase} {ack : Bool} (without : job.phase.hadLease = false)
      (still : phase.hadLease = false)
      (told : ack = true → job.ack = true ∨
        world.marks.get world.now job.pending.idempotencyKey = some .processed) :
      Move config world job { job with phase := phase, ack := ack } world.marks
  /-- it asks for the lease again -/
  | asks (without : job.phase.hadLease = false) :
      Move config world job (take config world job.pending .turnedAway).1
        (take config world job.pending .turnedAway).2
  | answered {prompt : Text × Text} (text : Text) (generating : job.phase = .generating)
      (next : (job.pending.prompts config)[job.generated.length]? = some prompt) :
      Move config world job
        (Job.goOn config world.now { job with generated := job.generated ++ [(prompt.1, text)] })
        world.marks
  | refused (error : Option ModelError) (generating : job.phase = .generating) :
      Move config world job
        { job with
          phase := .failing (!isRetryableAiError error), reached := world.now, refusal := some error }
        world.marks
  | handsOver (dbTemplate : Option Json) (handing : job.phase = .handing) :
      Move config world job
        { job with
          phase := .marking
          handed := some (job.pending.taskPayload config dbTemplate job.generated) }
        world.marks
  | handOverFails (dbTemplate : Option Json) (landed : Bool) (handing : job.phase = .handing) :
      Move config world job
        { job with
          phase := .failing false
          handed := if landed then some (job.pending.taskPayload config dbTemplate job.generated)
            else job.handed }
        world.marks
  /-- the mark is written, whether or not the worker is told so -/
  | marks (told : Bool) (marking : job.phase = .marking) :
      Move config world job
        { job with
          phase := if told then .completed else .failing false
          lasts := expiry world.now config.IDEMPOTENCY_TTL_SECONDS
          ack := if told then true else job.ack }
        (markProcessed world.marks world.now job.pending.idempotencyKey
          config.IDEMPOTENCY_TTL_SECONDS)
  | markFails (marking : job.phase = .marking) :
      Move config world job { job with phase := .failing false } world.marks
  /-- it stops, or cannot give the lease back -/
  | stops (isActive : job.phase.isActive = true) :
      Move config world job { job with phase := .gaveUp } world.marks
  /-- it gives the lease back, whether or not it is told so -/
  | unmarks {isPermanent : Bool} (told : Bool) (failing : job.phase = .failing isPermanent) :
      Move config world job { job with phase := .gaveUp, ack := if told then isPermanent else job.ack }
        (unmark world.marks job.pending.idempotencyKey)

section Steps

variable {config : AiConfig} {world after : World} {action : Action} {index : Nat} {phase : Phase}
  {job : Job}

theorem jobIn_eq_some : world.jobIn index phase = some job ↔
    world.jobs[index]? = some job ∧ job.phase = phase := by
  unfold World.jobIn
  rw [Option.filter_eq_some_iff, decide_eq_true_iff]

/-- Time passes, a message is handed to a worker, or a job makes a move. -/
theorem step_cases (taken : step config world action = some after) :
    (∃ ms, action = .tick ms ∧ after = { world with now := world.now + ms }) ∨
    (∃ pending, after = { world with
      marks := (take config world pending .asked).2
      jobs := world.jobs ++ [(take config world pending .asked).1] }) ∨
    ∃ (index : Nat) (job moved : Job) (marks : Marks), world.jobs[index]? = some job ∧
      Move config world job moved marks ∧
      after = { world with marks := marks, jobs := world.jobs.set index moved } := by
  cases action with
  | tick ms => exact .inl ⟨ms, rfl, (Option.some.inj taken).symm⟩
  | attempt pending => exact .inr (.inl ⟨pending, (Option.some.inj taken).symm⟩)
  | look index =>
    obtain ⟨job, found, taken⟩ := Option.bind_eq_some_iff.mp taken
    obtain ⟨found, phase⟩ := jobIn_eq_some.mp found
    have without : job.phase.hadLease = false := by rw [phase]; rfl
    refine .inr (.inr ⟨index, job, _, world.marks, found, ?_, (Option.some.inj taken).symm⟩)
    cases read : world.marks.get world.now job.pending.idempotencyKey with
    | none => exact .waits without rfl .inl
    | some mark =>
      cases mark with
      | processed => exact .waits without rfl fun _ => .inr read
      | lease => exact .waits without rfl .inl
  | leaseAgain index =>
    obtain ⟨job, found, taken⟩ := Option.bind_eq_some_iff.mp taken
    obtain ⟨found, phase⟩ := jobIn_eq_some.mp found
    have move : Move config world job _ _ := .asks (by rw [phase]; rfl)
    exact .inr (.inr ⟨index, job, _, _, found, move, (Option.some.inj taken).symm⟩)
  | answer index text =>
    obtain ⟨job, found, taken⟩ := Option.bind_eq_some_iff.mp taken
    obtain ⟨prompt, next, taken⟩ := Option.bind_eq_some_iff.mp taken
    obtain ⟨found, phase⟩ := jobIn_eq_some.mp found
    have move : Move config world job _ _ := .answered text phase next
    exact .inr (.inr ⟨index, job, _, _, found, move, (Option.some.inj taken).symm⟩)
  | refuse index error =>
    obtain ⟨job, found, taken⟩ := Option.bind_eq_some_iff.mp taken
    obtain ⟨found, phase⟩ := jobIn_eq_some.mp found
    have move : Move config world job _ _ := .refused error phase
    exact .inr (.inr ⟨index, job, _, _, found, move, (Option.some.inj taken).symm⟩)
  | handOver index dbTemplate =>
    obtain ⟨job, found, taken⟩ := Option.bind_eq_some_iff.mp taken
    obtain ⟨found, phase⟩ := jobIn_eq_some.mp found
    have move : Move config world job _ _ := .handsOver dbTemplate phase
    exact .inr (.inr ⟨index, job, _, _, found, move, (Option.some.inj taken).symm⟩)
  | handOverFails index dbTemplate landed =>
    obtain ⟨job, found, taken⟩ := Option.bind_eq_some_iff.mp taken
    obtain ⟨found, phase⟩ := jobIn_eq_some.mp found
    have move : Move config world job _ _ := .handOverFails dbTemplate landed phase
    exact .inr (.inr ⟨index, job, _, _, found, move, (Option.some.inj taken).symm⟩)
  | mark index =>
    obtain ⟨job, found, taken⟩ := Option.bind_eq_some_iff.mp taken
    obtain ⟨found, phase⟩ := jobIn_eq_some.mp found
    have move : Move config world job _ _ := .marks true phase
    exact .inr (.inr ⟨index, job, _, _, found, move, (Option.some.inj taken).symm⟩)
  | markFails index landed =>
    obtain ⟨job, found, taken⟩ := Option.bind_eq_some_iff.mp taken
    obtain ⟨found, phase⟩ := jobIn_eq_some.mp found
    cases landed with
    | true =>
      have move : Move config world job _ _ := .marks false phase
      exact .inr (.inr ⟨index, job, _, _, found, move, (Option.some.inj taken).symm⟩)
    | false =>
      exact .inr (.inr ⟨index, job, _, _, found, .markFails phase, (Option.some.inj taken).symm⟩)
  | unmark index =>
    obtain ⟨job, found, taken⟩ := Option.bind_eq_some_iff.mp taken
    split at taken
    · rename_i isPermanent phase
      have move : Move config world job _ _ := .unmarks true phase
      exact .inr (.inr ⟨index, job, _, _, found, move, (Option.some.inj taken).symm⟩)
    · cases taken
  | unmarkFails index landed =>
    obtain ⟨job, found, taken⟩ := Option.bind_eq_some_iff.mp taken
    split at taken
    · rename_i isPermanent phase
      cases landed with
      | true =>
        have move : Move config world job _ _ := .unmarks false phase
        exact .inr (.inr ⟨index, job, _, _, found, move, (Option.some.inj taken).symm⟩)
      | false =>
        have move : Move config world job _ _ := .stops (by rw [phase]; rfl)
        exact .inr (.inr ⟨index, job, _, _, found, move, (Option.some.inj taken).symm⟩)
    · cases taken
  | crash index =>
    obtain ⟨job, found, taken⟩ := Option.bind_eq_some_iff.mp taken
    cases isActive : job.phase.isActive with
    | true =>
      rw [isActive, if_pos rfl] at taken
      exact .inr (.inr ⟨index, job, _, _, found, .stops isActive, (Option.some.inj taken).symm⟩)
    | false =>
      rw [isActive] at taken
      cases had : job.phase.hadLease with
      | true => simp [had] at taken
      | false =>
        simp only [had, Bool.false_eq_true, if_false] at taken
        exact .inr (.inr ⟨index, job, _, _, found, .waits had rfl .inl, (Option.some.inj taken).symm⟩)

/-- The lease is taken where the key is free, and the first prompt begun. -/
theorem take_spec (config : AiConfig) (world : World) (pending : AiPending) (refused : Phase) :
    (world.marks.get world.now pending.idempotencyKey = none ∧
      take config world pending refused =
        (Job.goOn config world.now
          { pending := pending, phase := .generating
            lasts := expiry world.now config.leaseSeconds },
        world.marks.set pending.idempotencyKey .lease (expiry world.now config.leaseSeconds))) ∨
    take config world pending refused = ({ pending := pending, phase := refused }, world.marks) := by
  unfold take
  dsimp only
  cases read : world.marks.setNX world.now pending.idempotencyKey .lease
      (expiry world.now config.leaseSeconds) with
  | none => exact .inr rfl
  | some marks =>
    obtain ⟨free, rfl⟩ := ExpiringStore.setNX_eq_some.mp read
    exact .inl ⟨free, rfl⟩

/-- The first prompt of a worker that has just taken the lease. -/
theorem taken_sound (config : AiConfig) (now : Nat) (pending : AiPending) :
    let job := Job.goOn config now
      { pending := pending, phase := .generating, lasts := expiry now config.leaseSeconds }
    job.Sound config now ∧ job.phase.isActive = true ∧ job.pending = pending ∧
      job.lasts = expiry now config.leaseSeconds := by
  refine goOn_sound (List.nil_prefix) rfl ?_ (List.nil_prefix) rfl
  have enough := leaseSeconds_covers config pending
  unfold expiry
  dsimp only [List.length_nil]
  rw [Nat.sub_zero]
  omega

/-- A job without a lease that does nothing but look. -/
theorem waiting_sound (config : AiConfig) (now : Nat) (still : phase.hadLease = false)
    (pending : AiPending) : ({ pending := pending, phase := phase } : Job).Sound config now where
  inTime := Job.inTime_idle (Phase.inactive still)
  past := Nat.zero_le _
  covered := fun isActive => by
    rw [Phase.inactive still] at isActive
    cases isActive
  calls := List.nil_prefix
  began := fun generating => by
    obtain rfl : phase = .generating := generating
    cases still
  idle := fun _ => ⟨rfl, rfl⟩
  answered := List.nil_prefix
  ready := fun handing => by
    obtain rfl : phase = .handing := handing
    cases still
  unhanded := fun _ => rfl
  handed := fun _ present => by cases present

/-- Where a job stands after a move. -/
theorem Move.sound {moved : Job} {marks : Marks} (move : Move config world job moved marks)
    (sound : job.Sound config world.now) : moved.Sound config world.now := by
  have inTime := sound.inTime
  have covered := sound.covered
  unfold Job.InTime at inTime
  cases move with
  | waits without still told =>
    obtain ⟨noCalls, notHanded⟩ := sound.idle without
    exact {
      inTime := Job.inTime_idle (Phase.inactive still)
      past := sound.past
      covered := fun isActive => by
        rw [Phase.inactive still] at isActive
        cases isActive
      calls := sound.calls
      began := fun generating => by
        obtain rfl : _ = Phase.generating := generating
        cases still
      idle := fun _ => ⟨noCalls, notHanded⟩
      answered := sound.answered
      ready := fun handing => by
        obtain rfl : _ = Phase.handing := handing
        cases still
      unhanded := fun _ => notHanded
      handed := sound.handed }
  | asks without =>
    rcases take_spec config world job.pending .turnedAway with ⟨_, took⟩ | took
    · rw [took]
      exact (taken_sound config world.now job.pending).1
    · rw [took]
      exact waiting_sound config world.now rfl job.pending
  | @answered prompt text generating next =>
    have spare := sound.spare generating
    refine (goOn_sound ?_ ?_ ?_ ?_ ?_).1
    · exact sound.calls
    · rw [List.length_append]
      exact sound.began generating
    · rw [List.length_append]
      exact spare
    · rw [List.map_append]
      refine prefix_next sound.answered ?_
      rw [List.length_map, List.getElem?_map, next]
      rfl
    · exact sound.unhanded (.inl generating)
  | refused error generating =>
    have spare := sound.spare generating
    refine sound.rest rfl ⟨by simp, by simp⟩ (Nat.le_refl _) (fun _ => ⟨?_, ?_⟩) sound.handed
    · omega
    · omega
  | handsOver dbTemplate handing =>
    rw [handing] at inTime
    have enough := covered (by rw [handing]; rfl)
    rw [left_other (by simp [handing])] at enough
    refine sound.rest rfl ⟨by simp, by simp⟩ sound.past (fun _ => ⟨inTime, enough⟩) ?_
    intro task present
    exact ⟨dbTemplate, (Option.some.inj present).symm, sound.ready handing⟩
  | handOverFails dbTemplate landed handing =>
    rw [handing] at inTime
    have enough := covered (by rw [handing]; rfl)
    rw [left_other (by simp [handing])] at enough
    refine sound.rest rfl ⟨by simp, by simp⟩ sound.past (fun _ => ⟨inTime, enough⟩) ?_
    cases landed with
    | true =>
      intro task present
      exact ⟨dbTemplate, (Option.some.inj present).symm, sound.ready handing⟩
    | false => exact sound.handed
  | marks told marking =>
    rw [marking] at inTime
    refine sound.rest (by cases told <;> rfl) (by cases told <;> simp) sound.past
      (fun _ => ⟨inTime, ?_⟩) sound.handed
    have past := sound.past
    have long := config.ttlBound
    unfold expiry
    omega
  | markFails marking =>
    rw [marking] at inTime
    have enough := covered (by rw [marking]; rfl)
    rw [left_other (by simp [marking])] at enough
    exact sound.rest rfl ⟨by simp, by simp⟩ sound.past (fun _ => ⟨inTime, enough⟩) sound.handed
  | stops isActive =>
    exact sound.rest rfl ⟨by simp, by simp⟩ sound.past (fun isActive => by cases isActive)
      sound.handed
  | unmarks told failing =>
    exact sound.rest rfl ⟨by simp, by simp⟩ sound.past (fun isActive => by cases isActive)
      sound.handed

end Steps

end Notifkit.Ai
