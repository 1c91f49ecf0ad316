import Notifkit.Workflow.Waits

/-!
# What each move does to the waits

Most moves change nothing a wait depends on, or only the status of an instance. The others
are taken one by one: a run arms a timeout, inserts a row, registers a waiter; a poll
deletes waiters, records a timeout or gives it up, takes a timeout out; an event task
answers a step and deletes its waiter. Each is shown to keep the waits, given what its actor
knows and the condition on its step.
-/

namespace Notifkit.Workflow

variable {triggers : InstanceId → Trigger} {stores after : Stores} {me : Nat}

/-- A waiter's step has its row. -/
theorem Stores.Registered.hasRow (registered : stores.Registered) {key : InstanceId × StepIndex}
    (listed : stores.listed key = true) : stores.hasRow key.1 key.2 = true := by
  obtain ⟨waiter, member, rfl⟩ := Stores.listed_iff.mp listed
  obtain ⟨row, there, index, _⟩ := registered.placed waiter member
  exact Stores.hasRow_iff.mpr ⟨row, there, index⟩

/-- An instance with a row is there. -/
theorem Stores.Owned.present_of_row (owned : stores.Owned) {instanceId : InstanceId}
    {stepIndex : StepIndex} (row : stores.hasRow instanceId stepIndex = true) :
    stores.instances instanceId ≠ none := by
  obtain ⟨_, member, _⟩ := Stores.hasRow_iff.mp row
  exact owned.present instanceId (List.ne_nil_of_mem member)

theorem Stores.hasRow_of_awaits {instanceId : InstanceId} {stepIndex : StepIndex}
    (awaits : stores.awaits instanceId stepIndex = true) :
    stores.hasRow instanceId stepIndex = true := by
  obtain ⟨row, member, index, _⟩ := Stores.awaits_iff.mp awaits
  exact Stores.hasRow_iff.mpr ⟨row, member, index⟩

/-- At most the status of instances changes, and what comes with it: the waiters of an instance
that ends may go, and the reaper disarms an instance it sets back. -/
structure Stores.Turns (stores after : Stores) : Prop where
  present : ∀ instanceId, stores.instances instanceId ≠ none → after.instances instanceId ≠ none
  isOver : ∀ instanceId, stores.Over instanceId → after.Over instanceId
  waits : ∀ key, after.waits key = true → stores.waits key = true
  pending : ∀ instanceId, after.instances instanceId = some .pending →
    (∀ stepIndex, stores.awaits instanceId stepIndex = true →
      stores.listed (instanceId, stepIndex) = true) ∧ after.armed instanceId = none
  steps : after.steps = stores.steps
  waiters : ∀ waiter ∈ stores.waiters, waiter ∈ after.waiters ∨ after.waits waiter.key = false
  timers : ∀ instanceId eventName stepId,
    after.timers.score (.eventTimeout instanceId eventName stepId) = none ↔
      stores.timers.score (.eventTimeout instanceId eventName stepId) = none
  added : ∀ member, (stores.added member).length ≤ (after.added member).length
  armed : ∀ instanceId, after.armed instanceId = stores.armed instanceId ∨
    after.armed instanceId = none ∧ after.reaped instanceId = true
  reaped : ∀ instanceId, stores.reaped instanceId = true → after.reaped instanceId = true
  expiring : after.expiring = stores.expiring
  registrations : after.registrations = stores.registrations

namespace Stores.Turns

theorem minds (turns : stores.Turns after) : stores.Minds after where
  present := turns.present
  isOver := turns.isOver
  hasRow instanceId stepIndex there := by rwa [Stores.hasRow, turns.steps]
  awaits instanceId stepIndex _ awaits := by rwa [Stores.awaits, turns.steps] at awaits
  registrations _ was := turns.registrations ▸ was
  reaped := turns.reaped
  added := turns.added
  idle member idle := by
    refine .inl ⟨fun armed => ?_, fun waiter was => idle.2 waiter (turns.registrations ▸ was)⟩
    rcases turns.armed member.instanceId with same | ⟨none, _⟩
    · exact idle.1 (same.symm.trans armed)
    · cases none.symm.trans armed
  armed member key _ armed := by
    rcases turns.armed key.1 with same | ⟨_, reaped⟩
    · exact .inl (same.trans armed)
    · exact .inr (.inr reaped)
  expiring key _ marked := by
    obtain ⟨poll, is⟩ := marked
    exact .inl ⟨poll, turns.expiring ▸ is⟩

theorem watched (turns : stores.Turns after) (watched : stores.Watched) : after.Watched where
  kept waiter was waits := by
    rw [turns.registrations] at was
    have before := turns.waits _ waits
    rcases watched.kept waiter was before with ⟨there, timer⟩ | ⟨poll, marked⟩
    · refine .inl ⟨?_, fun gone => timer ((turns.timers _ _ _).mp gone)⟩
      rcases turns.waiters waiter there with still | idle
      · exact still
      · exact nomatch waits.symm.trans idle
    · exact .inr ⟨poll, turns.expiring ▸ marked⟩
  listed instanceId stepIndex pending awaits := by
    rw [Stores.awaits, turns.steps] at awaits
    rw [Stores.listed, turns.registrations]
    exact (turns.pending instanceId pending).1 stepIndex awaits
  unarmed instanceId pending := (turns.pending instanceId pending).2
  armed instanceId armed := by
    rcases turns.armed instanceId with same | ⟨none, _⟩
    · exact turns.present instanceId (watched.armed instanceId (same ▸ armed))
    · exact absurd none armed
  timers member there := by
    intro instanceId eventName stepId is
    have before : stores.timers.score member ≠ none := by
      rw [is] at there ⊢
      exact fun gone => there ((turns.timers _ _ _).mpr gone)
    exact turns.minds.sound (watched.timers member before) instanceId eventName stepId is
  unique := by
    rw [turns.steps]
    exact watched.unique

/-- The statuses too are as they were. -/
theorem of_same (watched : stores.Watched) (instances : after.instances = stores.instances)
    (steps : after.steps = stores.steps) (waiters : after.waiters = stores.waiters)
    (timers : ∀ instanceId eventName stepId,
      after.timers.score (.eventTimeout instanceId eventName stepId) = none ↔
        stores.timers.score (.eventTimeout instanceId eventName stepId) = none)
    (added : ∀ member, (stores.added member).length ≤ (after.added member).length)
    (armed : after.armed = stores.armed) (reaped : after.reaped = stores.reaped)
    (expiring : after.expiring = stores.expiring)
    (registrations : after.registrations = stores.registrations) : stores.Turns after where
  present _ there := instances ▸ there
  isOver instanceId isOver := by rwa [Stores.Over, Stores.gone, instances]
  waits key waits := by rwa [Stores.waits, Stores.gone, Stores.awaits, instances, steps] at waits
  pending instanceId pending := by
    rw [instances] at pending
    rw [armed]
    exact ⟨fun stepIndex => watched.listed instanceId stepIndex pending,
      watched.unarmed instanceId pending⟩
  steps := steps
  waiters _ there := .inl (waiters ▸ there)
  timers := timers
  added := added
  armed _ := .inl (armed ▸ rfl)
  reaped _ was := reaped ▸ was
  expiring := expiring
  registrations := registrations

/-- The status of one instance changes, which has not ended. -/
theorem of_status (watched : stores.Watched) (owned : stores.Owned) {instanceId : InstanceId}
    (alive : stores.gone instanceId = false ∨ stores.instances instanceId = none)
    (there : after.instances instanceId ≠ none)
    (others : ∀ other ≠ instanceId, after.instances other = stores.instances other)
    (pending : after.instances instanceId = some .pending →
      (∀ stepIndex, stores.awaits instanceId stepIndex = true →
        stores.listed (instanceId, stepIndex) = true) ∧ after.armed instanceId = none)
    (steps : after.steps = stores.steps)
    (waiters : ∀ waiter ∈ stores.waiters, waiter ∈ after.waiters ∨
      waiter.instanceId = instanceId ∧ after.gone instanceId = true)
    (timers : after.timers = stores.timers) (added : after.added = stores.added)
    (armed : after.armed = stores.armed ∨
      after.armed = Function.update stores.armed instanceId none ∧ after.reaped instanceId = true)
    (reaped : ∀ other, stores.reaped other = true → after.reaped other = true)
    (expiring : after.expiring = stores.expiring)
    (registrations : after.registrations = stores.registrations) : stores.Turns after where
  present other was := by
    by_cases same : other = instanceId
    · rwa [same]
    · rwa [others other same]
  isOver other isOver := by
    by_cases same : other = instanceId
    · subst same
      rcases alive with alive | missing
      · exact nomatch isOver.1.symm.trans alive
      · exact absurd missing isOver.2
    · rwa [Stores.Over, Stores.gone, others other same]
  waits key waits := by
    obtain ⟨_, awaits⟩ := Stores.waits_iff.mp waits
    rw [Stores.awaits, steps] at awaits
    by_cases same : key.1 = instanceId
    · rcases alive with alive | missing
      · exact Stores.waits_iff.mpr ⟨same ▸ alive, awaits⟩
      · exact absurd (same ▸ missing) (owned.present_of_row (Stores.hasRow_of_awaits awaits))
    · rwa [Stores.waits, Stores.gone, Stores.awaits, others key.1 same, steps] at waits
  pending other is := by
    by_cases same : other = instanceId
    · subst same
      exact pending is
    · rw [others other same] at is
      refine ⟨fun stepIndex => watched.listed other stepIndex is, ?_⟩
      rcases armed with same' | ⟨updated, _⟩
      · rw [same']
        exact watched.unarmed other is
      · rw [updated, Function.update_of_ne same]
        exact watched.unarmed other is
  steps := steps
  waiters waiter was := by
    refine (waiters waiter was).imp_right ?_
    rintro ⟨rfl, gone⟩
    simp [Stores.waits, Waiter.key, gone]
  timers _ _ _ := by rw [timers]
  added _ := added ▸ Nat.le_refl _
  armed other := by
    rcases armed with same | ⟨updated, reaps⟩
    · exact .inl (same ▸ rfl)
    · by_cases same : other = instanceId
      · subst same
        exact .inr ⟨by rw [updated, Function.update_self], reaps⟩
      · exact .inl (by rw [updated, Function.update_of_ne same])
  reaped := reaped
  expiring := expiring
  registrations := registrations

end Stores.Turns

/-- What a step of somebody comes to for the waits. -/
structure WaitsKept (mover : Option Nat) (stores after : Stores) : Prop where
  watched : after.Watched
  minds : stores.Minds after
  expiring : ∀ other, mover ≠ some other → after.expiring other = stores.expiring other
  leaves : ∀ owner, mover ≠ some owner → stores.Leaves owner after

/-- A step that disarms nobody and changes no row. -/
theorem Stores.Turns.leaves (turns : stores.Turns after) {owner : Nat}
    (armed : ∀ instanceId, stores.runner instanceId = some owner →
      after.armed instanceId = stores.armed instanceId) : stores.Leaves owner after where
  armed := armed
  awaits instanceId stepIndex _ awaits := by rwa [Stores.awaits, turns.steps] at awaits
  timers member key _ _ own there := by
    obtain ⟨eventName, rfl⟩ := Member.of_key own
    exact .inl fun gone => there ((turns.timers _ _ _).mp gone)

theorem WaitsKept.of_turns {mover : Option Nat} (watched : stores.Watched)
    (turns : stores.Turns after) (armed : after.armed = stores.armed) :
    WaitsKept mover stores after where
  watched := turns.watched watched
  minds := turns.minds
  expiring other _ := by rw [turns.expiring]
  leaves owner _ := turns.leaves fun _ _ => armed ▸ rfl

/-- A run that is setting up a timeout has it as that of its own step. -/
theorem Run.key_of_arms {run : Run} {member : Member} (arms : run.arms = some member) :
    member.key = some (run.instanceId, run.stepId) ∧ run.phase.working = true ∧
      ¬ run.phase.outer := by
  unfold Run.arms at arms
  split at arms
  next phase =>
    obtain rfl := Option.some.inj arms
    exact ⟨rfl, by simp [phase, RunPhase.working], by simp [phase, RunPhase.outer]⟩
  next phase =>
    obtain rfl := Option.some.inj arms
    exact ⟨rfl, by simp [phase, RunPhase.working], by simp [phase, RunPhase.outer]⟩
  next => cases arms

/-- A run's knowledge is kept. -/
theorem Run.Minds.kept {run : Run} (knows : run.Minds stores) (minds : stores.Minds after)
    (leaves : stores.Leaves me after) (owns : run.Owns me stores)
    (registered : stores.Registered) (registers : run.Registers stores) : run.Minds after := by
  have working : run.phase.working = true → stores.runner run.instanceId = some me := by
    intro working
    apply owns
    intro outer
    cases phase : run.phase <;> simp_all [RunPhase.outer, RunPhase.working]
  constructor
  · intro works stepIndex awaits other
    exact minds.listed (knows.listed works stepIndex
      (leaves.awaits _ _ (working works) awaits) other)
  · intro works
    rw [leaves.armed _ (working works)]
    exact knows.armed works
  · intro idle member arms
    obtain ⟨own, works, _⟩ := Run.key_of_arms arms
    have armed := (knows.armed works).trans arms
    rcases knows.recording idle member arms with there | isOver | row
    · rcases leaves.timers member _ (working works) armed own there with still | shut | listed
      · exact .inl still
      · rcases shut with isOver | ⟨row, _⟩
        · exact .inr (.inl (minds.isOver _ isOver))
        · exact .inr (.inr (minds.hasRow _ _ row))
      · exact .inr (.inr (minds.hasRow _ _ (registered.hasRow listed)))
    · exact .inr (.inl (minds.isOver _ isOver))
    · exact .inr (.inr (minds.hasRow _ _ row))
  · intro registering member arms
    obtain ⟨own, works, _⟩ := Run.key_of_arms arms
    have armed := (knows.armed works).trans arms
    rcases knows.registering registering member arms with there | shut
    · rcases leaves.timers member _ (working works) armed own there with still | shut | listed
      · exact .inl still
      · exact .inr (minds.shut shut)
      · -- the waiter of the step is still to come
        unfold Run.registers at registering
        split at registering
        next eventName matchCriteria expiresAt phase =>
          obtain ⟨waiter, was, is⟩ := Stores.listed_iff.mp listed
          exact absurd is ((registers _ _ _ phase).2 waiter was)
        next => cases registering
    · exact .inr (minds.shut shut)

/-- A run that is done with its handler knows nothing of waits. -/
theorem Run.Minds.of_idle {run : Run} (idle : run.phase.working = false) : run.Minds stores := by
  have noArms : run.arms = none := by
    unfold Run.arms
    cases phase : run.phase <;> simp_all [RunPhase.working]
  constructor
  · intro works
    exact nomatch idle.symm.trans works
  · intro works
    exact nomatch idle.symm.trans works
  · intro _ member arms
    exact nomatch noArms.symm.trans arms
  · intro _ member arms
    exact nomatch noArms.symm.trans arms

/-- A run between two steps knows that its instance is not armed and every wait listed. -/
theorem Run.Minds.of_listed {run : Run} (noArms : run.arms = none)
    (listed : ∀ stepIndex, stores.awaits run.instanceId stepIndex = true →
      stores.listed (run.instanceId, stepIndex) = true)
    (armed : stores.armed run.instanceId = none) : run.Minds stores := by
  constructor
  · intro _ stepIndex awaits _
    exact listed stepIndex awaits
  · intro _
    rw [armed, noArms]
  · intro _ member arms
    exact nomatch noArms.symm.trans arms
  · intro _ member arms
    exact nomatch noArms.symm.trans arms

/-- A timer that is added is there. -/
theorem Stores.addTimer_score (stores : Stores) (resumeAt : Nat) (member other : Member) :
    (stores.addTimer resumeAt member).timers.score other =
      if other = member then some resumeAt else stores.timers.score other := rfl

theorem Stores.addTimer_added (stores : Stores) (resumeAt : Nat) (member other : Member) :
    (stores.addTimer resumeAt member).added other =
      if other = member then resumeAt :: stores.added member else stores.added other := by
  simp [Stores.addTimer, Function.update_apply]

/-- A run arms the timeout of a step, in an instance where none is armed. -/
theorem WaitsKept.arm (watched : stores.Watched) {instanceId : InstanceId} {eventName : Text}
    {stepIndex : StepIndex} {resumeAt : Nat} (present : stores.instances instanceId ≠ none)
    (active : stores.instances instanceId ≠ some .pending)
    (unarmed : stores.armed instanceId = none) (mine : stores.runner instanceId = some me) :
    WaitsKept (some me) stores
      { stores.addTimer resumeAt (.eventTimeout instanceId eventName (some stepIndex)) with
        armed := Function.update stores.armed instanceId
          (some (.eventTimeout instanceId eventName (some stepIndex))) } := by
  have more : ∀ member, (stores.added member).length ≤
      ((stores.addTimer resumeAt
        (.eventTimeout instanceId eventName (some stepIndex))).added member).length := by
    intro member
    rw [Stores.addTimer_added]
    split
    next same => exact same ▸ Nat.le_succ _
    next => exact Nat.le_refl _
  have there : ∀ member, stores.timers.score member ≠ none →
      (stores.addTimer resumeAt
        (.eventTimeout instanceId eventName (some stepIndex))).timers.score member ≠ none := by
    intro member was
    rw [Stores.addTimer_score]
    split
    · exact Option.some_ne_none _
    · exact was
  constructor
  · constructor
    · intro waiter was waits
      refine (watched.kept waiter was waits).imp_left ?_
      exact fun ⟨listed, timer⟩ => ⟨listed, there _ timer⟩
    · exact watched.listed
    · intro other pending
      have apart : other ≠ instanceId := by
        rintro rfl
        exact active pending
      simpa [apart] using watched.unarmed other pending
    · intro other armed
      by_cases same : other = instanceId
      · exact same ▸ present
      · exact watched.armed other (by simpa [same] using armed)
    · intro member scored owner name stepId is
      simp only [Stores.addTimer_score] at scored
      split at scored
      next same =>
        subst same
        obtain ⟨rfl, rfl, rfl⟩ := Member.eventTimeout.inj is
        exact ⟨present, stepIndex, rfl, .inr (.inl (by simp))⟩
      next =>
        obtain ⟨present', index, rfl, where'⟩ := watched.timers member scored owner name stepId is
        refine ⟨present', index, rfl, ?_⟩
        rcases where' with row | armed | isOver | reaped
        · exact .inl row
        · have apart : owner ≠ instanceId := by
            rintro rfl
            exact nomatch unarmed.symm.trans armed
          exact .inr (.inl (by simpa [apart] using armed))
        · exact .inr (.inr (.inl isOver))
        · exact .inr (.inr (.inr reaped))
    · exact watched.unique
  · refine { Stores.Minds.refl stores with added := more, idle := ?_, armed := ?_ }
    · intro member idle
      by_cases same : member = .eventTimeout instanceId eventName (some stepIndex)
      · subst same
        right
        simp [Stores.addTimer_added]
      · refine .inl ⟨fun armed => ?_, idle.2⟩
        by_cases own : member.instanceId = instanceId
        · simp only [own, Function.update_self] at armed
          exact same (Option.some.inj armed).symm
        · exact idle.1 (by simpa [own] using armed)
    · intro member key own armed
      have apart : key.1 ≠ instanceId := by
        rintro rfl
        exact nomatch unarmed.symm.trans armed
      exact .inl (by simpa [apart] using armed)
  · intro other _
    rfl
  · intro owner apart
    have differs : ∀ other, stores.runner other = some owner → other ≠ instanceId := by
      rintro _ runs rfl
      exact apart (mine.symm.trans runs)
    constructor
    · intro other runs
      simp [differs other runs]
    · exact fun _ _ _ awaits => awaits
    · intro member _ _ _ _ was
      exact .inl (there member was)

/-- A row that waits after an insert waited before, or it is the new one. -/
theorem Stores.awaits_insertStep {instanceId other : InstanceId} {row : StepRow}
    {stepIndex : StepIndex}
    (awaits : (stores.insertStep instanceId row).awaits other stepIndex = true) :
    stores.awaits other stepIndex = true ∨
      other = instanceId ∧ stepIndex = row.stepIndex ∧ row.awaits = true := by
  obtain ⟨found, member, index, waits⟩ := Stores.awaits_iff.mp awaits
  rcases mem_insertStep member with old | ⟨same, rfl⟩
  · exact .inl (Stores.awaits_iff.mpr ⟨found, old, index, waits⟩)
  · exact .inr ⟨same, index.symm, waits⟩

theorem Stores.hasRow_insertStep {instanceId other : InstanceId} {row : StepRow}
    {stepIndex : StepIndex} (there : stores.hasRow other stepIndex = true) :
    (stores.insertStep instanceId row).hasRow other stepIndex = true := by
  obtain ⟨found, member, index⟩ := Stores.hasRow_iff.mp there
  refine Stores.hasRow_iff.mpr ⟨found, ?_, index⟩
  rw [Stores.steps_insertStep]
  split
  next same => exact List.mem_append_left _ (same ▸ member)
  next => exact member

/-- A run inserts the row of a step that has none. -/
theorem WaitsKept.insert (watched : stores.Watched) (registered : stores.Registered)
    {instanceId : InstanceId} {row : StepRow}
    (active : stores.instances instanceId ≠ some .pending)
    (fresh : ∀ old ∈ stores.steps instanceId, old.stepIndex ≠ row.stepIndex)
    (mine : stores.runner instanceId = some me) :
    WaitsKept (some me) stores (stores.insertStep instanceId row) := by
  have noRow : stores.hasRow instanceId row.stepIndex ≠ true := by
    intro there
    obtain ⟨old, member, index⟩ := Stores.hasRow_iff.mp there
    exact fresh old member index
  have awaits : ∀ other stepIndex, stores.hasRow other stepIndex = true →
      (stores.insertStep instanceId row).awaits other stepIndex = true →
        stores.awaits other stepIndex = true := by
    intro other stepIndex there waits
    rcases Stores.awaits_insertStep waits with old | ⟨rfl, rfl, _⟩
    · exact old
    · exact absurd there noRow
  have minds : stores.Minds (stores.insertStep instanceId row) :=
    { Stores.Minds.refl stores with
      hasRow := fun _ _ => Stores.hasRow_insertStep
      awaits := awaits
      armed := fun _ _ _ is => .inl is
      expiring := fun _ _ marked => .inl marked }
  constructor
  · constructor
    · intro waiter was waits
      obtain ⟨alive, waits⟩ := Stores.waits_iff.mp waits
      have there := registered.hasRow (Stores.listed_iff.mpr ⟨waiter, was, rfl⟩)
      exact watched.kept waiter was (Stores.waits_iff.mpr ⟨alive, awaits _ _ there waits⟩)
    · intro other stepIndex pending waits
      rcases Stores.awaits_insertStep waits with old | ⟨rfl, _⟩
      · exact watched.listed other stepIndex pending old
      · exact absurd pending active
    · exact watched.unarmed
    · exact watched.armed
    · exact fun member there => minds.sound (watched.timers member there)
    · intro other one first two second same
      rcases mem_insertStep first with old | ⟨rfl, rfl⟩
      · rcases mem_insertStep second with old' | ⟨rfl, rfl⟩
        · exact watched.unique other one old two old' same
        · exact absurd same (fresh one old)
      · rcases mem_insertStep second with old' | ⟨_, rfl⟩
        · exact absurd same.symm (fresh two old')
        · rfl
  · exact minds
  · intro other _
    rfl
  · intro owner apart
    have differs : ∀ other, stores.runner other = some owner → other ≠ instanceId := by
      rintro _ runs rfl
      exact apart (mine.symm.trans runs)
    constructor
    · exact fun _ _ => rfl
    · intro other stepIndex runs waits
      rcases Stores.awaits_insertStep waits with old | ⟨same, _⟩
      · exact old
      · exact absurd same (differs other runs)
    · exact fun _ _ _ _ _ there => .inl there

/-- A run inserts the waiter of the step whose timeout it has armed. -/
theorem WaitsKept.register (watched : stores.Watched) {waiter : Waiter} {nextWaiter : Nat}
    (armed : stores.armed waiter.instanceId = some waiter.timer)
    (row : stores.hasRow waiter.instanceId waiter.stepIndex = true)
    (timer : stores.timers.score waiter.timer ≠ none ∨ stores.Shut waiter.key)
    (active : stores.instances waiter.instanceId ≠ some .pending)
    (mine : stores.runner waiter.instanceId = some me) :
    WaitsKept (some me) stores
      { stores with
        waiters := stores.waiters ++ [waiter]
        nextWaiter := nextWaiter
        registrations := waiter :: stores.registrations
        armed := Function.update stores.armed waiter.instanceId none } := by
  have more : ∀ key, stores.listed key = true →
      Stores.listed { stores with
        waiters := stores.waiters ++ [waiter]
        nextWaiter := nextWaiter
        registrations := waiter :: stores.registrations
        armed := Function.update stores.armed waiter.instanceId none } key = true := by
    intro key listed
    obtain ⟨other, was, is⟩ := Stores.listed_iff.mp listed
    exact Stores.listed_iff.mpr ⟨other, List.mem_cons_of_mem _ was, is⟩
  have minds : stores.Minds { stores with
      waiters := stores.waiters ++ [waiter]
      nextWaiter := nextWaiter
      registrations := waiter :: stores.registrations
      armed := Function.update stores.armed waiter.instanceId none } := by
    refine { Stores.Minds.refl stores with
      registrations := fun _ => List.mem_cons_of_mem _, idle := ?_, armed := ?_ }
    · intro member idle
      refine .inl ⟨fun still => ?_, fun other was => ?_⟩
      · by_cases own : member.instanceId = waiter.instanceId
        · simp [own] at still
        · exact idle.1 (by simpa [own] using still)
      · rcases List.mem_cons.mp was with rfl | old
        · rintro rfl
          exact idle.1 armed
        · exact idle.2 other old
    · intro member key own still
      by_cases same : key.1 = waiter.instanceId
      · rw [same, armed] at still
        obtain rfl := Option.some.inj still
        obtain rfl := Option.some.inj own
        exact .inr (.inl row)
      · exact .inl (by simpa [same] using still)
  constructor
  · constructor
    · intro other was waits
      rcases List.mem_cons.mp was with rfl | old
      · rcases timer with there | shut
        · exact .inl ⟨List.mem_append_right _ List.mem_cons_self, there⟩
        · exact nomatch waits.symm.trans shut.not_waits
      · exact (watched.kept other old waits).imp_left
          (And.imp_left (List.mem_append_left _))
    · intro other stepIndex pending awaits
      exact more _ (watched.listed other stepIndex pending awaits)
    · intro other pending
      have apart : other ≠ waiter.instanceId := by
        rintro rfl
        exact active pending
      simpa [apart] using watched.unarmed other pending
    · intro other still
      by_cases same : other = waiter.instanceId
      · simp [same] at still
      · exact watched.armed other (by simpa [same] using still)
    · exact fun member there => minds.sound (watched.timers member there)
    · exact watched.unique
  · exact minds
  · intro other _
    rfl
  · intro owner apart
    have differs : ∀ other, stores.runner other = some owner → other ≠ waiter.instanceId := by
      rintro _ runs rfl
      exact apart (mine.symm.trans runs)
    constructor
    · intro other runs
      simp [differs other runs]
    · exact fun _ _ _ awaits => awaits
    · exact fun _ _ _ _ _ there => .inl there

/-- A run that has its instance finds it there and not pending. -/
theorem Run.Owns.active {run : Run} (owns : run.Owns me stores) (owned : stores.Owned)
    (inner : ¬ run.phase.outer) : stores.runner run.instanceId = some me ∧
      stores.instances run.instanceId ≠ none ∧
      stores.instances run.instanceId ≠ some .pending := by
  have mine := owns inner
  obtain ⟨status, is, apart⟩ := owned.idle run.instanceId (by simp [mine])
  refine ⟨mine, by simp [is], fun pending => apart ?_⟩
  exact Option.some.inj (is.symm.trans pending)

/-- The rows of a run's instance that wait are those before a row that does not wait. -/
theorem Run.Minds.inserted {run later : Run} {row : StepRow} (knows : run.Minds stores)
    (works : run.phase.working = true) (idle : run.registers = false) (noArms : run.arms = none)
    (full : row.awaits = false) (place : later.instanceId = run.instanceId)
    (laterArms : later.arms = none) : later.Minds (stores.insertStep run.instanceId row) := by
  apply Run.Minds.of_listed laterArms
  · intro stepIndex awaits
    rw [place] at awaits ⊢
    rcases Stores.awaits_insertStep awaits with old | ⟨_, _, waits⟩
    · exact knows.listed works stepIndex old (.inl idle)
    · exact nomatch full.symm.trans waits
  · rw [place]
    exact (knows.armed works).trans noArms

/-- A move of a run keeps the waits. -/
theorem RunMove.waits {run later : Run} (move : RunMove triggers me stores run after later)
    (owned : stores.Owned) (owns : run.Owns me stores) (registered : stores.Registered)
    (registers : run.Registers stores) (watched : stores.Watched) (knows : run.Minds stores) :
    WaitsKept (some me) stores after ∧ later.Minds after := by
  have still : WaitsKept (some me) stores stores :=
    .of_turns watched (.of_same watched rfl rfl rfl (fun _ _ _ => .rfl) (fun _ => Nat.le_refl _)
      rfl rfl rfl rfl) rfl
  -- a run between two steps goes on
  have onward : ∀ {later : Run}, run.phase.working = true → run.registers = false →
      run.arms = none → later.instanceId = run.instanceId → later.arms = none →
        later.Minds stores := by
    intro later works idle noArms place laterArms
    apply Run.Minds.of_listed laterArms
    · intro stepIndex awaits
      rw [place] at awaits ⊢
      exact knows.listed works stepIndex awaits (.inl idle)
    · rw [place]
      exact (knows.armed works).trans noArms
  cases move with
  | @outer after phase was outer same =>
    refine ⟨.of_turns watched (.of_same watched same.instances same.steps same.waiters ?_ ?_
      same.armed same.reaped same.expiring same.registrations) same.armed, ?_⟩
    · intro instanceId eventName stepId
      rw [same.timers _ (by simp)]
    · exact fun _ => same.added ▸ Nat.le_refl _
    · apply Run.Minds.of_idle
      cases phase <;> simp_all [Run.goto, RunPhase.outer, RunPhase.working]
  | @giveUp phase inner outer =>
    refine ⟨.of_turns watched (.of_same watched rfl rfl rfl (fun _ _ _ => .rfl)
      (fun _ => Nat.le_refl _) rfl rfl rfl rfl) rfl, ?_⟩
    apply Run.Minds.of_idle
    cases phase <;> simp_all [Run.goto, RunPhase.outer, RunPhase.working]
  | renew same =>
    have turns : stores.Turns after :=
      .of_same watched same.instances same.steps same.waiters
        (fun _ _ _ => by rw [same.timers _ (by simp)]) (fun _ => same.added ▸ Nat.le_refl _)
        same.armed same.reaped same.expiring same.registrations
    refine ⟨.of_turns watched turns same.armed, ?_⟩
    exact knows.kept turns.minds (turns.leaves fun _ _ => same.armed ▸ rfl) owns registered registers
  | insert phase missing =>
    have unarmed : stores.armed run.instanceId = none := by
      by_contra armed
      exact watched.armed _ armed missing
    refine ⟨.of_turns watched (.of_status watched owned (.inr missing) ?_ ?_ ?_ rfl
      (fun _ there => .inl there) rfl rfl (.inl rfl) (fun _ was => was) rfl rfl) rfl,
      .of_idle rfl⟩
    · simp [Stores.setStatus]
    · intro other apart
      simp [Stores.setStatus, apart]
    · refine fun _ => ⟨fun stepIndex awaits => ?_, unarmed⟩
      exact absurd missing (owned.present_of_row (Stores.hasRow_of_awaits awaits))
  | claim phase pending =>
    have alive : stores.gone run.instanceId = false := by simp [Stores.gone, pending]
    refine ⟨.of_turns watched (.of_status watched owned (.inl alive) ?_ ?_ ?_ rfl
      (fun _ there => .inl there) rfl rfl (.inl rfl) (fun _ was => was) rfl rfl) rfl, ?_⟩
    · simp [Stores.setStatus]
    · intro other apart
      simp [Stores.setStatus, apart]
    · intro is
      simp [Stores.setStatus] at is
    · exact .of_listed rfl (fun stepIndex => watched.listed _ stepIndex pending)
        (watched.unarmed _ pending)
  | load phase =>
    refine ⟨still, onward ?_ ?_ ?_ rfl rfl⟩
    · simp [phase, RunPhase.working]
    · simp [Run.registers, phase]
    · simp [Run.arms, phase]
  | returns phase => exact ⟨still, .of_idle rfl⟩
  | throws inner => exact ⟨still, .of_idle rfl⟩
  | suspend phase =>
    refine ⟨still, onward ?_ ?_ ?_ rfl rfl⟩
    · simp [phase, RunPhase.working]
    · simp [Run.registers, phase]
    · simp [Run.arms, phase]
  | recollect phase =>
    refine ⟨still, onward ?_ ?_ ?_ rfl ?_⟩
    · simp [phase, RunPhase.working]
    · simp [Run.registers, phase]
    · simp [Run.arms, phase]
    · simp [Run.arms, phase]
  | «meet» phase =>
    refine ⟨still, onward ?_ ?_ ?_ rfl ?_⟩
    · simp [phase, RunPhase.working]
    · simp [Run.registers, phase]
    · simp [Run.arms, phase]
    · simp [Run.arms, Run.goto]
  | clear phase =>
    refine ⟨still, onward ?_ ?_ ?_ rfl ?_⟩
    · simp [phase, RunPhase.working]
    · simp [Run.registers, phase]
    · simp [Run.arms, phase]
    · simp [Run.arms, Run.goto]
  | schedule phase =>
    refine ⟨still, onward ?_ ?_ ?_ rfl ?_⟩
    · simp [phase, RunPhase.working]
    · simp [Run.registers, phase]
    · simp [Run.arms, phase]
    · simp [Run.arms, Run.goto]
  | @perform call output phase kind =>
    have goesOn : (run.perform me stores call output).2.Minds stores := by
      refine onward ?_ ?_ ?_ rfl ?_
      · simp [phase, RunPhase.working]
      · simp [Run.registers, phase]
      · simp [Run.arms, phase]
      · rcases kind with rfl | rfl <;> rfl
    refine ⟨.of_turns watched (.of_same watched rfl rfl rfl (fun _ _ _ => .rfl)
      (fun _ => Nat.le_refl _) rfl rfl rfl rfl) rfl, ?_⟩
    exact ⟨goesOn.listed, goesOn.armed, goesOn.recording, goesOn.registering⟩
  | armWait phase =>
    have works : run.phase.working = true := by simp [phase, RunPhase.working]
    refine ⟨.of_turns watched (.of_same watched rfl rfl rfl (fun _ _ _ => ?_)
      (fun member => ?_) rfl rfl rfl rfl) rfl, .of_listed rfl ?_ ?_⟩
    · simp [Stores.addTimer_score]
    · rw [Stores.addTimer_added]
      split
      next same => exact same ▸ Nat.le_succ _
      next => exact Nat.le_refl _
    · intro stepIndex awaits
      exact knows.listed works stepIndex awaits (.inl (by simp [Run.registers, phase]))
    · exact (knows.armed works).trans (by simp [Run.arms, phase])
  | armTimeout phase =>
    have works : run.phase.working = true := by simp [phase, RunPhase.working]
    obtain ⟨mine, present, active⟩ := owns.active owned (by simp [phase, RunPhase.outer])
    have unarmed : stores.armed run.instanceId = none :=
      (knows.armed works).trans (by simp [Run.arms, phase])
    refine ⟨.arm watched present active unarmed mine, ?_⟩
    constructor
    · intro _ stepIndex awaits _
      exact knows.listed works stepIndex awaits (.inl (by simp [Run.registers, phase]))
    · intro _
      simp [Run.goto, Run.arms, Run.stepId]
    · intro _ member arms
      obtain rfl := Option.some.inj arms
      exact .inl (by simp [Stores.addTimer, Run.goto, Run.stepId])
    · rintro ⟨⟩
  | @recordResult call output resumeAt phase kind fresh =>
    have works : run.phase.working = true := by simp [phase, RunPhase.working]
    obtain ⟨mine, _, active⟩ := owns.active owned (by simp [phase, RunPhase.outer])
    refine ⟨.insert watched registered active fresh mine, ?_⟩
    apply knows.inserted works
    · simp [Run.registers, phase]
    · rcases kind with rfl | rfl <;> simp [Run.arms, phase]
    · rcases kind with rfl | rfl <;> rfl
    · rfl
    · rfl
  | recordWait phase fresh =>
    have works : run.phase.working = true := by simp [phase, RunPhase.working]
    obtain ⟨mine, _, active⟩ := owns.active owned (by simp [phase, RunPhase.outer])
    refine ⟨.insert watched registered active fresh mine, ?_⟩
    apply knows.inserted works
    · simp [Run.registers, phase]
    · simp [Run.arms, phase]
    · rfl
    · rfl
    · rfl
  | recordPending phase fresh =>
    have works : run.phase.working = true := by simp [phase, RunPhase.working]
    have idle : run.registers = false := by simp [Run.registers, phase]
    obtain ⟨mine, _, active⟩ := owns.active owned (by simp [phase, RunPhase.outer])
    refine ⟨.insert watched registered active fresh mine, ?_⟩
    constructor
    · intro _ stepIndex awaits other
      rcases Stores.awaits_insertStep awaits with old | ⟨_, same, _⟩
      · exact knows.listed works stepIndex old (.inl idle)
      · rcases other with not | apart
        · cases not
        · exact absurd same apart
    · intro _
      exact (knows.armed works).trans (by simp [Run.arms, phase, Run.goto, Run.stepId])
    · rintro ⟨⟩
    · intro _ member arms
      obtain rfl := Option.some.inj arms
      rcases knows.recording idle _ (by simp [Run.arms, phase]; rfl) with there | isOver | row
      · exact .inl there
      · exact .inr (.inl isOver)
      · obtain ⟨old, member, index⟩ := Stores.hasRow_iff.mp row
        exact absurd index (fresh old member)
  | @register eventName matchCriteria expiresAt phase =>
    have works : run.phase.working = true := by simp [phase, RunPhase.working]
    have registering : run.registers = true := by simp [Run.registers, phase]
    have arms : run.arms = some (.eventTimeout run.instanceId eventName (some run.stepId)) := by
      simp [Run.arms, phase]
    obtain ⟨mine, _, active⟩ := owns.active owned (by simp [phase, RunPhase.outer])
    obtain ⟨row, there, index, _⟩ := (registers _ _ _ phase).1
    refine ⟨WaitsKept.register watched ((knows.armed works).trans arms)
      (Stores.hasRow_iff.mpr ⟨row, there, index⟩) (knows.registering registering _ arms) active mine,
      .of_listed rfl ?_ ?_⟩
    · intro stepIndex awaits
      by_cases own : stepIndex = run.stepId
      · exact Stores.listed_iff.mpr ⟨_, List.mem_cons_self, by rw [own]; rfl⟩
      · obtain ⟨waiter, was, is⟩ :=
          Stores.listed_iff.mp (knows.listed works stepIndex awaits (.inr own))
        exact Stores.listed_iff.mpr ⟨waiter, List.mem_cons_of_mem _ was, is⟩
    · simp [Run.goto]
  | @finish status phase =>
    by_cases running : stores.instances run.instanceId = some .running
    · have alive : stores.gone run.instanceId = false := by simp [Stores.gone, running]
      refine ⟨.of_turns watched (.of_status watched owned (.inl alive) ?_ ?_ ?_ rfl
        (fun _ there => .inl there) rfl rfl (.inl rfl) (fun _ was => was) rfl rfl) rfl,
        .of_idle rfl⟩
      · simp [Run.finish_instances, running]
      · intro other apart
        simp [Run.finish_instances, apart]
      · intro pending
        rw [Run.finish_instances, if_pos ⟨rfl, running⟩] at pending
        obtain rfl := Option.some.inj pending
        have works : run.phase.working = true := by simp [phase, RunPhase.working]
        refine ⟨fun stepIndex awaits => ?_, ?_⟩
        · exact knows.listed works stepIndex awaits (.inl (by simp [Run.registers, phase]))
        · exact (knows.armed works).trans (by simp [Run.arms, phase])
    · refine ⟨.of_turns watched (.of_same watched ?_ rfl rfl (fun _ _ _ => .rfl)
        (fun _ => Nat.le_refl _) rfl rfl rfl rfl) rfl, .of_idle rfl⟩
      simp [Run.finish, Run.letGo, running]

/-- A poll or an event task takes from the waits what is not needed: it answers steps, deletes
waiters, takes timeouts out, and changes its own mark. -/
structure Stores.Takes (me : Nat) (stores after : Stores) : Prop where
  instances : after.instances = stores.instances
  registrations : after.registrations = stores.registrations
  armed : after.armed = stores.armed
  reaped : after.reaped = stores.reaped
  added : after.added = stores.added
  awaits : ∀ instanceId stepIndex, after.awaits instanceId stepIndex = true →
    stores.awaits instanceId stepIndex = true
  hasRow : ∀ instanceId stepIndex, stores.hasRow instanceId stepIndex = true →
    after.hasRow instanceId stepIndex = true
  unique : ∀ instanceId, ∀ one ∈ after.steps instanceId, ∀ two ∈ after.steps instanceId,
    one.stepIndex = two.stepIndex → one = two
  kept : ∀ waiter ∈ stores.registrations, after.waits waiter.key = true →
    waiter ∈ stores.waiters → stores.timers.score waiter.timer ≠ none →
      waiter ∈ after.waiters ∧ after.timers.score waiter.timer ≠ none ∨ after.Expiring waiter.key
  fewer : ∀ member, after.timers.score member ≠ none → stores.timers.score member ≠ none
  timers : ∀ member key, stores.armed key.1 = some member → member.key = some key →
    stores.timers.score member ≠ none → after.timers.score member ≠ none ∨ stores.Shut key ∨
      stores.listed key = true
  others : ∀ other ≠ me, after.expiring other = stores.expiring other
  unmarked : ∀ key, stores.expiring me = some key → after.expiring me = some key ∨ after.Shut key

theorem Stores.Takes.waitsKept (takes : stores.Takes me after) (watched : stores.Watched) :
    WaitsKept (some me) stores after := by
  have waits : ∀ key, after.waits key = true → stores.waits key = true := by
    intro key waits
    obtain ⟨alive, awaits⟩ := Stores.waits_iff.mp waits
    refine Stores.waits_iff.mpr ⟨?_, takes.awaits _ _ awaits⟩
    rwa [Stores.gone, takes.instances] at alive
  have expiring : ∀ key, stores.Expiring key → after.Expiring key ∨ after.Shut key := by
    rintro key ⟨poll, marked⟩
    by_cases own : poll = me
    · subst own
      exact (takes.unmarked key marked).imp_left fun still => ⟨poll, still⟩
    · exact .inl ⟨poll, (takes.others poll own).trans marked⟩
  have minds : stores.Minds after := {
    present := fun _ there => takes.instances ▸ there
    isOver := fun _ isOver => by rwa [Stores.Over, Stores.gone, takes.instances]
    hasRow := takes.hasRow
    awaits := fun _ _ _ => takes.awaits _ _
    registrations := fun _ was => takes.registrations ▸ was
    reaped := fun _ was => takes.reaped ▸ was
    added := fun _ => takes.added ▸ Nat.le_refl _
    idle := fun _ idle => .inl ⟨takes.armed ▸ idle.1, takes.registrations ▸ idle.2⟩
    armed := fun _ _ _ is => .inl (takes.armed ▸ is)
    expiring := fun key _ => expiring key }
  constructor
  · constructor
    · intro waiter was waits'
      rw [takes.registrations] at was
      rcases watched.kept waiter was (waits _ waits') with ⟨there, timer⟩ | marked
      · exact takes.kept waiter was waits' there timer
      · rcases expiring _ marked with still | shut
        · exact .inr still
        · exact nomatch waits'.symm.trans shut.not_waits
    · intro instanceId stepIndex pending awaits
      rw [takes.instances] at pending
      exact minds.listed (watched.listed _ _ pending (takes.awaits _ _ awaits))
    · intro instanceId pending
      rw [takes.instances] at pending
      rw [takes.armed]
      exact watched.unarmed instanceId pending
    · intro instanceId armed
      rw [takes.armed] at armed
      rw [takes.instances]
      exact watched.armed instanceId armed
    · exact fun member there => minds.sound (watched.timers member (takes.fewer member there))
    · exact takes.unique
  · exact minds
  · intro other apart
    exact takes.others other fun same => apart (same ▸ rfl)
  · intro owner _
    constructor
    · exact fun _ _ => takes.armed ▸ rfl
    · exact fun _ _ _ => takes.awaits _ _
    · exact fun member key _ => takes.timers member key

end Notifkit.Workflow
