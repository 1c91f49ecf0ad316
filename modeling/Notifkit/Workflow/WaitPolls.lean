import Notifkit.Workflow.WaitMoves

/-!
# What polls and event tasks do to the waits

A poll passes from the instance of its timeout to the step's row, to the waiters, to the step
again, and to the timeout itself; what it has seen at one of them it still relies on at the
next. An event task answers a step and then deletes the waiter it came to.
-/

namespace Notifkit.Workflow

variable {triggers : InstanceId → Trigger} {stores after : Stores} {me : Nat}

/-- Nothing is taken. -/
theorem Stores.Takes.refl (watched : stores.Watched) (me : Nat) : stores.Takes me stores where
  instances := rfl
  registrations := rfl
  armed := rfl
  reaped := rfl
  added := rfl
  awaits _ _ awaits := awaits
  hasRow _ _ there := there
  unique := watched.unique
  kept _ _ _ there timer := .inl ⟨there, timer⟩
  fewer _ there := there
  timers _ _ _ _ there := .inl there
  others _ _ := rfl
  unmarked _ marked := .inl marked

theorem Stores.awaits_answerStep {instanceId other : InstanceId} {stepIndex index : StepIndex}
    {output : Json} (written : output ≠ .null)
    (awaits : (stores.answerStep instanceId stepIndex output).awaits other index = true) :
    stores.awaits other index = true ∧ ¬ (other = instanceId ∧ index = stepIndex) := by
  obtain ⟨row, member, same, waits⟩ := Stores.awaits_iff.mp awaits
  rcases mem_answerStep member with old | ⟨rfl, old, was, rfl, rfl⟩
  · refine ⟨Stores.awaits_iff.mpr ⟨row, old, same, waits⟩, ?_⟩
    rintro ⟨rfl, rfl⟩
    -- the row would have been written over
    simp only [Stores.answerStep, Function.update_self] at member
    obtain ⟨before, _, is⟩ := List.mem_map.mp member
    split at is
    next =>
      subst is
      exact written (StepRow.awaits_iff.mp waits).2
    next apart =>
      subst is
      exact apart same
  · exact absurd (StepRow.awaits_iff.mp waits).2 written

theorem Stores.hasRow_answerStep {instanceId other : InstanceId} {stepIndex index : StepIndex}
    {output : Json} (there : stores.hasRow other index = true) :
    (stores.answerStep instanceId stepIndex output).hasRow other index = true := by
  obtain ⟨row, member, same⟩ := Stores.hasRow_iff.mp there
  by_cases own : other = instanceId
  · subst own
    refine Stores.hasRow_iff.mpr ⟨if row.stepIndex = stepIndex then { row with output := output }
      else row, ?_, ?_⟩
    · simp only [Stores.answerStep, Function.update_self]
      exact List.mem_map.mpr ⟨row, member, rfl⟩
    · split
      · exact same
      · exact same
  · refine Stores.hasRow_iff.mpr ⟨row, ?_, same⟩
    simpa [Stores.answerStep, own] using member

/-- Rows stay told apart by their index when an output is written. -/
theorem Stores.unique_answerStep (watched : stores.Watched) {instanceId : InstanceId}
    {stepIndex : StepIndex} {output : Json} (other : InstanceId) :
    ∀ one ∈ (stores.answerStep instanceId stepIndex output).steps other,
      ∀ two ∈ (stores.answerStep instanceId stepIndex output).steps other,
        one.stepIndex = two.stepIndex → one = two := by
  intro one first two second same
  by_cases own : other = instanceId
  · subst own
    simp only [Stores.answerStep, Function.update_self] at first second
    obtain ⟨row, was, rfl⟩ := List.mem_map.mp first
    obtain ⟨row', was', rfl⟩ := List.mem_map.mp second
    have same' : row.stepIndex = row'.stepIndex := by
      split at same <;> split at same <;> exact same
    rw [watched.unique other row was row' was' same']
  · simp only [Stores.answerStep, Function.update_of_ne own] at first second
    exact watched.unique other one first two second same

/-- A step is answered. -/
theorem Stores.Takes.answer (watched : stores.Watched) {instanceId : InstanceId}
    {stepIndex : StepIndex} {output : Json} (written : output ≠ .null) :
    stores.Takes me (stores.answerStep instanceId stepIndex output) :=
  { Stores.Takes.refl watched me with
    awaits := fun _ _ awaits => (Stores.awaits_answerStep written awaits).1
    hasRow := fun _ _ => Stores.hasRow_answerStep
    unique := Stores.unique_answerStep watched
    kept := fun _ _ _ there timer => .inl ⟨there, timer⟩
    unmarked := fun _ marked => .inl marked }

/-- A poll takes its mark away from a step that does not need it. -/
theorem Stores.Takes.unmark (takes : stores.Takes me after)
    (shut : ∀ key, stores.expiring me = some key → after.Shut key) (mine : after.expiring = stores.expiring) :
    stores.Takes me (after.expire me none) :=
  { takes with
    kept := fun waiter was waits there timer => by
      rcases takes.kept waiter was waits there timer with still | ⟨poll, marked⟩
      · exact .inl still
      · by_cases own : poll = me
        · subst own
          have isOver := (shut _ (mine ▸ marked)).not_waits
          exact nomatch waits.symm.trans isOver
        · exact .inr ⟨poll, by simpa [Stores.expire, own] using marked⟩
    others := fun other apart => by
      simpa [Stores.expire, apart] using takes.others other apart
    unmarked := fun key marked => .inr (shut key marked) }

/-- What a poll's mark stands for: a step that is over, or the one it is timing out. -/
def Poll.Marks (me : Nat) (stores : Stores) (poll : Poll) : Prop :=
  ∀ key, stores.expiring me = some key → stores.Shut key ∨ poll.expires = some key

/-- A poll that times nothing out may be marked only for a step that is over. -/
theorem Poll.Marks.shut {poll : Poll} (marks : poll.Marks me stores) (none : poll.expires = none)
    {key : InstanceId × StepIndex} (marked : stores.expiring me = some key) : stores.Shut key := by
  rcases marks key marked with shut | own
  · exact shut
  · exact nomatch none.symm.trans own

/-- A poll that has looked at the step's row: the step has one, or is over. -/
theorem Poll.Minds.settled {poll : Poll} (knows : poll.Minds stores) (owned : stores.Owned)
    {key : InstanceId × StepIndex} (expires : poll.expires = some key)
    (idle : stores.waits key = false) : stores.Shut key := by
  unfold Poll.expires at expires
  split at expires
  next task rest phase first =>
    obtain ⟨_, isOver | row⟩ := knows.recording (.inr (.inl phase)) task rest key first expires
    · exact .inl isOver
    · exact Stores.shut_of_not_waits (owned.present_of_row row) row idle
  next stepIndex task rest phase first =>
    obtain ⟨_, isOver | row⟩ := knows.recording (.inr (.inr ⟨_, phase⟩)) task rest key first expires
    · exact .inl isOver
    · exact Stores.shut_of_not_waits (owned.present_of_row row) row idle
  next => cases expires

/-- A poll goes on with its tasks: what it is to know of the first one depends on its phase. -/
theorem Poll.Minds.goto {poll : Poll} {phase : PollPhase} (knows : poll.Minds stores)
    (checking : phase = .checkingOwn → ∀ member rest key, poll.tasks = member :: rest →
      member.key = some key → stores.Checked poll member key)
    (recording : (phase = .deleting ∨ phase = .selecting ∨ ∃ stepIndex, phase = .recording stepIndex) →
      ∀ member rest key, poll.tasks = member :: rest → member.key = some key →
        stores.Checked poll member key ∧
          (stores.Over key.1 ∨ stores.hasRow key.1 key.2 = true))
    (own : ∀ stepIndex, phase = .recording stepIndex → ∀ member rest key,
      poll.tasks = member :: rest → member.key = some key → stepIndex = key.2)
    (removing : (phase = .publishing ∨ phase = .removing) →
      ∀ member rest key, poll.tasks = member :: rest → member.key = some key →
        stores.Spent poll member key) : (poll.goto phase).Minds stores :=
  ⟨knows.since, knows.tasks, checking, recording, own, removing⟩

/-- A poll comes to its next task. -/
theorem Poll.Minds.next {poll : Poll} (knows : poll.Minds stores) : poll.next.Minds stores where
  since := knows.since
  tasks member listed := knows.tasks member (List.mem_of_mem_tail listed)
  checking := nofun
  recording := by rintro (phase | phase | ⟨_, phase⟩) <;> cases phase
  own := nofun
  removing := by rintro (phase | phase) <;> cases phase

/-- A poll is done with its timeout. -/
theorem Poll.Minds.spend {poll : Poll} {phase : PollPhase} (knows : poll.Minds stores)
    (done : phase = .publishing ∨ phase = .removing)
    (spent : ∀ member rest key, poll.tasks = member :: rest → member.key = some key →
      stores.Spent poll member key) : (poll.goto phase).Minds stores := by
  apply knows.goto
  · rintro rfl
    rcases done with done | done <;> cases done
  · rintro (rfl | rfl | ⟨_, rfl⟩) <;> rcases done with done | done <;> cases done
  · rintro _ rfl
    rcases done with done | done <;> cases done
  · exact fun _ => spent

/-- A timeout whose instance a poll finds pending. -/
theorem Stores.Watched.checked (watched : stores.Watched) (registered : stores.Registered)
    {poll : Poll} {member : Member} {key : InstanceId × StepIndex} (own : member.key = some key)
    (sound : stores.Sound member) (pending : stores.instances key.1 = some .pending) :
    stores.Checked poll member key := by
  obtain ⟨eventName, rfl⟩ := Member.of_key own
  obtain ⟨_, _, ⟨⟩, where'⟩ := sound _ _ _ rfl
  have unarmed := watched.unarmed key.1 pending
  by_cases row : stores.hasRow key.1 key.2 = true
  · exact .inr (.inl ⟨row, watched.listed _ _ pending⟩)
  · rcases where' with there | armed | isOver | reaped
    · exact absurd there row
    · exact nomatch unarmed.symm.trans armed
    · exact .inl isOver
    · refine .inr (.inr ⟨reaped, .inr ⟨?_, fun waiter was is => row ?_⟩⟩)
      · rw [Member.instanceId, unarmed]
        exact nofun
      · obtain ⟨place, _, step⟩ := Member.eventTimeout.inj is
        have listed : stores.listed key = true :=
          Stores.listed_iff.mpr ⟨waiter, was, Prod.ext place (Option.some.inj step)⟩
        exact registered.hasRow listed

/-- A poll that finds no waiter on the name has a timeout nobody needs. -/
theorem Stores.Watched.noWaiter (watched : stores.Watched) (owned : stores.Owned) {poll : Poll}
    {instanceId : InstanceId} {eventName : Text} {stepIndex : StepIndex}
    (checked : stores.Checked poll (.eventTimeout instanceId eventName (some stepIndex))
      (instanceId, stepIndex))
    (none : ∀ waiter ∈ stores.waiters,
      ¬ (waiter.instanceId = instanceId ∧ waiter.eventName = eventName)) :
    stores.Spent poll (.eventTimeout instanceId eventName (some stepIndex))
      (instanceId, stepIndex) := by
  rcases checked with isOver | ⟨row, listed⟩ | outdated
  · exact .inl (.inl isOver)
  · cases waits : stores.waits (instanceId, stepIndex) with
    | false => exact .inl (Stores.shut_of_not_waits (owned.present_of_row row) row waits)
    | true =>
      obtain ⟨_, awaits⟩ := Stores.waits_iff.mp waits
      obtain ⟨waiter, was, own⟩ := Stores.listed_iff.mp (listed awaits)
      obtain ⟨place, step⟩ := Prod.mk.inj own
      by_cases same : waiter.eventName = eventName
      · rcases watched.kept waiter was (own ▸ waits) with ⟨there, _⟩ | marked
        · exact absurd ⟨place, same⟩ (none waiter there)
        · exact .inr (.inl ⟨listed awaits, own ▸ marked⟩)
      · refine .inr (.inr (.inl ⟨waiter, was, own, fun is => same ?_⟩))
        exact (Member.eventTimeout.inj is).2.1
  · exact .inr (.inr (.inr outdated))

/-- A poll that finds the step answered, or no row of it, has a timeout nobody needs. -/
theorem Stores.Watched.stale (watched : stores.Watched) {poll : Poll} {member : Member}
    {key : InstanceId × StepIndex} (checked : stores.Checked poll member key)
    (isOver : ∀ row, stores.row? key.1 key.2 = some row → row.output ≠ .null) :
    stores.Spent poll member key := by
  rcases checked with isOver | ⟨row, _⟩ | outdated
  · exact .inl (.inl isOver)
  · refine .inl (.inr ⟨row, ?_⟩)
    rw [← Bool.not_eq_true]
    intro awaits
    obtain ⟨waiting, member, index, waits⟩ := Stores.awaits_iff.mp awaits
    cases found : stores.row? key.1 key.2 with
    | none =>
      have apart := List.find?_eq_none.mp found waiting member
      simp [index] at apart
    | some first =>
      have place : first.stepIndex = key.2 := by simpa using List.find?_some found
      have same := watched.unique key.1 first (List.mem_of_find?_eq_some found) waiting member
        (place.trans index.symm)
      subst same
      exact isOver first found (StepRow.awaits_iff.mp waits).2
  · exact .inr (.inr (.inr outdated))

/-- A poll deletes the waiters of its own step. -/
theorem Stores.Takes.deleteWaiters (watched : stores.Watched) {instanceId : InstanceId}
    {eventName : Text} {stepIndex : StepIndex}
    (own : ∀ waiter ∈ stores.waiters, waiter.instanceId = instanceId →
      waiter.eventName = eventName → stores.waits waiter.key = true →
        waiter.stepIndex = stepIndex)
    (shut : ∀ key, stores.expiring me = some key → stores.Shut key) :
    stores.Takes me (Stores.expire { stores with
        waiters := stores.waiters.filter fun waiter =>
          ¬ (waiter.instanceId = instanceId ∧ waiter.eventName = eventName) }
      me (some (instanceId, stepIndex))) :=
  { Stores.Takes.refl watched me with
    kept := fun waiter _ waits there timer => by
      by_cases matched : waiter.instanceId = instanceId ∧ waiter.eventName = eventName
      · obtain ⟨place, name⟩ := matched
        refine .inr ⟨me, ?_⟩
        simp only [Stores.expire, Function.update_self, Waiter.key, place,
          own waiter there place name waits]
      · exact .inl ⟨List.mem_filter.mpr ⟨there, decide_eq_true matched⟩, timer⟩
    others := fun other apart => by simp [Stores.expire, apart]
    unmarked := fun key marked => .inr (shut key marked) }

/-- A poll takes a timeout out that nobody needs. -/
theorem Stores.Takes.remove (watched : stores.Watched) (registered : stores.Registered) {poll : Poll}
    {member : Member}
    (spent : ∀ key, member.key = some key → stores.Spent poll member key)
    (current : stores.reaped member.instanceId = true →
      (poll.since member).length < (stores.added member).length →
        ∀ key, member.key = some key → stores.Shut key) :
    stores.Takes me { stores with timers := stores.timers.zrem member } :=
  { Stores.Takes.refl watched me with
    kept := fun waiter was waits there timer => by
      by_cases same : waiter.timer = member
      · subst same
        have idle : ¬ stores.Shut waiter.key := fun shut =>
          nomatch waits.symm.trans shut.not_waits
        rcases spent waiter.key rfl with shut | ⟨_, marked⟩ | ⟨other, was', own, apart⟩ |
          ⟨reaped, again | ⟨_, unused⟩⟩
        · exact absurd shut idle
        · exact .inr marked
        · have is := registered.distinct other was' waiter was (.inr own)
          exact absurd (congrArg Waiter.timer is) apart
        · exact absurd (current reaped again _ rfl) idle
        · exact absurd rfl (unused waiter was)
      · exact .inl ⟨there, by simpa [same] using timer⟩
    fewer := fun other there => by
      simp only [ScoredSet.zrem_score] at there
      split at there
      · exact absurd rfl there
      · exact there
    timers := fun other key armed own there => by
      by_cases same : other = member
      · subst same
        right
        rcases spent key own with shut | ⟨listed, _⟩ | ⟨waiter, was, is, _⟩ |
          ⟨reaped, again | ⟨unarmed, _⟩⟩
        · exact .inl shut
        · exact .inr listed
        · exact .inr (Stores.listed_iff.mpr ⟨waiter, was, is⟩)
        · exact .inl (current reaped again key own)
        · rw [Member.instanceId_of_key own] at unarmed
          exact absurd armed unarmed
      · exact .inl (by simpa [same] using there) }

/-- What a poll may do at its next command for the waits to be kept. -/
structure Poll.Spares (stores : Stores) (poll : Poll) (choice : PollChoice) : Prop where
  fails : choice = .fail → ∀ key, poll.expires = some key → stores.waits key = false
  deletes : choice = .proceed → poll.phase = .deleting → ∀ instanceId eventName stepId rest,
    poll.tasks = .eventTimeout instanceId eventName stepId :: rest →
      ∀ waiter ∈ stores.waiters, waiter.instanceId = instanceId → waiter.eventName = eventName →
        stores.waits waiter.key = true → stepId = some waiter.stepIndex
  removes : choice = .proceed → poll.phase = .removing → ∀ member rest,
    poll.tasks = member :: rest → stores.reaped member.instanceId = true →
      (poll.since member).length < (stores.added member).length →
        stores.gone member.instanceId = true ∨ ∀ key, member.key = some key → stores.Shut key

/-- A move of a poll keeps the waits. -/
theorem PollMove.waits {poll later : Poll} {choice : PollChoice}
    (move : PollMove me stores poll choice after later) (owned : stores.Owned)
    (registered : stores.Registered) (watched : stores.Watched) (knows : poll.Minds stores)
    (marks : poll.Marks me stores) (spares : poll.Spares stores choice) :
    WaitsKept (some me) stores after ∧ later.Minds after ∧ later.Marks me after := by
  have still : WaitsKept (some me) stores stores := (Stores.Takes.refl watched me).waitsKept watched
  have headSound : ∀ {member rest}, poll.tasks = member :: rest → stores.Sound member :=
    fun first => knows.tasks _ (first ▸ List.mem_cons_self)
  have quiet : ∀ {later : Poll}, poll.expires = none → later.Marks me stores :=
    fun none key marked => .inl (marks.shut none marked)
  cases move with
  | @claim now tasks phase early due =>
    have minds : stores.Minds { stores with
        timers := stores.timers.rescore tasks (now + WORKFLOW_TIMER_VISIBILITY_MS) } :=
      { Stores.Minds.refl stores with }
    refine ⟨.of_turns watched (.of_same watched rfl rfl rfl ?_ (fun _ => Nat.le_refl _)
      rfl rfl rfl rfl) rfl, ?_, ?_⟩
    · intro instanceId eventName stepId
      simp only [ScoredSet.rescore_score]
      split
      next listed =>
        obtain ⟨score, found, _⟩ := due _ listed
        simp [Option.mem_def.mp found]
      next => rfl
    · refine ⟨fun _ => Nat.le_refl _, fun member listed => ?_, nofun, ?_, nofun, ?_⟩
      · obtain ⟨score, found, _⟩ := due member listed
        exact minds.sound (watched.timers member (by simp [Option.mem_def.mp found]))
      · rintro (other | other | ⟨_, other⟩) <;> cases other
      · rintro (other | other) <;> cases other
    · intro key marked
      exact .inl (marks.shut (by simp [Poll.expires, phase]) marked)
  | skip phase => exact ⟨still, knows.next, quiet (by simp [Poll.expires, phase])⟩
  | abandon failed =>
    have shut : ∀ key, stores.expiring me = some key → stores.Shut key := by
      intro key marked
      rcases marks key marked with shut | expires
      · exact shut
      · exact knows.settled owned expires (spares.fails failed key expires)
    have kept := ((Stores.Takes.refl watched me).unmark shut rfl).waitsKept watched
    refine ⟨kept, ?_, ?_⟩
    · refine ⟨fun member => (kept.minds.poll knows).since member, nofun, nofun, ?_, nofun, ?_⟩
      · rintro (other | other | ⟨_, other⟩) <;> cases other
      · rintro (other | other) <;> cases other
    · intro key marked
      simp [Stores.expire] at marked
  | @gone task rest phase first isOver =>
    refine ⟨still, knows.spend (.inr rfl) ?_, quiet (by simp [Poll.expires, phase])⟩
    intro member rest' key first' own
    obtain rfl := (List.cons.inj (first.symm.trans first')).1
    obtain ⟨eventName, rfl⟩ := Member.of_key own
    exact .inl (.inl ⟨isOver, (headSound first _ _ _ rfl).1⟩)
  | @checkOwn instanceId eventName stepId rest phase first pending =>
    refine ⟨still, knows.goto ?_ ?_ nofun ?_, quiet (by simp [Poll.expires, phase])⟩
    · intro _ member rest' key first' own
      obtain rfl := (List.cons.inj (first.symm.trans first')).1
      obtain rfl := Option.some.inj own
      exact watched.checked registered rfl (headSound first) pending
    · rintro (other | other | ⟨_, other⟩) <;> cases other
    · rintro (other | other) <;> cases other
  | anyStep phase first =>
    -- a timeout in the set names its step
    obtain ⟨_, _, none, _⟩ := headSound first _ _ _ rfl
    cases none
  | @resume task rest phase first plain =>
    refine ⟨still, knows.spend (.inl rfl) ?_, quiet (by simp [Poll.expires, phase])⟩
    intro member rest' key first' own
    obtain rfl := (List.cons.inj (first.symm.trans first')).1
    obtain ⟨eventName, is⟩ := Member.of_key own
    exact absurd is (plain _ _ _)
  | @stale instanceId eventName stepId rest phase first isOver =>
    refine ⟨still, knows.spend (.inr rfl) ?_, quiet (by simp [Poll.expires, phase])⟩
    intro member rest' key first' own
    have checked := knows.checking phase member rest' key first' own
    obtain rfl := (List.cons.inj (first.symm.trans first')).1
    obtain rfl := Option.some.inj own
    exact watched.stale checked isOver
  | @own instanceId eventName stepId rest row phase first found empty =>
    refine ⟨still, knows.goto nofun ?_ nofun ?_, quiet (by simp [Poll.expires, phase])⟩
    · intro _ member rest' key first' own
      have checked := knows.checking phase member rest' key first' own
      obtain rfl := (List.cons.inj (first.symm.trans first')).1
      obtain rfl := Option.some.inj own
      refine ⟨checked, .inr (Stores.hasRow_iff.mpr ⟨row, List.mem_of_find?_eq_some found, ?_⟩)⟩
      simpa using List.find?_some found
    · rintro (other | other) <;> cases other
  | @noWaiter instanceId eventName stepId rest phase first none =>
    refine ⟨still, knows.spend (.inr rfl) ?_, quiet (by simp [Poll.expires, phase])⟩
    intro member rest' key first' own
    obtain ⟨checked, _⟩ := knows.recording (.inl phase) member rest' key first' own
    obtain rfl := (List.cons.inj (first.symm.trans first')).1
    obtain ⟨_, stepIndex, rfl, _⟩ := headSound first _ _ _ rfl
    obtain rfl := Option.some.inj own
    exact watched.noWaiter owned checked none
  | @deleteWaiters instanceId eventName stepId rest taken phase first =>
    obtain ⟨_, stepIndex, rfl, _⟩ := headSound first _ _ _ rfl
    have none : poll.expires = none := by simp [Poll.expires, phase]
    have takes := @Stores.Takes.deleteWaiters stores me watched instanceId eventName stepIndex
      (fun waiter there place name waits => Option.some.inj (spares.deletes taken phase _ _ _ _ first
        waiter there place name waits).symm) fun key => marks.shut none
    have kept := takes.waitsKept watched
    refine ⟨kept, ?_, ?_⟩
    · have knows' := kept.minds.poll knows
      refine knows'.goto nofun ?_ nofun ?_
      · exact fun _ => knows'.recording (.inl phase)
      · rintro (other | other) <;> cases other
    · intro key marked
      right
      simp only [Stores.expire, Function.update_self, Option.map_some] at marked
      simp only [Poll.goto, Poll.expires, first, Member.key]
      exact marked
  | @found instanceId eventName stepId stepIndex rest taken phase first awaits own =>
    refine ⟨still, knows.goto nofun ?_ ?_ ?_, ?_⟩
    · exact fun _ => knows.recording (.inr (.inl phase))
    · rintro _ ⟨⟩ member rest' key first' own'
      obtain rfl := (List.cons.inj (first.symm.trans first')).1
      obtain ⟨_, step, rfl, _⟩ := headSound first _ _ _ rfl
      obtain rfl := Option.some.inj own'
      exact (own step rfl).symm
    · rintro (other | other) <;> cases other
    · intro key marked
      refine (marks key marked).imp_right fun expires => ?_
      simpa only [Poll.expires, Poll.goto, phase, first] using expires
  | @nothingAwaits instanceId eventName stepId rest phase first isOver =>
    obtain ⟨_, stepIndex, rfl, _⟩ := headSound first _ _ _ rfl
    have idle : stores.Shut (instanceId, stepIndex) := by
      obtain ⟨_, over' | row⟩ := knows.recording (.inr (.inl phase)) _ _ _ first rfl
      · exact .inl over'
      · refine .inr ⟨row, ?_⟩
        rw [← Bool.not_eq_true]
        intro awaits
        obtain ⟨waiting, member, index, waits⟩ := Stores.awaits_iff.mp awaits
        obtain ⟨own, is, apart⟩ := isOver waiting member waits
        obtain rfl := Option.some.inj is
        exact apart index.symm
    have shut : ∀ key, stores.expiring me = some key → stores.Shut key := by
      intro key marked
      rcases marks key marked with shut | expires
      · exact shut
      · simp only [Poll.expires, phase, first, Member.key] at expires
        exact Option.some.inj expires ▸ idle
    have kept := ((Stores.Takes.refl watched me).unmark shut rfl).waitsKept watched
    refine ⟨kept, (kept.minds.poll knows).spend (.inl rfl) ?_, ?_⟩
    · intro member rest' key first' own
      obtain rfl := (List.cons.inj (first.symm.trans first')).1
      obtain rfl := Option.some.inj own
      exact .inl (kept.minds.shut idle)
    · intro key marked
      simp [Stores.expire] at marked
  | @record instanceId eventName stepId stepIndex rest phase first =>
    obtain ⟨_, step, rfl, _⟩ := headSound first _ _ _ rfl
    obtain rfl := knows.own stepIndex phase _ _ _ first rfl
    have written : timedOut ≠ .null := nofun
    have takes : stores.Takes me (stores.answerStep instanceId stepIndex timedOut) :=
      .answer watched written
    have idle : (stores.answerStep instanceId stepIndex timedOut).Shut (instanceId, stepIndex) := by
      have minds := (takes.waitsKept watched).minds
      obtain ⟨_, isOver | row⟩ := knows.recording (.inr (.inr ⟨_, phase⟩)) _ _ _ first rfl
      · exact .inl (minds.isOver _ isOver)
      · refine .inr ⟨minds.hasRow _ _ row, ?_⟩
        rw [← Bool.not_eq_true]
        exact fun awaits => (Stores.awaits_answerStep written awaits).2 ⟨rfl, rfl⟩
    have shut : ∀ key, stores.expiring me = some key →
        (stores.answerStep instanceId stepIndex timedOut).Shut key := by
      intro key marked
      rcases marks key marked with shut | expires
      · exact (takes.waitsKept watched).minds.shut shut
      · simp only [Poll.expires, phase, first, Member.key] at expires
        exact Option.some.inj expires ▸ idle
    have kept := (takes.unmark shut rfl).waitsKept watched
    refine ⟨kept, (kept.minds.poll knows).spend (.inl rfl) ?_, ?_⟩
    · intro member rest' key first' own
      obtain rfl := (List.cons.inj (first.symm.trans first')).1
      obtain rfl := Option.some.inj own
      exact .inl idle
    · intro key marked
      simp [Stores.expire] at marked
  | @publish task rest phase first =>
    have kept : WaitsKept (some me) stores (stores.publish task.instanceId) :=
      .of_turns watched (.of_same watched rfl rfl rfl (fun _ _ _ => .rfl)
        (fun _ => Nat.le_refl _) rfl rfl rfl rfl) rfl
    have knows' := kept.minds.poll knows
    refine ⟨kept, knows'.spend (.inr rfl) (knows'.removing (.inl phase)), ?_⟩
    intro key marked
    exact .inl (marks.shut (by simp [Poll.expires, phase]) marked)
  | @remove task rest taken phase first =>
    have takes : stores.Takes me { stores with timers := stores.timers.zrem task } := by
      refine .remove watched registered (fun key => knows.removing (.inr phase) _ _ key first) ?_
      intro reaped again key own
      rcases spares.removes taken phase task rest first reaped again with gone | shut
      · obtain ⟨eventName, rfl⟩ := Member.of_key own
        exact .inl ⟨gone, (headSound first _ _ _ rfl).1⟩
      · exact shut key own
    have kept := takes.waitsKept watched
    refine ⟨kept, (kept.minds.poll knows).next, ?_⟩
    intro key marked
    exact .inl (kept.minds.shut (marks.shut (by simp [Poll.expires, phase]) marked))

/-- The step of a waiter that was inserted is there. -/
theorem Stores.Registered.present (registered : stores.Registered) (owned : stores.Owned)
    {waiter : Waiter} (was : waiter ∈ stores.registrations) :
    stores.hasRow waiter.instanceId waiter.stepIndex = true ∧
      stores.instances waiter.instanceId ≠ none := by
  have row := registered.hasRow (Stores.listed_iff.mpr ⟨waiter, was, rfl⟩)
  exact ⟨row, owned.present_of_row row⟩

/-- An event task deletes the waiter of a step that is over. -/
theorem Stores.Takes.deleteWaiter (watched : stores.Watched) (registered : stores.Registered)
    {waiter : Waiter} (was : waiter ∈ stores.registrations) (shut : stores.Shut waiter.key) :
    stores.Takes me (EventTask.deleteWaiter stores waiter) :=
  { Stores.Takes.refl watched me with
    kept := fun other was' waits there timer => by
      by_cases same : other.id = waiter.id
      · obtain rfl := registered.distinct other was' waiter was (.inl same)
        exact nomatch waits.symm.trans shut.not_waits
      · exact .inl ⟨List.mem_filter.mpr ⟨there, decide_eq_true same⟩, timer⟩ }

/-- An event task that is not about to touch a step or a waiter. -/
def TaskPhase.quiet : TaskPhase → Bool
  | .dropping _ _ | .answering _ _ _ | .pushing _ _ | .deleting _ _ => false
  | _ => true

theorem EventTask.Minds.of_quiet {task : EventTask} (quiet : task.phase.quiet = true) :
    task.Minds stores := by
  constructor
  · intro waiter rest phase
    exact nomatch (phase ▸ quiet :)
  · intro waiter rest stepIndex phase
    exact nomatch (phase ▸ quiet :)
  · rintro waiter rest (phase | phase)
    · exact nomatch (phase ▸ quiet :)
    · exact nomatch (phase ▸ quiet :)

/-- A move of an event task keeps the waits, if it answers the step of the waiter it came to
while that step waits. -/
theorem TaskMove.waits {task later : EventTask} {choice : TaskChoice}
    (move : TaskMove me stores task choice after later) (owned : stores.Owned)
    (registered : stores.Registered) (watched : stores.Watched) (knows : task.Minds stores)
    (current : ∀ waiter ∈ task.current, waiter ∈ stores.registrations)
    (answers : ∀ stepIndex, choice = .select (some stepIndex) → ∀ waiter rest,
      task.phase = .readingSteps waiter rest → stores.waits waiter.key = true →
        stepIndex = waiter.stepIndex) :
    WaitsKept (some me) stores after ∧ later.Minds after := by
  have still : WaitsKept (some me) stores stores := (Stores.Takes.refl watched me).waitsKept watched
  have settled : ∀ {after : Stores} {waiter : Waiter} {rest : List Waiter}, after.Shut waiter.key →
      (task.goto (.pushing waiter rest)).Minds after := by
    intro after waiter rest shut
    refine ⟨(fun _ _ other => by cases other), (fun _ _ _ other => by cases other), ?_⟩
    rintro _ _ (is | is)
    · obtain ⟨rfl, _⟩ := TaskPhase.pushing.inj is
      exact shut
    · cases is
  cases move with
  | select => exact ⟨still, .of_quiet rfl⟩
  | handle => exact ⟨still, .of_quiet rfl⟩
  | pass => exact ⟨still, .of_quiet rfl⟩
  | await => exact ⟨still, .of_quiet rfl⟩
  | @missing waiter rest phase missing =>
    -- a waiter was inserted after its step, and no instance goes away
    obtain ⟨_, present⟩ := registered.present owned
      (current waiter (by simp [EventTask.current, phase]))
    exact absurd missing present
  | readSteps => exact ⟨still, .of_quiet rfl⟩
  | drop phase => exact absurd phase (knows.dropping _ _)
  | @found waiter rest stepIndex taken phase awaits =>
    refine ⟨still, (fun _ _ other => by cases other), ?_, ?_⟩
    · rintro _ _ _ is
      obtain ⟨rfl, rfl, rfl⟩ := TaskPhase.answering.inj is
      obtain ⟨row, present⟩ := registered.present owned
        (current waiter (by simp [EventTask.current, phase]))
      cases waits : stores.waits waiter.key with
      | true => exact .inl (answers stepIndex taken waiter rest phase waits)
      | false => exact .inr (Stores.shut_of_not_waits present row waits)
    · rintro _ _ (is | is) <;> cases is
  | @nothingAwaits waiter rest phase isOver =>
    refine ⟨still, settled (.inr ⟨?_, ?_⟩)⟩
    · exact (registered.present owned (current waiter (by simp [EventTask.current, phase]))).1
    · rw [← Bool.not_eq_true]
      intro awaits
      obtain ⟨row, member, _, waits⟩ := Stores.awaits_iff.mp awaits
      cases waits.symm.trans (isOver row member)
  | @answer waiter rest stepIndex phase =>
    have written := Event.data_ne_null task.event
    have answers : stores.Takes me
        (stores.answerStep waiter.instanceId stepIndex task.event.data) := .answer watched written
    have takes : stores.Takes me
        { stores.answerStep waiter.instanceId stepIndex task.event.data with
          answered := ⟨waiter.instanceId, stepIndex, task.event, waiter⟩ :: stores.answered } :=
      { answers with }
    have kept := takes.waitsKept watched
    refine ⟨kept, settled ?_⟩
    rcases knows.answering waiter rest stepIndex phase with rfl | shut
    · have row := (registered.present owned
        (current waiter (by simp [EventTask.current, phase]))).1
      refine .inr ⟨kept.minds.hasRow _ _ row, ?_⟩
      rw [← Bool.not_eq_true]
      exact fun awaits => (Stores.awaits_answerStep written awaits).2 ⟨rfl, rfl⟩
    · exact kept.minds.shut shut
  | @push waiter rest phase =>
    refine ⟨.of_turns watched (.of_same watched rfl rfl rfl (fun _ _ _ => .rfl)
      (fun _ => Nat.le_refl _) rfl rfl rfl rfl) rfl, (fun _ _ other => by cases other),
      (fun _ _ _ other => by cases other), ?_⟩
    rintro _ _ (is | is)
    · cases is
    · obtain ⟨rfl, _⟩ := TaskPhase.deleting.inj is
      exact knows.done waiter rest (.inl phase)
  | @delete waiter rest taken phase =>
    have deletes : stores.Takes me (EventTask.deleteWaiter stores waiter) :=
      .deleteWaiter watched registered (current waiter (by simp [EventTask.current, phase]))
        (knows.done waiter rest (.inr phase))
    have takes : stores.Takes me
        { EventTask.deleteWaiter stores waiter with consumed := waiter :: stores.consumed } :=
      { deletes with }
    exact ⟨takes.waitsKept watched, .of_quiet rfl⟩
  | acknowledge =>
    exact ⟨.of_turns watched (.of_same watched rfl rfl rfl (fun _ _ _ => .rfl)
      (fun _ => Nat.le_refl _) rfl rfl rfl rfl) rfl, .of_quiet rfl⟩
  | throw => exact ⟨still, .of_quiet rfl⟩

end Notifkit.Workflow
