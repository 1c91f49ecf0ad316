import Notifkit.Workflow.WaitPolls

/-!
# The waits in every run

The moves of runs, polls and event tasks are put together with those of reapers and with
what happens outside. A reaper disarms the instance it sets back; a crash takes a poll away
that may have marked a step. Under the conditions on the steps the waits are kept in every
state, whoever fails, dies, is canceled or set back.
-/

namespace Notifkit.Workflow

open Crowd

variable {triggers : InstanceId → Trigger} {stores after : Stores} {me : Nat}

/-- What an actor knows of the waits, by its kind. -/
def Role.Minds (stores : Stores) : Role → Prop
  | .run current => current.Minds stores
  | .poll current => current.Minds stores
  | .task current => current.Minds stores
  | .reap _ => True

/-- What an actor knows of the waits. A step it is marked for is over, or it is timing that
step out and lives. -/
structure Agent.Minds (me : Nat) (agent : Option Agent) (stores : Stores) : Prop where
  marks : ∀ key, stores.expiring me = some key → stores.Shut key ∨ ∃ current, agent = some current ∧
    current.process ∉ stores.dead ∧ current.role.expires = some key
  role : ∀ current, agent = some current → current.process ∉ stores.dead →
    current.role.Minds stores

/-- The waits are kept, and every actor knows of them what it needs. -/
abbrev Watched : World → Prop := Crowd.Holds Stores.Watched Agent.Minds

/-- A step that takes no part of a wait away that is still needed. -/
structure SparesWaits (world : World) (action : Action) : Prop where
  records : recordsTimeout world action = true
  deletes : deletesOwn world action = true
  answers : answersOwn world action = true
  reaps : reapsWhole world action = true
  removes : removesOwn world action = true

/-- What a step leaves to everybody but its mover. -/
structure WaitsSpared (world : World) (mover : Option Nat) (shared : Stores) : Prop where
  watched : shared.Watched
  minds : world.shared.Minds shared
  expiring : ∀ other, mover ≠ some other → shared.expiring other = world.shared.expiring other
  leaves : ∀ other : Nat, mover ≠ some other → ∀ run,
    LivingRun world.shared world.actors[other]? run → world.shared.Leaves other shared

theorem WaitsKept.spared {world : World} {mover : Option Nat} {shared : Stores}
    (kept : WaitsKept mover world.shared shared) : WaitsSpared world mover shared where
  watched := kept.watched
  minds := kept.minds
  expiring := kept.expiring
  leaves other apart _ _ := kept.leaves other apart

/-- An actor that does not move keeps its knowledge, if it does not die while it times a step
out that waits. -/
theorem WaitsSpared.agent {world : World} {mover : Option Nat} {shared : Stores}
    (spared : WaitsSpared world mover shared) (owned : Owned world) (registered : Registered world)
    (dead : LeavesDead world.shared shared) {other : Nat} (apart : mover ≠ some other)
    (dies : ∀ agent key, world.actors[other]? = some agent → agent.process ∉ world.shared.dead →
      agent.process ∈ shared.dead → agent.role.expires = some key →
        world.shared.waits key = false)
    (knows : Agent.Minds other world.actors[other]? world.shared) :
    Agent.Minds other world.actors[other]? shared := by
  have before : ∀ process, process ∉ shared.dead → process ∉ world.shared.dead :=
    fun process alive was => alive (dead process was)
  constructor
  · intro key marked
    rw [spared.expiring other apart] at marked
    rcases knows.marks key marked with shut | ⟨agent, is, alive, expires⟩
    · exact .inl (spared.minds.shut shut)
    · by_cases lives : agent.process ∈ shared.dead
      · -- a poll that dies was not timing anything out that waits
        left
        apply spared.minds.shut
        obtain ⟨process, role⟩ := agent
        cases role with
        | poll current =>
          exact (knows.role _ is alive : current.Minds _).settled owned.shared expires
            (dies _ key is alive lives expires)
        | run => cases expires
        | task => cases expires
        | reap => cases expires
      · exact .inr ⟨agent, is, lives, expires⟩
  · rintro ⟨process, role⟩ is alive
    have knew := knows.role _ is (before process alive)
    cases role with
    | run current =>
      have living : LivingRun world.shared world.actors[other]? current :=
        ⟨process, is, before process alive⟩
      have registers : current.Registers world.shared :=
        registered.actor other process _ is (before process alive)
      exact Run.Minds.kept knew spared.minds (spared.leaves other apart current living)
        (owned.actor other current living) registered.shared registers
    | poll current => exact spared.minds.poll knew
    | task current => exact spared.minds.task knew
    | reap => trivial

/-- A poll's next command keeps to the conditions. -/
theorem SparesWaits.poll {world : World} {index process : Nat} {poll : Poll} {choice : PollChoice}
    (spares : SparesWaits world (.act index (.poll choice)))
    (present : world.actors[index]? = some ⟨process, .poll poll⟩) :
    poll.Spares world.shared choice := by
  constructor
  · rintro rfl key expires
    have records := spares.records
    simp only [recordsTimeout, present, Option.all_some, Role.expires, expires] at records
    simpa using records
  · rintro rfl phase instanceId eventName stepId rest first waiter there place name waits
    have deletes := spares.deletes
    simp only [deletesOwn, present, Option.all_some, phase, first, List.all_eq_true] at deletes
    simpa [place, name, waits] using deletes waiter there
  · rintro rfl phase member rest first reaped again
    have removes := spares.removes
    simp only [removesOwn, present, Option.all_some, phase, first, reaped, Nat.ne_of_lt again,
      Bool.not_true, Bool.false_or, decide_false, Bool.or_eq_true] at removes
    refine removes.imp_right fun settled key own => .inr ?_
    simpa [own] using settled

/-- An event task that comes to a waiter whose step waits finds that step. -/
theorem SparesWaits.task {world : World} {index process : Nat} {task : EventTask}
    {choice : TaskChoice} (spares : SparesWaits world (.act index (.task choice)))
    (present : world.actors[index]? = some ⟨process, .task task⟩) :
    ∀ stepIndex, choice = .select (some stepIndex) → ∀ waiter rest,
      task.phase = .readingSteps waiter rest → world.shared.waits waiter.key = true →
        stepIndex = waiter.stepIndex := by
  rintro stepIndex rfl waiter rest phase waits
  have answers := spares.answers
  simp only [answersOwn, present, Option.all_some, phase, waits] at answers
  simpa using answers

/-- A reaper sets back only an instance that no living run has, with all its waiters. -/
theorem reapsWhole_iff {world : World} {index : Nat} {agent : Agent} {instanceId : InstanceId}
    (whole : reapsWhole world (.act index (.reap .proceed)) = true)
    (present : world.actors[index]? = some agent) (sets : agent.role.setsBack = some instanceId)
    (running : world.shared.instances instanceId = some .running) :
    (∀ owner ∈ world.shared.runner instanceId, ∀ run ∈ world.actors[owner]?,
      run.process ∈ world.shared.dead) ∧
    ∀ stepIndex, world.shared.awaits instanceId stepIndex = true →
      world.shared.listed (instanceId, stepIndex) = true := by
  simp only [reapsWhole, present, sets, running, Option.all_some, ne_eq, not_true_eq_false,
    decide_false, Bool.false_or, Bool.and_eq_true, List.all_eq_true] at whole
  obtain ⟨lost, listed⟩ := whole
  constructor
  · intro owner runs run is
    simp only [Option.mem_def.mp runs, Option.mem_def.mp is, Option.all_some] at lost
    simpa using lost
  · intro stepIndex awaits
    obtain ⟨row, member, rfl, waits⟩ := Stores.awaits_iff.mp awaits
    simpa [waits] using listed row member

/-- So it takes no instance from a living run. -/
theorem SparesWaits.reapsLost {world : World} {action : Action} (spares : SparesWaits world action) :
    ReapsLost world action := by
  intro index reaps agent present instanceId sets running
  unfold Action.reaps at reaps
  split at reaps
  next =>
    obtain rfl := Option.some.inj reaps
    exact (reapsWhole_iff spares.reaps present sets running).1
  next => cases reaps

/-- A reaper that sets an instance back keeps the waits. -/
theorem Reap.update_spared {world : World} {index : Nat} {instanceId : InstanceId}
    (owned : Owned world) (watched : Watched world)
    (whole : world.shared.instances instanceId = some .running →
      (∀ owner ∈ world.shared.runner instanceId, ∀ run ∈ world.actors[owner]?,
        run.process ∈ world.shared.dead) ∧
      ∀ stepIndex, world.shared.awaits instanceId stepIndex = true →
        world.shared.listed (instanceId, stepIndex) = true) :
    WaitsSpared world (some index) (Reap.update world.shared instanceId) := by
  unfold Reap.update
  split
  next running =>
    obtain ⟨lost, listed⟩ := whole running
    have alive : world.shared.gone instanceId = false := by simp [Stores.gone, running]
    have turns : world.shared.Turns
        { world.shared.setStatus instanceId .pending with
          runner := Function.update world.shared.runner instanceId none
          armed := Function.update world.shared.armed instanceId none
          reaped := Function.update world.shared.reaped instanceId true } := by
      refine .of_status watched.shared owned.shared (.inl alive) ?_ ?_ ?_ rfl
        (fun _ there => .inl there) rfl rfl (.inr ⟨rfl, ?_⟩) ?_ rfl rfl
      · simp [Stores.setStatus]
      · intro other apart
        simp [Stores.setStatus, apart]
      · exact fun _ => ⟨listed, by simp⟩
      · simp
      · intro other was
        simp only [Function.update_apply]
        split
        · rfl
        · exact was
    refine ⟨turns.watched watched.shared, turns.minds, fun other _ => ?_, ?_⟩
    · rfl
    · intro other _ run living
      apply turns.leaves
      intro owned' runs
      have apart : owned' ≠ instanceId := by
        rintro rfl
        obtain ⟨process, is, there⟩ := living
        exact there (lost other runs _ is)
      simp [apart]
  next =>
    exact (WaitsKept.of_turns watched.shared (.of_same watched.shared rfl rfl rfl
      (fun _ _ _ => .rfl) (fun _ => Nat.le_refl _) rfl rfl rfl rfl) rfl).spared

/-- A run marks no step. -/
theorem RunMove.expiring {run later : Run} (move : RunMove triggers me stores run after later) :
    after.expiring = stores.expiring := by
  cases move with
  | outer was outer same => exact same.expiring
  | renew same => exact same.expiring
  | _ => rfl

/-- Nor does an event task. -/
theorem TaskMove.expiring {task later : EventTask} {choice : TaskChoice}
    (move : TaskMove me stores task choice after later) : after.expiring = stores.expiring := by
  cases move <;> rfl

/-- An actor that marks no step has its knowledge by its kind. -/
theorem Agent.Minds.of_role {agent later : Agent} (minds : stores.Minds after)
    (knows : Agent.Minds me (some agent) stores) (none : agent.role.expires = none)
    (same : after.expiring = stores.expiring) (role : later.role.Minds after) :
    Agent.Minds me (some later) after := by
  constructor
  · intro key marked
    rw [same] at marked
    rcases knows.marks key marked with shut | ⟨_, is, _, expires⟩
    · exact .inl (minds.shut shut)
    · obtain rfl := Option.some.inj is
      exact nomatch none.symm.trans expires
  · intro current is _
    exact Option.some.inj is ▸ role

/-- A move under the conditions, and what the mover knows after it. -/
theorem AgentMove.waits {world : World} {index : Nat} {agent later : Agent} {choice : Choice}
    {shared : Stores} (owned : Owned world) (registered : Registered world)
    (watched : Watched world) (present : world.actors[index]? = some agent)
    (alive : agent.process ∉ world.shared.dead) (place : later.process = agent.process)
    (spares : SparesWaits world (.act index choice))
    (move : AgentMove triggers index world.shared agent.role choice shared later.role) :
    WaitsSpared world (some index) shared ∧ Agent.Minds index (some later) shared := by
  have knows := watched.actor index
  have registers := registered.actor index
  have owns := owned.actor index
  have dead := move.dead
  rw [present] at knows registers owns
  obtain ⟨process, role⟩ := agent
  obtain ⟨process', role'⟩ := later
  obtain rfl : process' = process := place
  have knew := knows.role _ rfl alive
  cases move with
  | @run run _ _ _ move =>
    obtain ⟨kept, mine⟩ := move.waits owned.shared (owns run ⟨process', rfl, alive⟩)
      registered.shared (registers _ _ rfl alive) watched.shared knew
    exact ⟨kept.spared, .of_role kept.minds knows rfl move.expiring mine⟩
  | @poll poll _ _ _ move =>
    have marks : poll.Marks index world.shared := by
      intro key marked
      refine (knows.marks key marked).imp_right ?_
      rintro ⟨_, is, _, expires⟩
      obtain rfl := Option.some.inj is
      exact expires
    obtain ⟨kept, mine, marks'⟩ := move.waits owned.shared registered.shared watched.shared knew
      marks (spares.poll present)
    refine ⟨kept.spared, fun key marked => ?_, fun current is _ => ?_⟩
    · refine (marks' key marked).imp_right fun expires => ⟨_, rfl, ?_, expires⟩
      rwa [dead]
    · exact Option.some.inj is ▸ mine
  | @task task _ _ _ move =>
    have current : ∀ waiter ∈ task.current, waiter ∈ world.shared.registrations :=
      fun waiter is => ((registers _ _ rfl : task.Registered _).current waiter is).1.1
    obtain ⟨kept, mine⟩ := move.waits owned.shared registered.shared watched.shared knew current
      (spares.task present)
    exact ⟨kept.spared, .of_role kept.minds knows rfl move.expiring mine⟩
  | @reap reap _ _ _ move =>
    have still : WaitsKept (some index) world.shared world.shared :=
      (Stores.Takes.refl watched.shared index).waitsKept watched.shared
    cases move with
    | @update instanceId rest taken phase first =>
      subst taken
      have sets : (Role.reap reap).setsBack = some instanceId := by
        simp only [Role.setsBack, phase, first]
      have spared : WaitsSpared world (some index) (Reap.update world.shared instanceId) :=
        Reap.update_spared owned watched (reapsWhole_iff spares.reaps present sets)
      refine ⟨spared, .of_role spared.minds knows rfl ?_ trivial⟩
      unfold Reap.update
      split <;> rfl
    | _ => exact ⟨still.spared, .of_role still.minds knows rfl rfl trivial⟩

/-- What happens outside keeps the waits. -/
theorem OutsideFrame.spared {world : World} {shared : Stores} (watched : Watched world)
    (owned : Owned world) (frame : OutsideFrame world.shared shared) : WaitsSpared world none shared := by
  have gone : ∀ instanceId, world.shared.gone instanceId = true → world.shared.Over instanceId →
      shared.Over instanceId := by
    intro instanceId _ isOver
    rcases frame.instances instanceId with same | ⟨_, pending | running⟩
    · rwa [Stores.Over, Stores.gone, same]
    · simp [Stores.Over, Stores.gone, pending] at isOver
    · simp [Stores.Over, Stores.gone, running] at isOver
  have turns : world.shared.Turns shared := by
    constructor
    · exact fun _ => frame.present
    · exact fun instanceId isOver => gone instanceId isOver.1 isOver
    · intro key waits
      obtain ⟨alive, awaits⟩ := Stores.waits_iff.mp waits
      rw [Stores.awaits, frame.steps] at awaits
      refine Stores.waits_iff.mpr ⟨?_, awaits⟩
      have present := owned.shared.present_of_row (Stores.hasRow_of_awaits awaits)
      by_contra isOver
      rw [Bool.not_eq_false] at isOver
      have still := (gone key.1 isOver ⟨isOver, present⟩).1.symm.trans alive
      cases still
    · intro instanceId pending
      have was := frame.pending pending
      rw [frame.armed]
      exact ⟨fun stepIndex => watched.shared.listed instanceId stepIndex was,
        watched.shared.unarmed instanceId was⟩
    · exact frame.steps
    · intro waiter there
      refine (frame.taken waiter there).imp_right fun canceled => ?_
      simp [Stores.waits, Stores.gone, Waiter.key, canceled]
    · exact fun _ _ _ => by rw [frame.timers]
    · exact fun _ => frame.added ▸ Nat.le_refl _
    · exact fun _ => .inl (frame.armed ▸ rfl)
    · exact fun _ was => frame.reaped ▸ was
    · exact frame.expiring
    · exact frame.registrations
  exact (WaitsKept.of_turns watched.shared turns frame.armed).spared

/-- Only a crash kills. -/
theorem outsideStep_dead {event : Outside} (taken : outsideStep stores event = some after)
    {process : Nat} (alive : process ∉ stores.dead) (dead : process ∈ after.dead) :
    event = .crash process := by
  cases event with
  | crash victim =>
    obtain rfl := Option.some.inj taken
    rcases List.mem_cons.mp dead with rfl | was
    · rfl
    · exact absurd was alive
  | tick ms =>
    obtain rfl := Option.some.inj taken
    exact absurd dead alive
  | cancel instanceId =>
    obtain ⟨_, same⟩ := Option.ite_none_right_eq_some.mp taken
    obtain rfl := Option.some.inj same
    exact absurd dead alive
  | flush victim batch =>
    obtain ⟨_, same⟩ := Option.ite_none_right_eq_some.mp taken
    obtain rfl := Option.some.inj same
    exact absurd dead alive
  | publishItem position =>
    obtain ⟨item, _, taken⟩ := Option.bind_eq_some_iff.mp taken
    obtain ⟨_, same⟩ := Option.ite_none_right_eq_some.mp taken
    obtain rfl := Option.some.inj same
    exact absurd dead alive
  | flushPasses batch =>
    obtain ⟨_, same⟩ := Option.ite_none_right_eq_some.mp taken
    obtain rfl := Option.some.inj same
    exact absurd dead alive
  | send instanceId =>
    obtain rfl := Option.some.inj taken
    exact absurd dead alive
  | emit event =>
    obtain rfl := Option.some.inj taken
    exact absurd dead alive
  | flushFails batch =>
    obtain rfl := Option.some.inj taken
    exact absurd dead alive

/-- A step under the conditions keeps the waits. -/
theorem watched_step {world next : World} {action : Action} (owned : Owned world)
    (registered : Registered world) (watched : Watched world) (spares : SparesWaits world action)
    (taken : step triggers world action = some next) : Watched next := by
  refine holds_step watched taken ?_ ?_ ?_
  · rintro index choice rfl agent later shared present alive place move
    obtain ⟨spared, mine⟩ := move.waits owned registered watched present alive place spares
    have dead : LeavesDead world.shared shared := fun _ was => move.dead ▸ was
    refine ⟨spared.watched, mine, fun other apart => ?_⟩
    apply spared.agent owned registered dead fun same => apart (Option.some.inj same).symm
    intro agent key _ lives dies
    exact absurd (move.dead ▸ dies) lives
  · intro agent starts knows
    have marks : ∀ key, world.shared.expiring world.actors.length = some key →
        world.shared.Shut key := by
      intro key marked
      rcases knows.marks key marked with shut | ⟨_, is, _⟩
      · exact shut
      · cases is
    refine ⟨fun key marked => .inl (marks key marked), ?_⟩
    rintro _ ⟨⟩ _
    cases starts with
    | run => exact Run.Minds.of_idle rfl
    | poll =>
      refine ⟨fun _ => Nat.zero_le _, nofun, nofun, ?_, nofun, ?_⟩
      · rintro (phase | phase | ⟨_, phase⟩) <;> cases phase
      · rintro (phase | phase) <;> cases phase
    | task => exact EventTask.Minds.of_quiet rfl
    | reap => trivial
  · rintro event shared rfl changed
    have frame := outsideStep_frame changed
    have spared := frame.spared watched owned
    refine ⟨spared.watched, fun other => ?_⟩
    apply spared.agent owned registered frame.dead (Option.some_ne_none other).symm
    intro agent key is alive dies expires
    obtain rfl := outsideStep_dead changed alive dies
    have records := spares.records
    simp only [recordsTimeout, List.all_eq_true] at records
    simpa [expires] using records agent (List.mem_of_getElem? is)

/-- Nobody waits. -/
theorem watched_start : Watched start where
  shared := by
    constructor
    · nofun
    · nofun
    · nofun
    · exact fun _ armed => absurd rfl armed
    · exact fun _ there => absurd rfl there
    · nofun
  actor _ := ⟨nofun, nofun⟩

/-- A wait of a suspended instance is kept: by a waiter and a timeout, or by the poll that is
just timing it out. -/
theorem Watched.kept {world : World} (watched : Watched world)
    {key : InstanceId × StepIndex} (listed : world.shared.listed key = true)
    (waits : world.shared.waits key = true) : Kept world key := by
  obtain ⟨waiter, was, rfl⟩ := Stores.listed_iff.mp listed
  rcases watched.shared.kept waiter was waits with ⟨there, timer⟩ | ⟨poll, marked⟩
  · exact .inl ⟨waiter, there, rfl, timer⟩
  · rcases (watched.actor poll).marks _ marked with shut | ⟨agent, is, alive, expires⟩
    · exact nomatch waits.symm.trans shut.not_waits
    · exact .inr ⟨agent, List.mem_of_getElem? is, alive, expires⟩

end Notifkit.Workflow
