import Notifkit.Workflow.Moves

/-!
# A matched event and its resume

An event task deletes the waiter it matched once the resume is in its worker's buffer.
The buffer is memory: a flush that fails rejects what it took, and a worker that dies
takes it along. The event is then delivered again, but finds no waiter; and the timeout
finds the step answered. So the resume is lost with the buffer.

Where a resume is lost only while its waiter is still there, or after it was published,
and no task deletes a waiter whose resume it has lost, a matched waiter's instance is
always resumed.
-/

namespace Notifkit.Workflow

open Crowd Runs Tables

variable {triggers : InstanceId → Trigger} {stores after : Stores} {me : Nat}

/-- An event not yet acknowledged still meets a waiter of the instance. -/
def RedeliveryResumes (stores : Stores) (instanceId : InstanceId) : Prop :=
  ∃ position event, stores.events[position]? = some event ∧ position ∉ stores.acknowledged ∧
    ∃ waiter ∈ stores.waiters, waiter.instanceId = instanceId ∧
      waiter.eventName = event.eventName ∧ waiter.projectId = event.projectId ∧
      waiter.matched event = true

/-- An event timeout of the instance will find a waiter, and its step without an output. -/
def TimeoutResumes (stores : Stores) (instanceId : InstanceId) : Prop :=
  ∃ eventName stepId, stores.timers.score (.eventTimeout instanceId eventName stepId) ≠ none ∧
    (∀ own ∈ stepId, ∃ row, stores.row? instanceId own = some row ∧ row.output = .null) ∧
    ∃ waiter ∈ stores.waiters, waiter.instanceId = instanceId ∧ waiter.eventName = eventName

/-- The resume of a deleted waiter is published, or in the hands of a living worker; or the
event or the timeout will bring another. -/
def Resumes (stores : Stores) (waiter : Waiter) : Prop :=
  waiter.id ∈ stores.durable ∨
    (∃ item ∈ stores.buffer, item.waiter.id = waiter.id ∧ item.process ∉ stores.dead) ∨
    RedeliveryResumes stores waiter.instanceId ∨ TimeoutResumes stores waiter.instanceId

/-- A resume can be lost without harm: it is published, or its waiter is still there. -/
def Item.expendable (stores : Stores) (item : Item) : Prop :=
  item.waiter.id ∈ stores.durable ∨ item.waiter.id ∉ stores.consumed.map Waiter.id

instance (stores : Stores) (item : Item) : Decidable (item.expendable stores) :=
  inferInstanceAs (Decidable (_ ∨ _))

/-- The waiter a task is about to delete because of a match. -/
def Role.deletes : Role → Option Waiter
  | .task current =>
    match current.phase with
    | .deleting waiter _ => some waiter
    | _ => none
  | _ => none

/-- The event task whose next command is executed in a step. -/
def Action.tasks : Action → Option Nat
  | .act index (.task .proceed) => some index
  | _ => none

/-- What is lost outside the actors is expendable. -/
def LosesExpendable (stores : Stores) : Outside → Prop
  | .flushFails batch => ∀ item ∈ stores.flushed batch, item.expendable stores
  | .crash process => ∀ item ∈ stores.buffer, item.process = process → item.expendable stores
  | _ => True

instance (stores : Stores) : (event : Outside) → Decidable (LosesExpendable stores event)
  | .flushFails _ => inferInstanceAs (Decidable (∀ _ ∈ _, _))
  | .crash _ => inferInstanceAs (Decidable (∀ _ ∈ _, _))
  | .tick _ | .send _ | .emit _ | .cancel _ | .flush _ _ | .publishItem _ | .flushPasses _ =>
    .isTrue trivial

/-- What happens outside the actors in a step. -/
def Action.event : Action → Option Outside
  | .outside event => some event
  | _ => none

/-- The loss of a resume leaves its waiter to be met again, and no task deletes a waiter
whose resume it has lost. -/
def LosesNoResume (world : World) (action : Action) : Prop :=
  (∀ event ∈ action.event, LosesExpendable world.shared event) ∧
    ∀ index ∈ action.tasks, ∀ agent ∈ world.actors[index]?, ∀ waiter ∈ agent.role.deletes,
      index ∉ world.shared.rejected ∨ waiter.id ∈ world.shared.durable

instance (world : World) (action : Action) : Decidable (LosesNoResume world action) :=
  inferInstanceAs (Decidable (_ ∧ _))

/-- The resume of every waiter deleted on a match is published or held by a living worker. -/
structure Stores.Held (stores : Stores) : Prop where
  consumed : ∀ waiter ∈ stores.consumed, waiter.id ∈ stores.durable ∨
    ∃ item ∈ stores.buffer, item.waiter.id = waiter.id
  published : ∀ item ∈ stores.buffer, item.published = true → item.waiter.id ∈ stores.durable
  living : ∀ item ∈ stores.buffer, item.process ∉ stores.dead

/-- What a task about to delete a waiter knows of its resume. -/
def EventTask.Holds (me : Nat) (stores : Stores) (task : EventTask) : Prop :=
  ∀ waiter rest, task.phase = .deleting waiter rest →
    waiter.id ∈ stores.durable ∨ me ∈ stores.rejected ∨ task.process ∈ stores.dead ∨
      ∃ item ∈ stores.buffer, item.waiter.id = waiter.id ∧ item.task = me ∧
        item.process = task.process

/-- What an actor knows of the resumes. -/
def Agent.Holds (me : Nat) (agent : Option Agent) (stores : Stores) : Prop :=
  ∀ process task, agent = some ⟨process, .task task⟩ →
    task.process = process ∧ task.Holds me stores

/-- A resume is not lost unnoticed: it stays in the buffer, or is published, or its task is
told or dead. -/
structure HoldKeeps (stores after : Stores) : Prop where
  durable : ∀ id ∈ stores.durable, id ∈ after.durable
  rejected : ∀ task ∈ stores.rejected, task ∈ after.rejected
  dead : ∀ process ∈ stores.dead, process ∈ after.dead
  buffer : ∀ item ∈ stores.buffer, item.waiter.id ∈ after.durable ∨ item.task ∈ after.rejected ∨
    item.process ∈ after.dead ∨ ∃ later ∈ after.buffer, later.waiter.id = item.waiter.id ∧
      later.task = item.task ∧ later.process = item.process

theorem HoldKeeps.agent (keeps : HoldKeeps stores after) {other : Nat} {agent : Option Agent}
    (holds : Agent.Holds other agent stores) : Agent.Holds other agent after := by
  intro process task same
  obtain ⟨own, holds⟩ := holds process task same
  refine ⟨own, fun waiter rest phase => ?_⟩
  rcases holds waiter rest phase with durable | rejected | dead | ⟨item, member, id, owner, place⟩
  · exact .inl (keeps.durable _ durable)
  · exact .inr (.inl (keeps.rejected _ rejected))
  · exact .inr (.inr (.inl (keeps.dead _ dead)))
  · rcases keeps.buffer item member with durable | rejected | dead | ⟨later, is, id', owner', place'⟩
    · exact .inl (id ▸ durable)
    · exact .inr (.inl (owner ▸ rejected))
    · exact .inr (.inr (.inl (place ▸ dead)))
    · exact .inr (.inr (.inr ⟨later, is, id'.trans id, owner'.trans owner, place'.trans place⟩))

/-- No resume is touched. -/
structure SameResumes (stores after : Stores) : Prop where
  buffer : after.buffer = stores.buffer
  rejected : after.rejected = stores.rejected
  dead : after.dead = stores.dead
  consumed : after.consumed = stores.consumed
  durable : after.durable = stores.durable

theorem SameResumes.held (same : SameResumes stores after) (held : stores.Held) : after.Held := by
  obtain ⟨buffer, _, dead, consumed, durable⟩ := same
  refine ⟨?_, ?_, ?_⟩
  · rw [consumed, durable, buffer]
    exact held.consumed
  · rw [buffer, durable]
    exact held.published
  · rw [buffer, dead]
    exact held.living

theorem SameResumes.keeps (same : SameResumes stores after) : HoldKeeps stores after := by
  obtain ⟨buffer, rejected, dead, _, durable⟩ := same
  refine ⟨?_, ?_, ?_, fun item member => ?_⟩
  · rw [durable]
    exact fun _ is => is
  · rw [rejected]
    exact fun _ is => is
  · rw [dead]
    exact fun _ is => is
  · rw [buffer]
    exact .inr (.inr (.inr ⟨item, member, rfl, rfl, rfl⟩))

theorem SameRows.resumes (same : SameRows stores after) : SameResumes stores after :=
  ⟨same.buffer, same.rejected, same.dead, same.consumed, same.durable⟩

/-- A run touches no resume of a match. -/
theorem RunMove.resumes {run later : Run} (move : RunMove triggers me stores run after later) :
    SameResumes stores after := by
  cases move with
  | outer _ _ same => exact same.resumes
  | renew same => exact same.resumes
  | _ => exact ⟨rfl, rfl, rfl, rfl, rfl⟩

/-- A poll touches no resume of a match. -/
theorem PollMove.resumes {poll later : Poll} {choice : PollChoice}
    (move : PollMove me stores poll choice after later) : SameResumes stores after := by
  cases move <;> exact ⟨rfl, rfl, rfl, rfl, rfl⟩

/-- A reaper touches no resume of a match. -/
theorem ReapMove.resumes {reap later : Reap} {choice : ReapChoice}
    (move : ReapMove stores reap choice after later) : SameResumes stores after := by
  cases move with
  | update =>
    unfold Reap.update
    split <;> exact ⟨rfl, rfl, rfl, rfl, rfl⟩
  | _ => exact ⟨rfl, rfl, rfl, rfl, rfl⟩

/-- A move of a living task that deletes no waiter whose resume it has lost. -/
theorem TaskMove.holds {task later : EventTask} {choice : TaskChoice} (held : stores.Held)
    (holds : task.Holds me stores) (alive : task.process ∉ stores.dead)
    (deletes : choice = .proceed → ∀ waiter rest, task.phase = .deleting waiter rest →
      me ∉ stores.rejected ∨ waiter.id ∈ stores.durable)
    (move : TaskMove me stores task choice after later) :
    later.process = task.process ∧ after.Held ∧ later.Holds me after ∧ HoldKeeps stores after := by
  have settled : SameResumes stores after → (∀ waiter rest, later.phase ≠ .deleting waiter rest) →
      after.Held ∧ later.Holds me after ∧ HoldKeeps stores after := fun same other =>
    ⟨same.held held, fun waiter rest phase => absurd phase (other waiter rest), same.keeps⟩
  cases move with
  | @push waiter rest phase =>
    have kept : HoldKeeps stores { stores with buffer := stores.buffer ++ [task.item me waiter] } :=
      ⟨fun _ is => is, fun _ is => is, fun _ is => is, fun item member =>
        .inr (.inr (.inr ⟨item, List.mem_append_left _ member, rfl, rfl, rfl⟩))⟩
    refine ⟨rfl, ⟨fun other member => ?_, ?_, ?_⟩, fun other rest' phase' => ?_, kept⟩
    · rcases held.consumed other member with durable | one
      · exact .inl durable
      · exact .inr (some_append one)
    · exact all_append held.published nofun
    · exact all_append held.living alive
    · obtain ⟨rfl, _⟩ := TaskPhase.deleting.inj phase'
      exact .inr (.inr (.inr ⟨_, List.mem_append_right _ (List.mem_singleton_self _), rfl, rfl, rfl⟩))
  | @delete waiter rest taken phase =>
    have known := holds waiter rest phase
    have kept := deletes taken waiter rest phase
    refine ⟨rfl, ⟨fun other member => ?_, held.published, held.living⟩, nofun,
      ⟨fun _ is => is, fun _ is => is, fun _ is => is,
        fun item is => .inr (.inr (.inr ⟨item, is, rfl, rfl, rfl⟩))⟩⟩
    rcases List.mem_cons.mp member with rfl | old
    · rcases known with durable | rejected | dead | ⟨item, is, id, _⟩
      · exact .inl durable
      · exact .inl (kept.resolve_left (not_not_intro rejected))
      · exact absurd dead alive
      · exact .inr ⟨item, is, id⟩
    · exact held.consumed other old
  | _ => exact ⟨rfl, settled ⟨rfl, rfl, rfl, rfl, rfl⟩ nofun⟩

/-- A move of a living actor that deletes no waiter whose resume it has lost. -/
theorem AgentMove.holds {agent later : Agent} {choice : Choice} (held : stores.Held)
    (holds : Agent.Holds me (some agent) stores) (alive : agent.process ∉ stores.dead)
    (place : later.process = agent.process)
    (deletes : choice = .task .proceed → ∀ waiter ∈ agent.role.deletes,
      me ∉ stores.rejected ∨ waiter.id ∈ stores.durable)
    (move : AgentMove triggers me stores agent.role choice after later.role) :
    after.Held ∧ Agent.Holds me (some later) after ∧ HoldKeeps stores after := by
  obtain ⟨process, role⟩ := agent
  obtain ⟨process', role'⟩ := later
  cases move with
  | run move =>
    have same := move.resumes
    exact ⟨same.held held, nofun, same.keeps⟩
  | poll move =>
    have same := move.resumes
    exact ⟨same.held held, nofun, same.keeps⟩
  | task move =>
    obtain ⟨own, known⟩ := holds _ _ rfl
    obtain rfl := own
    obtain ⟨stays, held', holds', keeps⟩ := move.holds held known alive fun taken waiter rest phase =>
      deletes (by rw [taken]) waiter (by simp [Role.deletes, phase])
    refine ⟨held', fun _ _ same => ?_, keeps⟩
    cases same
    exact ⟨stays.trans place.symm, holds'⟩
  | reap move =>
    have same := move.resumes
    exact ⟨same.held held, nofun, same.keeps⟩

/-- What happens outside the actors loses only what is expendable. -/
theorem outsideStep_holds {event : Outside} (held : stores.Held)
    (loses : LosesExpendable stores event) (taken : outsideStep stores event = some after) :
    after.Held ∧ HoldKeeps stores after := by
  have settled : SameResumes stores after → after.Held ∧ HoldKeeps stores after :=
    fun same => ⟨same.held held, same.keeps⟩
  cases event with
  | tick ms => obtain rfl := Option.some.inj taken; exact settled ⟨rfl, rfl, rfl, rfl, rfl⟩
  | send instanceId => obtain rfl := Option.some.inj taken; exact settled ⟨rfl, rfl, rfl, rfl, rfl⟩
  | emit event => obtain rfl := Option.some.inj taken; exact settled ⟨rfl, rfl, rfl, rfl, rfl⟩
  | cancel instanceId =>
    obtain ⟨_, same⟩ := Option.ite_none_right_eq_some.mp taken
    obtain rfl := Option.some.inj same
    exact settled ⟨rfl, rfl, rfl, rfl, rfl⟩
  | flush process batch =>
    obtain ⟨_, same⟩ := Option.ite_none_right_eq_some.mp taken
    obtain rfl := Option.some.inj same
    have marked : ∀ item ∈ stores.buffer, ∃ later ∈ stores.buffer.map fun item =>
        if item.process = process ∧ item.batch = none then { item with batch := some batch }
        else item, later.waiter.id = item.waiter.id ∧ later.task = item.task ∧
          later.process = item.process := by
      intro item member
      refine ⟨_, List.mem_map_of_mem member, ?_⟩
      split <;> exact ⟨rfl, rfl, rfl⟩
    refine ⟨⟨fun waiter member => ?_, fun item member => ?_, fun item member => ?_⟩,
      ⟨fun _ is => is, fun _ is => is, fun _ is => is,
        fun item member => .inr (.inr (.inr (marked item member)))⟩⟩
    · rcases held.consumed waiter member with durable | ⟨item, is, id⟩
      · exact .inl durable
      · obtain ⟨later, there, id', _⟩ := marked item is
        exact .inr ⟨later, there, id'.trans id⟩
    · obtain ⟨old, was, rfl⟩ := List.mem_map.mp member
      split <;> exact held.published old was
    · obtain ⟨old, was, rfl⟩ := List.mem_map.mp member
      split <;> exact held.living old was
  | publishItem position =>
    obtain ⟨item, present, taken⟩ := Option.bind_eq_some_iff.mp taken
    obtain ⟨_, same⟩ := Option.ite_none_right_eq_some.mp taken
    obtain rfl := Option.some.inj same
    refine ⟨⟨fun waiter member => ?_, ?_, ?_⟩, ⟨fun _ is => List.mem_cons_of_mem _ is,
      fun _ is => is, fun _ is => is, fun other member => ?_⟩⟩
    · rcases held.consumed waiter member with durable | one
      · exact .inl (List.mem_cons_of_mem _ durable)
      · exact .inr (some_set present (fun id => id) one)
    · exact all_set (fun other member published =>
        List.mem_cons_of_mem _ (held.published other member published))
        fun _ => List.mem_cons_self
    · exact all_set held.living (held.living item (List.mem_of_getElem? present))
    · exact .inr (.inr (.inr (some_set present (fun same => same) ⟨other, member, rfl, rfl, rfl⟩)))
  | flushPasses batch =>
    obtain ⟨all, same⟩ := Option.ite_none_right_eq_some.mp taken
    obtain rfl := Option.some.inj same
    have settled : ∀ item ∈ stores.buffer,
        item.waiter.id ∈ stores.durable ∨ item ∈ stores.withoutFlush batch := by
      intro item member
      by_cases own : item.batch = some batch
      · have inFlush : item ∈ stores.flushed batch := by simp [Stores.flushed, member, own]
        exact .inl (held.published item member (List.all_eq_true.mp all item inFlush))
      · exact .inr (by simp [Stores.withoutFlush, member, own])
    refine ⟨⟨fun waiter member => ?_, fun item member => ?_, fun item member => ?_⟩,
      ⟨fun _ is => is, fun _ is => is, fun _ is => is, fun item member => ?_⟩⟩
    · rcases held.consumed waiter member with durable | ⟨item, is, id⟩
      · exact .inl durable
      · rcases settled item is with durable | stays
        · exact .inl (id ▸ durable)
        · exact .inr ⟨item, stays, id⟩
    · exact held.published item (List.mem_of_mem_filter member)
    · exact held.living item (List.mem_of_mem_filter member)
    · rcases settled item member with durable | stays
      · exact .inl durable
      · exact .inr (.inr (.inr ⟨item, stays, rfl, rfl, rfl⟩))
  | flushFails batch =>
    obtain rfl := Option.some.inj taken
    refine ⟨⟨fun waiter member => ?_, fun item member => ?_, fun item member => ?_⟩,
      ⟨fun _ is => is, fun _ is => List.mem_append_right _ is, fun _ is => is,
        fun item member => ?_⟩⟩
    · rcases held.consumed waiter member with durable | ⟨item, is, id⟩
      · exact .inl durable
      · by_cases own : item.batch = some batch
        · rcases loses item (by simp [Stores.flushed, is, own]) with durable | there
          · exact .inl (id ▸ durable)
          · exact absurd (List.mem_map.mpr ⟨waiter, member, id.symm⟩) there
        · exact .inr ⟨item, by simp [Stores.withoutFlush, is, own], id⟩
    · exact held.published item (List.mem_of_mem_filter member)
    · exact held.living item (List.mem_of_mem_filter member)
    · by_cases own : item.batch = some batch
      · have inFlush : item ∈ stores.flushed batch := by simp [Stores.flushed, member, own]
        exact .inr (.inl (List.mem_append_left _ (List.mem_map_of_mem inFlush)))
      · exact .inr (.inr (.inr ⟨item, by simp [Stores.withoutFlush, member, own], rfl, rfl, rfl⟩))
  | crash process =>
    obtain rfl := Option.some.inj taken
    refine ⟨⟨fun waiter member => ?_, fun item member => ?_, fun item member => ?_⟩,
      ⟨fun _ is => is, fun _ is => is, fun _ is => List.mem_cons_of_mem _ is,
        fun item member => ?_⟩⟩
    · rcases held.consumed waiter member with durable | ⟨item, is, id⟩
      · exact .inl durable
      · by_cases own : item.process = process
        · rcases loses item is own with durable | there
          · exact .inl (id ▸ durable)
          · exact absurd (List.mem_map.mpr ⟨waiter, member, id.symm⟩) there
        · exact .inr ⟨item, by simp [is, own], id⟩
    · exact held.published item (List.mem_of_mem_filter member)
    · have other : item.process ≠ process := by simpa using (List.mem_filter.mp member).2
      simp [other, held.living item (List.mem_of_mem_filter member)]
    · by_cases own : item.process = process
      · exact .inr (.inr (.inl (own ▸ List.mem_cons_self)))
      · exact .inr (.inr (.inr ⟨item, by simp [member, own], rfl, rfl, rfl⟩))

/-- Every lost resume was expendable, and everybody knows what became of its own. -/
abbrev Holding : World → Prop := Crowd.Holds Stores.Held Agent.Holds

/-- A step that loses no resume keeps every one. -/
theorem holding_step {world next : World} {action : Action} (holding : Holding world)
    (kept : LosesNoResume world action) (taken : step triggers world action = some next) :
    Holding next := by
  obtain ⟨expendable, deletes⟩ := kept
  refine holds_step holding taken ?_ ?_ ?_
  · rintro index choice rfl agent later shared present alive place move
    have holds := holding.actor index
    rw [present] at holds
    have keeps : choice = .task .proceed → ∀ waiter ∈ agent.role.deletes,
        index ∉ world.shared.rejected ∨ waiter.id ∈ world.shared.durable := by
      rintro rfl
      exact deletes index rfl agent present
    obtain ⟨held, holds', kept⟩ := move.holds holding.shared holds alive place keeps
    exact ⟨held, holds', fun _ _ known => kept.agent known⟩
  · intro agent starts _ process task same
    cases starts <;> cases same
    exact ⟨rfl, nofun⟩
  · rintro event shared rfl changed
    obtain ⟨held, keeps⟩ := outsideStep_holds holding.shared (expendable event rfl) changed
    exact ⟨held, fun _ known => keeps.agent known⟩

/-- Nothing has been matched. -/
theorem holding_start : Holding start where
  shared := ⟨nofun, nofun, nofun⟩
  actor _ := nofun

/-- In every run, crashes and failed flushes included, in which a resume is lost only while
its waiter is there or after it was published, and no waiter is deleted after its resume was
lost, every waiter deleted on a match has its resume published or in a living worker's
hands. -/
theorem matched_waiters_resume (triggers : InstanceId → Trigger) (world : World)
    (run : Reaches (step triggers) LosesNoResume start world) :
    ∀ waiter ∈ world.shared.consumed, Resumes world.shared waiter := by
  have holding : Holding world :=
    run.invariant holding_start fun _ _ _ holding kept taken => holding_step holding kept taken
  intro waiter member
  rcases holding.shared.consumed waiter member with durable | ⟨item, is, id⟩
  · exact .inl durable
  · exact .inr (.inl ⟨item, is, id, holding.shared.living item is⟩)

/-- The worker dies before it deletes the waiter. The event is delivered to another one,
which meets the waiter again and publishes the resume. -/
theorem matched_waiters_resume_run : ∃ world,
    Reaches (step fun _ => awaitsOne) LosesNoResume start world ∧
      world.shared.dead = [1] ∧ world.shared.consumed.length = 1 ∧ world.shared.stream = [0] ∧
      ∀ waiter ∈ world.shared.consumed, Resumes world.shared waiter := by
  have run : Reaches (step fun _ => awaitsOne) LosesNoResume start _ :=
    reaches_of_perform (matched ++ [Action.outside (.crash 1), .takeEvent 2 0] ++ tasks 2 1 ++
        [Action.act 2 (.task (.handle 0))] ++ tasks 2 1 ++ [Action.act 2 (.task (.select none))] ++ tasks 2 3 ++
        [Action.outside (.flush 2 0), .outside (.publishItem 0), .outside (.flushPasses 0)] ++ tasks 2 1)
      (by decide +kernel) rfl
  exact ⟨_, run, rfl, rfl, rfl, matched_waiters_resume _ _ run⟩

/-- A flush fails after the waiter was deleted. The event is delivered again and finds no
waiter, the timeout finds the step answered and drops itself, and nothing is under way. -/
theorem failed_flush_strands_instance : ∃ triggers world,
    Reaches (step triggers) anyStep start world ∧
      ¬ ∀ waiter ∈ world.shared.consumed, Resumes world.shared waiter := by
  have run : Reaches (step fun _ => awaitsOne) anyStep start _ :=
    reaches_any (matched ++ tasks 1 2 ++ [Action.outside (.flush 1 0), .outside (.flushFails 0)] ++
        tasks 1 1 ++ [Action.takeEvent 1 0] ++ tasks 2 3 ++
        [Action.outside (.tick 3_600_000), .startPoll 0,
          .act 3 (.poll (.claim 3_600_000 [.eventTimeout 0 "paid".toList (some 0)]))] ++ polls 3 3)
      rfl
  refine ⟨_, _, run, fun resumes => ?_⟩
  rcases resumes _ (List.mem_singleton_self _) with durable | ⟨item, member, _⟩ |
    ⟨_, _, _, _, waiter, member, _⟩ | ⟨_, _, _, _, waiter, member, _⟩
  · cases durable
  · cases member
  · cases member
  · cases member

end Notifkit.Workflow
