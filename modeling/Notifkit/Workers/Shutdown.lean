import Notifkit.Workers.BaseWorker

/-!
# A worker that is stopped

A worker has a loop over what it reads and one over what it claims from others. Both ask for a
permit before each task that they start, and look whether the worker is stopping before they ask.
When the first loop ends it waits for the tasks that are active then, and the worker has stopped.

A loop that has asked before the worker was told to stop still starts its task once it gets the
permit. If it is the second loop, and it gets the permit from one of the tasks that are waited for,
nobody waits for its task.
-/

namespace Notifkit.Workers.Shutdown

open Runs

/-- A call of `processWithTracking`, and whether it began when the worker was stopping. -/
structure Task where
  number : Nat
  startedBy : LoopName
  late : Bool
deriving DecidableEq

/-- Where a loop is. What is left are the messages of its batch that it has not come to. -/
inductive Stage where
  | off
  | fetching
  /-- before the next message -/
  | batch (left : Nat)
  /-- for a message, a permit is asked for, or there -/
  | asking (left : Nat)
  | granted (left : Nat)
  /-- `Promise.allSettled` -/
  | settling (tasks : List Task)
deriving DecidableEq

/-- How many tasks a loop will start before it looks up again. -/
def Stage.begins : Stage → Nat
  | asking _ | granted _ => 1
  | off | fetching | batch _ | settling _ => 0

theorem begins_le (stage : Stage) : stage.begins ≤ 1 := by
  cases stage with
  | asking left | granted left => exact Nat.le_refl 1
  | _ => exact Nat.zero_le 1

inductive Status where
  | idle | running | stopping | stopped
deriving DecidableEq

structure World where
  status : Status := .idle
  /-- `stopping` -/
  asked : Bool := false
  /-- the consumer group is there, and the loops have begun -/
  launched : Bool := false
  semaphore : AsyncSemaphore := {}
  loops : LoopName → Stage := fun _ => .off
  active : List Task := []
  started : List Task := []

inductive Action where
  | start
  /-- `start`, after `ensureGroup` -/
  | launch
  | stop
  /-- the recovery timer -/
  | scan
  /-- messages are read or claimed; a scan may find none, or fail -/
  | fetch (who : LoopName) (count : Nat)
  /-- there is nothing more to read, as the consumer is stopped -/
  | endRead
  /-- a loop comes to its next message -/
  | turn (who : LoopName)
  | begin (who : LoopName)
  | finish (task : Task)
  /-- all tasks that were waited for are settled -/
  | settle
deriving DecidableEq

namespace World

def setLoop (world : World) (who : LoopName) (stage : Stage) : World :=
  { world with loops := fun other => if other = who then stage else world.loops other }

/-- A loop ends. -/
def leave (world : World) : LoopName → World
  | .consume => world.setLoop .consume (.settling world.active)
  | .recover => world.setLoop .recover .off

/-- The permit of a task goes to the loop that waits, if one does. -/
def release (world : World) : World :=
  let (semaphore, next) := world.semaphore.release
  let world := { world with semaphore := semaphore }
  match next with
  | some who =>
    match world.loops who with
    | .asking left => world.setLoop who (.granted left)
    | _ => world
  | none => world

end World

def step (concurrency : Nat) (world : World) : Action → Option World
  | .start => if world.status = .idle then some { world with status := .running } else none
  | .launch =>
    if world.status ≠ .idle ∧ world.launched = false then some { world with
      launched := true
      loops := fun who =>
        if who = .consume ∨ world.status = .running then .fetching else .off }
    else none
  | .stop =>
    if world.asked = true ∨ world.status ≠ .running then some world
    else some { world with asked := true, status := .stopping }
  | .scan =>
    if world.launched = true ∧ world.status = .running ∧ world.loops .recover = .off then
      some (world.setLoop .recover .fetching)
    else none
  | .fetch who count =>
    if world.loops who = .fetching then
      match who with
      | .consume =>
        if count = 0 then none
        else if world.asked then some (world.leave .consume)
        else some (world.setLoop .consume (.batch count))
      | .recover =>
        if count = 0 then some (world.leave .recover)
        else some (world.setLoop .recover (.batch count))
    else none
  | .endRead =>
    if world.loops .consume = .fetching ∧ world.asked = true then some (world.leave .consume)
    else none
  | .turn who =>
    match world.loops who with
    | .batch 0 =>
      if world.asked = true ∧ who = .recover then some (world.leave .recover)
      else some (world.setLoop who .fetching)
    | .batch (left + 1) =>
      if world.asked then some (world.leave who)
      else
        let (semaphore, granted) := world.semaphore.acquire concurrency who
        some ({ world with semaphore := semaphore }.setLoop who
          (if granted then .granted left else .asking left))
    | _ => none
  | .begin who =>
    match world.loops who with
    | .granted left =>
      let task : Task := ⟨world.started.length, who, world.asked⟩
      some ({ world with
        active := world.active ++ [task], started := world.started ++ [task] }.setLoop who
          (.batch left))
    | _ => none
  | .finish task =>
    if task ∈ world.active then
      some { world with active := world.active.erase task }.release
    else none
  | .settle =>
    match world.loops .consume with
    | .settling tasks =>
      if tasks.all fun task => task ∉ world.active then
        some { world.setLoop .consume .off with status := .stopped }
      else none
    | _ => none

/-- A task that a loop started when the worker was stopping. -/
def lateOf (who : LoopName) (task : Task) : Bool := task.startedBy = who && task.late

/-- What holds of a worker at all times. -/
structure Sound (world : World) : Prop where
  some_started : world.active.Sublist world.started
  asked : world.asked = true ↔ world.status = .stopping ∨ world.status = .stopped
  unlaunched : world.launched = false → ∀ who, world.loops who = .off
  early : world.asked = false → ∀ task ∈ world.started, task.late = false
  late : world.asked = true → ∀ who,
    world.started.countP (lateOf who) + (world.loops who).begins ≤ 1
  waiting : ∀ tasks, world.loops .consume = .settling tasks → world.asked = true ∧
    ∀ task ∈ world.active, task ∈ tasks ∨ lateOf .recover task = true
  notRecover : ∀ tasks, world.loops .recover ≠ .settling tasks
  stopped : world.status = .stopped → world.launched = true ∧ world.loops .consume = .off ∧
    ∀ task ∈ world.active, lateOf .recover task = true

section Steps

variable {world after : World} {who : LoopName} {concurrency : Nat}

@[simp] theorem setLoop_same (world : World) (who : LoopName) (stage : Stage) :
    (world.setLoop who stage).loops who = stage := if_pos rfl

theorem setLoop_other (world : World) {who other : LoopName} (differ : other ≠ who)
    (stage : Stage) : (world.setLoop who stage).loops other = world.loops other := if_neg differ

/-- A loop that is somewhere has begun. -/
theorem Sound.launched (sound : Sound world) (somewhere : world.loops who ≠ .off) :
    world.launched = true := by
  cases launched : world.launched with
  | true => rfl
  | false => exact absurd (sound.unlaunched launched who) somewhere

/-- A loop goes on; it starts no more tasks than before, once the worker is stopping. -/
theorem Sound.move (sound : Sound world) (stage : Stage) (somewhere : world.loops who ≠ .off)
    (begins : world.asked = true → stage.begins ≤ (world.loops who).begins)
    (settles : ∀ tasks, stage = .settling tasks → who = .consume ∧ world.asked = true ∧
      ∀ task ∈ world.active, task ∈ tasks ∨ lateOf .recover task = true) :
    Sound (world.setLoop who stage) where
  some_started := sound.some_started
  asked := sound.asked
  unlaunched none := by
    exact absurd ((sound.launched somewhere).symm.trans none) (by decide)
  early := sound.early
  late asked other := by
    have before := sound.late asked other
    by_cases same : other = who
    · subst same
      rw [setLoop_same]
      exact Nat.le_trans (Nat.add_le_add_left (begins asked) _) before
    · rw [setLoop_other world same]
      exact before
  waiting tasks settling := by
    cases who with
    | consume =>
      rw [setLoop_same] at settling
      exact (settles tasks settling).2
    | recover =>
      rw [setLoop_other world (by decide)] at settling
      exact sound.waiting tasks settling
  notRecover tasks settling := by
    cases who with
    | consume =>
      rw [setLoop_other world (by decide)] at settling
      exact sound.notRecover tasks settling
    | recover =>
      rw [setLoop_same] at settling
      cases (settles tasks settling).1
  stopped stopped := by
    obtain ⟨launched, off, tasks⟩ := sound.stopped stopped
    refine ⟨launched, ?_, tasks⟩
    cases who with
    | consume => exact absurd off somewhere
    | recover =>
      rw [setLoop_other world (by decide)]
      exact off

/-- A loop ends, the first one only when the worker is stopping. -/
theorem Sound.leave (sound : Sound world) (somewhere : world.loops who ≠ .off)
    (asked : who = .consume → world.asked = true) : Sound (world.leave who) := by
  cases who with
  | consume =>
    refine sound.move _ somewhere (fun _ => Nat.zero_le _) fun tasks same => ?_
    obtain rfl := Stage.settling.inj same
    exact ⟨rfl, asked rfl, fun task active => .inl active⟩
  | recover =>
    exact sound.move _ somewhere (fun _ => Nat.zero_le _) fun tasks none => by cases none

/-- A loop goes on and does not settle. -/
theorem Sound.goOn (sound : Sound world) (stage : Stage) (somewhere : world.loops who ≠ .off)
    (begins : world.asked = true → stage.begins ≤ (world.loops who).begins)
    (unsettled : ∀ tasks, stage ≠ .settling tasks) : Sound (world.setLoop who stage) :=
  sound.move stage somewhere begins fun tasks same => absurd same (unsettled tasks)

/-- The permits are nothing to what is known here. -/
theorem Sound.permits (sound : Sound world) (semaphore : AsyncSemaphore) :
    Sound { world with semaphore := semaphore } :=
  { sound with }

/-- The permit of a task goes on. -/
theorem Sound.release (sound : Sound world) : Sound world.release := by
  have freed := sound.permits world.semaphore.release.1
  unfold World.release
  dsimp only
  split
  next other _ =>
    split
    next left waits =>
      change world.loops other = .asking left at waits
      refine freed.goOn _ ?_ ?_ fun tasks same => by cases same
      · change world.loops other ≠ .off
        rw [waits]
        exact fun same => by cases same
      · intro _
        change 1 ≤ (world.loops other).begins
        rw [waits]
        exact Nat.le_refl 1
    next => exact freed
  next => exact freed

/-- The worker is started. -/
theorem Sound.start (sound : Sound world)
    (happened : step concurrency world .start = some after) : Sound after := by
  obtain ⟨idle, same⟩ := Option.ite_none_right_eq_some.mp happened
  obtain rfl := Option.some.inj same
  have calm : world.asked = false := by
    rw [Bool.eq_false_iff]
    intro asked
    rcases sound.asked.mp asked with stopping | stopped
    · rw [idle] at stopping
      cases stopping
    · rw [idle] at stopped
      cases stopped
  exact { sound with
    asked := by
      dsimp only
      rw [calm]
      decide
    stopped := fun none => by cases none }

/-- Its loops begin. -/
theorem Sound.launch (sound : Sound world)
    (happened : step concurrency world .launch = some after) : Sound after := by
  obtain ⟨⟨_, unlaunched⟩, same⟩ := Option.ite_none_right_eq_some.mp happened
  obtain rfl := Option.some.inj same
  have off := sound.unlaunched unlaunched
  have idle (who : LoopName) (tasks : List Task) : (if who = .consume ∨ world.status = .running
      then Stage.fetching else .off) ≠ .settling tasks := by
    split <;> exact fun same => by cases same
  exact { sound with
    unlaunched := fun none => by cases none
    late := fun asked who => by
      have before := sound.late asked who
      rw [off who] at before
      dsimp only
      split <;> exact before
    waiting := fun tasks settling => absurd settling (idle .consume tasks)
    notRecover := fun tasks => idle .recover tasks
    stopped := fun stopped => by
      have launched := (sound.stopped stopped).1
      rw [unlaunched] at launched
      cases launched }

/-- The worker is told to stop. A loop that has asked for a permit has one task still to start. -/
theorem Sound.stop (sound : Sound world)
    (happened : step concurrency world .stop = some after) : Sound after := by
  dsimp only [step] at happened
  split at happened
  next => exact Option.some.inj happened ▸ sound
  next neither =>
    obtain rfl := Option.some.inj happened
    obtain ⟨calm, running⟩ := not_or.mp neither
    have calm : world.asked = false := Bool.eq_false_iff.mpr calm
    have none_late (who : LoopName) : world.started.countP (lateOf who) = 0 := by
      refine List.countP_eq_zero.mpr fun task started late => ?_
      have flag := (Bool.and_eq_true_iff.mp late).2
      rw [sound.early calm task started] at flag
      cases flag
    exact { sound with
      asked := ⟨fun _ => .inl rfl, fun _ => rfl⟩
      early := fun none => by cases none
      late := fun _ who => by
        dsimp only
        rw [none_late who, Nat.zero_add]
        exact begins_le _
      waiting := fun tasks settling =>
        absurd (calm.symm.trans (sound.waiting tasks settling).1) (by decide)
      stopped := fun none => by cases none }

/-- The recovery timer starts a scan. -/
theorem Sound.scan (sound : Sound world)
    (happened : step concurrency world .scan = some after) : Sound after := by
  obtain ⟨⟨launched, running, off⟩, same⟩ := Option.ite_none_right_eq_some.mp happened
  obtain rfl := Option.some.inj same
  exact { sound with
    unlaunched := fun none => absurd (launched.symm.trans none) (by decide)
    late := fun asked who => by
      have before := sound.late asked who
      by_cases same : who = .recover
      · subst same
        rw [setLoop_same]
        rw [off] at before
        exact before
      · rw [setLoop_other world same]
        exact before
    waiting := fun tasks settling => by
      rw [setLoop_other world (by decide)] at settling
      exact sound.waiting tasks settling
    notRecover := fun tasks settling => by
      rw [setLoop_same] at settling
      cases settling
    stopped := fun stopped => absurd (running.symm.trans stopped) (by decide) }

/-- Messages come in. -/
theorem Sound.fetch (sound : Sound world) {count : Nat}
    (happened : step concurrency world (.fetch who count) = some after) : Sound after := by
  obtain ⟨fetching, happened⟩ := Option.ite_none_right_eq_some.mp happened
  have somewhere : world.loops who ≠ .off := by
    rw [fetching]
    exact fun same => by cases same
  cases who with
  | consume =>
    obtain ⟨_, happened⟩ := Option.ite_none_left_eq_some.mp happened
    split at happened
    next asked =>
      obtain rfl := Option.some.inj happened
      exact sound.leave somewhere fun _ => asked
    next =>
      obtain rfl := Option.some.inj happened
      exact sound.goOn _ somewhere (fun _ => Nat.zero_le _) fun tasks same => by cases same
  | recover =>
    dsimp only at happened
    split at happened
    next =>
      obtain rfl := Option.some.inj happened
      exact sound.leave somewhere fun none => by cases none
    next =>
      obtain rfl := Option.some.inj happened
      exact sound.goOn _ somewhere (fun _ => Nat.zero_le _) fun tasks same => by cases same

/-- A loop comes to its next message. -/
theorem Sound.turn (sound : Sound world)
    (happened : step concurrency world (.turn who) = some after) : Sound after := by
  dsimp only [step] at happened
  split at happened
  next last =>
    have somewhere : world.loops who ≠ .off := by
      rw [last]
      exact fun same => by cases same
    split at happened
    next both =>
      obtain rfl := Option.some.inj happened
      obtain ⟨_, rfl⟩ := both
      exact sound.leave somewhere fun none => by cases none
    next =>
      obtain rfl := Option.some.inj happened
      exact sound.goOn _ somewhere (fun _ => Nat.zero_le _) fun tasks same => by cases same
  next left more =>
    have somewhere : world.loops who ≠ .off := by
      rw [more]
      exact fun same => by cases same
    split at happened
    next asked =>
      obtain rfl := Option.some.inj happened
      exact sound.leave somewhere fun _ => asked
    next calm =>
      obtain rfl := Option.some.inj happened
      refine (sound.permits _).goOn _ somewhere (fun asked => absurd asked calm) ?_
      intro tasks same
      split at same <;> cases same
  next => cases happened

/-- A loop starts a task. -/
theorem Sound.begin (sound : Sound world)
    (happened : step concurrency world (.begin who) = some after) : Sound after := by
  dsimp only [step] at happened
  split at happened
  next left granted =>
    obtain rfl := Option.some.inj happened
    have somewhere : world.loops who ≠ .off := by
      rw [granted]
      exact fun same => by cases same
    have launched := sound.launched somewhere
    have mine (asked : world.asked = true) :
        lateOf who ⟨world.started.length, who, world.asked⟩ = true := by
      rw [asked]
      exact Bool.and_eq_true_iff.mpr ⟨decide_eq_true rfl, rfl⟩
    exact {
      some_started := sound.some_started.append (List.Sublist.refl _)
      asked := sound.asked
      unlaunched := fun none => absurd (launched.symm.trans none) (by decide)
      early := fun calm => Tables.all_append (sound.early calm) calm
      late := fun asked other => by
        have before := sound.late asked other
        change (world.started ++ [_]).countP _ + _ ≤ 1
        rw [List.countP_append]
        by_cases same : other = who
        · subst same
          rw [granted] at before
          rw [setLoop_same, List.countP_singleton, if_pos (mine asked)]
          exact before
        · rw [setLoop_other _ same, List.countP_singleton, if_neg fun late => same ?_]
          · exact before
          · exact (of_decide_eq_true (Bool.and_eq_true_iff.mp late).1).symm
      waiting := fun tasks settling => by
        cases who with
        | consume =>
          rw [setLoop_same] at settling
          cases settling
        | recover =>
          rw [setLoop_other _ (by decide)] at settling
          obtain ⟨asked, each⟩ := sound.waiting tasks settling
          exact ⟨asked, Tables.all_append each (.inr (mine asked))⟩
      notRecover := fun tasks settling => by
        cases who with
        | consume =>
          rw [setLoop_other _ (by decide)] at settling
          exact sound.notRecover tasks settling
        | recover =>
          rw [setLoop_same] at settling
          cases settling
      stopped := fun stopped => by
        obtain ⟨_, off, each⟩ := sound.stopped stopped
        cases who with
        | consume =>
          rw [granted] at off
          cases off
        | recover =>
          rw [setLoop_other _ (by decide)]
          exact ⟨launched, off, Tables.all_append each (mine (sound.asked.mpr (.inr stopped)))⟩ }
  next => cases happened

/-- A task ends. -/
theorem Sound.finish (sound : Sound world) {task : Task}
    (happened : step concurrency world (.finish task) = some after) : Sound after := by
  obtain ⟨_, same⟩ := Option.ite_none_right_eq_some.mp happened
  obtain rfl := Option.some.inj same
  have fewer : ∀ other ∈ world.active.erase task, other ∈ world.active :=
    fun _ listed => List.mem_of_mem_erase listed
  have erased : Sound { world with active := world.active.erase task } := { sound with
    some_started := List.erase_sublist.trans sound.some_started
    waiting := fun tasks settling => by
      obtain ⟨asked, each⟩ := sound.waiting tasks settling
      exact ⟨asked, fun other listed => each other (fewer other listed)⟩
    stopped := fun stopped => by
      obtain ⟨launched, off, each⟩ := sound.stopped stopped
      exact ⟨launched, off, fun other listed => each other (fewer other listed)⟩ }
  exact erased.release

/-- The worker has stopped. -/
theorem Sound.settle (sound : Sound world)
    (happened : step concurrency world .settle = some after) : Sound after := by
  dsimp only [step] at happened
  split at happened
  next tasks settling =>
    obtain ⟨none, same⟩ := Option.ite_none_right_eq_some.mp happened
    obtain rfl := Option.some.inj same
    obtain ⟨asked, each⟩ := sound.waiting tasks settling
    have somewhere : world.loops .consume ≠ .off := by
      rw [settling]
      exact fun same => by cases same
    have launched := sound.launched somewhere
    have others : (world.setLoop .consume .off).loops .recover = world.loops .recover :=
      setLoop_other world (by decide) .off
    exact {
      some_started := sound.some_started
      asked := ⟨fun _ => .inr rfl, fun _ => asked⟩
      unlaunched := fun none => absurd (launched.symm.trans none) (by decide)
      early := sound.early
      late := fun asked who => by
        have before := sound.late asked who
        cases who with
        | consume =>
          rw [settling] at before
          exact before
        | recover => exact others ▸ before
      waiting := fun _ absent => by cases absent
      notRecover := fun tasks settling => sound.notRecover tasks (others ▸ settling)
      stopped := fun _ => by
        refine ⟨launched, rfl, fun task active => ?_⟩
        rcases each task active with awaited | late
        · exact absurd active (of_decide_eq_true (List.all_eq_true.mp none task awaited))
        · exact late }
  next => cases happened

/-- Every step keeps what holds. -/
theorem Sound.step (sound : Sound world) {action : Action}
    (happened : step concurrency world action = some after) : Sound after := by
  cases action with
  | start => exact sound.start happened
  | launch => exact sound.launch happened
  | stop => exact sound.stop happened
  | scan => exact sound.scan happened
  | fetch who count => exact sound.fetch happened
  | endRead =>
    obtain ⟨⟨fetching, asked⟩, same⟩ := Option.ite_none_right_eq_some.mp happened
    obtain rfl := Option.some.inj same
    refine sound.leave ?_ fun _ => asked
    rw [fetching]
    exact fun same => by cases same
  | turn who => exact sound.turn happened
  | begin who => exact sound.begin happened
  | finish task => exact sound.finish happened
  | settle => exact sound.settle happened

end Steps

/-- Before the worker is started. -/
theorem sound_idle : Sound {} where
  some_started := List.Sublist.refl _
  asked := by decide
  unlaunched _ _ := rfl
  early _ _ none := by cases none
  late none := by cases none
  waiting _ none := by cases none
  notRecover _ none := by cases none
  stopped none := by cases none

/-- However messages come in, scans run and tasks end: from when a worker is told to stop, each of
its loops starts at most one more task. Once the worker has stopped, at most one task is active,
which its recovery started when it was stopping already. -/
theorem stop_drains (concurrency : Nat) (world : World)
    (run : Reaches (step concurrency) anyStep {} world) :
    (∀ who, world.started.countP (lateOf who) ≤ 1) ∧
    (world.status = .stopped → world.active.length ≤ 1 ∧
      ∀ task ∈ world.active, lateOf .recover task = true) := by
  have sound : Sound world :=
    run.invariant sound_idle fun _ _ _ before _ happened => before.step happened
  have few (who : LoopName) : world.started.countP (lateOf who) ≤ 1 := by
    cases asked : world.asked with
    | true => exact Nat.le_trans (Nat.le_add_right ..) (sound.late asked who)
    | false =>
      have none : world.started.countP (lateOf who) = 0 := by
        refine List.countP_eq_zero.mpr fun task started late => ?_
        rw [lateOf, sound.early asked task started, Bool.and_false] at late
        cases late
      rw [none]
      exact Nat.zero_le 1
  refine ⟨few, fun stopped => ?_⟩
  have each := (sound.stopped stopped).2.2
  refine ⟨?_, each⟩
  calc world.active.length = world.active.countP (lateOf .recover) :=
        (List.countP_eq_length.mpr each).symm
    _ ≤ world.started.countP (lateOf .recover) := sound.some_started.countP_le
    _ ≤ 1 := few .recover

/-- One permit. The recovery waits for it while a task runs, and gets it when that is done; the
worker, told to stop meanwhile, only waits for the task that ran. -/
def strayClaim : List Action :=
  [.start, .launch, .fetch .consume 1, .turn .consume, .begin .consume, .fetch .recover 1,
    .turn .recover, .stop, .turn .consume, .endRead, .finish ⟨0, .consume, false⟩, .begin .recover,
    .settle]

/-- The worker has stopped, and the task of its recovery runs. -/
theorem stray_claim_runs :
    let world := (perform (step 1) {} strayClaim).getD {}
    world.status = .stopped ∧ world.active = [⟨1, .recover, true⟩] ∧ world.active.length ≤ 1 := by
  have run : Reaches (step 1) anyStep {} ((perform (step 1) {} strayClaim).getD {}) :=
    reaches_any_performed strayClaim (by decide)
  exact ⟨by decide, by decide, ((stop_drains 1 _ run).2 (by decide)).1⟩

end Notifkit.Workers.Shutdown
