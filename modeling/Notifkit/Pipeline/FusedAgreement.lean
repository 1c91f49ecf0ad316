import Notifkit.Pipeline.RunEnds

/-!
# The fused pipeline against the streamed one

Fused, a request for a single user goes through the engine and delivery by calls, and the engine
asks for no mark. Both pipelines come to the same sends, the same parked tasks and the same
outcomes, whatever the clocks, the throttle, the generation and the providers say, exactly where no
two events of the request have one key of the engine and are sent anywhere.
-/

namespace Notifkit.Pipeline.TaskRuns

open Runs Cascades Tables

/-- A task was sent over a channel to an address. -/
def State.Sent (state : State) (id : TaskId) (channel : NotificationChannel) (destination : Text) :
    Prop :=
  ∃ task ∈ state.tasks, task.id = id ∧ task.event.enriched.channel = channel ∧
    task.contact.target = destination ∧ 0 < task.sends

/-- A task was parked for a time. -/
def State.ParkedFor (state : State) (id : TaskId) (sendAt : Int) : Prop :=
  ∃ task ∈ state.tasks, task.id = id ∧ sendAt ∈ task.parkedFor

/-- A task, other than a copy passed over, came to an end. -/
def State.EndsAs (state : State) (id : TaskId) (phase : Phase) : Prop :=
  phase ≠ .skipped ∧ ∃ task ∈ state.tasks, task.id = id ∧ task.phase = phase

/-- Two runs did the same. -/
structure Agree (one two : State) : Prop where
  sends : ∀ id channel destination,
    one.Sent id channel destination ↔ two.Sent id channel destination
  parked : ∀ id sendAt, one.ParkedFor id sendAt ↔ two.ParkedFor id sendAt
  outcomes : ∀ id phase, one.EndsAs id phase ↔ two.EndsAs id phase

/-- Runs that came to the same tasks did the same. -/
theorem agree_of_tasks {one two : State} (same : ∀ task, task ∈ one.tasks ↔ task ∈ two.tasks) :
    Agree one two where
  sends id channel destination := by simp only [State.Sent, same]
  parked id sendAt := by simp only [State.ParkedFor, same]
  outcomes id phase := by simp only [State.EndsAs, same]

variable {toLowerCase : Text → Text} {zoneOf : Text → Zone} {snapshot : Snapshot}
  {surroundings : Surroundings} {raw : NotificationRequested}

/-- Where no event is handed on twice, two runs that came to their end did the same. -/
theorem agree_of_ended {start start' one two : State} (identified : snapshot.Identified)
    (begins : Begins snapshot raw start) (begins' : Begins snapshot raw start')
    (distinct : start = fusedStart snapshot raw → Distinct toLowerCase snapshot raw)
    (distinct' : start' = fusedStart snapshot raw → Distinct toLowerCase snapshot raw)
    (run : Reaches (step toLowerCase zoneOf snapshot surroundings) anyStep start one)
    (ended : one.Ended)
    (run' : Reaches (step toLowerCase zoneOf snapshot surroundings) anyStep start' two)
    (ended' : two.Ended) : Agree one two :=
  agree_of_tasks fun task => (mem_tasks_iff identified begins distinct run ended task).trans
    (mem_tasks_iff identified begins' distinct' run' ended' task).symm

/-- A task that is over stays. -/
theorem over_stays {state later : State} {task : Task} (isOver : task.isOver = true)
    (present : task ∈ state.tasks)
    (run : Reaches (step toLowerCase zoneOf snapshot surroundings) anyStep state later) :
    task ∈ later.tasks := by
  have kept : ∀ before action after, task ∈ (before : State).tasks → anyStep before action →
      step toLowerCase zoneOf snapshot surroundings before action = some after →
      task ∈ after.tasks := by
    intro before action after there _ taken
    have replaced : ∀ {position : Nat} {old new : Task}, before.tasks[position]? = some old →
        old.isOver = false → task ∈ before.tasks.set position new := by
      intro position old new found going
      obtain ⟨place, placed⟩ := List.mem_iff_getElem?.mp there
      refine List.mem_of_getElem? ((row_set found).mpr (.inr ⟨fun same => ?_, placed⟩))
      rw [same, found] at placed
      rw [Option.some.inj placed, isOver] at going
      cases going
    cases action with
    | call position =>
      obtain ⟨event, _, same⟩ := Option.bind_eq_some_iff.mp taken
      exact Option.some.inj same ▸ List.mem_append_left _ there
    | take position =>
      obtain ⟨event, _, went⟩ := Option.bind_eq_some_iff.mp taken
      dsimp only at went
      split at went
      · exact Option.some.inj went ▸ there
      · exact Option.some.inj went ▸ List.mem_append_left _ there
    | advance position =>
      obtain ⟨old, found, went⟩ := Option.bind_eq_some_iff.mp taken
      split at went
      · cases went
      obtain ⟨next, moved, same⟩ := Option.bind_eq_some_iff.mp went
      refine Option.some.inj same ▸ replaced found (Bool.eq_false_iff.mpr fun ended => ?_)
      rw [Task.advance_eq_none.mpr ended] at moved
      cases moved
    | skip position =>
      obtain ⟨old, found, went⟩ := Option.bind_eq_some_iff.mp taken
      rw [Option.ite_none_right_eq_some] at went
      refine Option.some.inj went.2 ▸ replaced found ?_
      have waits := went.1
      simp only [State.copied, Bool.decide_and, Bool.and_eq_true, decide_eq_true_eq] at waits
      simp [Task.isOver, waits.1]
  exact run.invariant present kept

section Copies

variable {event : Event} {contact : UserContact}

/-- The time an event is put off to that is judged at time zero. -/
def dueAt (zoneOf : Text → Zone) (event : Event) : Option Int :=
  ParkingTimes.deferQuiet zoneOf event.enriched.recipient event.enriched.priority 0
    (event.enriched.scheduledAt.map Nat.cast)

/-- A task on its way to delivery. -/
def sentOut (event : Event) (contact : UserContact) : Task :=
  { event := event, contact := contact, phase := .outbound }

/-- The time of an event has come, the first send of one of its tasks is refused for good, and
nothing else gets in the way. -/
def refusedOnce (zoneOf : Text → Zone) (event : Event) (contact : UserContact) : Surroundings where
  judgedAt _ := 0
  throttled _ := false
  dispatchedAt _ := (dueAt zoneOf event).getD 0
  generates _ := true
  answers id nth := if id = (sentOut event contact).id ∧ nth = 0 then .refused else .accepted
  answeredAt _ _ := 0

/-- A task that is due is dispatched. -/
theorem scheduleOrDispatch_due (task : Task) (scheduledAt : Option Int) :
    task.scheduleOrDispatch (scheduledAt.getD 0) scheduledAt = { task with phase := .outbound } := by
  unfold Task.scheduleOrDispatch
  refine if_neg ?_
  cases scheduledAt <;> simp

/-- Where its time has come, a task waits for its texts at most. -/
theorem taskFor_due (zoneOf : Text → Zone) (snapshot : Snapshot) (event : Event)
    (contact : UserContact) :
    taskFor zoneOf snapshot (refusedOnce zoneOf event contact) event contact =
      sentOut event contact ∨
    taskFor zoneOf snapshot (refusedOnce zoneOf event contact) event contact =
      { event := event, contact := contact, phase := .aiPending (dueAt zoneOf event) } := by
  unfold taskFor
  dsimp only
  split
  · exact .inr rfl
  · exact .inl (scheduleOrDispatch_due _ (dueAt zoneOf event))

/-- A task gets its texts and goes out. -/
theorem advance_generated (nth : Nat) :
    Task.advance (refusedOnce zoneOf event contact) nth
      { event := event, contact := contact, phase := .aiPending (dueAt zoneOf event) } =
      some (sentOut event contact) :=
  congrArg some (scheduleOrDispatch_due _ (dueAt zoneOf event))

/-- A new task has made no trip. -/
theorem tasksOf_fresh {task : Task}
    (begun : task ∈ tasksOf toLowerCase zoneOf snapshot surroundings event) :
    task.trips = 0 ∧ task.completed = false := by
  obtain ⟨_, _, _, contact, _, rfl⟩ := mem_tasksOf.mp begun
  unfold taskFor
  dsimp only
  split
  · exact ⟨rfl, rfl⟩
  · unfold Task.scheduleOrDispatch
    dsimp only
    split <;> exact ⟨rfl, rfl⟩

/-- A new task whose time has come can go out. -/
theorem reaches_sentOut {state : State} {position : Nat}
    (found : state.tasks[position]? = some
      (taskFor zoneOf snapshot (refusedOnce zoneOf event contact) event contact)) :
    ∃ later, Reaches (step toLowerCase zoneOf snapshot (refusedOnce zoneOf event contact)) anyStep
        state later ∧ later.tasks = state.tasks.set position (sentOut event contact) := by
  rcases taskFor_due zoneOf snapshot event contact with out | waits
  · refine ⟨state, .here, ?_⟩
    rw [out] at found
    refine List.ext_getElem? fun place => ?_
    by_cases here : position = place
    · obtain ⟨inside, _⟩ := List.getElem?_eq_some_iff.mp found
      rw [← here, List.getElem?_set_self inside, found]
    · rw [List.getElem?_set_ne here]
  · rw [waits] at found
    have taken : step toLowerCase zoneOf snapshot (refusedOnce zoneOf event contact) state
        (.advance position) =
        some { state with tasks := state.tasks.set position (sentOut event contact) } := by
      simp [step, found, State.standsFor, advance_generated, sentOut, Task.leaves]
    exact ⟨_, Reaches.here.next trivial taken, rfl⟩

/-- The task that was refused for good. -/
def refusedTask (event : Event) (contact : UserContact) : Task :=
  { event := event, contact := contact, phase := .failed, trips := 1, sends := 1 }

/-- Its copy that was accepted. -/
def acceptedTask (event : Event) (contact : UserContact) : Task :=
  { event := event, contact := contact, phase := .delivered, trips := 1, sends := 1 }

/-- A call of delivery with no copy completed. -/
theorem step_sentOut {state : State} {position : Nat} {next : Task}
    (found : state.tasks[position]? = some (sentOut event contact))
    (uncompleted : ∀ task ∈ state.tasks, task.completed = false)
    (moved : (sentOut event contact).advance surroundings
      (state.tripsOf (sentOut event contact).id) = some next) :
    ∃ later, step toLowerCase zoneOf snapshot surroundings state (.advance position) = some later ∧
      later.tasks = state.tasks.set position next := by
  have alone : state.standsFor (sentOut event contact) = false := by
    refine Bool.eq_false_iff.mpr fun stands => ?_
    simp only [State.standsFor, Bool.decide_and, Bool.decide_eq_true, Bool.and_eq_true,
      decide_eq_true_eq, List.any_eq_true] at stands
    obtain ⟨_, other, present, _, completed⟩ := stands
    rw [uncompleted other present] at completed
    cases completed
  refine ⟨{ state with
    streamed := state.streamed ++ next.leaves.toList
    tasks := state.tasks.set position next
    trace := if (sentOut event contact).sends < next.sends then state.trace ++ [next]
      else state.trace }, ?_, rfl⟩
  simp [step, found, alone, moved]

/-- The first call for the task is refused for good. -/
theorem advance_refused (last : event.enriched.fallbackChain = []) :
    (sentOut event contact).advance (refusedOnce zoneOf event contact) 0 =
      some (refusedTask event contact) := by
  simp [Task.advance, sentOut, refusedOnce, Task.deliver, Task.giveUp, last, refusedTask]

/-- Every later one is accepted. -/
theorem advance_accepted {nth : Nat} (later : nth ≠ 0) :
    (sentOut event contact).advance (refusedOnce zoneOf event contact) nth =
      some (acceptedTask event contact) := by
  simp [Task.advance, sentOut, refusedOnce, Task.deliver, later, acceptedTask]

/-- One of two copies of a task can be refused for good and the other one delivered. -/
theorem reaches_delivered {state : State} {position copy : Nat}
    (apart : position ≠ copy) (last : event.enriched.fallbackChain = [])
    (found : state.tasks[position]? = some (sentOut event contact))
    (found' : state.tasks[copy]? = some (sentOut event contact))
    (fresh : ∀ task ∈ state.tasks, task.trips = 0 ∧ task.completed = false) :
    ∃ later, Reaches (step toLowerCase zoneOf snapshot (refusedOnce zoneOf event contact)) anyStep
      state later ∧ acceptedTask event contact ∈ later.tasks := by
  have none : state.tripsOf (sentOut event contact).id = 0 := by
    rw [State.tripsOf, List.sum_eq_zero_iff_forall_eq_nat]
    intro trips member
    obtain ⟨task, present, rfl⟩ := List.mem_map.mp member
    exact (fresh task (List.mem_filter.mp present).1).1
  obtain ⟨middle, taken, tasks⟩ : ∃ later, step toLowerCase zoneOf snapshot
      (refusedOnce zoneOf event contact) state (.advance position) = some later ∧
      later.tasks = state.tasks.set position (refusedTask event contact) :=
    step_sentOut found (fun task member => (fresh task member).2) (none ▸ advance_refused last)
  have placed : middle.tasks[copy]? = some (sentOut event contact) := by
    rw [tasks, List.getElem?_set_ne apart, found']
  have uncompleted : ∀ task ∈ middle.tasks, task.completed = false := by
    rw [tasks]
    exact all_set (fun task member => (fresh task member).2) rfl
  have counted : middle.tripsOf (sentOut event contact).id ≠ 0 := by
    rw [State.tripsOf, Ne, List.sum_eq_zero_iff_forall_eq_nat, not_forall]
    refine ⟨1, fun zero => absurd (zero ?_) Nat.one_ne_zero⟩
    obtain ⟨inside, _⟩ := List.getElem?_eq_some_iff.mp found
    refine List.mem_map.mpr ⟨refusedTask event contact, List.mem_filter.mpr ⟨?_, by
      simp [Task.id, refusedTask, sentOut]⟩, rfl⟩
    rw [tasks]
    exact List.mem_set inside _
  obtain ⟨later, taken', tasks'⟩ : ∃ later, step toLowerCase zoneOf snapshot
      (refusedOnce zoneOf event contact) middle (.advance copy) = some later ∧
      later.tasks = middle.tasks.set copy (acceptedTask event contact) :=
    step_sentOut placed uncompleted (advance_accepted counted)
  refine ⟨later, (Reaches.here.next trivial taken).next trivial taken', ?_⟩
  obtain ⟨inside, _⟩ := List.getElem?_eq_some_iff.mp placed
  rw [tasks']
  exact List.mem_set inside _

/-- A task that is begun once ends refused. -/
theorem after_refusedOnce {steps : Nat} {task : Task} (last : event.enriched.fallbackChain = [])
    (came : (rules toLowerCase zoneOf snapshot (refusedOnce zoneOf event contact)).after steps
      (taskFor zoneOf snapshot (refusedOnce zoneOf event contact) event contact) = some task)
    (isOver : task.isOver = true) : task = refusedTask event contact := by
  obtain ⟨enough, reached⟩ : ∃ enough, (rules toLowerCase zoneOf snapshot
      (refusedOnce zoneOf event contact)).after enough
        (taskFor zoneOf snapshot (refusedOnce zoneOf event contact) event contact) =
          some (refusedTask event contact) := by
    rcases taskFor_due zoneOf snapshot event contact with out | waits
    · exact ⟨1, out ▸ advance_refused last⟩
    · refine ⟨2, waits ▸ ?_⟩
      exact (congrArg (Option.bind · _) (advance_generated 0)).trans (advance_refused last)
  exact ended_unique came (Task.advance_eq_none.mpr isOver) reached rfl

end Copies

/-- A request that is handed on with two events of one key that are sent somewhere has no fallback,
so that nothing comes after its tasks. -/
theorem chain_of_copies (identified : snapshot.Identified) {userId : Text}
    (single : raw.userIds = [userId]) (copies : ¬ Distinct toLowerCase snapshot raw) {event : Event}
    (given : event ∈ firstEvents snapshot raw) : event.enriched.fallbackChain = [] := by
  have noFallback : raw.fallback = false :=
    Bool.eq_false_iff.mpr fun fallback => copies (distinct_of_fallback identified fallback single)
  obtain ⟨_, _, issued⟩ := of_mem_firstEvents given
  obtain ⟨_, chosen, _⟩ := issued.chosen
  simp only [Enricher.userChannels, noFallback, Bool.false_eq_true, if_false] at chosen
  exact (Prod.mk.inj (Option.some.inj chosen)).2.symm

/-- Such a request has an event that is sent somewhere at two places. -/
theorem exists_copies (identified : snapshot.Identified)
    (copies : ¬ Distinct toLowerCase snapshot raw) :
    ∃ event, MakesTasks toLowerCase snapshot event ∧ ∃ first second : Nat, first < second ∧
      (firstEvents snapshot raw)[first]? = some event ∧
      (firstEvents snapshot raw)[second]? = some event := by
  simp only [Distinct, List.pairwise_iff_getElem, not_forall, Apart] at copies
  obtain ⟨first, second, inside, within, order, same, sent⟩ := copies
  obtain ⟨_, _, issued⟩ := of_mem_firstEvents (List.getElem_mem inside)
  obtain ⟨_, _, issued'⟩ := of_mem_firstEvents (List.getElem_mem within)
  have events := issued.keyed identified issued' same
  refine ⟨(firstEvents snapshot raw)[first], ?_, first, second, order,
    List.getElem?_eq_getElem inside, ?_⟩
  · rw [← events, and_self, not_not] at sent
    exact sent
  · rw [events]
    exact List.getElem?_eq_getElem within

/-- Two calls for one event make its tasks twice. -/
theorem reaches_copies {event : Event} {first second : Nat} (order : first < second)
    (found : (firstEvents snapshot raw)[first]? = some event)
    (found' : (firstEvents snapshot raw)[second]? = some event) :
    ∃ later, Reaches (step toLowerCase zoneOf snapshot surroundings) anyStep
        (fusedStart snapshot raw) later ∧
      later.tasks = tasksOf toLowerCase zoneOf snapshot surroundings event ++
        tasksOf toLowerCase zoneOf snapshot surroundings event := by
  have once : step toLowerCase zoneOf snapshot surroundings (fusedStart snapshot raw) (.call first) =
      some { fusedStart snapshot raw with
        called := (firstEvents snapshot raw).eraseIdx first
        tasks := tasksOf toLowerCase zoneOf snapshot surroundings event } := by
    simp [step, fusedStart, found]
  have moved : ((firstEvents snapshot raw).eraseIdx first)[second - 1]? = some event := by
    rw [List.getElem?_eraseIdx, if_neg (by omega), Nat.sub_add_cancel (by omega), found']
  have twice : step toLowerCase zoneOf snapshot surroundings { fusedStart snapshot raw with
        called := (firstEvents snapshot raw).eraseIdx first
        tasks := tasksOf toLowerCase zoneOf snapshot surroundings event } (.call (second - 1)) =
      some { fusedStart snapshot raw with
        called := ((firstEvents snapshot raw).eraseIdx first).eraseIdx (second - 1)
        tasks := tasksOf toLowerCase zoneOf snapshot surroundings event ++
          tasksOf toLowerCase zoneOf snapshot surroundings event } := by
    simp [step, moved]
  exact ⟨_, (Reaches.here.next trivial once).next trivial twice, rfl⟩

/-- The first task of an event that is not throttled. -/
theorem tasksOf_refusedOnce {event : Event} {contact : UserContact} {rest : List UserContact}
    (passed : Engine.targets toLowerCase snapshot event.enriched = .ok (contact :: rest)) :
    tasksOf toLowerCase zoneOf snapshot (refusedOnce zoneOf event contact) event =
      taskFor zoneOf snapshot (refusedOnce zoneOf event contact) event contact ::
        rest.map (taskFor zoneOf snapshot (refusedOnce zoneOf event contact) event) := by
  rw [tasksOf, if_neg (by simp [refusedOnce]), passed]
  rfl

/-- With calls, one copy of a task is refused for good and the other one delivered. -/
theorem reaches_fused_delivered (zoneOf : Text → Zone) {event : Event} {contact : UserContact}
    {rest : List UserContact} {first second : Nat} (order : first < second)
    (found : (firstEvents snapshot raw)[first]? = some event)
    (found' : (firstEvents snapshot raw)[second]? = some event)
    (passed : Engine.targets toLowerCase snapshot event.enriched = .ok (contact :: rest))
    (last : event.enriched.fallbackChain = []) :
    ∃ fused, Reaches (step toLowerCase zoneOf snapshot (refusedOnce zoneOf event contact)) anyStep
        (fusedStart snapshot raw) fused ∧ fused.Ended ∧
      acceptedTask event contact ∈ fused.tasks := by
  obtain ⟨copied, run, made⟩ : ∃ later, Reaches (step toLowerCase zoneOf snapshot
      (refusedOnce zoneOf event contact)) anyStep (fusedStart snapshot raw) later ∧
      later.tasks = tasksOf toLowerCase zoneOf snapshot (refusedOnce zoneOf event contact) event ++
        tasksOf toLowerCase zoneOf snapshot (refusedOnce zoneOf event contact) event :=
    reaches_copies order found found'
  have fresh : ∀ task ∈ copied.tasks, task.trips = 0 ∧ task.completed = false := by
    rw [made]
    intro task member
    exact (List.mem_append.mp member).elim tasksOf_fresh tasksOf_fresh
  rw [tasksOf_refusedOnce passed] at made
  have place : copied.tasks[0]? = some
      (taskFor zoneOf snapshot (refusedOnce zoneOf event contact) event contact) := by
    rw [made]
    rfl
  have place' : copied.tasks[rest.length + 1]? = some
      (taskFor zoneOf snapshot (refusedOnce zoneOf event contact) event contact) := by
    rw [made, List.getElem?_append_right (by simp)]
    simp
  obtain ⟨one, runOne, out⟩ : ∃ later, Reaches (step toLowerCase zoneOf snapshot
      (refusedOnce zoneOf event contact)) anyStep copied later ∧
      later.tasks = copied.tasks.set 0 (sentOut event contact) := reaches_sentOut place
  have waits : one.tasks[rest.length + 1]? = some
      (taskFor zoneOf snapshot (refusedOnce zoneOf event contact) event contact) := by
    rw [out, List.getElem?_set_ne (by omega), place']
  obtain ⟨two, runTwo, bothOut⟩ : ∃ later, Reaches (step toLowerCase zoneOf snapshot
      (refusedOnce zoneOf event contact)) anyStep one later ∧
      later.tasks = one.tasks.set (rest.length + 1) (sentOut event contact) := reaches_sentOut waits
  have outFirst : two.tasks[0]? = some (sentOut event contact) := by
    obtain ⟨inside, _⟩ := List.getElem?_eq_some_iff.mp place
    rw [bothOut, List.getElem?_set_ne (by omega), out, List.getElem?_set_self inside]
  have outSecond : two.tasks[rest.length + 1]? = some (sentOut event contact) := by
    obtain ⟨inside, _⟩ := List.getElem?_eq_some_iff.mp waits
    rw [bothOut, List.getElem?_set_self inside]
  have stillFresh : ∀ task ∈ two.tasks, task.trips = 0 ∧ task.completed = false := by
    rw [bothOut, out]
    exact all_set (all_set fresh ⟨rfl, rfl⟩) ⟨rfl, rfl⟩
  obtain ⟨three, runThree, delivered⟩ : ∃ later, Reaches (step toLowerCase zoneOf snapshot
      (refusedOnce zoneOf event contact)) anyStep two later ∧
      acceptedTask event contact ∈ later.tasks :=
    reaches_delivered (by omega) last outFirst outSecond stillFresh
  obtain ⟨fused, runFour, ended⟩ : ∃ later, Reaches (step toLowerCase zoneOf snapshot
      (refusedOnce zoneOf event contact)) anyStep three later ∧ later.Ended := run_ends three
  exact ⟨fused, (((run.trans runOne).trans runTwo).trans runThree).trans runFour, ended,
    over_stays rfl delivered runFour⟩

/-- Read from the streams, the task is made once and ends refused. -/
theorem streamed_refused (identified : snapshot.Identified) {event : Event} {contact : UserContact}
    {rest : List UserContact} (given : event ∈ firstEvents snapshot raw)
    (passed : Engine.targets toLowerCase snapshot event.enriched = .ok (contact :: rest))
    (last : event.enriched.fallbackChain = []) {streamed : State}
    (noCopies : streamedStart snapshot raw = fusedStart snapshot raw →
      Distinct toLowerCase snapshot raw)
    (run : Reaches (step toLowerCase zoneOf snapshot (refusedOnce zoneOf event contact)) anyStep
      (streamedStart snapshot raw) streamed)
    (ended : streamed.Ended) :
    ∀ task ∈ streamed.tasks, task.id = (sentOut event contact).id →
      task = refusedTask event contact := by
  intro task member same
  obtain ⟨origin, arisen, begun, isBegun, steps, came, _⟩ :=
    (mem_tasks_iff identified .streamed noCopies run ended task).mp member
  have own : taskFor zoneOf snapshot (refusedOnce zoneOf event contact) event contact ∈
      tasksOf toLowerCase zoneOf snapshot (refusedOnce zoneOf event contact) event := by
    rw [tasksOf_refusedOnce passed]
    exact List.mem_cons_self
  have ids : begun.id =
      (taskFor zoneOf snapshot (refusedOnce zoneOf event contact) event contact).id := by
    obtain ⟨sameEvent, sameContact⟩ := after_event came
    have kept : begun.id = task.id := by rw [Task.id, Task.id, sameEvent, sameContact]
    rw [kept, same]
    simp only [Task.id, taskFor_event, sentOut]
  obtain rfl := event_of_task_id identified arisen (.first given) isBegun own ids
  rw [List.inj_on_of_nodup_map (tasksOf_nodup identified origin) isBegun own ids] at came
  exact after_refusedOnce last came (ended.tasks task member)

/-- Both pipelines do the same in all surroundings exactly where a request that is handed on by calls
has no two events with one key that are sent anywhere. -/
theorem fused_agrees_iff (toLowerCase : Text → Text) (zoneOf : Text → Zone) (snapshot : Snapshot)
    (identified : snapshot.Identified) (raw : NotificationRequested) :
    (∀ surroundings start fused streamed, Begins snapshot raw start →
      Reaches (step toLowerCase zoneOf snapshot surroundings) anyStep start fused → fused.Ended →
      Reaches (step toLowerCase zoneOf snapshot surroundings) anyStep (streamedStart snapshot raw)
        streamed → streamed.Ended →
      Agree fused streamed) ↔
    ∀ userId, raw.userIds = [userId] → Distinct toLowerCase snapshot raw := by
  have noCopies : streamedStart snapshot raw = fusedStart snapshot raw →
      Distinct toLowerCase snapshot raw := by
    intro same
    have none : firstEvents snapshot raw = [] := (congrArg State.called same).symm
    rw [Distinct, none]
    exact List.Pairwise.nil
  constructor
  · intro agrees userId single
    refine Classical.byContradiction fun copies => ?_
    obtain ⟨event, ⟨contacts, passed, some⟩, first, second, order, found, found'⟩ :=
      exists_copies identified copies
    obtain ⟨contact, rest, rfl⟩ := List.exists_cons_of_ne_nil some
    have given : event ∈ firstEvents snapshot raw := List.mem_of_getElem? found
    have last := chain_of_copies identified single copies given
    obtain ⟨fused, run, ended, delivered⟩ :=
      reaches_fused_delivered zoneOf order found found' passed last
    obtain ⟨streamed, run', ended'⟩ : ∃ later, Reaches (step toLowerCase zoneOf snapshot
      (refusedOnce zoneOf event contact)) anyStep (streamedStart snapshot raw) later ∧ later.Ended :=
      run_ends (streamedStart snapshot raw)
    have agree := agrees _ _ fused streamed (.fused single) run ended run' ended'
    obtain ⟨_, task, member, same, phase⟩ :=
      (agree.outcomes (sentOut event contact).id .delivered).mp ⟨nofun, _, delivered, rfl, rfl⟩
    rw [streamed_refused identified given passed last noCopies run' ended' task member same] at phase
    cases phase
  · intro distinct surroundings start fused streamed begins run ended run' ended'
    refine agree_of_ended identified begins .streamed (fun isFused => ?_) noCopies run ended run'
      ended'
    cases begins with
    | streamed => exact noCopies isFused
    | fused single => exact distinct _ single

/-- The only user of a project is found by one name. -/
theorem mailbox_user :
    ∀ one ∈ [(⟨1, "p".toList, "u".toList, "UTC".toList⟩ : UserRow)],
      ∀ two ∈ [(⟨1, "p".toList, "u".toList, "UTC".toList⟩ : UserRow)],
        one.projectId = two.projectId → one.externalId = two.externalId → one.id = two.id := by
  decide

/-- A user with one mail address. -/
def mailbox : Snapshot where
  users := [⟨1, "p".toList, "u".toList, "UTC".toList⟩]
  contacts := [⟨"c".toList, 1, .email, "a@x".toList, true⟩]
  usersUnique := mailbox_user

theorem mailbox_identified : mailbox.Identified where
  users := by decide +kernel
  contacts := by decide +kernel
  named := by decide +kernel

/-- A request that lists mail twice. -/
def twiceListed : NotificationRequested where
  projectId := "p".toList
  eventId := "r".toList
  userIds := ["u".toList]
  channels := [.email, .email]

/-- The provider refuses the first send of a task for good and takes the second one. -/
def strictOnce : Surroundings where
  judgedAt _ := 0
  throttled _ := false
  dispatchedAt _ := 0
  generates _ := true
  answers _ nth := if nth = 0 then .refused else .accepted
  answeredAt _ _ := 0

def unzoned (_ : Text) : Zone := none

/-- Both copies are made by calls; one is dead-lettered, then the other one is sent. -/
def fusedTwice : State :=
  (perform (step id unzoned mailbox strictOnce) (fusedStart mailbox twiceListed)
    [.call 0, .call 0, .advance 0, .advance 1]).getD {}

/-- The second event is a duplicate for the streamed engine. -/
def streamedOnce : State :=
  (perform (step id unzoned mailbox strictOnce) (streamedStart mailbox twiceListed)
    [.take 0, .take 0, .advance 0]).getD {}

/-- Fused, a task is delivered that is dead-lettered where each stage reads its own stream. -/
theorem fused_delivers_what_streamed_fails :
    ¬ ∀ (toLowerCase : Text → Text) (zoneOf : Text → Zone) (snapshot : Snapshot)
      (raw : NotificationRequested) (surroundings : Surroundings) (start fused streamed : State),
      snapshot.Identified → Begins snapshot raw start →
      Reaches (step toLowerCase zoneOf snapshot surroundings) anyStep start fused → fused.Ended →
      Reaches (step toLowerCase zoneOf snapshot surroundings) anyStep (streamedStart snapshot raw)
        streamed → streamed.Ended →
      Agree fused streamed := by
  intro claimed
  have run : Reaches (step id unzoned mailbox strictOnce) anyStep
      (fusedStart mailbox twiceListed) fusedTwice :=
    reaches_any_performed _ (by decide +kernel)
  have run' : Reaches (step id unzoned mailbox strictOnce) anyStep
      (streamedStart mailbox twiceListed) streamedOnce :=
    reaches_any_performed _ (by decide +kernel)
  have ended : fusedTwice.Ended :=
    ⟨by decide +kernel, by decide +kernel, by decide +kernel⟩
  have ended' : streamedOnce.Ended :=
    ⟨by decide +kernel, by decide +kernel, by decide +kernel⟩
  have agree := claimed id unzoned mailbox twiceListed strictOnce _ _ _ mailbox_identified
    (.fused rfl) run ended run' ended'
  have delivered : fusedTwice.EndsAs ⟨.requested "r".toList, "c".toList⟩ .delivered :=
    ⟨nofun, by decide +kernel⟩
  obtain ⟨_, task, member, _, phase⟩ := (agree.outcomes _ _).mp delivered
  revert phase
  revert task
  decide +kernel

/-- A request that lists mail once. -/
def onceListed : NotificationRequested := { twiceListed with channels := [.email] }

/-- Listed once, a channel makes no difference: where the first send is refused for good both
pipelines dead-letter the task. -/
theorem fused_agrees_once :
    Agree
      ((perform (step id unzoned mailbox strictOnce) (fusedStart mailbox onceListed)
        [.call 0, .advance 0]).getD {})
      ((perform (step id unzoned mailbox strictOnce) (streamedStart mailbox onceListed)
        [.take 0, .advance 0]).getD {}) :=
  (fused_agrees_iff id unzoned mailbox mailbox_identified onceListed).mpr
    (fun _ _ => List.pairwise_singleton _ _) strictOnce _ _ _ (.fused rfl)
    (reaches_any_performed _ (by decide +kernel))
    ⟨by decide +kernel, by decide +kernel, by decide +kernel⟩
    (reaches_any_performed _ (by decide +kernel))
    ⟨by decide +kernel, by decide +kernel, by decide +kernel⟩

end Notifkit.Pipeline.TaskRuns
