import Notifkit.Workflow.Sequential

/-!
# Outputs are written once

An event task and a poll both read which step of an instance still waits, and write its
output by the id of its row afterwards. The write does not ask whether the output is
still missing. So where two of them have found the same step, the second write replaces
what the first one wrote, and a replay may already have gone by it.

Where nobody finds a step another is about to answer otherwise, no output changes once
it is there, and every replay gets the results the earlier ones got.
-/

namespace Notifkit.Workflow

open Crowd Runs Tables

variable {triggers : InstanceId → Trigger} {stores after : Stores} {me : Nat}

/-- The output an actor will write once its search for the step still waiting has found one. -/
def Role.finds : Role → Choice → Option (InstanceId × StepIndex × Json)
  | .poll current, .poll (.select (some stepIndex)) =>
    match current.phase, current.tasks with
    | .selecting, .eventTimeout instanceId _ _ :: _ => some (instanceId, stepIndex, timedOut)
    | _, _ => none
  | .task current, .task (.select (some stepIndex)) =>
    match current.phase with
    | .readingSteps waiter _ => some (waiter.instanceId, stepIndex, current.event.data)
    | _ => none
  | _, _ => none

/-- Two outputs that are not two answers to one step. -/
def Compatible (one two : InstanceId × StepIndex × Json) : Prop :=
  one.1 = two.1 → one.2.1 = two.2.1 → one.2.2 = two.2.2

instance (one two : InstanceId × StepIndex × Json) : Decidable (Compatible one two) :=
  inferInstanceAs (Decidable (_ → _ → _))

/-- No reaper is at work, and nobody finds a step still waiting that another living actor is
about to answer otherwise. -/
def FindsAlone (world : World) (action : Action) : Prop :=
  action.reaperless = true ∧
    ∀ move ∈ action.move, ∀ agent ∈ world.actors[move.1]?, ∀ found ∈ agent.role.finds move.2,
      ∀ other ∈ world.actors, other.process ∉ world.shared.dead →
        ∀ written ∈ other.role.writes, Compatible written found

instance (world : World) (action : Action) : Decidable (FindsAlone world action) :=
  inferInstanceAs (Decidable (_ ∧ _))

/-- An actor comes to a write only by its search, which finds a step still waiting. -/
theorem AgentMove.writes {agent later : Role} {choice : Choice}
    (move : AgentMove triggers me stores agent choice after later)
    {written : InstanceId × StepIndex × Json} (writes : later.writes = some written) :
    agent.finds choice = some written ∧ after = stores ∧
      stores.awaits written.1 written.2.1 = true := by
  cases move with
  | run move => cases writes
  | reap move => cases writes
  | poll move =>
    cases move with
    | found taken phase first awaits own =>
      simp only [Role.writes, Poll.writes, Poll.goto, first, Option.some.injEq] at writes
      subst writes
      exact ⟨by simp only [Role.finds, taken, phase, first], rfl, awaits⟩
    | _ => cases writes
  | task move =>
    cases move with
    | found taken phase awaits =>
      obtain rfl := Option.some.inj writes
      exact ⟨by simp [Role.finds, taken, phase, EventTask.goto], rfl, awaits⟩
    | _ => cases writes

/-- What living actors are about to write: each a step that waits or has that answer already,
and no two of them different answers to one step. -/
structure Writers (world : World) : Prop where
  fills : ∀ agent ∈ world.actors, agent.process ∉ world.shared.dead →
    ∀ instanceId (stepIndex : StepIndex) output,
      agent.role.writes = some (instanceId, stepIndex, output) →
        ∃ row, (world.shared.steps instanceId)[stepIndex]? = some row ∧
          row.action = .waitForEvent ∧ (row.output = .null ∨ row.output = output)
  agree : ∀ one ∈ world.actors, one.process ∉ world.shared.dead → ∀ written ∈ one.role.writes,
    ∀ two ∈ world.actors, two.process ∉ world.shared.dead → ∀ written' ∈ two.role.writes,
      Compatible written written'

/-- Whoever is about to write finds the step empty, or his answer there. -/
theorem Writers.once {world : World} (writers : Writers world)
    (conforms : world.shared.Conforms triggers) {agent : Agent} (member : agent ∈ world.actors)
    (alive : agent.process ∉ world.shared.dead) : agent.role.WritesOnce world.shared := by
  intro instanceId stepIndex output writes row there index
  obtain ⟨other, present, kind, open'⟩ :=
    writers.fills agent member alive instanceId stepIndex output writes
  have found := conforms.place there
  rw [index, present] at found
  obtain rfl : other = row := Option.some.inj found
  exact open'.imp_left fun empty => ⟨kind, empty⟩

/-- Nobody writes anything new, and the rows are as they were. -/
theorem Writers.of_same {world next : World} (writers : Writers world)
    (steps : next.shared.steps = world.shared.steps) (dead : LeavesDead world.shared next.shared)
    (actors : ∀ agent ∈ next.actors, agent ∈ world.actors ∨ agent.role.writes = none) :
    Writers next := by
  have old : ∀ agent ∈ next.actors, agent.process ∉ next.shared.dead →
      agent.role.writes ≠ none → agent ∈ world.actors ∧ agent.process ∉ world.shared.dead := by
    intro agent member alive writes
    exact ⟨(actors agent member).resolve_right writes, fun was => alive (dead _ was)⟩
  refine ⟨fun agent member alive instanceId stepIndex output writes => ?_, ?_⟩
  · obtain ⟨was, lived⟩ := old agent member alive (by simp [writes])
    rw [steps]
    exact writers.fills agent was lived instanceId stepIndex output writes
  · intro one member alive written writes two member' alive' written' writes'
    obtain ⟨was, lived⟩ := old one member alive (Option.ne_none_iff_exists'.mpr ⟨_, writes⟩)
    obtain ⟨was', lived'⟩ := old two member' alive' (Option.ne_none_iff_exists'.mpr ⟨_, writes'⟩)
    exact writers.agree one was lived written writes two was' lived' written' writes'

/-- A move of an actor that finds a step alone keeps the writers compatible. -/
theorem Writers.act {world : World} {index : Nat} {agent later : Agent} {choice : Choice}
    {shared : Stores} (conforms : world.shared.Conforms triggers) (writers : Writers world)
    (alone : FindsAlone world (.act index choice)) (present : world.actors[index]? = some agent)
    (alive : agent.process ∉ world.shared.dead)
    (move : AgentMove triggers index world.shared agent.role choice shared later.role) :
    Writers ⟨shared, world.actors.set index later⟩ := by
  have dead : shared.dead = world.shared.dead := move.dead
  have member : agent ∈ world.actors := List.mem_of_getElem? present
  have actors : ∀ other ∈ world.actors.set index later, other ∈ world.actors ∨ other = later :=
    fun other there => List.mem_or_eq_of_mem_set there
  -- What the mover comes to write fits what the others are about to write.
  have fits : ∀ written ∈ later.role.writes, ∀ other ∈ world.actors,
      other.process ∉ world.shared.dead → ∀ written' ∈ other.role.writes,
        Compatible written' written := by
    intro written writes other there lives written' writes'
    obtain ⟨finds, _, _⟩ := move.writes writes
    exact alone.2 (index, choice) rfl agent present written finds other there lives written' writes'
  refine ⟨fun other there lives instanceId stepIndex output writes => ?_, ?_⟩
  · rcases actors other there with old | rfl
    · rw [dead] at lives
      obtain ⟨row, was, kind, open'⟩ :=
        writers.fills other old lives instanceId stepIndex output writes
      obtain ⟨row', is, same⟩ := move.row was
      refine ⟨row', is, same.action.trans kind, ?_⟩
      rcases same.output with kept | wrote
      · rwa [kept]
      · have place := (conforms.rows instanceId stepIndex row was).1
        exact .inr (writers.agree agent member alive _ wrote other old lives _ writes rfl place)
    · obtain ⟨_, rfl, awaits⟩ := move.writes writes
      obtain ⟨row, was, holds⟩ := List.any_eq_true.mp awaits
      simp only [StepRow.awaits, Bool.and_eq_true, decide_eq_true_eq] at holds
      obtain ⟨rfl, kind, empty⟩ := holds
      exact ⟨row, conforms.place was, kind, .inl (Json.isNull_iff.mp empty)⟩
  · intro one there lives written writes two there' lives' written' writes'
    rw [dead] at lives lives'
    rcases actors one there with old | rfl
    · rcases actors two there' with old' | rfl
      · exact writers.agree one old lives written writes two old' lives' written' writes'
      · exact fits written' writes' one old lives written writes
    · rcases actors two there' with old' | rfl
      · intro instance' index'
        exact (fits written writes two old' lives' written' writes' instance'.symm index'.symm).symm
      · obtain rfl : written = written' := Option.some.inj (writes.symm.trans writes')
        exact fun _ _ => rfl

/-- A step in which everybody finds alone keeps the writers compatible. -/
theorem writers_step {world next : World} {action : Action} (sequential : Sequential triggers world)
    (writers : Writers world) (alone : FindsAlone world action)
    (taken : step triggers world action = some next) : Writers next := by
  have joined : ∀ agent : Agent, agent.role.writes = none → Writers (world.join agent) := by
    intro agent silent
    refine writers.of_same rfl (fun _ was => was) fun other there => ?_
    rcases List.mem_append.mp there with old | fresh
    · exact .inl old
    · exact .inr (List.mem_singleton.mp fresh ▸ silent)
  cases action with
  | act index choice =>
    obtain ⟨agent, shared, later, present, moved, rfl⟩ := Crowd.act_eq_some taken
    obtain ⟨alive, _, move⟩ := Agent.move_moves moved
    exact writers.act sequential.shared alone present alive move
  | takeMessage process instanceId =>
    obtain ⟨_, same⟩ := Option.ite_none_right_eq_some.mp taken
    exact (Option.some.inj same) ▸ joined _ rfl
  | startPoll process =>
    obtain ⟨_, same⟩ := Option.ite_none_right_eq_some.mp taken
    exact (Option.some.inj same) ▸ joined _ rfl
  | startReap process =>
    obtain ⟨_, same⟩ := Option.ite_none_right_eq_some.mp taken
    exact (Option.some.inj same) ▸ joined _ rfl
  | takeEvent process position =>
    obtain ⟨event, _, taken⟩ := Option.bind_eq_some_iff.mp taken
    obtain ⟨_, same⟩ := Option.ite_none_right_eq_some.mp taken
    exact (Option.some.inj same) ▸ joined _ rfl
  | outside event =>
    obtain ⟨shared, changed, rfl⟩ := Option.map_eq_some_iff.mp taken
    have frame := outsideStep_frame changed
    exact writers.of_same frame.steps frame.dead fun _ => .inl

/-- Nobody writes anything. -/
theorem writers_start : Writers start := ⟨nofun, nofun⟩

/-- No two living runs have one instance, the rows follow the handlers, and no two actors are
about to answer one step differently. -/
structure Answering (triggers : InstanceId → Trigger) (world : World) : Prop where
  owned : Owned world
  sequential : Sequential triggers world
  writers : Writers world

theorem Answering.once {world : World} (answering : Answering triggers world) {action : Action}
    {next : World} (taken : step triggers world action = some next) : WritesOnce world action := by
  rintro index choice agent rfl present
  obtain ⟨agent', _, _, present', moved, _⟩ := Crowd.act_eq_some taken
  obtain rfl : agent' = agent := Option.some.inj (present'.symm.trans present)
  have alive := (Agent.move_moves moved).1
  exact answering.writers.once answering.sequential.shared (List.mem_of_getElem? present) alive

theorem answering_step {world next : World} {action : Action} (answering : Answering triggers world)
    (alone : FindsAlone world action) (taken : step triggers world action = some next) :
    Answering triggers next where
  owned := owned_step answering.owned (Action.reaperless_reapsLost alone.1) taken
  sequential :=
    sequential_step answering.owned answering.sequential (answering.once taken) taken
  writers := writers_step answering.sequential answering.writers alone taken

/-- In every run in which everybody finds alone, nobody answers a step twice. -/
theorem answering_reached {world : World} (run : Reaches (step triggers) FindsAlone start world) :
    Answering triggers world :=
  run.invariant ⟨owned_start, sequential_start, writers_start⟩
    fun _ _ _ answering alone taken => answering_step answering alone taken

/-- Later stores: time has passed, rows were filled in and rows were added behind them. -/
structure Grown (stores after : Stores) : Prop where
  clock : stores.clock ≤ after.clock
  rows : ∀ instanceId, Extended (stores.steps instanceId)
    ((after.steps instanceId).take (stores.steps instanceId).length)

theorem Grown.refl (stores : Stores) : Grown stores stores :=
  ⟨Nat.le_refl _, fun _ => by rw [List.take_length]; exact .refl _⟩

theorem Grown.trans {middle : Stores} (first : Grown stores middle) (second : Grown middle after) :
    Grown stores after := by
  refine ⟨Nat.le_trans first.clock second.clock, fun instanceId => ?_⟩
  have shorter : (stores.steps instanceId).length ≤ (middle.steps instanceId).length := by
    have length := (first.rows instanceId).length_eq
    rw [List.length_take] at length
    omega
  have later := List.forall₂_take (stores.steps instanceId).length (second.rows instanceId)
  rw [List.take_take, Nat.min_eq_left shorter] at later
  exact (first.rows instanceId).trans later

theorem Keeps.grown {mover : Option Nat} (keeps : Keeps mover stores after) : Grown stores after := by
  refine ⟨keeps.clock, fun instanceId => ?_⟩
  rcases keeps.rows instanceId with extended | ⟨_, row, _, _, added⟩
  · rw [List.take_of_length_le (Nat.le_of_eq extended.length_eq.symm)]
    exact extended
  · rw [added, List.take_left]
    exact .refl _

/-- A run in which everybody finds alone only adds to the rows. -/
theorem grown_reached {world later : World} (answering : Answering triggers world)
    (more : Reaches (step triggers) FindsAlone world later) :
    Answering triggers later ∧ Grown world.shared later.shared := by
  induction more with
  | here => exact ⟨answering, .refl _⟩
  | next _ alone taken inductionHypothesis =>
    obtain ⟨now, grown⟩ := inductionHypothesis
    refine ⟨answering_step now alone taken, grown.trans ?_⟩
    exact (step_keeps now.owned now.sequential (now.once taken) taken).grown

/-- An output that is there is there for good. -/
theorem Grown.row (grown : Grown stores after) {instanceId : InstanceId} {position : Nat}
    {row : StepRow} (present : (stores.steps instanceId)[position]? = some row)
    (filled : row.output ≠ .null) : (after.steps instanceId)[position]? = some row := by
  obtain ⟨later, found, extends'⟩ := (grown.rows instanceId).row present
  obtain rfl := extends'.filled filled
  have inside := (List.getElem?_eq_some_iff.mp present).1
  rwa [List.getElem?_take_of_lt inside] at found

/-- The results a replay gets from some rows, every later replay gets from them. -/
theorem Grown.answers (grown : Grown stores after) {instanceId : InstanceId} {count : Nat}
    {results : List Json} (bound : count ≤ (stores.steps instanceId).length)
    (answered : answers stores.clock ((stores.steps instanceId).take count) = some results) :
    Workflow.answers after.clock ((after.steps instanceId).take count) = some results := by
  have rows := List.forall₂_take count (grown.rows instanceId)
  rw [List.take_take, Nat.min_eq_left bound] at rows
  exact answers_extended rows grown.clock answered

/-- Outputs are written once: from one state of a run to a later one, an output that is there
stays, and a replay gets the results it has got before. -/
def OutputsStay (stores after : Stores) : Prop :=
  (∀ instanceId (position : Nat) row, (stores.steps instanceId)[position]? = some row →
    row.output ≠ .null → (after.steps instanceId)[position]? = some row) ∧
  ∀ instanceId count results, count ≤ (stores.steps instanceId).length →
    answers stores.clock ((stores.steps instanceId).take count) = some results →
      answers after.clock ((after.steps instanceId).take count) = some results

/-- In every run of workers, polls and event tasks, crashes included, in which nobody finds a
step still waiting that another is about to answer otherwise, outputs are written once. -/
theorem outputs_written_once (triggers : InstanceId → Trigger) (world later : World)
    (run : Reaches (step triggers) FindsAlone start world)
    (more : Reaches (step triggers) FindsAlone world later) :
    OutputsStay world.shared later.shared := by
  have grown := (grown_reached (answering_reached run) more).2
  exact ⟨fun _ _ _ present filled => grown.row present filled,
    fun _ _ _ bound answered => grown.answers bound answered⟩

/-- The state some actions lead to, for one instance that waits for one event. -/
def reachedBy (actions : List Action) : World :=
  (perform (step fun _ => awaitsOne) start actions).getD start

/-- The event is filled in, the resume is published, and the replay gets the event. -/
theorem outputs_written_once_run : ∃ world later,
    Reaches (step fun _ => awaitsOne) FindsAlone start world ∧
      Reaches (step fun _ => awaitsOne) FindsAlone world later ∧
      (world.shared.steps 0).map StepRow.output = [.empty] ∧
      later.shared.instances 0 = some .completed ∧ OutputsStay world.shared later.shared := by
  have run : Reaches (step fun _ => awaitsOne) FindsAlone start (reachedBy matched) :=
    reaches_of_perform matched (by decide +kernel) rfl
  have more : Reaches (step fun _ => awaitsOne) FindsAlone (reachedBy matched) _ :=
    reaches_of_perform (tasks 1 1 ++
        [Action.outside (.flush 1 0), .outside (.publishItem 0), .outside (.flushPasses 0),
          .takeMessage 0 0] ++ runs 2 9) (by decide +kernel) rfl
  exact ⟨_, _, run, more, rfl, rfl, outputs_written_once _ _ _ run more⟩

/-- Two events are met by one waiter and both find the step empty; the first one answers. -/
def metTwice : List Action :=
  [Action.outside (.send 0), .takeMessage 0 0] ++ runs 0 14 ++
    [Action.outside (.emit ⟨0, "paid".toList, .null⟩),
      .outside (.emit ⟨0, "paid".toList, .obj [("late".toList, .bool true)]⟩),
      .takeEvent 1 0, .takeEvent 1 1] ++ tasks 1 1 ++ tasks 2 1 ++
    [Action.act 1 (.task (.handle 0)), .act 2 (.task (.handle 0))] ++ tasks 1 1 ++ tasks 2 1 ++
    [Action.act 1 (.task (.select (some 0))), .act 2 (.task (.select (some 0)))] ++ tasks 1 1

/-- The second event overwrites the answer of the first. -/
theorem second_event_overwrites : ∃ triggers world later,
    Reaches (step triggers) (fun _ action => action.calm = true) start world ∧
      Reaches (step triggers) (fun _ action => action.calm = true) world later ∧
      ¬ OutputsStay world.shared later.shared := by
  have run : Reaches (step fun _ => awaitsOne) (fun _ action => action.calm = true) start
      (reachedBy metTwice) := reaches_of_perform metTwice (by decide +kernel) rfl
  have more : Reaches (step fun _ => awaitsOne) (fun _ action => action.calm = true)
      (reachedBy metTwice) _ := reaches_of_perform (tasks 2 1) (by decide +kernel) rfl
  refine ⟨_, _, _, run, more, fun stay => ?_⟩
  have kept := stay.1 0 0 ⟨0, .waitForEvent, .empty⟩ rfl nofun
  cases kept

end Notifkit.Workflow
