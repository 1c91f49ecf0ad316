import Notifkit.Workflow.Registrations

/-!
# An event answers the wait it matched

An event task reads the waiters first and asks which step of the instance still waits
later. When it asks, the wait it matched may be over: another event has answered it, or
its timeout has, and the handler has come to its next wait. Then that one is found, and
gets the data of an event it never asked for.

Where no other wait of the instance is open when a task asks, every event is recorded at
the step whose waiter it matched, whose name it has and whose criteria it meets.
-/

namespace Notifkit.Workflow

open Crowd Runs

variable {triggers : InstanceId → Trigger} {stores after : Stores} {me : Nat}

/-- The waiter of an event task that is about to find a step still waiting. -/
def Role.looks : Role → Choice → Option Waiter
  | .task current, .task (.select (some _)) =>
    match current.phase with
    | .readingSteps waiter _ => some waiter
    | _ => none
  | _, _ => none

/-- No reaper is at work, and when an event task finds a step still waiting, no step of the
instance waits but the one whose waiter was matched. -/
def FindsItsWait (world : World) (action : Action) : Prop :=
  action.reaperless = true ∧
    ∀ move ∈ action.move, ∀ agent ∈ world.actors[move.1]?, ∀ waiter ∈ agent.role.looks move.2,
      ∀ row ∈ world.shared.steps waiter.instanceId,
        row.awaits = true → row.stepIndex = waiter.stepIndex

instance (world : World) (action : Action) : Decidable (FindsItsWait world action) :=
  inferInstanceAs (Decidable (_ ∧ _))

/-- The data written to a step is that of an event with the name the step's `waitForEvent`
gave and that meets its criteria, and it was this wait that the event matched. -/
structure Answer.Fits (stores : Stores) (answer : Answer) : Prop where
  registered : answer.waiter ∈ stores.registrations
  own : answer.waiter.key = (answer.instanceId, answer.stepIndex)
  eventName : answer.waiter.eventName = answer.event.eventName
  projectId : answer.waiter.projectId = answer.event.projectId
  matched : answer.waiter.matched answer.event = true

/-- Every event recorded at a step fits it, and the step had no other waiter. -/
def AnswersFit (stores : Stores) : Prop :=
  ∀ answer ∈ stores.answered, answer.Fits stores ∧
    ∀ other ∈ stores.registrations, other.key = (answer.instanceId, answer.stepIndex) →
      other = answer.waiter

/-- What an event task is about to answer is the step of its waiter. -/
def EventTask.Aims (task : EventTask) : Prop :=
  ∀ waiter rest stepIndex, task.phase = .answering waiter rest stepIndex →
    stepIndex = waiter.stepIndex

/-- What an actor aims at, if it is an event task. -/
def Agent.Aims (_ : Nat) (agent : Option Agent) (_ : Stores) : Prop :=
  ∀ process task, agent = some ⟨process, .task task⟩ → task.Aims

/-- Every answer fits so far. -/
def Stores.Fitting (stores : Stores) : Prop := ∀ answer ∈ stores.answered, answer.Fits stores

/-- Answers fit still where none was added and no registration went away. -/
theorem Stores.Fitting.of_same (fitting : stores.Fitting) (answered : after.answered = stores.answered)
    (registrations : ∀ waiter ∈ stores.registrations, waiter ∈ after.registrations) :
    after.Fitting := by
  intro answer member
  rw [answered] at member
  obtain ⟨registered, own, eventName, projectId, matched⟩ := fitting answer member
  exact ⟨registrations _ registered, own, eventName, projectId, matched⟩

/-- Only an event task that answers adds an answer. -/
theorem AgentMove.answered {agent later : Role} {choice : Choice}
    (move : AgentMove triggers me stores agent choice after later) :
    after.answered = stores.answered ∨ ∃ task waiter rest stepIndex, agent = .task task ∧
      task.phase = .answering waiter rest stepIndex ∧
      after.answered = ⟨waiter.instanceId, stepIndex, task.event, waiter⟩ :: stores.answered := by
  cases move with
  | run move =>
    cases move with
    | outer was outer same => exact .inl same.answered
    | renew same => exact .inl same.answered
    | _ => exact .inl rfl
  | poll move => cases move <;> exact .inl rfl
  | task move =>
    cases move with
    | answer phase => exact .inr ⟨_, _, _, _, rfl, phase, rfl⟩
    | _ => exact .inl rfl
  | reap move =>
    cases move with
    | update =>
      unfold Reap.update
      split <;> exact .inl rfl
    | _ => exact .inl rfl

/-- A task that finds its own wait aims at it. -/
theorem TaskMove.aims {task later : EventTask} {choice : TaskChoice}
    (own : ∀ waiter ∈ (Role.task task).looks (.task choice), ∀ row ∈ stores.steps waiter.instanceId,
      row.awaits = true → row.stepIndex = waiter.stepIndex)
    (move : TaskMove me stores task choice after later) : later.Aims := by
  intro waiter rest stepIndex phase
  cases move with
  | found taken was awaits =>
    obtain ⟨rfl, _, rfl⟩ := TaskPhase.answering.inj phase
    obtain ⟨row, member, rfl, holds⟩ := Stores.awaits_iff.mp awaits
    exact own _ (by simp [Role.looks, taken, was]) row member holds
  | _ => cases phase

/-- Every answer fits, and every event task aims at the wait it matched. -/
abbrev Fitting : World → Prop := Crowd.Holds Stores.Fitting Agent.Aims

/-- A step in which every event task finds its own wait keeps the answers fitting. -/
theorem fitting_step {world next : World} {action : Action} (owned : Owned world)
    (registered : Registered world) (fitting : Fitting world) (finds : FindsItsWait world action)
    (taken : step triggers world action = some next) : Fitting next := by
  refine holds_step fitting taken ?_ ?_ ?_
  · rintro index choice rfl agent later shared present alive _ move
    have owns := owned.actor index
    have known := registered.actor index
    have aims := fitting.actor index
    rw [present] at owns known aims
    have kept := (move.registered alive owns registered.shared known).2.2
    obtain ⟨process, role⟩ := agent
    obtain ⟨process', role'⟩ := later
    refine ⟨?_, ?_, fun _ _ aims => aims⟩
    · rcases move.answered with same | ⟨task, waiter, rest, stepIndex, rfl, phase, added⟩
      · exact fitting.shared.of_same same kept.registrations
      · intro answer member
        rw [added] at member
        rcases List.mem_cons.mp member with rfl | old
        · have current := (known _ _ rfl).current waiter (by simp [EventTask.current, phase])
          obtain ⟨⟨there, name, project⟩, matched⟩ := current
          have own := aims _ _ rfl waiter rest stepIndex phase
          exact ⟨kept.registrations _ there, by rw [own]; rfl, name, project, matched⟩
        · obtain ⟨there, own, name, project, matched⟩ := fitting.shared answer old
          exact ⟨kept.registrations _ there, own, name, project, matched⟩
    · rintro _ _ same
      cases same
      cases move with
      | task move =>
        refine move.aims fun waiter looks => ?_
        exact finds.2 (index, _) rfl _ present waiter looks
  · intro agent starts _ process task same
    cases starts <;> cases same
    exact fun _ _ _ other => by cases other
  · intro event shared _ changed
    have frame := outsideStep_frame changed
    exact ⟨fitting.shared.of_same frame.answered fun _ member => frame.registrations ▸ member,
      fun _ aims => aims⟩

/-- Nothing has been answered. -/
theorem fitting_start : Fitting start where
  shared := nofun
  actor _ := nofun

/-- In every run of workers, polls and event tasks, crashes included, in which no other wait of
the instance is open when an event task finds the step still waiting, every event is recorded
at the step it matched, which waits for its name and whose criteria it meets. -/
theorem events_answer_their_wait (triggers : InstanceId → Trigger) (world : World)
    (run : Reaches (step triggers) FindsItsWait start world) : AnswersFit world.shared := by
  have owned : ∀ reached, Reaches (step triggers) FindsItsWait start reached → Owned reached :=
    fun _ reaches => owned_reached reaches fun _ _ finds => Action.reaperless_reapsLost finds.1
  have registered : ∀ reached, Reaches (step triggers) FindsItsWait start reached →
      Registered reached := fun _ reaches =>
    reaches.invariant_given owned registered_start fun _ _ _ owned registered _ taken =>
      registered_step owned registered taken
  have fitting : Fitting world :=
    run.invariant_given (fun reached reaches => And.intro (owned reached reaches)
      (registered reached reaches)) fitting_start fun _ _ _ known fitting finds taken =>
        fitting_step known.1 known.2 fitting finds taken
  intro answer member
  have fits := fitting.shared answer member
  refine ⟨fits, fun other there key => ?_⟩
  exact (registered world run).shared.distinct other there answer.waiter fits.registered
    (.inr (key.trans fits.own.symm))

/-- A handler that waits for one event and then for another one. -/
def awaitsTwo : Trigger where
  projectId := 0
  handler
    | [] => .step (.waitForEvent "paid".toList { timeout := some ⟨some 3_600_000⟩ })
    | [_] => .step (.waitForEvent "shipped".toList { timeout := some ⟨some 3_600_000⟩ })
    | _ => .returns

/-- Both events arrive in turn, and each answers its wait. -/
theorem events_answer_their_wait_run : ∃ world,
    Reaches (step fun _ => awaitsTwo) FindsItsWait start world ∧
      world.shared.answered.length = 2 ∧ AnswersFit world.shared := by
  have run : Reaches (step fun _ => awaitsTwo) FindsItsWait start _ :=
    reaches_of_perform (matched ++ tasks 1 1 ++
        [Action.outside (.flush 1 0), .outside (.publishItem 0), .outside (.flushPasses 0),
          .takeMessage 0 0] ++ runs 2 14 ++
        [Action.outside (.emit ⟨0, "shipped".toList, .null⟩), .takeEvent 1 1] ++ tasks 3 1 ++
        [Action.act 3 (.task (.handle 0))] ++ tasks 3 1 ++ [Action.act 3 (.task (.select (some 1)))] ++ tasks 3 1)
      (by decide +kernel) rfl
  exact ⟨_, run, rfl, events_answer_their_wait _ _ run⟩

/-- Two events meet the waiter of the first wait. The first one answers it, and the handler
comes to its second wait; the second event is recorded there, which waits for another name. -/
theorem stale_event_answers_next_wait : ∃ triggers world,
    Reaches (step triggers) (fun _ action => action.calm = true) start world ∧
      ¬ AnswersFit world.shared := by
  have run : Reaches (step fun _ => awaitsTwo) (fun _ action => action.calm = true) start _ :=
    reaches_of_perform ([Action.outside (.send 0), .takeMessage 0 0] ++ runs 0 14 ++
        [Action.outside (.emit ⟨0, "paid".toList, .null⟩), .outside (.emit ⟨0, "paid".toList, .null⟩),
          .takeEvent 1 0, .takeEvent 2 1] ++ tasks 1 1 ++ tasks 2 1 ++
        [Action.act 1 (.task (.handle 0)), .act 2 (.task (.handle 0))] ++ tasks 1 1 ++ tasks 2 1 ++
        [Action.act 1 (.task (.select (some 0)))] ++ tasks 1 3 ++
        [Action.outside (.flush 1 0), .outside (.publishItem 0), .outside (.flushPasses 0),
          .takeMessage 0 0] ++ runs 3 14 ++
        [Action.act 2 (.task (.select (some 1)))] ++ tasks 2 1)
      (by decide +kernel) rfl
  refine ⟨_, _, run, fun fit => ?_⟩
  have own := (fit _ List.mem_cons_self).1.own
  cases own

end Notifkit.Workflow
