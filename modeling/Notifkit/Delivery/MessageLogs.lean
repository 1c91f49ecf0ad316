import Notifkit.Delivery.Outcomes

/-!
# What the delivery log says of a task

A row says that a task was delivered only where a send of it was reported successful. The other way
about two things are needed. The report must be told: the call that has it publishes it. And its
row must find its place free: a failure stored under the same attempt number hides it. Numbers come
again when a dead letter is replayed, with the count of the payload it failed with.
-/

namespace Notifkit.Delivery.Log

open Pipeline Runs Tables UniqueRows

variable {IDEMPOTENCY_TTL_SECONDS : Nat} {world after : LogWorld}

/-- As long as providers are asked, none reported success. -/
def unanswered (call : Call) : Prop :=
  match call.phase with
  | .dispatching _ result => result.success = false
  | _ => True

/-- What a step of a call does to the reports of success: it gets one, keeps it, or comes to the
effects that go with it. -/
structure Moves (before : World) (index : Nat) (call : Call) (action : Action) (next : World)
    (later : Call) : Prop where
  calls : next.calls = before.calls.set index later
  task : later.task = call.task
  open' : unanswered later
  kept : call.succeeded = true → later.succeeded = true ∨ action = .effectsPass index ∨
    action = .effectThrows index
  reported : next.delivered = before.delivered ∧ (later.succeeded = true → call.succeeded = true) ∨
    next.delivered = call.task :: before.delivered ∧ later.succeeded = true

section Moves

variable {before next : World} {index : Nat} {call later : Call} {action : Action}

/-- A step in which nothing is reported. -/
theorem Moves.silent (calls : next.calls = before.calls.set index later)
    (delivered : next.delivered = before.delivered) (task : later.task = call.task)
    (open' : unanswered later) (idle : later.succeeded = false)
    (kept : call.succeeded = false ∨ action = .effectsPass index ∨ action = .effectThrows index) :
    Moves before index call action next later where
  calls := calls
  task := task
  open' := open'
  kept succeeded := by
    rcases kept with none | one
    · exact absurd (succeeded.symm.trans none) nofun
    · exact .inr one
  reported := .inl ⟨delivered, fun has => absurd (has.symm.trans idle) nofun⟩

/-- An answer is reported as it comes. -/
theorem Moves.respond {provider : Nat} {response : Response}
    (phase : call.phase = .sending provider) :
    Moves before index call (.respond index response)
      { before.moveTo index call (afterResponse call provider response) with
        delivered := if response.success then call.task :: before.delivered else before.delivered }
      { call with phase := afterResponse call provider response } := by
  have idle : call.succeeded = false := by simp [Call.succeeded, phase]
  cases success : response.success with
  | true =>
    have concludes : afterResponse call provider response = .concluding response := by
      simp [afterResponse, Response.thrown, Response.final, success]
    have succeeded : Call.succeeded { call with phase := .concluding response } = true := success
    rw [concludes]
    exact ⟨rfl, rfl, trivial, fun has => absurd (has.symm.trans idle) (by simp), .inr ⟨rfl, succeeded⟩⟩
  | false =>
    have still : unanswered { call with phase := afterResponse call provider response } ∧
        Call.succeeded { call with phase := afterResponse call provider response } = false := by
      unfold afterResponse
      split
      · exact ⟨rfl, rfl⟩
      · split
        · exact ⟨trivial, success⟩
        · exact ⟨success, rfl⟩
    exact .silent rfl rfl rfl still.1 still.2 (.inl idle)

/-- A call that moves to a phase without a report, from one without. -/
theorem Moves.moveTo {phase : CallPhase} (idle : call.succeeded = false)
    (open' : unanswered { call with phase := phase })
    (stays : Call.succeeded { call with phase := phase } = false) :
    Moves before index call action (before.moveTo index call phase) { call with phase := phase } :=
  .silent rfl rfl rfl open' stays (.inl idle)

/-- A lease is tried for without a report. -/
theorem Moves.tryLease {otherwise : CallPhase} (idle : call.succeeded = false)
    (open' : unanswered { call with phase := otherwise })
    (stays : Call.succeeded { call with phase := otherwise } = false) :
    ∃ later, Moves before index call action (before.tryLease index call otherwise) later := by
  unfold World.tryLease
  split
  · exact ⟨_, .silent rfl rfl rfl trivial rfl (.inl idle)⟩
  · exact ⟨_, .moveTo idle open' stays⟩

/-- Past its effects a call settles or is caught. -/
theorem afterEffects_cases (call : Call) (result : Response) :
    (∃ retry, afterEffects call result = .settling retry) ∨ afterEffects call result = .caught := by
  grind [afterEffects]

/-- Every step of a call is one of these moves. -/
theorem callStep_moves (about : action.call = some index)
    (open' : unanswered call)
    (taken : callStep IDEMPOTENCY_TTL_SECONDS before index call action = some next) :
    ∃ later, Moves before index call action next later := by
  have quiet : ∀ {phase : CallPhase}, call.phase = phase → (∀ result, phase ≠ .concluding result) →
      call.succeeded = false := by
    intro phase isPhase other
    unfold Call.succeeded
    split
    next result concluding => exact absurd (isPhase ▸ concluding) (other result)
    next => rfl
  cases action with
  | tick => cases about
  | start => cases about
  | lateReport => cases about
  | gate _ startAt =>
    cases startAt with
    | some startAt =>
      obtain ⟨⟨phase, _⟩, same⟩ := Option.ite_none_right_eq_some.mp taken
      obtain rfl := Option.some.inj same
      exact ⟨_, .silent rfl rfl rfl trivial rfl (.inl (quiet phase (by simp)))⟩
    | none =>
      obtain ⟨phase, same⟩ := Option.ite_none_right_eq_some.mp taken
      obtain rfl := Option.some.inj same
      exact ⟨_, .moveTo (quiet phase (by simp)) trivial rfl⟩
  | gateThrows =>
    obtain ⟨phase, same⟩ := Option.ite_none_right_eq_some.mp taken
    obtain rfl := Option.some.inj same
    exact ⟨_, .moveTo (quiet phase (by simp)) trivial rfl⟩
  | setLease =>
    obtain ⟨phase, same⟩ := Option.ite_none_right_eq_some.mp taken
    obtain rfl := Option.some.inj same
    exact Moves.tryLease (quiet phase (by simp)) trivial rfl
  | readLease =>
    obtain ⟨phase, taken⟩ := Option.ite_none_right_eq_some.mp taken
    split at taken <;>
      (obtain rfl := Option.some.inj taken
       exact ⟨_, .moveTo (quiet phase (by simp)) trivial rfl⟩)
  | retryLease =>
    obtain ⟨phase, same⟩ := Option.ite_none_right_eq_some.mp taken
    obtain rfl := Option.some.inj same
    exact Moves.tryLease (quiet phase (by simp)) trivial rfl
  | render _ ok =>
    obtain ⟨phase, same⟩ := Option.ite_none_right_eq_some.mp taken
    obtain rfl := Option.some.inj same
    cases ok with
    | true => exact ⟨_, .moveTo (quiet phase (by simp)) rfl rfl⟩
    | false => exact ⟨_, .moveTo (quiet phase (by simp)) trivial rfl⟩
  | gateRefuses =>
    simp only [callStep] at taken
    split at taken
    next first result phase =>
      obtain ⟨_, same⟩ := Option.ite_none_right_eq_some.mp taken
      obtain rfl := Option.some.inj same
      have none : result.success = false := by simpa only [unanswered, phase] using open'
      exact ⟨_, .moveTo (quiet phase (by simp)) none rfl⟩
    next => cases taken
  | breakerOpen =>
    simp only [callStep] at taken
    split at taken
    next first result phase =>
      obtain ⟨_, same⟩ := Option.ite_none_right_eq_some.mp taken
      obtain rfl := Option.some.inj same
      exact ⟨_, .moveTo (quiet phase (by simp)) rfl rfl⟩
    next => cases taken
  | budgetExhausted =>
    simp only [callStep] at taken
    split at taken
    next first result phase =>
      obtain ⟨_, same⟩ := Option.ite_none_right_eq_some.mp taken
      obtain rfl := Option.some.inj same
      have none : result.success = false := by simpa only [unanswered, phase] using open'
      exact ⟨_, .moveTo (quiet phase (by simp)) trivial none⟩
    next => cases taken
  | send =>
    simp only [callStep] at taken
    split at taken
    next first result phase =>
      obtain ⟨_, same⟩ := Option.ite_none_right_eq_some.mp taken
      obtain rfl := Option.some.inj same
      exact ⟨_, .moveTo (quiet phase (by simp)) trivial rfl⟩
    next => cases taken
  | respond _ response =>
    simp only [callStep] at taken
    split at taken
    next provider phase =>
      obtain rfl := Option.some.inj taken
      obtain rfl := Option.some.inj about
      exact ⟨_, .respond phase⟩
    next => cases taken
  | sendThrows =>
    simp only [callStep] at taken
    split at taken
    next provider phase =>
      obtain rfl := Option.some.inj taken
      exact ⟨_, .moveTo (quiet phase (by simp)) rfl rfl⟩
    next => cases taken
  | timeout =>
    simp only [callStep] at taken
    split at taken
    next provider phase =>
      obtain rfl := Option.some.inj taken
      exact ⟨_, .silent rfl rfl rfl rfl rfl (.inl (quiet phase (by simp)))⟩
    next => cases taken
  | loopEnds =>
    simp only [callStep] at taken
    split at taken
    next first result phase =>
      obtain ⟨_, same⟩ := Option.ite_none_right_eq_some.mp taken
      obtain rfl := Option.some.inj same
      have none : result.success = false := by simpa only [unanswered, phase] using open'
      exact ⟨_, .moveTo (quiet phase (by simp)) trivial none⟩
    next => cases taken
  | effectsPass =>
    simp only [callStep] at taken
    obtain rfl := Option.some.inj about
    split at taken
    next result phase =>
      obtain rfl := Option.some.inj taken
      have settles : unanswered { call with phase := afterEffects call result } ∧
          Call.succeeded { call with phase := afterEffects call result } = false := by
        rcases afterEffects_cases call result with ⟨retry, settling⟩ | caught
        · rw [settling]
          exact ⟨trivial, rfl⟩
        · rw [caught]
          exact ⟨trivial, rfl⟩
      exact ⟨_, .silent rfl rfl rfl settles.1 settles.2 (.inr (.inl rfl))⟩
    next => cases taken
  | effectThrows =>
    simp only [callStep] at taken
    obtain rfl := Option.some.inj about
    split at taken
    next result phase =>
      obtain rfl := Option.some.inj taken
      exact ⟨_, .silent rfl rfl rfl trivial rfl (.inr (.inr rfl))⟩
    next => cases taken
  | settle _ released =>
    simp only [callStep] at taken
    split at taken
    next phase =>
      obtain rfl := Option.some.inj taken
      refine ⟨{ call with phase := .returned true },
        .silent ?_ ?_ rfl trivial rfl (.inl (quiet phase (by simp)))⟩
      · cases released <;> rfl
      · cases released <;> rfl
    next phase =>
      obtain rfl := Option.some.inj taken
      exact ⟨_, .silent rfl rfl rfl trivial rfl (.inl (quiet phase (by simp)))⟩
    next => cases taken
  | leave _ released =>
    obtain ⟨phase, same⟩ := Option.ite_none_right_eq_some.mp taken
    obtain rfl := Option.some.inj same
    refine ⟨{ call with phase := .threw },
      .silent ?_ ?_ rfl trivial rfl (.inl (quiet phase (by simp)))⟩
    · cases released <;> rfl
    · cases released <;> rfl
  | upgrade =>
    obtain ⟨_, same⟩ := Option.ite_none_right_eq_some.mp taken
    obtain rfl := Option.some.inj same
    exact ⟨{ call with upgrade := false }, rfl, rfl, open', .inl, .inl ⟨rfl, id⟩⟩

end Moves

/-- A report of success for the task is in the log, on its way there, or held by a call. -/
def Tells (world : LogWorld) (taskId : Text) : Prop :=
  (∃ row ∈ world.messageLogs, row.taskId = taskId ∧ row.status = .delivered) ∨
  (∃ event ∈ world.events, event.taskId = taskId ∧ event.outcome = .delivered) ∨
  ∃ call ∈ world.delivery.calls, call.task = taskId ∧ call.succeeded = true

/-- What is told was reported, and what was reported is told. -/
structure Told (world : LogWorld) : Prop where
  asked : ∀ call ∈ world.delivery.calls, unanswered call
  calls : ∀ call ∈ world.delivery.calls, call.succeeded = true →
    call.task ∈ world.delivery.delivered
  events : ∀ event ∈ world.events, event.outcome = .delivered →
    event.taskId ∈ world.delivery.delivered
  rows : ∀ row ∈ world.messageLogs, row.status = .delivered →
    row.taskId ∈ world.delivery.delivered
  kinds : ∀ row ∈ world.messageLogs, row.kind = .attempt → row.status ≠ .dispatched
  told : ∀ taskId ∈ world.delivery.delivered, Tells world taskId

/-- A call moves, publishing what goes with its move. -/
theorem Told.move (told : Told world) {index : Nat} {call later : Call} {action : Action}
    {next : World} (more : List OutcomeEvent)
    (present : world.delivery.calls[index]? = some call)
    (moves : Moves world.delivery index call action next later)
    (honest : ∀ event ∈ more, event.outcome = .delivered →
      call.succeeded = true ∧ event.taskId = call.task)
    (settled : call.succeeded = true → later.succeeded = true ∨
      ∃ event ∈ more, event.taskId = call.task ∧ event.outcome = .delivered)
    (delivery : after.delivery = next) (events : after.events = world.events ++ more)
    (logs : after.messageLogs = world.messageLogs) : Told after := by
  have member : call ∈ world.delivery.calls := List.mem_of_getElem? present
  have grows : ∀ taskId ∈ world.delivery.delivered, taskId ∈ after.delivery.delivered := by
    intro taskId known
    rw [delivery]
    rcases moves.reported with ⟨same, _⟩ | ⟨more, _⟩
    · rwa [same]
    · exact more ▸ List.mem_cons_of_mem _ known
  have placed : later ∈ after.delivery.calls := by
    rw [delivery, moves.calls]
    exact List.mem_of_getElem? ((row_set present).mpr (.inl ⟨rfl, rfl⟩))
  have laterReported : later.succeeded = true → later.task ∈ after.delivery.delivered := by
    intro succeeded
    rcases moves.reported with ⟨_, was⟩ | ⟨reported, _⟩
    · exact moves.task ▸ grows _ (told.calls call member (was succeeded))
    · rw [delivery, reported, moves.task]
      exact List.mem_cons_self
  refine ⟨?_, ?_, ?_, ?_, ?_, ?_⟩
  · rw [delivery, moves.calls]
    exact all_set told.asked moves.open'
  · intro other has
    rw [delivery, moves.calls] at has
    rcases List.mem_or_eq_of_mem_set has with old | rfl
    · exact fun succeeded => grows _ (told.calls other old succeeded)
    · exact laterReported
  · intro event listed isDelivered
    rcases List.mem_append.mp (events ▸ listed) with old | new
    · exact grows _ (told.events event old isDelivered)
    · obtain ⟨succeeded, sameTask⟩ := honest event new isDelivered
      exact sameTask ▸ grows _ (told.calls call member succeeded)
  · intro row stored isDelivered
    exact grows _ (told.rows row (logs ▸ stored) isDelivered)
  · exact logs ▸ told.kinds
  · have keeps : ∀ taskId, Tells world taskId → Tells after taskId := by
      rintro taskId (⟨row, stored, fact⟩ | ⟨event, listed, fact⟩ | ⟨other, has, sameTask, succeeded⟩)
      · exact .inl ⟨row, logs ▸ stored, fact⟩
      · exact .inr (.inl ⟨event, events ▸ List.mem_append_left _ listed, fact⟩)
      · obtain ⟨position, found⟩ := List.mem_iff_getElem?.mp has
        by_cases own : position = index
        · subst own
          obtain rfl : call = other := Option.some.inj (present.symm.trans found)
          rcases settled succeeded with still | ⟨event, published, fact⟩
          · exact .inr (.inr ⟨later, placed, moves.task.trans sameTask, still⟩)
          · exact .inr (.inl ⟨event, events ▸ List.mem_append_right _ published,
              fact.1.trans sameTask, fact.2⟩)
        · refine .inr (.inr ⟨other, ?_, sameTask, succeeded⟩)
          rw [delivery, moves.calls]
          exact List.mem_of_getElem? ((row_set present).mpr (.inr ⟨own, found⟩))
    intro taskId known
    rcases moves.reported with ⟨same, _⟩ | ⟨reported, succeeded⟩
    · exact keeps taskId (told.told taskId (same ▸ delivery ▸ known))
    · rcases List.mem_cons.mp (reported ▸ delivery ▸ known) with rfl | old
      · exact .inr (.inr ⟨later, placed, moves.task, succeeded⟩)
      · exact keeps taskId (told.told taskId old)

/-- Events that report nothing may be published. -/
theorem Told.publish (told : Told world) (more : List OutcomeEvent)
    (other : ∀ event ∈ more, event.outcome ≠ .delivered)
    (delivery : after.delivery = world.delivery) (events : after.events = world.events ++ more)
    (logs : after.messageLogs = world.messageLogs) : Told after := by
  refine ⟨?_, ?_, ?_, ?_, ?_, ?_⟩
  · exact delivery ▸ told.asked
  · exact delivery ▸ told.calls
  · intro event listed isDelivered
    rcases List.mem_append.mp (events ▸ listed) with old | new
    · exact delivery ▸ told.events event old isDelivered
    · exact absurd isDelivered (other event new)
  · exact logs ▸ delivery ▸ told.rows
  · exact logs ▸ told.kinds
  · intro taskId known
    rcases told.told taskId (delivery ▸ known) with row | ⟨event, listed, fact⟩ | held
    · exact .inl (logs ▸ row)
    · exact .inr (.inl ⟨event, events ▸ List.mem_append_left _ listed, fact⟩)
    · exact .inr (.inr (delivery ▸ held))

/-- The rows of an event are its own and a dispatched entry at most. -/
theorem of_mem_rows {event : OutcomeEvent} {new : LogRow} (listed : new ∈ event.rows) :
    new = event.row ∨ new.kind = .dispatched ∧ new.status = .dispatched := by
  unfold OutcomeEvent.rows at listed
  split at listed
  · simp only [List.mem_cons, List.not_mem_nil, or_false] at listed
    rcases listed with rfl | rfl
    · exact .inr ⟨rfl, rfl⟩
    · exact .inl rfl
  · exact .inl (List.mem_singleton.mp listed)

/-- An event has a row of its own. -/
theorem row_mem_rows (event : OutcomeEvent) : event.row ∈ event.rows := by
  unfold OutcomeEvent.rows
  split
  · exact List.mem_cons_of_mem _ (List.mem_singleton.mpr rfl)
  · exact List.mem_singleton.mpr rfl

/-- The row of an outcome is inserted, or its place was taken. -/
theorem insertMessageLogs_place {event : OutcomeEvent} (logs : List LogRow)
    (outcome : event.outcome ≠ .dispatched) :
    event.row ∈ insertMessageLogs logs event.rows ∨
      ∃ old ∈ logs, event.row.sameKey old = true := by
  have place : event.row ∈ insertMessageLogs logs event.rows ∨
      ∃ stored ∈ insertMessageLogs logs event.rows, event.row.sameKey stored = true ∧
        (stored ∈ logs ∨ stored ∈ event.rows) := insertNew_place (row_mem_rows event)
  rcases place with fresh | ⟨stored, there, same, old | new⟩
  · exact .inl fresh
  · exact .inr ⟨stored, old, same⟩
  · rcases of_mem_rows new with rfl | ⟨dispatched, _⟩
    · exact .inl there
    · simp [LogRow.sameKey, OutcomeEvent.row, outcome, dispatched] at same

/-- No report of success is lost in the step: the call that has it publishes it, and a failure has
not taken its place in the log. -/
def Heard (world : LogWorld) : LogAction → Prop
  | .quiet (.lateReport _ success) => success = false
  | .conclude index published => ∀ call ∈ world.delivery.calls[index]?, call.succeeded = true →
      published = true ∧ call.tokenRejected = false
  | .concludeThrows index .. | .crash index =>
      ∀ call ∈ world.delivery.calls[index]?, call.succeeded = false
  | .store position _ => ∀ event ∈ world.events[position]?, event.outcome = .delivered →
      ∀ row ∈ world.messageLogs, event.row.sameKey row = true → row.status ≠ .failed
  | _ => True

instance (world : LogWorld) (action : LogAction) : Decidable (Heard world action) := by
  unfold Heard
  split <;> infer_instance

/-- An event is stored. -/
theorem Told.store (told : Told world) {position : Nat} {acked : Bool}
    (heard : Heard world (.store position acked))
    (taken : step IDEMPOTENCY_TTL_SECONDS world (.store position acked) = some after) :
    Told after := by
  obtain ⟨event, found, same⟩ := Option.bind_eq_some_iff.mp taken
  obtain rfl := Option.some.inj same
  have listed : event ∈ world.events := List.mem_of_getElem? found
  refine ⟨told.asked, told.calls, ?_, ?_, ?_, ?_⟩
  · intro other has
    refine told.events other ?_
    cases acked with
    | true => exact List.mem_of_mem_eraseIdx has
    | false => exact has
  · intro row stored isDelivered
    rcases of_mem_insertNew stored with old | new
    · exact told.rows row old isDelivered
    · rcases of_mem_rows new with rfl | ⟨_, dispatched⟩
      · exact told.events event listed isDelivered
      · exact absurd (isDelivered.symm.trans dispatched) nofun
  · intro row stored isAttempt
    rcases of_mem_insertNew stored with old | new
    · exact told.kinds row old isAttempt
    · rcases of_mem_rows new with rfl | ⟨dispatched, _⟩
      · intro isDispatched
        simp [OutcomeEvent.row] at isAttempt isDispatched
        exact isAttempt isDispatched
      · exact absurd (isAttempt.symm.trans dispatched) nofun
  · rintro taskId known
    rcases told.told taskId known with ⟨row, stored, fact⟩ | ⟨other, has, sameTask, isDelivered⟩ | held
    · exact .inl ⟨row, mem_insertNew stored, fact⟩
    · by_cases own : other = event
      · subst own
        left
        have outcome : other.outcome ≠ .dispatched := by simp [isDelivered]
        rcases insertMessageLogs_place world.messageLogs outcome with
          fresh | ⟨old, stored, place⟩
        · exact ⟨_, fresh, sameTask, isDelivered⟩
        · refine ⟨old, mem_insertNew stored, ?_, ?_⟩
          · simp only [LogRow.sameKey, decide_eq_true_eq] at place
            exact place.1.symm.trans sameTask
          · have attempt : old.kind = .attempt := by
              simp only [LogRow.sameKey, decide_eq_true_eq] at place
              rw [← place.2.2.2]
              simp [OutcomeEvent.row, isDelivered]
            have notFailed := heard other found isDelivered old stored place
            have notDispatched := told.kinds old stored attempt
            cases status : old.status with
            | delivered => rfl
            | failed => exact absurd status notFailed
            | dispatched => exact absurd status notDispatched
      · refine .inr (.inl ⟨other, ?_, sameTask, isDelivered⟩)
        cases acked with
        | true =>
          obtain ⟨place, at'⟩ := List.mem_iff_getElem?.mp has
          have apart : place ≠ position := by
            rintro rfl
            exact own (Option.some.inj (at'.symm.trans found))
          exact List.mem_eraseIdx_iff_getElem?.mpr ⟨place, apart, at'⟩
        | false => exact has
    · exact .inr (.inr held)

/-- The steps of the calls that come to effects, or report a success nobody waits for. -/
def decisive : Action → Bool
  | .lateReport _ success => success
  | .effectsPass _ | .effectThrows _ => true
  | _ => false

/-- Any other step of the calls keeps what is told. -/
theorem Told.deliver (told : Told world) {action : Action} {next : World}
    (plain : decisive action = false)
    (taken : Delivery.step IDEMPOTENCY_TTL_SECONDS world.delivery action = some next)
    (delivery : after.delivery = next) (events : after.events = world.events)
    (logs : after.messageLogs = world.messageLogs) : Told after := by
  cases about : action.call with
  | some index =>
    obtain ⟨call, present, stepped⟩ := step_of_call about taken
    obtain ⟨later, moves⟩ := callStep_moves about (told.asked call (List.mem_of_getElem? present))
      stepped
    refine told.move [] present moves nofun (fun succeeded => .inl ?_) delivery (by simp [events]) logs
    rcases moves.kept succeeded with still | isPass | isThrow
    · exact still
    · exact nomatch isPass ▸ plain
    · exact nomatch isThrow ▸ plain
  | none =>
    have same : next.delivered = world.delivery.delivered → (∀ call ∈ next.calls, call ∈ world.delivery.calls ∨
          unanswered call ∧ call.succeeded = false) →
        (∀ call ∈ world.delivery.calls, call ∈ next.calls) → Told after := by
      intro delivered back forth
      subst delivery
      refine ⟨?_, ?_, ?_, ?_, ?_, ?_⟩
      · intro call has
        rcases back call has with old | ⟨fresh, _⟩
        · exact told.asked call old
        · exact fresh
      · intro call has succeeded
        rcases back call has with old | ⟨_, idle⟩
        · exact delivered ▸ told.calls call old succeeded
        · exact absurd (succeeded.symm.trans idle) nofun
      · exact events ▸ delivered ▸ told.events
      · exact logs ▸ delivered ▸ told.rows
      · exact logs ▸ told.kinds
      · intro taskId known
        rcases told.told taskId (delivered ▸ known) with row | event | ⟨call, has, fact⟩
        · exact .inl (logs ▸ row)
        · exact .inr (.inl (events ▸ event))
        · exact .inr (.inr ⟨call, forth call has, fact⟩)
    cases action with
    | tick ms =>
      obtain rfl := Option.some.inj taken
      exact same rfl (fun call has => .inl has) fun call has => has
    | start task isPush attemptNo maxAttempts transports hasFallback =>
      obtain rfl := Option.some.inj taken
      refine same rfl (fun call has => ?_) fun call has => List.mem_append_left _ has
      rcases List.mem_append.mp has with old | fresh
      · exact .inl old
      · exact .inr (List.mem_singleton.mp fresh ▸ ⟨trivial, rfl⟩)
    | lateReport task success =>
      obtain ⟨_, stepped⟩ := Option.ite_none_right_eq_some.mp taken
      obtain rfl := Option.some.inj stepped
      obtain rfl : success = false := plain
      exact same rfl (fun call has => .inl has) fun call has => has
    | _ => cases about

/-- Nothing is told otherwise where calls, events and rows stay as they are. -/
theorem Told.same (told : Told world) (delivery : after.delivery = world.delivery)
    (events : after.events = world.events) (logs : after.messageLogs = world.messageLogs) :
    Told after :=
  told.publish [] nofun delivery (by simp [events]) logs

theorem Told.published (told : Told world) {published : Bool} {event : OutcomeEvent}
    (other : event.outcome ≠ .delivered) : Told (world.publish published event) := by
  cases published with
  | true =>
    refine told.publish [event] (fun one listed => ?_) rfl rfl rfl
    exact List.mem_singleton.mp listed ▸ other
  | false => exact told.same rfl rfl rfl

theorem Told.logDispatched (told : Told world) {published : Bool} {index : Nat} {call : Call}
    {pass : Pass} : Told (world.logDispatched published index call pass) := by
  unfold LogWorld.logDispatched
  split
  · have logged : Told (world.publish published (eventOf call pass .dispatched)) :=
      told.published nofun
    exact logged.same rfl rfl rfl
  · exact told

theorem Told.reschedule (told : Told world) {parked : Bool} {payload : Payload} :
    Told (world.reschedule parked payload) := by
  unfold LogWorld.reschedule
  split
  · exact told.same rfl rfl rfl
  · exact told

/-- A success that is no rejected token has the outcome that tells it. -/
theorem outcomeOf_succeeded {call : Call} {result : Response}
    (phase : call.phase = .concluding result) (succeeded : call.succeeded = true)
    (accepted : call.tokenRejected = false) : outcomeOf call result = some .delivered := by
  simp only [Call.succeeded, phase] at succeeded
  simp only [Call.tokenRejected, phase] at accepted
  simp [outcomeOf, succeeded, accepted]

/-- The outcome of a delivery is that of a success. -/
theorem succeeded_of_outcomeOf {call : Call} {result : Response}
    (phase : call.phase = .concluding result) (outcome : outcomeOf call result = some .delivered) :
    call.succeeded = true := by
  simp only [outcomeOf] at outcome
  simp only [Call.succeeded, phase]
  grind

/-- The effects of a result pass: a success is told by the event that is published. -/
theorem Told.conclude (told : Told world) {index : Nat} {published : Bool} {call : Call}
    {pass : Pass} (present : world.delivery.calls[index]? = some call)
    (heard : Heard world (.conclude index published))
    (taken : passStep IDEMPOTENCY_TTL_SECONDS world index call pass (.conclude index published) =
      some after) : Told after := by
  simp only [passStep] at taken
  split at taken
  next result phase =>
    obtain ⟨next, stepped, same⟩ := Option.bind_eq_some_iff.mp taken
    obtain ⟨own, found, moved⟩ := step_of_call rfl stepped
    obtain rfl : call = own := Option.some.inj (present.symm.trans found)
    obtain ⟨later, moves⟩ := callStep_moves rfl (told.asked call (List.mem_of_getElem? present))
      moved
    have success := heard call present
    cases outcome : outcomeOf call result with
    | some one =>
      simp only [outcome] at same
      obtain rfl := Option.some.inj same
      refine told.move (if published then [eventOf call pass one] else []) present moves ?_ ?_ ?_ ?_ ?_
      · intro event listed isDelivered
        cases published with
        | true =>
          obtain rfl := List.mem_singleton.mp listed
          obtain rfl : one = .delivered := isDelivered
          exact ⟨succeeded_of_outcomeOf phase outcome, rfl⟩
        | false => exact nomatch listed
      · intro succeeded
        obtain ⟨rfl, accepted⟩ := success succeeded
        have isDelivered := outcomeOf_succeeded phase succeeded accepted
        obtain rfl := Option.some.inj (outcome.symm.trans isDelivered)
        exact .inr ⟨_, List.mem_singleton.mpr rfl, rfl, rfl⟩
      · cases published <;> rfl
      · cases published <;> simp [LogWorld.publish]
      · cases published <;> rfl
    | none =>
      simp only [outcome] at same
      obtain rfl := Option.some.inj same
      have toldNext : Told { world with delivery := next } := by
        refine told.move [] present moves nofun (fun succeeded => ?_) rfl (by simp) rfl
        have isDelivered := outcomeOf_succeeded phase succeeded (success succeeded).2
        exact absurd (outcome.symm.trans isDelivered) nofun
      exact toldNext.reschedule.logDispatched
  next => cases taken

/-- An effect of a result throws: the result was no success. -/
theorem Told.concludeThrows (told : Told world) {index : Nat} {published parked : Bool}
    {call : Call} {pass : Pass} (present : world.delivery.calls[index]? = some call)
    (heard : Heard world (.concludeThrows index published parked))
    (taken : passStep IDEMPOTENCY_TTL_SECONDS world index call pass
      (.concludeThrows index published parked) = some after) : Told after := by
  simp only [passStep] at taken
  split at taken
  next result phase =>
    obtain ⟨next, stepped, same⟩ := Option.bind_eq_some_iff.mp taken
    obtain ⟨own, found, moved⟩ := step_of_call rfl stepped
    obtain rfl : call = own := Option.some.inj (present.symm.trans found)
    obtain ⟨later, moves⟩ := callStep_moves rfl (told.asked call (List.mem_of_getElem? present))
      moved
    have toldNext : Told { world with delivery := next } := by
      refine told.move [] present moves nofun (fun succeeded => ?_) rfl (by simp) rfl
      exact absurd (succeeded.symm.trans (heard call present)) nofun
    cases outcome : outcomeOf call result with
    | some one =>
      cases one with
      | failed =>
        simp only [outcome] at same
        obtain rfl := Option.some.inj same
        have toldEvent : Told (LogWorld.publish { world with delivery := next } published
            (eventOf call pass .failed)) := toldNext.published nofun
        exact toldEvent.same rfl rfl rfl
      | delivered =>
        simp only [outcome] at same
        exact Option.some.inj same ▸ toldNext
      | dispatched =>
        simp only [outcome] at same
        exact Option.some.inj same ▸ toldNext
    | none =>
      simp only [outcome] at same
      exact Option.some.inj same ▸ toldNext.reschedule
  next => cases taken

/-- What a call does keeps what is told. -/
theorem passStep_told {index : Nat} {call : Call} {pass : Pass} {action : LogAction}
    (told : Told world) (about : action.call = some index)
    (present : world.delivery.calls[index]? = some call) (heard : Heard world action)
    (taken : passStep IDEMPOTENCY_TTL_SECONDS world index call pass action = some after) :
    Told after := by
  cases action with
  | gateEnds _ ending =>
    obtain ⟨next, stepped, same⟩ := Option.bind_eq_some_iff.mp taken
    have toldNext : Told { world with delivery := next } :=
      told.deliver rfl stepped rfl rfl rfl
    cases ending with
    | noTransport =>
      obtain ⟨_, same⟩ := Option.ite_none_right_eq_some.mp same
      exact Option.some.inj same ▸ toldNext.published nofun
    | providerThrottleExceeded =>
      obtain ⟨_, same⟩ := Option.ite_none_right_eq_some.mp same
      exact Option.some.inj same ▸ toldNext.published nofun
    | deferred =>
      obtain ⟨_, same⟩ := Option.ite_none_right_eq_some.mp same
      exact Option.some.inj same ▸ toldNext.reschedule
  | render _ ok nonRetryable =>
    obtain ⟨next, stepped, same⟩ := Option.bind_eq_some_iff.mp taken
    obtain rfl := Option.some.inj same
    exact told.deliver rfl stepped rfl rfl rfl
  | timer _ published =>
    simp only [passStep] at taken
    split at taken <;> first
      | exact Option.some.inj taken ▸ told.logDispatched
      | cases taken
  | conclude _ published =>
    obtain rfl := Option.some.inj about
    exact told.conclude present heard taken
  | concludeThrows _ published parked =>
    obtain rfl := Option.some.inj about
    exact told.concludeThrows present heard taken
  | leave _ released published =>
    obtain ⟨next, stepped, same⟩ := Option.bind_eq_some_iff.mp taken
    obtain rfl := Option.some.inj same
    have toldNext : Told { world with delivery := next } :=
      told.deliver rfl stepped rfl rfl rfl
    exact toldNext.logDispatched
  | crash position =>
    have same : position = index := Option.some.inj about
    subst same
    obtain rfl := Option.some.inj taken
    have idle : call.succeeded = false := heard call present
    have moves : Moves world.delivery position call (.leave position false)
        (world.delivery.moveTo position call .threw) { call with phase := .threw } :=
      .moveTo idle trivial rfl
    refine told.move [] present moves nofun (fun succeeded => ?_) rfl (by simp) rfl
    exact absurd (succeeded.symm.trans idle) nofun
  | ack _ =>
    obtain ⟨_, same⟩ := Option.ite_none_right_eq_some.mp taken
    exact Option.some.inj same ▸ told.same rfl rfl rfl
  | deadLetter _ =>
    obtain ⟨_, same⟩ := Option.ite_none_right_eq_some.mp taken
    exact Option.some.inj same ▸ told.same rfl rfl rfl
  | _ => cases about

/-- A step that is about a call is a step of that call, with its pass. -/
theorem step_of_pass {action : LogAction} {index : Nat} (about : action.call = some index)
    (taken : step IDEMPOTENCY_TTL_SECONDS world action = some after) :
    ∃ call pass, world.delivery.calls[index]? = some call ∧ world.passes[index]? = some pass ∧
      passStep IDEMPOTENCY_TTL_SECONDS world index call pass action = some after := by
  have own : ((world.delivery.calls[index]?).bind fun call => (world.passes[index]?).bind fun pass =>
      passStep IDEMPOTENCY_TTL_SECONDS world index call pass action) = some after := by
    cases action with
    | dispatch | schedule | release | replay | take | quiet | poison | store => cases about
    | _ => obtain rfl := Option.some.inj about; exact taken
  obtain ⟨call, present, own⟩ := Option.bind_eq_some_iff.mp own
  obtain ⟨pass, there, own⟩ := Option.bind_eq_some_iff.mp own
  exact ⟨call, pass, present, there, own⟩

/-- Every step in which no report is lost keeps what is told. -/
theorem told_step {action : LogAction} (told : Told world) (heard : Heard world action)
    (taken : step IDEMPOTENCY_TTL_SECONDS world action = some after) : Told after := by
  cases about : action.call with
  | some index =>
    obtain ⟨call, pass, present, _, own⟩ := step_of_pass about taken
    exact passStep_told told about present heard own
  | none =>
    cases action with
    | dispatch payload =>
      obtain ⟨_, same⟩ := Option.ite_none_right_eq_some.mp taken
      exact Option.some.inj same ▸ told.same rfl rfl rfl
    | schedule payload =>
      obtain ⟨_, same⟩ := Option.ite_none_right_eq_some.mp taken
      exact Option.some.inj same ▸ told.same rfl rfl rfl
    | release position kept =>
      obtain ⟨_, _, same⟩ := Option.bind_eq_some_iff.mp taken
      exact Option.some.inj same ▸ told.same rfl rfl rfl
    | replay position kept =>
      obtain ⟨_, _, same⟩ := Option.bind_eq_some_iff.mp taken
      exact Option.some.inj same ▸ told.same rfl rfl rfl
    | take position transports =>
      obtain ⟨entry, _, taken⟩ := Option.bind_eq_some_iff.mp taken
      obtain ⟨_, taken⟩ := Option.ite_none_right_eq_some.mp taken
      obtain ⟨next, stepped, same⟩ := Option.bind_eq_some_iff.mp taken
      exact Option.some.inj same ▸
        told.deliver rfl stepped rfl rfl rfl
    | quiet own =>
      obtain ⟨isQuiet, taken⟩ := Option.ite_none_right_eq_some.mp taken
      obtain ⟨next, stepped, same⟩ := Option.bind_eq_some_iff.mp taken
      obtain rfl := Option.some.inj same
      refine told.deliver ?_ stepped rfl rfl rfl
      cases own with
      | lateReport task success => exact heard
      | effectsPass => cases isQuiet
      | effectThrows => cases isQuiet
      | _ => rfl
    | poison position =>
      obtain ⟨_, _, taken⟩ := Option.bind_eq_some_iff.mp taken
      obtain ⟨_, same⟩ := Option.ite_none_right_eq_some.mp taken
      exact Option.some.inj same ▸ told.same rfl rfl rfl
    | store position acked => exact told.store heard taken
    | _ => cases about

theorem told_start : Told {} where
  asked _ member := nomatch member
  calls _ member := nomatch member
  events _ member := nomatch member
  rows _ member := nomatch member
  kinds _ member := nomatch member
  told _ member := nomatch member

/-- A task of the email channel. -/
def mail : Payload := { taskId := "t".toList, channel := .email }

/-- A call takes the entry at a position and asks its one provider. -/
def asks (entry call : Nat) (response : Response) : List LogAction :=
  [.take entry 1, .quiet (.gate call (some 0)), .quiet (.setLease call), .render call true false,
    .quiet (.send call), .quiet (.respond call response)]

/-- A send is tried again through the scheduler and succeeds. -/
def retriedSend : List LogAction :=
  .dispatch mail :: asks 0 0 ⟨false, false, none⟩ ++
    [LogAction.quiet (.loopEnds 0), .conclude 0 true, .quiet (.settle 0 true), .ack 0, .release 0 false] ++
    asks 1 1 ⟨true, false, none⟩ ++
    [LogAction.conclude 1 true, .quiet (.settle 1 true), .quiet (.upgrade 1 true), .ack 1, .store 0 true,
      .store 0 true]

/-- A send fails for good, and its dead letter is put back: the second time it succeeds. -/
def replayedSend : List LogAction :=
  .dispatch mail :: asks 0 0 ⟨false, false, some false⟩ ++
    [LogAction.quiet (.loopEnds 0), .conclude 0 true, .leave 0 true true, .deadLetter 0, .store 0 true,
      .replay 0 false] ++
    asks 1 1 ⟨true, false, none⟩ ++
    [LogAction.conclude 1 true, .quiet (.settle 1 true), .quiet (.upgrade 1 true), .ack 1, .store 0 true]

end Notifkit.Delivery.Log
