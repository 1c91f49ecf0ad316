import Notifkit.Delivery.MessageLogs

/-!
# The rows of one dispatch pass

The dispatched entry of a pass rides on its outcome, unless a timer published it alone before the
outcome was known. A failure tells its attempt number either way. A delivery has its number with the
dispatched entry: where that went out alone, the row of the delivery takes the number one.
-/

namespace Notifkit.Delivery.Log

open Pipeline Runs Tables

variable {IDEMPOTENCY_TTL_SECONDS : Nat}

/-- How a pass ends: its outcome is published, or an effect throws before or after that. -/
inductive PassEnd where
  | concludes
  /-- published, and then thrown for the dead letters -/
  | rethrows (released : Bool)
  | throws (parked released : Bool)
deriving DecidableEq

/-- The steps of an end, with every event published. -/
def PassEnd.actions (index : Nat) : PassEnd → List LogAction
  | concludes => [.conclude index true]
  | rethrows released => [.conclude index true, .leave index released true]
  | throws parked released => [.concludeThrows index true parked, .leave index released true]

/-- The rows of what was published since. -/
def rowsSince (world final : LogWorld) : List LogRow :=
  (final.events.drop world.events.length).flatMap OutcomeEvent.rows

/-- Every step of the workers keeps the task and the attempt number of a call. -/
theorem step_keeps {world next : World} {index : Nat} {call : Call} {action : Action}
    (taken : Delivery.step IDEMPOTENCY_TTL_SECONDS world action = some next)
    (found : world.calls[index]? = some call) :
    ∃ later, next.calls[index]? = some later ∧ later.task = call.task ∧
      later.attemptNo = call.attemptNo := by
  have moved : ∀ {place : Nat} {other : Call}, world.calls[place]? = some other →
      callStep IDEMPOTENCY_TTL_SECONDS world place other action = some next →
      ∃ later, next.calls[index]? = some later ∧ later.task = call.task ∧
        later.attemptNo = call.attemptNo := by
    intro place other foundOther taken
    obtain ⟨later, calls, keeps⟩ := callStep_keeps taken
    rw [calls]
    by_cases same : index = place
    · subst same
      obtain rfl := Option.some.inj (found.symm.trans foundOther)
      exact ⟨later, (row_set foundOther).mpr (.inl ⟨rfl, rfl⟩), keeps.task, keeps.attemptNo⟩
    · exact ⟨call, (row_set foundOther).mpr (.inr ⟨same, found⟩), rfl, rfl⟩
  unfold Delivery.step at taken
  split at taken
  · exact ⟨call, Option.some.inj taken ▸ found, rfl, rfl⟩
  · refine ⟨call, ?_, rfl, rfl⟩
    rw [← Option.some.inj taken]
    exact row_append.mpr (.inl found)
  · rw [Option.ite_none_right_eq_some] at taken
    exact ⟨call, Option.some.inj taken.2 ▸ found, rfl, rfl⟩
  · obtain ⟨place, _, taken⟩ := Option.bind_eq_some_iff.mp taken
    obtain ⟨other, foundOther, taken⟩ := Option.bind_eq_some_iff.mp taken
    exact moved foundOther taken

/-- And every run of them. -/
theorem perform_keeps {world final : World} {index : Nat} {call : Call} {actions : List Action}
    (ran : perform (Delivery.step IDEMPOTENCY_TTL_SECONDS) world actions = some final)
    (found : world.calls[index]? = some call) :
    ∃ later, final.calls[index]? = some later ∧ later.task = call.task ∧
      later.attemptNo = call.attemptNo := by
  induction actions generalizing world call with
  | nil => exact ⟨call, Option.some.inj ran ▸ found, rfl, rfl⟩
  | cons action rest inductionHypothesis =>
    obtain ⟨next, taken, ran⟩ := Option.bind_eq_some_iff.mp ran
    obtain ⟨middle, foundMiddle, task, attemptNo⟩ := step_keeps taken found
    obtain ⟨later, foundLater, task', attemptNo'⟩ := inductionHypothesis ran foundMiddle
    exact ⟨later, foundLater, task'.trans task, attemptNo'.trans attemptNo⟩

/-- Steps that publish nothing leave everything but the calls. -/
theorem perform_quiet {world final : LogWorld} {asked : List Action}
    (ran : perform (step IDEMPOTENCY_TTL_SECONDS) world (asked.map .quiet) = some final) :
    ∃ delivery, perform (Delivery.step IDEMPOTENCY_TTL_SECONDS) world.delivery asked =
      some delivery ∧ final = { world with delivery := delivery } := by
  induction asked generalizing world with
  | nil => exact ⟨world.delivery, rfl, (Option.some.inj ran).symm⟩
  | cons action rest inductionHypothesis =>
    obtain ⟨next, taken, ran⟩ := Option.bind_eq_some_iff.mp ran
    rw [step, Option.ite_none_right_eq_some] at taken
    obtain ⟨delivery, stepped, same⟩ := Option.bind_eq_some_iff.mp taken.2
    rw [← Option.some.inj same] at ran
    obtain ⟨last, ranRest, final_⟩ := inductionHypothesis ran
    exact ⟨last, by rw [perform, stepped, Option.bind_some]; exact ranRest, final_⟩

/-- What the end of a pass publishes. -/
def PassEnd.events (call : Call) (pass : Pass) (result : Response) : PassEnd → List OutcomeEvent
  | concludes | rethrows _ =>
    match outcomeOf call result with
    | some outcome => [eventOf call pass outcome]
    | none => if pass.dispatchLogged then [] else [eventOf call pass .dispatched]
  | throws _ _ =>
    if outcomeOf call result = some .failed then [eventOf call pass .failed]
    else if pass.dispatchLogged then [] else [eventOf call pass .dispatched]

section Ends

variable {world next final : LogWorld} {index : Nat} {call : Call} {pass : Pass} {result : Response}

/-- The dispatched entry goes out once. -/
theorem logDispatched_spec (world : LogWorld) (index : Nat) (call : Call) (pass : Pass) :
    (world.logDispatched true index call pass).events = world.events ++
      if pass.dispatchStarted && !pass.dispatchLogged then [eventOf call pass .dispatched] else [] := by
  unfold LogWorld.logDispatched LogWorld.publish
  split <;> simp

/-- Leaving publishes what was not logged. -/
theorem leave_events {released : Bool} (found : world.delivery.calls[index]? = some call)
    (foundPass : world.passes[index]? = some pass)
    (taken : step IDEMPOTENCY_TTL_SECONDS world (.leave index released true) = some next) :
    next.events = world.events ++
      if pass.dispatchStarted && !pass.dispatchLogged then [eventOf call pass .dispatched] else [] := by
  simp only [step, LogAction.call, found, foundPass, Option.bind_eq_bind, Option.bind_some,
    passStep] at taken
  obtain ⟨delivery, _, same⟩ := Option.bind_eq_some_iff.mp taken
  rw [← Option.some.inj same]
  exact logDispatched_spec { world with delivery := delivery } index call pass

/-- A conclusion publishes the outcome, or the dispatched entry of a send that is tried again. -/
theorem conclude_spec (found : world.delivery.calls[index]? = some call)
    (concluding : call.phase = .concluding result) (foundPass : world.passes[index]? = some pass)
    (started : pass.dispatchStarted = true)
    (taken : step IDEMPOTENCY_TTL_SECONDS world (.conclude index true) = some next) :
    next.events = world.events ++ PassEnd.concludes.events call pass result ∧
      (∃ later, next.delivery.calls[index]? = some later) ∧
      ∃ logged, next.passes[index]? = some logged ∧ logged.dispatchLogged = true := by
  obtain ⟨inside, _⟩ := List.getElem?_eq_some_iff.mp found
  obtain ⟨insidePass, _⟩ := List.getElem?_eq_some_iff.mp foundPass
  have moved : Delivery.step IDEMPOTENCY_TTL_SECONDS world.delivery (.effectsPass index) =
      some (world.delivery.moveTo index call (afterEffects call result)) := by
    simp [Delivery.step, Action.call, callStep, found, concluding]
  have there : (world.delivery.moveTo index call (afterEffects call result)).calls[index]? =
      some { call with phase := afterEffects call result } := List.getElem?_set_self inside
  simp only [step, LogAction.call, found, foundPass, Option.bind_eq_bind, Option.bind_some,
    passStep, concluding, moved] at taken
  cases outcome : outcomeOf call result with
  | some outcome' =>
    rw [outcome] at taken
    rw [← Option.some.inj taken]
    refine ⟨by simp [PassEnd.events, outcome, LogWorld.publish], ⟨_, there⟩, _,
      List.getElem?_set_self insidePass, rfl⟩
  | none =>
    rw [outcome] at taken
    rw [← Option.some.inj taken]
    refine ⟨?_, ?_, ?_⟩
    · rw [logDispatched_spec]
      cases logged : pass.dispatchLogged <;>
        simp [PassEnd.events, outcome, started, logged, LogWorld.reschedule]
    · refine ⟨{ call with phase := afterEffects call result }, ?_⟩
      unfold LogWorld.logDispatched LogWorld.publish LogWorld.reschedule
      split <;> exact there
    · cases logged : pass.dispatchLogged with
      | false =>
        refine ⟨{ pass with dispatchLogged := true }, ?_, rfl⟩
        simp [LogWorld.logDispatched, started, logged, LogWorld.publish, LogWorld.reschedule,
          insidePass]
      | true =>
        refine ⟨pass, ?_, logged⟩
        simp [LogWorld.logDispatched, logged, LogWorld.reschedule, foundPass]

/-- An effect that throws publishes a failure if it was behind it. -/
theorem concludeThrows_spec {parked : Bool} (found : world.delivery.calls[index]? = some call)
    (concluding : call.phase = .concluding result) (foundPass : world.passes[index]? = some pass)
    (taken : step IDEMPOTENCY_TTL_SECONDS world (.concludeThrows index true parked) = some next) :
    next.delivery.calls[index]? = some { call with phase := .caught } ∧
    (if outcomeOf call result = some .failed then
      next.events = world.events ++ [eventOf call pass .failed] ∧
        next.passes[index]? = some { pass with dispatchLogged := true }
    else next.events = world.events ∧ next.passes[index]? = some pass) := by
  obtain ⟨inside, _⟩ := List.getElem?_eq_some_iff.mp found
  obtain ⟨insidePass, _⟩ := List.getElem?_eq_some_iff.mp foundPass
  have moved : Delivery.step IDEMPOTENCY_TTL_SECONDS world.delivery (.effectThrows index) =
      some (world.delivery.moveTo index call .caught) := by
    simp [Delivery.step, Action.call, callStep, found, concluding]
  have there : (world.delivery.moveTo index call .caught).calls[index]? =
      some { call with phase := .caught } := List.getElem?_set_self inside
  simp only [step, LogAction.call, found, foundPass, Option.bind_eq_bind, Option.bind_some,
    passStep, concluding, moved] at taken
  cases outcome : outcomeOf call result with
  | none =>
    rw [outcome] at taken
    rw [← Option.some.inj taken]
    cases parked <;> exact ⟨there, by simp [LogWorld.reschedule, foundPass]⟩
  | some outcome' =>
    rw [outcome] at taken
    cases outcome' with
    | failed =>
      rw [← Option.some.inj taken]
      exact ⟨there, by simp [LogWorld.publish, insidePass]⟩
    | delivered => exact Option.some.inj taken ▸ ⟨there, by simp [foundPass]⟩
    | dispatched => exact Option.some.inj taken ▸ ⟨there, by simp [foundPass]⟩

/-- What an end of a pass publishes. -/
theorem ending_events {ending : PassEnd} (found : world.delivery.calls[index]? = some call)
    (concluding : call.phase = .concluding result) (foundPass : world.passes[index]? = some pass)
    (started : pass.dispatchStarted = true)
    (ran : perform (step IDEMPOTENCY_TTL_SECONDS) world (ending.actions index) = some final) :
    final.events = world.events ++ ending.events call pass result := by
  obtain ⟨next, taken, ran⟩ : ∃ next, step IDEMPOTENCY_TTL_SECONDS world
      ((ending.actions index).headD (.conclude index true)) = some next ∧
      perform (step IDEMPOTENCY_TTL_SECONDS) next (ending.actions index).tail = some final := by
    cases ending <;> exact Option.bind_eq_some_iff.mp ran
  cases ending with
  | concludes =>
    obtain ⟨events, _⟩ := conclude_spec found concluding foundPass started taken
    exact Option.some.inj ran ▸ events
  | rethrows released =>
    obtain ⟨events, ⟨later, there⟩, logged, foundLogged, isLogged⟩ :=
      conclude_spec found concluding foundPass started taken
    obtain ⟨last, left, ended⟩ := Option.bind_eq_some_iff.mp ran
    rw [← Option.some.inj ended, leave_events there foundLogged left, isLogged, events]
    simp [PassEnd.events]
  | throws parked released =>
    obtain ⟨there, spec⟩ := concludeThrows_spec found concluding foundPass taken
    obtain ⟨last, left, ended⟩ := Option.bind_eq_some_iff.mp ran
    rw [← Option.some.inj ended]
    by_cases failed : outcomeOf call result = some .failed
    · rw [if_pos failed] at spec
      rw [leave_events there spec.2 left, spec.1]
      simp [PassEnd.events, failed]
    · rw [if_neg failed] at spec
      rw [leave_events there spec.2 left, spec.1, started]
      simp only [PassEnd.events, if_neg failed]
      cases pass.dispatchLogged <;> rfl

end Ends

section Rows

variable {call : Call} {pass : Pass} {result : Response}

/-- The pass after its dispatched entry went out. -/
def Pass.logged (pass : Pass) : Pass := { pass with dispatchLogged := true }

/-- The rows are the same whether the dispatched entry went out alone or rode on the outcome, unless
a delivery has another number than one. -/
theorem rows_agree_iff (started : pass.dispatchStarted = true)
    (unlogged : pass.dispatchLogged = false) (ending : PassEnd) :
    (∀ row, row ∈ (eventOf call pass .dispatched :: ending.events call pass.logged result).flatMap
        OutcomeEvent.rows ↔ row ∈ (ending.events call pass result).flatMap OutcomeEvent.rows) ↔
      ((∀ parked released, ending ≠ .throws parked released) →
        outcomeOf call result = some .delivered → call.attemptNo ≤ 1) := by
  have outcomes : ∀ outcome, (∀ row, row ∈ [eventOf call pass .dispatched,
        eventOf call pass.logged outcome].flatMap OutcomeEvent.rows ↔
      row ∈ [eventOf call pass outcome].flatMap OutcomeEvent.rows) ↔
      (outcome = .delivered → call.attemptNo ≤ 1) := by
    intro outcome
    cases outcome with
    | dispatched =>
      refine iff_of_true (fun row => ?_) (by simp)
      simp [eventOf, OutcomeEvent.rows, Pass.logged]
    | failed =>
      -- a failure has its number in both cases
      refine iff_of_true (fun row => ?_) (by simp)
      simp [eventOf, OutcomeEvent.rows, OutcomeEvent.row, OutcomeEvent.attemptNo, Pass.logged,
        started, unlogged]
    | delivered =>
      by_cases early : call.attemptNo ≤ 1
      · refine iff_of_true (fun row => ?_) fun _ => early
        have number : call.attemptNo = 0 ∨ call.attemptNo = 1 := by omega
        rcases number with number | number <;>
          simp [eventOf, OutcomeEvent.rows, OutcomeEvent.row, OutcomeEvent.attemptNo, Pass.logged,
            started, unlogged, number]
      · refine iff_of_false (fun agree => ?_) fun first => early (first rfl)
        have number : call.attemptNo = call.attemptNo - 2 + 2 := by omega
        generalize call.attemptNo - 2 = more at number
        have own := (agree (eventOf call pass.logged .delivered).row).mp (by
          simp [OutcomeEvent.rows, eventOf, Pass.logged])
        simp [eventOf, Pass.logged, OutcomeEvent.rows, OutcomeEvent.row, OutcomeEvent.attemptNo,
          started, unlogged, number] at own
  have concludes : (∀ row, row ∈ (eventOf call pass .dispatched ::
        PassEnd.concludes.events call pass.logged result).flatMap OutcomeEvent.rows ↔
      row ∈ (PassEnd.concludes.events call pass result).flatMap OutcomeEvent.rows) ↔
      (outcomeOf call result = some .delivered → call.attemptNo ≤ 1) := by
    cases outcome : outcomeOf call result with
    | none =>
      refine iff_of_true (fun row => ?_) (by simp)
      simp [PassEnd.events, outcome, Pass.logged, unlogged]
    | some outcome' =>
      rw [Option.some.injEq, ← outcomes outcome']
      simp only [PassEnd.events, outcome]
  cases ending with
  | concludes => simpa using concludes
  | rethrows released =>
    have published : (∀ parked freed, PassEnd.rethrows released ≠ .throws parked freed) ↔ True :=
      iff_of_true (by simp) trivial
    rw [published, true_implies]
    exact concludes
  | throws parked released =>
    by_cases failed : outcomeOf call result = some .failed
    · refine iff_of_true (fun row => ?_) fun published => absurd rfl (published parked released)
      have agree := (outcomes .failed).mpr (by simp) row
      simp only [PassEnd.events, if_pos failed]
      exact agree
    · refine iff_of_true (fun row => ?_) fun published => absurd rfl (published parked released)
      simp [PassEnd.events, failed, Pass.logged, unlogged]

end Rows

/-- The timer publishes the dispatched entry of a pass whose call is asking providers. -/
theorem timer_spec {world next : LogWorld} {index : Nat} {call : Call} {pass : Pass}
    (found : world.delivery.calls[index]? = some call) (foundPass : world.passes[index]? = some pass)
    (started : pass.dispatchStarted = true) (unlogged : pass.dispatchLogged = false)
    (taken : step IDEMPOTENCY_TTL_SECONDS world (.timer index true) = some next) :
    next = { world with
      events := world.events ++ [eventOf call pass .dispatched]
      passes := world.passes.set index pass.logged } := by
  simp only [step, LogAction.call, found, foundPass, Option.bind_eq_bind, Option.bind_some,
    passStep] at taken
  split at taken
  · rw [← Option.some.inj taken]
    simp [LogWorld.logDispatched, LogWorld.publish, started, unlogged, Pass.logged]
  · rw [← Option.some.inj taken]
    simp [LogWorld.logDispatched, LogWorld.publish, started, unlogged, Pass.logged]
  · rw [← Option.some.inj taken]
    simp [LogWorld.logDispatched, LogWorld.publish, started, unlogged, Pass.logged]
  · cases taken

/-- The rows of a pass are the same whether its timer published the dispatched entry at some time
before the outcome was known or not, exactly where the outcome is no delivery, or the attempt the
first. -/
theorem log_rows_agree_iff {world fast slow : LogWorld} {index : Nat} {call : Call} {pass : Pass}
    {result : Response} {before behind : List Action} {delivery : World} {ending : PassEnd}
    (foundPass : world.passes[index]? = some pass) (started : pass.dispatchStarted = true)
    (unlogged : pass.dispatchLogged = false)
    (asked : perform (Delivery.step IDEMPOTENCY_TTL_SECONDS) world.delivery (before ++ behind) =
      some delivery)
    (found : delivery.calls[index]? = some call) (concluding : call.phase = .concluding result)
    (ran : perform (step IDEMPOTENCY_TTL_SECONDS) world
      ((before ++ behind).map .quiet ++ ending.actions index) = some fast)
    (ranSlow : perform (step IDEMPOTENCY_TTL_SECONDS) world
      (before.map .quiet ++ [.timer index true] ++ behind.map .quiet ++ ending.actions index) =
        some slow) :
    (∀ row, row ∈ rowsSince world slow ↔ row ∈ rowsSince world fast) ↔
      ((∀ parked released, ending ≠ .throws parked released) →
        outcomeOf call result = some .delivered → call.attemptNo ≤ 1) := by
  rw [perform_append] at ran ranSlow
  obtain ⟨concluded, quiet, ended⟩ := Option.bind_eq_some_iff.mp ran
  obtain ⟨concludedSlow, ranSlow, endedSlow⟩ := Option.bind_eq_some_iff.mp ranSlow
  rw [perform_append] at ranSlow
  obtain ⟨timed, ranSlow, quietBehind⟩ := Option.bind_eq_some_iff.mp ranSlow
  rw [perform_append] at ranSlow
  obtain ⟨waited, quietBefore, ranSlow⟩ := Option.bind_eq_some_iff.mp ranSlow
  obtain ⟨next, timer, same⟩ := Option.bind_eq_some_iff.mp ranSlow
  obtain rfl : next = timed := Option.some.inj same
  obtain ⟨reached, asked', rfl⟩ := perform_quiet quiet
  obtain rfl := Option.some.inj (asked.symm.trans asked')
  obtain ⟨early, askedBefore, rfl⟩ := perform_quiet quietBefore
  have askedBehind : perform (Delivery.step IDEMPOTENCY_TTL_SECONDS) early behind = some delivery := by
    rwa [perform_append, askedBefore, Option.bind_some] at asked
  -- the timer finds the call with the task and the number it has at the end
  obtain ⟨caller, foundEarly, _⟩ := Option.bind_eq_some_iff.mp timer
  obtain ⟨later, foundLater, task, attemptNo⟩ := perform_keeps askedBehind foundEarly
  obtain rfl := Option.some.inj (found.symm.trans foundLater)
  have dispatched : eventOf caller pass .dispatched = eventOf call pass .dispatched := by
    simp [eventOf, task, attemptNo]
  rw [timer_spec foundEarly foundPass started unlogged timer, dispatched] at quietBehind
  obtain ⟨_, askedAgain, rfl⟩ := perform_quiet quietBehind
  obtain rfl := Option.some.inj (askedBehind.symm.trans askedAgain)
  obtain ⟨inside, _⟩ := List.getElem?_eq_some_iff.mp foundPass
  have events := ending_events (by exact found) concluding (by exact foundPass) started ended
  have logged : (world.passes.set index pass.logged)[index]? = some pass.logged :=
    List.getElem?_set_self inside
  have startedSlow : pass.logged.dispatchStarted = true := started
  have eventsSlow := ending_events (by exact found) concluding (by exact logged) startedSlow endedSlow
  rw [← rows_agree_iff started unlogged ending]
  simp only [rowsSince, events, eventsSlow, List.append_assoc, List.drop_left, List.singleton_append]

/-- A send that succeeds at its second attempt: where the dispatched entry went out alone, the row of
the delivery has the number one. -/
def secondAttempt : LogWorld :=
  (perform (step 3600) {} (.dispatch mail :: asks 0 0 ⟨false, false, none⟩ ++
    [LogAction.quiet (.loopEnds 0), .conclude 0 true, .quiet (.settle 0 true), .ack 0, .release 0 false] ++
    asks 1 1 ⟨true, false, none⟩)).getD {}

/-- The same task, asked for once and refused for good. -/
def refusedOnce : LogWorld :=
  (perform (step 3600) {} (.dispatch mail :: asks 0 0 ⟨false, false, some false⟩)).getD {}

/-- How it ends, after some steps more. -/
def refusedAfter (actions : List LogAction) : LogWorld :=
  (perform (step 3600) refusedOnce (actions ++ [LogAction.quiet (.loopEnds 0), .conclude 0 true])).getD {}

/-- Its first attempt has the same two rows both ways. -/
theorem log_rows_agree_refused :
    rowsSince refusedOnce (refusedAfter [.timer 0 true]) ⊆
        rowsSince refusedOnce (refusedAfter []) ∧
      rowsSince refusedOnce (refusedAfter []) ⊆
        rowsSince refusedOnce (refusedAfter [.timer 0 true]) := by
  have agree := (@log_rows_agree_iff 3600 refusedOnce (refusedAfter []) (refusedAfter [.timer 0 true])
    0 _ _ ⟨false, false, some false⟩ [] [.loopEnds 0] _ .concludes
    rfl rfl rfl rfl rfl rfl rfl rfl).mpr (fun _ => by decide)
  exact ⟨fun row => (agree row).mp, fun row => (agree row).mpr⟩

theorem rows_of_second_attempt_differ :
    ¬ ∀ (IDEMPOTENCY_TTL_SECONDS : Nat) (world fast slow : LogWorld) (index : Nat) (call : Call)
      (pass : Pass) (result : Response) (before behind : List Action) (delivery : World)
      (ending : PassEnd),
      Reaches (step IDEMPOTENCY_TTL_SECONDS) anyStep {} world →
      world.passes[index]? = some pass → pass.dispatchStarted = true →
      pass.dispatchLogged = false →
      perform (Delivery.step IDEMPOTENCY_TTL_SECONDS) world.delivery (before ++ behind) =
        some delivery →
      delivery.calls[index]? = some call → call.phase = .concluding result →
      perform (step IDEMPOTENCY_TTL_SECONDS) world
        ((before ++ behind).map .quiet ++ ending.actions index) = some fast →
      perform (step IDEMPOTENCY_TTL_SECONDS) world
        (before.map .quiet ++ [.timer index true] ++ behind.map .quiet ++ ending.actions index) =
          some slow →
      ∀ row, row ∈ rowsSince world slow ↔ row ∈ rowsSince world fast := by
  intro claimed
  have run : Reaches (step 3600) anyStep {} secondAttempt := reaches_any_performed _ (by decide +kernel)
  have agree := claimed 3600 secondAttempt _ _ 1 _ _ ⟨true, false, none⟩ [] [] secondAttempt.delivery
    .concludes run rfl rfl rfl rfl rfl rfl rfl rfl
  have differs : ¬ ∀ row ∈ [(⟨"t".toList, .email, 1, .attempt, .delivered⟩ : LogRow)],
    row ∈ [(⟨"t".toList, .email, 2, .dispatched, .dispatched⟩ : LogRow),
      ⟨"t".toList, .email, 2, .attempt, .delivered⟩] := by decide
  exact differs fun row member => (agree row).mp (List.mem_append_right _ member)

end Notifkit.Delivery.Log
