import Notifkit.Delivery.SendOnce

/-!
# Whether a failed pass is tried again

In one pass the providers of a channel are tried in their order until one of them succeeds. Where
none does, the task is parked for another attempt, or it has failed for good.

The loop keeps one result, that of the last transport it tried. So a pass whose first provider is
down is not tried again when the next one refuses for good, and is when they stand the other way
round. And where the budget is gone before the first transport is tried, the task is parked for a
failure that no transport reported.
-/

namespace Notifkit.Delivery

open Runs

variable {IDEMPOTENCY_TTL_SECONDS : Nat} {world after : World} {index : Nat} {call : Call}

/-- What becomes of a transport in the loop of a pass. -/
inductive Try where
  /-- its provider has no capacity: it is passed over -/
  | skipped
  | circuitOpen
  | answered (response : Response)
  | threw (retryable : Option Bool)
  | timedOut
deriving DecidableEq

namespace Try

/-- The steps of a call that go with it. -/
def actions (index : Nat) : Try → List Action
  | .skipped => [.gateRefuses index]
  | .circuitOpen => [.breakerOpen index]
  | .answered response => [.send index, .respond index response]
  | .threw retryable => [.send index, .sendThrows index retryable]
  | .timedOut => [.send index, .timeout index]

/-- What the failure said of another attempt. -/
def retryable : Try → Option Bool
  | .answered response => response.retryable
  | .threw retryable => retryable
  | .skipped | .circuitOpen | .timedOut => none

/-- The failure was declared permanent. -/
def Permanent (attempt : Try) : Prop := attempt.retryable = some false

instance (attempt : Try) : Decidable attempt.Permanent := inferInstanceAs (Decidable (_ = _))

/-- The transport did not succeed. -/
def Failed : Try → Prop
  | .answered response => response.success = false
  | _ => True

instance (attempt : Try) : Decidable attempt.Failed := by
  cases attempt <;> unfold Failed <;> infer_instance

end Try

/-- The transports of a pass that were tried. -/
def triedOf (tries : List Try) : List Try := tries.filter fun attempt => attempt ≠ .skipped

/-- How the loop of a pass ends. -/
inductive LoopEnd where
  | exhausted
  /-- no time is left for the next transport -/
  | outOfBudget
deriving DecidableEq

/-- The step of a call that goes with it. -/
def LoopEnd.action (index : Nat) : LoopEnd → Action
  | .exhausted => .loopEnds index
  | .outOfBudget => .budgetExhausted index

/-- What the result of a pass says of another attempt, from what it said before. -/
def retryableAfter (before : Option Bool) (tries : List Try) : Option Bool :=
  ((triedOf tries).getLast?.map Try.retryable).getD before

/-- A pass parks its task. -/
def ParksTask (world : World) (index : Nat) : Prop :=
  ∃ call, world.calls[index]? = some call ∧ call.phase = .settling true

/-- The call is at the head of the loop, with a failure so far. -/
def AtHead (world : World) (index : Nat) (call : Call) (retryable : Option Bool) : Prop :=
  ∃ next result, result.success = false ∧ result.retryable = retryable ∧
    world.calls[index]? = some { call with phase := .dispatching next result }

/-- A call whose transport has failed is at the head of the loop with that failure. -/
theorem AtHead.of_set {retryable : Option Bool} (inside : index < world.calls.length)
    (next : Nat) (result : Response) (unsuccessful : result.success = false)
    (said : result.retryable = retryable) {later : World}
    (same : later.calls = world.calls.set index { call with phase := .dispatching next result }) :
    AtHead later index call retryable :=
  ⟨next, result, unsuccessful, said, by rw [same, List.getElem?_set_self inside]⟩

/-- At the head of the loop a send waits for the next transport. -/
theorem AtHead.send {retryable : Option Bool} {later : World}
    (head : AtHead world index call retryable)
    (taken : step IDEMPOTENCY_TTL_SECONDS world (.send index) = some later) :
    ∃ provider, later.calls = world.calls.set index { call with phase := .sending provider } ∧
      later.calls[index]? = some { call with phase := .sending provider } := by
  obtain ⟨next, result, _, _, found⟩ := head
  obtain ⟨inside, _⟩ := List.getElem?_eq_some_iff.mp found
  simp only [step, Action.call, found, Option.bind_eq_bind, Option.bind_some, callStep,
    Option.ite_none_right_eq_some, Option.some.injEq] at taken
  obtain ⟨_, rfl⟩ := taken
  exact ⟨next, rfl, List.getElem?_set_self inside⟩

/-- Without a success an answer is the result the loop goes on with. -/
theorem afterResponse_failed {response : Response} (nonPush : call.isPush = false)
    (failed : response.success = false) (provider : Nat) :
    ∃ result, afterResponse call provider response = .dispatching (provider + 1) result ∧
      result.success = false ∧ result.retryable = response.retryable := by
  unfold afterResponse
  split
  · exact ⟨_, rfl, rfl, rfl⟩
  · rw [if_neg (by simp [Response.final, failed, nonPush])]
    exact ⟨_, rfl, failed, rfl⟩

/-- A failed try leaves the call at the head of the loop with its failure, one that was passed
over with the failure it had. -/
theorem try_spec {attempt : Try} {retryable : Option Bool} (nonPush : call.isPush = false)
    (failed : attempt.Failed) (head : AtHead world index call retryable)
    (ran : perform (step IDEMPOTENCY_TTL_SECONDS) world (attempt.actions index) = some after) :
    AtHead after index call (retryableAfter retryable [attempt]) := by
  obtain ⟨next, result, unsuccessful, said, found⟩ := id head
  obtain ⟨inside, _⟩ := List.getElem?_eq_some_iff.mp found
  cases attempt with
  | skipped =>
    obtain ⟨passed, taken, same⟩ := Option.bind_eq_some_iff.mp ran
    obtain rfl : passed = after := Option.some.inj same
    simp only [step, Action.call, found, Option.bind_eq_bind, Option.bind_some, callStep,
      Option.ite_none_right_eq_some, Option.some.injEq] at taken
    obtain ⟨_, rfl⟩ := taken
    exact .of_set inside (next + 1) result unsuccessful said rfl
  | circuitOpen =>
    obtain ⟨passed, taken, same⟩ := Option.bind_eq_some_iff.mp ran
    obtain rfl : passed = after := Option.some.inj same
    simp only [step, Action.call, found, Option.bind_eq_bind, Option.bind_some, callStep,
      Option.ite_none_right_eq_some, Option.some.injEq] at taken
    obtain ⟨_, rfl⟩ := taken
    exact .of_set inside (next + 1) ⟨false, false, none⟩ rfl rfl rfl
  | answered response =>
    obtain ⟨sent, send, ran⟩ := Option.bind_eq_some_iff.mp ran
    obtain ⟨answered, taken, same⟩ := Option.bind_eq_some_iff.mp ran
    obtain rfl : answered = after := Option.some.inj same
    obtain ⟨provider, calls, waiting⟩ := head.send send
    obtain ⟨result, goes, unsuccessful, said⟩ :=
      @afterResponse_failed { call with phase := .sending provider } response nonPush failed provider
    simp only [step, Action.call, waiting, Option.bind_eq_bind, Option.bind_some, callStep,
      Option.some.injEq] at taken
    subst taken
    refine .of_set inside (provider + 1) result unsuccessful said ?_
    simp only [World.moveTo, goes, calls, List.set_set]
  | threw retryable =>
    obtain ⟨sent, send, ran⟩ := Option.bind_eq_some_iff.mp ran
    obtain ⟨answered, taken, same⟩ := Option.bind_eq_some_iff.mp ran
    obtain rfl : answered = after := Option.some.inj same
    obtain ⟨provider, calls, waiting⟩ := head.send send
    simp only [step, Action.call, waiting, Option.bind_eq_bind, Option.bind_some, callStep,
      Option.some.injEq] at taken
    subst taken
    refine .of_set inside (provider + 1) ⟨false, false, retryable⟩ rfl rfl ?_
    simp only [World.moveTo, calls, List.set_set]
  | timedOut =>
    obtain ⟨sent, send, ran⟩ := Option.bind_eq_some_iff.mp ran
    obtain ⟨answered, taken, same⟩ := Option.bind_eq_some_iff.mp ran
    obtain rfl : answered = after := Option.some.inj same
    obtain ⟨provider, calls, waiting⟩ := head.send send
    simp only [step, Action.call, waiting, Option.bind_eq_bind, Option.bind_some, callStep,
      Option.some.injEq] at taken
    subst taken
    refine .of_set inside (provider + 1) ⟨false, false, none⟩ rfl rfl ?_
    simp only [World.moveTo, calls, List.set_set]

/-- The tries behind the first count from what the first left. -/
theorem retryableAfter_cons (before : Option Bool) (attempt : Try) (rest : List Try) :
    retryableAfter before (attempt :: rest) =
      retryableAfter (retryableAfter before [attempt]) rest := by
  by_cases passed : attempt = .skipped
  · subst passed
    rfl
  · have tried : triedOf (attempt :: rest) = attempt :: triedOf rest := by
      simp [triedOf, passed]
    have alone : triedOf [attempt] = [attempt] := by simp [triedOf, passed]
    simp only [retryableAfter, tried, alone, List.getLast?_singleton, Option.map_some,
      Option.getD_some]
    cases last : (triedOf rest).getLast? with
    | none => simp [List.getLast?_eq_none_iff.mp last]
    | some final => simp [List.getLast?_cons, last]

/-- Failed tries leave the call at the head of the loop with the failure of the last one. -/
theorem tries_spec {tries : List Try} {retryable : Option Bool} (nonPush : call.isPush = false)
    (failed : ∀ attempt ∈ tries, attempt.Failed) (head : AtHead world index call retryable)
    (ran : perform (step IDEMPOTENCY_TTL_SECONDS) world (tries.flatMap (Try.actions index)) =
      some after) :
    AtHead after index call (retryableAfter retryable tries) := by
  induction tries generalizing world retryable with
  | nil =>
    obtain rfl : world = after := Option.some.inj ran
    exact head
  | cons attempt rest inductionHypothesis =>
    rw [List.flatMap_cons, perform_append] at ran
    obtain ⟨between, first, ran⟩ := Option.bind_eq_some_iff.mp ran
    rw [retryableAfter_cons]
    exact inductionHypothesis (fun other member => failed other (List.mem_cons_of_mem _ member))
      (try_spec nonPush (failed attempt List.mem_cons_self) head first) ran

/-- A pass without a success parks its task unless its last failure was declared permanent or no
attempt remains. -/
theorem ending_spec {ended : LoopEnd} {retryable : Option Bool} (nonPush : call.isPush = false)
    (head : AtHead world index call retryable)
    (ran : perform (step IDEMPOTENCY_TTL_SECONDS) world [ended.action index, .effectsPass index] =
      some after) :
    ParksTask after index ↔ retryable ≠ some false ∧ call.attemptNo < call.maxAttempts := by
  obtain ⟨next, result, unsuccessful, said, found⟩ := head
  obtain ⟨inside, _⟩ := List.getElem?_eq_some_iff.mp found
  obtain ⟨left, leaves, ran⟩ := Option.bind_eq_some_iff.mp ran
  obtain ⟨concluded, concludes, same⟩ := Option.bind_eq_some_iff.mp ran
  obtain rfl : concluded = after := Option.some.inj same
  have concluding : left.calls =
      world.calls.set index { call with phase := .concluding result } := by
    cases ended <;>
      simp only [LoopEnd.action, step, Action.call, found, Option.bind_eq_bind, Option.bind_some,
        callStep, Option.ite_none_right_eq_some, Option.some.injEq] at leaves
    all_goals
      obtain ⟨_, rfl⟩ := leaves
      rfl
  have waiting : left.calls[index]? = some { call with phase := .concluding result } := by
    rw [concluding, List.getElem?_set_self inside]
  simp only [step, Action.call, waiting, Option.bind_eq_bind, Option.bind_some, callStep,
    Option.some.injEq] at concludes
  subst concludes
  have later : (left.moveTo index { call with phase := .concluding result }
      (afterEffects { call with phase := .concluding result } result)).calls[index]? =
        some { call with phase := afterEffects { call with phase := .concluding result } result } := by
    simp only [World.moveTo, concluding, List.set_set, List.getElem?_set_self inside]
  simp only [ParksTask, later, Option.some.injEq, exists_eq_left']
  simp only [afterEffects, retriesLater, nonPush, unsuccessful, said, Bool.false_and]
  by_cases permanent : retryable = some false
  · cases call.hasFallback <;> simp [permanent]
  · by_cases remain : call.attemptNo < call.maxAttempts
    · simp [permanent, remain]
    · cases call.hasFallback <;> simp [permanent, remain]

/-- A pass of another channel than push without a success parks its task as what its transports
reported asks for, exactly where no attempt remains, or some transport was tried and the last one
declared its failure permanent only if all of them did. -/
theorem parks_as_tried_iff {tries : List Try} {ended : LoopEnd}
    (found : world.calls[index]? = some call)
    (started : call.phase = .dispatching call.startAt noTransports) (nonPush : call.isPush = false)
    (failed : ∀ attempt ∈ tries, attempt.Failed)
    (ran : perform (step IDEMPOTENCY_TTL_SECONDS) world
      (tries.flatMap (Try.actions index) ++ [ended.action index, .effectsPass index]) =
        some after) :
    (ParksTask after index ↔ call.attemptNo < call.maxAttempts ∧
        ∃ attempt ∈ triedOf tries, ¬ attempt.Permanent) ↔
      call.maxAttempts ≤ call.attemptNo ∨ ∃ last, (triedOf tries).getLast? = some last ∧
        (last.Permanent → ∀ attempt ∈ triedOf tries, attempt.Permanent) := by
  rw [perform_append] at ran
  obtain ⟨between, loop, ran⟩ := Option.bind_eq_some_iff.mp ran
  have head : AtHead world index call none :=
    ⟨call.startAt, noTransports, rfl, rfl, by rw [← started, found]⟩
  rw [ending_spec nonPush (tries_spec nonPush failed head loop) ran]
  by_cases remain : call.attemptNo < call.maxAttempts
  · have some' : ¬ call.maxAttempts ≤ call.attemptNo := Nat.not_le.mpr remain
    simp only [remain, and_true, true_and, some', false_or, retryableAfter]
    cases ends : (triedOf tries).getLast? with
    | none => simp [List.getLast?_eq_none_iff.mp ends]
    | some last =>
      have member : last ∈ triedOf tries := List.mem_of_getLast? ends
      simp only [Option.map_some, Option.getD_some, Option.some.injEq, exists_eq_left']
      change (¬ last.Permanent ↔ _) ↔ _
      constructor
      · intro same permanent attempt tried
        by_contra other
        exact same.mpr ⟨attempt, tried, other⟩ permanent
      · intro all
        refine ⟨fun open' => ⟨last, member, open'⟩, ?_⟩
        rintro ⟨attempt, tried, open'⟩ permanent
        exact open' (all permanent attempt tried)
  · exact iff_of_true (by simp [remain]) (.inl (Nat.not_lt.mp remain))

/-- A call for a mail that is about to try two providers. -/
def twoProviders : World where
  calls := [{
    task := "t".toList, isPush := false, attemptNo := 1, maxAttempts := 3, transports := 2
    hasFallback := false, phase := .dispatching 0 noTransports }]

/-- An outage. -/
def outage : Try := .answered ⟨false, false, none⟩

/-- A refusal for good. -/
def refusal : Try := .answered ⟨false, false, some false⟩

/-- The world once both providers have failed and the effects have passed. -/
def bothFail (first second : Try) : World :=
  (perform (step 3600) twoProviders ([first, second].flatMap (Try.actions 0) ++
    [LoopEnd.exhausted.action 0, .effectsPass 0])).getD twoProviders

/-- A refusal and then an outage are tried again. -/
theorem parks_as_tried_outage :
    ParksTask (bothFail refusal outage) 0 ↔
      1 < 3 ∧ ∃ attempt ∈ triedOf [refusal, outage], ¬ attempt.Permanent :=
  (@parks_as_tried_iff 3600 twoProviders (bothFail refusal outage) 0 _ [refusal, outage] .exhausted
    rfl rfl rfl (by decide) rfl).mpr
      (.inr ⟨outage, rfl, fun permanent => absurd permanent (by decide)⟩)

/-- An outage and then a refusal are not, though the outage was not declared permanent. -/
theorem refusal_hides_outage :
    ¬ ∀ (IDEMPOTENCY_TTL_SECONDS : Nat) (world after : World) (index : Nat) (call : Call)
      (tries : List Try) (ended : LoopEnd), world.calls[index]? = some call →
      call.phase = .dispatching call.startAt noTransports → call.isPush = false →
      (∀ attempt ∈ tries, attempt.Failed) →
      perform (step IDEMPOTENCY_TTL_SECONDS) world
        (tries.flatMap (Try.actions index) ++ [ended.action index, .effectsPass index]) =
          some after →
      (ParksTask after index ↔ call.attemptNo < call.maxAttempts ∧
        ∃ attempt ∈ triedOf tries, ¬ attempt.Permanent) := by
  intro claimed
  have parks := (claimed 3600 twoProviders (bothFail outage refusal) 0 _ [outage, refusal]
    .exhausted rfl rfl rfl (by decide) rfl).mpr ⟨by decide, outage, by decide, by decide⟩
  obtain ⟨call, found, parked⟩ := parks
  cases found
  cases parked

end Notifkit.Delivery
