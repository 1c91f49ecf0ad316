import Notifkit.Delivery.MessageLogs

/-!
# The time budget of a pass

A pass looks at the clock when it has its lease, and again before each transport it is about to
call: what is left of its budget bounds the time it waits for that one. Rendering and the gates of
the providers may take any time between. Timers fire on time: no clock ticks past the end of a wait.

So a call is never waited for beyond the budget, however many transports there are and however long
each of them takes, and the budget ends while the lease is held. The reply to the lease command
comes at once here; 35 seconds are left for it.
-/

namespace Notifkit.Delivery

open Runs Tables

/-- The budget of a pass; well under the lease. -/
def MAX_DISPATCH_BUDGET_MS : Nat := 25_000

/-- The timeout of a task that names none. -/
def defaultTimeoutMs : Nat := 10_000

/-- What a pass knows of time. -/
structure PassClock where
  tDispatchStart : Nat := 0
  /-- when the lease expires that the pass has taken -/
  leaseExpiresAt : Nat := 0
  /-- when the transport was called -/
  calledAt : Nat := 0
  timeoutMs : Nat := 0
deriving DecidableEq

/-- What is left of the budget. -/
def PassClock.remainingBudgetMs (clock : PassClock) (now : Nat) : Nat :=
  MAX_DISPATCH_BUDGET_MS - (now - clock.tDispatchStart)

/-- When the wait for the transport ends. -/
def PassClock.abortsAt (clock : PassClock) : Nat := clock.calledAt + clock.timeoutMs

/-- A transport that was waited for, and until when. -/
structure Awaited where
  clock : PassClock
  endedAt : Nat
deriving DecidableEq

/-- The workers with the clocks of their passes, by their place among the calls. -/
structure TimedWorld where
  world : World := {}
  clocks : Nat → PassClock := fun _ => {}
  /-- ghost: the transports that are no longer waited for -/
  awaited : List Awaited := []

/-- Whether a call waits for a transport. -/
def CallPhase.waits : CallPhase → Bool
  | .sending _ => true
  | _ => false

/-- Whether a call has the lease and may come to a transport. -/
def CallPhase.passing : CallPhase → Bool
  | .rendering | .dispatching .. | .sending _ => true
  | _ => false

namespace TimedWorld

variable (state : TimedWorld)

/-- The clock of a pass that has just taken its lease; the others as they were. -/
def leased (index : Nat) (after : World) : Nat → PassClock :=
  if (after.calls[index]?).any fun call => call.phase = .rendering then
    Function.update state.clocks index
      { tDispatchStart := state.world.now
        leaseExpiresAt := IdempotencyGuard.expiry state.world.now leaseSeconds }
  else state.clocks

/-- The clock of a pass that calls a transport. -/
def called (configured : Nat) (index : Nat) : Nat → PassClock :=
  Function.update state.clocks index { state.clocks index with
    calledAt := state.world.now
    timeoutMs := min configured ((state.clocks index).remainingBudgetMs state.world.now) }

/-- The clock may tick so far: past the end of no wait. -/
def MayTick (ms : Nat) : Prop :=
  ∀ index < state.world.calls.length, ∀ call ∈ state.world.calls[index]?,
    call.phase.waits = true → state.world.now + ms ≤ (state.clocks index).abortsAt

instance (ms : Nat) : Decidable (state.MayTick ms) :=
  inferInstanceAs (Decidable (∀ index < _, ∀ call ∈ _, _ → _))

/-- The wait of a pass is over. -/
def isOver (index : Nat) : List Awaited :=
  ⟨state.clocks index, state.world.now⟩ :: state.awaited

end TimedWorld

/-- One step, on time. `timeoutMs` is the timeout each task names. -/
def timedStep (IDEMPOTENCY_TTL_SECONDS : Nat) (timeoutMs : Text → Option { ms : Nat // 0 < ms })
    (state : TimedWorld) (action : Action) : Option TimedWorld := do
  let after ← step IDEMPOTENCY_TTL_SECONDS state.world action
  match action with
  | .tick ms =>
    if state.MayTick ms then some { state with world := after } else none
  | .setLease index | .retryLease index =>
    some { state with world := after, clocks := state.leased index after }
  | .breakerOpen index =>
    if (state.clocks index).remainingBudgetMs state.world.now = 0 then none
    else some { state with world := after }
  | .budgetExhausted index =>
    if (state.clocks index).remainingBudgetMs state.world.now = 0 then
      some { state with world := after }
    else none
  | .send index =>
    if (state.clocks index).remainingBudgetMs state.world.now = 0 then none
    else do
      let call ← state.world.calls[index]?
      let configured := (timeoutMs call.task).elim defaultTimeoutMs Subtype.val
      some { state with world := after, clocks := state.called configured index }
  | .respond index _ | .sendThrows index _ =>
    some { state with world := after, awaited := state.isOver index }
  | .timeout index =>
    if (state.clocks index).abortsAt ≤ state.world.now then
      some { state with world := after, awaited := state.isOver index }
    else none
  | _ => some { state with world := after }

variable {IDEMPOTENCY_TTL_SECONDS : Nat} {timeoutMs : Text → Option { ms : Nat // 0 < ms }}
  {state next : TimedWorld}

/-- A wait with a positive timeout that ends within the budget. -/
structure PassClock.InBudget (clock : PassClock) : Prop where
  positive : 0 < clock.timeoutMs
  bounded : clock.abortsAt ≤ clock.tDispatchStart + MAX_DISPATCH_BUDGET_MS

/-- The budget ends well before the lease. -/
def PassClock.Leased (clock : PassClock) : Prop :=
  clock.tDispatchStart + MAX_DISPATCH_BUDGET_MS + 35_000 ≤ clock.leaseExpiresAt

/-- Every pass has its lease, waits within its budget, and has waited within it. -/
structure Timely (state : TimedWorld) : Prop where
  leased : ∀ index call, state.world.calls[index]? = some call → call.phase.passing = true →
    (state.clocks index).Leased ∧ (state.clocks index).tDispatchStart ≤ state.world.now
  waits : ∀ index call, state.world.calls[index]? = some call → call.phase.waits = true →
    (state.clocks index).InBudget ∧ state.world.now ≤ (state.clocks index).abortsAt
  awaited : ∀ wait ∈ state.awaited, wait.clock.InBudget ∧ wait.endedAt ≤ wait.clock.abortsAt ∧
    wait.clock.Leased

/-- A call that waits is in its pass. -/
theorem CallPhase.passing_of_waits {phase : CallPhase} (waits : phase.waits = true) :
    phase.passing = true := by
  cases phase <;> simp [CallPhase.waits] at waits
  rfl

/-- With an answer a call waits no longer. -/
theorem afterResponse_waits (call : Call) (provider : Nat) (response : Response) :
    (afterResponse call provider response).waits = false := by
  unfold afterResponse
  split
  · rfl
  · split <;> rfl

/-- The effects end a pass. -/
theorem afterEffects_over (call : Call) (result : Response) :
    (afterEffects call result).waits = false ∧ (afterEffects call result).passing = false := by
  rcases Log.afterEffects_cases call result with ⟨retry, same⟩ | same <;> rw [same] <;>
    exact ⟨rfl, rfl⟩

/-- What a step of a call makes of it: it comes to wait only by a send, and to a pass only by its
lease. -/
structure Turns (world after : World) (index : Nat) (call : Call) (action : Action) (later : Call) :
    Prop where
  calls : after.calls = world.calls.set index later
  now : after.now = world.now
  waits : later.phase.waits = true → (∃ call, action = .send call) ∨ later.phase = call.phase
  passing : later.phase.passing = true → call.phase.passing = true ∨
    later.phase = .rendering ∧ ∃ call, action = .setLease call ∨ action = .retryLease call

/-- A call that asks for the lease is at its pass or goes where it is told. -/
theorem Turns.tryLease {world : World} {index : Nat} {call : Call} {action : Action}
    {otherwise : CallPhase}
    (asks : ∃ call, action = .setLease call ∨ action = .retryLease call)
    (still : otherwise.waits = false) (isOver : otherwise.passing = false) :
    ∃ later, Turns world (world.tryLease index call otherwise) index call action later := by
  unfold World.tryLease
  split
  · exact ⟨_, rfl, rfl, nofun, fun _ => .inr ⟨rfl, asks⟩⟩
  · exact ⟨_, rfl, rfl, fun waits => absurd (still.symm.trans waits) nofun,
      fun passing => absurd (isOver.symm.trans passing) nofun⟩

/-- A call that is not in a pass afterwards. -/
theorem Turns.leaves {world after : World} {index : Nat} {call later : Call} {action : Action}
    (calls : after.calls = world.calls.set index later) (now : after.now = world.now)
    (still : later.phase.waits = false) (isOver : later.phase.passing = false) :
    ∃ later, Turns world after index call action later :=
  ⟨later, calls, now, fun waits => absurd (still.symm.trans waits) nofun,
    fun passing => absurd (isOver.symm.trans passing) nofun⟩

/-- A call that goes on with its pass and waits for nothing. -/
theorem Turns.goesOn {world after : World} {index : Nat} {call later : Call} {action : Action}
    (calls : after.calls = world.calls.set index later) (now : after.now = world.now)
    (still : later.phase.waits = false) (passing : call.phase.passing = true) :
    ∃ later, Turns world after index call action later :=
  ⟨later, calls, now, fun waits => absurd (still.symm.trans waits) nofun, fun _ => .inl passing⟩

/-- A call that releases its lease and is done. -/
theorem Turns.releases {world : World} {index : Nat} {call : Call} {action : Action}
    {released : Bool} {phase : CallPhase} (still : phase.waits = false)
    (isOver : phase.passing = false) :
    ∃ later, Turns world ((world.release call released).moveTo index call phase) index call action
      later := by
  obtain ⟨calls, now⟩ := release_frame world call released
  exact Turns.leaves (by simp only [World.moveTo, calls]; rfl) now still isOver

/-- A step of a call is such a turn. -/
theorem callStep_turns {world after : World} {index : Nat} {call : Call} {action : Action}
    (taken : callStep IDEMPOTENCY_TTL_SECONDS world index call action = some after) :
    ∃ later, Turns world after index call action later := by
  revert taken
  fun_cases callStep <;> intro taken <;> cases taken
  all_goals first
    | exact Turns.tryLease ⟨_, .inl rfl⟩ rfl rfl
    | exact Turns.tryLease ⟨_, .inr rfl⟩ rfl rfl
    | exact Turns.leaves rfl rfl rfl rfl
    | exact Turns.releases rfl rfl
    | exact Turns.goesOn rfl rfl rfl (by simp [CallPhase.passing, *])
    | exact Turns.goesOn rfl rfl (by split <;> rfl) (by simp [CallPhase.passing, *])
    | exact Turns.goesOn rfl rfl (afterResponse_waits _ _ _) (by simp [CallPhase.passing, *])
    | exact Turns.leaves rfl rfl (afterEffects_over _ _).1 (afterEffects_over _ _).2
    | exact ⟨_, rfl, rfl, fun _ => .inl ⟨_, rfl⟩, fun _ => .inl (by simp [CallPhase.passing, *])⟩
    | exact ⟨_, rfl, rfl, fun _ => .inr rfl, fun passing => .inl passing⟩

/-- A turn of one pass keeps the others as they are. -/
theorem Timely.turn {after : World} {index : Nat} {call later : Call} {clocks : Nat → PassClock}
    {awaited : List Awaited} (timely : Timely state)
    (found : state.world.calls[index]? = some call)
    (calls : after.calls = state.world.calls.set index later) (now : after.now = state.world.now)
    (others : ∀ other, other ≠ index → clocks other = state.clocks other)
    (passes : later.phase.passing = true → (clocks index).Leased ∧
      (clocks index).tDispatchStart ≤ state.world.now)
    (waits : later.phase.waits = true → (clocks index).InBudget ∧
      state.world.now ≤ (clocks index).abortsAt)
    (ended : ∀ wait ∈ awaited, wait.clock.InBudget ∧ wait.endedAt ≤ wait.clock.abortsAt ∧
      wait.clock.Leased) :
    Timely ⟨after, clocks, awaited⟩ := by
  obtain ⟨inside, _⟩ := List.getElem?_eq_some_iff.mp found
  refine ⟨fun other current there passing => ?_, fun other current there waiting => ?_, ended⟩
  · simp only [calls] at there
    by_cases same : other = index
    · subst same
      obtain rfl := Option.some.inj ((List.getElem?_set_self inside).symm.trans there)
      simpa only [now] using passes passing
    · rw [List.getElem?_set_ne (Ne.symm same)] at there
      simpa only [now, others other same] using timely.leased other current there passing
  · simp only [calls] at there
    by_cases same : other = index
    · subst same
      obtain rfl := Option.some.inj ((List.getElem?_set_self inside).symm.trans there)
      simpa only [now] using waits waiting
    · rw [List.getElem?_set_ne (Ne.symm same)] at there
      simpa only [now, others other same] using timely.waits other current there waiting

/-- A turn that neither takes a lease nor calls a transport leaves every clock in time. -/
theorem Timely.plain {after : World} {index : Nat} {call later : Call} {action : Action}
    {awaited : List Awaited} (timely : Timely state)
    (found : state.world.calls[index]? = some call)
    (turns : Turns state.world after index call action later)
    (noSend : ∀ call, action ≠ .send call)
    (noLease : ∀ call, action ≠ .setLease call ∧ action ≠ .retryLease call)
    (ended : ∀ wait ∈ awaited, wait.clock.InBudget ∧ wait.endedAt ≤ wait.clock.abortsAt ∧
      wait.clock.Leased) :
    Timely ⟨after, state.clocks, awaited⟩ := by
  refine timely.turn found turns.calls turns.now (fun _ _ => rfl) (fun passing => ?_)
    (fun waiting => ?_) ended
  · rcases turns.passing passing with before | ⟨_, other, lease | retry⟩
    · exact timely.leased index call found before
    · exact absurd lease (noLease other).1
    · exact absurd retry (noLease other).2
  · rcases turns.waits waiting with ⟨other, send⟩ | same
    · exact absurd send (noSend other)
    · exact timely.waits index call found (same ▸ waiting)

/-- The wait of a call that has ended was in time. -/
theorem Timely.isOver {index : Nat} {call : Call} (timely : Timely state)
    (found : state.world.calls[index]? = some call) (waiting : call.phase.waits = true) :
    ∀ wait ∈ state.isOver index, wait.clock.InBudget ∧ wait.endedAt ≤ wait.clock.abortsAt ∧
      wait.clock.Leased := by
  intro wait member
  rcases List.mem_cons.mp member with rfl | before
  · have passing := CallPhase.passing_of_waits waiting
    obtain ⟨inBudget, inTime⟩ := timely.waits index call found waiting
    exact ⟨inBudget, inTime, (timely.leased index call found passing).1⟩
  · exact timely.awaited wait before

/-- Only a call that waits gets an answer or is given up. -/
theorem waits_of_ended {world after : World} {index : Nat} {call : Call} {action : Action}
    (taken : callStep IDEMPOTENCY_TTL_SECONDS world index call action = some after)
    (ends : (∃ call response, action = .respond call response) ∨
      (∃ call retryable, action = .sendThrows call retryable) ∨ ∃ call, action = .timeout call) :
    call.phase.waits = true := by
  rcases ends with ⟨_, _, rfl⟩ | ⟨_, _, rfl⟩ | ⟨_, rfl⟩
  all_goals
    simp only [callStep] at taken
    split at taken
    next phase => simp [phase, CallPhase.waits]
    next => cases taken

/-- A pass that calls a transport waits for it within its budget. -/
theorem Timely.send {after : World} {index : Nat} {call later : Call} {target configured : Nat}
    (timely : Timely state) (found : state.world.calls[index]? = some call)
    (turns : Turns state.world after index call (.send target) later)
    (positive : 0 < configured)
    (remains : (state.clocks index).remainingBudgetMs state.world.now ≠ 0) :
    Timely ⟨after, state.called configured index, state.awaited⟩ := by
  have passes : later.phase.passing = true → call.phase.passing = true := by
    intro passing
    rcases turns.passing passing with before | ⟨_, _, lease | retry⟩
    · exact before
    · cases lease
    · cases retry
  refine timely.turn found turns.calls turns.now
    (fun other apart => Function.update_of_ne apart _ _) (fun passing => ?_) (fun waiting => ?_)
    timely.awaited
  · simp only [TimedWorld.called, Function.update_self]
    exact timely.leased index call found (passes passing)
  · obtain ⟨_, started⟩ :=
      timely.leased index call found (passes (CallPhase.passing_of_waits waiting))
    simp only [TimedWorld.called, Function.update_self]
    simp only [PassClock.remainingBudgetMs] at remains ⊢
    refine ⟨⟨?_, ?_⟩, ?_⟩
    · simp only
      omega
    · simp only [PassClock.abortsAt]
      omega
    · simp only [PassClock.abortsAt]
      omega

/-- A pass that takes its lease starts its clock. -/
theorem Timely.lease {after : World} {index : Nat} {call later : Call} {action : Action}
    (timely : Timely state) (found : state.world.calls[index]? = some call)
    (turns : Turns state.world after index call action later)
    (noSend : ∀ call, action ≠ .send call) (outside : call.phase.passing = false) :
    Timely ⟨after, state.leased index after, state.awaited⟩ := by
  obtain ⟨inside, _⟩ := List.getElem?_eq_some_iff.mp found
  have there : after.calls[index]? = some later := by
    rw [turns.calls, List.getElem?_set_self inside]
  refine timely.turn found turns.calls turns.now (fun other apart => ?_) (fun passing => ?_)
    (fun waiting => ?_) timely.awaited
  · unfold TimedWorld.leased
    split
    · exact Function.update_of_ne apart _ _
    · rfl
  · rcases turns.passing passing with before | ⟨rendering, _⟩
    · exact absurd (outside.symm.trans before) nofun
    · have taken : (after.calls[index]?).any (fun call => call.phase = .rendering) = true := by
        simp [there, rendering]
      simp only [TimedWorld.leased, taken, if_true, Function.update_self, PassClock.Leased,
        MAX_DISPATCH_BUDGET_MS, IdempotencyGuard.expiry, leaseSeconds]
      omega
  · rcases turns.waits waiting with ⟨other, send⟩ | same
    · exact absurd send (noSend other)
    · exact absurd (outside.symm.trans (CallPhase.passing_of_waits (same ▸ waiting))) nofun

/-- Every step is on time. -/
theorem timely_step {action : Action} (timely : Timely state)
    (taken : timedStep IDEMPOTENCY_TTL_SECONDS timeoutMs state action = some next) :
    Timely next := by
  obtain ⟨after, stepped, taken⟩ := Option.bind_eq_some_iff.mp taken
  cases action with
  | tick ms =>
    obtain ⟨onTime, same⟩ := Option.ite_none_right_eq_some.mp taken
    obtain rfl := Option.some.inj same
    obtain rfl := Option.some.inj stepped
    refine ⟨fun index call found passing => ?_, fun index call found waiting => ?_, timely.awaited⟩
    · obtain ⟨leased, started⟩ := timely.leased index call found passing
      exact ⟨leased, Nat.le_trans started (Nat.le_add_right _ _)⟩
    · obtain ⟨inside, _⟩ := List.getElem?_eq_some_iff.mp found
      exact ⟨(timely.waits index call found waiting).1, onTime index inside call found waiting⟩
  | start task isPush attemptNo maxAttempts transports hasFallback =>
    obtain rfl := Option.some.inj taken
    obtain rfl := Option.some.inj stepped
    refine ⟨fun index call found passing => ?_, fun index call found waiting => ?_, timely.awaited⟩
    · rcases Tables.row_append.mp found with old | ⟨_, rfl⟩
      · exact timely.leased index call old passing
      · cases passing
    · rcases Tables.row_append.mp found with old | ⟨_, rfl⟩
      · exact timely.waits index call old waiting
      · cases waiting
  | lateReport task success =>
    obtain rfl := Option.some.inj taken
    obtain ⟨_, same⟩ := Option.ite_none_right_eq_some.mp stepped
    obtain rfl := Option.some.inj same
    exact ⟨timely.leased, timely.waits, timely.awaited⟩
  | send index =>
    obtain ⟨call, found, moved⟩ := step_of_call rfl stepped
    obtain ⟨later, turns⟩ := callStep_turns moved
    obtain ⟨remains, taken⟩ := Option.ite_none_left_eq_some.mp taken
    simp only [found, Option.bind_eq_bind, Option.bind_some, Option.some.injEq] at taken
    obtain rfl := taken
    refine timely.send found turns ?_ remains
    cases timeoutMs call.task with
    | none => decide
    | some configured => exact configured.2
  | setLease index =>
    obtain rfl := Option.some.inj taken
    obtain ⟨call, found, moved⟩ := step_of_call rfl stepped
    obtain ⟨later, turns⟩ := callStep_turns moved
    obtain ⟨asking, _⟩ := Option.ite_none_right_eq_some.mp moved
    exact timely.lease found turns nofun (by rw [asking]; rfl)
  | retryLease index =>
    obtain rfl := Option.some.inj taken
    obtain ⟨call, found, moved⟩ := step_of_call rfl stepped
    obtain ⟨later, turns⟩ := callStep_turns moved
    obtain ⟨retrying, _⟩ := Option.ite_none_right_eq_some.mp moved
    exact timely.lease found turns nofun (by rw [retrying]; rfl)
  | breakerOpen index =>
    obtain ⟨_, same⟩ := Option.ite_none_left_eq_some.mp taken
    obtain rfl := Option.some.inj same
    obtain ⟨call, found, moved⟩ := step_of_call rfl stepped
    obtain ⟨later, turns⟩ := callStep_turns moved
    exact timely.plain found turns nofun (fun _ => ⟨nofun, nofun⟩) timely.awaited
  | budgetExhausted index =>
    obtain ⟨_, same⟩ := Option.ite_none_right_eq_some.mp taken
    obtain rfl := Option.some.inj same
    obtain ⟨call, found, moved⟩ := step_of_call rfl stepped
    obtain ⟨later, turns⟩ := callStep_turns moved
    exact timely.plain found turns nofun (fun _ => ⟨nofun, nofun⟩) timely.awaited
  | respond index response =>
    obtain rfl := Option.some.inj taken
    obtain ⟨call, found, moved⟩ := step_of_call rfl stepped
    obtain ⟨later, turns⟩ := callStep_turns moved
    exact timely.plain found turns nofun (fun _ => ⟨nofun, nofun⟩)
      (timely.isOver found (waits_of_ended moved (.inl ⟨_, _, rfl⟩)))
  | sendThrows index retryable =>
    obtain rfl := Option.some.inj taken
    obtain ⟨call, found, moved⟩ := step_of_call rfl stepped
    obtain ⟨later, turns⟩ := callStep_turns moved
    exact timely.plain found turns nofun (fun _ => ⟨nofun, nofun⟩)
      (timely.isOver found (waits_of_ended moved (.inr (.inl ⟨_, _, rfl⟩))))
  | timeout index =>
    obtain ⟨_, same⟩ := Option.ite_none_right_eq_some.mp taken
    obtain rfl := Option.some.inj same
    obtain ⟨call, found, moved⟩ := step_of_call rfl stepped
    obtain ⟨later, turns⟩ := callStep_turns moved
    exact timely.plain found turns nofun (fun _ => ⟨nofun, nofun⟩)
      (timely.isOver found (waits_of_ended moved (.inr (.inr ⟨_, rfl⟩))))
  | _ =>
    obtain rfl := Option.some.inj taken
    obtain ⟨call, found, moved⟩ := step_of_call rfl stepped
    obtain ⟨later, turns⟩ := callStep_turns moved
    exact timely.plain found turns nofun (fun _ => ⟨nofun, nofun⟩) timely.awaited

/-- Nobody waits yet. -/
theorem timely_start : Timely {} := ⟨nofun, nofun, nofun⟩

/-- In every run on time, for any number of transports and any timeouts, gates and durations: every
transport is called with a positive timeout and waited for no longer than the budget of its pass,
which ends while the lease is held. -/
theorem calls_within_budget (run : Reaches
      (timedStep IDEMPOTENCY_TTL_SECONDS timeoutMs) anyStep {} state) :
    (∀ wait ∈ state.awaited, 0 < wait.clock.timeoutMs ∧
      wait.endedAt ≤ wait.clock.tDispatchStart + MAX_DISPATCH_BUDGET_MS ∧
      wait.clock.tDispatchStart + MAX_DISPATCH_BUDGET_MS < wait.clock.leaseExpiresAt) ∧
    ∀ index call, state.world.calls[index]? = some call → call.phase.waits = true →
      0 < (state.clocks index).timeoutMs ∧
      state.world.now ≤ (state.clocks index).tDispatchStart + MAX_DISPATCH_BUDGET_MS ∧
      (state.clocks index).tDispatchStart + MAX_DISPATCH_BUDGET_MS <
        (state.clocks index).leaseExpiresAt := by
  have timely : Timely state :=
    run.invariant timely_start fun _ _ _ timely _ taken => timely_step timely taken
  constructor
  · intro wait member
    obtain ⟨inBudget, ended, leased⟩ := timely.awaited wait member
    refine ⟨inBudget.positive, Nat.le_trans ended inBudget.bounded, ?_⟩
    simp only [PassClock.Leased] at leased
    omega
  · intro index call found waiting
    obtain ⟨inBudget, inTime⟩ := timely.waits index call found waiting
    have leased := (timely.leased index call found (CallPhase.passing_of_waits waiting)).1
    refine ⟨inBudget.positive, Nat.le_trans inTime inBudget.bounded, ?_⟩
    simp only [PassClock.Leased] at leased
    omega

/-- A pass that renders for twenty seconds and gives its first provider up after five; no time is
left for the second one. -/
def slowPass : List Action :=
  [.start "t".toList false 1 3 2 false, .gate 0 (some 0), .setLease 0, .tick 20_000, .render 0 true,
    .send 0, .tick 5_000, .timeout 0, .budgetExhausted 0]

/-- The second provider is not called any more. -/
example : (perform (timedStep 3600 fun _ => none) {} slowPass).isSome = true := by decide +kernel

/-- What it waited for was in its budget. -/
theorem calls_within_budget_slow : ∃ wait : Awaited, wait.clock.timeoutMs = 5_000 ∧
    wait.endedAt ≤ wait.clock.tDispatchStart + MAX_DISPATCH_BUDGET_MS := by
  have run : Reaches (timedStep 3600 fun _ => none) anyStep {}
      ((perform (timedStep 3600 fun _ => none) {} slowPass).getD {}) :=
    reaches_any_performed _ (by decide +kernel)
  have bounds := (calls_within_budget run).1 ⟨⟨0, 60_000, 20_000, 5_000⟩, 25_000⟩
    (by decide +kernel)
  exact ⟨_, rfl, bounds.2.1⟩

end Notifkit.Delivery
