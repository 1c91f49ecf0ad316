import Notifkit.Foundations.Runs
import Notifkit.Foundations.Tables

/-!
# Circuit breakers

A breaker lets calls through until enough of them failed one after another. Then it is open: it turns
calls away for a time, and afterwards lets one of them find out whether the dependency is back. What
that one comes to closes the breaker or opens it again.

Calls that were let through before may come to their end at any time, and in any order. Beside the
breaker stands the spell it is in: since when it has been open, and which calls were started since.
-/

namespace Notifkit.Shared

open Runs Tables

structure CircuitBreakerOptions where
  failureThreshold : Int
  resetTimeoutMs : Int

inductive BreakerState where
  | closed | opened | halfOpen
deriving DecidableEq

structure CircuitBreaker where
  state : BreakerState := .closed
  failures : Nat := 0
  nextAttemptAt : Int := 0
  /-- one caller is testing whether the dependency has recovered -/
  probeInFlight : Bool := false
deriving DecidableEq

namespace CircuitBreaker

/-- `execute`, up to where the action is called: the breaker then, and whether the call is the probe.
Absent where the call is turned away. -/
def execute (breaker : CircuitBreaker) (now : Int) : Option (CircuitBreaker × Bool) :=
  match breaker.state with
  | .opened =>
    if breaker.nextAttemptAt < now ∧ breaker.probeInFlight = false then
      some ({ breaker with state := .halfOpen, probeInFlight := true }, true)
    else none
  | .halfOpen =>
    if breaker.probeInFlight then none else some ({ breaker with probeInFlight := true }, true)
  | .closed => some (breaker, false)

def onSuccess (breaker : CircuitBreaker) : CircuitBreaker :=
  { breaker with failures := 0, state := .closed }

def onFailure (options : CircuitBreakerOptions) (breaker : CircuitBreaker) (now : Int) :
    CircuitBreaker :=
  let failures := breaker.failures + 1
  if options.failureThreshold ≤ failures then
    -- the clock starts again, so the next probe waits a full timeout
    { breaker with failures, state := .opened, nextAttemptAt := now + options.resetTimeoutMs }
  else { breaker with failures }

/-- The end of a call's action. -/
def settle (options : CircuitBreakerOptions) (breaker : CircuitBreaker) (now : Int)
    (success isProbe : Bool) : CircuitBreaker :=
  let breaker := if success then breaker.onSuccess else breaker.onFailure options now
  if isProbe then { breaker with probeInFlight := false } else breaker

end CircuitBreaker

/-- A call whose action is running, and the spell it was started in. -/
structure BreakerCall where
  isProbe : Bool
  spell : Option Nat
deriving DecidableEq

/-- The breaker was opened, or opened again by a probe, at a time. -/
structure Spell where
  number : Nat
  openedAt : Int
deriving DecidableEq

/-- A breaker with its calls. A spell begins where failures open the breaker and ends where a call
that was started in it succeeds. -/
structure BreakerWorld where
  clock : Int := 0
  breaker : CircuitBreaker := {}
  running : List BreakerCall := []
  spell : Option Spell := none
  spells : Nat := 0
  /-- the actions started in a spell: when the spell began, and when they started -/
  starts : List (Int × Int) := []
deriving DecidableEq

inductive BreakerAction where
  | execute
  | settle (position : Nat) (success : Bool)
  | tick (ms : Nat)
deriving DecidableEq

namespace BreakerWorld

/-- The number of the spell the breaker is in. -/
def current (world : BreakerWorld) : Option Nat := world.spell.map Spell.number

/-- The call was started in the spell the breaker is in. -/
def startedSince (world : BreakerWorld) (call : BreakerCall) : Bool :=
  world.spell.isSome && call.spell == world.current

/-- The spell after a call came to its end: over where a call of the spell succeeded, begun again
where one failed, and begun where the breaker is no longer closed. -/
def spellAfter (world : BreakerWorld) (call : BreakerCall) (success : Bool)
    (breaker : CircuitBreaker) : Option Spell :=
  match world.spell with
  | some spell =>
    if world.startedSince call then
      if success then none else some { spell with openedAt := world.clock }
    else some spell
  | none => if breaker.state = .closed then none else some ⟨world.spells, world.clock⟩

end BreakerWorld

/-- One step. -/
def breakerStep (options : CircuitBreakerOptions) (world : BreakerWorld) :
    BreakerAction → Option BreakerWorld
  | .execute =>
    match world.breaker.execute world.clock with
    | none => some world
    | some (breaker, isProbe) => some { world with
        breaker := breaker
        running := world.running ++ [⟨isProbe, world.current⟩]
        starts := match world.spell with
          | some spell => (spell.openedAt, world.clock) :: world.starts
          | none => world.starts }
  | .settle position success => do
    let call ← world.running[position]?
    let breaker := world.breaker.settle options world.clock success call.isProbe
    let spell := world.spellAfter call success breaker
    some { world with
      breaker := breaker
      running := world.running.eraseIdx position
      spell := spell
      spells := if world.spell = none ∧ spell ≠ none then world.spells + 1 else world.spells }
  | .tick ms => some { world with clock := world.clock + ms }

/-- While a spell lasts the breaker is not closed and at most one action runs that was started in it;
none was started within the timeout. -/
structure Guarded (options : CircuitBreakerOptions) (world : BreakerWorld) : Prop where
  closed : world.spell ≠ none → world.breaker.state ≠ .closed
  alone : world.running.countP world.startedSince ≤ 1
  waited : ∀ start ∈ world.starts, start.1 + options.resetTimeoutMs ≤ start.2

/-- No call that was started before the breaker opened succeeds while it is open. -/
def Timely (world : BreakerWorld) (action : BreakerAction) : Prop :=
  ∀ position call, action = .settle position true → world.running[position]? = some call →
    world.spell ≠ none → world.startedSince call = true

/-- The calls of a breaker against its state: the calls of a spell are its probes. -/
structure Kept (options : CircuitBreakerOptions) (world : BreakerWorld) : Prop where
  spell : world.spell = none ↔ world.breaker.state = .closed
  failures : world.breaker.state ≠ .closed →
    options.failureThreshold ≤ world.breaker.failures
  begun : ∀ spell, world.spell = some spell → spell.openedAt ≤ world.clock
  waits : ∀ spell, world.spell = some spell →
    spell.openedAt + options.resetTimeoutMs ≤ world.breaker.nextAttemptAt
  probing : world.breaker.state = .halfOpen → world.breaker.probeInFlight = true
  probes : world.running.countP BreakerCall.isProbe = if world.breaker.probeInFlight then 1 else 0
  idle : world.spell = none → world.breaker.probeInFlight = false
  own : ∀ call ∈ world.running, call.isProbe = true ↔ world.startedSince call = true
  numbered : ∀ call ∈ world.running, ∀ number, call.spell = some number → number < world.spells
  numberedNow : ∀ spell, world.spell = some spell → spell.number < world.spells
  waited : ∀ start ∈ world.starts, start.1 + options.resetTimeoutMs ≤ start.2

section Invariant

variable {options : CircuitBreakerOptions} {world next : BreakerWorld}

namespace CircuitBreaker

/-- A call that is let through finds the breaker closed, or is the only probe. -/
theorem execute_cases {breaker after : CircuitBreaker} {now : Int} {isProbe : Bool}
    (admitted : breaker.execute now = some (after, isProbe)) :
    (breaker.state = .closed ∧ after = breaker ∧ isProbe = false) ∨
    (breaker.state ≠ .closed ∧ breaker.probeInFlight = false ∧
      (breaker.state = .opened → breaker.nextAttemptAt < now) ∧
      after = { breaker with state := .halfOpen, probeInFlight := true } ∧ isProbe = true) := by
  unfold execute at admitted
  cases state : breaker.state with
  | closed =>
    simp only [state, Option.some.injEq, Prod.mk.injEq] at admitted
    exact .inl ⟨rfl, admitted.1.symm, admitted.2.symm⟩
  | opened =>
    simp only [state, Option.ite_none_right_eq_some, Option.some.injEq, Prod.mk.injEq] at admitted
    obtain ⟨⟨due, idle⟩, same, probe⟩ := admitted
    exact .inr ⟨nofun, idle, fun _ => due, same.symm, probe.symm⟩
  | halfOpen =>
    simp only [state, Option.ite_none_left_eq_some, Option.some.injEq, Prod.mk.injEq,
      Bool.not_eq_true] at admitted
    obtain ⟨idle, same, probe⟩ := admitted
    exact .inr ⟨nofun, idle, nofun, by rw [← same, ← state], probe.symm⟩

/-- A success closes the breaker, whichever call it belongs to. -/
theorem settle_success (options : CircuitBreakerOptions) (breaker : CircuitBreaker) (now : Int)
    (isProbe : Bool) :
    breaker.settle options now true isProbe = { breaker with
      failures := 0
      state := .closed
      probeInFlight := breaker.probeInFlight && !isProbe } := by
  cases isProbe <;> simp [settle, onSuccess]

/-- A failure beyond the threshold opens the breaker for a full timeout. -/
theorem settle_failure {breaker : CircuitBreaker}
    (enough : options.failureThreshold ≤ breaker.failures + 1) (now : Int)
    (isProbe : Bool) :
    breaker.settle options now false isProbe = { breaker with
      failures := breaker.failures + 1
      state := .opened
      nextAttemptAt := now + options.resetTimeoutMs
      probeInFlight := breaker.probeInFlight && !isProbe } := by
  cases isProbe <;> simp [settle, onFailure, enough]

/-- A failure below the threshold is counted. -/
theorem settle_counted {breaker : CircuitBreaker}
    (few : ¬ options.failureThreshold ≤ breaker.failures + 1) (now : Int)
    (isProbe : Bool) :
    breaker.settle options now false isProbe = { breaker with
      failures := breaker.failures + 1
      probeInFlight := breaker.probeInFlight && !isProbe } := by
  cases isProbe <;> simp [settle, onFailure, few]

end CircuitBreaker

/-- Where no spell lasts, no call was started in one that lasts. -/
theorem BreakerWorld.startedSince_none (isOver : world.spell = none) (call : BreakerCall) :
    world.startedSince call = false := by
  simp [startedSince, isOver]

/-- In a spell the calls that count are those with its number. -/
theorem BreakerWorld.startedSince_some {spell : Spell} (lasts : world.spell = some spell)
    (call : BreakerCall) : world.startedSince call = (call.spell == some spell.number) := by
  simp [startedSince, current, lasts]

namespace Kept

/-- A breaker that was never used. -/
theorem initial : Kept options {} where
  spell := by simp
  failures := by simp
  begun := by simp
  waits := by simp
  probing := by simp
  probes := by simp
  idle := by simp
  own := by simp
  numbered := by simp
  numberedNow := by simp
  waited := by simp

/-- The calls of a spell are its probes, and there is one at most. -/
theorem guarded (kept : Kept options world) : Guarded options world where
  closed := fun lasts shut => lasts (kept.spell.mpr shut)
  alone := by
    have same : world.running.countP world.startedSince =
        world.running.countP BreakerCall.isProbe :=
      List.countP_congr fun call runs => (kept.own call runs).symm
    rw [same, kept.probes]
    split <;> omega
  waited := kept.waited

/-- Without a probe in flight no running call is one. -/
theorem unprobed (kept : Kept options world) (idle : world.breaker.probeInFlight = false) :
    ∀ call ∈ world.running, call.isProbe = false := by
  have none : world.running.countP BreakerCall.isProbe = 0 := by
    rw [kept.probes, idle]
    rfl
  simpa using List.countP_eq_zero.mp none

/-- Whatever call is let through next, it is the only one of its spell. -/
theorem execute (kept : Kept options world)
    (taken : breakerStep options world .execute = some next) : Kept options next := by
  unfold breakerStep at taken
  cases admitted : world.breaker.execute world.clock with
  | none =>
    simp only [admitted, Option.some.injEq] at taken
    exact taken ▸ kept
  | some passed =>
    obtain ⟨breaker, isProbe⟩ := passed
    simp only [admitted, Option.some.injEq] at taken
    subst taken
    obtain ⟨shut, rfl, rfl⟩ | ⟨ajar, idle, due, rfl, rfl⟩ :=
      CircuitBreaker.execute_cases admitted
    · have isOver : world.spell = none := kept.spell.mpr shut
      have plain := kept.unprobed (kept.idle isOver)
      exact { kept with
        probes := by simpa [List.countP_append] using kept.probes
        own := fun call runs => by
          have joined : call ∈ world.running ∨ call = ⟨false, world.current⟩ := by simpa using runs
          have free : call.isProbe = false := by
            obtain earlier | rfl := joined
            · exact plain call earlier
            · rfl
          simp [free, BreakerWorld.startedSince, isOver]
        numbered := fun call runs number named => by
          have joined : call ∈ world.running ∨ call = ⟨false, world.current⟩ := by simpa using runs
          obtain earlier | rfl := joined
          · exact kept.numbered call earlier number named
          · simp [BreakerWorld.current, isOver] at named
        waited := by simpa [isOver] using kept.waited }
    · have lasts : world.spell ≠ none := fun isOver => ajar (kept.spell.mp isOver)
      obtain ⟨spell, present⟩ := Option.ne_none_iff_exists'.mp lasts
      have closedDoor : world.breaker.state = .opened := by
        cases state : world.breaker.state with
        | closed => exact absurd state ajar
        | opened => rfl
        | halfOpen => simp [kept.probing state] at idle
      have waited := kept.waits spell present
      have passed := due closedDoor
      exact { kept with
        spell := by simp [lasts]
        failures := fun _ => kept.failures ajar
        probing := fun _ => rfl
        probes := by
          have alone := kept.probes
          rw [idle] at alone
          simpa [List.countP_append] using alone
        idle := fun isOver => absurd isOver lasts
        own := fun call runs => by
          have joined : call ∈ world.running ∨ call = ⟨true, world.current⟩ := by simpa using runs
          obtain earlier | rfl := joined
          · exact kept.own call earlier
          · simp [BreakerWorld.startedSince, BreakerWorld.current, present]
        numbered := fun call runs number named => by
          have joined : call ∈ world.running ∨ call = ⟨true, world.current⟩ := by simpa using runs
          obtain earlier | rfl := joined
          · exact kept.numbered call earlier number named
          · have same : spell.number = number := by
              simpa [BreakerWorld.current, present] using named
            exact same ▸ kept.numberedNow spell present
        waited := fun start started => by
          have joined : start = (spell.openedAt, world.clock) ∨ start ∈ world.starts := by
            simpa [present] using started
          obtain rfl | earlier := joined
          · show spell.openedAt + options.resetTimeoutMs ≤ world.clock
            omega
          · exact kept.waited start earlier }

/-- What is left of the probes once one call came to its end. -/
theorem probes_left (kept : Kept options world) {position : Nat} {call : BreakerCall}
    (running : world.running[position]? = some call) :
    (world.running.eraseIdx position).countP BreakerCall.isProbe =
      if world.breaker.probeInFlight && !call.isProbe then 1 else 0 := by
  have counted := countP_eraseIdx BreakerCall.isProbe running
  rw [kept.probes] at counted
  cases flight : world.breaker.probeInFlight <;> cases probe : call.isProbe <;>
    simp only [flight, probe, Bool.false_eq_true, if_true, if_false, Bool.and_true, Bool.and_false,
      Bool.not_true, Bool.not_false] at counted ⊢ <;> omega

/-- A call that came to its end. -/
theorem settle_cases {position : Nat} {success : Bool}
    (taken : breakerStep options world (.settle position success) = some next) :
    ∃ call breaker spell, world.running[position]? = some call ∧
      breaker = world.breaker.settle options world.clock success call.isProbe ∧
      spell = world.spellAfter call success breaker ∧
      next = { world with
        breaker := breaker
        running := world.running.eraseIdx position
        spell := spell
        spells := if world.spell = none ∧ spell ≠ none then world.spells + 1 else world.spells } := by
  obtain ⟨call, running, settled⟩ := Option.bind_eq_some_iff.mp taken
  exact ⟨call, _, _, running, rfl, rfl, (Option.some.inj settled).symm⟩

/-- A success of the spell's own call, or outside of any spell. -/
theorem succeed (kept : Kept options world) {position : Nat}
    (timely : Timely world (.settle position true))
    (taken : breakerStep options world (.settle position true) = some next) :
    Kept options next := by
  obtain ⟨call, breaker, spell, running, settled, after, rfl⟩ := settle_cases taken
  have mine : world.spell ≠ none → call.isProbe = true := fun lasts =>
    (kept.own call (List.mem_of_getElem? running)).mpr (timely position call rfl running lasts)
  have quiet : (world.breaker.probeInFlight && !call.isProbe) = false := by
    by_cases isOver : world.spell = none
    · simp [kept.idle isOver]
    · simp [mine isOver]
  have ended : spell = none := by
    rw [after]
    unfold BreakerWorld.spellAfter
    cases present : world.spell with
    | none => simp [settled, CircuitBreaker.settle_success]
    | some old =>
      have since := timely position call rfl running (by simp [present])
      simp [since]
  have rest : (world.running.eraseIdx position).countP BreakerCall.isProbe = 0 := by
    rw [kept.probes_left running, quiet]
    rfl
  rw [CircuitBreaker.settle_success, quiet] at settled
  subst ended settled
  exact {
    spell := by simp
    failures := fun ajar => absurd rfl ajar
    begun := nofun
    waits := nofun
    probing := nofun
    probes := rest
    idle := fun _ => rfl
    own := fun other runs => by
      have plain : other.isProbe = false := by simpa using List.countP_eq_zero.mp rest other runs
      simp [plain, BreakerWorld.startedSince]
    numbered := fun other runs => by
      simpa using kept.numbered other (List.mem_of_mem_eraseIdx runs)
    numberedNow := nofun
    waited := kept.waited }

/-- A failure while a spell lasts: the timeout begins again, and the spell does where the call was
its own. -/
theorem fail_again (kept : Kept options world) {position : Nat} (lasts : world.spell ≠ none)
    (taken : breakerStep options world (.settle position false) = some next) :
    Kept options next := by
  obtain ⟨call, breaker, spell, running, settled, after, rfl⟩ := settle_cases taken
  obtain ⟨old, present⟩ := Option.ne_none_iff_exists'.mp lasts
  have ajar : world.breaker.state ≠ .closed := fun shut => lasts (kept.spell.mpr shut)
  have enough := kept.failures ajar
  have left := kept.probes_left running
  rw [CircuitBreaker.settle_failure (by omega)] at settled
  obtain ⟨renewed, later, spellIs, number, bound⟩ : ∃ renewed : Spell, old.openedAt ≤ renewed.openedAt ∧
      spell = some renewed ∧ renewed.number = old.number ∧ renewed.openedAt ≤ world.clock := by
    have begun := kept.begun old present
    rw [after]
    unfold BreakerWorld.spellAfter
    cases since : world.startedSince call with
    | true => exact ⟨{ old with openedAt := world.clock }, begun, by simp [present], rfl, Int.le_refl _⟩
    | false => exact ⟨old, Int.le_refl _, by simp [present], rfl, begun⟩
  subst spellIs settled
  exact {
    spell := by simp
    failures := fun _ => by
      show options.failureThreshold ≤ ((world.breaker.failures + 1 : Nat) : Int)
      omega
    begun := fun spell same => by
      obtain rfl := Option.some.inj same
      exact bound
    waits := fun spell same => by
      obtain rfl := Option.some.inj same
      show renewed.openedAt + options.resetTimeoutMs ≤ world.clock + options.resetTimeoutMs
      omega
    probing := nofun
    probes := left
    idle := nofun
    own := fun other runs => by
      rw [kept.own other (List.mem_of_mem_eraseIdx runs), BreakerWorld.startedSince_some present,
        BreakerWorld.startedSince_some rfl, number]
    numbered := fun other runs => by
      simpa [present] using kept.numbered other (List.mem_of_mem_eraseIdx runs)
    numberedNow := fun spell same => by
      obtain rfl := Option.some.inj same
      simpa [present, number] using kept.numberedNow old present
    waited := kept.waited }

/-- A failure outside of any spell: it is counted, or a spell begins. -/
theorem fail_first (kept : Kept options world) {position : Nat} (isOver : world.spell = none)
    (taken : breakerStep options world (.settle position false) = some next) :
    Kept options next := by
  obtain ⟨call, breaker, spell, running, settled, after, rfl⟩ := settle_cases taken
  have shut : world.breaker.state = .closed := kept.spell.mp isOver
  have idle := kept.idle isOver
  have rest : (world.running.eraseIdx position).countP BreakerCall.isProbe = 0 := by
    rw [kept.probes_left running, idle]
    rfl
  have plain : ∀ other ∈ world.running.eraseIdx position, other.isProbe = false := by
    simpa using List.countP_eq_zero.mp rest
  unfold BreakerWorld.spellAfter at after
  simp only [isOver] at after
  by_cases enough : options.failureThreshold ≤ world.breaker.failures + 1
  · rw [CircuitBreaker.settle_failure enough] at settled
    subst settled
    simp only [reduceCtorEq, if_false] at after
    subst after
    exact {
      spell := by simp
      failures := fun _ => by
        show options.failureThreshold ≤ ((world.breaker.failures + 1 : Nat) : Int)
        omega
      begun := fun spell same => by
        obtain rfl := Option.some.inj same
        exact Int.le_refl _
      waits := fun spell same => by
        obtain rfl := Option.some.inj same
        exact Int.le_refl _
      probing := nofun
      probes := by simpa [idle] using rest
      idle := nofun
      own := fun other runs => by
        have earlier : other.spell ≠ some world.spells := fun named =>
          absurd (kept.numbered other (List.mem_of_mem_eraseIdx runs) _ named) (Nat.lt_irrefl _)
        simp [plain other runs, BreakerWorld.startedSince, BreakerWorld.current, earlier]
      numbered := fun other runs number named => by
        have earlier := kept.numbered other (List.mem_of_mem_eraseIdx runs) number named
        simp only [isOver, ne_eq, reduceCtorEq, not_false_eq_true, and_self, if_true]
        omega
      numberedNow := fun spell same => by
        obtain rfl := Option.some.inj same
        simp [isOver]
      waited := kept.waited }
  · rw [CircuitBreaker.settle_counted enough] at settled
    subst settled
    simp only [shut, if_true] at after
    subst after
    exact {
      spell := by simp [shut]
      failures := fun ajar => absurd shut ajar
      begun := nofun
      waits := nofun
      probing := fun half => absurd (shut.symm.trans half) nofun
      probes := by simpa [idle] using rest
      idle := fun _ => by simp [idle]
      own := fun other runs => by
        simp [plain other runs, BreakerWorld.startedSince]
      numbered := fun other runs => by
        simpa using kept.numbered other (List.mem_of_mem_eraseIdx runs)
      numberedNow := nofun
      waited := kept.waited }

/-- One step keeps the calls of a spell and its probes the same. -/
theorem step (kept : Kept options world) {action : BreakerAction}
    (timely : Timely world action) (taken : breakerStep options world action = some next) :
    Kept options next := by
  cases action with
  | execute => exact kept.execute taken
  | settle position success =>
    cases success with
    | true => exact kept.succeed timely taken
    | false =>
      by_cases isOver : world.spell = none
      · exact kept.fail_first isOver taken
      · exact kept.fail_again isOver taken
  | tick ms =>
    obtain rfl := Option.some.inj taken
    exact { kept with
      begun := fun spell present => by
        have begun := kept.begun spell present
        show spell.openedAt ≤ world.clock + ms
        omega }

end Kept

/-- A late success closes the breaker: the spell goes on, and its guard is gone. -/
theorem unguarded {action : BreakerAction} (late : ¬ Timely world action)
    (taken : breakerStep options world action = some next) : ¬ Guarded options next := by
  intro guarded
  unfold Timely at late
  push Not at late
  obtain ⟨position, call, rfl, running, lasts, before⟩ := late
  obtain ⟨ended, breaker, spell, found, settled, after, rfl⟩ := Kept.settle_cases taken
  obtain rfl : ended = call := Option.some.inj (found.symm.trans running)
  obtain ⟨old, present⟩ := Option.ne_none_iff_exists'.mp lasts
  have stays : spell = some old := by
    rw [after]
    unfold BreakerWorld.spellAfter
    simp [present, before]
  have closes : breaker.state = .closed := by rw [settled, CircuitBreaker.settle_success]
  exact guarded.closed (by simp [stays]) closes

/-- While no call from before the opening succeeds, an open breaker waits for its timeout and then
tries one call at a time; the first that does succeed closes it. -/
theorem guarded_iff (options : CircuitBreakerOptions) :
    (∀ world, Reaches (breakerStep options) Timely {} world → Guarded options world) ∧
    ∀ world action next, breakerStep options world action = some next →
      ¬ Timely world action → ¬ Guarded options next := by
  constructor
  · intro world run
    have kept : Kept options world :=
      run.invariant Kept.initial fun _ _ _ kept timely taken => kept.step timely taken
    exact kept.guarded
  · intro world action next taken late
    exact unguarded late taken

/-- Two calls run, the first fails and opens the breaker, the second succeeds and closes it again. -/
theorem late_success_closes : ¬ ∀ options world,
    Reaches (breakerStep options) anyStep {} world → Guarded options world := by
  intro always
  have run := @reaches_any _ _ (breakerStep ⟨1, 1000⟩) {} _
    [.execute, .execute, .settle 0 false, .settle 0 true] rfl
  exact (always _ _ run).closed nofun rfl

/-- Three calls run; two fail, the second late, and a probe is tried after the timeout. -/
def probing : BreakerWorld where
  clock := 1006
  breaker := ⟨.halfOpen, 2, 1005, true⟩
  running := [⟨false, none⟩, ⟨true, some 0⟩]
  spell := some ⟨0, 0⟩
  spells := 1
  starts := [(0, 1006)]

/-- The probe is alone; if the third call succeeded now, it would close the breaker. -/
theorem guarded_probe :
    Guarded ⟨1, 1000⟩ probing ∧ ∀ next,
      breakerStep ⟨1, 1000⟩ probing (.settle 0 true) = some next → ¬ Guarded ⟨1, 1000⟩ next := by
  have run : Reaches (breakerStep ⟨1, 1000⟩) Timely {} probing :=
    reaches_of_perform [.execute, .execute, .execute, .settle 0 false, .tick 5, .settle 0 false,
      .tick 1001, .execute] ⟨nofun, nofun, nofun, nofun, nofun, nofun, nofun, nofun, trivial⟩ rfl
  constructor
  · exact (guarded_iff ⟨1, 1000⟩).1 probing run
  · intro next taken
    have late : ¬ Timely probing (.settle 0 true) := fun timely =>
      absurd (timely 0 ⟨false, none⟩ rfl rfl nofun) nofun
    exact (guarded_iff ⟨1, 1000⟩).2 probing _ next taken late

end Invariant

end Notifkit.Shared
