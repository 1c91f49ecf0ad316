import Notifkit.Delivery.MessageLogs
import Notifkit.Delivery.TripBoards

/-!
# What becomes of a task

The delivery workers run with a record of the deferrals and of how tasks end. One task is followed;
all others do what they like. Of the task itself nothing crashes, no command that parks it fails, no
dead letter of it is put back, and an entry of it is delivered again only when whoever took it has
given it back, as with a lease that was held.

Then its moves are the moves of a trip: so its passes and deferrals are bounded, its counters never
go down, and it is in one place until it has ended.
-/

namespace Notifkit.Delivery.Log

open Pipeline Runs Tables

/-- The workers, with what is recorded of tasks. -/
structure TripWorld where
  log : LogWorld := {}
  /-- ghost: the task of each deferral for capacity -/
  deferrals : List Text := []
  /-- ghost: the tasks that have ended, and how -/
  ends : List (Text × End) := []

/-- The task a step defers. -/
def deferredBy (world : LogWorld) : LogAction → Option Text
  | .gateEnds index .deferred => (world.delivery.calls[index]?).map Call.task
  | _ => none

/-- The task a step ends: its call returns without a provider or with an outcome, its template is
gone, or its entry is a poison pill. -/
def endedBy (tasks : Text → Sent) (world : LogWorld) : LogAction → Option (Text × End)
  | .gateEnds _ .deferred => none
  | .gateEnds index _ => (world.delivery.calls[index]?).map fun call =>
      (call.task, fallbackToNextChannel (tasks call.task).fallbackChain)
  | .render index false true => (world.delivery.calls[index]?).map fun call => (call.task, .failed)
  | .conclude index _ => do
    let call ← world.delivery.calls[index]?
    match call.phase with
    | .concluding result => (outcomeOf call result).map fun outcome =>
        (call.task, if outcome = .delivered then .delivered
          else fallbackToNextChannel (tasks call.task).fallbackChain)
    | _ => none
  | .poison position => (world.outbound[position]?).map fun entry =>
      (entry.payload.taskId, .failed)
  | _ => none

/-- What is recorded of a step, beside what it leaves. -/
def TripWorld.recorded (tasks : Text → Sent) (state : TripWorld) (action : LogAction)
    (log : LogWorld) : TripWorld where
  log := log
  deferrals := (deferredBy state.log action).toList ++ state.deferrals
  ends := (endedBy tasks state.log action).toList ++ state.ends

/-- One step of the workers, recorded. -/
def tripStep (IDEMPOTENCY_TTL_SECONDS : Nat) (tasks : Text → Sent) (state : TripWorld)
    (action : LogAction) : Option TripWorld :=
  (step IDEMPOTENCY_TTL_SECONDS state.log action).map (state.recorded tasks action)

/-- The task was dispatched or scheduled. -/
def Known (world : LogWorld) (task : Text) : Prop :=
  (∃ entry ∈ world.outbound, entry.payload.taskId = task) ∨
    ∃ payload ∈ world.scheduledPayloads, payload.taskId = task

/-- Every call of the task that took the entry has given it back. -/
def GivenBack (world : LogWorld) (task : Text) (position : Nat) : Prop :=
  ∀ both ∈ world.delivery.calls.zip world.passes, both.1.task = task → both.2.entry = position →
    hold both.1.phase both.2.nonRetryable = .gaveBack

/-- The steps of a run in which the task is sent once, and neither crashes nor errors of the
infrastructure meet it. -/
def Orderly (tasks : Text → Sent) (task : Text) (state : TripWorld) : LogAction → Prop
  | .dispatch payload | .schedule payload =>
    payload.taskId = task → ¬ Known state.log task ∧ payload.Of (tasks task)
  | .release position kept => ∀ payload ∈ state.log.scheduledPayloads[position]?,
      payload.taskId = task → kept = false
  | .replay position _ => ∀ payload ∈ state.log.deadLetters[position]?, payload.taskId ≠ task
  | .take position _ | .poison position => ∀ entry ∈ state.log.outbound[position]?,
      entry.payload.taskId = task → GivenBack state.log task position
  | .crash index | .concludeThrows index _ _ =>
    ∀ call ∈ state.log.delivery.calls[index]?, call.task ≠ task
  | _ => True

instance (sent : Sent) (payload : Payload) : Decidable (payload.Of sent) :=
  decidable_of_iff (payload.maxAttempts = sent.maxAttempts.1 ∧
    payload.hasFallback = !sent.fallbackChain.isEmpty)
    ⟨fun both => ⟨both.1, both.2⟩, fun same => ⟨same.maxAttempts, same.hasFallback⟩⟩

instance (world : LogWorld) (task : Text) : Decidable (Known world task) :=
  inferInstanceAs (Decidable (_ ∨ _))

instance (world : LogWorld) (task : Text) (position : Nat) :
    Decidable (GivenBack world task position) :=
  inferInstanceAs (Decidable (∀ _ ∈ _, _))

instance (tasks : Text → Sent) (task : Text) (state : TripWorld) (action : LogAction) :
    Decidable (Orderly tasks task state action) :=
  match action with
  | .dispatch _ | .schedule _ => inferInstanceAs (Decidable (_ → _))
  | .release .. | .replay .. | .take .. | .poison _ | .crash _ | .concludeThrows .. =>
    inferInstanceAs (Decidable (∀ _ ∈ _, _))
  | .gateEnds .. | .render .. | .quiet _ | .timer .. | .conclude .. | .leave .. | .ack _
  | .deadLetter _ | .store .. => .isTrue trivial

/-- What is to be seen of one task among all. -/
def LogWorld.board (world : LogWorld) (task : Text) : Board where
  calls index := do
    let call ← world.delivery.calls[index]?
    let pass ← world.passes[index]?
    if call.task = task then some (call, pass) else none
  entries position := (world.outbound[position]?).filter fun entry => entry.payload.taskId = task
  parked := world.scheduledPayloads.filter fun payload => payload.taskId = task

/-- The passes of a task that came to its providers. -/
def dispatchPasses (world : LogWorld) (task : Text) : Nat :=
  world.passes.countP fun pass => pass.payload.taskId = task && pass.dispatchStarted

/-- The entries a task was in the stream with. -/
def entriesOf (world : LogWorld) (task : Text) : Nat :=
  (world.outbound.map fun entry => entry.payload.taskId).count task

variable {IDEMPOTENCY_TTL_SECONDS : Nat} {tasks : Text → Sent} {task : Text}
  {world after : LogWorld} {index : Nat} {call later : Call} {pass next : Pass}

section Boards

theorem board_calls {both : Call × Pass} : (world.board task).calls index = some both ↔
    world.delivery.calls[index]? = some both.1 ∧ world.passes[index]? = some both.2 ∧
      both.1.task = task := by
  obtain ⟨call, pass⟩ := both
  simp only [LogWorld.board, Option.bind_eq_bind, Option.bind_eq_some_iff,
    Option.ite_none_right_eq_some, Option.some.injEq, Prod.mk.injEq]
  constructor
  · rintro ⟨call', found, pass', there, same, rfl, rfl⟩
    exact ⟨found, there, same⟩
  · rintro ⟨found, there, same⟩
    exact ⟨call, found, pass, there, same, rfl, rfl⟩

theorem board_entries {position : Nat} {entry : Entry} :
    (world.board task).entries position = some entry ↔
      world.outbound[position]? = some entry ∧ entry.payload.taskId = task := by
  simp [LogWorld.board, Option.filter_eq_some_iff]

/-- Two boards are the same where calls, entries and parked payloads are. -/
theorem Board.same {one two : Board}
    (calls : ∀ index both, one.calls index = some both ↔ two.calls index = some both)
    (entries : ∀ position entry, one.entries position = some entry ↔ two.entries position = some entry)
    (parked : one.parked = two.parked) : one = two := by
  obtain ⟨_, _, _⟩ := one
  obtain ⟨_, _, _⟩ := two
  obtain rfl := parked
  congr 1
  · funext index
    exact Option.ext fun both => calls index both
  · funext position
    exact Option.ext fun entry => entries position entry

/-- A payload that is parked takes the place of its task's last one. -/
theorem parked_reschedule {payload : Payload} :
    (world.reschedule true payload).scheduledPayloads.filter (fun one => one.taskId = task) =
      if payload.taskId = task then [payload]
      else world.scheduledPayloads.filter fun one => one.taskId = task := by
  simp only [LogWorld.reschedule, if_true, List.filter_append, List.filter_filter]
  by_cases own : payload.taskId = task
  · subst own
    simp
  · have others : world.scheduledPayloads.filter (fun one =>
        decide (one.taskId = task) && decide (one.taskId ≠ payload.taskId)) =
        world.scheduledPayloads.filter fun one => one.taskId = task := by
      refine List.filter_congr fun one _ => ?_
      by_cases isTask : one.taskId = task
      · simp [isTask, Ne.symm own]
      · simp [isTask]
    rw [others, if_neg own, List.filter_singleton]
    simp [own]

end Boards

section Calls

/-- What a step that only the call sees does to its hold of the task. -/
inductive QuietTurn (world : World) (call later : Call) : Prop where
  | stays (same : ∀ nonRetryable, hold later.phase nonRetryable = hold call.phase nonRetryable)
      (providers : started later.phase = started call.phase)
      (closing : later.upgrade = true ∨ later.phase = .settling false →
        call.upgrade = true ∨ call.phase = .settling false)
  | givesBack (carries : ∀ nonRetryable, hold call.phase nonRetryable = .carries)
      (early : started call.phase = false) (gone : later.phase = .returned false)
      (upgrade : later.upgrade = call.upgrade)
  | completed (carries : ∀ nonRetryable, hold call.phase nonRetryable = .carries)
      (marked : world.marks.get world.now call.task = some .processed)

/-- Of the other steps nothing is said. -/
theorem QuietTurn.loud {world : World} {action : Action} (loud : Action.quiet action = false)
    (quiet : Action.quiet action = true) : QuietTurn world call later :=
  absurd (loud.symm.trans quiet) nofun

/-- A call goes from one phase to another, and holds its task as before. -/
theorem QuietTurn.goes {world : World} {before phase : CallPhase} (was : call.phase = before)
    (same : ∀ nonRetryable, hold phase nonRetryable = hold before nonRetryable)
    (providers : started phase = started before) (open' : phase ≠ .settling false) :
    QuietTurn world call { call with phase := phase } :=
  .stays (was ▸ same) (was ▸ providers) (Or.imp_right fun settling => absurd settling open')

/-- An answer leaves a call with its providers. -/
theorem afterResponse_carries (call : Call) (provider : Nat) (response : Response) :
    (∀ nonRetryable, hold (afterResponse call provider response) nonRetryable = .carries) ∧
      started (afterResponse call provider response) = true ∧
      afterResponse call provider response ≠ .settling false := by
  unfold afterResponse
  split
  · exact ⟨fun _ => rfl, rfl, nofun⟩
  · split
    · exact ⟨fun _ => rfl, rfl, nofun⟩
    · exact ⟨fun _ => rfl, rfl, nofun⟩

/-- What a step of a call makes of the call and the marks. -/
structure CallTurn (world : World) (index : Nat) (call : Call) (action : Action) (after : World)
    (later : Call) : Prop where
  calls : after.calls = world.calls.set index later
  keeps : call.Keeps later
  marks : ∀ id last, after.marks.cell id = some (.processed, last) →
    world.marks.cell id = some (.processed, last) ∨ id = call.task ∧ call.upgrade = true
  quiet : Action.quiet action = true → QuietTurn world call later

/-- A turn that writes no mark. -/
theorem CallTurn.unmarked {world after : World} {action : Action}
    (calls : after.calls = world.calls.set index later) (keeps : call.Keeps later)
    (marks : after.marks = world.marks) (quiet : Action.quiet action = true → QuietTurn world call later) :
    ∃ later, CallTurn world index call action after later :=
  ⟨later, calls, keeps, fun _ _ marked => .inl (marks ▸ marked), quiet⟩

/-- A call that asks for the lease gets it or goes where it is told. -/
theorem CallTurn.tryLease {world : World} {action : Action} {otherwise : CallPhase}
    (carries : ∀ nonRetryable, hold call.phase nonRetryable = .carries)
    (early : started call.phase = false)
    (turn : QuietTurn world call { call with phase := otherwise }) :
    ∃ later, CallTurn world index call action (world.tryLease index call otherwise) later := by
  unfold World.tryLease
  split
  next marks leased =>
    obtain ⟨_, rfl⟩ := ExpiringStore.setNX_eq_some.mp leased
    refine ⟨{ call with phase := .rendering }, rfl, ⟨rfl, rfl, rfl, rfl⟩, fun id last marked => ?_,
      fun _ => .stays (fun nonRetryable => (carries nonRetryable).symm) early.symm ?_⟩
    · rw [ExpiringStore.set_cell] at marked
      split at marked
      · cases marked
      · exact .inl marked
    · rintro (upgrade | settling)
      · exact .inl upgrade
      · cases settling
  next => exact CallTurn.unmarked rfl ⟨rfl, rfl, rfl, rfl⟩ rfl fun _ => turn

/-- A call asks for the lease. -/
theorem CallTurn.setLease {world : World} {target : Nat} (phase : call.phase = .asking) :
    ∃ later, CallTurn world index call (.setLease target) (world.tryLease index call .reading)
      later :=
  CallTurn.tryLease (fun _ => by rw [phase]; rfl) (by rw [phase]; rfl)
    (.goes phase (fun _ => rfl) rfl nofun)

/-- It asks once more, and gives its entry back where somebody has come first. -/
theorem CallTurn.retryLease {world : World} {target : Nat} (phase : call.phase = .retrying) :
    ∃ later, CallTurn world index call (.retryLease target)
      (world.tryLease index call (.returned false)) later :=
  CallTurn.tryLease (fun _ => by rw [phase]; rfl) (by rw [phase]; rfl)
    (.givesBack (fun _ => by rw [phase]; rfl) (by rw [phase]; rfl) rfl rfl)

/-- Releasing a lease marks nothing processed. -/
theorem marked_release {world : World} {released : Bool} {id : Text} {last : Nat}
    (marked : (world.release call released).marks.cell id = some (.processed, last)) :
    world.marks.cell id = some (.processed, last) := by
  unfold World.release at marked
  split at marked
  · simp only [IdempotencyGuard.unmark, ExpiringStore.del_cell] at marked
    split at marked
    · cases marked
    · exact marked
  · exact marked

/-- A call that releases its lease. -/
theorem CallTurn.releases {world : World} {action : Action} {released : Bool} {phase : CallPhase}
    (quiet : Action.quiet action = true → QuietTurn world call { call with phase := phase }) :
    ∃ later, CallTurn world index call action
      ((world.release call released).moveTo index call phase) later := by
  refine ⟨{ call with phase := phase }, ?_, ⟨rfl, rfl, rfl, rfl⟩, fun id last marked => ?_, quiet⟩
  · rw [World.moveTo, (release_frame world call released).1]
  · exact .inl (marked_release marked)

/-- A provider answers. -/
theorem CallTurn.respond {world : World} {target provider : Nat} {response : Response}
    {delivered : List Text} (phase : call.phase = .sending provider) :
    ∃ later, CallTurn world index call (.respond target response)
      { world.moveTo index call (afterResponse call provider response) with delivered := delivered }
      later := by
  obtain ⟨carries, providers, open'⟩ := afterResponse_carries call provider response
  exact CallTurn.unmarked rfl ⟨rfl, rfl, rfl, rfl⟩ rfl fun _ => .goes phase carries providers open'

/-- The completion marker is written, or that fails. -/
theorem CallTurn.upgrade {world : World} {target : Nat} {ok : Bool}
    (upgrade : call.upgrade = true) :
    ∃ later, CallTurn world index call (.upgrade target ok)
      { world with
        calls := world.calls.set index { call with upgrade := false }
        marks := if ok then
            IdempotencyGuard.markProcessed world.marks world.now call.task IDEMPOTENCY_TTL_SECONDS
          else world.marks } later := by
  refine ⟨{ call with upgrade := false }, rfl, ⟨rfl, rfl, rfl, rfl⟩, fun id last marked => ?_,
    fun _ => .stays (fun _ => rfl) rfl (Or.imp_left fun _ => upgrade)⟩
  cases ok with
  | true =>
    simp only [if_true, IdempotencyGuard.markProcessed, ExpiringStore.set_cell] at marked
    split at marked
    next same => exact .inr ⟨same, upgrade⟩
    next => exact .inl marked
  | false => exact .inl marked

/-- Every step of a call is such a turn. -/
theorem callStep_turn {world after : World} {action : Action}
    (taken : callStep IDEMPOTENCY_TTL_SECONDS world index call action = some after) :
    ∃ later, CallTurn world index call action after later := by
  revert taken
  fun_cases callStep <;> intro taken <;> cases taken
  all_goals first
    | exact CallTurn.respond ‹_›
    | exact CallTurn.upgrade ‹_›
    | exact CallTurn.setLease ‹_›
    | exact CallTurn.retryLease ‹_›
    | exact CallTurn.unmarked rfl ⟨rfl, rfl, rfl, rfl⟩ rfl (QuietTurn.loud rfl)
    | exact CallTurn.releases (QuietTurn.loud rfl)
    | exact CallTurn.unmarked rfl ⟨rfl, rfl, rfl, rfl⟩ rfl fun _ =>
        .completed (fun _ => by simp [hold, *]) ‹_›
    | exact CallTurn.unmarked rfl ⟨rfl, rfl, rfl, rfl⟩ rfl fun _ =>
        .givesBack (fun _ => by simp [hold, *]) (by simp [started, *]) rfl rfl
    | exact CallTurn.unmarked rfl ⟨rfl, rfl, rfl, rfl⟩ rfl fun _ =>
        .stays (fun _ => by simp [hold, *]) (by simp [started, *]) (by simp [*])
    | exact CallTurn.releases fun _ =>
        .stays (fun _ => by simp [hold, *]) (by simp [started, *]) (by simp [*])

end Calls

/-- What an action about one call makes of what is to be seen. -/
structure PassTurn (world : LogWorld) (index : Nat) (call : Call) (pass : Pass) (after : LogWorld)
    (later : Call) (next : Pass) : Prop where
  calls : after.delivery.calls = world.delivery.calls.set index later
  passes : after.passes = world.passes.set index next
  keeps : call.Keeps later
  entry : next.entry = pass.entry
  payload : next.payload = pass.payload
  marks : ∀ id last, after.delivery.marks.cell id = some (.processed, last) →
    world.delivery.marks.cell id = some (.processed, last) ∨ id = call.task ∧ call.upgrade = true
  outbound : after.outbound = world.outbound ∨
    after.outbound = (world.leaveStream pass.entry).outbound
  scheduled : after.scheduledPayloads = world.scheduledPayloads ∨
    ∃ payload, payload.taskId = pass.payload.taskId ∧
      after.scheduledPayloads = (world.reschedule true payload).scheduledPayloads

/-- Every call serves an entry of its task. -/
def Owned (world : LogWorld) : Prop :=
  ∀ (index : Nat) (call : Call) (pass : Pass), world.delivery.calls[index]? = some call →
    world.passes[index]? = some pass → pass.payload.taskId = call.task ∧
      ∃ entry, world.outbound[pass.entry]? = some entry ∧ entry.payload = pass.payload

/-- An entry that leaves the stream stays where it was, with its payload. -/
theorem payloads_leaveStream (world : LogWorld) (position : Nat) :
    (world.leaveStream position).outbound.map Entry.payload = world.outbound.map Entry.payload := by
  refine List.ext_getElem? fun place => ?_
  simp only [LogWorld.leaveStream, List.getElem?_map, List.getElem?_modify]
  cases world.outbound[place]? with
  | none => rfl
  | some entry => by_cases here : position = place <;> simp [here]

/-- The workers are at a trip of the task. -/
structure Refines (tasks : Text → Sent) (task : Text) (state : TripWorld) (trip : Trip) : Prop where
  aligned : state.log.passes.length = state.log.delivery.calls.length
  owned : Owned state.log
  sound : Sound (tasks task) (state.log.board task) trip.stage
  marks : ∀ last, state.log.delivery.marks.cell task = some (.processed, last) → trip.stage = .ended
  passes : trip.passes = dispatchPasses state.log task
  entries : trip.entries = entriesOf state.log task
  deferrals : trip.deferrals = state.deferrals.count task
  ends : trip.ends = (state.ends.filter fun ended => ended.1 = task).map Prod.snd

/-- The entries keep their payloads. -/
theorem PassTurn.payloads (turn : PassTurn world index call pass after later next) :
    after.outbound.map Entry.payload = world.outbound.map Entry.payload := by
  rcases turn.outbound with same | leaves
  · rw [same]
  · rw [leaves]
    exact payloads_leaveStream world pass.entry

/-- The entries are as many as before. -/
theorem PassTurn.entriesOf (turn : PassTurn world index call pass after later next) :
    entriesOf after task = entriesOf world task := by
  have same := congrArg (List.map Payload.taskId) (turn.payloads)
  simp only [List.map_map] at same
  exact congrArg (List.count task) same

/-- An entry of another task leaves the stream. -/
theorem entry_leaveStream {position place : Nat} {entry row : Entry}
    (present : world.outbound[position]? = some entry) (other : entry.payload.taskId ≠ task) :
    (world.leaveStream position).outbound[place]? = some row ∧ row.payload.taskId = task ↔
      world.outbound[place]? = some row ∧ row.payload.taskId = task := by
  rw [LogWorld.leaveStream, List.getElem?_modify]
  by_cases here : position = place
  · subst here
    simp only [present, if_true, Option.map_eq_map, Option.map_some, Option.some.injEq]
    constructor
    · rintro ⟨rfl, same⟩
      exact absurd same other
    · rintro ⟨rfl, same⟩
      exact absurd same other
  · simp [here]

section Turns

variable (found : world.delivery.calls[index]? = some call) (there : world.passes[index]? = some pass)
  (turn : PassTurn world index call pass after later next)
include found there turn

/-- The board of the call's own task, while its entry stays. -/
theorem PassTurn.own_board (own : call.task = task) (stream : after.outbound = world.outbound) :
    after.board task =
      (world.board task).turn index later next (after.board task).parked := by
  refine Board.same (fun other both => ?_) (fun position entry => ?_) rfl
  · rw [Board.turn_calls, board_calls, board_calls, turn.calls, turn.passes, row_set found,
      row_set there]
    obtain ⟨call', pass'⟩ := both
    constructor
    · rintro ⟨⟨rfl, rfl⟩ | ⟨apart, found'⟩, ⟨same, isNext⟩ | ⟨apart', there'⟩, isTask⟩
      · exact .inl ⟨rfl, Prod.ext rfl isNext⟩
      · exact absurd rfl apart'
      · exact absurd same apart
      · exact .inr ⟨apart, found', there', isTask⟩
    · rintro (⟨rfl, both⟩ | ⟨apart, found', there', isTask⟩)
      · obtain ⟨rfl, rfl⟩ := Prod.mk.inj both
        exact ⟨.inl ⟨rfl, rfl⟩, .inl ⟨rfl, rfl⟩, turn.keeps.task.trans own⟩
      · exact ⟨.inr ⟨apart, found'⟩, .inr ⟨apart, there'⟩, isTask⟩
  · rw [board_entries, stream]
    exact board_entries.symm

/-- The boards of the other tasks. -/
theorem PassTurn.other_board (owned : Owned world) (other : call.task ≠ task) :
    after.board task = world.board task := by
  obtain ⟨isTask, entry, present, payload⟩ := owned index call pass found there
  refine Board.same (fun place both => ?_) (fun position found' => ?_) ?_
  · rw [board_calls, board_calls, turn.calls, turn.passes, row_set found, row_set there]
    obtain ⟨call', pass'⟩ := both
    constructor
    · rintro ⟨⟨rfl, rfl⟩ | ⟨apart, found'⟩, ⟨same, isNext⟩ | ⟨_, there'⟩, same'⟩
      · exact absurd (turn.keeps.task.symm.trans same') other
      · exact absurd (turn.keeps.task.symm.trans same') other
      · exact absurd same apart
      · exact ⟨found', there', same'⟩
    · rintro ⟨found', there', same'⟩
      have apart : place ≠ index := by
        rintro rfl
        obtain rfl := Option.some.inj (found.symm.trans found')
        exact other same'
      exact ⟨.inr ⟨apart, found'⟩, .inr ⟨apart, there'⟩, same'⟩
  · rw [board_entries, board_entries]
    rcases turn.outbound with same | leaves
    · rw [same]
    · have notOwn : entry.payload.taskId ≠ task := by
        rw [payload, isTask]
        exact other
      rw [leaves]
      exact entry_leaveStream present notOwn
  · rcases turn.scheduled with same | ⟨parked, own, same⟩
    · exact congrArg (List.filter _) same
    · have apart : parked.taskId ≠ task := fun same' => other (isTask.symm.trans (own.symm.trans same'))
      exact (congrArg (List.filter _) same).trans (parked_reschedule.trans (if_neg apart))

/-- Every call still serves an entry of its task. -/
theorem PassTurn.owned (owned : Owned world) : Owned after := by
  have kept : ∀ (position : Nat) (payload : Payload),
      (∃ entry, world.outbound[position]? = some entry ∧ entry.payload = payload) →
      ∃ entry, after.outbound[position]? = some entry ∧ entry.payload = payload := by
    rintro position payload ⟨entry, present, rfl⟩
    have same := congrArg (·[position]?) (turn.payloads)
    simp only [List.getElem?_map, present, Option.map_some] at same
    exact Option.map_eq_some_iff.mp same
  intro place call' pass' found' there'
  rw [turn.calls, row_set found] at found'
  rw [turn.passes, row_set there] at there'
  rcases found' with ⟨rfl, rfl⟩ | ⟨apart, found'⟩
  · rcases there' with ⟨_, rfl⟩ | ⟨apart, _⟩
    · obtain ⟨isTask, serves⟩ := owned place call pass found there
      rw [turn.payload, turn.keeps.task, turn.entry]
      exact ⟨isTask, kept _ _ serves⟩
    · exact absurd rfl apart
  · rcases there' with ⟨same, _⟩ | ⟨_, there'⟩
    · exact absurd same apart
    · obtain ⟨isTask, serves⟩ := owned place call' pass' found' there'
      exact ⟨isTask, kept _ _ serves⟩

/-- A pass counts once it has come to its providers. -/
theorem PassTurn.dispatchPasses (owned : Owned world) :
    dispatchPasses after task + (if call.task = task ∧ pass.dispatchStarted = true then 1 else 0) =
      dispatchPasses world task + if call.task = task ∧ next.dispatchStarted = true then 1 else 0 := by
  obtain ⟨isTask, _⟩ := owned index call pass found there
  obtain ⟨inside, isPass⟩ := List.getElem?_eq_some_iff.mp there
  have counted : 0 < world.passes.countP (fun pass => pass.payload.taskId = task &&
      pass.dispatchStarted) ∨ ¬ (call.task = task ∧ pass.dispatchStarted = true) := by
    by_cases own : call.task = task ∧ pass.dispatchStarted = true
    · exact .inl (List.countP_pos_iff.mpr ⟨pass, List.mem_of_getElem? there, by simp [isTask, own]⟩)
    · exact .inr own
  unfold Log.dispatchPasses
  rw [turn.passes, List.countP_set inside, isPass, turn.payload, isTask]
  simp only [Bool.and_eq_true, decide_eq_true_eq]
  by_cases before : call.task = task ∧ pass.dispatchStarted = true
  · rcases counted with positive | not
    · simp only [if_pos before]
      omega
    · exact absurd before not
  · simp only [if_neg before]
    omega

end Turns

section Moves

variable {state : TripWorld} {trip further : Trip} {deferrals : List Text}
  {ends : List (Text × End)}

/-- What happens to another task leaves the trip where it was. -/
theorem Refines.other (refines : Refines tasks task state trip)
    (found : state.log.delivery.calls[index]? = some call)
    (there : state.log.passes[index]? = some pass)
    (turn : PassTurn state.log index call pass after later next) (other : call.task ≠ task)
    (deferred : deferrals.count task = state.deferrals.count task)
    (ended : (ends.filter fun ended => ended.1 = task) =
      state.ends.filter fun ended => ended.1 = task) :
    Refines tasks task ⟨after, deferrals, ends⟩ trip where
  aligned := by simp [turn.calls, turn.passes, refines.aligned]
  owned := turn.owned found there refines.owned
  sound := turn.other_board found there refines.owned other ▸ refines.sound
  marks last marked := by
    rcases turn.marks task last marked with was | ⟨own, _⟩
    · exact refines.marks last was
    · exact absurd own.symm other
  passes := by
    have counted := @PassTurn.dispatchPasses task _ _ _ _ _ _ _ found there turn refines.owned
    simp only [other, false_and, if_false] at counted
    exact refines.passes.trans counted.symm
  entries := refines.entries.trans turn.entriesOf.symm
  deferrals := refines.deferrals.trans deferred.symm
  ends := refines.ends.trans (congrArg _ ended.symm)

/-- What a call of the task itself does, while it carries the task. -/
theorem Refines.turn (refines : Refines tasks task state trip)
    (found : state.log.delivery.calls[index]? = some call)
    (there : state.log.passes[index]? = some pass)
    (turn : PassTurn state.log index call pass after later next) (own : call.task = task)
    (stream : after.outbound = state.log.outbound)
    (carries : hold call.phase pass.nonRetryable = .carries)
    (turned : Turned (tasks task) index pass later next further.stage)
    (parked : (after.board task).parked = further.stage.parkedPayloads)
    (passes : further.passes + pass.dispatchStarted.toNat = trip.passes + next.dispatchStarted.toNat)
    (entries : further.entries = trip.entries)
    (deferred : further.deferrals = deferrals.count task)
    (ended : further.ends = (ends.filter fun ended => ended.1 = task).map Prod.snd) :
    Refines tasks task ⟨after, deferrals, ends⟩ further where
  aligned := by simp [turn.calls, turn.passes, refines.aligned]
  owned := turn.owned found there refines.owned
  sound := by
    rw [turn.own_board found there own stream, parked]
    have board : (state.log.board task).calls index = some (call, pass) :=
      board_calls.mpr ⟨found, there, own⟩
    exact refines.sound.turn board carries ⟨turn.keeps.attemptNo, turn.keeps.maxAttempts,
      turn.keeps.hasFallback, turn.entry, turn.payload⟩ turned
  marks last marked := by
    have board : (state.log.board task).calls index = some (call, pass) :=
      board_calls.mpr ⟨found, there, own⟩
    have running := refines.sound.running board carries
    rcases turn.marks task last marked with was | ⟨_, upgrade⟩
    · cases running.symm.trans (refines.marks last was)
    · cases running.symm.trans (refines.sound.closing index call pass board (.inl upgrade))
  passes := by
    have counted := @PassTurn.dispatchPasses task _ _ _ _ _ _ _ found there turn refines.owned
    have was := refines.passes
    show further.passes = dispatchPasses after task
    simp only [own, true_and] at counted
    cases before : pass.dispatchStarted <;> cases since : next.dispatchStarted <;>
      simp [before, since] at passes counted <;> omega
  entries := entries.trans (refines.entries.trans turn.entriesOf.symm)
  deferrals := deferred
  ends := ended

/-- A call of the task that does not carry it turns, and the trip stays where it was. -/
theorem Refines.rests (refines : Refines tasks task state trip)
    (found : state.log.delivery.calls[index]? = some call)
    (there : state.log.passes[index]? = some pass)
    (turn : PassTurn state.log index call pass after later next) (own : call.task = task)
    (stream : after.outbound = state.log.outbound)
    (scheduled : after.scheduledPayloads = state.log.scheduledPayloads)
    (same : hold later.phase next.nonRetryable = hold call.phase pass.nonRetryable)
    (rests : hold call.phase pass.nonRetryable ≠ .carries)
    (started : next.dispatchStarted = pass.dispatchStarted)
    (closing : later.upgrade = true ∨ later.phase = .settling false →
      call.upgrade = true ∨ call.phase = .settling false) :
    Refines tasks task { state with log := after } trip where
  aligned := by simp [turn.calls, turn.passes, refines.aligned]
  owned := turn.owned found there refines.owned
  sound := by
    have board : (state.log.board task).calls index = some (call, pass) :=
      board_calls.mpr ⟨found, there, own⟩
    have parked : (after.board task).parked = (state.log.board task).parked :=
      congrArg (List.filter _) scheduled
    rw [turn.own_board found there own stream, parked]
    exact refines.sound.rests board ⟨turn.keeps.attemptNo, turn.keeps.maxAttempts,
      turn.keeps.hasFallback, turn.entry, turn.payload⟩ same rests
      fun closes => refines.sound.closing index call pass board (closing closes)
  marks last marked := by
    rcases turn.marks task last marked with was | ⟨_, upgrade⟩
    · exact refines.marks last was
    · exact refines.sound.closing index call pass (board_calls.mpr ⟨found, there, own⟩) (.inl upgrade)
  passes := by
    have counted := @PassTurn.dispatchPasses task _ _ _ _ _ _ _ found there turn refines.owned
    rw [started] at counted
    exact refines.passes.trans (Nat.add_right_cancel counted).symm
  entries := refines.entries.trans turn.entriesOf.symm
  deferrals := refines.deferrals
  ends := refines.ends

/-- Nothing of the task is to be seen in a step. -/
theorem Refines.unseen (refines : Refines tasks task state trip)
    (calls : after.delivery.calls = state.log.delivery.calls)
    (marks : after.delivery.marks = state.log.delivery.marks)
    (passes : after.passes = state.log.passes) (outbound : after.outbound = state.log.outbound)
    (scheduled : after.scheduledPayloads = state.log.scheduledPayloads) :
    Refines tasks task { state with log := after } trip where
  aligned := by simp only [calls, passes, refines.aligned]
  owned := by simpa only [Owned, calls, passes, outbound] using refines.owned
  sound := by
    have same : after.board task = state.log.board task := by
      simp only [LogWorld.board, calls, passes, outbound, scheduled]
    exact same ▸ refines.sound
  marks last marked := refines.marks last (marks ▸ marked)
  passes := by simpa only [dispatchPasses, passes] using refines.passes
  entries := by simpa only [entriesOf, outbound] using refines.entries
  deferrals := refines.deferrals
  ends := refines.ends

/-- Where a step leads: to the trip as it was, or one move on. -/
def Leads (tasks : Text → Sent) (task : Text) (trip : Trip) (state : TripWorld) : Prop :=
  ∃ further, Refines tasks task state further ∧
    (further = trip ∨ TripMoves (tasks task) trip further)

/-- A step of a call of the task that only the call sees. -/
theorem Refines.quiet {delivery : World} {action : Action} {later : Call}
    (refines : Refines tasks task state trip)
    (found : state.log.delivery.calls[index]? = some call)
    (there : state.log.passes[index]? = some pass) (own : call.task = task)
    (isQuiet : Action.quiet action = true)
    (turn : CallTurn state.log.delivery index call action delivery later) :
    Leads tasks task trip { state with log := { state.log with delivery := delivery } } := by
  have board : (state.log.board task).calls index = some (call, pass) :=
    board_calls.mpr ⟨found, there, own⟩
  have passTurn : PassTurn state.log index call pass { state.log with delivery := delivery } later
      pass := ⟨turn.calls, (set_same there).symm, turn.keeps, rfl, rfl, turn.marks, .inl rfl, .inl rfl⟩
  have parked : (LogWorld.board { state.log with delivery := delivery } task).parked =
      trip.stage.parkedPayloads := refines.sound.parked
  cases turn.quiet isQuiet with
  | stays same providers closing =>
    by_cases carries : hold call.phase pass.nonRetryable = .carries
    · have running := refines.sound.running board carries
      have open' : ¬ (later.upgrade = true ∨ later.phase = .settling false) := fun closes => by
        cases running.symm.trans (refines.sound.closing index call pass board (closing closes))
      have started' : pass.dispatchStarted = started later.phase :=
        ((refines.sound.carried index call pass board).started carries).trans providers.symm
      have turned : Turned (tasks task) index pass later pass trip.stage := by
        rw [running]
        exact .carries ((same _).trans carries) started' open'
      exact ⟨trip, refines.turn found there passTurn own rfl carries turned parked rfl rfl
        refines.deferrals refines.ends, .inl rfl⟩
    · exact ⟨trip, refines.rests found there passTurn own rfl rfl (same _) carries rfl closing,
        .inl rfl⟩
  | givesBack carries early gone upgrade =>
    have running := refines.sound.running board (carries _)
    have early' : pass.dispatchStarted = false :=
      ((refines.sound.carried index call pass board).started (carries _)).trans early
    have open' : ¬ (later.upgrade = true ∨ later.phase = .settling false) := by
      rintro (closes | settling)
      · rw [upgrade] at closes
        cases running.symm.trans (refines.sound.closing index call pass board (.inl closes))
      · cases gone.symm.trans settling
    rw [early'] at running
    refine ⟨{ trip with stage := .waiting pass.entry pass.payload }, ?_,
      .inr (.givenBack pass.entry running)⟩
    refine refines.turn found there passTurn own rfl (carries _)
      (.givesBack (by rw [gone]; rfl) open') (parked.trans ?_) rfl rfl refines.deferrals refines.ends
    rw [running]
    rfl
  | completed carries marked =>
    have running := refines.sound.running board (carries _)
    obtain ⟨last, cell, _⟩ := ExpiringStore.get_eq_some.mp marked
    cases running.symm.trans (refines.marks last (own ▸ cell))

/-- The facts of a task one of whose calls carries it. -/
theorem Refines.running (refines : Refines tasks task state trip)
    (found : state.log.delivery.calls[index]? = some call)
    (there : state.log.passes[index]? = some pass) (own : call.task = task)
    (carries : hold call.phase pass.nonRetryable = .carries) :
    trip.stage = .running index pass.payload pass.dispatchStarted ∧
      pass.dispatchStarted = started call.phase ∧ call.upgrade = false ∧
      Carried (state.log.board task).entries call pass ∧ pass.payload.Of (tasks task) ∧
      (state.log.board task).parked = [] := by
  have board : (state.log.board task).calls index = some (call, pass) :=
    board_calls.mpr ⟨found, there, own⟩
  have running := refines.sound.running board carries
  have carried := refines.sound.carried index call pass board
  obtain ⟨entry, present, payload⟩ := carried.entry
  refine ⟨running, carried.started carries, ?_, carried, ?_, ?_⟩
  · cases upgrade : call.upgrade with
    | false => rfl
    | true => cases running.symm.trans (refines.sound.closing index call pass board (.inl upgrade))
  · exact payload ▸ refines.sound.sentEntries pass.entry entry present
  · rw [refines.sound.parked, running]
    rfl

/-- A call's step records nothing but of its own task. -/
theorem recorded_call {action : LogAction} (about : action.call = some index)
    (found : world.delivery.calls[index]? = some call) :
    (∀ deferred ∈ deferredBy world action, deferred = call.task) ∧
      ∀ ended ∈ endedBy tasks world action, ended.1 = call.task := by
  cases action with
  | gateEnds position ending =>
    obtain rfl := Option.some.inj about
    cases ending <;> simp [deferredBy, endedBy, found]
  | render position ok nonRetryable =>
    obtain rfl := Option.some.inj about
    cases ok <;> cases nonRetryable <;> simp [deferredBy, endedBy, found]
  | conclude position published =>
    obtain rfl := Option.some.inj about
    refine ⟨nofun, fun ended member => ?_⟩
    simp only [endedBy, found, Option.bind_eq_bind, Option.bind_some, Option.mem_def] at member
    split at member
    · obtain ⟨outcome, _, rfl⟩ := Option.map_eq_some_iff.mp member
      rfl
    · cases member
  | poison | dispatch | schedule | release | replay | take | quiet | store => cases about
  | _ => exact ⟨nofun, nofun⟩

/-- A step of a call of another task. -/
theorem Refines.elsewhere {action : LogAction} (refines : Refines tasks task state trip)
    (about : action.call = some index) (found : state.log.delivery.calls[index]? = some call)
    (there : state.log.passes[index]? = some pass)
    (turn : PassTurn state.log index call pass after later next) (other : call.task ≠ task) :
    Leads tasks task trip (state.recorded tasks action after) := by
  obtain ⟨defers, ends⟩ : (∀ deferred ∈ deferredBy state.log action, deferred = call.task) ∧
      ∀ ended ∈ endedBy tasks state.log action, ended.1 = call.task := recorded_call about found
  refine ⟨trip, refines.other found there turn other ?_ ?_, .inl rfl⟩
  · cases deferred : deferredBy state.log action with
    | none => rfl
    | some one =>
      obtain rfl := defers one deferred
      exact List.count_cons_of_ne other
  · cases ended : endedBy tasks state.log action with
    | none => rfl
    | some one =>
      have notOwn : one.1 ≠ task := ends one ended ▸ other
      simp [notOwn]

/-- Publishing an event changes nothing that is to be seen of a task. -/
theorem publish_frame (world : LogWorld) (published : Bool) (event : OutcomeEvent) :
    (world.publish published event).delivery = world.delivery ∧
      (world.publish published event).passes = world.passes ∧
      (world.publish published event).outbound = world.outbound ∧
      (world.publish published event).scheduledPayloads = world.scheduledPayloads := by
  unfold LogWorld.publish
  split <;> exact ⟨rfl, rfl, rfl, rfl⟩

/-- The dispatched entry of a pass changes only what the pass has logged. -/
theorem logDispatched_frame (published : Bool) (there : world.passes[index]? = some pass) :
    ∃ logged, (world.logDispatched published index call pass).passes = world.passes.set index
        { pass with dispatchLogged := logged } ∧
      (world.logDispatched published index call pass).delivery = world.delivery ∧
      (world.logDispatched published index call pass).outbound = world.outbound ∧
      (world.logDispatched published index call pass).scheduledPayloads =
        world.scheduledPayloads := by
  unfold LogWorld.logDispatched
  split
  · obtain ⟨delivery, _, outbound, scheduled⟩ :=
      publish_frame world published (eventOf call pass .dispatched)
    exact ⟨true, rfl, delivery, outbound, scheduled⟩
  · exact ⟨pass.dispatchLogged, (set_same there).symm, rfl, rfl, rfl⟩

/-- A call that is turned away at the gates, or for want of a provider, or that is deferred. -/
theorem Refines.gateEnds {position : Nat} {ending : GateEnd}
    (refines : Refines tasks task state trip)
    (found : state.log.delivery.calls[index]? = some call)
    (there : state.log.passes[index]? = some pass) (here : position = index)
    (taken : passStep IDEMPOTENCY_TTL_SECONDS state.log index call pass (.gateEnds position ending) =
      some after) :
    Leads tasks task trip (state.recorded tasks (.gateEnds position ending) after) := by
  subst here
  obtain ⟨delivery, gated, taken⟩ := Option.bind_eq_some_iff.mp taken
  obtain ⟨call', found', gated⟩ := step_of_call rfl gated
  obtain rfl := Option.some.inj (found.symm.trans found')
  obtain ⟨phase, same⟩ := Option.ite_none_right_eq_some.mp gated
  obtain rfl := Option.some.inj same
  have carries : hold call.phase pass.nonRetryable = .carries := by rw [phase]; rfl
  have ends : ending ≠ .deferred → ∀ {event : OutcomeEvent} {published : Bool},
      after = LogWorld.publish { state.log with
        delivery := state.log.delivery.moveTo position call (.returned true) } published event →
      Leads tasks task trip (state.recorded tasks (.gateEnds position ending) after) := by
    rintro turnedAway event published rfl
    obtain ⟨delivery, passes, outbound, scheduled⟩ := publish_frame { state.log with
      delivery := state.log.delivery.moveTo position call (.returned true) } published event
    have turn : PassTurn state.log position call pass _ { call with phase := .returned true } pass :=
      ⟨congrArg World.calls delivery, passes.trans (set_same there).symm, ⟨rfl, rfl, rfl, rfl⟩, rfl, rfl,
        fun _ _ marked => .inl (congrArg World.marks delivery ▸ marked), .inl outbound, .inl scheduled⟩
    by_cases own : call.task = task
    · obtain ⟨running, providers, upgrade, _, _, parked⟩ := refines.running found there own carries
      have record : endedBy tasks state.log (.gateEnds position ending) =
          some (call.task, fallbackToNextChannel (tasks call.task).fallbackChain) := by
        cases ending <;> simp_all [endedBy]
      have patient : deferredBy state.log (.gateEnds position ending) = none := by
        cases ending <;> simp_all [deferredBy]
      refine ⟨{ trip with
        stage := .ended
        ends := fallbackToNextChannel (tasks task).fallbackChain :: trip.ends }, ?_,
        .inr (.ends (by rw [running]; rfl) ends_fallback)⟩
      refine refines.turn found there turn own outbound carries (.ends rfl) ?_ rfl rfl ?_ ?_
      · exact (congrArg (List.filter _) scheduled).trans parked
      · simpa [patient] using refines.deferrals
      · simp [record, own, refines.ends]
    · exact refines.elsewhere rfl found there turn own
  cases ending with
  | noTransport =>
    obtain ⟨_, same⟩ := Option.ite_none_right_eq_some.mp taken
    exact ends nofun (Option.some.inj same).symm
  | providerThrottleExceeded =>
    obtain ⟨_, same⟩ := Option.ite_none_right_eq_some.mp taken
    exact ends nofun (Option.some.inj same).symm
  | deferred =>
    obtain ⟨patient, same⟩ := Option.ite_none_right_eq_some.mp taken
    obtain ⟨isTask, _⟩ := refines.owned position call pass found there
    have turn : PassTurn state.log position call pass after { call with phase := .returned true }
        pass := by
      obtain rfl := Option.some.inj same
      exact ⟨rfl, (set_same there).symm, ⟨rfl, rfl, rfl, rfl⟩, rfl, rfl,
        fun _ _ marked => .inl marked, .inl rfl, .inr ⟨{ pass.payload with
          throttleAttemptCount := pass.payload.throttleAttemptCount + 1 }, rfl, rfl⟩⟩
    obtain rfl := Option.some.inj same
    by_cases own : call.task = task
    · obtain ⟨running, providers, upgrade, _, sentAs, _⟩ := refines.running found there own carries
      have early : pass.dispatchStarted = false := by
        rw [providers, phase]
        rfl
      rw [early] at running
      refine ⟨_, ?_, .inr (.deferred running patient)⟩
      refine refines.turn found there turn own rfl carries (.parks rfl ⟨sentAs.1, sentAs.2⟩ ?_) ?_ rfl
        rfl ?_ refines.ends
      · rintro (closes | settling)
        · exact absurd (upgrade.symm.trans closes) nofun
        · cases settling
      · exact parked_reschedule.trans (if_pos (isTask.trans own))
      · simp [deferredBy, found, own, refines.deferrals]
    · exact refines.elsewhere rfl found there turn own

/-- A call that renders comes to its providers, or its template is gone, or it is caught. -/
theorem Refines.render {position : Nat} {ok nonRetryable : Bool}
    (refines : Refines tasks task state trip)
    (found : state.log.delivery.calls[index]? = some call)
    (there : state.log.passes[index]? = some pass) (here : position = index)
    (taken : passStep IDEMPOTENCY_TTL_SECONDS state.log index call pass
      (.render position ok nonRetryable) = some after) :
    Leads tasks task trip (state.recorded tasks (.render position ok nonRetryable) after) := by
  subst here
  obtain ⟨delivery, rendered, taken⟩ := Option.bind_eq_some_iff.mp taken
  obtain ⟨call', found', rendered⟩ := step_of_call rfl rendered
  obtain rfl := Option.some.inj (found.symm.trans found')
  obtain ⟨phase, same⟩ := Option.ite_none_right_eq_some.mp rendered
  obtain rfl := Option.some.inj same
  have carries : hold call.phase pass.nonRetryable = .carries := by rw [phase]; rfl
  have turn : PassTurn state.log position call pass after
      { call with phase := if ok then .dispatching call.startAt noTransports else .caught }
      { pass with dispatchStarted := ok, nonRetryable := !ok && nonRetryable } := by
    obtain rfl := Option.some.inj taken
    exact ⟨rfl, rfl, ⟨rfl, rfl, rfl, rfl⟩, rfl, rfl, fun _ _ marked => .inl marked, .inl rfl, .inl rfl⟩
  obtain rfl := Option.some.inj taken
  by_cases own : call.task = task
  · obtain ⟨running, providers, upgrade, _, _, parked⟩ := refines.running found there own carries
    have early : pass.dispatchStarted = false := by
      rw [providers, phase]
      rfl
    rw [early] at running
    have open' : ∀ {phase : CallPhase}, phase ≠ .settling false →
        ¬ (call.upgrade = true ∨ phase = .settling false) := by
      rintro phase going (closes | settling)
      · exact absurd (upgrade.symm.trans closes) nofun
      · exact going settling
    cases ok with
    | true =>
      refine ⟨_, ?_, .inr (.started running)⟩
      exact refines.turn found there turn own rfl carries (.carries rfl rfl (open' nofun)) parked
        (by simp [early]) rfl refines.deferrals refines.ends
    | false =>
      cases nonRetryable with
      | true =>
        refine ⟨_, ?_, .inr (.ends (by rw [running]; rfl) .failed)⟩
        refine refines.turn found there turn own rfl carries (.ends rfl) parked
          (by simp [early]) rfl refines.deferrals ?_
        simp [endedBy, found, own, refines.ends]
      | false =>
        refine ⟨trip, ?_, .inl rfl⟩
        refine refines.turn found there turn own rfl carries ?_ ?_ (by simp [early]) rfl
          refines.deferrals refines.ends
        · rw [running]
          exact .carries rfl rfl (open' nofun)
        · rw [running]
          exact parked
  · exact refines.elsewhere rfl found there turn own

/-- The timer of a call goes off. -/
theorem Refines.timer {position : Nat} {published : Bool} (refines : Refines tasks task state trip)
    (found : state.log.delivery.calls[index]? = some call)
    (there : state.log.passes[index]? = some pass) (here : position = index)
    (taken : passStep IDEMPOTENCY_TTL_SECONDS state.log index call pass (.timer position published) =
      some after) :
    Leads tasks task trip (state.recorded tasks (.timer position published) after) := by
  subst here
  have logs : (∀ nonRetryable, hold call.phase nonRetryable = .carries) ∧
      after = state.log.logDispatched published position call pass := by
    simp only [passStep] at taken
    split at taken
    next phase => exact ⟨fun _ => by rw [phase]; rfl, (Option.some.inj taken).symm⟩
    next phase => exact ⟨fun _ => by rw [phase]; rfl, (Option.some.inj taken).symm⟩
    next phase => exact ⟨fun _ => by rw [phase]; rfl, (Option.some.inj taken).symm⟩
    next => cases taken
  obtain ⟨carries, rfl⟩ := logs
  obtain ⟨logged, passes, delivery, outbound, scheduled⟩ :=
    @logDispatched_frame state.log position call pass published there
  have turn : PassTurn state.log position call pass _ call { pass with dispatchLogged := logged } :=
    ⟨(congrArg World.calls delivery).trans (set_same found).symm, passes, ⟨rfl, rfl, rfl, rfl⟩, rfl,
      rfl, fun _ _ marked => .inl (congrArg World.marks delivery ▸ marked), .inl outbound,
      .inl scheduled⟩
  by_cases own : call.task = task
  · obtain ⟨running, providers, upgrade, _, _, parked⟩ :=
      refines.running found there own (carries _)
    have board : (state.log.board task).calls position = some (call, pass) :=
      board_calls.mpr ⟨found, there, own⟩
    have open' : ¬ (call.upgrade = true ∨ call.phase = .settling false) := fun closes => by
      cases running.symm.trans (refines.sound.closing position call pass board closes)
    refine ⟨trip, ?_, .inl rfl⟩
    refine refines.turn found there turn own outbound (carries _) ?_ ?_ rfl rfl refines.deferrals
      refines.ends
    · rw [running]
      exact .carries (carries _) providers open'
    · rw [running]
      exact (congrArg (List.filter _) scheduled).trans parked
  · exact refines.elsewhere rfl found there turn own

/-- A result without an outcome is tried again later. -/
theorem retries_of_outcomeOf {result : Response} (none : outcomeOf call result = none) :
    retriesLater call result = true ∧ afterEffects call result = .settling true := by
  grind [outcomeOf, afterEffects]

/-- Past the effects of an outcome a call has come to the end of its task. -/
theorem hold_afterEffects (call : Call) (result : Response) :
    hold (afterEffects call result) (afterEffects call result = .caught) = .ended := by
  rcases afterEffects_cases call result with ⟨retry, same⟩ | same <;> rw [same] <;> rfl

/-- A call comes to the effects of its result: the task ends, or is parked again. -/
theorem Refines.conclude {position : Nat} {published : Bool}
    (refines : Refines tasks task state trip)
    (found : state.log.delivery.calls[index]? = some call)
    (there : state.log.passes[index]? = some pass) (here : position = index)
    (taken : passStep IDEMPOTENCY_TTL_SECONDS state.log index call pass
      (.conclude position published) = some after) :
    Leads tasks task trip (state.recorded tasks (.conclude position published) after) := by
  subst here
  simp only [passStep] at taken
  split at taken
  next result phase =>
    obtain ⟨delivery, concluded, taken⟩ := Option.bind_eq_some_iff.mp taken
    obtain ⟨call', found', concluded⟩ := step_of_call rfl concluded
    obtain rfl := Option.some.inj (found.symm.trans found')
    simp only [callStep, phase, Option.some.injEq] at concluded
    subst concluded
    have carries : hold call.phase pass.nonRetryable = .carries := by rw [phase]; rfl
    obtain ⟨isTask, _⟩ := refines.owned position call pass found there
    cases outcome : outcomeOf call result with
    | some how =>
      simp only [outcome] at taken
      obtain ⟨delivery, _, outbound, scheduled⟩ := publish_frame { state.log with
        delivery := state.log.delivery.moveTo position call (afterEffects call result) } published
        (eventOf call pass how)
      have turn : PassTurn state.log position call pass after
          { call with phase := afterEffects call result }
          { pass with dispatchLogged := true, nonRetryable := afterEffects call result = .caught } := by
        obtain rfl := Option.some.inj taken
        exact ⟨congrArg World.calls delivery, rfl, ⟨rfl, rfl, rfl, rfl⟩, rfl, rfl,
          fun _ _ marked => .inl (congrArg World.marks delivery ▸ marked), .inl outbound,
          .inl scheduled⟩
      obtain rfl := Option.some.inj taken
      by_cases own : call.task = task
      · obtain ⟨running, _, _, _, _, parked⟩ := refines.running found there own carries
        have record : endedBy tasks state.log (.conclude position published) =
            some (task, if how = .delivered then .delivered
              else fallbackToNextChannel (tasks task).fallbackChain) := by
          simp [endedBy, found, phase, outcome, own]
        have way : Ends (tasks task) (if how = .delivered then .delivered
            else fallbackToNextChannel (tasks task).fallbackChain) := by
          split
          · exact .delivered
          · exact ends_fallback
        refine ⟨_, ?_, .inr (.ends (by rw [running]; rfl) way)⟩
        refine refines.turn found there turn own outbound carries
          (.ends (hold_afterEffects call result)) ?_ rfl rfl refines.deferrals ?_
        · exact (congrArg (List.filter _) scheduled).trans parked
        · simp [record, refines.ends]
      · exact refines.elsewhere rfl found there turn own
    | none =>
      simp only [outcome] at taken
      obtain ⟨retries, settling⟩ := retries_of_outcomeOf outcome
      obtain ⟨logged, passes, delivery, outbound, scheduled⟩ := @logDispatched_frame
        (LogWorld.reschedule { state.log with
          delivery := state.log.delivery.moveTo position call (afterEffects call result) } true
          { pass.payload with deliveryAttemptCount := call.attemptNo }) position call pass published
        there
      have turn : PassTurn state.log position call pass after { call with phase := .settling true }
          { pass with dispatchLogged := logged } := by
        obtain rfl := Option.some.inj taken
        refine ⟨(congrArg World.calls delivery).trans ?_, passes, ⟨rfl, rfl, rfl, rfl⟩, rfl, rfl,
          fun _ _ marked => .inl (congrArg World.marks delivery ▸ marked), .inl outbound,
          .inr ⟨{ pass.payload with deliveryAttemptCount := call.attemptNo }, rfl, scheduled⟩⟩
        exact congrArg (fun phase => state.log.delivery.calls.set position { call with phase }) settling
      obtain rfl := Option.some.inj taken
      by_cases own : call.task = task
      · obtain ⟨running, _, upgrade, carried, sentAs, _⟩ := refines.running found there own carries
        have left : call.attemptNo < (tasks task).maxAttempts.1 := by
          simp only [retriesLater, Bool.and_eq_true, decide_eq_true_eq] at retries
          rw [← sentAs.maxAttempts, ← carried.maxAttempts]
          exact retries.2
        refine ⟨_, ?_, .inr (.retried running carried.counted left)⟩
        refine refines.turn found there turn own outbound carries
          (.parks rfl ⟨sentAs.1, sentAs.2⟩ ?_) ?_ rfl rfl refines.deferrals ?_
        · rintro (closes | closes)
          · exact absurd (upgrade.symm.trans closes) (by rintro ⟨⟩)
          · cases closes
        · exact (congrArg (List.filter _) scheduled).trans
            (parked_reschedule.trans (if_pos (isTask.trans own)))
        · simp [endedBy, found, phase, outcome, refines.ends]
      · exact refines.elsewhere rfl found there turn own
  next => cases taken

/-- A call leaves its `catch` block: what it rethrows is for the dead letters, or the entry is left
to be delivered again. -/
theorem Refines.leave {position : Nat} {released published : Bool}
    (refines : Refines tasks task state trip)
    (found : state.log.delivery.calls[index]? = some call)
    (there : state.log.passes[index]? = some pass) (here : position = index)
    (taken : passStep IDEMPOTENCY_TTL_SECONDS state.log index call pass
      (.leave position released published) = some after) :
    Leads tasks task trip (state.recorded tasks (.leave position released published) after) := by
  subst here
  obtain ⟨delivery, left, taken⟩ := Option.bind_eq_some_iff.mp taken
  obtain ⟨call', found', left⟩ := step_of_call rfl left
  obtain rfl := Option.some.inj (found.symm.trans found')
  obtain ⟨phase, same⟩ := Option.ite_none_right_eq_some.mp left
  obtain rfl := Option.some.inj same
  obtain ⟨logged, passes, delivery, outbound, scheduled⟩ := @logDispatched_frame
    { state.log with
      delivery := (state.log.delivery.release call released).moveTo position call .threw }
    position call pass published there
  have turn : PassTurn state.log position call pass after { call with phase := .threw }
      { pass with dispatchLogged := logged } := by
    obtain rfl := Option.some.inj taken
    refine ⟨(congrArg World.calls delivery).trans ?_, passes, ⟨rfl, rfl, rfl, rfl⟩, rfl, rfl,
      fun _ _ marked => .inl (marked_release (congrArg World.marks delivery ▸ marked)), .inl outbound,
      .inl scheduled⟩
    rw [World.moveTo, (release_frame state.log.delivery call released).1]
  obtain rfl := Option.some.inj taken
  by_cases own : call.task = task
  · cases dead : pass.nonRetryable with
    | true =>
      refine ⟨trip, ?_, .inl rfl⟩
      refine refines.rests found there turn own outbound scheduled ?_ ?_ rfl (Or.imp_right nofun)
      · rw [phase]
        simp [hold, dead]
      · rw [phase]
        simp [hold, dead]
    | false =>
      have carries : hold call.phase pass.nonRetryable = .carries := by rw [phase, dead]; rfl
      obtain ⟨running, providers, upgrade, _, _, parked⟩ :=
        refines.running found there own carries
      have early : pass.dispatchStarted = false := by
        rw [providers, phase]
        rfl
      rw [early] at running
      refine ⟨_, ?_, .inr (.givenBack pass.entry running)⟩
      refine refines.turn found there turn own outbound carries (.givesBack ?_ ?_) ?_ rfl rfl
        refines.deferrals refines.ends
      · simp [hold, dead]
      · rintro (closes | closes)
        · exact absurd (upgrade.symm.trans closes) nofun
        · cases closes
      · exact (congrArg (List.filter _) scheduled).trans parked
  · exact refines.elsewhere rfl found there turn own

/-- The board of a task one of whose entries leaves the stream. -/
theorem leaveStream_board {position : Nat} {entry : Entry}
    (present : world.outbound[position]? = some entry) (isTask : entry.payload.taskId = task)
    (calls : after.delivery.calls = world.delivery.calls) (passes : after.passes = world.passes)
    (outbound : after.outbound = (world.leaveStream position).outbound)
    (scheduled : after.scheduledPayloads = world.scheduledPayloads) :
    after.board task = (world.board task).post position { entry with live := false }
      (world.board task).parked := by
  refine Board.same (fun other both => ?_) (fun other found => ?_)
    (congrArg (List.filter _) scheduled)
  · rw [board_calls, calls, passes]
    exact board_calls.symm
  · rw [board_entries, Board.post_entries, board_entries, outbound, LogWorld.leaveStream,
      List.getElem?_modify]
    by_cases here : other = position
    · subst here
      simp only [present, if_true, Option.map_eq_map, Option.map_some, Option.some.injEq, true_and,
        ne_eq, not_true_eq_false, false_and, or_false]
      constructor
      · exact fun both => both.1.symm
      · rintro rfl
        exact ⟨rfl, isTask⟩
    · simp [here, Ne.symm here]

/-- The entry of a call that has come to an end leaves the stream. -/
theorem Refines.drops (refines : Refines tasks task state trip)
    (found : state.log.delivery.calls[index]? = some call)
    (there : state.log.passes[index]? = some pass) (own : call.task = task)
    (isOver : hold call.phase pass.nonRetryable = .ended)
    (calls : after.delivery = state.log.delivery) (passes : after.passes = state.log.passes)
    (outbound : after.outbound = (state.log.leaveStream pass.entry).outbound)
    (scheduled : after.scheduledPayloads = state.log.scheduledPayloads) :
    Refines tasks task { state with log := after } trip := by
  have turn : PassTurn state.log index call pass after call pass :=
    ⟨calls ▸ (set_same found).symm, passes.trans (set_same there).symm, ⟨rfl, rfl, rfl, rfl⟩, rfl, rfl,
      fun _ _ marked => .inl (calls ▸ marked), .inr outbound, .inl scheduled⟩
  have board : (state.log.board task).calls index = some (call, pass) :=
    board_calls.mpr ⟨found, there, own⟩
  obtain ⟨entry, present, _⟩ := (refines.sound.carried index call pass board).entry
  obtain ⟨inStream, isTask⟩ := board_entries.mp present
  have same := leaveStream_board inStream isTask (congrArg World.calls calls) passes outbound scheduled
  have nobody : ∀ other call' pass', (state.log.board task).calls other = some (call', pass') →
      pass'.entry = pass.entry → hold call'.phase pass'.nonRetryable ≠ .carries := by
    intro other call' pass' there' entries carries
    have apart : index ≠ other := by
      rintro rfl
      obtain ⟨rfl, rfl⟩ := Prod.mk.inj (Option.some.inj (board.symm.trans there'))
      cases isOver.symm.trans carries
    have gaveBack := refines.sound.alone other call' pass' there' carries index apart call pass board
      entries.symm
    cases isOver.symm.trans gaveBack
  have elsewhere : ∀ payload, trip.stage ≠ .waiting pass.entry payload := by
    intro payload waiting
    obtain ⟨_, _, _, _, idle⟩ := (refines.sound.waits pass.entry payload).mpr waiting
    cases isOver.symm.trans (idle index call pass board rfl)
  refine ⟨?_, turn.owned found there refines.owned, ?_, fun last marked =>
    refines.marks last (calls ▸ marked), ?_, refines.entries.trans turn.entriesOf.symm,
    refines.deferrals, refines.ends⟩
  · simp only [calls, passes, refines.aligned]
  · rw [same]
    refine refines.sound.drops present nobody rfl (fun other payload => ⟨fun waiting => ⟨waiting, ?_⟩,
      And.left⟩) (fun _ _ _ => Iff.rfl) (fun unknown => ?_) id
    · rintro rfl
      exact elsewhere payload waiting
    · cases (refines.sound.fresh unknown pass.entry).symm.trans present
  · simpa only [dispatchPasses, passes] using refines.passes

end Moves

section Entries

variable {state : TripWorld} {trip : Trip} {payload : Payload} {position : Nat}

/-- Calls keep the entries they serve where the stream grows. -/
theorem Owned.appended (owned : Owned world) {entry : Entry}
    (calls : after.delivery.calls = world.delivery.calls) (passes : after.passes = world.passes)
    (outbound : after.outbound = world.outbound ++ [entry]) : Owned after := by
  intro index call pass found there
  rw [calls] at found
  rw [passes] at there
  obtain ⟨isTask, served, present, payload⟩ := owned index call pass found there
  exact ⟨isTask, served, outbound ▸ row_append.mpr (.inl present), payload⟩

/-- Another task enters the stream. -/
theorem Refines.posts_other (refines : Refines tasks task state trip)
    (other : payload.taskId ≠ task) (delivery : after.delivery = state.log.delivery)
    (passes : after.passes = state.log.passes)
    (outbound : after.outbound = state.log.outbound ++ [{ payload := payload }])
    (parked : (after.board task).parked = (state.log.board task).parked) :
    Refines tasks task { state with log := after } trip where
  aligned := by simp only [delivery, passes, refines.aligned]
  owned := refines.owned.appended (congrArg World.calls delivery) passes outbound
  sound := by
    have same : after.board task = state.log.board task := by
      refine Board.same (fun index both => ?_) (fun place entry => ?_) parked
      · rw [board_calls, board_calls, delivery, passes]
      · rw [board_entries, board_entries, outbound, row_append]
        constructor
        · rintro ⟨old | ⟨_, rfl⟩, isTask⟩
          · exact ⟨old, isTask⟩
          · exact absurd isTask other
        · exact fun both => ⟨.inl both.1, both.2⟩
    exact same ▸ refines.sound
  marks last marked := refines.marks last (delivery ▸ marked)
  passes := by simpa only [dispatchPasses, passes] using refines.passes
  entries := by simpa [entriesOf, outbound, other] using refines.entries
  deferrals := refines.deferrals
  ends := refines.ends

/-- The task enters the stream. -/
theorem Refines.posts_own (refines : Refines tasks task state trip) (own : payload.taskId = task)
    (still : trip.stage = .unknown ∨ ∃ parked, trip.stage = .parked parked)
    (sentAs : payload.Of (tasks task)) (delivery : after.delivery = state.log.delivery)
    (passes : after.passes = state.log.passes)
    (outbound : after.outbound = state.log.outbound ++ [{ payload := payload }])
    (parked : (after.board task).parked = []) :
    Refines tasks task { state with log := after } { trip with
      stage := .waiting state.log.outbound.length payload
      entries := trip.entries + 1 } where
  aligned := by simp only [delivery, passes, refines.aligned]
  owned := refines.owned.appended (congrArg World.calls delivery) passes outbound
  sound := by
    have absent : (state.log.board task).entries state.log.outbound.length = none := by
      simp [LogWorld.board]
    have same : after.board task =
        (state.log.board task).post state.log.outbound.length { payload := payload } [] := by
      refine Board.same (fun index both => ?_) (fun place entry => ?_) parked
      · rw [board_calls, delivery, passes]
        exact board_calls.symm
      · rw [board_entries, Board.post_entries, board_entries, outbound, row_append]
        constructor
        · rintro ⟨old | ⟨here, rfl⟩, isTask⟩
          · refine .inr ⟨?_, old, isTask⟩
            rintro rfl
            exact absurd (List.getElem?_eq_some_iff.mp old).1 (Nat.lt_irrefl _)
          · exact .inl ⟨here, rfl⟩
        · rintro (⟨here, rfl⟩ | ⟨_, old, isTask⟩)
          · exact ⟨.inr ⟨here, rfl⟩, own⟩
          · exact ⟨.inl old, isTask⟩
    exact same ▸ refines.sound.enters absent still sentAs
  marks last marked := by
    have ended := refines.marks last (delivery ▸ marked)
    rcases still with unknown | ⟨parked, waiting⟩
    · cases ended.symm.trans unknown
    · cases ended.symm.trans waiting
  passes := by simpa only [dispatchPasses, passes] using refines.passes
  entries := by simp [entriesOf, outbound, own, refines.entries]
  deferrals := refines.deferrals
  ends := refines.ends

/-- The task is released from its parking. -/
theorem Refines.release {kept : Bool} (refines : Refines tasks task state trip)
    (orderly : Orderly tasks task state (.release position kept))
    (taken : step IDEMPOTENCY_TTL_SECONDS state.log (.release position kept) = some after) :
    Leads tasks task trip (state.recorded tasks (.release position kept) after) := by
  obtain ⟨payload, present, same⟩ := Option.bind_eq_some_iff.mp taken
  obtain ⟨before, rest, table, erased⟩ := split_at present
  by_cases own : payload.taskId = task
  · obtain rfl : kept = false := orderly payload present own
    have parked := refines.sound.parked
    simp only [LogWorld.board, table, List.filter_append, List.filter_cons, own, decide_true,
      if_true] at parked
    have stage : trip.stage = .parked payload ∧
        before.filter (fun one => one.taskId = task) = [] ∧
        rest.filter (fun one => one.taskId = task) = [] := by
      cases stage : trip.stage with
      | parked other => 
        rw [stage] at parked
        have length := congrArg List.length parked
        simp only [List.length_append, List.length_cons, Stage.parkedPayloads, List.length_nil] at length
        have noneBefore : before.filter (fun one => one.taskId = task) = [] :=
          List.eq_nil_of_length_eq_zero (by omega)
        have noneAfter : rest.filter (fun one => one.taskId = task) = [] :=
          List.eq_nil_of_length_eq_zero (by omega)
        rw [noneBefore, noneAfter] at parked
        obtain rfl := (List.cons.inj parked).1
        exact ⟨rfl, noneBefore, noneAfter⟩
      | _ =>
        rw [stage] at parked
        simp [Stage.parkedPayloads] at parked
    obtain ⟨waiting, noneBefore, noneAfter⟩ := stage
    have sentAs : payload.Of (tasks task) := by
      refine refines.sound.sentParked payload ?_
      rw [refines.sound.parked, waiting]
      exact List.mem_singleton_self payload
    refine ⟨_, ?_, .inr (.released state.log.outbound.length waiting)⟩
    obtain rfl := Option.some.inj same
    refine refines.posts_own own (.inr ⟨payload, waiting⟩) sentAs rfl rfl rfl ?_
    simp [LogWorld.board, erased, noneBefore, noneAfter]
  · refine ⟨trip, ?_, .inl rfl⟩
    obtain rfl := Option.some.inj same
    refine refines.posts_other own rfl rfl rfl ?_
    cases kept with
    | true => rfl
    | false =>
      simp only [LogWorld.board, Bool.false_eq_true, if_false, erased]
      simp [table, own]

/-- A task that is not known has not begun. -/
theorem Refines.unknown (refines : Refines tasks task state trip)
    (bounded : Bounded (tasks task) trip) (unknown : ¬ Known state.log task) :
    trip.stage = .unknown := by
  have noEntry : trip.entries = 0 := by
    rw [refines.entries]
    refine List.count_eq_zero.mpr fun listed => ?_
    obtain ⟨entry, member, isTask⟩ := List.mem_map.mp listed
    exact unknown (.inl ⟨entry, member, isTask⟩)
  cases stage : trip.stage with
  | unknown => rfl
  | parked payload =>
    have listed : payload ∈ (state.log.board task).parked := by
      rw [refines.sound.parked, stage]
      exact List.mem_singleton_self payload
    obtain ⟨member, isTask⟩ := List.mem_filter.mp listed
    exact absurd (.inr ⟨payload, member, of_decide_eq_true isTask⟩) unknown
  | waiting position payload =>
    have one := (bounded.going (by rw [stage]; rfl)).1
    omega
  | running index payload dispatchStarted =>
    have one := (bounded.going (by rw [stage]; rfl)).1
    omega
  | ended =>
    simp only [Bounded, stage] at bounded
    omega

/-- A task is dispatched. -/
theorem Refines.dispatch (refines : Refines tasks task state trip)
    (bounded : Bounded (tasks task) trip) (orderly : Orderly tasks task state (.dispatch payload))
    (taken : step IDEMPOTENCY_TTL_SECONDS state.log (.dispatch payload) = some after) :
    Leads tasks task trip (state.recorded tasks (.dispatch payload) after) := by
  obtain ⟨⟨attempts, throttled⟩, same⟩ := Option.ite_none_right_eq_some.mp taken
  by_cases own : payload.taskId = task
  · obtain ⟨unknown, sentAs⟩ := orderly own
    have stage := refines.unknown bounded unknown
    have parked : (state.log.board task).parked = [] := by
      rw [refines.sound.parked, stage]
      rfl
    refine ⟨_, ?_, .inr (.dispatched state.log.outbound.length stage attempts throttled)⟩
    obtain rfl := Option.some.inj same
    exact refines.posts_own own (.inl stage) sentAs rfl rfl rfl parked
  · refine ⟨trip, ?_, .inl rfl⟩
    obtain rfl := Option.some.inj same
    exact refines.posts_other own rfl rfl rfl rfl

/-- A task is scheduled. -/
theorem Refines.schedule (refines : Refines tasks task state trip)
    (bounded : Bounded (tasks task) trip) (orderly : Orderly tasks task state (.schedule payload))
    (taken : step IDEMPOTENCY_TTL_SECONDS state.log (.schedule payload) = some after) :
    Leads tasks task trip (state.recorded tasks (.schedule payload) after) := by
  obtain ⟨⟨attempts, throttled, _⟩, same⟩ := Option.ite_none_right_eq_some.mp taken
  by_cases own : payload.taskId = task
  · obtain ⟨unknown, sentAs⟩ := orderly own
    have stage := refines.unknown bounded unknown
    have sound := refines.sound
    rw [stage] at sound
    have board : after.board task = { state.log.board task with parked := [payload] } := by
      obtain rfl := Option.some.inj same
      have parked := sound.parked
      simp only [LogWorld.board] at parked
      simp [LogWorld.board, parked, own, Stage.parkedPayloads]
    refine ⟨_, ?_, .inr (.scheduled stage attempts throttled)⟩
    obtain rfl := Option.some.inj same
    exact ⟨refines.aligned, refines.owned, board ▸ sound.parks sentAs,
      fun last marked => absurd (stage.symm.trans (refines.marks last marked)) nofun, refines.passes,
      refines.entries, refines.deferrals, refines.ends⟩
  · refine ⟨trip, ?_, .inl rfl⟩
    have board : after.board task = state.log.board task := by
      obtain rfl := Option.some.inj same
      simp [LogWorld.board, own]
    obtain rfl := Option.some.inj same
    exact ⟨refines.aligned, refines.owned, board ▸ refines.sound, refines.marks, refines.passes,
      refines.entries, refines.deferrals, refines.ends⟩

/-- A dead letter of another task is put back. -/
theorem Refines.replay {kept : Bool} (refines : Refines tasks task state trip)
    (orderly : Orderly tasks task state (.replay position kept))
    (taken : step IDEMPOTENCY_TTL_SECONDS state.log (.replay position kept) = some after) :
    Leads tasks task trip (state.recorded tasks (.replay position kept) after) := by
  obtain ⟨payload, present, same⟩ := Option.bind_eq_some_iff.mp taken
  refine ⟨trip, ?_, .inl rfl⟩
  obtain rfl := Option.some.inj same
  exact refines.posts_other (orderly payload present) rfl rfl rfl rfl

/-- Where whoever took an entry has given it back, its board says so. -/
theorem GivenBack.idle (givenBack : GivenBack world task position) :
    (world.board task).Idle position := by
  intro index call pass found here
  obtain ⟨isCall, isPass, isTask⟩ := board_calls.mp found
  exact givenBack (call, pass) (List.mem_of_getElem? (List.getElem?_zip_eq_some.mpr ⟨isCall, isPass⟩))
    isTask here

/-- An entry is a poison pill: its task has failed. -/
theorem Refines.poison (refines : Refines tasks task state trip)
    (orderly : Orderly tasks task state (.poison position))
    (taken : step IDEMPOTENCY_TTL_SECONDS state.log (.poison position) = some after) :
    Leads tasks task trip (state.recorded tasks (.poison position) after) := by
  obtain ⟨entry, present, taken⟩ := Option.bind_eq_some_iff.mp taken
  obtain ⟨⟨live, _⟩, same⟩ := Option.ite_none_right_eq_some.mp taken
  have owned : Owned after := by
    obtain rfl := Option.some.inj same
    intro index call pass found there
    obtain ⟨isTask, served, inStream, payload⟩ := refines.owned index call pass found there
    have kept := congrArg (·[pass.entry]?) (payloads_leaveStream state.log position)
    simp only [List.getElem?_map, inStream, Option.map_some] at kept
    obtain ⟨one, found', same⟩ := Option.map_eq_some_iff.mp kept
    exact ⟨isTask, one, found', same.trans payload⟩
  have entries : entriesOf after task = entriesOf state.log task := by
    obtain rfl := Option.some.inj same
    have kept := congrArg (List.map Payload.taskId) (payloads_leaveStream state.log position)
    simp only [List.map_map] at kept
    exact congrArg (List.count task) kept
  by_cases own : entry.payload.taskId = task
  · have idle : (state.log.board task).Idle position := (orderly entry present own).idle
    have board : (state.log.board task).entries position = some entry :=
      board_entries.mpr ⟨present, own⟩
    have stage := (refines.sound.waits position entry.payload).mp ⟨entry, board, live, rfl, idle⟩
    refine ⟨_, ?_, .inr (.ends (by rw [stage]; rfl) .failed)⟩
    have same' : after.board task = (state.log.board task).post position { entry with live := false }
        (state.log.board task).parked := by
      obtain rfl := Option.some.inj same
      exact leaveStream_board present own rfl rfl rfl rfl
    obtain rfl := Option.some.inj same
    refine ⟨refines.aligned, owned, ?_, fun last marked => ?_, refines.passes,
      refines.entries.trans entries.symm, refines.deferrals, ?_⟩
    · refine same' ▸ refines.sound.drops board (fun index call pass found here carries => ?_) ?_ ?_ ?_
        nofun fun _ => rfl
      · cases carries.symm.trans (idle index call pass found here)
      · rw [stage]
        rfl
      · simp +contextual [stage, eq_comm]
      · simp [stage]
    · rfl
    · simp [TripWorld.recorded, endedBy, present, own, refines.ends]
  · refine ⟨trip, ?_, .inl rfl⟩
    have same' : after.board task = state.log.board task := by
      obtain rfl := Option.some.inj same
      refine Board.same (fun index both => Iff.rfl) (fun place row => ?_) rfl
      rw [board_entries, board_entries]
      exact entry_leaveStream present own
    obtain rfl := Option.some.inj same
    refine ⟨refines.aligned, owned, same' ▸ refines.sound, refines.marks, refines.passes,
      refines.entries.trans entries.symm, refines.deferrals, ?_⟩
    simp [TripWorld.recorded, endedBy, present, own, refines.ends]

/-- The call that takes an entry. -/
def takingCall (entry : Entry) (transports : Nat) : Call where
  task := entry.payload.taskId
  isPush := entry.payload.channel = .push
  attemptNo := entry.payload.deliveryAttemptCount + (entry.deliveryCount + 1)
  maxAttempts := entry.payload.maxAttempts
  transports := transports
  hasFallback := entry.payload.hasFallback

/-- What taking an entry leaves. -/
structure Taken (world : LogWorld) (position transports : Nat) (entry : Entry) (after : LogWorld) :
    Prop where
  calls : after.delivery.calls = world.delivery.calls ++ [takingCall entry transports]
  marks : after.delivery.marks = world.delivery.marks
  passes : after.passes = world.passes ++ [{ entry := position, payload := entry.payload }]
  outbound : after.outbound =
    world.outbound.set position { entry with deliveryCount := entry.deliveryCount + 1 }
  scheduled : after.scheduledPayloads = world.scheduledPayloads

section Taken

variable {transports : Nat} {entry : Entry} (taken : Taken world position transports entry after)
include taken

/-- No pass has come to its providers by being taken. -/
theorem Taken.dispatchPasses : dispatchPasses after task = dispatchPasses world task := by
  simp [Log.dispatchPasses, taken.passes]

/-- The calls and their passes go on together. -/
theorem Taken.rows (aligned : world.passes.length = world.delivery.calls.length) :
    after.delivery.calls[index]? = some call ∧ after.passes[index]? = some pass ↔
      (index = world.delivery.calls.length ∧ call = takingCall entry transports ∧
        pass = { entry := position, payload := entry.payload }) ∨
      world.delivery.calls[index]? = some call ∧ world.passes[index]? = some pass := by
  rw [taken.calls, taken.passes, row_append, row_append]
  constructor
  · rintro ⟨old | ⟨here, rfl⟩, there⟩
    · have inside := (List.getElem?_eq_some_iff.mp old).1
      rcases there with there | ⟨here, _⟩
      · exact .inr ⟨old, there⟩
      · omega
    · rcases there with there | ⟨_, rfl⟩
      · have inside := (List.getElem?_eq_some_iff.mp there).1
        omega
      · exact .inl ⟨here, rfl, rfl⟩
  · rintro (⟨here, rfl, rfl⟩ | ⟨old, there⟩)
    · exact ⟨.inr ⟨here, rfl⟩, .inr ⟨by omega, rfl⟩⟩
    · exact ⟨.inl old, .inl there⟩

variable (present : world.outbound[position]? = some entry)
include present

/-- The entries keep their payloads. -/
theorem Taken.payloads : after.outbound.map Entry.payload = world.outbound.map Entry.payload := by
  obtain ⟨inside, rfl⟩ := List.getElem?_eq_some_iff.mp present
  rw [taken.outbound, List.map_set]
  exact set_same (by simp [inside])

/-- The entries are as many as before. -/
theorem Taken.entriesOf : entriesOf after task = entriesOf world task := by
  have kept := congrArg (List.map Payload.taskId) (taken.payloads present)
  simp only [List.map_map] at kept
  exact congrArg (List.count task) kept

/-- Every call serves an entry of its task, the new one too. -/
theorem Taken.owned (aligned : world.passes.length = world.delivery.calls.length)
    (owned : Owned world) : Owned after := by
  intro index call pass found there
  have served : ∃ served, world.outbound[pass.entry]? = some served ∧
      served.payload = pass.payload ∧ pass.payload.taskId = call.task := by
    rcases (taken.rows aligned).mp ⟨found, there⟩ with ⟨_, rfl, rfl⟩ | ⟨old, there⟩
    · exact ⟨entry, present, rfl, rfl⟩
    · obtain ⟨isTask, served, inStream, payload⟩ := owned index call pass old there
      exact ⟨served, inStream, payload, isTask⟩
  obtain ⟨served, inStream, payload, isTask⟩ := served
  have kept := congrArg (·[pass.entry]?) (taken.payloads present)
  simp only [List.getElem?_map, inStream, Option.map_some] at kept
  obtain ⟨one, found', same⟩ := Option.map_eq_some_iff.mp kept
  exact ⟨isTask, one, found', same.trans payload⟩

/-- The board of the entry's task. -/
theorem Taken.own_board (aligned : world.passes.length = world.delivery.calls.length)
    (own : entry.payload.taskId = task) (parked : (world.board task).parked = []) :
    after.board task = ((world.board task).turn world.delivery.calls.length
      (takingCall entry transports) { entry := position, payload := entry.payload } []).post position
        { entry with deliveryCount := entry.deliveryCount + 1 } [] := by
  refine Board.same (fun index both => ?_) (fun place row => ?_)
    ((congrArg (List.filter _) taken.scheduled).trans parked)
  · show _ ↔ ((world.board task).turn world.delivery.calls.length (takingCall entry transports)
      { entry := position, payload := entry.payload } []).calls index = some both
    obtain ⟨call, pass⟩ := both
    rw [board_calls, Board.turn_calls, board_calls, ← and_assoc, taken.rows aligned]
    constructor
    · rintro ⟨⟨here, rfl, rfl⟩ | ⟨old, there⟩, isTask⟩
      · exact .inl ⟨here, rfl⟩
      · have inside := (List.getElem?_eq_some_iff.mp old).1
        exact .inr ⟨by omega, old, there, isTask⟩
    · rintro (⟨here, both⟩ | ⟨_, old, there, isTask⟩)
      · obtain ⟨rfl, rfl⟩ := Prod.mk.inj both
        exact ⟨.inl ⟨here, rfl, rfl⟩, own⟩
      · exact ⟨.inr ⟨old, there⟩, isTask⟩
  · rw [board_entries, Board.post_entries, taken.outbound, row_set present]
    constructor
    · rintro ⟨⟨here, rfl⟩ | ⟨apart, old⟩, isTask⟩
      · exact .inl ⟨here, rfl⟩
      · exact .inr ⟨apart, board_entries.mpr ⟨old, isTask⟩⟩
    · rintro (⟨here, rfl⟩ | ⟨apart, old⟩)
      · exact ⟨.inl ⟨here, rfl⟩, own⟩
      · obtain ⟨inStream, isTask⟩ := board_entries.mp old
        exact ⟨.inr ⟨apart, inStream⟩, isTask⟩

/-- The boards of the other tasks. -/
theorem Taken.other_board (aligned : world.passes.length = world.delivery.calls.length)
    (other : entry.payload.taskId ≠ task) : after.board task = world.board task := by
  refine Board.same (fun index both => ?_) (fun place row => ?_)
    (congrArg (List.filter _) taken.scheduled)
  · obtain ⟨call, pass⟩ := both
    rw [board_calls, board_calls, ← and_assoc, taken.rows aligned]
    constructor
    · rintro ⟨⟨_, isCall, _⟩ | ⟨old, there⟩, isTask⟩
      · obtain rfl := isCall
        exact absurd isTask other
      · exact ⟨old, there, isTask⟩
    · rintro ⟨old, there, isTask⟩
      exact ⟨.inr ⟨old, there⟩, isTask⟩
  · rw [board_entries, board_entries, taken.outbound, row_set present]
    constructor
    · rintro ⟨⟨_, rfl⟩ | ⟨_, old⟩, isTask⟩
      · exact absurd isTask other
      · exact ⟨old, isTask⟩
    · rintro ⟨old, isTask⟩
      refine ⟨.inr ⟨?_, old⟩, isTask⟩
      rintro rfl
      obtain rfl := Option.some.inj (present.symm.trans old)
      exact other isTask

end Taken

/-- An entry is delivered to a call. -/
theorem Refines.take {transports : Nat} (refines : Refines tasks task state trip)
    (orderly : Orderly tasks task state (.take position transports))
    (delivered : step IDEMPOTENCY_TTL_SECONDS state.log (.take position transports) = some after) :
    Leads tasks task trip (state.recorded tasks (.take position transports) after) := by
  obtain ⟨entry, present, delivered⟩ := Option.bind_eq_some_iff.mp delivered
  obtain ⟨⟨live, _⟩, delivered⟩ := Option.ite_none_right_eq_some.mp delivered
  obtain ⟨delivery, started, same⟩ := Option.bind_eq_some_iff.mp delivered
  have taken : Taken state.log position transports entry after := by
    obtain rfl := Option.some.inj same
    obtain rfl := Option.some.inj started
    exact ⟨rfl, rfl, rfl, rfl, rfl⟩
  have aligned : after.passes.length = after.delivery.calls.length := by
    simp [taken.calls, taken.passes, refines.aligned]
  by_cases own : entry.payload.taskId = task
  · have idle : (state.log.board task).Idle position := (orderly entry present own).idle
    have board : (state.log.board task).entries position = some entry :=
      board_entries.mpr ⟨present, own⟩
    have stage := (refines.sound.waits position entry.payload).mp ⟨entry, board, live, rfl, idle⟩
    have parked : (state.log.board task).parked = [] := by
      rw [refines.sound.parked, stage]
      rfl
    have absent : (state.log.board task).calls state.log.delivery.calls.length = none := by
      simp [LogWorld.board]
    have sound := refines.sound
    rw [stage] at sound
    refine ⟨{ trip with stage := .running state.log.delivery.calls.length entry.payload false },
      ⟨aligned, taken.owned present refines.aligned refines.owned, ?_, fun last marked => ?_,
        refines.passes.trans taken.dispatchPasses.symm,
        refines.entries.trans (taken.entriesOf present).symm, refines.deferrals, refines.ends⟩,
      .inr (.taken state.log.delivery.calls.length stage)⟩
    · rw [TripWorld.recorded, taken.own_board present refines.aligned own parked]
      refine sound.takes board absent ⟨⟨entry, board, rfl⟩, ?_, rfl, rfl, fun _ => rfl⟩ rfl rfl rfl ?_
      · exact Nat.lt_add_of_pos_right (Nat.succ_pos _)
      · rintro (closes | closes) <;> cases closes
    · exact absurd (stage.symm.trans (refines.marks last (taken.marks ▸ marked))) nofun
  · refine ⟨trip, ⟨aligned, taken.owned present refines.aligned refines.owned, ?_, fun last marked => ?_,
      refines.passes.trans taken.dispatchPasses.symm,
      refines.entries.trans (taken.entriesOf present).symm, refines.deferrals, refines.ends⟩, .inl rfl⟩
    · rw [TripWorld.recorded, taken.other_board present refines.aligned own]
      exact refines.sound
    · exact refines.marks last (taken.marks ▸ marked)

end Entries

section Runs

variable {state following : TripWorld} {trip : Trip}

/-- An effect that throws leaves its call in the `catch` block. -/
theorem concludeThrows_turn {position : Nat} {published parked : Bool}
    (found : world.delivery.calls[index]? = some call) (there : world.passes[index]? = some pass)
    (here : position = index)
    (taken : passStep IDEMPOTENCY_TTL_SECONDS world index call pass
      (.concludeThrows position published parked) = some after) :
    ∃ later next, PassTurn world index call pass after later next := by
  subst here
  simp only [passStep] at taken
  split at taken
  next result phase =>
    obtain ⟨delivery, caught, taken⟩ := Option.bind_eq_some_iff.mp taken
    obtain ⟨call', found', caught⟩ := step_of_call rfl caught
    obtain rfl := Option.some.inj (found.symm.trans found')
    simp only [callStep, phase, Option.some.injEq] at caught
    subst caught
    cases outcome : outcomeOf call result with
    | none =>
      simp only [outcome] at taken
      obtain rfl := Option.some.inj taken
      refine ⟨{ call with phase := .caught }, pass, ?_⟩
      cases parked with
      | true =>
        exact ⟨rfl, (set_same there).symm, ⟨rfl, rfl, rfl, rfl⟩, rfl, rfl,
          fun _ _ marked => .inl marked, .inl rfl, .inr ⟨{ pass.payload with
            deliveryAttemptCount := call.attemptNo }, rfl, rfl⟩⟩
      | false =>
        exact ⟨rfl, (set_same there).symm, ⟨rfl, rfl, rfl, rfl⟩, rfl, rfl,
          fun _ _ marked => .inl marked, .inl rfl, .inl rfl⟩
    | some how =>
      cases how with
      | failed =>
        simp only [outcome] at taken
        obtain ⟨delivery, _, outbound, scheduled⟩ := publish_frame { world with
          delivery := world.delivery.moveTo position call .caught } published
          (eventOf call pass .failed)
        obtain rfl := Option.some.inj taken
        exact ⟨{ call with phase := .caught }, { pass with dispatchLogged := published },
          congrArg World.calls delivery, rfl, ⟨rfl, rfl, rfl, rfl⟩, rfl, rfl,
          fun _ _ marked => .inl (congrArg World.marks delivery ▸ marked), .inl outbound,
          .inl scheduled⟩
      | delivered | dispatched =>
        simp only [outcome] at taken
        obtain rfl := Option.some.inj taken
        exact ⟨{ call with phase := .caught }, pass, rfl, (set_same there).symm,
          ⟨rfl, rfl, rfl, rfl⟩, rfl, rfl, fun _ _ marked => .inl marked, .inl rfl, .inl rfl⟩
  next => cases taken

/-- The entry of a call leaves the stream. -/
theorem Refines.settled {action : LogAction} (refines : Refines tasks task state trip)
    (about : action.call = some index) (silent : deferredBy state.log action = none ∧
      endedBy tasks state.log action = none)
    (found : state.log.delivery.calls[index]? = some call)
    (there : state.log.passes[index]? = some pass)
    (isOver : hold call.phase pass.nonRetryable = .ended)
    (calls : after.delivery = state.log.delivery) (passes : after.passes = state.log.passes)
    (outbound : after.outbound = (state.log.leaveStream pass.entry).outbound)
    (scheduled : after.scheduledPayloads = state.log.scheduledPayloads) :
    Leads tasks task trip (state.recorded tasks action after) := by
  by_cases own : call.task = task
  · refine ⟨trip, ?_, .inl rfl⟩
    simp only [TripWorld.recorded, silent.1, silent.2]
    exact refines.drops found there own isOver calls passes outbound scheduled
  · have turn : PassTurn state.log index call pass after call pass :=
      ⟨calls ▸ (set_same found).symm, passes.trans (set_same there).symm, ⟨rfl, rfl, rfl, rfl⟩, rfl,
        rfl, fun _ _ marked => .inl (calls ▸ marked), .inr outbound, .inl scheduled⟩
    exact refines.elsewhere about found there turn own

/-- What a call does moves the trip of its task, and no other. -/
theorem passStep_leads {action : LogAction} (refines : Refines tasks task state trip)
    (about : action.call = some index) (orderly : Orderly tasks task state action)
    (found : state.log.delivery.calls[index]? = some call)
    (there : state.log.passes[index]? = some pass)
    (taken : passStep IDEMPOTENCY_TTL_SECONDS state.log index call pass action = some after) :
    Leads tasks task trip (state.recorded tasks action after) := by
  cases action with
  | gateEnds position ending => exact refines.gateEnds found there (Option.some.inj about) taken
  | render position ok nonRetryable => exact refines.render found there (Option.some.inj about) taken
  | timer position published => exact refines.timer found there (Option.some.inj about) taken
  | conclude position published => exact refines.conclude found there (Option.some.inj about) taken
  | leave position released published => exact refines.leave found there (Option.some.inj about) taken
  | concludeThrows position published parked =>
    obtain ⟨later, next, turn⟩ := concludeThrows_turn found there (Option.some.inj about) taken
    obtain rfl := Option.some.inj about
    exact refines.elsewhere rfl found there turn (orderly call found)
  | crash position =>
    have turn : PassTurn state.log index call pass after { call with phase := .threw } pass := by
      obtain rfl := Option.some.inj taken
      exact ⟨rfl, (set_same there).symm, ⟨rfl, rfl, rfl, rfl⟩, rfl, rfl, fun _ _ marked => .inl marked,
        .inl rfl, .inl rfl⟩
    obtain rfl := Option.some.inj about
    exact refines.elsewhere rfl found there turn (orderly call found)
  | ack position =>
    obtain ⟨phase, same⟩ := Option.ite_none_right_eq_some.mp taken
    obtain rfl := Option.some.inj same
    exact refines.settled about ⟨rfl, rfl⟩ found there (by rw [phase]; rfl) rfl rfl rfl rfl
  | deadLetter position =>
    obtain ⟨⟨phase, dead⟩, same⟩ := Option.ite_none_right_eq_some.mp taken
    obtain rfl := Option.some.inj same
    exact refines.settled about ⟨rfl, rfl⟩ found there (by rw [phase, dead]; rfl) rfl rfl rfl rfl
  | _ => cases about

/-- Every step leaves the trip of the task where it was, or takes it one move on. -/
theorem refines_step {action : LogAction} (refines : Refines tasks task state trip)
    (bounded : Bounded (tasks task) trip) (orderly : Orderly tasks task state action)
    (recorded : tripStep IDEMPOTENCY_TTL_SECONDS tasks state action = some following) :
    Leads tasks task trip following := by
  obtain ⟨after, taken, rfl⟩ := Option.map_eq_some_iff.mp recorded
  cases about : action.call with
  | some index =>
    obtain ⟨call, pass, found, there, own⟩ := step_of_pass about taken
    exact passStep_leads refines about orderly found there own
  | none =>
    cases action with
    | dispatch payload => exact refines.dispatch bounded orderly taken
    | schedule payload => exact refines.schedule bounded orderly taken
    | release position kept => exact refines.release orderly taken
    | replay position kept => exact refines.replay orderly taken
    | take position transports => exact refines.take orderly taken
    | poison position => exact refines.poison orderly taken
    | quiet action =>
      obtain ⟨isQuiet, taken⟩ := Option.ite_none_right_eq_some.mp taken
      obtain ⟨delivery, stepped, same⟩ := Option.bind_eq_some_iff.mp taken
      obtain rfl := Option.some.inj same
      cases target : action.call with
      | some index =>
        obtain ⟨call, found, stepped⟩ := step_of_call target stepped
        obtain ⟨later, turn⟩ := callStep_turn stepped
        have inside : index < state.log.passes.length := by
          rw [refines.aligned]
          exact (List.getElem?_eq_some_iff.mp found).1
        have there := List.getElem?_eq_getElem inside
        by_cases own : call.task = task
        · exact refines.quiet found there own isQuiet turn
        · have passTurn : PassTurn state.log index call _ { state.log with delivery := delivery }
              later state.log.passes[index] :=
            ⟨turn.calls, (set_same there).symm, turn.keeps, rfl, rfl, turn.marks, .inl rfl, .inl rfl⟩
          exact ⟨trip, refines.other found there passTurn own rfl rfl, .inl rfl⟩
      | none =>
        cases action with
        | tick ms =>
          obtain rfl := Option.some.inj stepped
          exact ⟨trip, refines.unseen rfl rfl rfl rfl rfl, .inl rfl⟩
        | start => cases isQuiet
        | lateReport task success =>
          obtain ⟨_, same⟩ := Option.ite_none_right_eq_some.mp stepped
          obtain rfl := Option.some.inj same
          exact ⟨trip, refines.unseen rfl rfl rfl rfl rfl, .inl rfl⟩
        | _ => cases target
    | store position acked =>
      obtain ⟨event, _, same⟩ := Option.bind_eq_some_iff.mp taken
      obtain rfl := Option.some.inj same
      exact ⟨trip, refines.unseen rfl rfl rfl rfl rfl, .inl rfl⟩
    | _ => cases about

/-- Nothing has happened to the task. -/
theorem refines_start : Refines tasks task {} {} := by
  have board : LogWorld.board {} task = Board.empty := by
    refine Board.same (fun index both => ?_) (fun position entry => ?_) rfl
    · simp [board_calls, Board.empty]
    · simp [board_entries, Board.empty]
  refine ⟨rfl, fun index call pass found => ?_, board ▸ sound_start, fun last marked => ?_, rfl, rfl,
    rfl, rfl⟩
  · simp at found
  · simp [ExpiringStore.empty] at marked

/-- A stage at which the task is under way shows on its board. -/
def Board.At (board : Board) : Stage → Prop
  | .parked payload => payload ∈ board.parked
  | .waiting position payload => board.Waits position payload
  | .running index payload dispatchStarted => board.Runs index payload dispatchStarted
  | .unknown | .ended => False

/-- The board shows the stage of the trip, and no other. -/
theorem Sound.at_iff {sent : Sent} {board : Board} {stage : Stage} (sound : Sound sent board stage)
    (other : Stage) : board.At other ↔ stage = other ∧ other ≠ .unknown ∧ other ≠ .ended := by
  cases other with
  | unknown => simp [Board.At]
  | ended => simp [Board.At]
  | parked payload =>
    simp only [Board.At, sound.parked]
    cases stage <;> simp [Stage.parkedPayloads, eq_comm]
  | waiting position payload => simp [Board.At, sound.waits]
  | running index payload dispatchStarted => simp [Board.At, sound.runs]

/-- In every orderly run the workers are at a trip of the task that keeps its bounds. -/
theorem run_refines (run : Reaches (tripStep IDEMPOTENCY_TTL_SECONDS tasks) (Orderly tasks task) {}
    state) : ∃ trip, Refines tasks task state trip ∧ Bounded (tasks task) trip := by
  have kept : ∀ before action following,
      (∃ trip, Refines tasks task before trip ∧ Bounded (tasks task) trip) →
      Orderly tasks task before action →
      tripStep IDEMPOTENCY_TTL_SECONDS tasks before action = some following →
      ∃ trip, Refines tasks task following trip ∧ Bounded (tasks task) trip := by
    rintro before action following ⟨trip, refines, bounded⟩ orderly taken
    obtain ⟨further, refined, same | moves⟩ := refines_step refines bounded orderly taken
    · exact ⟨further, refined, same ▸ bounded⟩
    · exact ⟨further, refined, bounded.move moves⟩
  exact run.invariant ⟨{}, refines_start, rfl, rfl, rfl, rfl⟩ kept

/-- A task that is known has begun. -/
theorem Refines.begun (refines : Refines tasks task state trip) (known : Known state.log task) :
    trip.stage ≠ .unknown := by
  intro unknown
  rcases known with ⟨entry, member, isTask⟩ | ⟨payload, member, isTask⟩
  · obtain ⟨position, present⟩ := List.mem_iff_getElem?.mp member
    have shown := board_entries.mpr ⟨present, isTask⟩
    cases (refines.sound.fresh unknown position).symm.trans shown
  · have listed : payload ∈ (state.log.board task).parked :=
      List.mem_filter.mpr ⟨member, decide_eq_true isTask⟩
    rw [refines.sound.parked, unknown] at listed
    cases listed

/-- No end of the task is recorded. -/
theorem Refines.ended_nil (refines : Refines tasks task state trip) (going : trip.ends = []) :
    state.ends.filter (fun ended => ended.1 = task) = [] :=
  List.map_eq_nil_iff.mp (refines.ends.symm.trans going)

/-- One end of the task is recorded. -/
theorem Refines.ended_one {how : End} (refines : Refines tasks task state trip)
    (ended : trip.ends = [how]) :
    state.ends.filter (fun ended => ended.1 = task) = [(task, how)] := by
  obtain ⟨one, single, rfl⟩ := List.map_eq_singleton_iff.mp (refines.ends.symm.trans ended)
  have member : one ∈ state.ends.filter (fun ended => ended.1 = task) :=
    single ▸ List.mem_singleton_self one
  have own : one.1 = task := of_decide_eq_true (List.mem_filter.mp member).2
  rw [single, ← own]

/-- The counters with which a task is under way: its tries, of which the one at the providers is
not counted yet, and its deferrals. -/
def CountedAt (state : TripWorld) (task : Text) : Stage → Prop
  | .parked payload | .waiting _ payload =>
    dispatchPasses state.log task ≤ payload.deliveryAttemptCount ∧
      payload.throttleAttemptCount = state.deferrals.count task
  | .running _ payload dispatchStarted =>
    dispatchPasses state.log task ≤ payload.deliveryAttemptCount + dispatchStarted.toNat ∧
      payload.throttleAttemptCount = state.deferrals.count task
  | .unknown | .ended => False

/-- A task that has begun and not ended is in one place. -/
theorem Refines.underway {stage : Stage} (refines : Refines tasks task state trip)
    (isStage : trip.stage = stage) (begun : stage ≠ .unknown) (open' : stage ≠ .ended)
    (counted : CountedAt state task stage) :
    ∃ stage, (state.log.board task).At stage ∧ CountedAt state task stage ∧
      ∀ other, (state.log.board task).At other → other = stage := by
  refine ⟨stage, (refines.sound.at_iff stage).mpr ⟨isStage, begun, open'⟩, counted,
    fun other shown => ?_⟩
  exact ((refines.sound.at_iff other).mp shown).1.symm.trans isStage

/-- In every orderly run, whatever providers, gates and throttles answer and however often its
entries are given back: a task makes no more passes than its attempts, is deferred no more often
than the limit, and enters the stream no more often than both together. Once known it is in one
place, with counters that count all its passes and deferrals; or it has ended, once, delivered,
failed or handed over with a shorter chain, and is nowhere any more. -/
theorem trips_end (run : Reaches (tripStep IDEMPOTENCY_TTL_SECONDS tasks) (Orderly tasks task) {}
    state) :
    dispatchPasses state.log task ≤ (tasks task).maxAttempts.1 ∧
    state.deferrals.count task ≤ MAX_THROTTLE_DEFERRALS ∧
    entriesOf state.log task ≤ (tasks task).maxAttempts.1 + MAX_THROTTLE_DEFERRALS ∧
    (Known state.log task →
      (state.ends.filter (fun ended => ended.1 = task) = [] ∧
        ∃ stage, (state.log.board task).At stage ∧ CountedAt state task stage ∧
          ∀ other, (state.log.board task).At other → other = stage) ∨
      ∃ how, state.ends.filter (fun ended => ended.1 = task) = [(task, how)] ∧
        (how = .delivered ∨ how = .failed ∨ ∃ nextChannel remainingChain,
          how = .handed nextChannel remainingChain ∧
            (tasks task).fallbackChain = nextChannel :: remainingChain) ∧
        ∀ stage, ¬ (state.log.board task).At stage) := by
  obtain ⟨trip, refines, bounded⟩ := run_refines run
  obtain ⟨passes, deferrals, entries⟩ := bounded.counts
  rw [refines.passes] at passes
  rw [refines.deferrals] at deferrals
  rw [refines.entries] at entries
  refine ⟨passes, deferrals, entries, fun known => ?_⟩
  have bounded' := bounded
  cases stage : trip.stage with
  | unknown => exact absurd stage (refines.begun known)
  | parked payload =>
    simp only [Bounded, stage] at bounded'
    obtain ⟨counted, _⟩ := bounded'
    refine .inl ⟨refines.ended_nil counted.going, refines.underway stage (by rintro ⟨⟩) (by rintro ⟨⟩) ?_⟩
    exact ⟨refines.passes ▸ counted.passes, refines.deferrals ▸ counted.deferrals.symm⟩
  | waiting position payload =>
    simp only [Bounded, stage] at bounded'
    obtain ⟨counted, _⟩ := bounded'
    refine .inl ⟨refines.ended_nil counted.going, refines.underway stage (by rintro ⟨⟩) (by rintro ⟨⟩) ?_⟩
    exact ⟨refines.passes ▸ counted.passes, refines.deferrals ▸ counted.deferrals.symm⟩
  | running index payload dispatchStarted =>
    simp only [Bounded, stage] at bounded'
    obtain ⟨counted, _⟩ := bounded'
    refine .inl ⟨refines.ended_nil counted.going, refines.underway stage (by rintro ⟨⟩) (by rintro ⟨⟩) ?_⟩
    exact ⟨refines.passes ▸ counted.passes, refines.deferrals ▸ counted.deferrals.symm⟩
  | ended =>
    simp only [Bounded, stage] at bounded'
    obtain ⟨_, _, _, _, how, ended, way⟩ := bounded'
    refine .inr ⟨how, refines.ended_one ended, way.cases, fun other shown => ?_⟩
    obtain ⟨same, _, open'⟩ := (refines.sound.at_iff other).mp shown
    exact open' (same.symm.trans stage)

/-- A task of the email channel that may fall back on another. -/
def mailOrText (_ : Text) : Sent where
  maxAttempts := ⟨3, by decide⟩
  fallbackChain := [.sms]

/-- A send is deferred, then fails and is parked; it is released while its pass still has the lease,
so its entry is given back once. Delivered again, it has come to its last attempt. -/
def handedOver : List LogAction :=
  [LogAction.dispatch { mail with hasFallback := true }, .take 0 1, .gateEnds 0 .deferred, .ack 0,
    .release 0 false] ++ asks 1 1 ⟨false, false, none⟩ ++
  [LogAction.quiet (.loopEnds 1), .conclude 1 true, .release 0 false, .take 2 1, .quiet (.gate 2 (some 0)),
    .quiet (.setLease 2), .quiet (.readLease 2), .quiet (.settle 1 true), .ack 1] ++
  asks 2 3 ⟨false, false, none⟩ ++ [LogAction.quiet (.loopEnds 3), .conclude 3 true]

theorem trips_end_handed : ∃ state, Reaches (tripStep 3600 mailOrText)
      (Orderly mailOrText "t".toList) {} state ∧
    state.ends = [("t".toList, .handed .sms [])] ∧ dispatchPasses state.log "t".toList = 2 ∧
    state.deferrals.count "t".toList = 1 ∧ dispatchPasses state.log "t".toList ≤ 3 := by
  have run : Reaches (tripStep 3600 mailOrText) (Orderly mailOrText "t".toList) {} _ :=
    reaches_of_perform handedOver (by decide +kernel) rfl
  exact ⟨_, run, rfl, rfl, rfl, (trips_end run).1⟩

end Runs

end Notifkit.Delivery.Log
