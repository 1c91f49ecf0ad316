import Notifkit.Events.LogBooks
import Notifkit.Foundations.Runs

/-!
# Log events and their rows stay in step

A call of `process` resolves only once all its rows are recorded, whatever
fails, is dropped or is under way at the same time. Every promise is settled
once, and left alone the worker settles all of them.

What an event was recorded as stays: its places are taken, so that processing it
again changes nothing. Where no other event claims its places, what stands there
is what one insert of its rows leaves.
-/

namespace Notifkit.Events

open Runs Promises UniqueRows

variable {first : List MessageLogRow} {limits : Limits} {s after : State} {action : Action}

/-- What flushing leaves alone. -/
structure Kept (s after : State) : Prop where
  table : after.table = s.table
  made : after.made = s.made
  calls : after.calls = s.calls
  acknowledged : after.acknowledged = s.acknowledged

/-- A flush by size leaves it alone. -/
theorem kept_flushAtThreshold (limits : Limits) (s : State) :
    Kept s (flushAtThreshold limits s) := by
  unfold flushAtThreshold flushLogs
  split
  · split
    · exact ⟨rfl, rfl, rfl, rfl⟩
    · exact ⟨rfl, rfl, rfl, rfl⟩
  · exact ⟨rfl, rfl, rfl, rfl⟩

/-- So does a flush that ends. -/
theorem kept_leave (limits : Limits) (s : State) (place : Nat)
    (entries : List (Nat × Settlement)) : Kept s (leave limits s place entries) := by
  obtain ⟨table, made, calls, acknowledged⟩ := kept_flushAtThreshold limits { s with
    settled := settleAll s.settled entries
    flights := s.flights.eraseIdx place }
  exact ⟨table, made, calls, acknowledged⟩

/-- And a row that is dropped. -/
theorem kept_dropOldest (limits : Limits) (s : State) : Kept s (dropOldest limits s) := by
  unfold dropOldest
  split
  · split
    · exact ⟨rfl, rfl, rfl, rfl⟩
    · exact ⟨rfl, rfl, rfl, rfl⟩
  · exact ⟨rfl, rfl, rfl, rfl⟩

/-- Rows that join the buffer have new promises. -/
theorem kept_pushAll (s : State) (rows : List MessageLogRow) :
    Kept { s with made := s.made ++ rows.map some } (rows.foldl pushRow s) := by
  induction rows generalizing s with
  | nil => exact ⟨rfl, by simp, rfl, rfl⟩
  | cons row rest inductionHypothesis =>
    obtain ⟨table, made, calls, acknowledged⟩ := inductionHypothesis (pushRow s row)
    refine ⟨table, ?_, calls, acknowledged⟩
    rw [List.foldl_cons, made]
    simp [pushRow]

/-- A call of `process` adds promises for its rows and itself. -/
theorem kept_process (limits : Limits) (s : State) (event : LogEvent) :
    ∃ call : ProcessCall, call.event = event ∧
      Kept { s with made := s.made ++ event.rows.map some, calls := s.calls ++ [call] }
        (process limits s event) := by
  have roomy := kept_dropOldest limits s
  have pushed := kept_pushAll (dropOldest limits s) event.rows
  refine ⟨⟨event, List.range' (dropOldest limits s).made.length event.rows.length⟩, rfl, ?_⟩
  have flushed := kept_flushAtThreshold limits { event.rows.foldl pushRow (dropOldest limits s) with
    calls := (event.rows.foldl pushRow (dropOldest limits s)).calls ++
      [⟨event, List.range' (dropOldest limits s).made.length event.rows.length⟩] }
  constructor
  · exact (flushed.table.trans pushed.table).trans roomy.table
  · refine (flushed.made.trans pushed.made).trans ?_
    exact congrArg (· ++ event.rows.map some) roomy.made
  · refine flushed.calls.trans ?_
    exact congrArg (· ++ [_]) (pushed.calls.trans roomy.calls)
  · exact (flushed.acknowledged.trans pushed.acknowledged).trans roomy.acknowledged

/-- What a turn does to the table, to what promises were made for and the calls, and to the
acknowledged events. -/
structure Effect (s after : State) (action : Action) : Prop where
  table : after.table = s.table ∨ ∃ rows, after.table = insertMessageLogs s.table rows
  purposes : (∃ event call, action = .process event ∧ call.event = event ∧
      after.made = s.made ++ event.rows.map some ∧ after.calls = s.calls ++ [call]) ∨
    (action = .resume ∧ after.made = s.made ++ [none] ∧ after.calls = s.calls) ∨
    after.made = s.made ∧ after.calls = s.calls
  acknowledged : after.acknowledged = s.acknowledged ∨
    ∃ call ∈ s.calls, call.resolved s.settled = true ∧
      after.acknowledged = s.acknowledged ++ [call.event]

/-- Flushing has none of these effects. -/
theorem Kept.effect (kept : Kept s after) : Effect s after action where
  table := .inl kept.table
  purposes := .inr (.inr ⟨kept.made, kept.calls⟩)
  acknowledged := .inl kept.acknowledged

/-- Each turn has one of these effects at most. -/
theorem step_effect (taken : step limits s action = some after) : Effect s after action := by
  cases action with
  | process event =>
    obtain rfl := Option.some.inj taken
    obtain ⟨call, same, kept⟩ := kept_process limits s event
    constructor
    · exact .inl kept.table
    · exact .inl ⟨event, call, rfl, same, kept.made, kept.calls⟩
    · exact .inl kept.acknowledged
  | resume =>
    obtain rfl := Option.some.inj taken
    constructor
    · exact .inl rfl
    · exact .inr (.inl ⟨rfl, rfl, rfl⟩)
    · exact .inl rfl
  | interval =>
    by_cases nothing : NothingToFlush s
    · simp [step, nothing] at taken
    · obtain rfl : flushLogs s = after := by
        simpa [step, nothing] using taken
      rw [flushLogs, if_neg nothing]
      exact Kept.effect ⟨rfl, rfl, rfl, rfl⟩
  | lands place =>
    obtain ⟨flush, _, _, _, rfl⟩ := lands_cases taken
    constructor
    · exact .inr ⟨_, rfl⟩
    · exact .inr (.inr ⟨rfl, rfl⟩)
    · exact .inl rfl
  | inserted place =>
    obtain ⟨flush, _, _, _, ⟨_, rfl⟩ | rfl⟩ := inserted_cases taken
    · exact (kept_leave limits s place _).effect
    · exact Kept.effect ⟨rfl, rfl, rfl, rfl⟩
  | insertFails place error =>
    obtain ⟨flush, _, _, rfl⟩ := insertFails_cases taken
    exact (kept_leave limits s place _).effect
  | published place =>
    obtain ⟨flush, _, _, rfl⟩ := published_cases taken
    exact (kept_leave limits s place _).effect
  | publishFails place error =>
    obtain ⟨flush, _, _, rfl⟩ := publishFails_cases taken
    exact (kept_leave limits s place _).effect
  | acknowledge place =>
    obtain ⟨call, listed, resolved, rfl⟩ := acknowledge_cases taken
    constructor
    · exact .inl rfl
    · exact .inr (.inr ⟨rfl, rfl⟩)
    · exact .inr ⟨call, listed, resolved, rfl⟩

/-- The table loses nothing in a turn. -/
theorem table_step (taken : step limits s action = some after) :
    ∀ stored ∈ s.table, stored ∈ after.table := by
  intro stored member
  rcases (step_effect taken).table with same | ⟨rows, inserted⟩
  · rw [same]
    exact member
  · rw [inserted]
    exact mem_insertNew member

/-- Nor in a run. -/
theorem table_run {later : State} (run : Reaches (step limits) anyStep s later) :
    ∀ stored ∈ s.table, stored ∈ later.table := by
  apply run.invariant
  · intro stored member
    exact member
  · intro before action after grown _ taken stored member
    exact table_step taken stored (grown stored member)

/-- A promise that was resolved is listed as such. -/
theorem resolved_listed {settled : List (Nat × Settlement)} {promise : Nat}
    (resolved : isResolved settled promise = true) : (promise, .ok ()) ∈ settled := by
  unfold isResolved at resolved
  cases found : settled.lookup promise with
  | none => simp [found] at resolved
  | some value =>
    cases value with
    | error rejection => simp [found] at resolved
    | ok value =>
      obtain ⟨before, rest, whole, _⟩ := List.lookup_eq_some_iff.mp found
      rw [whole]
      simp

/-- Each row of a call has its promise. -/
theorem ProcessCall.Made.promise {call : ProcessCall} {made : List (Option MessageLogRow)}
    (all : call.Made made) {row : MessageLogRow} (listed : row ∈ call.event.rows) :
    ∃ promise ∈ call.promises, made[promise]? = some (some row) := by
  obtain ⟨place, inside, rfl⟩ := List.getElem_of_mem listed
  have sameLength := all.length_eq
  refine ⟨call.promises[place], List.getElem_mem _, ?_⟩
  exact List.Forall₂.get all (by omega) inside

/-- A call that resolved has its rows recorded. -/
theorem Books.recorded (books : Books first s) {call : ProcessCall} (listed : call ∈ s.calls)
    (resolved : call.resolved s.settled = true) :
    ∀ row ∈ call.event.rows, Recorded s.table row := by
  intro row member
  obtain ⟨promise, waited, known⟩ := (books.calls call listed).promise member
  have each : isResolved s.settled promise = true := List.all_eq_true.mp resolved promise waited
  exact books.honest promise row (resolved_listed each) known

/-- An acknowledged event has its rows recorded. -/
def AcknowledgedRecorded (s : State) : Prop :=
  ∀ event ∈ s.acknowledged, ∀ row ∈ event.rows, Recorded s.table row

/-- Every row a promise was made for is one of a call. -/
def RowsCalled (s : State) : Prop :=
  ∀ row, some row ∈ s.made → ∃ call ∈ s.calls, row ∈ call.event.rows

/-- A turn acknowledges only what is recorded. -/
theorem acknowledged_step (books : Books first s) (before : AcknowledgedRecorded s)
    (taken : step limits s action = some after) : AcknowledgedRecorded after := by
  have grown := table_step taken
  have earlier : ∀ event ∈ s.acknowledged, ∀ row ∈ event.rows, Recorded after.table row :=
    fun event listed row member => (before event listed row member).grow grown
  intro event member
  rcases (step_effect taken).acknowledged with same | ⟨call, listed, resolved, added⟩
  · rw [same] at member
    exact earlier event member
  · rw [added] at member
    rcases List.mem_append.mp member with old | new
    · exact earlier event old
    · obtain rfl := List.mem_singleton.mp new
      intro row own
      exact (books.recorded listed resolved row own).grow grown

/-- Promises for rows are made by calls. -/
theorem called_step (before : RowsCalled s) (taken : step limits s action = some after) :
    RowsCalled after := by
  intro row known
  rcases (step_effect taken).purposes with ⟨event, call, _, same, made, calls⟩ |
    ⟨_, made, calls⟩ | ⟨made, calls⟩
  · rw [made] at known
    rw [calls]
    rcases List.mem_append.mp known with old | new
    · exact Tables.some_append (before row old)
    · obtain ⟨own, member, equal⟩ := List.mem_map.mp new
      obtain rfl := Option.some.inj equal
      exact ⟨call, by simp, same ▸ member⟩
  · rw [made] at known
    rw [calls]
    apply before row
    simpa using known
  · rw [made] at known
    rw [calls]
    exact before row known

/-- The turns a flush under way has left. -/
def Flush.work (flush : Flush) : Nat :=
  if flush.written then 1 else if flush.landed then 2 else 3

/-- A flush has a turn left. -/
theorem Flush.work_pos (flush : Flush) : 0 < flush.work := by
  unfold Flush.work
  split
  · omega
  · split <;> omega

/-- And three at most. -/
theorem Flush.work_le (flush : Flush) : flush.work ≤ 3 := by
  unfold Flush.work
  split
  · omega
  · split <;> omega

/-- A bound on the turns left while nothing new is processed. What is buffered counts for the flush
it will be in. -/
def work (s : State) : Nat :=
  4 * (s.messageLogBuffer.length + s.eventBuffer.length) + (s.flights.map Flush.work).sum

/-- A flush that takes something along takes a turn off. -/
theorem work_flushLogs {s : State} (some_left : ¬ NothingToFlush s) :
    work (flushLogs s) < work s := by
  have gathered : 0 < s.messageLogBuffer.length + s.eventBuffer.length := by
    unfold NothingToFlush at some_left
    omega
  have new := Flush.work_le
    { batch := s.messageLogBuffer
      events := s.eventBuffer
      written := s.messageLogBuffer.length = 0 }
  rw [flushLogs, if_neg some_left]
  simp only [work, List.length_nil, List.map_append, List.map_cons, List.map_nil, List.sum_append,
    List.sum_cons, List.sum_nil]
  omega

/-- A flush by size adds no turn. -/
theorem work_flushAtThreshold (limits : Limits) (s : State) :
    work (flushAtThreshold limits s) ≤ work s := by
  unfold flushAtThreshold
  split
  · by_cases nothing : NothingToFlush s
    · rw [flushLogs, if_pos nothing]
    · exact Nat.le_of_lt (work_flushLogs nothing)
  · exact Nat.le_refl _

/-- A flush that ends takes its turns off. -/
theorem work_leave {limits : Limits} {place : Nat} {flush : Flush}
    (present : s.flights[place]? = some flush) (entries : List (Nat × Settlement)) :
    work (leave limits s place entries) < work s := by
  have left : (s.flights.map Flush.work).sum =
      flush.work + ((s.flights.eraseIdx place).map Flush.work).sum := Tables.sum_eraseIdx present
  have own := flush.work_pos
  apply Nat.lt_of_le_of_lt (work_flushAtThreshold limits _)
  simp only [work]
  omega

/-- A flush that gets on takes a turn off. -/
theorem work_set {place : Nat} {flush next : Flush} (present : s.flights[place]? = some flush)
    (fewer : next.work < flush.work) (table : List MessageLogRow)
    (settled : List (Nat × Settlement)) :
    work { s with table := table, settled := settled, flights := s.flights.set place next } <
      work s := by
  have moved : ((s.flights.set place next).map Flush.work).sum + flush.work =
      (s.flights.map Flush.work).sum + next.work := Tables.sum_set present
  simp only [work]
  omega

/-- Each turn that goes on by itself takes off from the turns left. -/
theorem work_step (own : action.isOwn) (taken : step limits s action = some after) :
    work after < work s := by
  cases action with
  | process event => exact absurd own not_false
  | resume => exact absurd own not_false
  | acknowledge place => exact absurd own not_false
  | interval =>
    by_cases nothing : NothingToFlush s
    · simp [step, nothing] at taken
    · obtain rfl : flushLogs s = after := by
        simpa [step, nothing] using taken
      exact work_flushLogs nothing
  | lands place =>
    obtain ⟨flush, present, new, unwritten, rfl⟩ := lands_cases taken
    apply work_set present
    simp [Flush.work, new, unwritten]
  | inserted place =>
    obtain ⟨flush, present, landed, unwritten, ⟨_, rfl⟩ | rfl⟩ := inserted_cases taken
    · exact work_leave present _
    · apply work_set present
      simp [Flush.work, landed, unwritten]
  | insertFails place error =>
    obtain ⟨flush, present, _, rfl⟩ := insertFails_cases taken
    exact work_leave present _
  | published place =>
    obtain ⟨flush, present, _, rfl⟩ := published_cases taken
    exact work_leave present _
  | publishFails place error =>
    obtain ⟨flush, present, _, rfl⟩ := publishFails_cases taken
    exact work_leave present _

/-- Only a call makes a promise. -/
theorem made_step (own : action.isOwn) (taken : step limits s action = some after) :
    after.made = s.made := by
  rcases (step_effect taken).purposes with ⟨_, _, rfl, _⟩ | ⟨rfl, _⟩ | ⟨made, _⟩
  · exact absurd own not_false
  · exact absurd own not_false
  · exact made

/-- Nothing goes on by itself any more. -/
def Idle (limits : Limits) (s : State) : Prop :=
  ∀ action : Action, action.isOwn → step limits s action = none

/-- An idle worker has no flush under way. -/
theorem Idle.landed (idle : Idle limits s) : s.flights = [] := by
  cases under : s.flights with
  | nil => rfl
  | cons flush rest =>
    have present : s.flights[0]? = some flush := by
      rw [under]
      rfl
    cases written : flush.written with
    | true =>
      have stuck := idle (.published 0) trivial
      simp [step, published, present, written] at stuck
    | false =>
      have stuck := idle (.insertFails 0 []) trivial
      simp [step, insertFails, present, written] at stuck

/-- An idle worker has nothing buffered. -/
theorem Idle.empty (idle : Idle limits s) : s.messageLogBuffer = [] ∧ s.eventBuffer = [] := by
  by_cases nothing : NothingToFlush s
  · unfold NothingToFlush at nothing
    rw [idle.landed, List.length_nil] at nothing
    rcases nothing with full | ⟨rows, events⟩
    · exact absurd full (by decide)
    · exact ⟨List.length_eq_zero_iff.mp rows, List.length_eq_zero_iff.mp events⟩
  · have stuck := idle .interval trivial
    simp [step, nothing] at stuck

/-- The books, the calls of all rows and the record of what was acknowledged hold in every state. -/
theorem kept_run (unique : (first.map MessageLogRow.key).Nodup)
    (run : Reaches (step limits) anyStep { table := first } s) :
    Books first s ∧ RowsCalled s ∧ AcknowledgedRecorded s := by
  apply run.invariant
  · refine ⟨.start unique, ?_, ?_⟩
    · intro row known
      simp at known
    · intro event listed
      simp at listed
  · intro before action after established _ taken
    obtain ⟨books, called, acknowledged⟩ := established
    exact ⟨books.step taken, called_step called taken, acknowledged_step books acknowledged taken⟩

/-- A row claims a place of an event. -/
def LogEvent.Claims (event : LogEvent) (row : MessageLogRow) : Prop :=
  ∃ own ∈ event.rows, row.key = own.key

/-- Two tables have the same rows at the places of an event. -/
def SameRows (event : LogEvent) (one two : List MessageLogRow) : Prop :=
  ∀ row, event.Claims row → (row ∈ one ↔ row ∈ two)

/-- Nothing but this event claims a place of it. -/
def Alone (event : LogEvent) (calls : List ProcessCall) : Prop :=
  ∀ call ∈ calls, ∀ row ∈ call.event.rows, event.Claims row → call.event = event

/-- The rows of an event claim different places. -/
theorem rows_apart {event : LogEvent} {row other : MessageLogRow} (listed : row ∈ event.rows)
    (also : other ∈ event.rows) (same : row.key = other.key) : row = other := by
  have kinds : row.kind = other.kind := congrArg (fun key => key.2.2.2) same
  by_cases folded : event.kind = .attempt ∧ (orNull event.dispatchedAt).isSome
  · simp only [LogEvent.rows, folded, and_self, ↓reduceIte, List.mem_cons, List.not_mem_nil,
      or_false] at listed also
    rcases listed with rfl | rfl <;> rcases also with rfl | rfl
    · rfl
    · cases kinds
    · cases kinds
    · rfl
  · simp only [LogEvent.rows, folded, ↓reduceIte, List.mem_singleton] at listed also
    exact listed.trans also.symm

/-- Where an event is alone, what the table has at its places one insert of its rows leaves too. -/
theorem Books.only_own (books : Books first s) (called : RowsCalled s) {event : LogEvent}
    (alone : Alone event s.calls) {row : MessageLogRow} (claims : event.Claims row)
    (stored : row ∈ s.table) : row ∈ insertMessageLogs first event.rows := by
  rcases books.grown.origin row stored with before | new
  · exact mem_insertNew before
  · obtain ⟨call, listed, member⟩ := called row new
    have same : call.event = event := alone call listed row member claims
    rw [same] at member
    rcases insert_place member with there | ⟨taken, _, keys, origin⟩
    · exact there
    · rcases origin with old | own
      · obtain rfl := books.grown.one_row stored (books.grown.kept taken old) keys
        exact mem_insertNew old
      · obtain rfl := rows_apart member own keys
        assumption

/-- Where its rows are recorded besides, the table has what one insert of them leaves. -/
theorem Books.as_once (books : Books first s) (called : RowsCalled s) {event : LogEvent}
    (unique : (first.map MessageLogRow.key).Nodup) (alone : Alone event s.calls)
    (recorded : ∀ row ∈ event.rows, Recorded s.table row) :
    SameRows event s.table (insertMessageLogs first event.rows) := by
  have once : Grown first (insertMessageLogs first event.rows) fun row => row ∈ event.rows :=
    (Grown.start unique).insert fun _ member => member
  intro row claims
  constructor
  · exact books.only_own called alone claims
  · intro inserted
    obtain ⟨own, member, key⟩ := claims
    obtain ⟨stored, listed, same⟩ := recorded own member
    have equal : row.key = stored.key := key.trans same.symm
    have also : stored ∈ insertMessageLogs first event.rows :=
      books.only_own called alone ⟨own, member, same⟩ listed
    obtain rfl := once.one_row inserted also equal
    exact listed

/-- What is recorded at the places of an event is there in every later state, and nothing else. -/
theorem same_later {later : State} (books : Books first later) {event : LogEvent}
    (recorded : ∀ row ∈ event.rows, Recorded s.table row)
    (run : Reaches (step limits) anyStep s later) : SameRows event s.table later.table := by
  intro row claims
  constructor
  · exact table_run run row
  · intro there
    obtain ⟨own, member, key⟩ := claims
    obtain ⟨stored, listed, same⟩ := recorded own member
    obtain rfl := books.grown.one_row there (table_run run stored listed) (key.trans same.symm)
    exact listed

/-- What holds of events and rows at all times. -/
structure InStep (first : List MessageLogRow) (s : State) : Prop where
  waits : ∀ call ∈ s.calls, call.Made s.made
  resolved : ∀ call ∈ s.calls, call.resolved s.settled = true →
    ∀ row ∈ call.event.rows, Recorded s.table row
  acknowledged : AcknowledgedRecorded s
  settledOnce : (s.settled.map Prod.fst).Nodup
  origin : ∀ row ∈ s.table, row ∈ first ∨ ∃ call ∈ s.calls, row ∈ call.event.rows

/-- Whatever is processed, fails, is dropped or is under way at once: a call waits for a promise of
each of its rows, it resolves and its event is acknowledged only once all of them are recorded, and
no promise is settled twice. Left alone, the worker comes to rest after a bounded number of turns,
and every promise has its one value by then.

A call that resolved leaves the places of its event as they will ever be, however often the event is
processed again. Where no other event claims a place of it, what stands there is what one insert of
its rows into the first table leaves. -/
theorem rows_before_ack (limits : Limits) {first : List MessageLogRow}
    (unique : (first.map MessageLogRow.key).Nodup) {s : State}
    (run : Reaches (step limits) anyStep { table := first } s) :
    InStep first s ∧
      (∀ actions later, (∀ action ∈ actions, Action.isOwn action) →
        perform (step limits) s actions = some later →
          actions.length ≤ work s ∧ later.made = s.made ∧
            (Idle limits later →
              ∀ promise < s.made.length, ∃! value, (promise, value) ∈ later.settled)) ∧
      ∀ call ∈ s.calls, call.resolved s.settled = true →
        (∀ later, Reaches (step limits) anyStep s later →
          SameRows call.event s.table later.table) ∧
        (Alone call.event s.calls →
          SameRows call.event s.table (insertMessageLogs first call.event.rows)) := by
  obtain ⟨books, called, acknowledged⟩ := kept_run unique run
  refine ⟨?_, ?_, ?_⟩
  · constructor
    · exact books.calls
    · intro call listed resolved
      exact books.recorded listed resolved
    · exact acknowledged
    · exact books.account.settled_nodup
    · intro row stored
      exact (books.grown.origin row stored).imp_right (called row)
  · intro actions later all performed
    have bounded := perform_bounded work (fun _ _ _ => work_step) actions all performed
    have same : later.made = s.made := by
      apply (reaches_kind actions all performed).invariant
      · rfl
      · intro before action after unchanged own taken
        exact (made_step own taken).trans unchanged
    refine ⟨by omega, same, fun idle => ?_⟩
    have laterBooks := (kept_run unique (run.trans (reaches_any actions performed))).1
    have nonePending : pending later = [] := by
      simp [pending, promisesOf, idle.landed, idle.empty]
    have account := laterBooks.account
    rw [nonePending, same] at account
    intro promise inside
    obtain ⟨value, listed⟩ := account.complete inside
    exact ⟨value, listed, fun other also => account.value_unique also listed⟩
  · intro call listed resolved
    have recorded := books.recorded listed resolved
    constructor
    · intro later further
      exact same_later (kept_run unique (run.trans further)).1 recorded further
    · intro alone
      exact books.as_once called unique alone recorded

/-- Two rows make a flush. -/
def twoRows : Limits := ⟨2, 2⟩

/-- An outcome that stands for its dispatch too. -/
def combined : LogEvent where
  type := .delivered
  projectId := "project".toList
  taskId := "task".toList
  channel := .email
  attempt := some 1
  dispatchedAt := some "2026-01-01T00:00:00.000Z".toList

/-- The answer of the first insert is lost, so that the event is processed a second time, with an
event to publish that fails behind its rows. -/
def lostAnswer : List Action :=
  [.process combined, .lands 0, .insertFails 0 "timeout".toList, .resume, .process combined,
    .lands 0, .inserted 0, .publishFails 0 "unavailable".toList, .acknowledge 1]

/-- What happened there kept events and rows in step. -/
theorem rows_before_ack_lost :
    InStep [] ((perform (step twoRows) { table := [] } lostAnswer).getD { table := [] }) :=
  have unique : (([] : List MessageLogRow).map MessageLogRow.key).Nodup := List.nodup_nil
  (rows_before_ack twoRows unique (reaches_any_performed lostAnswer (by decide))).1

/-- The event was acknowledged, with one row of each kind. -/
example : ((perform (step twoRows) { table := [] } lostAnswer).map fun s =>
    (s.acknowledged, s.table)) = some ([combined], combined.rows) := by decide

end Notifkit.Events
