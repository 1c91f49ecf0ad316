import Notifkit.Foundations.Runs
import Notifkit.Delivery.Outcomes
import Notifkit.Pipeline.QuietHours

/-!
# The times tasks are parked for

The sends of one notification to one recipient, from the events of the enricher to the tasks that
wait for their time. The engine judges the time of an event by the quiet hours; the gates behind it
and the AI worker take their time before they park or dispatch. Delivery parks a task again where
its providers have no capacity left or a send failed, and makes an event of the next channel where
it gives up.

Whatever came up stays: an event or a task may be processed again at any later time.
-/

namespace Notifkit.Pipeline.ParkingTimes

open Runs

/-- What a task remembers of its earlier trips. -/
structure TaskCounts where
  deliveryAttemptCount : Nat := 0
  throttleAttemptCount : Nat := 0
deriving DecidableEq

/-- A task that waits for its time. -/
structure ParkedTask where
  sendAt : Int
  counts : TaskCounts
deriving DecidableEq

/-- Where the sends of a notification are. Of an event it matters when it is scheduled for. -/
structure Sends where
  now : Int
  enriched : List (Option Int) := []
  /-- past the quiet hours in the engine -/
  judged : List (Option Int) := []
  /-- waiting for generated texts -/
  aiPending : List (Option Int) := []
  outbound : List TaskCounts := []
  parked : List ParkedTask := []
deriving DecidableEq

inductive Action where
  | tick (ms : Nat)
  | judge (position : Nat)
  | routeToAi (position : Nat)
  | dispatchJudged (position : Nat)
  | dispatchGenerated (position : Nat)
  | release (position : Nat)
  | deferForCapacity (position retryAfterMs windowMs spreadMs : Nat)
  | retryLater (position attempt : Nat)
  | fallbackToNextChannel (position : Nat)
deriving DecidableEq

def RETRY_BACKOFF_MS : List Nat := [30_000, 120_000, 600_000]

def retryDelayMs (priorFailures : Nat) : Nat :=
  RETRY_BACKOFF_MS.getD (min priorFailures (RETRY_BACKOFF_MS.length - 1)) 0

/-- The attempts the engine and the AI worker give a task. -/
def maxAttempts : Nat := 3

/-- When an event is sent if nothing comes up. -/
def sendTime (now : Int) (scheduledAt : Option Int) : Int :=
  let requestedAt := scheduledAt.getD now
  if now < requestedAt then requestedAt else now

/-- The windows of a recipient. -/
def windowsOf (recipient : RecipientProfile) : List Window :=
  recipient.quietHours.filterMap QuietHours.window

section System

variable (zoneOf : Text → Zone) (recipient : RecipientProfile) (priority : NotificationPriority)

/-- The quiet hours of the engine: the time an event is scheduled for afterwards. -/
def deferQuiet (now : Int) (scheduledAt : Option Int) : Option Int :=
  if recipient.quietHours ≠ [] ∧ priority ≠ .critical then
    match isInQuietHours (zoneOf recipient.timezone) (windowsOf recipient)
        (sendTime now scheduledAt) with
    | some nextActiveTime => some nextActiveTime
    | none => scheduledAt
  else scheduledAt

/-- `scheduleOrDispatch`: parks a task that is due later. -/
def Sends.scheduleOrDispatch (sends : Sends) (scheduledAt : Option Int) : Sends :=
  let sendAt := scheduledAt.getD sends.now
  if sends.now < sendAt then { sends with parked := sends.parked ++ [⟨sendAt, {}⟩] }
  else { sends with outbound := sends.outbound ++ [{}] }

/-- `reschedule`: parks a task again. -/
def Sends.reschedule (sends : Sends) (delayMs : Nat) (counts : TaskCounts) : Sends :=
  { sends with parked := sends.parked ++ [⟨sends.now + delayMs, counts⟩] }

def step (sends : Sends) : Action → Option Sends
  | .tick ms => some { sends with now := sends.now + ms }
  | .judge position => do
    let scheduledAt ← sends.enriched[position]?
    let deferred := deferQuiet zoneOf recipient priority sends.now scheduledAt
    some { sends with judged := sends.judged ++ [deferred] }
  | .routeToAi position => do
    let scheduledAt ← sends.judged[position]?
    some { sends with aiPending := sends.aiPending ++ [scheduledAt] }
  | .dispatchJudged position => do
    let scheduledAt ← sends.judged[position]?
    some (sends.scheduleOrDispatch scheduledAt)
  | .dispatchGenerated position => do
    let scheduledAt ← sends.aiPending[position]?
    some (sends.scheduleOrDispatch scheduledAt)
  | .release position => do
    let task ← sends.parked[position]?
    if task.sendAt ≤ sends.now then
      some { sends with outbound := sends.outbound ++ [task.counts] }
    else none
  | .deferForCapacity position retryAfterMs windowMs spreadMs => do
    let counts ← sends.outbound[position]?
    let throttleAttemptCount := counts.throttleAttemptCount + 1
    -- the spread is drawn from as many windows as there were deferrals, ten at most
    if throttleAttemptCount ≤ Delivery.Log.MAX_THROTTLE_DEFERRALS ∧
        spreadMs ≤ windowMs * min throttleAttemptCount 10 then
      some (sends.reschedule (retryAfterMs + spreadMs)
        { counts with throttleAttemptCount := throttleAttemptCount })
    else none
  | .retryLater position attempt => do
    let counts ← sends.outbound[position]?
    let attemptNo := counts.deliveryAttemptCount + attempt
    if attemptNo < maxAttempts then
      some (sends.reschedule (retryDelayMs counts.deliveryAttemptCount)
        { counts with deliveryAttemptCount := attemptNo })
    else none
  | .fallbackToNextChannel position => do
    let _ ← sends.outbound[position]?
    some { sends with enriched := sends.enriched ++ [none] }

/-- A time is outside the recipient's quiet hours. -/
def Outside (date : Int) : Prop :=
  ¬ InQuietHours (zoneOf recipient.timezone) (windowsOf recipient) date

/-- Every task waits for a time outside the quiet hours. -/
def ParkedOutside (sends : Sends) : Prop :=
  ∀ task ∈ sends.parked, Outside zoneOf recipient task.sendAt

/-- Some minute of the day is in no window. -/
def LeavesTime : Prop :=
  ∃ minute : Int, 0 ≤ minute ∧ minute < 1440 ∧
    ∀ window ∈ windowsOf recipient, ¬ window.Covers minute

/-- What a step has to find for its task to wait outside the quiet hours: the quiet hours a send
falls into end after eleven windows, and the delay of a deferral or a retry does not end in any. -/
def DelaysEndOutside (sends : Sends) : Action → Prop
  | .judge position => ∀ scheduledAt, sends.enriched[position]? = some scheduledAt →
      QuietHoursEnd (zoneOf recipient.timezone) (windowsOf recipient)
        (sendTime sends.now scheduledAt)
  | .deferForCapacity _ retryAfterMs _ spreadMs =>
      Outside zoneOf recipient (sends.now + (retryAfterMs + spreadMs : Nat))
  | .retryLater position _ => ∀ counts, sends.outbound[position]? = some counts →
      Outside zoneOf recipient (sends.now + (retryDelayMs counts.deliveryAttemptCount : Nat))
  | _ => True

/-- A time that an event is scheduled for is outside the quiet hours, unless it is over. -/
def Settled (now : Int) (scheduledAt : Option Int) : Prop :=
  ∀ time, scheduledAt = some time → now < time → Outside zoneOf recipient time

/-- What holds of all sends: events past the engine's quiet hours and waiting tasks have times
outside these. -/
structure AllOutside (sends : Sends) : Prop where
  judged : ∀ scheduledAt ∈ sends.judged, Settled zoneOf recipient sends.now scheduledAt
  aiPending : ∀ scheduledAt ∈ sends.aiPending, Settled zoneOf recipient sends.now scheduledAt
  parked : ParkedOutside zoneOf recipient sends

end System

section Steps

variable {zoneOf : Text → Zone} {recipient : RecipientProfile} {priority : NotificationPriority}
  {sends next : Sends}

theorem windowsOf_nil (none : recipient.quietHours = []) : windowsOf recipient = [] := by
  rw [windowsOf, none]
  rfl

/-- The engine's quiet hours leave an event with a time outside them, if they end in time. -/
theorem settled_deferQuiet (noncritical : priority ≠ .critical) {now : Int}
    {scheduledAt : Option Int} (ends : QuietHoursEnd (zoneOf recipient.timezone)
      (windowsOf recipient) (sendTime now scheduledAt)) :
    Settled zoneOf recipient now (deferQuiet zoneOf recipient priority now scheduledAt) := by
  intro time scheduled future
  simp only [deferQuiet] at scheduled
  by_cases empty : recipient.quietHours = []
  · rintro ⟨_, _, window, listed, _⟩
    rw [windowsOf_nil empty] at listed
    exact List.not_mem_nil listed
  rw [if_pos ⟨empty, noncritical⟩] at scheduled
  cases quiet : isInQuietHours (zoneOf recipient.timezone) (windowsOf recipient)
      (sendTime now scheduledAt) with
  | some nextActiveTime =>
    simp only [quiet, Option.some.injEq] at scheduled
    subst scheduled
    exact (isInQuietHours_outside_iff quiet).mpr ends
  | none =>
    simp only [quiet] at scheduled
    have asScheduled : sendTime now scheduledAt = time := by
      simp only [sendTime, scheduled, Option.getD_some]
      exact if_pos future
    rw [asScheduled] at quiet
    exact isInQuietHours_eq_none_iff.mp quiet

/-- A task that is parked for a time outside the quiet hours joins the others. -/
theorem parkedOutside_append {task : ParkedTask} (outside : ParkedOutside zoneOf recipient sends)
    (own : Outside zoneOf recipient task.sendAt) :
    ∀ parked ∈ sends.parked ++ [task], Outside zoneOf recipient parked.sendAt := by
  intro parked member
  rcases List.mem_append.mp member with before | added
  · exact outside parked before
  · rw [List.mem_singleton.mp added]
    exact own

/-- An event with a settled time is parked outside the quiet hours, or dispatched. -/
theorem AllOutside.scheduleOrDispatch (outside : AllOutside zoneOf recipient sends)
    {scheduledAt : Option Int} (settled : Settled zoneOf recipient sends.now scheduledAt) :
    AllOutside zoneOf recipient (sends.scheduleOrDispatch scheduledAt) := by
  unfold Sends.scheduleOrDispatch
  dsimp only
  cases scheduledAt with
  | none =>
    rw [Option.getD_none, if_neg (Int.lt_irrefl _)]
    exact ⟨outside.judged, outside.aiPending, outside.parked⟩
  | some time =>
    split
    next future =>
      exact ⟨outside.judged, outside.aiPending,
        parkedOutside_append outside.parked (settled time rfl future)⟩
    next => exact ⟨outside.judged, outside.aiPending, outside.parked⟩

/-- A settled time stays settled. -/
theorem Settled.later {now later : Int} {scheduledAt : Option Int} (order : now ≤ later)
    (settled : Settled zoneOf recipient now scheduledAt) :
    Settled zoneOf recipient later scheduledAt :=
  fun time scheduled future => settled time scheduled (Int.lt_of_le_of_lt order future)

/-- Steps whose delays end outside the quiet hours keep all times outside them. -/
theorem AllOutside.step (noncritical : priority ≠ .critical) {action : Action}
    (outside : AllOutside zoneOf recipient sends)
    (delays : DelaysEndOutside zoneOf recipient sends action)
    (taken : step zoneOf recipient priority sends action = some next) :
    AllOutside zoneOf recipient next := by
  cases action with
  | tick ms =>
    have passed : sends.now ≤ sends.now + (ms : Int) := by omega
    rw [← Option.some.inj taken]
    exact ⟨fun scheduledAt member => (outside.judged scheduledAt member).later passed,
      fun scheduledAt member => (outside.aiPending scheduledAt member).later passed, outside.parked⟩
  | judge position =>
    obtain ⟨scheduledAt, found, same⟩ := Option.bind_eq_some_iff.mp taken
    rw [← Option.some.inj same]
    refine ⟨fun other member => ?_, outside.aiPending, outside.parked⟩
    rcases List.mem_append.mp member with before | added
    · exact outside.judged other before
    · rw [List.mem_singleton.mp added]
      exact settled_deferQuiet noncritical (delays scheduledAt found)
  | routeToAi position =>
    obtain ⟨scheduledAt, found, same⟩ := Option.bind_eq_some_iff.mp taken
    rw [← Option.some.inj same]
    refine ⟨outside.judged, fun other member => ?_, outside.parked⟩
    rcases List.mem_append.mp member with before | added
    · exact outside.aiPending other before
    · rw [List.mem_singleton.mp added]
      exact outside.judged scheduledAt (List.mem_of_getElem? found)
  | dispatchJudged position =>
    obtain ⟨scheduledAt, found, same⟩ := Option.bind_eq_some_iff.mp taken
    rw [← Option.some.inj same]
    exact outside.scheduleOrDispatch (outside.judged scheduledAt (List.mem_of_getElem? found))
  | dispatchGenerated position =>
    obtain ⟨scheduledAt, found, same⟩ := Option.bind_eq_some_iff.mp taken
    rw [← Option.some.inj same]
    exact outside.scheduleOrDispatch (outside.aiPending scheduledAt (List.mem_of_getElem? found))
  | release position =>
    obtain ⟨task, found, due⟩ := Option.bind_eq_some_iff.mp taken
    rw [Option.ite_none_right_eq_some] at due
    rw [← Option.some.inj due.2]
    exact ⟨outside.judged, outside.aiPending, outside.parked⟩
  | deferForCapacity position retryAfterMs windowMs spreadMs =>
    obtain ⟨counts, found, within⟩ := Option.bind_eq_some_iff.mp taken
    rw [Option.ite_none_right_eq_some] at within
    rw [← Option.some.inj within.2]
    exact ⟨outside.judged, outside.aiPending, parkedOutside_append outside.parked delays⟩
  | retryLater position attempt =>
    obtain ⟨counts, found, within⟩ := Option.bind_eq_some_iff.mp taken
    rw [Option.ite_none_right_eq_some] at within
    rw [← Option.some.inj within.2]
    exact ⟨outside.judged, outside.aiPending,
      parkedOutside_append outside.parked (delays counts found)⟩
  | fallbackToNextChannel position =>
    obtain ⟨counts, found, same⟩ := Option.bind_eq_some_iff.mp taken
    rw [← Option.some.inj same]
    exact ⟨outside.judged, outside.aiPending, outside.parked⟩

end Steps

/-- A notification that was only requested. -/
structure Requested (sends : Sends) : Prop where
  judged : sends.judged = []
  aiPending : sends.aiPending = []
  outbound : sends.outbound = []
  parked : sends.parked = []

theorem Requested.allOutside {zoneOf : Text → Zone} {recipient : RecipientProfile} {sends : Sends}
    (requested : Requested sends) : AllOutside zoneOf recipient sends where
  judged _ member := nomatch requested.judged ▸ member
  aiPending _ member := nomatch requested.aiPending ▸ member
  parked _ member := nomatch requested.parked ▸ member

section Necessity

variable {zoneOf : Text → Zone} {recipient : RecipientProfile} {priority : NotificationPriority}
  {sends next : Sends}

/-- Parking a task inside the quiet hours breaks what is asked for. -/
theorem not_parkedOutside_append {task : ParkedTask} {later : Sends}
    (parked : later.parked = sends.parked ++ [task]) (inside : ¬ Outside zoneOf recipient task.sendAt) :
    ¬ ParkedOutside zoneOf recipient later := by
  intro outside
  refine inside (outside task ?_)
  rw [parked]
  exact List.mem_append_right _ (List.mem_singleton.mpr rfl)

/-- A time that is put off into the quiet hours is parked there by the next step. -/
theorem deferQuiet_inside (noncritical : priority ≠ .critical) {now : Int}
    {scheduledAt : Option Int}
    (endless : ¬ QuietHoursEnd (zoneOf recipient.timezone) (windowsOf recipient)
      (sendTime now scheduledAt)) :
    ∃ time, deferQuiet zoneOf recipient priority now scheduledAt = some time ∧
      now < time ∧ ¬ Outside zoneOf recipient time := by
  have present : recipient.quietHours ≠ [] := by
    intro empty
    rw [windowsOf_nil empty] at endless
    exact endless fun _ _ _ covering => nomatch covering
  have notBefore : now ≤ sendTime now scheduledAt := by
    simp only [sendTime]
    split
    next future => exact Int.le_of_lt future
    next => exact Int.le_refl _
  cases quiet : isInQuietHours (zoneOf recipient.timezone) (windowsOf recipient)
      (sendTime now scheduledAt) with
  | none =>
    refine absurd ?_ endless
    rintro offset known window covering
    refine absurd ?_ (isInQuietHours_eq_none_iff.mp quiet)
    rw [known]
    refine Classical.byContradiction fun outside => ?_
    rw [windowAt_eq_none_iff.mpr outside] at covering
    cases covering
  | some time =>
    refine ⟨time, ?_, Int.lt_of_le_of_lt notBefore (lt_isInQuietHours quiet), ?_⟩
    · simp only [deferQuiet, if_pos (And.intro present noncritical), quiet]
    · exact fun outside => endless ((isInQuietHours_outside_iff quiet).mp outside)

/-- After a step whose delay ends in the quiet hours a task is parked there, or can be. -/
theorem parked_inside_after (noncritical : priority ≠ .critical) {action : Action}
    (taken : step zoneOf recipient priority sends action = some next)
    (inside : ¬ DelaysEndOutside zoneOf recipient sends action) :
    ∃ later, Reaches (step zoneOf recipient priority) anyStep next later ∧
      ¬ ParkedOutside zoneOf recipient later := by
  cases action with
  | judge position =>
    simp only [DelaysEndOutside, not_forall] at inside
    obtain ⟨scheduledAt, found, endless⟩ := inside
    obtain ⟨time, deferred, future, quiet⟩ := deferQuiet_inside noncritical endless
    simp only [step, found, Option.bind_eq_bind, Option.bind_some, deferred,
      Option.some.injEq] at taken
    subst taken
    have dispatched : step zoneOf recipient priority
        { sends with judged := sends.judged ++ [some time] }
        (.dispatchJudged sends.judged.length) =
        some { sends with
          judged := sends.judged ++ [some time], parked := sends.parked ++ [⟨time, {}⟩] } := by
      simp [step, Sends.scheduleOrDispatch, future]
    exact ⟨_, Reaches.here.next trivial dispatched, not_parkedOutside_append rfl quiet⟩
  | deferForCapacity position retryAfterMs windowMs spreadMs =>
    obtain ⟨counts, found, within⟩ := Option.bind_eq_some_iff.mp taken
    rw [Option.ite_none_right_eq_some] at within
    rw [← Option.some.inj within.2]
    exact ⟨_, .here, not_parkedOutside_append rfl inside⟩
  | retryLater position attempt =>
    simp only [DelaysEndOutside, not_forall] at inside
    obtain ⟨counts, found, quiet⟩ := inside
    simp only [step, found, Option.bind_eq_bind, Option.bind_some,
      Option.ite_none_right_eq_some] at taken
    rw [← Option.some.inj taken.2]
    exact ⟨_, .here, not_parkedOutside_append rfl quiet⟩
  | _ => exact absurd trivial inside

end Necessity

/-- Tasks of a notification that is not critical wait for times outside the recipient's quiet hours
as long as no delay of a retry or of a deferral ends in them and they end after eleven windows. A
step that does not keep to this parks a task inside them, or leaves one to be. -/
theorem parked_outside_quiet_hours (zoneOf : Text → Zone) (recipient : RecipientProfile)
    (priority : NotificationPriority) (noncritical : priority ≠ .critical) :
    (∀ start sends, Requested start →
      Reaches (step zoneOf recipient priority) (DelaysEndOutside zoneOf recipient) start sends →
      ParkedOutside zoneOf recipient sends) ∧
    ∀ sends action next, step zoneOf recipient priority sends action = some next →
      ¬ DelaysEndOutside zoneOf recipient sends action →
      ∃ later, Reaches (step zoneOf recipient priority) anyStep next later ∧
        ¬ ParkedOutside zoneOf recipient later := by
  constructor
  · intro start sends requested run
    have outside : AllOutside zoneOf recipient sends :=
      run.invariant requested.allOutside fun _ _ _ before delays taken =>
        before.step noncritical delays taken
    exact outside.parked
  · exact fun sends action next taken inside => parked_inside_after noncritical taken inside

/-- A recipient who sleeps from ten to eight. -/
def sleeper : RecipientProfile where
  timezone := "UTC".toList
  optedOut := false
  channels := []
  quietHours := [⟨"22:00".toList, "08:00".toList⟩]

/-- Requested twenty seconds before ten. -/
def evening : Sends where
  now := 79_180_000
  enriched := [none]

def utc (_ : Text) : Zone := some fun _ => 0

/-- The send fails at once. -/
def failedEvening : List Action := [.judge 0, .dispatchJudged 0, .retryLater 0 1]

def parkedEvening : Sends where
  now := 79_180_000
  enriched := [none]
  judged := [none]
  outbound := [{}]
  parked := [⟨79_210_000, ⟨1, 0⟩⟩]

/-- A retry of thirty seconds is parked for ten seconds past ten. -/
theorem retry_parked_in_quiet_hours :
    ¬ ∀ (zoneOf : Text → Zone) (recipient : RecipientProfile) (priority : NotificationPriority)
      (start sends : Sends), priority ≠ .critical → LeavesTime recipient → Requested start →
      Reaches (step zoneOf recipient priority) anyStep start sends →
      ParkedOutside zoneOf recipient sends := by
  intro claimed
  have leaves : LeavesTime sleeper := ⟨600, by decide, by decide, by decide +kernel⟩
  have run : Reaches (step utc sleeper .normal) anyStep evening parkedEvening :=
    reaches_any failedEvening (by decide +kernel)
  refine claimed utc sleeper .normal evening parkedEvening nofun leaves ⟨rfl, rfl, rfl, rfl⟩ run
    ⟨79_210_000, ⟨1, 0⟩⟩ (by decide +kernel) ?_
  refine ⟨fun _ => 0, rfl, ⟨⟨22, 0⟩, ⟨8, 0⟩⟩, by decide +kernel, by decide +kernel⟩

/-- The same send, refused for want of capacity at noon, waits for a minute past noon. -/
theorem parked_outside_quiet_hours_noon :
    ParkedOutside utc sleeper
      { now := 43_200_000, enriched := [none], judged := [none], outbound := [{}],
        parked := [⟨43_260_000, ⟨0, 1⟩⟩] } :=
  (parked_outside_quiet_hours utc sleeper .normal nofun).1
    { now := 43_200_000, enriched := [none] } _ ⟨rfl, rfl, rfl, rfl⟩
    (reaches_of_perform [.judge 0, .dispatchJudged 0, .deferForCapacity 0 50_000 60_000 10_000]
      (by
        refine ⟨?_, trivial, ?_, trivial⟩
        · rintro _ ⟨⟩
          exact quietHoursEnd_fixed (by decide +kernel) 600 (by decide) (by decide)
            (by decide +kernel) _
        · rintro ⟨_, ⟨⟩, window, listed, covers⟩
          revert covers
          revert window
          decide +kernel)
      (by decide +kernel))

end Notifkit.Pipeline.ParkingTimes
