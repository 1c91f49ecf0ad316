import Notifkit.Pipeline.Gates

/-!
# Quiet hours

The windows of the day in which a user wants no message, in the time of the user's zone, and the
time a send that falls into one is put off to: the end of the window, or of the last one where
windows that end in each other follow.

Instants are milliseconds since the start of 1970. What the language knows of a zone is a parameter:
how many seconds its clocks are ahead at an instant. A date is counted in days, so that the day
after is one more.
-/

namespace Notifkit.Pipeline

/-- A time of day, as `HH:MM`. -/
structure TimeOfDay where
  hour : Fin 24
  minute : Fin 60
deriving DecidableEq

/-- The minutes since midnight. -/
def TimeOfDay.minutes (time : TimeOfDay) : Int := time.hour * 60 + time.minute

theorem TimeOfDay.minutes_bounds (time : TimeOfDay) : 0 ≤ time.minutes ∧ time.minutes < 1440 := by
  have hour : time.hour.val < 24 := time.hour.isLt
  have minute : time.minute.val < 60 := time.minute.isLt
  simp only [minutes]
  omega

/-- The value of a digit. -/
def digit (char : Char) : Option Nat :=
  if char.isDigit then some (char.toNat - '0'.toNat) else none

/-- A time of day is read from the one text it is written as; the schema admits no other. -/
def TimeOfDay.read : Text → Option TimeOfDay
  | [tens, ones, ':', tens', ones'] => do
    let hour := (← digit tens) * 10 + (← digit ones)
    let minute := (← digit tens') * 10 + (← digit ones')
    if bounds : hour < 24 ∧ minute < 60 then some ⟨⟨hour, bounds.1⟩, ⟨minute, bounds.2⟩⟩ else none
  | _ => none

/-- A quiet time between two times of day. -/
structure Window where
  start : TimeOfDay
  stop : TimeOfDay
deriving DecidableEq

/-- The window of a row. -/
def QuietHours.window (hours : QuietHours) : Option Window := do
  some ⟨← TimeOfDay.read hours.startTime, ← TimeOfDay.read hours.endTime⟩

/-- A window covers a minute of the day; one that ends before it starts goes over midnight. -/
def Window.Covers (window : Window) (currentMinutes : Int) : Prop :=
  if window.start.minutes ≤ window.stop.minutes then
    window.start.minutes ≤ currentMinutes ∧ currentMinutes < window.stop.minutes
  else window.start.minutes ≤ currentMinutes ∨ currentMinutes < window.stop.minutes

instance (window : Window) (currentMinutes : Int) : Decidable (window.Covers currentMinutes) :=
  if ordered : window.start.minutes ≤ window.stop.minutes then
    decidable_of_iff
      (window.start.minutes ≤ currentMinutes ∧ currentMinutes < window.stop.minutes)
      (by rw [Window.Covers, if_pos ordered])
  else
    decidable_of_iff
      (window.start.minutes ≤ currentMinutes ∨ currentMinutes < window.stop.minutes)
      (by rw [Window.Covers, if_neg ordered])

/-- The seconds the clocks of a zone are ahead of UTC at an instant; absent for a name that is none
of a zone. -/
abbrev Zone := Option (Int → Int)

section Clocks

variable (offset : Int → Int)

/-- What a local clock shows, in seconds as if it were UTC. -/
def localSeconds (date : Int) : Int := date / 1000 + offset date

/-- The local date. -/
def localDay (date : Int) : Int := localSeconds offset date / 86400

/-- The minutes of the local day that are over. -/
def currentMinutes (date : Int) : Int := localSeconds offset date % 86400 / 60

/-- Corrects an instant by what its local clock is off, a number of times at most. -/
def correct (target : Int) : Nat → Int → Int
  | 0, utcMs => utcMs
  | iterations + 1, utcMs =>
    let diff := target - localSeconds offset utcMs
    if diff = 0 then utcMs else correct target iterations (utcMs + 1000 * diff)

/-- `localTimeToUtc`: three corrections, from the local time read as UTC. -/
def localTimeToUtc (target : Int) : Int := correct offset target 3 (1000 * target)

/-- The local time a window ends at next. -/
def targetOf (window : Window) (date : Int) : Int :=
  let day := localDay offset date
  let targetDay := if window.stop.minutes ≤ currentMinutes offset date then day + 1 else day
  targetDay * 86400 + window.stop.minutes * 60

/-- When a window ends. Where the local time occurs twice and the first one is past, the offset of
now gives the second. -/
def nextActive (window : Window) (date : Int) : Int :=
  let target := targetOf offset window date
  let nextActive := localTimeToUtc offset target
  if nextActive ≤ date then
    let offsetMs := 1000 * localSeconds offset date - date / 1000 * 1000
    1000 * target - offsetMs
  else nextActive

/-- The first window that covers an instant. -/
def windowAt (windows : List Window) (date : Int) : Option Window :=
  windows.find? fun window => window.Covers (currentMinutes offset date)

/-- `checkWindowAt`: when the window that covers an instant ends; absent outside all of them. -/
def checkWindowAt (windows : List Window) (date : Int) : Option Int :=
  (windowAt offset windows date).map fun window => nextActive offset window date

/-- Follows windows that end in each other, so many times at most. -/
def followWindows (windows : List Window) : Nat → Int → Int
  | 0, candidateTime => candidateTime
  | more + 1, candidateTime =>
    match checkWindowAt offset windows candidateTime with
    | none => candidateTime
    | some nextActiveTime =>
      if nextActiveTime ≤ candidateTime then candidateTime
      else followWindows windows more nextActiveTime

end Clocks

/-- `isInQuietHours`: the time a send is put off to; absent outside quiet hours, and where the zone
is none. -/
def isInQuietHours (zone : Zone) (windows : List Window) (fromDate : Int) : Option Int := do
  let offset ← zone
  let candidateTime ← checkWindowAt offset windows fromDate
  some (followWindows offset windows 10 candidateTime)

/-- An instant is in quiet hours: the local time is covered by a window. -/
def InQuietHours (zone : Zone) (windows : List Window) (date : Int) : Prop :=
  ∃ offset, zone = some offset ∧ ∃ window ∈ windows, window.Covers (currentMinutes offset date)

/-- Of windows that each end in the next, so many are left behind: the last of them ends outside
all. -/
def EndsWithin (offset : Int → Int) (windows : List Window) : Nat → Int → Prop
  | 0, date => windowAt offset windows date = none
  | more + 1, date => ∀ window, windowAt offset windows date = some window →
      EndsWithin offset windows more (nextActive offset window date)

/-- The quiet hours a time falls into end after eleven windows at most. -/
def QuietHoursEnd (zone : Zone) (windows : List Window) (date : Int) : Prop :=
  ∀ offset, zone = some offset → EndsWithin offset windows 11 date

section Clocks

variable {offset : Int → Int} {windows : List Window} {date : Int}

/-- The windows are searched for one that covers the time. -/
theorem windowAt_eq_none_iff :
    windowAt offset windows date = none ↔ ¬ InQuietHours (some offset) windows date := by
  simp [windowAt, InQuietHours]

/-- A window ends on the same day, or on the next where its end is over. -/
theorem targetOf_cases (offset : Int → Int) (window : Window) (date : Int) :
    (window.stop.minutes ≤ currentMinutes offset date ∧ targetOf offset window date =
      (localDay offset date + 1) * 86400 + window.stop.minutes * 60) ∨
    (currentMinutes offset date < window.stop.minutes ∧ targetOf offset window date =
      localDay offset date * 86400 + window.stop.minutes * 60) := by
  by_cases isOver : window.stop.minutes ≤ currentMinutes offset date
  · exact .inl ⟨isOver, by simp only [targetOf, if_pos isOver]⟩
  · exact .inr ⟨Int.not_le.mp isOver, by simp only [targetOf, if_neg isOver]⟩

/-- A window ends after each time before its end. -/
theorem localSeconds_lt_targetOf (window : Window) (date : Int) :
    localSeconds offset date < targetOf offset window date := by
  obtain ⟨_, _⟩ := window.stop.minutes_bounds
  rcases targetOf_cases offset window date with ⟨_, target⟩ | ⟨before, target⟩
  · simp only [target, localDay]
    omega
  · simp only [currentMinutes] at before
    simp only [target, localDay]
    omega

/-- A send is only put off to later. -/
theorem lt_nextActive (window : Window) (date : Int) : date < nextActive offset window date := by
  have later : localSeconds offset date < targetOf offset window date :=
    localSeconds_lt_targetOf window date
  simp only [nextActive]
  split
  · simp only [localSeconds] at later ⊢
    omega
  · omega

/-- Following windows leads to no earlier time. -/
theorem le_followWindows (more : Nat) (date : Int) :
    date ≤ followWindows offset windows more date := by
  induction more generalizing date with
  | zero => exact Int.le_refl date
  | succ more inductionHypothesis =>
    rw [followWindows]
    split
    · exact Int.le_refl date
    · split
      · exact Int.le_refl date
      next later =>
        exact Int.le_trans (Int.le_of_lt (Int.not_le.mp later)) (inductionHypothesis _)

/-- Following windows ends outside them exactly where they end in time. -/
theorem windowAt_followWindows (more : Nat) (date : Int) :
    windowAt offset windows (followWindows offset windows more date) = none ↔
      EndsWithin offset windows more date := by
  induction more generalizing date with
  | zero => exact Iff.rfl
  | succ more inductionHypothesis =>
    rw [followWindows, EndsWithin, checkWindowAt]
    cases covering : windowAt offset windows date with
    | none => simp [covering]
    | some window =>
      simp only [Option.map_some, Option.some.injEq, forall_eq']
      rw [if_neg (Int.not_le.mpr (lt_nextActive window date)), inductionHypothesis]

end Clocks

section Deferral

variable {zone : Zone} {windows : List Window} {date : Int}

/-- A send is put off exactly in quiet hours. -/
theorem isInQuietHours_eq_none_iff :
    isInQuietHours zone windows date = none ↔ ¬ InQuietHours zone windows date := by
  cases zone with
  | none => simp [isInQuietHours, InQuietHours]
  | some offset =>
    rw [← windowAt_eq_none_iff]
    cases covering : windowAt offset windows date with
    | none => simp [isInQuietHours, checkWindowAt, covering]
    | some window => simp [isInQuietHours, checkWindowAt, covering]

/-- A send is put off to later. -/
theorem lt_isInQuietHours {nextActiveTime : Int}
    (deferred : isInQuietHours zone windows date = some nextActiveTime) :
    date < nextActiveTime := by
  cases zone with
  | none => simp [isInQuietHours] at deferred
  | some offset =>
    simp only [isInQuietHours, checkWindowAt, Option.bind_eq_bind, Option.bind_some,
      Option.bind_eq_some_iff, Option.map_eq_some_iff, Option.some.injEq] at deferred
    obtain ⟨_, ⟨window, _, rfl⟩, rfl⟩ := deferred
    exact Int.lt_of_lt_of_le (lt_nextActive window date) (le_followWindows 10 _)

/-- The time a send is put off to is outside quiet hours exactly where these end in time. -/
theorem isInQuietHours_outside_iff {nextActiveTime : Int}
    (deferred : isInQuietHours zone windows date = some nextActiveTime) :
    ¬ InQuietHours zone windows nextActiveTime ↔ QuietHoursEnd zone windows date := by
  cases zone with
  | none => simp [isInQuietHours] at deferred
  | some offset =>
    simp only [isInQuietHours, checkWindowAt, Option.bind_eq_bind, Option.bind_some,
      Option.bind_eq_some_iff, Option.map_eq_some_iff, Option.some.injEq] at deferred
    obtain ⟨_, ⟨window, covering, rfl⟩, rfl⟩ := deferred
    rw [← windowAt_eq_none_iff, windowAt_followWindows]
    simp [QuietHoursEnd, EndsWithin, covering]

end Deferral

section FixedZone

variable {ahead : Int} {windows : List Window} {window : Window} {date free : Int}

/-- Where clocks never change, the first correction is the only one. -/
theorem localTimeToUtc_fixed (target : Int) :
    localTimeToUtc (fun _ => ahead) target = 1000 * (target - ahead) := by
  have settled : ∀ iterations, correct (fun _ => ahead) target iterations
      (1000 * (target - ahead)) = 1000 * (target - ahead) := by
    intro iterations
    cases iterations with
    | zero => rfl
    | succ iterations =>
      rw [correct]
      exact if_pos (by simp only [localSeconds]; omega)
  rw [localTimeToUtc, correct]
  by_cases exact : target - localSeconds (fun _ => ahead) (1000 * target) = 0
  · simp only [localSeconds] at exact
    rw [if_pos (by simpa only [localSeconds] using exact)]
    omega
  · have moved : 1000 * target + 1000 * (target - localSeconds (fun _ => ahead) (1000 * target)) =
        1000 * (target - ahead) := by
      simp only [localSeconds]
      omega
    simp only [if_neg exact, moved, settled]

/-- Where clocks never change, a window ends when they show its end. -/
theorem nextActive_fixed (window : Window) (date : Int) :
    nextActive (fun _ => ahead) window date =
      1000 * (targetOf (fun _ => ahead) window date - ahead) := by
  have later : localSeconds (fun _ => ahead) date < targetOf (fun _ => ahead) window date :=
    localSeconds_lt_targetOf window date
  have past : ¬ 1000 * (targetOf (fun _ => ahead) window date - ahead) ≤ date := by
    simp only [localSeconds] at later
    omega
  simp only [nextActive, localTimeToUtc_fixed, if_neg past]

/-- Up to its end, the window that covers a time covers every time. -/
theorem covers_until_nextActive (covers : window.Covers (currentMinutes (fun _ => ahead) date))
    (after : date ≤ free) (before : free < nextActive (fun _ => ahead) window date) :
    window.Covers (currentMinutes (fun _ => ahead) free) := by
  obtain ⟨_, _⟩ := window.stop.minutes_bounds
  obtain ⟨_, _⟩ := window.start.minutes_bounds
  rw [nextActive_fixed] at before
  unfold Window.Covers at covers ⊢
  rcases targetOf_cases (fun _ => ahead) window date with ⟨isOver, target⟩ | ⟨isOver, target⟩
  all_goals
    rw [target] at before
    simp only [localDay, currentMinutes, localSeconds] at *
    by_cases ordered : window.start.minutes ≤ window.stop.minutes
    · rw [if_pos ordered] at covers ⊢
      omega
    · rw [if_neg ordered] at covers ⊢
      omega

/-- A window does not end earlier for a later time. -/
theorem nextActive_mono {later : Int} (order : date ≤ later) :
    nextActive (fun _ => ahead) window date ≤ nextActive (fun _ => ahead) window later := by
  obtain ⟨_, _⟩ := window.stop.minutes_bounds
  rw [nextActive_fixed, nextActive_fixed]
  rcases targetOf_cases (fun _ => ahead) window date with ⟨isOver, target⟩ | ⟨isOver, target⟩
  all_goals
    rcases targetOf_cases (fun _ => ahead) window later with
      ⟨over', target'⟩ | ⟨over', target'⟩
    all_goals
      rw [target, target']
      simp only [localDay, currentMinutes, localSeconds] at *
      omega

/-- A window that just ended ends again a day later. -/
theorem nextActive_again (window : Window) (date : Int) :
    nextActive (fun _ => ahead) window (nextActive (fun _ => ahead) window date) =
      nextActive (fun _ => ahead) window date + 86_400_000 := by
  obtain ⟨_, _⟩ := window.stop.minutes_bounds
  rw [nextActive_fixed window date, nextActive_fixed]
  rcases targetOf_cases (fun _ => ahead) window date with ⟨isOver, target⟩ | ⟨isOver, target⟩
  all_goals
    rw [target]
    rcases targetOf_cases (fun _ => ahead) window (1000 * (_ - ahead)) with
      ⟨over', target'⟩ | ⟨over', target'⟩
    all_goals
      rw [target']
      simp only [localDay, currentMinutes, localSeconds] at *
      omega

/-- The windows that end up to a time. -/
def endingBy (ahead : Int) (windows : List Window) (date free : Int) : List Window :=
  windows.filter fun window => nextActive (fun _ => ahead) window date ≤ free

/-- With each window left behind, one less ends before a time less than a day ahead. -/
theorem endingBy_decreases (listed : window ∈ windows)
    (ends : nextActive (fun _ => ahead) window date ≤ free) (near : free < date + 86_400_000) :
    (endingBy ahead windows (nextActive (fun _ => ahead) window date) free).length <
      (endingBy ahead windows date free).length := by
  have forward : date < nextActive (fun _ => ahead) window date := lt_nextActive window date
  have narrowed : endingBy ahead windows (nextActive (fun _ => ahead) window date) free =
      (endingBy ahead windows date free).filter fun other =>
        nextActive (fun _ => ahead) other (nextActive (fun _ => ahead) window date) ≤ free := by
    rw [endingBy, endingBy, List.filter_filter]
    refine List.filter_congr fun other _ => ?_
    rw [← Bool.decide_and, decide_eq_decide]
    exact ⟨fun late => ⟨late, Int.le_trans (nextActive_mono (Int.le_of_lt forward)) late⟩, And.left⟩
  rw [narrowed, List.length_filter_lt_length_iff_exists]
  refine ⟨window, List.mem_filter.mpr ⟨listed, by simpa using ends⟩, ?_⟩
  rw [nextActive_again]
  simp only [decide_eq_true_eq]
  omega

/-- Where clocks never change and some time of the next day is outside quiet hours, they end after
as many windows as end before that time. -/
theorem endsWithin_fixed (outside : windowAt (fun _ => ahead) windows free = none) (more : Nat)
    (after : date ≤ free) (near : free < date + 86_400_000)
    (few : (endingBy ahead windows date free).length ≤ more) :
    EndsWithin (fun _ => ahead) windows more date := by
  have ends : ∀ {window : Window} {date : Int}, date ≤ free →
      windowAt (fun _ => ahead) windows date = some window →
      window ∈ windows ∧ nextActive (fun _ => ahead) window date ≤ free := by
    intro window date after covering
    have listed : window ∈ windows := List.mem_of_find?_eq_some covering
    have covers : window.Covers (currentMinutes (fun _ => ahead) date) := by
      simpa using List.find?_some covering
    refine ⟨listed, Int.not_lt.mp fun before => ?_⟩
    exact windowAt_eq_none_iff.mp outside
      ⟨_, rfl, window, listed, covers_until_nextActive covers after before⟩
  induction more generalizing date with
  | zero =>
    refine Option.eq_none_iff_forall_ne_some.mpr fun window covering => ?_
    obtain ⟨listed, early⟩ := ends after covering
    have counted : window ∈ endingBy ahead windows date free :=
      List.mem_filter.mpr ⟨listed, by simpa using early⟩
    rw [List.eq_nil_of_length_eq_zero (Nat.le_zero.mp few)] at counted
    exact List.not_mem_nil counted
  | succ more inductionHypothesis =>
    intro window covering
    obtain ⟨listed, early⟩ := ends after covering
    have fewer := endingBy_decreases listed early near
    have forward : date < nextActive (fun _ => ahead) window date := lt_nextActive window date
    exact inductionHypothesis early (by omega) (by omega)

/-- A minute of the day comes within a day. -/
theorem exists_currentMinutes (ahead date : Int) {minute : Int} (fromZero : 0 ≤ minute)
    (ofDay : minute < 1440) : ∃ free, date ≤ free ∧ free < date + 86_400_000 ∧
      currentMinutes (fun _ => ahead) free = minute := by
  obtain ⟨now, shown⟩ : ∃ now, now = currentMinutes (fun _ => ahead) date := ⟨_, rfl⟩
  obtain ⟨today, started⟩ : ∃ today, today = localDay (fun _ => ahead) date * 86400 := ⟨_, rfl⟩
  simp only [currentMinutes, localDay, localSeconds] at shown started ⊢
  rcases Int.lt_trichotomy now minute with before | same | isOver
  · exact ⟨1000 * (today + minute * 60 - ahead), by omega, by omega, by omega⟩
  · exact ⟨date, by omega, by omega, by omega⟩
  · exact ⟨1000 * (today + 86400 + minute * 60 - ahead), by omega, by omega, by omega⟩

/-- Up to eleven windows that leave some minute of the day free end in time, in a zone whose clocks
never change. -/
theorem quietHoursEnd_fixed (few : windows.length ≤ 11) (minute : Int) (fromZero : 0 ≤ minute)
    (ofDay : minute < 1440) (uncovered : ∀ window ∈ windows, ¬ window.Covers minute) (date : Int) :
    QuietHoursEnd (some fun _ => ahead) windows date := by
  rintro _ ⟨⟩
  obtain ⟨free, after, near, shown⟩ := exists_currentMinutes ahead date fromZero ofDay
  refine endsWithin_fixed ?_ 11 after near ((List.length_filter_le _ _).trans few)
  rw [windowAt_eq_none_iff]
  rintro ⟨_, ⟨⟩, window, listed, covers⟩
  exact uncovered window listed (shown ▸ covers)

end FixedZone

end Notifkit.Pipeline
