import Notifkit.Pipeline.QuietHours

/-!
# Where a chain of quiet hours ends

A time in quiet hours is put off to the end of its window, and on from there where that lies in
another one. It is only ever put off to later. While the clocks do not change, no free instant
is passed over. And where the windows end that follow one another, the time is outside all of
them; but no more than eleven are followed.

Which windows follow one another is read off the minutes of the day alone, wherever the clocks
change at most once and show every window's end: the conversion to an instant then finds one
that shows it, the local time repeated or not.
-/

namespace Notifkit.Pipeline

section Clocks

variable {offset : Int → Int} {windows : List Window} {window : Window} {date ahead : Int}

/-- Where the clocks are as far ahead at the two instants a conversion comes to, the first
correction is the only one. -/
theorem localTimeToUtc_agrees {target : Int} (atTarget : offset (1000 * target) = ahead)
    (atEnd : offset (1000 * (target - ahead)) = ahead) :
    localTimeToUtc offset target = 1000 * (target - ahead) := by
  have settled : ∀ iterations, correct offset target iterations (1000 * (target - ahead)) =
      1000 * (target - ahead) := by
    intro iterations
    cases iterations with
    | zero => rfl
    | succ iterations =>
      rw [correct]
      exact if_pos (by simp only [localSeconds, atEnd]; omega)
  rw [localTimeToUtc, correct]
  simp only [localSeconds, atTarget]
  split
  next exact =>
    obtain rfl : ahead = 0 := by omega
    omega
  next =>
    have moved : 1000 * target + 1000 * (target - (1000 * target / 1000 + ahead)) =
        1000 * (target - ahead) := by omega
    rw [moved]
    exact settled 2

/-- While the clocks do not change, a window ends as it does where they never do. -/
theorem nextActive_agrees (window : Window) (constant : ∀ instant, date - 1000 * ahead.natAbs ≤ instant →
    instant ≤ date + 86_400_000 + 1000 * ahead.natAbs → offset instant = ahead) :
    nextActive offset window date = nextActive (fun _ => ahead) window date := by
  have now : offset date = ahead := constant date (by omega) (by omega)
  have shown : localSeconds offset date = localSeconds (fun _ => ahead) date := by
    simp only [localSeconds, now]
  have target : targetOf offset window date = targetOf (fun _ => ahead) window date := by
    unfold targetOf localDay currentMinutes
    rw [shown]
  have later : localSeconds (fun _ => ahead) date < targetOf (fun _ => ahead) window date :=
    localSeconds_lt_targetOf window date
  have soon : targetOf (fun _ => ahead) window date ≤
      localSeconds (fun _ => ahead) date + 86400 := by
    obtain ⟨_, _⟩ := window.stop.minutes_bounds
    rcases targetOf_cases (fun _ => ahead) window date with ⟨isOver, same⟩ | ⟨isOver, same⟩
    all_goals
      rw [same]
      simp only [localDay, currentMinutes, localSeconds] at *
      omega
  have converted : localTimeToUtc offset (targetOf (fun _ => ahead) window date) =
      1000 * (targetOf (fun _ => ahead) window date - ahead) := by
    simp only [localSeconds] at later soon
    exact localTimeToUtc_agrees (constant _ (by omega) (by omega))
      (constant _ (by omega) (by omega))
  rw [nextActive_fixed]
  simp only [nextActive, target, converted]
  simp only [localSeconds] at later
  exact if_neg (by omega)

/-- While the clocks do not change, every instant before the one a time is put off to is in
quiet hours. -/
theorem followed_within {more : Nat} {instant : Int}
    (constant : ∀ instant, date - 1000 * ahead.natAbs ≤ instant →
      instant ≤ followWindows offset windows more date + 86_400_000 + 1000 * ahead.natAbs →
        offset instant = ahead)
    (after : date ≤ instant) (before : instant < followWindows offset windows more date) :
    InQuietHours (some offset) windows instant := by
  induction more generalizing date with
  | zero =>
    simp only [followWindows] at before
    omega
  | succ more inductionHypothesis =>
    rw [followWindows, checkWindowAt] at before constant
    cases covering : windowAt offset windows date with
    | none =>
      simp only [covering, Option.map_none] at before
      omega
    | some window =>
      have forward : date < nextActive offset window date := lt_nextActive window date
      simp only [covering, Option.map_some, if_neg (Int.not_le.mpr forward)] at before constant
      have onward : nextActive offset window date ≤
          followWindows offset windows more (nextActive offset window date) := le_followWindows more _
      by_cases reached : nextActive offset window date ≤ instant
      · exact inductionHypothesis
          (fun later _ _ => constant later (by omega) (by omega)) reached before
      · have same := nextActive_agrees window fun later _ _ =>
          constant later (by omega) (by omega)
        have listed : window ∈ windows := List.mem_of_find?_eq_some covering
        have covers : window.Covers (currentMinutes offset date) := by
          simpa using List.find?_some covering
        have shown : ∀ later, date ≤ later → later ≤ instant →
            currentMinutes offset later = currentMinutes (fun _ => ahead) later := by
          intro later _ _
          simp only [currentMinutes, localSeconds, constant later (by omega) (by omega)]
        rw [shown date (Int.le_refl date) after] at covers
        refine ⟨offset, rfl, window, listed, ?_⟩
        rw [shown instant after (Int.le_refl instant)]
        exact covers_until_nextActive covers after (by omega)

end Clocks

section OneChange

variable {offset : Int → Int} {windows : List Window} {window : Window} {date : Int}

/-- The clocks change once, or never where both offsets are the same. -/
def ChangesOnce (offset : Int → Int) : Prop :=
  ∃ change before after, ∀ date, offset date = if date < change then before else after

/-- The clocks show a local time at some second. -/
def Shown (offset : Int → Int) (target : Int) : Prop :=
  ∃ second, localSeconds offset (1000 * second) = target

/-- The clocks show the end of every window on every day. -/
def ShowEnds (offset : Int → Int) (windows : List Window) : Prop :=
  ∀ window ∈ windows, ∀ day : Int, Shown offset (day * 86400 + window.stop.minutes * 60)

/-- A correction leads to the instant that shows the target, if the clocks there are as far ahead
as where it started. -/
theorem correct_succ (target second : Int) (iterations : Nat) :
    correct offset target (iterations + 1) (1000 * second) =
      if second + offset (1000 * second) = target then 1000 * second
      else correct offset target iterations (1000 * (target - offset (1000 * second))) := by
  have shows : localSeconds offset (1000 * second) = second + offset (1000 * second) := by
    simp only [localSeconds]
    omega
  have moved : 1000 * second + 1000 * (target - (second + offset (1000 * second))) =
      1000 * (target - offset (1000 * second)) := by omega
  simp only [correct, shows, moved]
  by_cases same : second + offset (1000 * second) = target
  · rw [if_pos same, if_pos (by omega)]
  · rw [if_neg same, if_neg (by omega)]

/-- With one change at most, three corrections find a second that shows the target, if there is
one. -/
theorem localTimeToUtc_shows (once : ChangesOnce offset) {target : Int}
    (shown : Shown offset target) : ∃ second, localTimeToUtc offset target = 1000 * second ∧
      second + offset (1000 * second) = target := by
  obtain ⟨change, before, after, changes⟩ := once
  obtain ⟨second, shows⟩ := shown
  have shows : second + offset (1000 * second) = target := by
    simp only [localSeconds] at shows
    omega
  have two : ∀ date, offset date = before ∨ offset date = after := by
    intro date
    rw [changes]
    split
    · exact .inl rfl
    · exact .inr rfl
  rw [localTimeToUtc, correct_succ]
  split
  next exact => exact ⟨target, rfl, exact⟩
  rw [correct_succ]
  split
  next exact => exact ⟨_, rfl, exact⟩
  next early =>
  rw [correct_succ]
  split
  next exact => exact ⟨_, rfl, exact⟩
  next late =>
  -- the two corrections came to different offsets, so no second shows the target
  exfalso
  generalize start : offset (1000 * target) = first at early late
  generalize between : offset (1000 * (target - first)) = middle at early late
  generalize last : offset (1000 * (target - middle)) = final at late
  have either : offset (1000 * second) = first ∨ offset (1000 * second) = middle := by
    have shownThere := two (1000 * second)
    have shownFirst := start ▸ two (1000 * target)
    have shownBetween := between ▸ two (1000 * (target - first))
    omega
  rcases either with same | same
  · obtain rfl : second = target - first := by omega
    omega
  · obtain rfl : second = target - middle := by omega
    omega

/-- With one change at most, a window whose end the clocks show ends at a second that shows it. -/
theorem nextActive_shows (once : ChangesOnce offset)
    (shown : Shown offset (targetOf offset window date)) :
    localSeconds offset (nextActive offset window date) = targetOf offset window date := by
  obtain ⟨second, converted, shows⟩ := localTimeToUtc_shows once shown
  have later : localSeconds offset date < targetOf offset window date :=
    localSeconds_lt_targetOf window date
  simp only [nextActive, converted]
  split
  next past =>
    -- the second was shown before the clocks were put back, and is shown once more
    obtain ⟨change, before, after, changes⟩ := once
    simp only [localSeconds] at later ⊢
    have again : 1000 * targetOf offset window date -
        (1000 * (date / 1000 + offset date) - date / 1000 * 1000) =
          1000 * (targetOf offset window date - offset date) := by omega
    rw [again]
    have there : offset (1000 * (targetOf offset window date - offset date)) = offset date := by
      have then' := changes (1000 * second)
      have now := changes date
      have next := changes (1000 * (targetOf offset window date - offset date))
      split at then' <;> split at now <;> split at next <;> omega
    omega
  next =>
    simp only [localSeconds]
    omega

/-- At the end of a window the clocks show the minute it ends at. -/
theorem currentMinutes_nextActive (once : ChangesOnce offset)
    (shown : Shown offset (targetOf offset window date)) :
    currentMinutes offset (nextActive offset window date) = window.stop.minutes := by
  obtain ⟨_, _⟩ := window.stop.minutes_bounds
  rw [currentMinutes, nextActive_shows once shown]
  rcases targetOf_cases offset window date with ⟨_, target⟩ | ⟨_, target⟩
  all_goals
    rw [target]
    omega

/-- Of windows that follow one another by the minutes of the day, so many are left behind: each
is the first that covers the minute the one before ends at, and the last ends outside all. -/
def MinutesEnd (windows : List Window) : Nat → Int → Prop
  | 0, minute => (windows.find? fun window => window.Covers minute) = none
  | more + 1, minute => ∀ window, (windows.find? fun window => window.Covers minute) = some window →
      MinutesEnd windows more window.stop.minutes

/-- Where the clocks change at most once and show every end, the minutes of the day tell which
windows follow one another. -/
theorem endsWithin_iff_minutes (once : ChangesOnce offset) (ends : ShowEnds offset windows)
    (more : Nat) (date : Int) :
    EndsWithin offset windows more date ↔
      MinutesEnd windows more (currentMinutes offset date) := by
  induction more generalizing date with
  | zero => exact Iff.rfl
  | succ more inductionHypothesis =>
    refine forall₂_congr fun window covering => ?_
    have listed : window ∈ windows := List.mem_of_find?_eq_some covering
    have shown : Shown offset (targetOf offset window date) := by
      rcases targetOf_cases offset window date with ⟨_, target⟩ | ⟨_, target⟩
      all_goals
        rw [target]
        exact ends window listed _
    rw [inductionHypothesis, currentMinutes_nextActive once shown]

end OneChange

/-- What quiet hours promise of an instant: it is put off to later and outside all windows, over no
free instant while the clocks do not change; and where it is not put off, no window covers it. -/
structure Resolved (offset : Int → Int) (windows : List Window) (fromDate : Int) : Prop where
  later : ∀ nextActiveTime, isInQuietHours (some offset) windows fromDate = some nextActiveTime →
    fromDate < nextActiveTime
  outside : ∀ nextActiveTime, isInQuietHours (some offset) windows fromDate = some nextActiveTime →
    ¬ InQuietHours (some offset) windows nextActiveTime
  within : ∀ nextActiveTime, isInQuietHours (some offset) windows fromDate = some nextActiveTime →
    ∀ ahead : Int, (∀ date, fromDate - 1000 * ahead.natAbs ≤ date →
      date ≤ nextActiveTime + 86_400_000 + 1000 * ahead.natAbs → offset date = ahead) →
        ∀ date, fromDate ≤ date → date < nextActiveTime → InQuietHours (some offset) windows date
  active : isInQuietHours (some offset) windows fromDate = none →
    ¬ InQuietHours (some offset) windows fromDate

/-- An instant in quiet hours is put off by following eleven windows. -/
theorem isInQuietHours_eq_some {offset : Int → Int} {windows : List Window} {fromDate : Int}
    {nextActiveTime : Int}
    (deferred : isInQuietHours (some offset) windows fromDate = some nextActiveTime) :
    nextActiveTime = followWindows offset windows 11 fromDate := by
  simp only [isInQuietHours, checkWindowAt, Option.bind_eq_bind, Option.bind_some,
    Option.bind_eq_some_iff, Option.map_eq_some_iff, Option.some.injEq] at deferred
  obtain ⟨_, ⟨window, covering, rfl⟩, rfl⟩ := deferred
  have first : followWindows offset windows (10 + 1) fromDate =
      followWindows offset windows 10 (nextActive offset window fromDate) := by
    rw [followWindows, checkWindowAt, covering]
    exact if_neg (Int.not_le.mpr (lt_nextActive window fromDate))
  exact first.symm

/-- Quiet hours keep their promises exactly where no more than eleven windows follow one another
from the instant on, however the clocks change. Where they change at most once and show the end of
every window, the minutes of the day decide that. -/
theorem quiet_hours_resolved_iff (offset : Int → Int) (windows : List Window) (fromDate : Int) :
    (Resolved offset windows fromDate ↔ EndsWithin offset windows 11 fromDate) ∧
      (ChangesOnce offset → ShowEnds offset windows →
        (EndsWithin offset windows 11 fromDate ↔
          MinutesEnd windows 11 (currentMinutes offset fromDate))) := by
  refine ⟨⟨fun resolved => ?_, fun ends => ?_⟩, fun once shown =>
    endsWithin_iff_minutes once shown 11 fromDate⟩
  · intro window covering
    have quiet : InQuietHours (some offset) windows fromDate := by
      by_contra active
      rw [windowAt_eq_none_iff.mpr active] at covering
      cases covering
    obtain ⟨nextActiveTime, deferred⟩ := Option.ne_none_iff_exists'.mp
      (mt isInQuietHours_eq_none_iff.mp (not_not.mpr quiet))
    exact (isInQuietHours_outside_iff deferred).mp (resolved.outside _ deferred) offset rfl window
      covering
  · refine ⟨fun _ => lt_isInQuietHours, fun _ deferred => ?_, ?_,
      isInQuietHours_eq_none_iff.mp⟩
    · refine (isInQuietHours_outside_iff deferred).mpr ?_
      rintro _ ⟨⟩
      exact ends
    · intro nextActiveTime deferred ahead constant date after before
      obtain rfl := isInQuietHours_eq_some deferred
      exact followed_within constant after before

/-- The time of day after some half hours. -/
def afterHalfHours (count : Nat) : TimeOfDay :=
  ⟨Fin.ofNat 24 (count / 2), Fin.ofNat 60 (count % 2 * 30)⟩

/-- Twelve half hours from midnight on, each beginning where the one before ends. -/
def halfHours : List Window :=
  (List.range 12).map fun count => ⟨afterHalfHours count, afterHalfHours (count + 1)⟩

/-- At midnight a send is put off to the last of the twelve half hours, which is quiet too. -/
theorem twelve_windows_end_inside :
    ¬ ∀ (offset : Int → Int) (windows : List Window) (fromDate : Int), ChangesOnce offset →
      (∃ minute, 0 ≤ minute ∧ minute < 1440 ∧ ∀ window ∈ windows, ¬ window.Covers minute) →
        Resolved offset windows fromDate := by
  intro claimed
  have once : ChangesOnce fun _ => 0 := ⟨0, 0, 0, fun date => by simp⟩
  have resolved := claimed (fun _ => 0) halfHours 0 once
    ⟨720, by omega, by omega, by decide⟩
  refine resolved.outside 19_800_000 (by decide +kernel) ⟨_, rfl, ?_⟩
  decide +kernel

end Notifkit.Pipeline
