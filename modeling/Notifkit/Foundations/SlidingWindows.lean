import Mathlib.Algebra.Order.Group.Defs
import Mathlib.Algebra.Order.Monoid.Unbundled.Basic
import Mathlib.Order.Basic
import Mathlib.Tactic.Abel

/-!
# Windows over sends that were admitted one after another

A limiter that looks back from the time of a send sees the window that ends there. What it
holds to is a statement about each send and those admitted before it. What one wants is a
statement about every window, wherever it lies; the two agree on the windows whose sends were
admitted in the order of their times.
-/

namespace Notifkit.SlidingWindow

universe u
variable {τ : Type u} [AddCommGroup τ] [LinearOrder τ] [IsOrderedAddMonoid τ]

/-- A time lies in the window of the given length that ends at `last`. -/
def inWindow (length last time : τ) : Bool := last - length < time ∧ time ≤ last

omit [IsOrderedAddMonoid τ] in
@[simp] theorem inWindow_eq_true {length last time : τ} :
    inWindow length last time = true ↔ last - length < time ∧ time ≤ last := decide_eq_true_iff

/-- How many of some times lie in a window. -/
def within (length last : τ) (times : List τ) : Nat := times.countP (inWindow length last)

/-- Newest first: each time was admitted with fewer than `limit` earlier ones in the window that
ends at it. -/
def Limited (length : τ) (limit : Nat) : List τ → Prop
  | [] => True
  | time :: earlier => within length time earlier + 1 ≤ limit ∧ Limited length limit earlier

omit [IsOrderedAddMonoid τ] in
theorem Limited.at {length : τ} {limit : Nat} {newer earlier : List τ} {time : τ}
    (limited : Limited length limit (newer ++ time :: earlier)) :
    within length time earlier + 1 ≤ limit := by
  induction newer with
  | nil => exact limited.1
  | cons _ _ inductionHypothesis => exact inductionHypothesis limited.2

/-- What lies in a window, not after a time of it, lies in the window that ends there. -/
theorem countP_le_within {length last time : τ} (inside : time ≤ last) (times : List τ) :
    (times.countP fun other => inWindow length last other ∧ other ≤ time) ≤
      within length time times := by
  apply List.countP_mono_left
  intro other _ both
  simp only [inWindow_eq_true, decide_eq_true_eq] at both ⊢
  obtain ⟨⟨after, _⟩, before⟩ := both
  exact ⟨lt_of_le_of_lt (sub_le_sub_right inside length) after, before⟩

/-- In any window, a time was admitted with fewer than `limit` earlier ones in it that are not
after it. -/
theorem Limited.behind {length last time : τ} {limit : Nat} {newer earlier : List τ}
    (limited : Limited length limit (newer ++ time :: earlier))
    (inside : inWindow length last time = true) :
    (earlier.countP fun other => inWindow length last other ∧ other ≤ time) + 1 ≤ limit := by
  have before : time ≤ last := (inWindow_eq_true.mp inside).2
  have fewer : _ ≤ within length time earlier := countP_le_within before earlier
  have bound := limited.at
  omega

/-- A window whose times were admitted in order holds at most `limit` of them. -/
theorem Limited.window {length last : τ} {limit : Nat} {times : List τ}
    (limited : Limited length limit times)
    (ordered : (times.filter (inWindow length last)).Pairwise (· ≥ ·)) :
    within length last times ≤ limit := by
  induction times with
  | nil => exact Nat.zero_le _
  | cons time earlier inductionHypothesis =>
    cases inside : inWindow length last time with
    | false =>
      rw [List.filter_cons_of_neg (by simp [inside])] at ordered
      rw [within, List.countP_cons_of_neg (by simp [inside])]
      exact inductionHypothesis limited.2 ordered
    | true =>
      rw [List.filter_cons_of_pos inside] at ordered
      rw [within, List.countP_cons_of_pos inside]
      -- every other time of the window is not after the newest one
      have same : earlier.countP (inWindow length last) =
          earlier.countP fun other => inWindow length last other ∧ other ≤ time := by
        apply List.countP_congr
        intro other member
        simp only [decide_eq_true_eq, iff_self_and]
        intro there
        exact (List.pairwise_cons.mp ordered).1 other (List.mem_filter.mpr ⟨member, there⟩)
      rw [same]
      have first : Limited length limit ([] ++ time :: earlier) := limited
      exact first.behind inside

end Notifkit.SlidingWindow
