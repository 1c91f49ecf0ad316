import Mathlib.Data.List.Range
import Mathlib.Data.List.Sort
import Mathlib.Order.Minimal

/-!
# Places tried one after another

Places stand in a row, and some of them can be reached. Tries begin at one place; one that is refused
leads to the place behind it, one that is accepted does not. What was tried is compared with the walk
that passes over every place that cannot be reached and ends with the first accepted one.

Several tries may be made at one place, some refused and some accepted, in any order with the tries
further on.
-/

namespace Notifkit.Walks

/-- A list that begins with one value; every other value comes after the one below it. -/
inductive Climbs (first : Nat) : List Nat → Prop where
  | nothing : Climbs first []
  | again {places : List Nat} (climbs : Climbs first places) : Climbs first (places ++ [first])
  | further {places : List Nat} {place : Nat} (climbs : Climbs first places)
      (before : place ∈ places) : Climbs first (places ++ [place + 1])

/-- One more value is a first occurrence unless it was there. -/
theorem eraseDups_concat (places : List Nat) (place : Nat) :
    (places ++ [place]).eraseDups =
      if place ∈ places then places.eraseDups else places.eraseDups ++ [place] := by
  rw [List.eraseDups_append]
  by_cases present : place ∈ places
  · simp [List.removeAll, present]
  · have kept : [place].removeAll places = [place] := by simp [List.removeAll, present]
    rw [kept, if_neg present]
    rfl

/-- In the order of their first occurrence the values are consecutive. -/
theorem Climbs.eraseDups_eq_range {first : Nat} {places : List Nat} (climbs : Climbs first places) :
    ∃ count, places.eraseDups = List.range' first count := by
  induction climbs with
  | nothing => exact ⟨0, rfl⟩
  | @again places climbs inductionHypothesis =>
    obtain ⟨count, erased⟩ := inductionHypothesis
    rw [eraseDups_concat, erased]
    cases count with
    | zero =>
      have absent : first ∉ places := by
        rw [← List.mem_eraseDups, erased]
        exact List.not_mem_nil
      exact ⟨1, by rw [if_neg absent]; rfl⟩
    | succ count =>
      have present : first ∈ places := by
        rw [← List.mem_eraseDups, erased]
        exact List.mem_range'_1.mpr ⟨Nat.le_refl _, by omega⟩
      exact ⟨count + 1, if_pos present⟩
  | @further places place climbs before inductionHypothesis =>
    obtain ⟨count, erased⟩ := inductionHypothesis
    rw [← List.mem_eraseDups, erased, List.mem_range'_1] at before
    rw [eraseDups_concat, erased]
    by_cases present : place + 1 ∈ places
    · exact ⟨count, if_pos present⟩
    · have last : place + 1 = first + count := by
        rw [← List.mem_eraseDups, erased, List.mem_range'_1] at present
        omega
      refine ⟨count + 1, ?_⟩
      rw [if_neg present, last, List.range'_1_concat]

/-- The first occurrences of a climb are a rising list exactly where both have the same members. -/
theorem Climbs.eraseDups_eq_iff {first : Nat} {places rising : List Nat}
    (climbs : Climbs first places) (sorted : rising.Pairwise (· < ·)) :
    places.eraseDups = rising ↔ ∀ place, place ∈ places ↔ place ∈ rising := by
  obtain ⟨count, erased⟩ := climbs.eraseDups_eq_range
  constructor
  · rintro rfl place
    exact List.mem_eraseDups.symm
  · intro members
    have consecutive : places.eraseDups.Pairwise (· < ·) := by
      rw [erased]
      exact List.pairwise_lt_range'
    refine consecutive.eq_of_mem_iff sorted fun place => ?_
    rw [List.mem_eraseDups, members]

/-- A list up to and including the first value that stops it. -/
def upTo (stops : Nat → Bool) : List Nat → List Nat
  | [] => []
  | place :: rest => if stops place then [place] else place :: upTo stops rest

/-- What is left of a list stands in its order. -/
theorem upTo_sublist (stops : Nat → Bool) (places : List Nat) :
    (upTo stops places).Sublist places := by
  induction places with
  | nil => exact List.Sublist.refl _
  | cons place rest inductionHypothesis =>
    rw [upTo]
    split
    · exact (List.nil_sublist rest).cons_cons place
    · exact inductionHypothesis.cons_cons place

/-- Of a rising list those values are left that no smaller one stops. -/
theorem mem_upTo {stops : Nat → Bool} {places : List Nat} (sorted : places.Pairwise (· < ·))
    {place : Nat} : place ∈ upTo stops places ↔
      place ∈ places ∧ ∀ earlier ∈ places, earlier < place → stops earlier = false := by
  induction places with
  | nil => simp [upTo]
  | cons head rest inductionHypothesis =>
    obtain ⟨least, sorted⟩ := List.pairwise_cons.mp sorted
    rw [upTo]
    constructor
    · intro left
      split at left
      next stopped =>
        obtain rfl := List.mem_singleton.mp left
        refine ⟨List.mem_cons_self, fun earlier member order => ?_⟩
        rcases List.mem_cons.mp member with rfl | later
        · omega
        · have := least earlier later
          omega
      next passed =>
        rcases List.mem_cons.mp left with rfl | later
        · refine ⟨List.mem_cons_self, fun earlier member order => ?_⟩
          rcases List.mem_cons.mp member with rfl | behind
          · omega
          · have := least earlier behind
            omega
        · obtain ⟨member, free⟩ := (inductionHypothesis sorted).mp later
          refine ⟨List.mem_cons_of_mem _ member, fun earlier present order => ?_⟩
          rcases List.mem_cons.mp present with rfl | behind
          · exact Bool.eq_false_iff.mpr passed
          · exact free earlier behind order
    · rintro ⟨member, free⟩
      rcases List.mem_cons.mp member with rfl | behind
      · split
        · exact List.mem_singleton.mpr rfl
        · exact List.mem_cons_self
      · rw [if_neg (by simp [free head List.mem_cons_self (least place behind)])]
        exact List.mem_cons_of_mem _ ((inductionHypothesis sorted).mpr
          ⟨behind, fun earlier present => free earlier (List.mem_cons_of_mem _ present)⟩)

section Tries

variable {reach begins accepted refused : Nat → Prop}

/-- What is tried: the place tries begin at and each place behind a refused one, where it can be
reached. No place that can be reached is before the one tries begin at. -/
structure Tries (reach begins accepted refused : Nat → Prop) : Prop where
  tried : ∀ place, accepted place ∨ refused place ↔
    reach place ∧ (begins place ∨ ∃ before, place = before + 1 ∧ refused before)
  least : ∀ place first, reach place → begins first → first ≤ place

/-- Tries begin where they can be made, a refused place is followed by one that can be reached as
long as there is one, and a place that accepted is not left. -/
structure Unbroken (reach begins accepted refused : Nat → Prop) : Prop where
  starts : (∃ place, reach place) → ∃ first, begins first ∧ reach first
  goesOn : ∀ place later, refused place → ¬ accepted place → place < later → reach later →
    reach (place + 1)
  stops : ∀ place, accepted place → refused place → ¬ reach (place + 1)

/-- A place that is tried is reached through refusals, from where tries begin. -/
theorem Tries.path (tries : Tries reach begins accepted refused) {place : Nat}
    (tried : accepted place ∨ refused place) : ∃ first, begins first ∧ first ≤ place ∧
      ∀ between, first ≤ between → between < place → refused between := by
  induction place with
  | zero =>
    rcases ((tries.tried 0).mp tried).2 with begun | ⟨before, next, _⟩
    · exact ⟨0, begun, Nat.le_refl 0, fun between _ order => absurd order (Nat.not_lt_zero _)⟩
    · cases next
  | succ place inductionHypothesis =>
    rcases ((tries.tried _).mp tried).2 with begun | ⟨before, next, wasRefused⟩
    · exact ⟨_, begun, Nat.le_refl _, fun between above below => by omega⟩
    · obtain rfl : place = before := by omega
      obtain ⟨first, begun, order, refusals⟩ := inductionHypothesis (.inr wasRefused)
      refine ⟨first, begun, Nat.le_succ_of_le order, fun between above below => ?_⟩
      rcases Nat.lt_succ_iff_lt_or_eq.mp below with earlier | rfl
      · exact refusals between above earlier
      · exact wasRefused

/-- A place that is tried can be reached. -/
theorem Tries.reached (tries : Tries reach begins accepted refused) {place : Nat}
    (tried : accepted place ∨ refused place) : reach place := ((tries.tried place).mp tried).1

/-- What is tried follows the walk: every place that can be reached, up to the first accepted. -/
def FollowsWalk (reach accepted refused : Nat → Prop) : Prop :=
  ∀ place, accepted place ∨ refused place ↔
    reach place ∧ ∀ earlier, earlier < place → reach earlier → ¬ accepted earlier

/-- Unbroken tries follow the walk. -/
theorem Tries.follows (tries : Tries reach begins accepted refused)
    (unbroken : Unbroken reach begins accepted refused) : FollowsWalk reach accepted refused := by
  intro place
  constructor
  · intro tried
    refine ⟨tries.reached tried, fun earlier order reached wasAccepted => ?_⟩
    obtain ⟨first, begun, _, refusals⟩ := tries.path tried
    have from_first : first ≤ earlier := tries.least earlier first reached begun
    have next : accepted (earlier + 1) ∨ refused (earlier + 1) := by
      rcases Nat.lt_or_eq_of_le (Nat.succ_le_of_lt order) with before | rfl
      · exact .inr (refusals _ (by omega) before)
      · exact tried
    exact unbroken.stops earlier wasAccepted (refusals earlier from_first order)
      (tries.reached next)
  · rintro ⟨reached, free⟩
    obtain ⟨first, begun, reachedFirst⟩ := unbroken.starts ⟨place, reached⟩
    have order : first ≤ place := tries.least place first reached begun
    have along : ∀ steps, first + steps ≤ place →
        accepted (first + steps) ∨ refused (first + steps) := by
      intro steps within
      induction steps with
      | zero => exact (tries.tried first).mpr ⟨reachedFirst, .inl begun⟩
      | succ steps inductionHypothesis =>
        have within' : first + steps + 1 ≤ place := within
        have tried := inductionHypothesis (by omega)
        have notAccepted : ¬ accepted (first + steps) :=
          free _ within' (tries.reached tried)
        have wasRefused : refused (first + steps) := tried.resolve_left notAccepted
        refine (tries.tried _).mpr ⟨?_, .inr ⟨first + steps, rfl, wasRefused⟩⟩
        exact unbroken.goesOn _ place wasRefused notAccepted within' reached
    have tried := along (place - first) (by omega)
    rwa [Nat.add_sub_cancel' order] at tried

/-- Tries that follow the walk are unbroken. -/
theorem Tries.unbroken (tries : Tries reach begins accepted refused)
    (follows : FollowsWalk reach accepted refused) : Unbroken reach begins accepted refused where
  starts := by
    intro some
    obtain ⟨least, reached, minimal⟩ := exists_minimal_of_wellFoundedLT reach some
    have tried := (follows least).mpr ⟨reached, fun earlier order reachedEarlier =>
      absurd (minimal reachedEarlier order.le) (Nat.not_le_of_lt order)⟩
    obtain ⟨first, begun, order, refusals⟩ := tries.path tried
    refine ⟨first, begun, ?_⟩
    rcases Nat.lt_or_eq_of_le order with before | rfl
    · exact tries.reached (.inr (refusals first (Nat.le_refl _) before))
    · exact reached
  goesOn := by
    intro place later wasRefused notAccepted order reachedLater
    obtain ⟨next, ⟨behind, reached⟩, minimal⟩ := exists_minimal_of_wellFoundedLT
      (fun next => place < next ∧ reach next) ⟨later, order, reachedLater⟩
    have free : ∀ earlier, earlier < next → reach earlier → ¬ accepted earlier := by
      intro earlier before reachedEarlier
      rcases Nat.lt_trichotomy earlier place with lower | rfl | higher
      · exact ((follows place).mp (.inr wasRefused)).2 earlier lower reachedEarlier
      · exact notAccepted
      · exact absurd (minimal ⟨higher, reachedEarlier⟩ before.le) (Nat.not_le_of_lt before)
    have tried := (follows next).mpr ⟨reached, free⟩
    obtain ⟨first, begun, _, refusals⟩ := tries.path tried
    have below : first ≤ place :=
      tries.least place first (tries.reached (.inr wasRefused)) begun
    rcases Nat.lt_or_eq_of_le (Nat.succ_le_of_lt behind) with before | rfl
    · exact tries.reached (.inr (refusals (place + 1) (by omega) before))
    · exact reached
  stops := by
    intro place wasAccepted wasRefused reachedNext
    have tried := (tries.tried (place + 1)).mpr ⟨reachedNext, .inr ⟨place, rfl, wasRefused⟩⟩
    exact ((follows (place + 1)).mp tried).2 place (Nat.lt_succ_self _)
      (tries.reached (.inl wasAccepted)) wasAccepted

/-- What is tried follows the walk exactly where the tries are unbroken. -/
theorem Tries.follows_iff (tries : Tries reach begins accepted refused) :
    FollowsWalk reach accepted refused ↔ Unbroken reach begins accepted refused :=
  ⟨tries.unbroken, tries.follows⟩

end Tries

end Notifkit.Walks
