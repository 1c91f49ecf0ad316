import Mathlib.Data.List.Sort

/-!
# Rows in descending order of a key

A query that orders by a key and takes a number of rows reads the first of the sorted rows. Where
keys differ the order is strict, a condition may be checked before or after sorting, and a row that
is not among the first stands behind all of them.
-/

namespace Notifkit

universe u v
variable {ρ : Type u} {κ : Type v} [LinearOrder κ] {key : ρ → κ} {rows : List ρ}

/-- `ORDER BY key DESC` -/
def newestFirst (key : ρ → κ) (rows : List ρ) : List ρ :=
  rows.insertionSort fun one two => key two ≤ key one

theorem mem_newestFirst {row : ρ} : row ∈ newestFirst key rows ↔ row ∈ rows :=
  List.mem_insertionSort _

theorem newestFirst_perm : (newestFirst key rows).Perm rows := List.perm_insertionSort _ _

/-- Rows in order stay as they are. -/
theorem newestFirst_of_sorted (sorted : rows.Pairwise fun one two => key two ≤ key one) :
    newestFirst key rows = rows := sorted.insertionSort_eq

/-- Rows whose keys differ stand each before the older ones. -/
theorem newestFirst_sorted (distinct : (rows.map key).Nodup) :
    (newestFirst key rows).Pairwise fun one two => key two < key one := by
  have total : Std.Total fun one two : ρ => key two ≤ key one :=
    ⟨fun one two => le_total (key two) (key one)⟩
  have transitive : IsTrans ρ fun one two => key two ≤ key one :=
    ⟨fun _ _ _ first second => le_trans second first⟩
  have sorted : (newestFirst key rows).Pairwise fun one two => key two ≤ key one :=
    List.pairwise_insertionSort _ _
  have apart : rows.Pairwise fun one two => key one ≠ key two := List.pairwise_map.mp distinct
  have perm : (newestFirst key rows).Perm rows := newestFirst_perm
  have apart' := (perm.pairwise_iff fun differ => Ne.symm differ).mpr apart
  exact sorted.imp₂ (fun _ _ below differ => lt_of_le_of_ne below (Ne.symm differ)) apart'

/-- A condition may be checked before the rows are sorted or after. -/
theorem newestFirst_filter (distinct : (rows.map key).Nodup) (condition : ρ → Bool) :
    newestFirst key (rows.filter condition) = (newestFirst key rows).filter condition := by
  have sorted := newestFirst_sorted (distinct.sublist
    ((List.filter_sublist (p := condition)).map key))
  have sorted' := (newestFirst_sorted distinct).sublist (List.filter_sublist (p := condition))
  have same : (newestFirst key (rows.filter condition)).Perm
      ((newestFirst key rows).filter condition) :=
    newestFirst_perm.trans (newestFirst_perm.symm.filter _)
  refine same.eq_of_pairwise ?_ sorted sorted'
  intro one two _ _ below above
  exact absurd below (lt_asymm above)

/-- A row is among the first, or these are as many as were asked for and all before it. -/
theorem mem_take_newestFirst {row : ρ} {limit : Nat} (distinct : (rows.map key).Nodup)
    (member : row ∈ rows) :
    row ∈ (newestFirst key rows).take limit ∨
      ((newestFirst key rows).take limit).length = limit ∧
        ∀ other ∈ (newestFirst key rows).take limit, key row < key other := by
  have sorted := newestFirst_sorted distinct
  have inside : row ∈ newestFirst key rows := mem_newestFirst.mpr member
  rw [← List.take_append_drop limit (newestFirst key rows)] at sorted inside
  rcases List.mem_append.mp inside with early | late
  · exact .inl early
  · right
    have long := List.length_pos_of_mem late
    rw [List.length_drop] at long
    refine ⟨List.length_take_of_le (by omega), fun other listed => ?_⟩
    exact (List.pairwise_append.mp sorted).2.2 other listed row late

end Notifkit
