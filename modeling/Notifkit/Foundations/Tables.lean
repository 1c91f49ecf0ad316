import Mathlib.Algebra.GroupWithZero.Nat
import Mathlib.Data.List.Perm.Basic

/-!
# Lists as tables addressed by position

A table keeps its rows in order; a row is replaced in place or added at the end.
The rules say which rows an updated table has, and which facts about rows survive.
-/

namespace Notifkit.Tables

universe u
variable {α : Type u}

/-- The rows of a table after one of them was replaced. -/
theorem row_set {table : List α} {position asked : Nat} {old new row : α}
    (present : table[position]? = some old) :
    (table.set position new)[asked]? = some row ↔
      asked = position ∧ row = new ∨ asked ≠ position ∧ table[asked]? = some row := by
  obtain ⟨inside, _⟩ := List.getElem?_eq_some_iff.mp present
  by_cases same : asked = position
  · subst same
    simp only [List.getElem?_set_self inside, Option.some.injEq, true_and, ne_eq, not_true_eq_false,
      false_and, or_false]
    exact eq_comm
  · simp only [List.getElem?_set_ne (Ne.symm same), same, false_and, ne_eq, not_false_eq_true,
      true_and, false_or]

/-- A table is as before where a row is written again. -/
theorem set_same {table : List α} {position : Nat} {row : α}
    (present : table[position]? = some row) : table.set position row = table := by
  obtain ⟨inside, rfl⟩ := List.getElem?_eq_some_iff.mp present
  exact List.set_getElem_self inside

/-- Taking a row out leaves what was before it and after it. -/
theorem split_at {table : List α} {position : Nat} {row : α}
    (present : table[position]? = some row) :
    ∃ before rest, table = before ++ row :: rest ∧ table.eraseIdx position = before ++ rest := by
  obtain ⟨inside, rfl⟩ := List.getElem?_eq_some_iff.mp present
  refine ⟨table.take position, table.drop (position + 1), ?_, List.eraseIdx_eq_take_drop_succ ..⟩
  rw [← List.drop_eq_getElem_cons inside, List.take_append_drop]

/-- Writing a row again leaves what was before it and after it. -/
theorem split_set {table : List α} {position : Nat} {row : α}
    (present : table[position]? = some row) :
    ∃ before rest, table = before ++ row :: rest ∧ table.take position = before ∧
      ∀ new, table.set position new = before ++ new :: rest := by
  obtain ⟨inside, rfl⟩ := List.getElem?_eq_some_iff.mp present
  refine ⟨table.take position, table.drop (position + 1), ?_, rfl, fun new => ?_⟩
  · rw [← List.drop_eq_getElem_cons inside, List.take_append_drop]
  · rw [List.set_eq_take_append_cons_drop, if_pos inside]

/-- A fact about every row survives a replacement by a row it holds of. -/
theorem all_set {table : List α} {position : Nat} {new : α} {holds : α → Prop}
    (all : ∀ row ∈ table, holds row) (fresh : holds new) :
    ∀ row ∈ table.set position new, holds row := by
  intro row member
  rcases List.mem_or_eq_of_mem_set member with old | same
  · exact all row old
  · exact same ▸ fresh

/-- A fact about every row survives an added row it holds of. -/
theorem all_append {table : List α} {new : α} {holds : α → Prop}
    (all : ∀ row ∈ table, holds row) (fresh : holds new) :
    ∀ row ∈ table ++ [new], holds row := by
  intro row member
  rcases List.mem_append.mp member with old | same
  · exact all row old
  · exact List.mem_singleton.mp same ▸ fresh

/-- A fact about some row survives a replacement that keeps it. -/
theorem some_set {table : List α} {position : Nat} {old new : α} {holds : α → Prop}
    (present : table[position]? = some old) (kept : holds old → holds new)
    (one : ∃ row ∈ table, holds row) : ∃ row ∈ table.set position new, holds row := by
  obtain ⟨row, member, fact⟩ := one
  obtain ⟨at', found⟩ := List.mem_iff_getElem?.mp member
  by_cases same : at' = position
  · subst same
    obtain rfl : old = row := Option.some.inj (present.symm.trans found)
    exact ⟨new, List.mem_of_getElem? ((row_set present).mpr (.inl ⟨rfl, rfl⟩)), kept fact⟩
  · exact ⟨row, List.mem_of_getElem? ((row_set present).mpr (.inr ⟨same, found⟩)), fact⟩

/-- A fact about the row at a position survives a replacement that keeps it. -/
theorem at_set {table : List α} {position asked : Nat} {old new : α} {holds : α → Prop}
    (present : table[position]? = some old) (kept : holds old → holds new)
    (one : ∃ row, table[asked]? = some row ∧ holds row) :
    ∃ row, (table.set position new)[asked]? = some row ∧ holds row := by
  obtain ⟨row, found, fact⟩ := one
  by_cases same : asked = position
  · subst same
    obtain rfl : old = row := Option.some.inj (present.symm.trans found)
    exact ⟨new, (row_set present).mpr (.inl ⟨rfl, rfl⟩), kept fact⟩
  · exact ⟨row, (row_set present).mpr (.inr ⟨same, found⟩), fact⟩

/-- A fact about some row survives an added row. -/
theorem some_append {table : List α} {new : α} {holds : α → Prop}
    (one : ∃ row ∈ table, holds row) : ∃ row ∈ table ++ [new], holds row := by
  obtain ⟨row, member, fact⟩ := one
  exact ⟨row, List.mem_append_left _ member, fact⟩

/-- The rows that were there keep their positions when one is added. -/
theorem row_append {table : List α} {asked : Nat} {row new : α} :
    (table ++ [new])[asked]? = some row ↔
      table[asked]? = some row ∨ asked = table.length ∧ row = new := by
  rw [List.getElem?_append]
  by_cases inside : asked < table.length
  · simp only [inside, if_true]
    constructor
    · exact .inl
    · rintro (found | ⟨same, _⟩)
      · exact found
      · omega
  · have absent : table[asked]? = none := List.getElem?_eq_none (by omega)
    simp only [inside, if_false, absent, reduceCtorEq, false_or]
    constructor
    · intro found
      obtain ⟨bound, same⟩ := List.getElem?_eq_some_iff.mp found
      have first : asked - table.length = 0 := by
        simp only [List.length_singleton] at bound
        omega
      refine ⟨by omega, ?_⟩
      simp only [first, List.getElem_cons_zero] at same
      exact same.symm
    · rintro ⟨rfl, rfl⟩
      simp

/-- Taking a row out takes it out of the count of the rows that meet a test. -/
theorem countP_eraseIdx {table : List α} {position : Nat} {row : α} (test : α → Bool)
    (present : table[position]? = some row) :
    table.countP test = (table.eraseIdx position).countP test + if test row then 1 else 0 := by
  obtain ⟨inside, rfl⟩ := List.getElem?_eq_some_iff.mp present
  rw [← (List.getElem_cons_eraseIdx_perm inside).countP_eq, List.countP_cons]

section Counts

variable {table : List α} (test one other : α → Bool)

/-- A test that no two positions meet is met once at most. -/
theorem countP_le_one (single : ∀ (first second : Nat) (row last : α), table[first]? = some row →
    table[second]? = some last → test row = true → test last = true → first = second) :
    table.countP test ≤ 1 := by
  by_cases met : table.countP test = 0
  · exact met ▸ Nat.zero_le 1
  · obtain ⟨row, member, meets⟩ := List.countP_pos_iff.mp (Nat.pos_of_ne_zero met)
    obtain ⟨position, found⟩ := List.mem_iff_getElem?.mp member
    rw [countP_eraseIdx test found, if_pos meets]
    have rest : (table.eraseIdx position).countP test = 0 := by
      refine List.countP_eq_zero.mpr fun later present meetsLater => ?_
      obtain ⟨place, foundLater⟩ := List.mem_iff_getElem?.mp present
      rw [List.getElem?_eraseIdx] at foundLater
      split at foundLater
      · have same := single position place row later found foundLater meets meetsLater
        omega
      · have same := single position (place + 1) row later found foundLater meets meetsLater
        omega
    omega

/-- Rows that meet a test are counted where each meets one of two. -/
theorem countP_le_add (either : ∀ row ∈ table, test row = true → one row = true ∨ other row = true) :
    table.countP test ≤ table.countP one + table.countP other := by
  induction table with
  | nil => exact Nat.le_refl 0
  | cons head rest inductionHypothesis =>
    have shared := inductionHypothesis fun row member => either row (List.mem_cons_of_mem _ member)
    have first := either head List.mem_cons_self
    simp only [List.countP_cons]
    cases meets : test head with
    | false =>
      simp only [Bool.false_eq_true, if_false]
      omega
    | true =>
      rcases first meets with met | met
      · simp only [met, if_true]
        omega
      · simp only [met, if_true]
        omega

/-- A sum over the rows, where only those that meet a test have a share. -/
theorem sum_le_countP {measure : α → Nat} {bound : Nat}
    (share : ∀ row ∈ table, measure row ≤ if test row then bound else 0) :
    (table.map measure).sum ≤ bound * table.countP test := by
  induction table with
  | nil => exact Nat.zero_le _
  | cons head rest inductionHypothesis =>
    have shared := inductionHypothesis fun row member => share row (List.mem_cons_of_mem _ member)
    have first := share head List.mem_cons_self
    rw [List.map_cons, List.sum_cons, List.countP_cons, Nat.mul_add]
    cases meets : test head with
    | false =>
      simp only [meets, Bool.false_eq_true, if_false] at first ⊢
      omega
    | true =>
      simp only [meets, if_true, Nat.mul_one] at first ⊢
      omega

end Counts

section Sums

variable {measure : α → Nat} {position : Nat} {row new : α}

/-- Taking a row out lessens a sum over the table by the row's share. -/
theorem sum_eraseIdx {table : List α} (present : table[position]? = some row) :
    (table.map measure).sum = measure row + ((table.eraseIdx position).map measure).sum := by
  induction table generalizing position with
  | nil => cases present
  | cons head rest inductionHypothesis =>
    cases position with
    | zero =>
      obtain rfl : head = row := Option.some.inj present
      simp
    | succ position =>
      have shared := inductionHypothesis present
      simp only [List.map_cons, List.sum_cons, List.eraseIdx_cons_succ]
      omega

/-- Replacing a row changes a sum over the table by the rows' shares. -/
theorem sum_set {table : List α} (present : table[position]? = some row) :
    ((table.set position new).map measure).sum + measure row =
      (table.map measure).sum + measure new := by
  induction table generalizing position with
  | nil => cases present
  | cons head rest inductionHypothesis =>
    cases position with
    | zero =>
      obtain rfl : head = row := Option.some.inj present
      simp only [List.set_cons_zero, List.map_cons, List.sum_cons]
      omega
    | succ position =>
      have shared := inductionHypothesis present
      simp only [List.set_cons_succ, List.map_cons, List.sum_cons]
      omega

end Sums

end Notifkit.Tables
