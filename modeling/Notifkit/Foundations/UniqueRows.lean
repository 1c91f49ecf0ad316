import Mathlib.Init

/-!
# Inserts that skip what conflicts

A table with a unique constraint takes a batch of rows one after the other. A row whose place is
taken is skipped, so that a repeated insert does nothing. When two rows claim one place is up to the
table.
-/

namespace Notifkit.UniqueRows

universe u
variable {ρ : Type u}

/-- Insert rows, skipping those whose place is taken. -/
def insertNew (sameKey : ρ → ρ → Bool) (table : List ρ) : List ρ → List ρ
  | [] => table
  | row :: rest =>
    insertNew sameKey (if table.any (sameKey row) then table else table ++ [row]) rest

variable {sameKey : ρ → ρ → Bool} {table rows : List ρ} {row : ρ}

/-- What is in the table stays. -/
theorem mem_insertNew (stored : row ∈ table) : row ∈ insertNew sameKey table rows := by
  induction rows generalizing table with
  | nil => exact stored
  | cons first rest inductionHypothesis =>
    apply inductionHypothesis
    split
    · exact stored
    · exact List.mem_append_left _ stored

/-- What is in the table afterwards was there or is new. -/
theorem of_mem_insertNew (stored : row ∈ insertNew sameKey table rows) :
    row ∈ table ∨ row ∈ rows := by
  induction rows generalizing table with
  | nil => exact .inl stored
  | cons first rest inductionHypothesis =>
    rcases inductionHypothesis stored with before | later
    · split at before
      · exact .inl before
      · rcases List.mem_append.mp before with old | fresh
        · exact .inl old
        · exact .inr (List.mem_singleton.mp fresh ▸ List.mem_cons_self)
    · exact .inr (List.mem_cons_of_mem _ later)

/-- Each row is in the table afterwards, or its place was taken by one of the table or of the rows
before it. -/
theorem insertNew_place (listed : row ∈ rows) :
    row ∈ insertNew sameKey table rows ∨
      ∃ stored ∈ insertNew sameKey table rows, sameKey row stored = true ∧
        (stored ∈ table ∨ stored ∈ rows) := by
  induction rows generalizing table with
  | nil => exact nomatch listed
  | cons first rest inductionHypothesis =>
    rcases List.mem_cons.mp listed with rfl | later
    · by_cases taken : table.any (sameKey row) = true
      · obtain ⟨stored, member, same⟩ := List.any_eq_true.mp taken
        exact .inr ⟨stored, mem_insertNew member, same, .inl member⟩
      · have fresh : row ∈ table ++ [row] := List.mem_append_right _ (List.mem_singleton.mpr rfl)
        left
        simp only [insertNew, taken]
        exact mem_insertNew fresh
    · rcases inductionHypothesis later with there | ⟨stored, member, same, origin⟩
      · exact .inl there
      · refine .inr ⟨stored, member, same, ?_⟩
        rcases origin with before | new
        · split at before
          · exact .inl before
          · rcases List.mem_append.mp before with old | fresh
            · exact .inl old
            · exact .inr (List.mem_singleton.mp fresh ▸ List.mem_cons_self)
        · exact .inr (List.mem_cons_of_mem _ new)

/-- A row whose place is taken adds nothing. -/
theorem insertNew_taken (taken : ∃ stored ∈ table, sameKey row stored = true) :
    insertNew sameKey table [row] = table := by
  have any : table.any (sameKey row) = true := List.any_eq_true.mpr taken
  simp only [insertNew, any, if_true]

/-- Where rows claim one place by a key, the keys of the table stay distinct. -/
theorem insertNew_unique {κ : Type*} {key : ρ → κ}
    (same : ∀ one two, sameKey one two = true ↔ key one = key two)
    (unique : (table.map key).Nodup) : ((insertNew sameKey table rows).map key).Nodup := by
  induction rows generalizing table with
  | nil => exact unique
  | cons first rest inductionHypothesis =>
    apply inductionHypothesis
    by_cases taken : table.any (sameKey first) = true
    · rw [if_pos taken]
      exact unique
    · have apart : key first ∉ table.map key := by
        intro listed
        obtain ⟨stored, member, equal⟩ := List.mem_map.mp listed
        exact taken (List.any_eq_true.mpr ⟨stored, member, (same first stored).mpr equal.symm⟩)
      rw [if_neg taken, List.map_append, List.nodup_append]
      refine ⟨unique, by simp, ?_⟩
      intro old known new listed equal
      obtain rfl : new = key first := by simpa using listed
      exact apart (equal ▸ known)

end Notifkit.UniqueRows
