import Mathlib.Data.List.AList
import Mathlib.Data.List.Sort

/-!
# Rows under a primary key

A table keeps at most one row under each key. Beside inserting and deleting, it can be
read page by page: the next rows in the order of the keys, after the last key of the page
before, up to a limit. The order is the database's own and is handed to the read.

A page lists what it lists in order, and leaves out nothing but what comes after its end.
-/

namespace Notifkit

universe u v

/-- The rows of a table, each under its key. -/
abbrev KeyedRows (κ : Type u) (ρ : Type v) := AList fun _ : κ => ρ

namespace KeyedRows

variable {κ : Type u} {ρ : Type v}

/-- Delete the rows a condition holds of. -/
def deleteWhere (rows : KeyedRows κ ρ) (condition : κ → ρ → Bool) : KeyedRows κ ρ where
  entries := rows.entries.filter fun entry => !condition entry.1 entry.2
  nodupKeys := rows.nodupKeys.sublist List.filter_sublist

variable [DecidableEq κ]

/-- Insert a row unless the key has one. -/
def insertNew (rows : KeyedRows κ ρ) (key : κ) (row : ρ) : KeyedRows κ ρ :=
  if rows.lookup key = none then rows.insert key row else rows

/-- The rows after a key, or all of them, in the order of their keys. -/
def following (order : LinearOrder κ) (rows : KeyedRows κ ρ) (after : Option κ) : List (κ × ρ) :=
  ((rows.entries.map fun entry => (entry.1, entry.2)).filter fun entry =>
    after.all fun last => last < entry.1).insertionSort fun one two => one.1 ≤ two.1

/-- The first of these rows, up to a limit. -/
def page (order : LinearOrder κ) (rows : KeyedRows κ ρ) (after : Option κ) (limit : Nat) :
    List (κ × ρ) :=
  (following order rows after).take limit

theorem lookup_eq_some {rows : KeyedRows κ ρ} {key : κ} {row : ρ} :
    rows.lookup key = some row ↔ ⟨key, row⟩ ∈ rows.entries := by
  rw [← Option.mem_def]
  exact AList.mem_lookup_iff

/-- A row stays unless the condition holds of it. -/
theorem lookup_deleteWhere {rows : KeyedRows κ ρ} {condition : κ → ρ → Bool} {key : κ} :
    (rows.deleteWhere condition).lookup key =
      (rows.lookup key).filter fun row => !condition key row := by
  refine Option.ext fun row => ?_
  simp only [Option.filter_eq_some_iff, lookup_eq_some]
  simp [deleteWhere]

/-- An insert is seen under its key and under no other. -/
theorem lookup_insert {rows : KeyedRows κ ρ} {key other : κ} {row : ρ} :
    AList.lookup other (rows.insert key row) =
      if other = key then some row else rows.lookup other := by
  split
  next same =>
    subst same
    exact AList.lookup_insert rows
  next apart => exact AList.lookup_insert_ne apart

/-- A row that is there is kept by an insert of a new one. -/
theorem lookup_insertNew {rows : KeyedRows κ ρ} {key other : κ} {row : ρ} :
    (rows.insertNew key row).lookup other =
      if other = key then some ((rows.lookup key).getD row) else rows.lookup other := by
  unfold insertNew
  split
  next absent => rw [lookup_insert, absent, Option.getD_none]
  next present =>
    obtain ⟨old, found⟩ := Option.ne_none_iff_exists'.mp present
    split
    next same => rw [same, found, Option.getD_some]
    next => rfl

/-- A reading that has come to a cursor has come past a key. -/
def passed (order : LinearOrder κ) (after : Option κ) (key : κ) : Bool :=
  after.any fun last => key ≤ last

/-- How many of some keys it still has to come past. -/
def unpassed (order : LinearOrder κ) (after : Option κ) (keys : List κ) : Nat :=
  keys.countP fun key => !passed order after key

section Pages

variable {order : LinearOrder κ} {rows : KeyedRows κ ρ} {after : Option κ} {limit : Nat}

omit [DecidableEq κ] in
theorem passed_iff {key : κ} :
    passed order after key = true ↔ ∃ last ∈ after, key ≤ last := by
  cases after <;> simp [passed]

omit [DecidableEq κ] in
theorem passed_some {last key : κ} : passed order (some last) key = true ↔ key ≤ last := by
  simp [passed]

omit [DecidableEq κ] in
theorem later_of_not_passed {key : κ} (not : ¬ passed order after key = true) :
    ∀ last ∈ after, last < key := by
  intro last is
  by_contra below
  exact not (passed_iff.mpr ⟨last, is, le_of_not_gt below⟩)

theorem mem_following {entry : κ × ρ} :
    entry ∈ following order rows after ↔
      rows.lookup entry.1 = some entry.2 ∧ ∀ last ∈ after, last < entry.1 := by
  unfold following
  rw [List.mem_insertionSort, List.mem_filter, List.mem_map, lookup_eq_some]
  refine and_congr ⟨?_, fun present => ⟨_, present, rfl⟩⟩ ?_
  · rintro ⟨_, present, rfl⟩
    exact present
  · cases after <;> simp

omit [DecidableEq κ] in
theorem following_pairwise :
    (following order rows after).Pairwise fun one two => one.1 < two.1 := by
  have total : Std.Total fun one two : κ × ρ => one.1 ≤ two.1 :=
    ⟨fun one two => le_total one.1 two.1⟩
  have transitive : IsTrans (κ × ρ) fun one two => one.1 ≤ two.1 :=
    ⟨fun _ _ _ first second => le_trans first second⟩
  have sorted : (following order rows after).Pairwise fun one two => one.1 ≤ two.1 :=
    List.pairwise_insertionSort _ _
  have distinct : (rows.entries.map fun entry => (entry.1, entry.2)).Pairwise
      fun one two => one.1 ≠ two.1 := by
    rw [List.pairwise_map]
    exact List.pairwise_map.mp rows.nodupKeys
  refine sorted.imp₂ (fun one two below apart => lt_of_le_of_ne below apart) ?_
  exact ((List.perm_insertionSort _ _).pairwise_iff fun apart => Ne.symm apart).mpr
    (distinct.sublist List.filter_sublist)

/-- What a page lists is in the table and comes after the key. -/
theorem mem_page {entry : κ × ρ} (listed : entry ∈ page order rows after limit) :
    rows.lookup entry.1 = some entry.2 ∧ ∀ last ∈ after, last < entry.1 :=
  mem_following.mp (List.mem_of_mem_take listed)

omit [DecidableEq κ] in
theorem length_page : (page order rows after limit).length ≤ limit := List.length_take_le _ _

omit [DecidableEq κ] in
/-- A page lists its rows in order. -/
theorem page_pairwise :
    (page order rows after limit).Pairwise fun one two => one.1 < two.1 :=
  following_pairwise.sublist (List.take_sublist _ _)

/-- A row that comes after the key is on the page, or the page is full and ends before it. -/
theorem page_complete {key : κ} {row : ρ} (present : rows.lookup key = some row)
    (later : ∀ last ∈ after, last < key) :
    (key, row) ∈ page order rows after limit ∨
      (page order rows after limit).length = limit ∧
        ∀ entry ∈ page order rows after limit, entry.1 < key := by
  have member : (key, row) ∈ following order rows after := mem_following.mpr ⟨present, later⟩
  have sorted : (following order rows after).Pairwise fun one two => one.1 < two.1 :=
    following_pairwise
  rw [← List.take_append_drop limit (following order rows after)] at member sorted
  rcases List.mem_append.mp member with listed | beyond
  · exact .inl listed
  · have long := List.length_pos_of_mem beyond
    rw [List.length_drop] at long
    exact .inr ⟨List.length_take_of_le (by omega), fun entry listed =>
      (List.pairwise_append.mp sorted).2.2 entry listed _ beyond⟩

omit [DecidableEq κ] in
theorem page_distinct : ((page order rows after limit).map Prod.fst).Nodup := by
  apply List.pairwise_map.mpr
  exact page_pairwise.imp fun below => ne_of_lt below

/-- The end of a page comes after everything that was passed before. -/
theorem passed_next {last : κ × ρ} {key : κ}
    (ends : (page order rows after limit).getLast? = some last)
    (before : passed order after key = true) : passed order (some last.1) key = true := by
  obtain ⟨cursor, is, below⟩ := passed_iff.mp before
  have beyond := (mem_page (List.mem_of_getLast? ends)).2 cursor is
  exact passed_some.mpr (le_of_lt (lt_of_le_of_lt below beyond))

/-- Nothing on a page was passed before. -/
theorem not_passed_listed {entry : κ × ρ} (listed : entry ∈ page order rows after limit) :
    ¬ passed order after entry.1 = true := by
  intro before
  obtain ⟨cursor, is, below⟩ := passed_iff.mp before
  exact absurd ((mem_page listed).2 cursor is) (not_lt_of_ge below)

omit [DecidableEq κ] in
/-- The end of a page comes after everything on it. -/
theorem passed_listed {last entry : κ × ρ}
    (ends : (page order rows after limit).getLast? = some last)
    (listed : entry ∈ page order rows after limit) : passed order (some last.1) entry.1 = true := by
  obtain ⟨front, split⟩ := List.getLast?_eq_some_iff.mp ends
  apply passed_some.mpr
  have sorted : (page order rows after limit).Pairwise fun one two => one.1 < two.1 :=
    page_pairwise
  rw [split] at listed sorted
  rcases List.mem_append.mp listed with early | final
  · exact le_of_lt ((List.pairwise_append.mp sorted).2.2 entry early last List.mem_cons_self)
  · rw [List.mem_singleton.mp final]

/-- What is passed with a page was passed before it or is on it. -/
theorem listed_of_passed {last : κ × ρ} {key : κ} {row : ρ}
    (ends : (page order rows after limit).getLast? = some last)
    (present : rows.lookup key = some row) (now : passed order (some last.1) key = true) :
    passed order after key = true ∨ (key, row) ∈ page order rows after limit := by
  by_cases before : passed order after key = true
  · exact .inl before
  · right
    rcases page_complete present (later_of_not_passed before) with listed | ⟨_, ended⟩
    · exact listed
    · have below := passed_some.mp now
      exact absurd (ended last (List.mem_of_getLast? ends)) (not_lt_of_ge below)

/-- A page that is not full leaves nothing after it. -/
theorem listed_of_short {key : κ} {row : ρ}
    (short : (page order rows after limit).length < limit)
    (present : rows.lookup key = some row) :
    passed order after key = true ∨ (key, row) ∈ page order rows after limit := by
  by_cases before : passed order after key = true
  · exact .inl before
  · right
    rcases page_complete present (later_of_not_passed before) with listed | ⟨full, _⟩
    · exact listed
    · exact absurd full (Nat.ne_of_lt short)

/-- Each page passes at least as many of the keys that may come as it lists. -/
theorem length_add_unpassed {last : κ × ρ} {keys : List κ}
    (ends : (page order rows after limit).getLast? = some last)
    (known : ∀ key, rows.lookup key ≠ none → key ∈ keys) :
    (page order rows after limit).length + unpassed order (some last.1) keys ≤
      unpassed order after keys := by
  have inside : (page order rows after limit).map Prod.fst ⊆
      (keys.filter fun key => !passed order after key).filter
        fun key => passed order (some last.1) key := by
    intro key member
    obtain ⟨entry, listed, rfl⟩ := List.mem_map.mp member
    have present := (mem_page listed).1
    rw [List.mem_filter, List.mem_filter, Bool.not_eq_true', ← Bool.not_eq_true]
    exact ⟨⟨known _ (by simp [present]), not_passed_listed listed⟩, passed_listed ends listed⟩
  have fewer := (List.subperm_of_subset page_distinct inside).length_le
  have rest : unpassed order (some last.1) keys =
      ((keys.filter fun key => !passed order after key).filter
        fun key => !passed order (some last.1) key).length := by
    rw [unpassed, List.countP_eq_length_filter, List.filter_filter]
    congr 2
    funext key
    cases now : passed order (some last.1) key with
    | true => rfl
    | false =>
      have before : passed order after key = false := by
        rw [← Bool.not_eq_true]
        intro earlier
        rw [passed_next ends earlier] at now
        cases now
      simp [before]
  have whole := List.length_eq_length_filter_add
    (l := keys.filter fun key => !passed order after key)
    fun key => passed order (some last.1) key
  rw [List.length_map] at fewer
  rw [rest, unpassed, List.countP_eq_length_filter]
  omega

end Pages

end KeyedRows

end Notifkit
