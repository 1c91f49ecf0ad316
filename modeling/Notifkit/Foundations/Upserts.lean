import Mathlib.Data.List.Nodup

/-!
# Inserts of several rows that may be there already

A table with a unique key is read as what each key holds. A statement inserts several rows, and an
`ON CONFLICT` clause says what becomes of a row that is there already. The database refuses a
statement that would touch one row twice, so its caller keeps one row for each key in a map that
remembers the order of insertion.

The rules say what a table holds afterwards: where the last row of a key wins, it does not matter
whether the rows come in one statement or in several, nor whether the earlier ones were dropped.
-/

namespace Notifkit.Upserts

universe u v w x
variable {κ : Type u} {ν : Type v}

/-- What each key holds. -/
abbrev Table (κ : Type u) (ν : Type v) := κ → Option ν

variable [DecidableEq κ]

/-- The last value of a key in a list of rows, or else the one that was there. -/
def lastOf (key : κ) (rows : List (κ × ν)) (stored : Option ν) : Option ν :=
  rows.foldl (fun held row => if row.1 = key then some row.2 else held) stored

@[simp] theorem lastOf_nil (key : κ) (stored : Option ν) : lastOf key [] stored = stored := rfl

@[simp] theorem lastOf_cons (key : κ) (row : κ × ν) (rows : List (κ × ν)) (stored : Option ν) :
    lastOf key (row :: rows) stored =
      lastOf key rows (if row.1 = key then some row.2 else stored) := rfl

theorem lastOf_append (key : κ) (first second : List (κ × ν)) (stored : Option ν) :
    lastOf key (first ++ second) stored = lastOf key second (lastOf key first stored) := by
  simp [lastOf]

/-- A key that has rows does not depend on what was there. -/
theorem lastOf_eq (key : κ) (rows : List (κ × ν)) (stored : Option ν) :
    lastOf key rows stored = (lastOf key rows none).or stored := by
  induction rows generalizing stored with
  | nil => rfl
  | cons row rest inductionHypothesis =>
    rw [lastOf_cons, lastOf_cons, inductionHypothesis]
    by_cases same : row.1 = key
    · rw [if_pos same, if_pos same, inductionHypothesis (some row.2)]
      cases lastOf key rest none <;> rfl
    · rw [if_neg same, if_neg same]

/-- A key without rows keeps what was there. -/
theorem lastOf_absent {key : κ} {rows : List (κ × ν)} (absent : ∀ row ∈ rows, row.1 ≠ key)
    (stored : Option ν) : lastOf key rows stored = stored := by
  induction rows generalizing stored with
  | nil => rfl
  | cons row rest inductionHypothesis =>
    obtain ⟨here, later⟩ := List.forall_mem_cons.mp absent
    rw [lastOf_cons, if_neg here]
    exact inductionHypothesis later stored

/-- The last value of a key is that of one of its rows, or the one that was there. -/
theorem lastOf_mem {key : κ} {rows : List (κ × ν)} {stored : Option ν} {value : ν}
    (held : lastOf key rows stored = some value) :
    (key, value) ∈ rows ∨ stored = some value := by
  induction rows generalizing stored with
  | nil => exact .inr held
  | cons row rest inductionHypothesis =>
    rw [lastOf_cons] at held
    obtain later | here := inductionHypothesis held
    · exact .inl (List.mem_cons_of_mem _ later)
    · split at here
      next same =>
        obtain rfl := Option.some.inj here
        exact .inl (same ▸ List.mem_cons_self)
      next => exact .inr here

/-- A key with a row has a last value. -/
theorem lastOf_some {key : κ} {rows : List (κ × ν)} {value : ν} (listed : (key, value) ∈ rows)
    (stored : Option ν) : ∃ last, lastOf key rows stored = some last := by
  induction rows generalizing stored with
  | nil => cases listed
  | cons row rest inductionHypothesis =>
    rw [lastOf_cons]
    obtain rfl | later := List.mem_cons.mp listed
    · rw [if_pos rfl, lastOf_eq]
      cases lastOf key rest none with
      | none => exact ⟨value, rfl⟩
      | some last => exact ⟨last, rfl⟩
    · exact inductionHypothesis later _

/-- With one row for each key, a row is the last of its key. -/
theorem lastOf_of_mem {key : κ} {rows : List (κ × ν)} {value : ν}
    (distinct : (rows.map Prod.fst).Nodup) (member : (key, value) ∈ rows) :
    lastOf key rows none = some value := by
  induction rows with
  | nil => cases member
  | cons row rest inductionHypothesis =>
    obtain ⟨fresh, later⟩ := List.nodup_cons.mp distinct
    rw [lastOf_cons]
    obtain rfl | elsewhere := List.mem_cons.mp member
    · rw [if_pos rfl]
      refine lastOf_absent (fun other listed same => fresh ?_) _
      exact List.mem_map.mpr ⟨other, listed, same⟩
    · have other : row.1 ≠ key := fun same =>
        fresh (same ▸ List.mem_map.mpr ⟨(key, value), elsewhere, rfl⟩)
      rw [if_neg other]
      exact inductionHypothesis later elsewhere

/-- Keys and values may be renamed, as long as the keys stay apart. -/
theorem lastOf_map {κ' : Type w} {ν' : Type x} [DecidableEq κ'] {rename : κ → κ'}
    (apart : Function.Injective rename) (change : ν → ν') (key : κ) (rows : List (κ × ν))
    (stored : Option ν) :
    lastOf (rename key) (rows.map fun row => (rename row.1, change row.2)) (stored.map change) =
      (lastOf key rows stored).map change := by
  induction rows generalizing stored with
  | nil => rfl
  | cons row rest inductionHypothesis =>
    rw [List.map_cons, lastOf_cons, lastOf_cons, ← inductionHypothesis]
    by_cases same : row.1 = key
    · simp [same]
    · have other : rename row.1 ≠ rename key := fun renamed => same (apart renamed)
      simp [same, other]

section Maps

/-- `Map.set`: a key keeps its place, a new one goes to the end. -/
def put (key : κ) (value : ν) : List (κ × ν) → List (κ × ν)
  | [] => [(key, value)]
  | (other, old) :: rest =>
    if other = key then (key, value) :: rest else (other, old) :: put key value rest

/-- Set one after another. -/
def putAll (entries rows : List (κ × ν)) : List (κ × ν) :=
  rows.foldl (fun entries row => put row.1 row.2 entries) entries

/-- The keys of a map with one more. -/
theorem mem_keys_put {key other : κ} {value : ν} {entries : List (κ × ν)} :
    other ∈ (put key value entries).map Prod.fst ↔ other = key ∨ other ∈ entries.map Prod.fst := by
  induction entries with
  | nil => simp [put]
  | cons entry rest inductionHypothesis =>
    unfold put
    split
    next same =>
      subst same
      simp
    next => simp only [List.map_cons, List.mem_cons, inductionHypothesis, or_left_comm]

/-- A key is set once. -/
theorem put_distinct {entries : List (κ × ν)} (distinct : (entries.map Prod.fst).Nodup) (key : κ)
    (value : ν) : ((put key value entries).map Prod.fst).Nodup := by
  induction entries with
  | nil => exact List.nodup_singleton key
  | cons entry rest inductionHypothesis =>
    obtain ⟨fresh, later⟩ := List.nodup_cons.mp distinct
    unfold put
    split
    next same =>
      subst same
      exact List.nodup_cons.mpr ⟨fresh, later⟩
    next other =>
      refine List.nodup_cons.mpr ⟨fun listed => ?_, inductionHypothesis later⟩
      obtain same | old := mem_keys_put.mp listed
      · exact other same
      · exact fresh old

/-- A map holds what was set last. -/
theorem lastOf_put {entries : List (κ × ν)} (distinct : (entries.map Prod.fst).Nodup)
    (key other : κ) (value : ν) :
    lastOf other (put key value entries) none =
      if key = other then some value else lastOf other entries none := by
  induction entries with
  | nil => rfl
  | cons entry rest inductionHypothesis =>
    obtain ⟨fresh, later⟩ := List.nodup_cons.mp distinct
    unfold put
    split
    next same =>
      subst same
      rw [lastOf_cons, lastOf_cons]
      by_cases here : entry.1 = other
      · subst here
        have absent : ∀ row ∈ rest, row.1 ≠ entry.1 := fun row listed same =>
          fresh (same ▸ List.mem_map.mpr ⟨row, listed, rfl⟩)
        simp only [if_true]
        exact lastOf_absent absent _
      · simp only [if_neg here]
    next elsewhere =>
      rw [lastOf_cons, lastOf_cons, lastOf_eq, inductionHypothesis later]
      by_cases here : key = other
      · subst here
        simp [elsewhere]
      · rw [if_neg here, if_neg here, ← lastOf_eq]

/-- The keys of a map are distinct, whatever was set. -/
theorem putAll_distinct {entries : List (κ × ν)} (distinct : (entries.map Prod.fst).Nodup)
    (rows : List (κ × ν)) : ((putAll entries rows).map Prod.fst).Nodup := by
  induction rows generalizing entries with
  | nil => exact distinct
  | cons row rest inductionHypothesis =>
    exact inductionHypothesis (put_distinct distinct row.1 row.2)

/-- A map holds the last row of each key. -/
theorem lastOf_putAll {entries : List (κ × ν)} (distinct : (entries.map Prod.fst).Nodup)
    (rows : List (κ × ν)) (key : κ) :
    lastOf key (putAll entries rows) none = lastOf key rows (lastOf key entries none) := by
  induction rows generalizing entries with
  | nil => rfl
  | cons row rest inductionHypothesis =>
    have step := inductionHypothesis (put_distinct distinct row.1 row.2)
    rw [lastOf_put distinct] at step
    exact step

/-- The last row of each key, in the order in which the keys came. -/
def latest (rows : List (κ × ν)) : List (κ × ν) := putAll [] rows

theorem latest_distinct (rows : List (κ × ν)) : ((latest rows).map Prod.fst).Nodup :=
  putAll_distinct (by simp) rows

theorem lastOf_latest (rows : List (κ × ν)) (key : κ) :
    lastOf key (latest rows) none = lastOf key rows none :=
  lastOf_putAll (by simp) rows key

/-- The rows that are left are the last ones of their keys. -/
theorem mem_latest {rows : List (κ × ν)} {row : κ × ν} :
    row ∈ latest rows ↔ lastOf row.1 rows none = some row.2 := by
  constructor
  · intro member
    rw [← lastOf_latest]
    exact lastOf_of_mem (latest_distinct rows) member
  · intro held
    rw [← lastOf_latest] at held
    obtain member | absent := lastOf_mem held
    · exact member
    · cases absent

variable {κ' : Type w} [DecidableEq κ']

/-- Keys may be spelled in any way that tells them apart. -/
theorem put_map {spell : κ → κ'} (apart : Function.Injective spell) (key : κ) (value : ν)
    (entries : List (κ × ν)) :
    put (spell key) (key, value) (entries.map fun entry => (spell entry.1, entry)) =
      (put key value entries).map fun entry => (spell entry.1, entry) := by
  induction entries with
  | nil => rfl
  | cons entry rest inductionHypothesis =>
    by_cases same : entry.1 = key
    · simp [put, same]
    · have other : spell entry.1 ≠ spell key := fun spelled => same (apart spelled)
      simp [put, same, other, inductionHypothesis]

/-- The rows that are left are the same, however their keys are spelled. -/
theorem latest_map {spell : κ → κ'} (apart : Function.Injective spell) (rows : List (κ × ν)) :
    (latest (rows.map fun row => (spell row.1, row))).map Prod.snd = latest rows := by
  have spelled : ∀ entries : List (κ × ν),
      putAll (entries.map fun entry => (spell entry.1, entry))
        (rows.map fun row => (spell row.1, row)) =
      (putAll entries rows).map fun entry => (spell entry.1, entry) := by
    induction rows with
    | nil => exact fun _ => rfl
    | cons row rest inductionHypothesis =>
      intro entries
      have step := inductionHypothesis (put row.1 row.2 entries)
      rw [← put_map apart] at step
      exact step
  have all := spelled []
  rw [List.map_nil] at all
  unfold latest
  rw [all, List.map_map]
  exact List.map_id _

end Maps

section Statements

variable {update : ν → ν → ν} {table : Table κ ν}

/-- One row of a statement: a new one is inserted, one that is there is updated. -/
def place (update : ν → ν → ν) (table : Table κ ν) (row : κ × ν) : Table κ ν := fun other =>
  if row.1 = other then some (((table other).map fun old => update old row.2).getD row.2)
  else table other

/-- `INSERT … ON CONFLICT DO UPDATE`. The database refuses a statement with two rows of one key. -/
def insertOrUpdate (update : ν → ν → ν) (rows : List (κ × ν)) (table : Table κ ν) :
    Option (Table κ ν) :=
  if (rows.map Prod.fst).Nodup then some (rows.foldl (place update) table) else none

/-- Rows of other keys change nothing for a key. -/
theorem foldl_place_absent {rows : List (κ × ν)} {key : κ} (absent : ∀ row ∈ rows, row.1 ≠ key)
    (table : Table κ ν) : rows.foldl (place update) table key = table key := by
  induction rows generalizing table with
  | nil => rfl
  | cons row rest inductionHypothesis =>
    obtain ⟨here, later⟩ := List.forall_mem_cons.mp absent
    rw [List.foldl_cons, inductionHypothesis later]
    exact if_neg here

/-- With one row for each key, a statement changes each key once. -/
theorem foldl_place {rows : List (κ × ν)} (distinct : (rows.map Prod.fst).Nodup)
    (table : Table κ ν) (key : κ) :
    rows.foldl (place update) table key =
      match lastOf key rows none with
      | some new => some (((table key).map fun old => update old new).getD new)
      | none => table key := by
  induction rows generalizing table with
  | nil => rfl
  | cons row rest inductionHypothesis =>
    obtain ⟨fresh, later⟩ := List.nodup_cons.mp distinct
    rw [List.foldl_cons, lastOf_cons]
    by_cases here : row.1 = key
    · subst here
      have absent : ∀ other ∈ rest, other.1 ≠ row.1 := fun other listed same =>
        fresh (same ▸ List.mem_map.mpr ⟨other, listed, rfl⟩)
      rw [foldl_place_absent absent, if_pos rfl, lastOf_absent absent]
      exact if_pos rfl
    · rw [inductionHypothesis later, if_neg here]
      simp only [place, if_neg here]

/-- Where the new row takes the place of the old one, the last row of a key wins. -/
theorem foldl_replace (rows : List (κ × ν)) (table : Table κ ν) (key : κ) :
    rows.foldl (place fun _ new => new) table key = lastOf key rows (table key) := by
  induction rows generalizing table with
  | nil => rfl
  | cons row rest inductionHypothesis =>
    rw [List.foldl_cons, lastOf_cons, inductionHypothesis]
    congr 1
    unfold place
    split
    · cases table key <;> rfl
    · rfl

/-- A statement with the last row of each key comes to what all rows one by one would. -/
theorem insert_latest (rows : List (κ × ν)) (table : Table κ ν) :
    insertOrUpdate (fun _ new => new) (latest rows) table =
      some fun key => lastOf key rows (table key) := by
  unfold insertOrUpdate
  rw [if_pos (latest_distinct rows)]
  congr 1
  funext key
  rw [foldl_replace, lastOf_eq, lastOf_latest, ← lastOf_eq]

end Statements

section Merging

variable {merge : ν → ν → ν}

/-- A key has a last value exactly where it has a row. -/
theorem lastOf_isSome {key : κ} {rows : List (κ × ν)} :
    (lastOf key rows none).isSome = true ↔ key ∈ rows.map Prod.fst := by
  constructor
  · intro held
    obtain ⟨value, found⟩ := Option.isSome_iff_exists.mp held
    obtain listed | absent := lastOf_mem found
    · exact List.mem_map.mpr ⟨(key, value), listed, rfl⟩
    · cases absent
  · intro named
    obtain ⟨row, listed, rfl⟩ := List.mem_map.mp named
    obtain ⟨last, held⟩ := lastOf_some listed none
    rw [held]
    rfl

/-- `Map.set` with what is there merged in. -/
def putMerged (merge : ν → ν → ν) (entries : List (κ × ν)) (row : κ × ν) : List (κ × ν) :=
  put row.1 (((lastOf row.1 entries none).map fun seen => merge seen row.2).getD row.2) entries

/-- The rows of each key merged into one, in the order in which the keys came. -/
def merged (merge : ν → ν → ν) (rows : List (κ × ν)) : List (κ × ν) :=
  rows.foldl (putMerged merge) []

/-- Merged one after another, the rows stand for what a table would hold. -/
theorem merged_from {entries : List (κ × ν)} (distinct : (entries.map Prod.fst).Nodup)
    (rows : List (κ × ν)) :
    ((rows.foldl (putMerged merge) entries).map Prod.fst).Nodup ∧
      ∀ key, lastOf key (rows.foldl (putMerged merge) entries) none =
        rows.foldl (place merge) (fun key => lastOf key entries none) key := by
  induction rows generalizing entries with
  | nil => exact ⟨distinct, fun _ => rfl⟩
  | cons row rest inductionHypothesis =>
    have kept : ((putMerged merge entries row).map Prod.fst).Nodup :=
      put_distinct distinct row.1 _
    obtain ⟨apart, held⟩ := inductionHypothesis kept
    refine ⟨apart, fun key => (held key).trans ?_⟩
    have placed : (fun key => lastOf key (putMerged merge entries row) none) =
        place merge (fun key => lastOf key entries none) row := by
      funext other
      unfold putMerged place
      rw [lastOf_put distinct]
      split
      next same => rw [same]
      next => rfl
    rw [placed]
    rfl

theorem merged_distinct (merge : ν → ν → ν) (rows : List (κ × ν)) :
    ((merged merge rows).map Prod.fst).Nodup :=
  (merged_from (by simp) rows).1

theorem lastOf_merged (merge : ν → ν → ν) (rows : List (κ × ν)) (key : κ) :
    lastOf key (merged merge rows) none = rows.foldl (place merge) (fun _ => none) key :=
  (merged_from (by simp) rows).2 key

/-- What holds of every row and outlasts a merge holds of every entry. -/
theorem merged_all (holds : κ → ν → Prop) {rows : List (κ × ν)}
    (all : ∀ row ∈ rows, holds row.1 row.2)
    (kept : ∀ key old new, holds key old → holds key new → holds key (merge old new)) :
    ∀ entry ∈ merged merge rows, holds entry.1 entry.2 := by
  have outlasts : ∀ (rows : List (κ × ν)) (table : Table κ ν), (∀ row ∈ rows, holds row.1 row.2) →
      (∀ key value, table key = some value → holds key value) → ∀ key value,
      rows.foldl (place merge) table key = some value → holds key value := by
    intro rows
    induction rows with
    | nil => exact fun _ _ before => before
    | cons row rest inductionHypothesis =>
      intro table all before
      obtain ⟨here, later⟩ := List.forall_mem_cons.mp all
      refine inductionHypothesis (place merge table row) later ?_
      intro key value held
      unfold place at held
      split at held
      next same =>
        subst same
        obtain rfl := Option.some.inj held
        cases old : table row.1 with
        | none => exact here
        | some value => exact kept row.1 value row.2 (before row.1 value old) here
      next => exact before key value held
  intro entry member
  have held := lastOf_of_mem (merged_distinct merge rows) member
  rw [lastOf_merged] at held
  refine outlasts rows (fun _ => none) all ?_ entry.1 entry.2 held
  intro key value absent
  cases absent

/-- A merged map has the keys of its rows. -/
theorem mem_merged_keys {rows : List (κ × ν)} {key : κ} :
    key ∈ (merged merge rows).map Prod.fst ↔ key ∈ rows.map Prod.fst := by
  have grown : ∀ (rows : List (κ × ν)) (table : Table κ ν),
      (rows.foldl (place merge) table key).isSome = true ↔
        (table key).isSome = true ∨ key ∈ rows.map Prod.fst := by
    intro rows
    induction rows with
    | nil => simp
    | cons row rest inductionHypothesis =>
      intro table
      rw [List.foldl_cons, inductionHypothesis, List.map_cons, List.mem_cons]
      unfold place
      by_cases same : row.1 = key
      · simp [same]
      · simp [same, Ne.symm same]
  rw [← lastOf_isSome, lastOf_merged, grown]
  simp

section Renaming

variable {α : Type w} {κ' : Type x} [DecidableEq κ'] {spell : α → κ} {spell' : α → κ'}

/-- Looked up under either spelling, the last value of a key is the same. -/
theorem lastOf_spelled {entries : List (α × ν)} {row : α}
    (alike : ∀ entry ∈ entries, spell entry.1 = spell row ↔ spell' entry.1 = spell' row)
    (stored : Option ν) :
    lastOf (spell row) (entries.map fun entry => (spell entry.1, entry.2)) stored =
      lastOf (spell' row) (entries.map fun entry => (spell' entry.1, entry.2)) stored := by
  induction entries generalizing stored with
  | nil => rfl
  | cons entry rest inductionHypothesis =>
    obtain ⟨here, later⟩ := List.forall_mem_cons.mp alike
    rw [List.map_cons, List.map_cons, lastOf_cons, lastOf_cons, inductionHypothesis later]
    simp only [here]

/-- Set under either spelling, a value goes to the same place. -/
theorem put_spelled {entries : List (α × ν)} {row : α} (value : ν)
    (alike : ∀ entry ∈ entries, spell entry.1 = spell row ↔ spell' entry.1 = spell' row) :
    ∃ entries' : List (α × ν),
      (∀ entry ∈ entries', entry.1 = row ∨ ∃ old ∈ entries, entry.1 = old.1) ∧
      put (spell row) value (entries.map fun entry => (spell entry.1, entry.2)) =
        entries'.map (fun entry => (spell entry.1, entry.2)) ∧
      put (spell' row) value (entries.map fun entry => (spell' entry.1, entry.2)) =
        entries'.map fun entry => (spell' entry.1, entry.2) := by
  induction entries with
  | nil => exact ⟨[(row, value)], by simp, rfl, rfl⟩
  | cons entry rest inductionHypothesis =>
    obtain ⟨here, later⟩ := List.forall_mem_cons.mp alike
    by_cases same : spell entry.1 = spell row
    · have same' := here.mp same
      refine ⟨(row, value) :: rest, ?_, ?_, ?_⟩
      · intro other listed
        obtain rfl | old := List.mem_cons.mp listed
        · exact .inl rfl
        · exact .inr ⟨other, List.mem_cons_of_mem _ old, rfl⟩
      · simp [put, same]
      · simp [put, same']
    · have same' : ¬spell' entry.1 = spell' row := fun spelled => same (here.mpr spelled)
      obtain ⟨entries', known, put_eq, put_eq'⟩ := inductionHypothesis later
      refine ⟨entry :: entries', ?_, ?_, ?_⟩
      · intro other listed
        obtain rfl | old := List.mem_cons.mp listed
        · exact .inr ⟨other, List.mem_cons_self, rfl⟩
        · obtain mine | ⟨old, inside, named⟩ := known other old
          · exact .inl mine
          · exact .inr ⟨old, List.mem_cons_of_mem _ inside, named⟩
      · simp [put, same, put_eq]
      · simp [put, same', put_eq']

/-- Which entries are merged depends on which keys are the same, not on how they are spelled. -/
theorem merged_spelled {merge : α → α → α} {rows : List α}
    (alike : ∀ row ∈ rows, ∀ other ∈ rows, spell row = spell other ↔ spell' row = spell' other) :
    (merged merge (rows.map fun row => (spell row, row))).map Prod.snd =
      (merged merge (rows.map fun row => (spell' row, row))).map Prod.snd := by
  -- an entry is the row that brought its key, and its value
  have paired : ∀ (later : List α) (entries : List (α × α)), (∀ row ∈ later, row ∈ rows) →
      (∀ entry ∈ entries, entry.1 ∈ rows) →
      ((later.map fun row => (spell row, row)).foldl (putMerged merge)
          (entries.map fun entry => (spell entry.1, entry.2))).map Prod.snd =
        ((later.map fun row => (spell' row, row)).foldl (putMerged merge)
          (entries.map fun entry => (spell' entry.1, entry.2))).map Prod.snd := by
    intro later
    induction later with
    | nil =>
      intro entries _ _
      simp
    | cons row rest inductionHypothesis =>
      intro entries listed known
      obtain ⟨here, others⟩ := List.forall_mem_cons.mp listed
      have alike' : ∀ entry ∈ entries, spell entry.1 = spell row ↔ spell' entry.1 = spell' row :=
        fun entry member => alike entry.1 (known entry member) row here
      have seen := lastOf_spelled alike' none
      obtain ⟨entries', kept, first, second⟩ := put_spelled
        (((lastOf (spell' row) (entries.map fun entry => (spell' entry.1, entry.2)) none).map
          fun seen => merge seen row).getD row) alike'
      have known' : ∀ entry ∈ entries', entry.1 ∈ rows := by
        intro entry member
        obtain mine | ⟨old, inside, named⟩ := kept entry member
        · exact mine ▸ here
        · exact named ▸ known old inside
      have step := inductionHypothesis entries' others known'
      rw [← first, ← second, ← seen] at step
      rw [List.map_cons, List.foldl_cons, List.map_cons, List.foldl_cons]
      unfold putMerged at step ⊢
      rw [← seen]
      exact step
  exact paired rows [] (fun _ listed => listed) (by simp)

/-- Where the new row takes the place of the old one, the last row of each key is left. -/
theorem merged_last (rows : List (κ × ν)) : merged (fun _ new => new) rows = latest rows := by
  have same : putMerged (fun _ new => new) =
      fun (entries : List (κ × ν)) (row : κ × ν) => put row.1 row.2 entries := by
    funext entries row
    unfold putMerged
    cases lastOf row.1 entries none <;> rfl
  unfold merged latest putAll
  rw [same]

/-- Which rows are left depends on which keys are the same, not on how they are spelled. -/
theorem latest_spelled {rows : List α}
    (alike : ∀ row ∈ rows, ∀ other ∈ rows, spell row = spell other ↔ spell' row = spell' other) :
    (latest (rows.map fun row => (spell row, row))).map Prod.snd =
      (latest (rows.map fun row => (spell' row, row))).map Prod.snd := by
  rw [← merged_last, ← merged_last]
  exact merged_spelled alike

end Renaming

section Spreading

variable {τ : Type w} {β : Type x} [DecidableEq τ] {content : ν → List (τ × β)}

/-- The fields of each row, as rows of their own. -/
def spreadRows (content : ν → List (τ × β)) (rows : List (κ × ν)) : List ((κ × τ) × β) :=
  rows.flatMap fun row => (content row.2).map fun field => ((row.1, field.1), field.2)

/-- A field of a key, looked up among all rows. -/
theorem lastOf_spreadRows (rows : List (κ × ν)) (key : κ) (field : τ) (stored : Option β) :
    lastOf (key, field) (spreadRows content rows) stored =
      rows.foldl (fun held row => if row.1 = key then lastOf field (content row.2) held else held)
        stored := by
  induction rows generalizing stored with
  | nil => rfl
  | cons row rest inductionHypothesis =>
    have first : lastOf (key, field)
        ((content row.2).map fun field => ((row.1, field.1), field.2)) stored =
        if row.1 = key then lastOf field (content row.2) stored else stored := by
      by_cases same : row.1 = key
      · subst same
        have apart : Function.Injective fun field : τ => (row.1, field) :=
          fun _ _ equal => (Prod.mk.inj equal).2
        have mapped := lastOf_map apart (fun value : β => value) field (content row.2) stored
        rw [if_pos rfl]
        simpa using mapped
      · rw [if_neg same]
        refine lastOf_absent (fun other listed equal => same ?_) stored
        obtain ⟨entry, _, rfl⟩ := List.mem_map.mp listed
        exact (Prod.mk.inj equal).1
    have rows : spreadRows content (row :: rest) =
        ((content row.2).map fun field => ((row.1, field.1), field.2)) ++
          spreadRows content rest := List.flatMap_cons
    rw [rows, lastOf_append, inductionHypothesis, first]
    rfl

/-- With one row for each key, a field is that of its row. -/
theorem lastOf_spreadRows_distinct {rows : List (κ × ν)} (distinct : (rows.map Prod.fst).Nodup)
    (key : κ) (field : τ) :
    lastOf (key, field) (spreadRows content rows) none =
      (lastOf key rows none).bind fun value => lastOf field (content value) none := by
  rw [lastOf_spreadRows]
  have held : ∀ (rows : List (κ × ν)) (stored : Option β), (rows.map Prod.fst).Nodup →
      rows.foldl (fun held row => if row.1 = key then lastOf field (content row.2) held else held)
        stored =
        ((lastOf key rows none).map fun value => lastOf field (content value) stored).getD
          stored := by
    intro rows
    induction rows with
    | nil => exact fun _ _ => rfl
    | cons row rest inductionHypothesis =>
      intro stored unique
      obtain ⟨fresh, later⟩ := List.nodup_cons.mp unique
      rw [List.foldl_cons, inductionHypothesis _ later, lastOf_cons]
      by_cases same : row.1 = key
      · subst same
        have absent : ∀ other ∈ rest, other.1 ≠ row.1 := fun other listed equal =>
          fresh (equal ▸ List.mem_map.mpr ⟨other, listed, rfl⟩)
        rw [lastOf_absent absent, if_pos rfl, if_pos rfl, lastOf_absent absent]
        rfl
      · rw [if_neg same, if_neg same]
  rw [held rows none distinct]
  cases lastOf key rows none <;> rfl

/-- Merged or not, the rows have the same fields, where a merge spreads the new fields over the old
ones. -/
theorem lastOf_spreadRows_merged (content : ν → List (τ × β)) (merge : ν → ν → ν)
    (spread : ∀ old new field, lastOf field (content (merge old new)) none =
      lastOf field (content new) (lastOf field (content old) none))
    (rows : List (κ × ν)) (key : κ) (field : τ) :
    lastOf (key, field) (spreadRows content (merged merge rows)) none =
      lastOf (key, field) (spreadRows content rows) none := by
  rw [lastOf_spreadRows_distinct (merged_distinct merge rows), lastOf_merged, lastOf_spreadRows]
  have held : ∀ (rows : List (κ × ν)) (table : Table κ ν),
      ((rows.foldl (place merge) table key).bind fun value => lastOf field (content value) none) =
        rows.foldl (fun held row => if row.1 = key then lastOf field (content row.2) held else held)
          ((table key).bind fun value => lastOf field (content value) none) := by
    intro rows
    induction rows with
    | nil => exact fun _ => rfl
    | cons row rest inductionHypothesis =>
      intro table
      rw [List.foldl_cons, List.foldl_cons, inductionHypothesis]
      congr 1
      unfold place
      split
      next =>
        cases table key with
        | none => rfl
        | some old => exact spread old row.2 field
      next => rfl
  exact held rows fun _ => none

omit [DecidableEq κ] [DecidableEq τ] in
/-- With one row for each key, and each field once in it, the fields are told apart. -/
theorem spreadRows_distinct {rows : List (κ × ν)} (distinct : (rows.map Prod.fst).Nodup)
    (each : ∀ row ∈ rows, ((content row.2).map Prod.fst).Nodup) :
    ((spreadRows content rows).map Prod.fst).Nodup := by
  induction rows with
  | nil => exact List.nodup_nil
  | cons row rest inductionHypothesis =>
    obtain ⟨fresh, later⟩ := List.nodup_cons.mp distinct
    obtain ⟨here, others⟩ := List.forall_mem_cons.mp each
    have rows : spreadRows content (row :: rest) =
        ((content row.2).map fun field => ((row.1, field.1), field.2)) ++
          spreadRows content rest := List.flatMap_cons
    rw [rows, List.map_append]
    apply List.Nodup.append
    · have keys := here.map (f := fun field => (row.1, field)) fun _ _ equal =>
        (Prod.mk.inj equal).2
      rw [List.map_map] at keys ⊢
      exact keys
    · exact inductionHypothesis later others
    · intro key first second
      obtain ⟨entry, listed, rfl⟩ := List.mem_map.mp first
      obtain ⟨mine, _, rfl⟩ := List.mem_map.mp listed
      obtain ⟨entry', listed', same⟩ := List.mem_map.mp second
      obtain ⟨other, inside, spreadHere⟩ := List.mem_flatMap.mp listed'
      obtain ⟨theirs, _, rfl⟩ := List.mem_map.mp spreadHere
      exact fresh ((Prod.mk.inj same).1 ▸ List.mem_map.mpr ⟨other, inside, rfl⟩)

end Spreading

end Merging

end Notifkit.Upserts
