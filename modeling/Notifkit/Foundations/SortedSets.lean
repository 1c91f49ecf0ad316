import Mathlib.Data.List.Sort
import Mathlib.Data.Prod.Lex

/-!
# Sets kept in the order of a score

Each member has one score. Reading a range of scores gives the members in the order of their scores,
those of one score in their own order. Adding a member that is there already changes its score.

Taking the first members of a range and moving them behind it leaves exactly the others of the
range, so that a range is taken to its end in as many rounds as it has members for.
-/

namespace Notifkit

universe u v

/-- A sorted set: members with scores, each member once. -/
structure SortedSet (κ : Type u) (σ : Type v) where
  entries : List (κ × σ)
  distinct : (entries.map Prod.fst).Nodup

namespace SortedSet

variable {κ : Type u} {σ : Type v} [LinearOrder κ] [LinearOrder σ]

/-- The order entries are read in. -/
def Before (first second : κ × σ) : Prop :=
  toLex (first.2, first.1) ≤ toLex (second.2, second.1)

instance : DecidableRel (Before (κ := κ) (σ := σ)) :=
  fun _ _ => inferInstanceAs (Decidable (_ ≤ _))

instance : Std.Total (Before (κ := κ) (σ := σ)) := ⟨fun _ _ => le_total _ _⟩

instance : IsTrans (κ × σ) Before := ⟨fun _ _ _ => le_trans⟩

/-- What is read earlier has no higher score. -/
theorem Before.score {first second : κ × σ} (before : Before first second) :
    first.2 ≤ second.2 := by
  rcases Prod.Lex.le_iff.mp before with lower | ⟨same, _⟩
  · exact le_of_lt lower
  · exact le_of_eq same

variable (set : SortedSet κ σ)

/-- `ZSCORE` -/
def score (member : κ) : Option σ :=
  (set.entries.find? fun entry => entry.1 = member).map Prod.snd

/-- The entries with a score in a range. -/
def between (low high : σ) : List (κ × σ) :=
  set.entries.filter fun entry => low ≤ entry.2 ∧ entry.2 ≤ high

/-- The first entries of a range, in order. -/
def first (low high : σ) (limit : Nat) : List (κ × σ) :=
  ((set.between low high).insertionSort Before).take limit

/-- `ZRANGE key low high BYSCORE LIMIT 0 limit` -/
def zrange (low high : σ) (limit : Nat) : List κ := (set.first low high limit).map Prod.fst

/-- The entries with another score for a member that is there. -/
def replaced (score : σ) (member : κ) : List (κ × σ) :=
  set.entries.map fun entry => if entry.1 = member then (member, score) else entry

theorem replaced_keys (score : σ) (member : κ) :
    (set.replaced score member).map Prod.fst = set.entries.map Prod.fst := by
  unfold replaced
  rw [List.map_map]
  apply List.map_congr_left
  intro entry _
  by_cases same : entry.1 = member
  · simp [same]
  · simp [same]

/-- `ZADD` -/
def zadd (score : σ) (member : κ) : SortedSet κ σ :=
  if present : member ∈ set.entries.map Prod.fst then
    { entries := set.replaced score member
      distinct := by
        rw [set.replaced_keys]
        exact set.distinct }
  else
    { entries := set.entries ++ [(member, score)]
      distinct := by
        rw [List.map_append, List.nodup_append]
        refine ⟨set.distinct, List.nodup_singleton _, ?_⟩
        intro one listed other added
        rw [List.map_cons, List.map_nil, List.mem_singleton] at added
        rintro rfl
        rw [added] at listed
        exact present listed }

/-- Each of some members is added with one score. -/
def rescore (members : List κ) (score : σ) : SortedSet κ σ :=
  members.foldl (fun set member => set.zadd score member) set

variable {set} {low high score : σ} {limit : Nat} {members : List κ} {entry : κ × σ}

/-- Members that are there keep their places under the new score. -/
theorem rescore_entries (present : ∀ member ∈ members, member ∈ set.entries.map Prod.fst) :
    (set.rescore members score).entries =
      set.entries.map fun entry => if entry.1 ∈ members then (entry.1, score) else entry := by
  induction members generalizing set with
  | nil => simp [rescore]
  | cons member rest inductionHypothesis =>
    have added : (set.zadd score member).entries = set.replaced score member := by
      unfold zadd
      rw [dif_pos (present member List.mem_cons_self)]
    have later : ∀ other ∈ rest, other ∈ (set.zadd score member).entries.map Prod.fst := by
      intro other listed
      rw [added, set.replaced_keys]
      exact present other (List.mem_cons_of_mem _ listed)
    unfold rescore
    rw [List.foldl_cons]
    refine (inductionHypothesis later).trans ?_
    rw [added, replaced, List.map_map]
    apply List.map_congr_left
    intro entry _
    by_cases same : entry.1 = member
    · by_cases again : member ∈ rest <;> simp [same, again]
    · simp [same]

/-- A set's entries are told apart by their members. -/
theorem entry_eq {other : κ × σ} (listed : entry ∈ set.entries) (listed' : other ∈ set.entries)
    (same : entry.1 = other.1) : entry = other :=
  List.inj_on_of_nodup_map set.distinct listed listed' same

/-- A member's score is the one of its entry. -/
theorem score_eq_some {member : κ} : set.score member = some score ↔
    (member, score) ∈ set.entries := by
  unfold SortedSet.score
  rw [Option.map_eq_some_iff]
  constructor
  · rintro ⟨entry, found, rfl⟩
    have same := List.find?_some found
    rw [decide_eq_true_iff] at same
    rw [← same]
    exact List.mem_of_find?_eq_some found
  · intro listed
    cases found : set.entries.find? fun entry => entry.1 = member with
    | none => simpa using List.find?_eq_none.mp found (member, score) listed
    | some entry =>
      have same := List.find?_some found
      rw [decide_eq_true_iff] at same
      refine ⟨entry, rfl, ?_⟩
      rw [entry_eq (List.mem_of_find?_eq_some found) listed same]

/-- Members that are there have the new score afterwards, the others the one they had. -/
theorem rescore_score (present : ∀ member ∈ members, member ∈ set.entries.map Prod.fst)
    (member : κ) : (set.rescore members score).score member =
      if member ∈ members then some score else set.score member := by
  by_cases moved : member ∈ members
  · rw [if_pos moved, score_eq_some, rescore_entries present]
    obtain ⟨entry, listed, rfl⟩ := List.mem_map.mp (present member moved)
    exact List.mem_map.mpr ⟨entry, listed, if_pos moved⟩
  · rw [if_neg moved]
    apply Option.ext
    intro other
    rw [score_eq_some, score_eq_some, rescore_entries present]
    constructor
    · intro listed
      obtain ⟨entry, listed, same⟩ := List.mem_map.mp listed
      split at same
      next read =>
        rw [(Prod.mk.inj same).1] at read
        exact absurd read moved
      next => rwa [← same]
    · exact fun listed => List.mem_map.mpr ⟨_, listed, if_neg moved⟩

theorem mem_between : entry ∈ set.between low high ↔
    entry ∈ set.entries ∧ low ≤ entry.2 ∧ entry.2 ≤ high := by
  unfold between
  rw [List.mem_filter, decide_eq_true_iff]

/-- What is read first is in the range. -/
theorem mem_between_of_mem_first (listed : entry ∈ set.first low high limit) :
    entry ∈ set.between low high :=
  (List.mem_insertionSort Before).mp (List.mem_of_mem_take listed)

/-- The first entries are in order. -/
theorem first_ordered (set : SortedSet κ σ) (low high : σ) (limit : Nat) :
    (set.first low high limit).Pairwise Before :=
  (List.pairwise_insertionSort Before _).sublist (List.take_sublist _ _)

/-- Members that are read have their places. -/
theorem zrange_present : ∀ member ∈ set.zrange low high limit,
    member ∈ set.entries.map Prod.fst := by
  intro member listed
  obtain ⟨entry, read, rfl⟩ := List.mem_map.mp listed
  exact List.mem_map_of_mem (mem_between.mp (mem_between_of_mem_first read)).1

/-- Each member is read once. -/
theorem zrange_nodup (set : SortedSet κ σ) (low high : σ) (limit : Nat) :
    (set.zrange low high limit).Nodup := by
  have sorted : (((set.between low high).insertionSort Before).map Prod.fst).Nodup := by
    rw [((List.perm_insertionSort Before _).map Prod.fst).nodup_iff]
    exact set.distinct.sublist (List.filter_sublist.map Prod.fst)
  exact sorted.sublist ((List.take_sublist _ _).map Prod.fst)

theorem zrange_length_le (set : SortedSet κ σ) (low high : σ) (limit : Nat) :
    (set.zrange low high limit).length ≤ limit := by
  unfold zrange first
  rw [List.length_map]
  exact List.length_take_le _ _

/-- Behind the first entries of a range are the others. -/
theorem first_append (set : SortedSet κ σ) (low high : σ) (limit : Nat) :
    ∃ rest, (set.first low high limit ++ rest).Perm (set.between low high) ∧
      rest.length = (set.between low high).length - limit := by
  refine ⟨((set.between low high).insertionSort Before).drop limit, ?_, ?_⟩
  · unfold first
    rw [List.take_append_drop]
    exact List.perm_insertionSort Before _
  · rw [List.length_drop, List.length_insertionSort]

/-- A range is left by what is moved behind it. -/
theorem between_rescore (present : ∀ member ∈ members, member ∈ set.entries.map Prod.fst)
    (behind : high < score) :
    (set.rescore members score).between low high =
      (set.between low high).filter fun entry => entry.1 ∉ members := by
  unfold between
  rw [rescore_entries present]
  generalize set.entries = entries
  induction entries with
  | nil => rfl
  | cons entry rest inductionHypothesis =>
    rw [List.map_cons]
    by_cases moved : entry.1 ∈ members
    · have out : ¬(low ≤ score ∧ score ≤ high) := fun inside => not_le_of_gt behind inside.2
      rw [if_pos moved, List.filter_cons_of_neg (by simpa using out), inductionHypothesis,
        List.filter_cons]
      split
      · rw [List.filter_cons_of_neg (by simpa using moved)]
      · rfl
    · rw [if_neg moved, List.filter_cons, List.filter_cons, inductionHypothesis]
      split
      · rw [List.filter_cons_of_pos (by simpa using moved)]
      · rfl

/-- What is moved behind a range is what was read of it; the others stay. -/
theorem between_rescore_zrange (behind : high < score) :
    ∀ rest, (set.first low high limit ++ rest).Perm (set.between low high) →
      ((set.rescore (set.zrange low high limit) score).between low high).Perm rest := by
  intro rest parts
  rw [between_rescore zrange_present behind]
  have distinct : ((set.first low high limit ++ rest).map Prod.fst).Nodup := by
    rw [(parts.map Prod.fst).nodup_iff]
    exact set.distinct.sublist (List.filter_sublist.map Prod.fst)
  rw [List.map_append, List.nodup_append] at distinct
  refine (parts.symm.filter _).trans ?_
  rw [List.filter_append]
  have gone : (set.first low high limit).filter
      (fun entry => entry.1 ∉ set.zrange low high limit) = [] := by
    rw [List.filter_eq_nil_iff]
    intro entry listed
    rw [decide_eq_true_iff, not_not]
    exact List.mem_map_of_mem listed
  have kept : rest.filter (fun entry => entry.1 ∉ set.zrange low high limit) = rest := by
    rw [List.filter_eq_self]
    intro entry listed
    rw [decide_eq_true_iff]
    intro read
    exact distinct.2.2 entry.1 read entry.1 (List.mem_map_of_mem listed) rfl
  rw [gone, kept, List.nil_append]

/-- Moving the first entries of a range behind it leaves so many less. -/
theorem length_between_rescore (behind : high < score) :
    ((set.rescore (set.zrange low high limit) score).between low high).length =
      (set.between low high).length - limit := by
  obtain ⟨rest, parts, length⟩ := set.first_append low high limit
  rw [(between_rescore_zrange behind rest parts).length_eq, length]

/-- An entry of a range is read, or is still in the range when the ones that were read are moved
behind it. -/
theorem read_or_left (behind : high < score) (inside : entry ∈ set.between low high) :
    entry.1 ∈ set.zrange low high limit ∨
      entry ∈ (set.rescore (set.zrange low high limit) score).between low high := by
  by_cases read : entry.1 ∈ set.zrange low high limit
  · exact .inl read
  · right
    rw [between_rescore zrange_present behind, List.mem_filter]
    exact ⟨inside, by simpa using read⟩

end SortedSet

end Notifkit
