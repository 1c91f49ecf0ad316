import Mathlib.Algebra.BigOperators.Group.List.Basic
import Mathlib.Algebra.Order.Group.Multiset
import Notifkit.Foundations.Tables

/-!
# Lookups gathered into batches

Lookups wait together until there are so many of them, or until a timer fires. The batch is then
taken as a whole and filed by groups, and its groups are answered one after the other. Other batches
may be under way meanwhile.

Whatever the timing, a lookup is at one place until it is answered, it is answered with its own
group, and as long as one waits there is a turn to take.
-/

namespace Notifkit.BatchLoaders

universe u v w
variable {π : Type u} {κ : Type v} {τ : Type w}

/-- A lookup of some keys of a group. The ticket says who waits for it. -/
structure Lookup (π : Type u) (κ : Type v) (τ : Type w) where
  group : π
  keys : List κ
  ticket : τ

/-- Lookups of one group. -/
structure Filed (π : Type u) (κ : Type v) (τ : Type w) where
  group : π
  lookups : List (Lookup π κ τ)
  own : ∀ lookup ∈ lookups, lookup.group = group

namespace Filed

/-- The first lookup of a group. -/
def one (lookup : Lookup π κ τ) : Filed π κ τ where
  group := lookup.group
  lookups := [lookup]
  own := by
    intro other listed
    rw [List.mem_singleton.mp listed]

/-- One more lookup of a group. -/
def add (filed : Filed π κ τ) (lookup : Lookup π κ τ) (same : lookup.group = filed.group) :
    Filed π κ τ where
  group := filed.group
  lookups := filed.lookups ++ [lookup]
  own := Tables.all_append filed.own same

/-- What is asked for a group, each key once. -/
def keys [DecidableEq κ] (filed : Filed π κ τ) : List κ :=
  (filed.lookups.flatMap Lookup.keys).eraseDups

/-- Each key of a lookup is asked for. -/
theorem mem_keys [DecidableEq κ] (filed : Filed π κ τ) {lookup : Lookup π κ τ} {key : κ}
    (listed : lookup ∈ filed.lookups) (asked : key ∈ lookup.keys) : key ∈ filed.keys :=
  List.mem_eraseDups.mpr (List.mem_flatMap.mpr ⟨lookup, listed, asked⟩)

end Filed

section Filing

variable [DecidableEq π]

/-- File a lookup under its group. -/
def file : List (Filed π κ τ) → Lookup π κ τ → List (Filed π κ τ)
  | [], lookup => [.one lookup]
  | filed :: rest, lookup =>
    if same : lookup.group = filed.group then filed.add lookup same :: rest
    else filed :: file rest lookup

/-- A batch by its groups, in the order of their first lookups. -/
def byGroup (batch : List (Lookup π κ τ)) : List (Filed π κ τ) := batch.foldl file []

/-- Filing adds the lookup and nothing else. -/
theorem file_perm (groups : List (Filed π κ τ)) (lookup : Lookup π κ τ) :
    ((file groups lookup).flatMap Filed.lookups).Perm
      (groups.flatMap Filed.lookups ++ [lookup]) := by
  induction groups with
  | nil => exact List.Perm.refl _
  | cons filed rest inductionHypothesis =>
    by_cases same : lookup.group = filed.group
    · rw [file, dif_pos same, List.flatMap_cons, List.flatMap_cons, Filed.add, List.append_assoc,
        List.append_assoc]
      exact List.perm_append_comm.append_left _
    · rw [file, dif_neg same, List.flatMap_cons, List.flatMap_cons, List.append_assoc]
      exact inductionHypothesis.append_left _

/-- Filing begins one group at most. -/
theorem length_file (groups : List (Filed π κ τ)) (lookup : Lookup π κ τ) :
    (file groups lookup).length ≤ groups.length + 1 := by
  induction groups with
  | nil => exact Nat.le_refl _
  | cons filed rest inductionHypothesis =>
    by_cases same : lookup.group = filed.group
    · rw [file, dif_pos same]
      exact Nat.le_succ _
    · rw [file, dif_neg same]
      exact Nat.succ_le_succ inductionHypothesis

/-- The lookups of a batch are those of its groups. -/
theorem byGroup_perm (batch : List (Lookup π κ τ)) :
    ((byGroup batch).flatMap Filed.lookups).Perm batch := by
  have filed : ∀ groups : List (Filed π κ τ),
      ((batch.foldl file groups).flatMap Filed.lookups).Perm
        (groups.flatMap Filed.lookups ++ batch) := by
    induction batch with
    | nil =>
      intro groups
      rw [List.append_nil]
      exact List.Perm.refl _
    | cons lookup rest inductionHypothesis =>
      intro groups
      apply (inductionHypothesis (file groups lookup)).trans
      rw [List.append_cons]
      exact (file_perm groups lookup).append_right rest
  exact filed []

/-- A batch has no more groups than lookups. -/
theorem length_byGroup (batch : List (Lookup π κ τ)) : (byGroup batch).length ≤ batch.length := by
  have filed : ∀ groups : List (Filed π κ τ),
      (batch.foldl file groups).length ≤ groups.length + batch.length := by
    induction batch with
    | nil => exact fun groups => Nat.le_refl _
    | cons lookup rest inductionHypothesis =>
      intro groups
      have whole := inductionHypothesis (file groups lookup)
      have first := length_file groups lookup
      rw [List.length_cons]
      apply Nat.le_trans whole
      omega
  have none := filed []
  rwa [List.length_nil, Nat.zero_add] at none

end Filing

/-- Lookups that wait, those under way, and the timer. While some wait, it is set. -/
structure Loader (π : Type u) (κ : Type v) (τ : Type w) where
  batch : List (Lookup π κ τ)
  timer : Bool
  /-- for each batch under way the groups that were not answered -/
  flights : List (List (Filed π κ τ))
  timed : batch ≠ [] → timer = true

namespace Loader

/-- Nothing was asked yet. -/
def empty : Loader π κ τ where
  batch := []
  timer := false
  flights := []
  timed := fun waiting => absurd rfl waiting

section Turns

variable [DecidableEq π]

/-- Take the batch. -/
def fire (loader : Loader π κ τ) : Loader π κ τ where
  batch := []
  timer := false
  flights := loader.flights ++ [byGroup loader.batch]
  timed := fun waiting => absurd rfl waiting

/-- One more lookup waits. -/
def wait (loader : Loader π κ τ) (lookup : Lookup π κ τ) : Loader π κ τ where
  batch := loader.batch ++ [lookup]
  timer := true
  flights := loader.flights
  timed := fun _ => rfl

/-- A lookup is asked for. The batch is taken where that makes it large enough. -/
def load (limit : Nat) (loader : Loader π κ τ) (lookup : Lookup π κ τ) : Loader π κ τ :=
  if limit ≤ (loader.wait lookup).batch.length then (loader.wait lookup).fire
  else loader.wait lookup

/-- Lookups one after the other. -/
def loadAll (limit : Nat) (loader : Loader π κ τ) (lookups : List (Lookup π κ τ)) :
    Loader π κ τ :=
  lookups.foldl (load limit) loader

/-- Answer the next group of a batch under way. -/
def answer (loader : Loader π κ τ) (flight : Nat) : Option (Filed π κ τ × Loader π κ τ) :=
  match loader.flights[flight]? with
  | some (filed :: rest) => some (filed, { loader with flights := loader.flights.set flight rest })
  | _ => none

end Turns

/-- The lookups that were not answered. -/
def pending (loader : Loader π κ τ) : List (Lookup π κ τ) :=
  loader.batch ++ loader.flights.flatMap fun flight => flight.flatMap Filed.lookups

/-- How many turns are left at most. -/
def work (loader : Loader π κ τ) : Nat :=
  2 * loader.batch.length + (loader.flights.map List.length).sum

section Answers

variable {flight : Nat} {loader after : Loader π κ τ} {filed : Filed π κ τ}

theorem answer_eq_some (answered : loader.answer flight = some (filed, after)) :
    ∃ rest, loader.flights[flight]? = some (filed :: rest) ∧
      after = { loader with flights := loader.flights.set flight rest } := by
  unfold answer at answered
  split at answered
  next first rest present =>
    cases answered
    exact ⟨rest, present, rfl⟩
  next => cases answered

/-- An answered group is no longer pending, the other lookups are. -/
theorem pending_answer (answered : loader.answer flight = some (filed, after)) :
    loader.pending.Perm (filed.lookups ++ after.pending) := by
  obtain ⟨rest, present, rfl⟩ := answer_eq_some answered
  obtain ⟨inside, found⟩ := List.getElem?_eq_some_iff.mp present
  have before := List.take_append_drop flight loader.flights
  rw [List.drop_eq_getElem_cons inside, found] at before
  have flown : (loader.flights.flatMap fun flight => flight.flatMap Filed.lookups).Perm
      (filed.lookups ++ (loader.flights.set flight rest).flatMap fun flight =>
        flight.flatMap Filed.lookups) := by
    rw [List.set_eq_take_append_cons_drop, if_pos inside]
    conv_lhs => rw [← before]
    simp only [List.flatMap_append, List.flatMap_cons, List.append_assoc]
    exact List.perm_append_comm_assoc _ _ _
  exact (flown.append_left loader.batch).trans (List.perm_append_comm_assoc _ _ _)

/-- An answer is a turn. -/
theorem work_answer (answered : loader.answer flight = some (filed, after)) :
    after.work < loader.work := by
  obtain ⟨rest, present, rfl⟩ := answer_eq_some answered
  have sums : ((loader.flights.set flight rest).map List.length).sum + (filed :: rest).length =
      (loader.flights.map List.length).sum + rest.length := Tables.sum_set present
  unfold work
  dsimp only
  rw [List.length_cons] at sums
  omega

/-- Where a lookup is pending, a timer can fire or a group can be answered. -/
theorem exists_turn (waiting : loader.pending ≠ []) :
    loader.timer = true ∧ loader.batch ≠ [] ∨
      ∃ flight filed after, loader.answer flight = some (filed, after) := by
  by_cases batch : loader.batch = []
  · right
    unfold pending at waiting
    rw [batch, List.nil_append] at waiting
    obtain ⟨lookup, isPending⟩ := List.exists_mem_of_ne_nil _ waiting
    obtain ⟨flight, underWay, inFlight⟩ := List.mem_flatMap.mp isPending
    obtain ⟨place, present⟩ := List.mem_iff_getElem?.mp underWay
    cases flight with
    | nil => cases inFlight
    | cons filed rest =>
      refine ⟨place, filed, { loader with flights := loader.flights.set place rest }, ?_⟩
      unfold answer
      rw [present]
  · exact .inl ⟨loader.timed batch, batch⟩

end Answers

section Loads

variable [DecidableEq π] {loader : Loader π κ τ}

/-- Taking the batch leaves every lookup pending. -/
theorem pending_fire (loader : Loader π κ τ) : loader.fire.pending.Perm loader.pending := by
  unfold pending fire
  rw [List.nil_append, List.flatMap_append, List.flatMap_singleton]
  exact ((byGroup_perm loader.batch).append_left _).trans List.perm_append_comm

/-- A lookup is pending from then on. -/
theorem pending_load (limit : Nat) (loader : Loader π κ τ) (lookup : Lookup π κ τ) :
    (loader.load limit lookup).pending.Perm (lookup :: loader.pending) := by
  have added : (loader.wait lookup).pending.Perm (lookup :: loader.pending) := by
    unfold pending wait
    rw [List.append_assoc]
    exact List.perm_middle
  unfold load
  split
  · exact (pending_fire _).trans added
  · exact added

theorem pending_loadAll (limit : Nat) (loader : Loader π κ τ) (lookups : List (Lookup π κ τ)) :
    (loader.loadAll limit lookups).pending.Perm (lookups ++ loader.pending) := by
  induction lookups generalizing loader with
  | nil => exact List.Perm.refl _
  | cons lookup rest inductionHypothesis =>
    apply (inductionHypothesis (loader.load limit lookup)).trans
    apply ((pending_load limit loader lookup).append_left rest).trans
    exact List.perm_middle

/-- Taking a batch leaves less to do. -/
theorem work_fire (waiting : loader.batch ≠ []) : loader.fire.work < loader.work := by
  have some : 0 < loader.batch.length := List.length_pos_of_ne_nil waiting
  have groups := length_byGroup loader.batch
  unfold work fire
  rw [List.map_append, List.sum_append, List.map_singleton, List.sum_singleton, List.length_nil]
  omega

/-- A lookup makes two turns at most. -/
theorem work_load (limit : Nat) (loader : Loader π κ τ) (lookup : Lookup π κ τ) :
    (loader.load limit lookup).work ≤ loader.work + 2 := by
  have more : (loader.wait lookup).work = loader.work + 2 := by
    unfold work wait
    dsimp only
    rw [List.length_append, List.length_singleton]
    omega
  have waiting : (loader.wait lookup).batch ≠ [] :=
    List.append_ne_nil_of_right_ne_nil _ (List.cons_ne_nil _ _)
  have fired := work_fire waiting
  unfold load
  split
  · omega
  · exact Nat.le_of_eq more

theorem work_loadAll (limit : Nat) (loader : Loader π κ τ) (lookups : List (Lookup π κ τ)) :
    (loader.loadAll limit lookups).work ≤ loader.work + 2 * lookups.length := by
  induction lookups generalizing loader with
  | nil => exact Nat.le_refl _
  | cons lookup rest inductionHypothesis =>
    have whole := inductionHypothesis (loader.load limit lookup)
    have first := work_load limit loader lookup
    rw [List.length_cons]
    apply Nat.le_trans whole
    omega

end Loads

end Loader

/-!
## Who waits for what

Parties stand in a table, and each waits for some lookups. A party that changes changes what is waited
for by its own share.
-/

section Parties

variable {α : Type u} {β : Type v}

/-- What is waited for by all. -/
def waited (waits : Nat → α → Multiset β) (parties : List α) : Multiset β :=
  (parties.mapIdx waits).sum

variable {waits : Nat → α → Multiset β} {parties : List α} {position : Nat} {old new : α}

theorem waited_nil : waited waits [] = 0 := rfl

theorem waited_cons (party : α) (rest : List α) : waited waits (party :: rest) =
    waits 0 party + waited (fun position => waits (position + 1)) rest := by
  unfold waited
  rw [List.mapIdx_cons, List.sum_cons]

/-- A newcomer adds its share. -/
theorem waited_append (party : α) :
    waited waits (parties ++ [party]) = waited waits parties + waits parties.length party := by
  unfold waited
  rw [List.mapIdx_append, List.sum_append, List.mapIdx_singleton, List.sum_singleton,
    Nat.zero_add]

/-- A party that changes. -/
theorem waited_set (present : parties[position]? = some old) :
    waited waits (parties.set position new) + waits position old =
      waited waits parties + waits position new := by
  induction parties generalizing position waits with
  | nil => cases present
  | cons head rest inductionHypothesis =>
    cases position with
    | zero =>
      obtain rfl : head = old := Option.some.inj present
      rw [List.set_cons_zero, waited_cons, waited_cons]
      rw [add_comm, add_comm (waits 0 new), add_assoc]
    | succ position =>
      have shared : waited (fun place => waits (place + 1)) (rest.set position new) +
          waits (position + 1) old = _ := inductionHypothesis present
      rw [List.set_cons_succ, waited_cons, waited_cons, add_assoc, shared, add_assoc]

/-- What is waited for, someone waits for. -/
theorem mem_waited {lookup : β} : lookup ∈ waited waits parties ↔
    ∃ position party, parties[position]? = some party ∧ lookup ∈ waits position party := by
  induction parties generalizing waits with
  | nil => simp [waited_nil]
  | cons head rest inductionHypothesis =>
    rw [waited_cons, Multiset.mem_add, inductionHypothesis]
    constructor
    · rintro (here | ⟨position, party, present, waiting⟩)
      · exact ⟨0, head, rfl, here⟩
      · exact ⟨position + 1, party, present, waiting⟩
    · rintro ⟨position, party, present, waiting⟩
      cases position with
      | zero =>
        obtain rfl : head = party := Option.some.inj present
        exact .inl waiting
      | succ position => exact .inr ⟨position, party, present, waiting⟩

/-- Parties that begin to wait for one lookup each. -/
theorem waited_map {γ : Type w} (items : List γ) (begun : γ → α) (lookups : Nat → γ → β)
    (one : ∀ position item, waits position (begun item) = {lookups position item}) :
    waited waits (items.map begun) = (items.mapIdx lookups : Multiset β) := by
  induction items generalizing waits lookups with
  | nil => rfl
  | cons item rest inductionHypothesis =>
    rw [List.map_cons, waited_cons, one, List.mapIdx_cons, ← Multiset.cons_coe,
      inductionHypothesis (fun position => lookups (position + 1)) fun position => one (position + 1)]
    rfl

end Parties

end Notifkit.BatchLoaders
