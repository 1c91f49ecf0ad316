import Notifkit.Foundations.Runs
import Notifkit.Foundations.Tables

/-!
# Pruning old delivery logs

Once an hour one of the schedulers deletes what is older than the retention from the delivery log
and from the outbox, one table after the other, in batches. A key in Redis that lasts an hour and is
never released says who does.

Rows are inserted at any time, of any age, while a prune goes on; a prune may fail at any time, and
may take longer than its hour, so that two of them go on side by side. A statement first picks some
of the rows that are old, at most a batch of them and as many as there are, and then deletes those
that are still there and that no other statement has written meanwhile. A statement that meets
another one so deletes fewer rows than it picked.
-/

namespace Notifkit.Scheduler.Retention

open Runs Tables

/-- `BATCH` -/
def BATCH : Nat := 5000

/-- The life of the key, in milliseconds. -/
def PRUNE_LOCK_MS : Nat := 3600 * 1000

def DAY_MS : Nat := 86_400_000

inductive TableName where
  | messageLogs | deliveryOutbox
deriving DecidableEq

/-- A row, known by the order in which rows were inserted, with its time. -/
structure Row where
  seq : Nat
  time : Int
deriving DecidableEq

/-- Where a prune is. -/
inductive Stage where
  | pruning (table : TableName)
  | over
  | failed
deriving DecidableEq

/-- A call of `pruneDeliveryLogs`. -/
structure Prune where
  startedAt : Nat
  retentionDays : Nat
  stage : Stage := .pruning .messageLogs
  /-- the rows its statement picked -/
  pending : Option (List Row) := none
  total : Nat := 0
  /-- how many rows its statements picked that it is through with -/
  picked : Nat := 0
  /-- statements so far -/
  statements : Nat := 0
  /-- the row that was inserted next when it began -/
  since : Nat
deriving DecidableEq

/-- `Date.now() - retentionDays * 86_400_000` -/
def Prune.cutoff (prune : Prune) : Int := (prune.startedAt : Int) - prune.retentionDays * DAY_MS

/-- The clock, the key, the tables and the prunes, which are named by their places. -/
structure World where
  now : Nat := 0
  lock : Option Nat := none
  rows : TableName → List Row := fun _ => []
  prunes : List Prune := []
  /-- the row that is inserted next -/
  next : Nat := 0
  /-- what was ever inserted -/
  inserted : List (TableName × Row) := []
  /-- what was deleted, and by which prune -/
  deleted : List (Nat × TableName × Row) := []

inductive Action where
  | tick (ms : Nat)
  | insert (table : TableName) (time : Int)
  /-- `maybePruneDeliveryLogs` -/
  | begin (retentionDays : Nat)
  /-- the next statement picks its rows -/
  | select (place : Nat) (picks : Row → Bool)
  /-- it deletes them, but for those that were written meanwhile -/
  | delete (place : Nat) (spares : Row → Bool)
  | fail (place : Nat)

/-- The rows older than a cutoff that a statement picks. -/
def victims (rows : List Row) (cutoff : Int) (picks : Row → Bool) : List Row :=
  rows.filter fun row => row.time < cutoff && picks row

def old (rows : List Row) (cutoff : Int) : List Row := rows.filter fun row => row.time < cutoff

/-- The stage after a statement that deleted so many rows. -/
def Stage.after (table : TableName) (count : Nat) : Stage :=
  if count < BATCH then
    match table with
    | .messageLogs => .pruning .deliveryOutbox
    | .deliveryOutbox => .over
  else .pruning table

def World.put (world : World) (place : Nat) (prune : Prune) : World :=
  { world with prunes := world.prunes.set place prune }

def step (world : World) : Action → Option World
  | .tick ms => some { world with now := world.now + ms }
  | .insert table time => some { world with
      rows := fun other =>
        if other = table then world.rows other ++ [⟨world.next, time⟩] else world.rows other
      next := world.next + 1
      inserted := world.inserted ++ [(table, ⟨world.next, time⟩)] }
  | .begin retentionDays =>
    -- `SET NX`: the key is there until its last instant
    if world.lock.any (world.now ≤ ·) then none
    else some { world with
      lock := some (world.now + PRUNE_LOCK_MS)
      prunes := world.prunes ++
        [{ startedAt := world.now, retentionDays := retentionDays, since := world.next }] }
  | .select place picks => do
    let prune ← world.prunes[place]?
    match prune.stage, prune.pending with
    | .pruning table, none =>
      let rows := victims (world.rows table) prune.cutoff picks
      if rows.length = min BATCH (old (world.rows table) prune.cutoff).length then
        some (world.put place { prune with pending := some rows })
      else none
    | _, _ => none
  | .delete place spares => do
    let prune ← world.prunes[place]?
    match prune.stage, prune.pending with
    | .pruning table, some rows =>
      let gone := rows.filter fun row => row ∈ world.rows table ∧ ¬ spares row
      some {
        world.put place { prune with
          stage := .after table gone.length
          pending := none
          total := prune.total + gone.length
          picked := prune.picked + rows.length
          statements := prune.statements + 1 } with
        rows := fun other =>
          if other = table then (world.rows other).filter (· ∉ gone) else world.rows other
        deleted := world.deleted ++ gone.map fun row => (place, table, row) }
    | _, _ => none
  | .fail place => do
    let prune ← world.prunes[place]?
    match prune.stage with
    | .pruning _ => some (world.put place { prune with stage := .failed, pending := none })
    | _ => none

/-- The tables a prune is through with. -/
def Stage.passed : Stage → TableName → Bool
  | .pruning .messageLogs, _ => false
  | .pruning .deliveryOutbox, .messageLogs => true
  | .pruning .deliveryOutbox, .deliveryOutbox => false
  | .over, _ => true
  | .failed, _ => false

/-- How many tables a prune is through with, as far as its statements go. -/
def Stage.rest : Stage → Nat
  | .pruning .messageLogs => 2
  | .pruning .deliveryOutbox => 1
  | .over => 0
  | .failed => 0

/-- What holds of each prune, given the rows that there are. -/
structure Prune.Orderly (rows : TableName → List Row) (prune : Prune) : Prop where
  fewer : prune.total ≤ prune.picked
  /-- a table it is through with has none of the old rows left that were there before it -/
  passed : prune.total = prune.picked → ∀ table, prune.stage.passed table = true →
    ∀ row ∈ rows table, row.time < prune.cutoff → prune.since ≤ row.seq
  /-- a statement that picked fewer rows than a batch picked all of them -/
  pending : ∀ picked, prune.pending = some picked →
    (∀ row ∈ picked, row.time < prune.cutoff) ∧
    (picked.length < BATCH → ∀ table, prune.stage = .pruning table →
      ∀ row ∈ rows table, row.time < prune.cutoff → row ∈ picked ∨ prune.since ≤ row.seq)
  batches : prune.statements * BATCH + prune.stage.rest * BATCH ≤ prune.total + 2 * BATCH

/-- What holds in every state of every run. -/
structure Sound (world : World) : Prop where
  begun : ∀ prune ∈ world.prunes, prune.since ≤ world.next ∧ prune.startedAt ≤ world.now ∧
    ∃ last, world.lock = some last ∧ prune.startedAt + PRUNE_LOCK_MS ≤ last
  apart : ∀ (one two : Nat) earlier later, one < two → world.prunes[one]? = some earlier →
    world.prunes[two]? = some later → earlier.startedAt + PRUNE_LOCK_MS < later.startedAt
  orderly : ∀ prune ∈ world.prunes, prune.Orderly world.rows
  counted : ∀ (place : Nat) prune, world.prunes[place]? = some prune →
    prune.total = world.deleted.countP fun gone => gone.1 = place
  aged : ∀ place table row, (place, table, row) ∈ world.deleted → ∃ prune,
    world.prunes[place]? = some prune ∧ row.time < prune.cutoff
  kept : ∀ table row, (table, row) ∈ world.inserted → row ∈ world.rows table ∨
    ∃ place, (place, table, row) ∈ world.deleted

section Steps

variable {world after : World} {place : Nat} {prune next : Prune}

/-- Rows go, and those that come are newer than the prune. -/
theorem Prune.Orderly.rows_change {rows others : TableName → List Row}
    (orderly : prune.Orderly rows)
    (come : ∀ table, ∀ row ∈ others table, row ∈ rows table ∨ prune.since ≤ row.seq) :
    prune.Orderly others where
  fewer := orderly.fewer
  passed whole table through row listed isOld := by
    rcases come table row listed with before | newer
    · exact orderly.passed whole table through row before isOld
    · exact newer
  pending picked pending := by
    refine ⟨(orderly.pending picked pending).1, fun few table stage row listed isOld => ?_⟩
    rcases come table row listed with before | newer
    · exact (orderly.pending picked pending).2 few table stage row before isOld
    · exact .inr newer
  batches := orderly.batches

/-- Replacing a prune by one that began alike keeps them apart. -/
theorem apart_set (sound : Sound world) (present : world.prunes[place]? = some prune)
    (same : next.startedAt = prune.startedAt) (one two : Nat) (earlier later : Prune)
    (before : one < two) (first : (world.prunes.set place next)[one]? = some earlier)
    (second : (world.prunes.set place next)[two]? = some later) :
    earlier.startedAt + PRUNE_LOCK_MS < later.startedAt := by
  have began : ∀ {at' : Nat} {row : Prune}, (world.prunes.set place next)[at']? = some row →
      ∃ old, world.prunes[at']? = some old ∧ old.startedAt = row.startedAt := by
    intro at' row found
    rcases (row_set present).mp found with ⟨rfl, rfl⟩ | ⟨_, found⟩
    · exact ⟨prune, present, same.symm⟩
    · exact ⟨row, found, rfl⟩
  obtain ⟨old, found, started⟩ := began first
  obtain ⟨old', found', started'⟩ := began second
  rw [← started, ← started']
  exact sound.apart one two old old' before found found'

/-- A row is inserted. -/
theorem Sound.insert (sound : Sound world) (table : TableName) (time : Int)
    (taken : step world (.insert table time) = some after) : Sound after := by
  obtain rfl := Option.some.inj taken
  have come : ∀ other, ∀ row ∈ (if other = table then
      world.rows other ++ [⟨world.next, time⟩] else world.rows other),
      row ∈ world.rows other ∨ row.seq = world.next := by
    intro other row member
    split at member
    · exact (List.mem_append.mp member).imp_right fun new => by
        rw [List.mem_singleton.mp new]
    · exact .inl member
  have grows : ∀ {other row}, row ∈ world.rows other → row ∈ (if other = table then
      world.rows other ++ [⟨world.next, time⟩] else world.rows other) := by
    intro other row member
    split
    · exact List.mem_append_left _ member
    · exact member
  exact {
    begun := fun prune member => by
      obtain ⟨since, rest⟩ := sound.begun prune member
      exact ⟨Nat.le_succ_of_le since, rest⟩
    apart := sound.apart
    orderly := fun prune member => (sound.orderly prune member).rows_change
      fun other row listed => (come other row listed).imp_right fun new =>
        Nat.le_trans (sound.begun prune member).1 (Nat.le_of_eq new.symm)
    counted := sound.counted
    aged := sound.aged
    kept := fun other row listed => by
      rcases List.mem_append.mp listed with before | new
      · exact (sound.kept other row before).imp_left grows
      · obtain ⟨rfl, rfl⟩ := Prod.mk.inj (List.mem_singleton.mp new)
        refine .inl ?_
        dsimp only
        rw [if_pos rfl]
        exact List.mem_append_right _ (List.mem_singleton.mpr rfl) }

/-- A prune that begins has neither picked nor deleted anything. -/
theorem orderly_begin (rows : TableName → List Row) (startedAt retentionDays since : Nat) :
    Prune.Orderly rows
      { startedAt := startedAt, retentionDays := retentionDays, since := since } where
  fewer := Nat.le_refl _
  passed _ _ through := by cases through
  pending _ none := by cases none
  batches := Nat.le_of_eq (by rw [Nat.zero_mul]; rfl)

/-- A prune begins, more than an hour after all others. -/
theorem Sound.begin (sound : Sound world) (retentionDays : Nat)
    (taken : step world (.begin retentionDays) = some after) : Sound after := by
  obtain ⟨free, same⟩ := Option.ite_none_left_eq_some.mp taken
  obtain rfl := Option.some.inj same
  have earlier : ∀ prune ∈ world.prunes, prune.startedAt + PRUNE_LOCK_MS < world.now := by
    intro prune member
    obtain ⟨_, _, last, lock, within⟩ := sound.begun prune member
    rw [lock] at free
    have isOver : ¬ world.now ≤ last := fun lives => free (decide_eq_true lives)
    omega
  exact {
    begun := all_append (fun prune member => by
        obtain ⟨since, started, _⟩ := sound.begun prune member
        exact ⟨since, started, _, rfl, Nat.add_le_add_right started _⟩)
      ⟨Nat.le_refl _, Nat.le_refl _, _, rfl, Nat.le_refl _⟩
    apart := fun one two first second before found found' => by
      rcases row_append.mp found' with found' | ⟨rfl, rfl⟩
      · rcases row_append.mp found with found | ⟨rfl, rfl⟩
        · exact sound.apart one two first second before found found'
        · have inside := (List.getElem?_eq_some_iff.mp found').1
          omega
      · rcases row_append.mp found with found | ⟨rfl, rfl⟩
        · exact earlier first (List.mem_of_getElem? found)
        · exact absurd before (Nat.lt_irrefl _)
    orderly := all_append sound.orderly (orderly_begin ..)
    counted := fun asked prune found => by
      rcases row_append.mp found with found | ⟨rfl, rfl⟩
      · exact sound.counted asked prune found
      · refine (List.countP_eq_zero.mpr fun gone member here => ?_).symm
        obtain ⟨prune, found, _⟩ := sound.aged gone.1 gone.2.1 gone.2.2 member
        have inside := (List.getElem?_eq_some_iff.mp found).1
        exact absurd (of_decide_eq_true here) (Nat.ne_of_lt inside)
    aged := fun asked table row member => by
      obtain ⟨prune, found, isOld⟩ := sound.aged asked table row member
      exact ⟨prune, row_append.mpr (.inl found), isOld⟩
    kept := sound.kept }

/-- A prune goes on: it deletes some rows that are old. -/
theorem Sound.goOn (sound : Sound world) (next : Prune)
    (present : world.prunes[place]? = some prune) (began : next.startedAt = prune.startedAt)
    (days : next.retentionDays = prune.retentionDays) (since : next.since = prune.since)
    (rows : TableName → List Row) (deleted : List (Nat × TableName × Row))
    (orderly : next.Orderly rows)
    (fewer : ∀ table, ∀ row ∈ rows table, row ∈ world.rows table)
    (mine : ∀ gone ∈ deleted, gone.1 = place ∧ gone.2.2.time < prune.cutoff)
    (total : next.total = prune.total + deleted.length)
    (lost : ∀ table, ∀ row ∈ world.rows table, row ∈ rows table ∨ (place, table, row) ∈ deleted) :
    Sound { world with
      prunes := world.prunes.set place next
      rows := rows
      deleted := world.deleted ++ deleted } := by
  have cutoff : next.cutoff = prune.cutoff := by
    unfold Prune.cutoff
    rw [began, days]
  exact {
    begun := all_set sound.begun (by
      rw [since, began]
      exact sound.begun prune (List.mem_of_getElem? present))
    apart := apart_set sound present began
    orderly := all_set (fun row member => (sound.orderly row member).rows_change
      fun table kept listed => .inl (fewer table kept listed)) orderly
    counted := fun asked row found => by
      rw [List.countP_append]
      rcases (row_set present).mp found with ⟨rfl, rfl⟩ | ⟨differ, found⟩
      · have all : (deleted.countP fun gone => gone.1 = asked) = deleted.length :=
          List.countP_eq_length.mpr fun gone member => decide_eq_true (mine gone member).1
        rw [all, ← sound.counted asked prune present, total]
      · have none : (deleted.countP fun gone => gone.1 = asked) = 0 :=
          List.countP_eq_zero.mpr fun gone member here =>
            differ ((of_decide_eq_true here).symm.trans (mine gone member).1)
        rw [none]
        exact sound.counted asked row found
    aged := fun asked table row member => by
      rcases List.mem_append.mp member with before | new
      · obtain ⟨known, found, isOld⟩ := sound.aged asked table row before
        by_cases here : asked = place
        · subst here
          obtain rfl := Option.some.inj (present.symm.trans found)
          exact ⟨next, (row_set present).mpr (.inl ⟨rfl, rfl⟩), cutoff ▸ isOld⟩
        · exact ⟨known, (row_set present).mpr (.inr ⟨here, found⟩), isOld⟩
      · obtain ⟨rfl, isOld⟩ := mine _ new
        exact ⟨next, (row_set present).mpr (.inl ⟨rfl, rfl⟩), cutoff ▸ isOld⟩
    kept := fun table row listed => by
      rcases sound.kept table row listed with there | ⟨asked, gone⟩
      · exact (lost table row there).imp_right fun gone => ⟨place, List.mem_append_right _ gone⟩
      · exact .inr ⟨asked, List.mem_append_left _ gone⟩ }

/-- A prune goes on without deleting anything. -/
theorem Sound.put (sound : Sound world) (next : Prune)
    (present : world.prunes[place]? = some prune) (began : next.startedAt = prune.startedAt)
    (days : next.retentionDays = prune.retentionDays) (since : next.since = prune.since)
    (total : next.total = prune.total) (orderly : next.Orderly world.rows) :
    Sound (world.put place next) := by
  have goes := sound.goOn next present began days since world.rows [] orderly
    (fun _ _ listed => listed) (fun _ none => by cases none) total fun _ _ listed => .inl listed
  rw [List.append_nil] at goes
  exact goes

/-- A statement that picks fewer rows than a batch picks all that are old. -/
theorem all_picked {rows : List Row} {cutoff : Int} {picks : Row → Bool}
    (whole : (victims rows cutoff picks).length = min BATCH (old rows cutoff).length)
    (few : (victims rows cutoff picks).length < BATCH) :
    ∀ row ∈ rows, row.time < cutoff → row ∈ victims rows cutoff picks := by
  have picked : victims rows cutoff picks = (old rows cutoff).filter picks := by
    unfold victims old
    rw [List.filter_filter]
    exact List.filter_congr fun row _ => Bool.and_comm ..
  have all : (old rows cutoff).filter picks = old rows cutoff := by
    refine List.filter_sublist.eq_of_length ?_
    rw [← picked]
    omega
  intro row member isOld
  rw [picked, all]
  exact List.mem_filter.mpr ⟨member, decide_eq_true isOld⟩

/-- A statement picks its rows. -/
theorem Sound.select (sound : Sound world) {picks : Row → Bool}
    (taken : step world (.select place picks) = some after) : Sound after := by
  obtain ⟨prune, present, taken⟩ := Option.bind_eq_some_iff.mp taken
  split at taken
  next table stage _ =>
    obtain ⟨whole, same⟩ := Option.ite_none_right_eq_some.mp taken
    obtain rfl := Option.some.inj same
    have orderly := sound.orderly prune (List.mem_of_getElem? present)
    refine sound.put _ present rfl rfl rfl rfl {
      fewer := orderly.fewer
      passed := orderly.passed
      pending := fun picked same => ?_
      batches := orderly.batches }
    obtain rfl := Option.some.inj same
    refine ⟨fun row member => ?_, fun few other going row listed isOld => .inl ?_⟩
    · exact of_decide_eq_true (Bool.and_eq_true_iff.mp (List.mem_filter.mp member).2).1
    · obtain rfl := Stage.pruning.inj (stage.symm.trans going)
      exact all_picked whole few row listed isOld
  · cases taken

/-- A prune is through with a table when a statement deleted fewer rows than a batch. -/
theorem passed_after {table other : TableName} {count : Nat}
    (through : (Stage.after table count).passed other = true) :
    (Stage.pruning table).passed other = true ∨ (other = table ∧ count < BATCH) := by
  unfold Stage.after at through
  split at through
  next few =>
    cases table <;> cases other
    · exact .inr ⟨rfl, few⟩
    · cases through
    · exact .inl rfl
    · exact .inr ⟨rfl, few⟩
  next => exact .inl through

/-- A full batch leaves the table as it is, any other one counts as a batch. -/
theorem rest_after (table : TableName) (count : Nat) :
    (Stage.after table count).rest * BATCH + BATCH ≤
      (Stage.pruning table).rest * BATCH + count := by
  unfold Stage.after
  split
  · cases table
    · change 1 * BATCH + BATCH ≤ 2 * BATCH + _
      omega
    · change 0 * BATCH + BATCH ≤ 1 * BATCH + _
      omega
  · omega

/-- A statement deletes its rows. -/
theorem Sound.delete (sound : Sound world) {spares : Row → Bool}
    (taken : step world (.delete place spares) = some after) : Sound after := by
  obtain ⟨prune, present, taken⟩ := Option.bind_eq_some_iff.mp taken
  split at taken
  next table picked stage pending =>
    obtain rfl := Option.some.inj taken
    have orderly := sound.orderly prune (List.mem_of_getElem? present)
    have before := orderly.batches
    rw [stage] at before
    obtain ⟨aged, all⟩ := orderly.pending picked pending
    let gone := picked.filter fun row => row ∈ world.rows table ∧ ¬ spares row
    have few : gone.length ≤ picked.length := List.length_filter_le ..
    have fewer : ∀ other, ∀ row ∈ (if other = table then
        (world.rows other).filter (· ∉ gone) else world.rows other), row ∈ world.rows other := by
      intro other row member
      split at member
      · exact (List.mem_filter.mp member).1
      · exact member
    refine sound.goOn { prune with
      stage := .after table gone.length
      pending := none
      total := prune.total + gone.length
      picked := prune.picked + picked.length
      statements := prune.statements + 1 } present rfl rfl rfl _ _ {
      fewer := Nat.add_le_add orderly.fewer few
      passed := fun whole other through row listed isOld => ?_
      pending := fun _ none => by cases none
      batches := ?_ } fewer ?_ ?_ ?_
    · have lossless : prune.total = prune.picked ∧ gone.length = picked.length := by
        have counts : prune.total + gone.length = prune.picked + picked.length := whole
        have ordered := orderly.fewer
        omega
      rcases passed_after through with through | ⟨rfl, count⟩
      · rw [← stage] at through
        exact orderly.passed lossless.1 other through row (fewer other row listed) isOld
      · rw [if_pos rfl] at listed
        obtain ⟨there, stays⟩ := List.mem_filter.mp listed
        have whole : gone = picked := List.filter_sublist.eq_of_length lossless.2
        rcases all (lossless.2 ▸ count) other stage row there isOld with was | newer
        · rw [← whole] at was
          exact absurd was (of_decide_eq_true stays)
        · exact newer
    · have rest := rest_after table gone.length
      change (prune.statements + 1) * BATCH + (Stage.after table gone.length).rest * BATCH ≤
        prune.total + gone.length + 2 * BATCH
      rw [Nat.add_mul, Nat.one_mul]
      omega
    · intro entry member
      obtain ⟨row, listed, rfl⟩ := List.mem_map.mp member
      exact ⟨rfl, aged row (List.mem_filter.mp listed).1⟩
    · rw [List.length_map]
    · intro other row member
      by_cases here : other = table
      · subst here
        by_cases goes : row ∈ gone
        · exact .inr (List.mem_map_of_mem goes)
        · refine .inl ?_
          rw [if_pos rfl]
          exact List.mem_filter.mpr ⟨member, decide_eq_true goes⟩
      · refine .inl ?_
        rw [if_neg here]
        exact member
  · cases taken

/-- A prune fails; the rest of what is old stays until the next one. -/
theorem Sound.fail (sound : Sound world) (taken : step world (.fail place) = some after) :
    Sound after := by
  obtain ⟨prune, present, taken⟩ := Option.bind_eq_some_iff.mp taken
  split at taken
  next table stage =>
    obtain rfl := Option.some.inj taken
    have orderly := sound.orderly prune (List.mem_of_getElem? present)
    have before := orderly.batches
    exact sound.put _ present rfl rfl rfl rfl {
      fewer := orderly.fewer
      passed := fun _ table through => by cases through
      pending := fun _ none => by cases none
      batches := by
        change prune.statements * BATCH + 0 * BATCH ≤ prune.total + 2 * BATCH
        omega }
  · cases taken

/-- Every step keeps what holds. -/
theorem Sound.step (sound : Sound world) {action : Action}
    (taken : step world action = some after) : Sound after := by
  cases action with
  | tick ms =>
    obtain rfl := Option.some.inj taken
    exact { sound with
      begun := fun prune member => by
        obtain ⟨since, started, rest⟩ := sound.begun prune member
        exact ⟨since, Nat.le_trans started (Nat.le_add_right ..), rest⟩ }
  | insert table time => exact sound.insert table time taken
  | begin retentionDays => exact sound.begin retentionDays taken
  | select place picks => exact sound.select taken
  | delete place spares => exact sound.delete taken
  | fail place => exact sound.fail taken

/-- Before the first row and the first prune. -/
theorem sound_start (now : Nat) : Sound { now := now } where
  begun _ none := by cases none
  apart _ _ _ _ _ none := by cases none
  orderly _ none := by cases none
  counted _ _ none := by cases none
  aged _ _ _ none := by cases none
  kept _ _ none := by cases none

end Steps

/-- A prune of the third day, with a row of an old time that comes while it goes on. -/
def thirdDay : List Action :=
  [.insert .messageLogs 5, .insert .deliveryOutbox 6, .tick (2 * DAY_MS),
    .insert .messageLogs (2 * DAY_MS), .begin 1,
    .select 0 fun _ => true, .insert .messageLogs 7, .delete 0 fun _ => false,
    .select 0 fun _ => true, .delete 0 fun _ => false]

end Notifkit.Scheduler.Retention
