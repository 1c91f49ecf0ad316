import Notifkit.Foundations.Text
import Notifkit.Foundations.Upserts
import Notifkit.Pipeline.Snapshot
import Notifkit.Shared.BatchRuns

/-!
# The outbox of a delivery worker

A worker records the provider's id of each task it has sent. The rows are buffered, and up to four
statements of a buffer each are under way at a time. A statement keeps the last row of each key,
since it must not touch a row of the table twice. What becomes of a statement that fails is only
logged.

The rows to keep are told apart by a text in which the parts of a key stand between NUL characters.
Two keys that hold such a character themselves may have the same text; but the database takes no
such character, and whichever of their rows is kept, the statement is refused.
-/

namespace Notifkit.Delivery.Outbox

open Pipeline Runs Shared.BatchProcessor Upserts

/-- `\u0000` -/
def NUL : Char := Char.ofNat 0

structure OutboxRow where
  taskId : Text
  channel : Text
  destination : Text
  providerMessageId : Option Text
deriving DecidableEq

/-- The primary key of `delivery_outbox`. -/
abbrev Key := Text × Text × Text

def OutboxRow.key (row : OutboxRow) : Key := (row.taskId, row.channel, row.destination)

/-- The row as one of the table. -/
def OutboxRow.keyed (row : OutboxRow) : Key × Option Text := (row.key, row.providerMessageId)

/-- The key of `byKey`. -/
def OutboxRow.mapKey (row : OutboxRow) : Text :=
  row.taskId ++ NUL :: (row.channel ++ NUL :: row.destination)

/-- A text the database takes. -/
def plain (text : Text) : Bool := NUL ∉ text

/-- The names of the type `channel`. -/
def channels : List Text :=
  [NotificationChannel.email, .sms, .push, .webhook, .inApp, .telegram, .discord, .whatsapp,
    .slack].map NotificationChannel.name

/-- A key the database takes. -/
def OutboxRow.storable (row : OutboxRow) : Bool :=
  plain row.taskId && plain row.channel && row.channel ∈ channels && plain row.destination

/-- `UPSERT_OUTBOX`, which is refused as a whole or not at all. -/
def UPSERT_OUTBOX (rows : List OutboxRow) (table : Upserts.Table Key (Option Text)) :
    Option (Upserts.Table Key (Option Text)) :=
  if rows.all fun row => row.storable && row.providerMessageId.all plain then
    insertOrUpdate (fun _ new => new) (rows.map OutboxRow.keyed) table
  else none

/-- `[...byKey.values()]` -/
def unique (rows : List OutboxRow) : List OutboxRow :=
  (latest (rows.map fun row => (row.mapKey, row))).map Prod.snd

def upsertOutboxProviderIds (rows : List OutboxRow) (table : Upserts.Table Key (Option Text)) :
    Option (Upserts.Table Key (Option Text)) :=
  if rows.length = 0 then some table else UPSERT_OUTBOX (unique rows) table

/-- The plain way: one row after the other. -/
def upsertEach (rows : List OutboxRow) (table : Upserts.Table Key (Option Text)) :
    Upserts.Table Key (Option Text) :=
  rows.foldl (fun table row => place (fun _ new => new) table row.keyed) table

/-- The database takes the keys of all rows, and the last id of each of them. -/
def Acceptable (rows : List OutboxRow) : Prop :=
  (∀ row ∈ rows, row.storable = true) ∧
    ∀ row ∈ rows, ∀ id, lastOf row.key (rows.map OutboxRow.keyed) none = some (some id) →
      plain id = true

section Statements

variable {rows : List OutboxRow}

/-- The text of a key has two characters NUL more than its parts. -/
theorem count_mapKey (row : OutboxRow) : row.mapKey.count NUL =
    row.taskId.count NUL + row.channel.count NUL + row.destination.count NUL + 2 := by
  unfold OutboxRow.mapKey
  rw [List.count_append, List.count_cons_self, List.count_append, List.count_cons_self]
  omega

/-- A text without the character is one the database takes. -/
theorem plain_iff {text : Text} : plain text = true ↔ text.count NUL = 0 := by
  unfold plain
  rw [decide_eq_true_iff, List.count_eq_zero]

/-- What a storable row consists of. -/
theorem storable_iff {row : OutboxRow} : row.storable = true ↔
    (plain row.taskId = true ∧ plain row.channel = true ∧ row.channel ∈ channels) ∧
      plain row.destination = true := by
  unfold OutboxRow.storable
  simp only [Bool.and_eq_true, decide_eq_true_eq, and_assoc]

/-- Storable or not, rows of one key are so together. -/
theorem storable_of_key {row other : OutboxRow} (same : other.key = row.key) :
    other.storable = row.storable := by
  obtain ⟨taskId, rest⟩ := Prod.mk.inj same
  obtain ⟨channel, destination⟩ := Prod.mk.inj rest
  unfold OutboxRow.storable
  rw [taskId, channel, destination]

/-- The text of a storable key belongs to no other one. -/
theorem key_of_mapKey {row other : OutboxRow} (storable : row.storable = true)
    (same : other.mapKey = row.mapKey) : other.key = row.key := by
  obtain ⟨⟨taskId, channel, _⟩, destination⟩ := storable_iff.mp storable
  have counts := congrArg (List.count NUL) same
  rw [count_mapKey, count_mapKey, plain_iff.mp taskId, plain_iff.mp channel,
    plain_iff.mp destination] at counts
  have free : other.taskId.count NUL = 0 ∧ other.channel.count NUL = 0 := by omega
  obtain ⟨sameTask, rest⟩ := first_mark (List.count_eq_zero.mp free.1)
    (of_decide_eq_true taskId) same
  obtain ⟨sameChannel, sameDestination⟩ := first_mark (List.count_eq_zero.mp free.2)
    (of_decide_eq_true channel) rest
  unfold OutboxRow.key
  rw [sameTask, sameChannel, sameDestination]

/-- The rows that are kept are some of the rows. -/
theorem unique_subset {row : OutboxRow} (kept : row ∈ unique rows) : row ∈ rows := by
  obtain ⟨entry, listed, rfl⟩ := List.mem_map.mp kept
  rcases lastOf_mem (mem_latest.mp listed) with inside | none
  · obtain ⟨row, member, same⟩ := List.mem_map.mp inside
    rw [← (Prod.mk.inj same).2]
    exact member
  · cases none

/-- Each row has one that is kept under its text. -/
theorem unique_covers {row : OutboxRow} (member : row ∈ rows) :
    ∃ kept ∈ unique rows, kept.mapKey = row.mapKey := by
  have listed : (row.mapKey, row) ∈ rows.map fun row => (row.mapKey, row) :=
    List.mem_map.mpr ⟨row, member, rfl⟩
  obtain ⟨last, held⟩ := lastOf_some listed none
  refine ⟨last, List.mem_map.mpr ⟨(row.mapKey, last), mem_latest.mpr held, rfl⟩, ?_⟩
  rcases lastOf_mem held with inside | none
  · obtain ⟨other, _, same⟩ := List.mem_map.mp inside
    obtain ⟨spelled, rfl⟩ := Prod.mk.inj same
    exact spelled
  · cases none

/-- If the rows that are kept are storable, all are. -/
theorem storable_of_unique (storable : ∀ row ∈ unique rows, row.storable = true) :
    ∀ row ∈ rows, row.storable = true := by
  intro row member
  obtain ⟨kept, listed, same⟩ := unique_covers member
  have takes := storable kept listed
  rw [storable_of_key (key_of_mapKey takes same.symm)]
  exact takes

/-- Among storable rows, the text of the key tells the same rows apart as the key. -/
theorem unique_eq (storable : ∀ row ∈ rows, row.storable = true) :
    unique rows = (latest (rows.map fun row => (row.key, row))).map Prod.snd := by
  refine latest_spelled fun row member other _ => ⟨fun same => ?_, fun same => ?_⟩
  · exact (key_of_mapKey (storable row member) same.symm).symm
  · obtain ⟨taskId, rest⟩ := Prod.mk.inj same
    obtain ⟨channel, destination⟩ := Prod.mk.inj rest
    unfold OutboxRow.mapKey
    rw [taskId, channel, destination]

/-- The rows that are kept, as rows of the table, are the last ones of their keys. -/
theorem unique_keyed (storable : ∀ row ∈ rows, row.storable = true) :
    (unique rows).map OutboxRow.keyed =
      (latest (rows.map fun row => (row.key, row))).map fun entry =>
        (entry.1, entry.2.providerMessageId) := by
  rw [unique_eq storable, List.map_map]
  refine List.map_congr_left fun entry listed => ?_
  rcases lastOf_mem (mem_latest.mp listed) with inside | none
  · obtain ⟨row, _, same⟩ := List.mem_map.mp inside
    obtain ⟨key, rfl⟩ := Prod.mk.inj same
    rw [← key]
    rfl
  · cases none

/-- A key is among the rows that are kept once. -/
theorem unique_distinct (storable : ∀ row ∈ rows, row.storable = true) :
    (((unique rows).map OutboxRow.keyed).map Prod.fst).Nodup := by
  rw [unique_keyed storable, List.map_map]
  exact latest_distinct _

/-- The last id of each key is kept. -/
theorem lastOf_unique (storable : ∀ row ∈ rows, row.storable = true) (key : Key) :
    lastOf key ((unique rows).map OutboxRow.keyed) none =
      lastOf key (rows.map OutboxRow.keyed) none := by
  have named (entries : List (Key × OutboxRow)) :
      lastOf key (entries.map fun entry => (entry.1, entry.2.providerMessageId)) none =
        (lastOf key entries none).map OutboxRow.providerMessageId :=
    lastOf_map Function.injective_id OutboxRow.providerMessageId key entries none
  have spelled : rows.map OutboxRow.keyed = (rows.map fun row => (row.key, row)).map fun entry =>
      (entry.1, entry.2.providerMessageId) := by
    rw [List.map_map]
    rfl
  rw [unique_keyed storable, spelled, named, named, lastOf_latest]

/-- What one row after the other leads to. -/
theorem upsertEach_eq (rows : List OutboxRow) (table : Upserts.Table Key (Option Text)) :
    upsertEach rows table = fun key => lastOf key (rows.map OutboxRow.keyed) (table key) := by
  funext key
  rw [← foldl_replace, List.foldl_map]
  rfl

/-- A statement is never refused for touching a row twice: it is taken if and only if the database
takes the keys and the last id of each, and then it comes to what one row after the other would. -/
theorem upsert_spec (rows : List OutboxRow) (table next : Upserts.Table Key (Option Text)) :
    upsertOutboxProviderIds rows table = some next ↔
      Acceptable rows ∧ next = upsertEach rows table := by
  have statement (storable : ∀ row ∈ rows, row.storable = true) :
      insertOrUpdate (fun _ new => new) ((unique rows).map OutboxRow.keyed) table =
        some (upsertEach rows table) := by
    unfold insertOrUpdate
    rw [if_pos (unique_distinct storable), upsertEach_eq]
    congr 1
    funext key
    rw [foldl_replace, lastOf_eq, lastOf_unique storable, ← lastOf_eq]
  unfold upsertOutboxProviderIds
  split
  next nothing =>
    obtain rfl := List.length_eq_zero_iff.mp nothing
    constructor
    · intro same
      refine ⟨⟨fun _ none => ?_, fun _ none => ?_⟩, (Option.some.inj same).symm⟩
      · cases none
      · cases none
    · intro both
      rw [both.2]
      rfl
  next =>
    unfold UPSERT_OUTBOX
    rw [Option.ite_none_right_eq_some, List.all_eq_true]
    constructor
    · intro ⟨takes, same⟩
      have storable := storable_of_unique fun row listed =>
        (Bool.and_eq_true_iff.mp (takes row listed)).1
      rw [statement storable] at same
      refine ⟨⟨storable, fun row _ id held => ?_⟩, (Option.some.inj same).symm⟩
      rw [← lastOf_unique storable] at held
      rcases lastOf_mem held with inside | none
      · obtain ⟨kept, listed, same⟩ := List.mem_map.mp inside
        have ids := (Bool.and_eq_true_iff.mp (takes kept listed)).2
        rw [(Prod.mk.inj same).2] at ids
        exact ids
      · cases none
    · intro ⟨⟨storable, ids⟩, same⟩
      refine ⟨fun row kept => ?_, by rw [statement storable, same]⟩
      have member := unique_subset kept
      refine Bool.and_eq_true_iff.mpr ⟨storable row member, ?_⟩
      have held := lastOf_of_mem (unique_distinct storable)
        (List.mem_map_of_mem (f := OutboxRow.keyed) kept)
      rw [lastOf_unique storable] at held
      cases recorded : row.providerMessageId with
      | none => rfl
      | some id =>
        refine ids row member id ?_
        rw [← recorded]
        exact held

end Statements

/-- How the worker sets up `outboxUpdateProcessor`. -/
def limits (concurrency : Nat) : Limits where
  maxSize := max 10 (min concurrency 500)
  maxConcurrent := 4
  slot := by decide

/-- The buffer, the table, and what became of each statement that has ended. -/
structure World where
  processor : State OutboxRow Unit Text := {}
  table : Upserts.Table Key (Option Text) := fun _ => none
  /-- the rows of the statements that were taken, in the order in which they were -/
  wrote : List (List OutboxRow) := []
  /-- the rows of the others, and whether they reached the database -/
  lost : List (List OutboxRow × Bool) := []

inductive Step where
  /-- a turn of the processor, other than the end of a statement -/
  | processor (action : Shared.BatchProcessor.Action OutboxRow Unit Text)
  /-- a statement ends; the batch is told so whether or not it was taken -/
  | land (place : Nat) (reached : Bool)

/-- The turn is the end of a statement. -/
def isAnswer : Shared.BatchProcessor.Action OutboxRow Unit Text → Bool
  | .answer _ _ => true
  | _ => false

/-- The rows of a batch. -/
def rowsOf (batch : List (BatchItem OutboxRow)) : List OutboxRow := batch.map BatchItem.item

/-- The ids of the statements are made known to nobody but the table. -/
def World.land (world : World) (place : Nat) (reached : Bool) : Option World := do
  let run ← world.processor.inFlight[place]?
  let rows := rowsOf run.batch
  let processor ← answer world.processor place (.ok (rows.map fun _ => ()))
  match if reached then upsertOutboxProviderIds rows world.table else none with
  | some table => some { world with
      processor := processor, table := table, wrote := world.wrote ++ [rows] }
  | none => some { world with processor := processor, lost := world.lost ++ [(rows, reached)] }

def step (concurrency : Nat) (world : World) : Step → Option World
  | .processor action =>
    if isAnswer action then none
    else (Shared.BatchProcessor.step (limits concurrency) world.processor action).map
      fun processor => { world with processor := processor }
  | .land place reached => world.land place reached

/-- The rows of the statements under way. -/
def World.underWay (world : World) : List OutboxRow :=
  (unanswered world.processor).flatMap fun run => rowsOf run.batch

/-- Where the statements are, and what they did. -/
structure Recorded (world : World) : Prop where
  books : Books world.processor
  batches : (world.wrote ++ world.lost.map Prod.fst ++
    (unanswered world.processor).map fun run => rowsOf run.batch).Perm
      (world.processor.calls.map rowsOf)
  table : world.table = upsertEach world.wrote.flatten fun _ => none
  taken : ∀ rows ∈ world.wrote, Acceptable rows
  refused : ∀ rows, (rows, true) ∈ world.lost → ¬ Acceptable rows

section Runs

variable {concurrency : Nat} {world after : World}

/-- A turn of the processor that is no answer. -/
theorem Recorded.processor (recorded : Recorded world)
    {action : Shared.BatchProcessor.Action OutboxRow Unit Text}
    (happened : step concurrency world (.processor action) = some after) : Recorded after := by
  obtain ⟨other, happened⟩ := Option.ite_none_left_eq_some.mp happened
  obtain ⟨next, turned, same⟩ := Option.map_eq_some_iff.mp happened
  obtain rfl := same
  have silent : ∀ place reply, action ≠ .answer place reply := by
    rintro place reply rfl
    exact other rfl
  obtain ⟨more, calls, waiting⟩ := handsOver_step silent turned
  have rows : ((unanswered next).map fun run => rowsOf run.batch) =
      ((unanswered world.processor).map fun run => rowsOf run.batch) ++ more.map rowsOf := by
    have mapped := congrArg (List.map rowsOf) waiting
    rwa [List.map_map, List.map_append, List.map_map] at mapped
  exact {
    books := recorded.books.step turned
    batches := by
      dsimp only
      rw [rows, calls, List.map_append, ← List.append_assoc]
      exact recorded.batches.append_right _
    table := recorded.table
    taken := recorded.taken
    refused := recorded.refused }

/-- One row after the other, of one batch and then of the next. -/
theorem upsertEach_append (first second : List OutboxRow)
    (table : Upserts.Table Key (Option Text)) :
    upsertEach (first ++ second) table = upsertEach second (upsertEach first table) :=
  List.foldl_append

/-- A statement ends. -/
theorem Recorded.land (recorded : Recorded world) {place : Nat} {reached : Bool}
    (happened : world.land place reached = some after) : Recorded after := by
  obtain ⟨run, present, happened⟩ := Option.bind_eq_some_iff.mp happened
  obtain ⟨next, answered, happened⟩ := Option.bind_eq_some_iff.mp happened
  obtain ⟨calls, _, _, left⟩ := answer_leaves present answered
  have books := recorded.books.answer answered
  have moved : (world.wrote ++ world.lost.map Prod.fst ++ (rowsOf run.batch ::
      (unanswered next).map fun run => rowsOf run.batch)).Perm (next.calls.map rowsOf) := by
    rw [calls]
    exact (List.Perm.append_left _ (left.map fun run => rowsOf run.batch)).symm.trans
      recorded.batches
  split at happened
  next table accepted =>
    obtain ⟨_, accepted⟩ := Option.ite_none_right_eq_some.mp accepted
    obtain ⟨acceptable, table⟩ := (upsert_spec _ _ _).mp accepted
    obtain rfl := Option.some.inj happened
    exact {
      books := books
      batches := by
        refine .trans ?_ moved
        dsimp only
        rw [List.append_assoc, List.append_assoc, List.append_assoc, List.singleton_append]
        refine List.Perm.append_left _ ?_
        exact List.perm_middle.symm
      table := by
        dsimp only
        rw [List.flatten_append, List.flatten_singleton, upsertEach_append, ← recorded.table]
        exact table
      taken := Tables.all_append recorded.taken acceptable
      refused := recorded.refused }
  next refused =>
    obtain rfl := Option.some.inj happened
    exact {
      books := books
      batches := by
        refine .trans ?_ moved
        dsimp only
        rw [List.map_append, List.map_singleton, List.append_assoc, List.append_assoc,
          List.append_assoc, List.singleton_append]
      table := recorded.table
      taken := recorded.taken
      refused := fun rows listed acceptable => by
        rcases List.mem_append.mp listed with before | new
        · exact recorded.refused rows before acceptable
        · obtain ⟨rfl, rfl⟩ := Prod.mk.inj (List.mem_singleton.mp new)
          rw [if_pos rfl] at refused
          have taken := (upsert_spec _ world.table _).mpr ⟨acceptable, rfl⟩
          rw [refused] at taken
          cases taken }

end Runs

/-- Whatever is recorded, whenever statements go out, in whatever order they end and whichever of
them fail: each recorded row was written, or lost with its statement, or is under way, or is
buffered still, and only one of these. The table is what the rows written make of it, one row after
the other, as if they had not been gathered; and a statement that reached the database was lost only
for a key, or for the last id of one, that the database does not take. -/
theorem outbox_recorded (concurrency : Nat) (world : World)
    (run : Reaches (step concurrency) anyStep {} world) :
    (world.wrote.flatten ++ (world.lost.map Prod.fst).flatten ++ world.underWay ++
      rowsOf world.processor.buffer).Perm world.processor.added ∧
    world.table = upsertEach world.wrote.flatten (fun _ => none) ∧
    (∀ rows ∈ world.wrote, Acceptable rows) ∧
    ∀ rows, (rows, true) ∈ world.lost → ¬ Acceptable rows := by
  have recorded : Recorded world := by
    apply run.invariant
    · exact {
        books := .start
        batches := List.Perm.refl _
        table := rfl
        taken := fun _ none => by cases none
        refused := fun _ none => by cases none }
    · intro before action next recorded _ happened
      cases action with
      | processor action => exact recorded.processor happened
      | land place reached => exact recorded.land happened
  refine ⟨?_, recorded.table, recorded.taken, recorded.refused⟩
  have passed : (world.wrote.flatten ++ (world.lost.map Prod.fst).flatten ++
      world.underWay).Perm (rowsOf world.processor.calls.flatten) := by
    have rows : (world.processor.calls.map rowsOf).flatten =
        rowsOf world.processor.calls.flatten := List.map_flatten.symm
    have flattened := recorded.batches.flatten
    rw [List.flatten_append, List.flatten_append, rows] at flattened
    exact flattened
  have numbers : rowsOf (numbered world.processor.added) = world.processor.added := by
    unfold rowsOf numbered
    rw [List.map_map]
    exact List.zipIdx_map_fst 0 world.processor.added
  have ordered := congrArg rowsOf recorded.books.ordered
  rw [numbers] at ordered
  unfold rowsOf at ordered passed ⊢
  rw [List.map_append] at ordered
  rw [← ordered]
  exact passed.append_right _

/-- An attempt of a task that failed, and the next one, which the provider took. -/
def attempts : List OutboxRow :=
  [⟨"t".toList, "sms".toList, "+1".toList, none⟩,
    ⟨"t".toList, "sms".toList, "+1".toList, some "m".toList⟩]

/-- Both are recorded within one batch, and its statement is taken. -/
def oneBatch : List Step :=
  attempts.map (fun row => .processor (.add row)) ++ [.processor .fire, .land 0 true]

/-- The outbox has the id of the later one. -/
theorem later_attempt_recorded :
    let world := (perform (step 50) {} oneBatch).getD {}
    world.wrote = [attempts] ∧
      world.table ("t".toList, "sms".toList, "+1".toList) = some (some "m".toList) := by
  have run : Reaches (step 50) anyStep {} ((perform (step 50) {} oneBatch).getD {}) :=
    reaches_any_performed oneBatch (by decide)
  have wrote : ((perform (step 50) {} oneBatch).getD {}).wrote = [attempts] := by decide
  refine ⟨wrote, ?_⟩
  rw [(outbox_recorded 50 _ run).2.1, wrote]
  decide

end Notifkit.Delivery.Outbox
