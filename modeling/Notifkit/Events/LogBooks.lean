import Notifkit.Events.LogBuffer
import Notifkit.Foundations.Tables

/-!
# The books of the event worker

The table grows out of what it was at first by rows that promises were made for,
and it keeps its keys unique. Every promise is settled or waits at one place: in
a flush that has not come to it, or in one of the buffers. A promise made for a
row is resolved once the table has a row under its key. What a flush rejects
after its rows were resolved stays resolved.
-/

namespace Notifkit.Events

open Promises UniqueRows

/-- A row is recorded where the table has one under its key. -/
def Recorded (table : List MessageLogRow) (row : MessageLogRow) : Prop :=
  ∃ stored ∈ table, stored.key = row.key

/-- What is recorded stays recorded in a larger table. -/
theorem Recorded.grow {table larger : List MessageLogRow} {row : MessageLogRow}
    (recorded : Recorded table row) (more : ∀ stored ∈ table, stored ∈ larger) :
    Recorded larger row := by
  obtain ⟨stored, member, same⟩ := recorded
  exact ⟨stored, more stored member, same⟩

/-- Two rows claim one place when their keys are equal. -/
theorem sameKey_iff (one two : MessageLogRow) : one.sameKey two = true ↔ one.key = two.key := by
  simp [MessageLogRow.sameKey]

/-- A table that grew out of another by rows of a kind. -/
structure Grown (first table : List MessageLogRow) (kind : MessageLogRow → Prop) : Prop where
  kept : ∀ row ∈ first, row ∈ table
  origin : ∀ row ∈ table, row ∈ first ∨ kind row
  unique : (table.map MessageLogRow.key).Nodup

namespace Grown

variable {first table rows : List MessageLogRow} {kind other : MessageLogRow → Prop}

/-- Nothing was inserted yet. -/
theorem start (unique : (first.map MessageLogRow.key).Nodup) : Grown first first kind where
  kept := fun _ member => member
  origin := fun _ member => .inl member
  unique := unique

/-- A wider kind. -/
theorem widen (grown : Grown first table kind) (wider : ∀ row, kind row → other row) :
    Grown first table other where
  kept := grown.kept
  origin := fun row member => (grown.origin row member).imp_right (wider row)
  unique := grown.unique

/-- A batch of such rows is inserted. -/
theorem insert (grown : Grown first table kind) (all : ∀ row ∈ rows, kind row) :
    Grown first (insertMessageLogs table rows) kind where
  kept := fun row member => mem_insertNew (grown.kept row member)
  origin := by
    intro row member
    rcases of_mem_insertNew member with before | new
    · exact grown.origin row before
    · exact .inr (all row new)
  unique := insertNew_unique sameKey_iff grown.unique

/-- The table has one row under a key. -/
theorem one_row (grown : Grown first table kind) {row stored : MessageLogRow}
    (member : row ∈ table) (listed : stored ∈ table) (same : row.key = stored.key) :
    row = stored := List.inj_on_of_nodup_map grown.unique member listed same

end Grown

/-- After an insert each of its rows is there, or another row under its key, of the table or of the
insert. -/
theorem insert_place {table rows : List MessageLogRow} {row : MessageLogRow}
    (listed : row ∈ rows) : row ∈ insertMessageLogs table rows ∨
      ∃ stored ∈ insertMessageLogs table rows, row.key = stored.key ∧
        (stored ∈ table ∨ stored ∈ rows) := by
  refine (insertNew_place listed).imp_right ?_
  rintro ⟨stored, member, same, origin⟩
  exact ⟨stored, member, (sameKey_iff row stored).mp same, origin⟩

/-- After an insert each of its rows is recorded. -/
theorem recorded_insert {table rows : List MessageLogRow} {row : MessageLogRow}
    (listed : row ∈ rows) : Recorded (insertMessageLogs table rows) row := by
  rcases insert_place listed with there | ⟨stored, member, same, _⟩
  · exact ⟨row, there, rfl⟩
  · exact ⟨stored, member, same.symm⟩

/-- The promises of some rows. -/
def promisesOf (batch : List BufferedLog) : List Nat := batch.map BufferedLog.promise

/-- The promises a flush has not settled. -/
def Flush.unsettled (flush : Flush) : List Nat :=
  (if flush.written then [] else promisesOf flush.batch) ++ flush.events

/-- The promises not settled yet. -/
def pending (s : State) : List Nat :=
  s.flights.flatMap Flush.unsettled ++ (promisesOf s.messageLogBuffer ++ s.eventBuffer)

/-- What holds of each flush under way: its promises were made for its rows and its events, its rows
are recorded once the insert took effect, and settled once they are written. -/
structure Flush.Sound (s : State) (flush : Flush) : Prop where
  rows : ∀ entry ∈ flush.batch, s.made[entry.promise]? = some (some entry.log)
  publishes : ∀ promise ∈ flush.events, s.made[promise]? = some none
  recorded : flush.landed = true → ∀ entry ∈ flush.batch, Recorded s.table entry.log
  answered : flush.written = true → ∀ entry ∈ flush.batch, entry.promise ∈ s.settled.map Prod.fst

/-- A call waits for promises made for the rows of its event, one by one. -/
def ProcessCall.Made (call : ProcessCall) (made : List (Option MessageLogRow)) : Prop :=
  List.Forall₂ (fun promise row => made[promise]? = some (some row)) call.promises call.event.rows

/-- A promise resolved for a row has its row recorded. -/
def Honest (s : State) (entries : List (Nat × Settlement)) : Prop :=
  ∀ promise row, (promise, .ok ()) ∈ entries → s.made[promise]? = some (some row) →
    Recorded s.table row

/-- The books of the worker over the table it started with. -/
structure Books (first : List MessageLogRow) (s : State) : Prop where
  grown : Grown first s.table fun row => some row ∈ s.made
  account : Accounted s.made.length s.settled (pending s)
  rows : ∀ entry ∈ s.messageLogBuffer, s.made[entry.promise]? = some (some entry.log)
  publishes : ∀ promise ∈ s.eventBuffer, s.made[promise]? = some none
  flights : ∀ flush ∈ s.flights, flush.Sound s
  honest : Honest s s.settled
  calls : ∀ call ∈ s.calls, call.Made s.made

variable {first table : List MessageLogRow} {limits : Limits} {s after : State} {place : Nat}

/-- Nothing was processed yet. -/
theorem Books.start (unique : (first.map MessageLogRow.key).Nodup) :
    Books first { table := first } where
  grown := .start unique
  account := Accounted.none_made
  rows := by simp
  publishes := by simp
  flights := by simp
  honest := by simp [Honest]
  calls := by simp

/-- What a promise was made for stays known. -/
theorem made_append {made : List (Option MessageLogRow)} {promise : Nat}
    {purpose : Option MessageLogRow} (known : made[promise]? = some purpose)
    (new : Option MessageLogRow) : (made ++ [new])[promise]? = some purpose :=
  Tables.row_append.mpr (.inl known)

/-- A new promise changes nothing for the flushes under way. -/
theorem Flush.Sound.make {flush : Flush} (sound : flush.Sound s) (new : Option MessageLogRow)
    (buffer : List BufferedLog) (events : List Nat) :
    flush.Sound { s with
      messageLogBuffer := buffer, eventBuffer := events, made := s.made ++ [new] } where
  rows := fun entry member => made_append (sound.rows entry member) new
  publishes := fun promise member => made_append (sound.publishes promise member) new
  recorded := sound.recorded
  answered := sound.answered

/-- A new promise is not among those settled. -/
theorem Books.honest_make (books : Books first s) (new : Option MessageLogRow)
    (buffer : List BufferedLog) (events : List Nat) :
    Honest { s with
      messageLogBuffer := buffer, eventBuffer := events, made := s.made ++ [new] } s.settled := by
  intro promise row listed known
  have inside : promise < s.made.length := books.account.bounded listed
  apply books.honest promise row listed
  rw [← known]
  exact (List.getElem?_append_left inside).symm

/-- The calls wait for what they waited for. -/
theorem Books.calls_make (books : Books first s) (new : Option MessageLogRow) :
    ∀ call ∈ s.calls, call.Made (s.made ++ [new]) := by
  intro call listed
  exact (books.calls call listed).imp fun promise row known => made_append known new

/-- A row that joins the buffer is in the books. -/
theorem Books.pushRow (books : Books first s) (log : MessageLogRow) :
    Books first (pushRow s log) where
  grown := books.grown.widen fun row member => List.mem_append_left _ member
  account := by
    have places : (pending s ++ [s.made.length]).Perm (pending (Events.pushRow s log)) := by
      simp only [pending, promisesOf, Events.pushRow, List.map_append, List.append_assoc,
        List.map_cons, List.map_nil]
      exact (List.perm_append_comm.append_left _).append_left _
    have made := books.account.make.regroup places
    simpa [Events.pushRow] using made
  rows := by
    apply Tables.all_append
    · intro entry member
      exact made_append (books.rows entry member) (some log)
    · exact Tables.row_append.mpr (.inr ⟨rfl, rfl⟩)
  publishes := fun promise member => made_append (books.publishes promise member) (some log)
  flights := fun flush member => (books.flights flush member).make (some log) _ _
  honest := books.honest_make (some log) _ _
  calls := books.calls_make (some log)

/-- An event that joins the second buffer is in the books. -/
theorem Books.resume (books : Books first s) : Books first (resume s) where
  grown := books.grown.widen fun row member => List.mem_append_left _ member
  account := by
    have places : pending s ++ [s.made.length] = pending (Events.resume s) := by
      simp [pending, Events.resume]
    have made := books.account.make.regroup (List.Perm.of_eq places)
    simpa [Events.resume] using made
  rows := fun entry member => made_append (books.rows entry member) none
  publishes := by
    apply Tables.all_append
    · intro promise member
      exact made_append (books.publishes promise member) none
    · exact Tables.row_append.mpr (.inr ⟨rfl, rfl⟩)
  flights := fun flush member => (books.flights flush member).make none _ _
  honest := books.honest_make none _ _
  calls := books.calls_make none

/-- Settling pending promises keeps the books, when what is resolved is recorded and the flushes
left are sound. -/
theorem Books.settle (books : Books first s) {buffer : List BufferedLog} {flights : List Flush}
    {entries : List (Nat × Settlement)}
    (listed : ∀ entry ∈ buffer, entry ∈ s.messageLogBuffer)
    (taken : (pending s).Perm (entries.map Prod.fst ++
      pending { s with messageLogBuffer := buffer, flights := flights }))
    (sound : ∀ flush ∈ flights, flush.Sound { s with settled := s.settled ++ entries })
    (honest : Honest s entries) :
    Books first { s with
      messageLogBuffer := buffer
      flights := flights
      settled := settleAll s.settled entries } := by
  obtain ⟨added, account⟩ := books.account.settled_all taken
  rw [added]
  refine ⟨books.grown, account, ?_, books.publishes, ?_, ?_, books.calls⟩
  · intro entry member
    exact books.rows entry (listed entry member)
  · intro flush member
    exact ⟨(sound flush member).rows, (sound flush member).publishes,
      (sound flush member).recorded, (sound flush member).answered⟩
  · intro promise row resolved known
    rcases List.mem_append.mp resolved with old | new
    · exact books.honest promise row old known
    · exact honest promise row new known

/-- More settled promises change nothing for a flush. -/
theorem Flush.Sound.settle {flush : Flush} (sound : flush.Sound s)
    (entries : List (Nat × Settlement)) :
    flush.Sound { s with settled := s.settled ++ entries } where
  rows := sound.rows
  publishes := sound.publishes
  recorded := sound.recorded
  answered := by
    intro written entry member
    rw [List.map_append]
    exact List.mem_append_left _ (sound.answered written entry member)

/-- Dropping the oldest row rejects its promise and keeps the books. -/
theorem Books.dropOldest (books : Books first s) : Books first (dropOldest limits s) := by
  unfold Events.dropOldest
  split
  · split
    · exact books
    · rename_i dropped rest buffered
      apply books.settle
      · intro entry member
        rw [buffered]
        exact List.mem_cons_of_mem _ member
      · simp only [pending, promisesOf, buffered, List.map_cons, List.map_nil, List.cons_append,
          List.nil_append]
        exact List.perm_middle
      · intro flush member
        exact (books.flights flush member).settle _
      · intro promise row resolved known
        simp at resolved
  · exact books

/-- A flush takes the promises of both buffers along. -/
theorem Books.flushLogs (books : Books first s) : Books first (flushLogs s) := by
  unfold Events.flushLogs
  split
  · exact books
  · refine ⟨books.grown, ?_, by simp, by simp, ?_, books.honest, books.calls⟩
    · apply books.account.regroup
      apply List.Perm.of_eq
      by_cases nothing : s.messageLogBuffer = []
      · simp [pending, Flush.unsettled, promisesOf, nothing]
      · simp [pending, Flush.unsettled, promisesOf, nothing]
    · apply Tables.all_append
      · intro flush member
        have sound := books.flights flush member
        exact ⟨sound.rows, sound.publishes, sound.recorded, sound.answered⟩
      · constructor
        · exact books.rows
        · exact books.publishes
        · intro landed
          cases landed
        · intro written entry member
          have nothing : s.messageLogBuffer = [] := by simpa using written
          simp [nothing] at member

/-- A flush by size keeps the books. -/
theorem Books.flushAtThreshold (books : Books first s) :
    Books first (flushAtThreshold limits s) := by
  unfold Events.flushAtThreshold
  split
  · exact books.flushLogs
  · exact books

/-- Rows that join the buffer one after the other are in the books, in order. -/
theorem Books.pushAll (books : Books first s) (rows : List MessageLogRow) :
    Books first (rows.foldl Events.pushRow s) ∧
      (rows.foldl Events.pushRow s).made = s.made ++ rows.map some ∧
      (rows.foldl Events.pushRow s).calls = s.calls := by
  induction rows generalizing s with
  | nil => exact ⟨books, by simp, rfl⟩
  | cons row rest inductionHypothesis =>
    obtain ⟨pushed, made, calls⟩ := inductionHypothesis (books.pushRow row)
    refine ⟨pushed, ?_, calls⟩
    rw [List.foldl_cons, made]
    simp [Events.pushRow]

/-- Promises in a row were made for rows in order. -/
theorem made_in_order (made : List (Option MessageLogRow)) (rows : List MessageLogRow) :
    List.Forall₂ (fun promise row => (made ++ rows.map some)[promise]? = some (some row))
      (List.range' made.length rows.length) rows := by
  induction rows generalizing made with
  | nil => exact .nil
  | cons row rest inductionHypothesis =>
    rw [List.length_cons, List.range'_succ]
    apply List.Forall₂.cons
    · simp
    · have others := inductionHypothesis (made ++ [some row])
      simpa using others

/-- A call of `process` waits for the promises of its own rows. -/
theorem Books.process (books : Books first s) (event : LogEvent) :
    Books first (process limits s event) := by
  have roomy : Books first (Events.dropOldest limits s) := books.dropOldest
  obtain ⟨pushed, made, _⟩ := roomy.pushAll event.rows
  apply Books.flushAtThreshold
  refine ⟨pushed.grown, pushed.account, pushed.rows, pushed.publishes, ?_, pushed.honest, ?_⟩
  · intro flush member
    have sound := pushed.flights flush member
    exact ⟨sound.rows, sound.publishes, sound.recorded, sound.answered⟩
  · apply Tables.all_append pushed.calls
    change List.Forall₂ _ _ _
    rw [made]
    exact made_in_order _ event.rows

/-- A flush of rows lands once. -/
theorem lands_cases (taken : lands s place = some after) :
    ∃ flush, s.flights[place]? = some flush ∧ flush.landed = false ∧ flush.written = false ∧
      after = { s with
        table := insertMessageLogs s.table (flush.batch.map BufferedLog.log)
        flights := s.flights.set place { flush with landed := true } } := by
  unfold lands at taken
  cases present : s.flights[place]? with
  | none => simp [present] at taken
  | some flush =>
    by_cases past : flush.landed ∨ flush.written
    · simp [present, past] at taken
    · have new : flush.landed = false ∧ flush.written = false := by
        simpa using past
      simp only [present, past, ↓reduceIte, Option.some.injEq] at taken
      exact ⟨flush, rfl, new.1, new.2, taken.symm⟩

/-- A flush resolves its rows once they landed, and ends unless it has events to publish. -/
theorem inserted_cases (taken : inserted limits s place = some after) :
    ∃ flush, s.flights[place]? = some flush ∧ flush.landed = true ∧ flush.written = false ∧
      (flush.events = [] ∧ after = leave limits s place (settleRows flush.batch (.ok ())) ∨
        after = { s with
          settled := settleAll s.settled (settleRows flush.batch (.ok ()))
          flights := s.flights.set place { flush with written := true } }) := by
  unfold inserted at taken
  cases present : s.flights[place]? with
  | none => simp [present] at taken
  | some flush =>
    cases landed : flush.landed with
    | false => simp [present, landed] at taken
    | true =>
      cases past : flush.written with
      | true => simp [present, past] at taken
      | false =>
        refine ⟨flush, rfl, landed, past, ?_⟩
        simp only [present, landed, past, Bool.false_eq_true, not_false_eq_true, and_self,
          ↓reduceIte] at taken
        by_cases nothing : flush.events.length = 0
        · rw [if_pos nothing] at taken
          exact .inl ⟨List.length_eq_zero_iff.mp nothing, (Option.some.inj taken).symm⟩
        · rw [if_neg nothing] at taken
          obtain rfl := Option.some.inj taken
          right
          rw [landed]

/-- A flush whose insert fails rejects all it has. -/
theorem insertFails_cases {error : Text} (taken : insertFails limits s place error = some after) :
    ∃ flush, s.flights[place]? = some flush ∧ flush.written = false ∧
      after = leave limits s place (rejectAll flush error) := by
  unfold insertFails at taken
  cases present : s.flights[place]? with
  | none => simp [present] at taken
  | some flush =>
    cases past : flush.written with
    | true => simp [present, past] at taken
    | false =>
      simp only [present, past, Bool.false_eq_true, ↓reduceIte, Option.some.injEq] at taken
      exact ⟨flush, rfl, past, taken.symm⟩

/-- A flush whose events are published has its rows written. -/
theorem published_cases (taken : published limits s place = some after) :
    ∃ flush, s.flights[place]? = some flush ∧ flush.written = true ∧
      after = leave limits s place (settleEvents flush.events (.ok ())) := by
  unfold published at taken
  cases present : s.flights[place]? with
  | none => simp [present] at taken
  | some flush =>
    cases past : flush.written with
    | false => simp [present, past] at taken
    | true =>
      simp only [present, past, ↓reduceIte, Option.some.injEq] at taken
      exact ⟨flush, rfl, past, taken.symm⟩

/-- So has one whose events cannot be published. -/
theorem publishFails_cases {error : Text}
    (taken : publishFails limits s place error = some after) :
    ∃ flush, s.flights[place]? = some flush ∧ flush.written = true ∧
      after = leave limits s place (rejectAll flush error) := by
  unfold publishFails at taken
  cases present : s.flights[place]? with
  | none => simp [present] at taken
  | some flush =>
    cases past : flush.written with
    | false => simp [present, past] at taken
    | true =>
      simp only [present, past, ↓reduceIte, Option.some.injEq] at taken
      exact ⟨flush, rfl, past, taken.symm⟩

/-- The promises of settled rows. -/
@[simp] theorem settleRows_promises (batch : List BufferedLog) (value : Settlement) :
    (settleRows batch value).map Prod.fst = promisesOf batch := by
  simp [settleRows, promisesOf]

/-- The promises of settled events. -/
@[simp] theorem settleEvents_promises (events : List Nat) (value : Settlement) :
    (settleEvents events value).map Prod.fst = events := by
  rw [settleEvents, List.map_map]
  exact List.map_id events

/-- Nothing is resolved by a rejection. -/
theorem honest_rejectAll (flush : Flush) (error : Text) : Honest s (rejectAll flush error) := by
  intro promise row resolved _
  rcases List.mem_append.mp resolved with rows | events
  · obtain ⟨_, _, same⟩ := List.mem_map.mp rows
    cases congrArg Prod.snd same
  · obtain ⟨_, _, same⟩ := List.mem_map.mp events
    cases congrArg Prod.snd same

/-- A flush under way that settles all it has left leaves sound books. -/
theorem Books.leave (books : Books first s) {flush : Flush}
    (present : s.flights[place]? = some flush) {entries : List (Nat × Settlement)}
    (all : entries.map Prod.fst = flush.unsettled) (honest : Honest s entries) :
    Books first (leave limits s place entries) := by
  obtain ⟨before, rest, whole, left⟩ := Tables.split_at present
  apply Books.flushAtThreshold
  apply books.settle
  · intro entry member
    exact member
  · rw [all, left]
    simp only [pending, whole, List.flatMap_append, List.flatMap_cons, List.append_assoc]
    exact List.perm_append_comm_assoc _ _ _
  · intro other member
    exact (books.flights other (List.mem_of_mem_eraseIdx member)).settle entries
  · exact honest

/-- Rows that landed may be resolved. -/
theorem Books.honest_rows (books : Books first s) {flush : Flush}
    (present : s.flights[place]? = some flush) (landed : flush.landed = true) :
    Honest s (settleRows flush.batch (.ok ())) := by
  intro promise row resolved known
  have sound := books.flights flush (List.mem_of_getElem? present)
  obtain ⟨entry, member, same⟩ := List.mem_map.mp resolved
  obtain rfl : entry.promise = promise := congrArg Prod.fst same
  obtain rfl : entry.log = row := by
    simpa using (sound.rows entry member).symm.trans known
  exact sound.recorded landed entry member

/-- Events that are published may be resolved: they were made for no row. -/
theorem Books.honest_events (books : Books first s) {flush : Flush}
    (present : s.flights[place]? = some flush) :
    Honest s (settleEvents flush.events (.ok ())) := by
  intro promise row resolved known
  have sound := books.flights flush (List.mem_of_getElem? present)
  obtain ⟨event, member, same⟩ := List.mem_map.mp resolved
  obtain rfl : event = promise := congrArg Prod.fst same
  have none_known := sound.publishes event member
  rw [known] at none_known
  cases none_known

/-- An insert that takes effect keeps the books. -/
theorem Books.lands (books : Books first s) (taken : lands s place = some after) :
    Books first after := by
  obtain ⟨flush, present, _, _, rfl⟩ := lands_cases taken
  obtain ⟨before, rest, whole, _, replaced⟩ := Tables.split_set present
  have more : ∀ stored ∈ s.table,
      stored ∈ insertMessageLogs s.table (flush.batch.map BufferedLog.log) :=
    fun stored member => mem_insertNew member
  have own := books.flights flush (List.mem_of_getElem? present)
  refine ⟨?_, ?_, books.rows, books.publishes, ?_, ?_, books.calls⟩
  · apply books.grown.insert
    intro row listed
    obtain ⟨entry, member, rfl⟩ := List.mem_map.mp listed
    exact List.mem_of_getElem? (own.rows entry member)
  · apply books.account.regroup
    apply List.Perm.of_eq
    rw [pending, pending, replaced, whole]
    simp [Flush.unsettled]
  · apply Tables.all_set
    · intro other member
      have sound := books.flights other member
      refine ⟨sound.rows, sound.publishes, ?_, sound.answered⟩
      intro landed entry listed
      exact (sound.recorded landed entry listed).grow more
    · refine ⟨own.rows, own.publishes, ?_, own.answered⟩
      intro _ entry listed
      exact recorded_insert (List.mem_map_of_mem listed)
  · intro promise row resolved known
    exact (books.honest promise row resolved known).grow more

/-- Resolving the rows of a flush keeps the books. -/
theorem Books.inserted (books : Books first s) (taken : inserted limits s place = some after) :
    Books first after := by
  obtain ⟨flush, present, landed, unwritten, ends⟩ := inserted_cases taken
  have honest := books.honest_rows present landed
  rcases ends with ⟨nothing, rfl⟩ | rfl
  · apply books.leave present _ honest
    simp [Flush.unsettled, unwritten, nothing]
  · obtain ⟨before, rest, whole, _, replaced⟩ := Tables.split_set present
    apply books.settle
    · intro entry member
      exact member
    · rw [pending, pending, replaced, whole]
      simp only [settleRows_promises, Flush.unsettled, unwritten, List.flatMap_append,
        List.flatMap_cons, List.append_assoc, Bool.false_eq_true, ↓reduceIte, List.nil_append]
      exact List.perm_append_comm_assoc _ _ _
    · apply Tables.all_set
      · intro other member
        exact (books.flights other member).settle _
      · have own := (books.flights flush (List.mem_of_getElem? present)).settle
          (settleRows flush.batch (.ok ()))
        refine ⟨own.rows, own.publishes, own.recorded, ?_⟩
        intro _ entry member
        rw [List.map_append, settleRows_promises]
        exact List.mem_append_right _ (List.mem_map_of_mem member)
    · exact honest

/-- A failed insert keeps the books. -/
theorem Books.insertFails (books : Books first s) {error : Text}
    (taken : insertFails limits s place error = some after) : Books first after := by
  obtain ⟨flush, present, unwritten, rfl⟩ := insertFails_cases taken
  apply books.leave present _ (honest_rejectAll flush error)
  simp [rejectAll, Flush.unsettled, unwritten]

/-- Publishing keeps the books. -/
theorem Books.published (books : Books first s) (taken : published limits s place = some after) :
    Books first after := by
  obtain ⟨flush, present, written, rfl⟩ := published_cases taken
  apply books.leave present _ (books.honest_events present)
  simp [Flush.unsettled, written]

/-- What is rejected after it was resolved stays resolved. -/
theorem Books.reject_written (books : Books first s) {flush : Flush}
    (present : s.flights[place]? = some flush) (written : flush.written = true) (error : Text) :
    Events.leave limits s place (rejectAll flush error) =
      Events.leave limits s place (settleEvents flush.events (.error (.failed error))) := by
  have sound := books.flights flush (List.mem_of_getElem? present)
  have void : settleAll s.settled (settleRows flush.batch (.error (.failed error))) =
      s.settled := by
    apply settleAll_again
    intro entry listed
    obtain ⟨row, member, rfl⟩ := List.mem_map.mp listed
    exact sound.answered written row member
  have same : settleAll s.settled (rejectAll flush error) =
      settleAll s.settled (settleEvents flush.events (.error (.failed error))) := by
    rw [rejectAll, settleAll_append, void]
  rw [Events.leave, Events.leave, same]

/-- Events that cannot be published are rejected, and the books are kept. -/
theorem Books.publishFails (books : Books first s) {error : Text}
    (taken : publishFails limits s place error = some after) : Books first after := by
  obtain ⟨flush, present, written, rfl⟩ := publishFails_cases taken
  rw [books.reject_written present written error]
  apply books.leave present
  · simp [Flush.unsettled, written]
  · intro promise row resolved _
    obtain ⟨_, _, same⟩ := List.mem_map.mp resolved
    cases congrArg Prod.snd same

/-- An acknowledged event is one whose call resolved. -/
theorem acknowledge_cases (taken : acknowledge s place = some after) :
    ∃ call ∈ s.calls, call.resolved s.settled = true ∧
      after = { s with acknowledged := s.acknowledged ++ [call.event] } := by
  unfold acknowledge at taken
  cases present : s.calls[place]? with
  | none => simp [present] at taken
  | some call =>
    by_cases resolved : call.resolved s.settled = true
    · simp only [present, resolved, ↓reduceIte, Option.some.injEq] at taken
      exact ⟨call, List.mem_of_getElem? present, resolved, taken.symm⟩
    · simp [present, resolved] at taken

/-- Acknowledging changes nothing in the books. -/
theorem Books.acknowledge (books : Books first s) (taken : acknowledge s place = some after) :
    Books first after := by
  obtain ⟨call, _, _, rfl⟩ := acknowledge_cases taken
  refine ⟨books.grown, books.account, books.rows, books.publishes, ?_, books.honest, books.calls⟩
  intro flush member
  have sound := books.flights flush member
  exact ⟨sound.rows, sound.publishes, sound.recorded, sound.answered⟩

/-- Every turn keeps the books. -/
theorem Books.step (books : Books first s) {action : Action}
    (taken : step limits s action = some after) : Books first after := by
  cases action with
  | process event =>
    obtain rfl := Option.some.inj taken
    exact books.process event
  | resume =>
    obtain rfl := Option.some.inj taken
    exact books.resume
  | interval =>
    by_cases nothing : NothingToFlush s
    · simp [Events.step, nothing] at taken
    · obtain rfl : Events.flushLogs s = after := by
        simpa [Events.step, nothing] using taken
      exact books.flushLogs
  | lands place => exact books.lands taken
  | inserted place => exact books.inserted taken
  | insertFails place error => exact books.insertFails taken
  | published place => exact books.published taken
  | publishFails place error => exact books.publishFails taken
  | acknowledge place => exact books.acknowledge taken

end Notifkit.Events
