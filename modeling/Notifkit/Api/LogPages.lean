import Notifkit.Api.NotificationLogs

/-!
# Following the log's cursor

The matching rows, newest first, are one list, and a page is a walk over the next rows of it: the
batches put together are a stretch of the list, and what was listed earlier are the tasks of the
rows before it. So the pages are those of grouped rows, and find every task exactly when each page's
tasks and the one behind them begin within the rows a page scans.
-/

namespace Notifkit.Api.NotificationLogs

open GroupedPages Pipeline

/-- The value a cursor carries. -/
def LogFormats.cursorOf (formats : LogFormats) (row : MessageLog) : Json :=
  .arr [.str (formats.timestampText row.timestamp), .str (Uuid.text row.id)]

/-- The cursor of a row. -/
def LogFormats.cursorText (formats : LogFormats) (row : MessageLog) : Text :=
  formats.encodeLogCursor (formats.timestampText row.timestamp) (Uuid.text row.id)

/-- What is documented of the texts of a table's rows: they are read back as they were written. -/
structure LogFormats.Reads (formats : LogFormats) (logs : MessageLogs) : Prop where
  timestamps : ∀ row ∈ logs.rows,
    formats.timestamptz (formats.timestampText row.timestamp) = some row.timestamp
  dates : ∀ row ∈ logs.rows, formats.datable (formats.timestampText row.timestamp) = true
  json : ∀ row ∈ logs.rows, formats.toJsonText.Reads (formats.cursorOf row)
  bytes : ∀ row ∈ logs.rows, formats.fromUtf8 (utf8 (formats.stringify (formats.cursorOf row))) =
    formats.stringify (formats.cursorOf row)
  brackets : ∀ row ∈ logs.rows, ∃ rest, formats.stringify (formats.cursorOf row) = '[' :: rest

section Cursors

variable {formats : LogFormats} {logs : MessageLogs} {row : MessageLog}

/-- An id has the form a cursor asks for. -/
theorem LogFormats.hexDashes_text (id : Uuid) : hexDashes id.text = true := by
  obtain ⟨long, hex⟩ := Uuid.hex_of_isUuid (Uuid.isUuid_text id)
  rw [hexDashes, Bool.and_eq_true, decide_eq_true_eq, List.all_eq_true]
  refine ⟨long, fun char member => ?_⟩
  rw [Bool.or_eq_true, decide_eq_true_eq]
  exact hex char member

/-- The cursor of a row leads back to its position. -/
theorem LogFormats.Reads.decode (reads : formats.Reads logs) (member : row ∈ logs.rows) :
    formats.decodeLogCursor (some (formats.cursorText row)) =
      some (some (formats.positionOf row)) := by
  obtain ⟨rest, bracket⟩ := reads.brackets row member
  have letters : ∃ more, formats.cursorText row = 'W' :: more := by
    unfold LogFormats.cursorText LogFormats.encodeLogCursor
    change ∃ more, Base64url.encode (utf8 (formats.stringify (formats.cursorOf row))) = _
    rw [bracket]
    exact Base64url.encode_cons 0x5B (utf8 rest)
  obtain ⟨more, begins⟩ := letters
  have real : truthy (some (formats.cursorText row)) = some (formats.cursorText row) := by
    rw [begins]
    rfl
  have plain : (formats.cursorText row).all Char.isDigit = false := by
    rw [begins]
    rfl
  have read : formats.parse (formats.fromUtf8 (Base64url.decode (formats.cursorText row))) =
      some (formats.cursorOf row) := by
    unfold LogFormats.cursorText LogFormats.encodeLogCursor
    rw [Base64url.decode_encode]
    exact (congrArg formats.parse (reads.bytes row member)).trans (reads.json row member)
  unfold LogFormats.decodeLogCursor
  rw [real]
  simp only [plain, read, LogFormats.cursorOf, reads.dates row member, hexDashes_text]
  rfl

/-- The position of a row is its place. -/
theorem LogFormats.Reads.keyOf (reads : formats.Reads logs) (member : row ∈ logs.rows) :
    formats.keyOf (formats.positionOf row) = some row.key := by
  unfold LogFormats.keyOf LogFormats.positionOf
  rw [reads.timestamps row member, Uuid.read_text]
  rfl

end Cursors

/-- The rows a listing goes through, newest first. -/
def MessageLogs.matching (logs : MessageLogs) (condition : MessageLog → Bool) : List MessageLog :=
  newestFirst MessageLog.key (logs.rows.filter condition)

section Rows

variable {logs : MessageLogs} {condition : MessageLog → Bool} {row : MessageLog}

theorem MessageLogs.mem_matching :
    row ∈ logs.matching condition ↔ row ∈ logs.rows ∧ condition row = true := by
  rw [MessageLogs.matching, mem_newestFirst, List.mem_filter]

/-- No two rows stand at one place. -/
theorem MessageLogs.keys_distinct : (logs.rows.map MessageLog.key).Nodup := by
  apply List.pairwise_map.mpr
  refine (List.pairwise_map.mp logs.distinct).imp fun {one two} differ same => differ ?_
  exact congrArg (fun key : RowKey => (ofLex key).2) same

theorem MessageLogs.matching_sorted :
    (logs.matching condition).Pairwise fun one two => two.key < one.key :=
  newestFirst_sorted (logs.keys_distinct.sublist (List.filter_sublist.map _))

/-- A query reads a part of these rows. -/
theorem MessageLogs.select_eq (within : RowKey → Bool) (limit : Nat) :
    logs.select condition within limit =
      ((logs.matching condition).filter fun row => within row.key).take limit := by
  have distinct : ((logs.rows.filter condition).map MessageLog.key).Nodup :=
    logs.keys_distinct.sublist (List.filter_sublist.map _)
  have parts : (logs.rows.filter fun row => condition row && within row.key) =
      (logs.rows.filter condition).filter fun row => within row.key := by
    rw [List.filter_filter]
    exact List.filter_congr fun row _ => Bool.and_comm _ _
  rw [MessageLogs.select, parts, newestFirst_filter distinct, MessageLogs.matching]

/-- Where the rows divide, those from a row on are at or behind it. -/
theorem MessageLogs.matching_split {before rest : List MessageLog}
    (split : logs.matching condition = before ++ row :: rest) :
    (logs.matching condition).filter (fun other => other.key ≤ row.key) = row :: rest ∧
      (logs.matching condition).filter (fun other => other.key < row.key) = rest := by
  have sorted : (before ++ row :: rest).Pairwise fun one two => two.key < one.key :=
    split ▸ logs.matching_sorted
  obtain ⟨_, behind, ahead⟩ := List.pairwise_append.mp sorted
  obtain ⟨below, _⟩ := List.pairwise_cons.mp behind
  have above : ∀ other ∈ before, row.key < other.key :=
    fun other inside => ahead other inside row List.mem_cons_self
  rw [split, List.filter_append, List.filter_append]
  constructor
  · rw [List.filter_eq_nil_iff.mpr, List.nil_append, List.filter_eq_self.mpr]
    · intro other inside
      rcases List.mem_cons.mp inside with rfl | later
      · exact decide_eq_true (le_refl _)
      · exact decide_eq_true (le_of_lt (below other later))
    · intro other inside
      simpa using above other inside
  · rw [List.filter_eq_nil_iff.mpr, List.nil_append, List.filter_cons_of_neg (by simp),
      List.filter_eq_self.mpr]
    · intro other inside
      exact decide_eq_true (below other inside)
    · intro other inside
      simpa using le_of_lt (above other inside)

/-- The rows above a row are those before it. -/
theorem MessageLogs.mem_before {before rest : List MessageLog} {other : MessageLog}
    (split : logs.matching condition = before ++ row :: rest) :
    other ∈ before ↔ other ∈ logs.matching condition ∧ row.key < other.key := by
  have sorted : (before ++ row :: rest).Pairwise fun one two => two.key < one.key :=
    split ▸ logs.matching_sorted
  constructor
  · intro inside
    rw [split]
    exact ⟨List.mem_append_left _ inside,
      (List.pairwise_append.mp sorted).2.2 other inside row List.mem_cons_self⟩
  · rintro ⟨member, above⟩
    have behind := (matching_split split).1
    rw [split] at member
    refine (List.mem_append.mp member).resolve_right fun later => ?_
    rw [← behind] at later
    exact absurd (of_decide_eq_true (List.mem_filter.mp later).2) (not_le_of_gt above)

end Rows

section Rounds

variable {formats : LogFormats} {logs : MessageLogs} {condition : MessageLog → Bool}
  {limit : Nat} {seen : List Text}

/-- A listing agrees with what a walk has filled. -/
structure Listing.Agrees (formats : LogFormats) (listing : Listing)
    (filled : List Text × Option MessageLog) : Prop where
  order : listing.order = filled.1
  nextCursor : listing.nextCursor = filled.2.map formats.cursorText

theorem Listing.order_push (listing : Listing) (row : MessageLog) :
    (listing.push row).order = listing.order := by
  unfold Listing.push Listing.order
  rw [List.map_map]
  refine List.map_congr_left fun task _ => ?_
  rw [Function.comp_apply]
  split
  · rfl
  · rfl

/-- Taking in a batch is a part of the walk. -/
theorem Listing.takeIn_agrees {earlier : List Text} {batch : List MessageLog}
    (same : ∀ row ∈ batch, row.taskId ∈ earlier ↔ row.taskId ∈ seen) (listing : Listing)
    (going : listing.nextCursor = none) :
    (listing.takeIn formats limit earlier batch).Agrees formats
      (fill MessageLog.taskId limit seen listing.order batch) := by
  induction batch generalizing listing with
  | nil => exact ⟨rfl, going⟩
  | cons row rest inductionHypothesis =>
    have rest' := inductionHypothesis fun other later => same other (List.mem_cons_of_mem _ later)
    have here := same row List.mem_cons_self
    rw [Listing.takeIn]
    by_cases old : row.taskId ∈ seen
    · rw [if_pos (here.mpr old), fill_known (.inl old)]
      exact rest' listing going
    · rw [if_neg fun listed => old (here.mp listed)]
      by_cases known : row.taskId ∈ listing.order
      · rw [if_pos known, fill_known (.inr known), ← listing.order_push row]
        exact rest' (listing.push row) going
      · rw [if_neg known, fill_fresh fun either => either.elim old known]
        by_cases full : listing.order.length = limit
        · rw [if_pos full, if_pos full]
          exact ⟨rfl, rfl⟩
        · rw [if_neg full, if_neg full]
          have longer : listing.order ++ [row.taskId] = Listing.order
              { listing with rowsByTask := listing.rowsByTask ++ [{ first := row }] } := by
            unfold Listing.order
            rw [List.map_append]
            rfl
          rw [longer]
          exact rest' _ going

/-- What the first rounds have found out, whatever part of the log they are at. -/
structure Scans (formats : LogFormats) (logs : MessageLogs) (condition : MessageLog → Bool)
    (scanFrom : Option Position) (inclusive : Bool) (rest : List MessageLog) : Prop where
  suffix : rest <:+ logs.matching condition
  bound : ∃ within, formats.bound scanFrom inclusive = some within ∧
    (logs.matching condition).filter (fun row => within row.key) = rest

/-- Behind a batch the scan goes on behind its last row. -/
theorem Scans.after {scanFrom : Option Position} {inclusive : Bool} {rest front : List MessageLog}
    {last : MessageLog} {behind : List MessageLog} (reads : formats.Reads logs)
    (scans : Scans formats logs condition scanFrom inclusive rest)
    (split : rest = front ++ last :: behind) :
    Scans formats logs condition (some (formats.positionOf last)) false behind := by
  obtain ⟨before, whole⟩ := scans.suffix
  rw [split, ← List.append_assoc] at whole
  have member : last ∈ logs.rows := by
    have found : last ∈ logs.matching condition := by
      rw [← whole]
      exact List.mem_append_right _ List.mem_cons_self
    exact (MessageLogs.mem_matching.mp found).1
  refine ⟨⟨before ++ front ++ [last], ?_⟩, fun key => key < last.key, ?_, ?_⟩
  · rw [List.append_assoc, List.singleton_append, whole]
  · unfold LogFormats.bound
    dsimp only
    rw [reads.keyOf member]
    rfl
  · exact (MessageLogs.matching_split whole.symm).2

/-- A page that has its cursor looks at no further rows. -/
theorem rounds_done {batchSize : Nat} {startKey : Option RowKey} {listing : Listing}
    (done : listing.nextCursor.isSome = true) (count : Nat) (scanFrom : Option Position)
    (inclusive : Bool) :
    rounds formats logs condition limit batchSize startKey count listing scanFrom inclusive =
      some listing := by
  cases count with
  | zero => rfl
  | succ count => exact if_pos done

/-- The rounds walk over the next rows, so many batches of them at most. -/
theorem rounds_agrees {batchSize : Nat} {startKey : Option RowKey} (reads : formats.Reads logs)
    (positive : 0 < batchSize)
    (earlier : ∀ fresh task, task ∈ listedEarlier logs condition startKey fresh ↔
      task ∈ fresh ∧ task ∈ seen) (count : Nat) :
    ∀ (listing : Listing) (scanFrom : Option Position) (inclusive : Bool)
      (rest : List MessageLog), Scans formats logs condition scanFrom inclusive rest →
      (∀ task ∈ listing.order, task ∉ seen) → listing.order.length ≤ limit →
      listing.nextCursor = none →
      ∃ later, rounds formats logs condition limit batchSize startKey count listing scanFrom
          inclusive = some later ∧
        later.Agrees formats
          (fill MessageLog.taskId limit seen listing.order (rest.take (count * batchSize))) := by
  induction count with
  | zero =>
    intro listing scanFrom inclusive rest _ _ _ going
    refine ⟨listing, rfl, ?_⟩
    rw [Nat.zero_mul, List.take_zero]
    exact ⟨rfl, going⟩
  | succ count inductionHypothesis =>
    intro listing scanFrom inclusive rest scans fresh room going
    obtain ⟨within, bound, part⟩ := scans.bound
    have batch : logs.select condition within batchSize = rest.take batchSize := by
      rw [MessageLogs.select_eq, part]
    have agrees : (listing.takeIn formats limit (listedEarlier logs condition startKey
        (((rest.take batchSize).map MessageLog.taskId).dedup.filter
          fun task => task ∉ listing.order)) (rest.take batchSize)).Agrees formats
        (fill MessageLog.taskId limit seen listing.order (rest.take batchSize)) := by
      apply Listing.takeIn_agrees _ listing going
      intro row member
      rw [earlier, List.mem_filter, List.mem_dedup, decide_eq_true_eq]
      constructor
      · exact fun both => both.2
      · exact fun old =>
          ⟨⟨List.mem_map_of_mem member, fun listed => fresh _ listed old⟩, old⟩
    rw [rounds, going, if_neg (by simp), bound]
    simp only [Option.bind_eq_bind, Option.bind_some, batch]
    generalize listing.takeIn formats limit _ (rest.take batchSize) = next at agrees ⊢
    have parts : rest.take ((count + 1) * batchSize) =
        rest.take batchSize ++ (rest.drop batchSize).take (count * batchSize) := by
      rw [Nat.add_mul, Nat.one_mul, Nat.add_comm, List.take_add]
    split
    next short =>
      rw [List.length_take] at short
      have all : rest.drop batchSize = [] := List.drop_eq_nil_of_le (by omega)
      rw [parts, all, List.take_nil, List.append_nil]
      exact ⟨next, rfl, agrees⟩
    next full =>
      rw [List.length_take] at full
      have some' : rest.take batchSize ≠ [] := by
        rw [Ne, List.take_eq_nil_iff]
        rintro (none | none)
        · omega
        · rw [none, List.length_nil] at full
          omega
      obtain ⟨front, last, ends⟩ := (List.eq_nil_or_concat' _).resolve_left some'
      have split : rest = front ++ last :: rest.drop batchSize := by
        rw [← List.singleton_append, ← List.append_assoc, ← ends, List.take_append_drop]
      rw [parts, fill_append]
      rw [ends, List.getLast?_concat]
      dsimp only
      rw [← ends]
      by_cases done : next.nextCursor.isSome = true
      · refine ⟨next, rounds_done done _ _ _, ?_⟩
        rw [agrees.nextCursor, Option.isSome_map] at done
        rw [if_pos done]
        exact agrees
      · have going' : next.nextCursor = none := Option.not_isSome_iff_eq_none.mp done
        have more := inductionHypothesis next (some (formats.positionOf last)) false
          (rest.drop batchSize) (scans.after reads split)
        rw [agrees.nextCursor, Option.isSome_map] at done
        rw [if_neg done, ← agrees.order]
        apply more
        · rw [agrees.order]
          exact fill_unseen fresh room
        · rw [agrees.order]
          exact fill_room room
        · exact going'

end Rounds

section Pages

variable {formats : LogFormats} {logs : MessageLogs} {projectId : Text} {query : QueryParams}

theorem readFilter_withCursor (cursor : Option Text) :
    readFilter (withCursor query cursor) = readFilter query := by
  have other : ∀ key, key ≠ "cursor".toList →
      getQueryParam (withCursor query cursor) key = getQueryParam query key :=
    fun _ apart => getQueryParam_withCursor query cursor apart
  unfold readFilter
  dsimp only
  rw [other "templateId".toList (by decide), other "workflowInstanceId".toList (by decide),
    other "channel".toList (by decide), other "status".toList (by decide),
    other "taskId".toList (by decide), other "campaign".toList (by decide),
    other "campaignId".toList (by decide), other "search".toList (by decide)]

/-- The rows one page scans at most. -/
def scanned (limit : Nat) : Nat := 50 * max (limit * 4) 50

/-- An entry of a page is a row of its task. -/
theorem TaskRows.latest_taskId (task : TaskRows) : task.latest.taskId = task.first.taskId := by
  unfold TaskRows.latest
  cases found : (task.first :: task.more).find? fun row => row.status ≠ "dispatched".toList with
  | none => rfl
  | some row =>
    rcases List.mem_cons.mp (List.mem_of_find?_eq_some found) with rfl | inside
    · rfl
    · exact task.own row inside

/-- What a request's cursor comes to: a place in the rows, and the tasks that were listed before. -/
structure Starts (formats : LogFormats) (logs : MessageLogs) (condition : MessageLog → Bool)
    (cursor : Option Text) (before rest : List MessageLog) (start : Option Position)
    (startKey : Option RowKey) : Prop where
  decoded : formats.decodeLogCursor cursor = some start
  key : start.mapM formats.keyOf = some startKey
  scans : Scans formats logs condition start true rest
  earlier : ∀ fresh task, task ∈ listedEarlier logs condition startKey fresh ↔
    task ∈ fresh ∧ task ∈ before.map MessageLog.taskId

variable {condition : MessageLog → Bool}

/-- A first page starts with the newest row. -/
theorem starts_first :
    Starts formats logs condition none [] (logs.matching condition) none none where
  decoded := rfl
  key := rfl
  scans := ⟨List.suffix_refl _, fun _ => true, rfl, List.filter_true _⟩
  earlier fresh task := by simp [listedEarlier]

/-- A later page starts with the row its cursor was made of. -/
theorem starts_later {row : MessageLog} {before more : List MessageLog}
    (reads : formats.Reads logs) (split : logs.matching condition = before ++ row :: more) :
    Starts formats logs condition (some (formats.cursorText row)) before (row :: more)
      (some (formats.positionOf row)) (some row.key) := by
  have inside : row ∈ logs.matching condition := by
    rw [split]
    exact List.mem_append_right _ List.mem_cons_self
  have member : row ∈ logs.rows := (MessageLogs.mem_matching.mp inside).1
  have place := reads.keyOf member
  constructor
  · exact reads.decode member
  · simp [place]
  · refine ⟨⟨before, split.symm⟩, fun key => key ≤ row.key, ?_, (logs.matching_split split).1⟩
    unfold LogFormats.bound
    dsimp only
    rw [place]
    rfl
  · intro fresh task
    unfold listedEarlier
    dsimp only
    rw [List.mem_dedup, List.mem_map, List.mem_map]
    constructor
    · rintro ⟨other, found, rfl⟩
      rw [List.mem_filter, Bool.and_eq_true, Bool.and_eq_true] at found
      obtain ⟨listed, ⟨meets, wanted⟩, above⟩ := found
      refine ⟨of_decide_eq_true wanted, other, ?_, rfl⟩
      exact (MessageLogs.mem_before split).mpr
        ⟨MessageLogs.mem_matching.mpr ⟨listed, meets⟩, of_decide_eq_true above⟩
    · rintro ⟨wanted, other, earlier, rfl⟩
      obtain ⟨found, above⟩ := (MessageLogs.mem_before split).mp earlier
      obtain ⟨listed, meets⟩ := MessageLogs.mem_matching.mp found
      refine ⟨other, ?_, rfl⟩
      rw [List.mem_filter, Bool.and_eq_true, Bool.and_eq_true]
      exact ⟨listed, ⟨meets, decide_eq_true wanted⟩, decide_eq_true above⟩

/-- A page walks over the rows from its cursor on. -/
theorem getNotificationLogs_fill {filter : LogFilter} {cursor : Option Text}
    {before rest : List MessageLog} {start : Option Position} {startKey : Option RowKey}
    (reads : formats.Reads logs) (accepted : readFilter query = some filter)
    (starts : Starts formats logs (conditions projectId filter) cursor before rest start startKey) :
    ∃ page, getNotificationLogs formats logs projectId (withCursor query cursor) = some page ∧
      (page.logs.map MessageLog.taskId, page.nextCursor) =
        let filled := fill MessageLog.taskId (parseLimit query 50 100)
          (before.map MessageLog.taskId) [] (rest.take (scanned (parseLimit query 50 100)))
        (filled.1, filled.2.map formats.cursorText) := by
  have positive : 0 < max (parseLimit query 50 100 * 4) 50 := by omega
  obtain ⟨listing, ran, agrees⟩ : ∃ later, rounds _ _ _ (parseLimit query 50 100) _ _ _ _ _ _ =
      some later ∧ _ := rounds_agrees reads positive starts.earlier 50 {} start true rest
    starts.scans (List.forall_mem_nil _) (Nat.zero_le _) rfl
  refine ⟨⟨listing.rowsByTask.map TaskRows.latest, listing.nextCursor⟩, ?_, ?_⟩
  · unfold getNotificationLogs
    rw [getQueryParam_cursor, starts.decoded, readFilter_withCursor, accepted, parseLimit_withCursor]
    simp only [Option.bind_eq_bind, Option.bind_some, starts.key, ran]
    rfl
  · have tasks : (listing.rowsByTask.map TaskRows.latest).map MessageLog.taskId =
        listing.order := by
      rw [List.map_map]
      exact List.map_congr_left fun task _ => task.latest_taskId
    rw [tasks, agrees.order, agrees.nextCursor]
    rfl

/-- Follow the cursors from one until there is none. -/
inductive Follows (formats : LogFormats) (logs : MessageLogs) (projectId : Text)
    (query : QueryParams) : Option Text → List LogPage → Prop
  | last {cursor : Option Text} {page : LogPage}
      (answer : getNotificationLogs formats logs projectId (withCursor query cursor) = some page)
      (ends : page.nextCursor = none) : Follows formats logs projectId query cursor [page]
  | next {cursor : Option Text} {page : LogPage} {next : Text} {pages : List LogPage}
      (answer : getNotificationLogs formats logs projectId (withCursor query cursor) = some page)
      (continues : page.nextCursor = some next)
      (more : Follows formats logs projectId query (some next) pages) :
      Follows formats logs projectId query cursor (page :: pages)

/-- The tasks of some pages, as they are listed. -/
def listedTasks (pages : List LogPage) : List Text :=
  (pages.map fun page => page.logs.map MessageLog.taskId).flatten

/-- There is one way to follow the cursors. -/
theorem Follows.unique {cursor : Option Text} {pages other : List LogPage}
    (one : Follows formats logs projectId query cursor pages)
    (two : Follows formats logs projectId query cursor other) : pages = other := by
  induction one generalizing other with
  | last answer ends =>
    cases two with
    | last answer' _ =>
      rw [answer] at answer'
      cases answer'
      rfl
    | next answer' continues _ =>
      rw [answer] at answer'
      cases answer'
      rw [ends] at continues
      cases continues
  | next answer continues _ inductionHypothesis =>
    cases two with
    | last answer' ends =>
      rw [answer] at answer'
      cases answer'
      rw [ends] at continues
      cases continues
    | next answer' continues' more' =>
      rw [answer] at answer'
      cases answer'
      rw [continues] at continues'
      cases continues'
      rw [inductionHypothesis more']

/-- The pages a client gets are those of the rows, grouped by task. -/
theorem follows_of_pages {filter : LogFilter} {cursor : Option Text} {seen : List Text}
    {before rest : List MessageLog} {start : Option Position} {startKey : Option RowKey}
    {orders : List (List Text)} (reads : formats.Reads logs)
    (accepted : readFilter query = some filter)
    (listing : GroupedPages.Pages MessageLog.taskId (parseLimit query 50 100)
      (scanned (parseLimit query 50 100)) seen rest orders)
    (seen' : seen = before.map MessageLog.taskId)
    (split : logs.matching (conditions projectId filter) = before ++ rest)
    (starts : Starts formats logs (conditions projectId filter) cursor before rest start
      startKey) :
    ∃ pages, Follows formats logs projectId query cursor pages ∧
      listedTasks pages = orders.flatten := by
  induction listing generalizing cursor before start startKey with
  | @last seen rest order filled =>
    subst seen'
    obtain ⟨page, answer, agrees⟩ := getNotificationLogs_fill reads accepted starts
    rw [filled, Prod.mk.injEq] at agrees
    refine ⟨[page], .last answer agrees.2, ?_⟩
    exact congrArg (fun order => [order].flatten) agrees.1
  | @next seen front rest row order orders filled _ _ inductionHypothesis =>
    subst seen'
    obtain ⟨page, answer, agrees⟩ := getNotificationLogs_fill reads accepted starts
    rw [filled, Prod.mk.injEq] at agrees
    rw [← List.append_assoc] at split
    have groups : before.map MessageLog.taskId ++ front.map MessageLog.taskId =
        (before ++ front).map MessageLog.taskId := List.map_append.symm
    obtain ⟨pages, more, listed⟩ := inductionHypothesis groups split (starts_later reads split)
    refine ⟨page :: pages, .next answer agrees.2 more, ?_⟩
    rw [listedTasks, List.map_cons, List.flatten_cons, agrees.1, List.flatten_cons]
    exact congrArg (order ++ ·) listed

/-- Every task of some rows once, in the order of its newest row. -/
structure ListsAll (rows : List MessageLog) (tasks : List Text) : Prop where
  once : tasks.Nodup
  every : ∀ task, task ∈ tasks ↔ ∃ row ∈ rows, row.taskId = task
  order : tasks.Pairwise fun one two => ∃ row ∈ rows, row.taskId = one ∧
    ∀ other ∈ rows, other.taskId = two → other.key < row.key

/-- The first rows of the tasks list them all. -/
theorem listsAll_newcomers :
    ListsAll (logs.matching condition)
      ((newcomers MessageLog.taskId [] (logs.matching condition)).map MessageLog.taskId) where
  once := newcomers_distinct _ _
  every task := by
    rw [mem_newcomers_groups, List.mem_map]
    exact and_iff_left List.not_mem_nil
  order := by
    rw [List.pairwise_map]
    have sorted : (newcomers MessageLog.taskId [] (logs.matching condition)).Pairwise
        fun one two => two.key < one.key :=
      logs.matching_sorted.sublist (newcomers_sublist _ _)
    refine sorted.imp_of_mem fun {one two} member member' below => ?_
    refine ⟨one, (newcomers_sublist _ _).subset member, rfl, fun other inside same => ?_⟩
    obtain ⟨before, rest, split, others⟩ := newcomers_first member'
    have behind := (logs.matching_split split).1
    have later : other ∈ two :: rest := by
      rw [split] at inside
      refine (List.mem_append.mp inside).resolve_left fun early => ?_
      exact others other early same
    rw [← behind] at later
    exact lt_of_le_of_lt (of_decide_eq_true (List.mem_filter.mp later).2) below

/-- Tasks listed in part, in order, are all tasks when each is among them. -/
theorem eq_of_listsAll {tasks : List Text}
    (part : tasks <+:
      (newcomers MessageLog.taskId [] (logs.matching condition)).map MessageLog.taskId)
    (all : ListsAll (logs.matching condition) tasks) :
    tasks = (newcomers MessageLog.taskId [] (logs.matching condition)).map MessageLog.taskId := by
  refine part.eq_of_length_le ?_
  refine (List.subperm_of_subset (newcomers_distinct _ _) fun task member => ?_).length_le
  exact (all.every task).mpr ((listsAll_newcomers.every task).mp member)

/-- What the database matches; nothing where it refuses the filter. -/
def matchingRows (logs : MessageLogs) (projectId : Text)
    (query : QueryParams) : List MessageLog :=
  match readFilter query with
  | none => []
  | some filter => logs.matching (conditions projectId filter)

/-- Where the database takes the filter, the listing is complete when every page comes far enough. -/
theorem listed_iff {filter : LogFilter} (reads : formats.Reads logs)
    (accepted : readFilter query = some filter) :
    (∃ pages, Follows formats logs projectId query none pages ∧
      ListsAll (matchingRows logs projectId query) (listedTasks pages)) ↔
    InReach (parseLimit query 50 100) (scanned (parseLimit query 50 100))
      (starts MessageLog.taskId [] 0 (matchingRows logs projectId query)) := by
  have rows : matchingRows logs projectId query =
      logs.matching (conditions projectId filter) := by
    rw [matchingRows, accepted]
  have positive : 0 < parseLimit query 50 100 := parseLimit_pos (by decide) (by decide)
  have wide : 0 < scanned (parseLimit query 50 100) := by
    unfold scanned
    omega
  obtain ⟨orders, listing⟩ : ∃ orders, GroupedPages.Pages MessageLog.taskId
      (parseLimit query 50 100) (scanned (parseLimit query 50 100)) []
      (logs.matching (conditions projectId filter)) orders :=
    GroupedPages.Pages.exists_pages positive _ _ _
  obtain ⟨pages, follows, listed⟩ := follows_of_pages reads accepted listing rfl rfl starts_first
  have complete : _ ↔ InReach _ _ (starts _ _ 0 _) :=
    listing.complete positive wide fun _ _ => List.not_mem_nil
  rw [rows, ← complete, ← listed]
  constructor
  · rintro ⟨other, follows', all⟩
    rw [follows'.unique follows] at all
    apply eq_of_listsAll _ all
    rw [listed]
    exact listing.prefix_newcomers
  · intro whole
    refine ⟨pages, follows, ?_⟩
    rw [whole]
    exact listsAll_newcomers

/-- Following the cursors from the first page lists every task with a matching row once, in the
order of its newest row, exactly when the database takes the filter and, with the rows numbered
newest first, the tasks of each page and the one behind them begin within the rows a page scans. -/
theorem log_listed (reads : formats.Reads logs) :
    (∃ pages, Follows formats logs projectId query none pages ∧
      ListsAll (matchingRows logs projectId query) (listedTasks pages)) ↔
    (readFilter query).isSome = true ∧
      InReach (parseLimit query 50 100) (scanned (parseLimit query 50 100))
        (starts MessageLog.taskId [] 0 (matchingRows logs projectId query)) := by
  cases accepted : readFilter query with
  | none =>
    have refused : ∀ cursor,
        getNotificationLogs formats logs projectId (withCursor query cursor) = none := by
      intro cursor
      unfold getNotificationLogs
      rw [readFilter_withCursor, accepted]
      cases formats.decodeLogCursor (getQueryParam (withCursor query cursor) "cursor".toList) with
      | none => rfl
      | some start => rfl
    constructor
    · rintro ⟨pages, follows, _⟩
      cases follows with
      | last answer _ =>
        rw [refused] at answer
        cases answer
      | next answer _ _ =>
        rw [refused] at answer
        cases answer
    · rintro ⟨absent, _⟩
      cases absent
  | some filter =>
    rw [listed_iff reads accepted]
    constructor
    · exact fun reached => ⟨rfl, reached⟩
    · exact fun both => both.2

end Pages

section Samples

/-- How the database writes the first instant of its clock. -/
def newYear : Text := "2000-01-01 00:00:00+00".toList

/-- A pair of texts without quotes, as JSON. -/
def pairText (ts id : Text) : Text :=
  '[' :: '\x22' :: (ts ++ '\x22' :: ',' :: '\x22' :: (id ++ '\x22' :: [']']))

/-- What stands before the next quote. -/
def quoted (text : Text) : Text := text.takeWhile fun char => char ≠ '\x22'

/-- The pair a text stands for. -/
def pairOf (text : Text) : Json :=
  .arr [.str (quoted (text.drop 2)),
    .str (quoted (((text.drop 2).dropWhile fun char => char ≠ '\x22').drop 3))]

theorem pairOf_pairText {ts id : Text} (plain : '\x22' ∉ ts) (plain' : '\x22' ∉ id) :
    pairOf (pairText ts id) = .arr [.str ts, .str id] := by
  have others : ∀ text : Text, '\x22' ∉ text →
      ∀ char ∈ text, decide (char ≠ '\x22') = true := by
    intro text plain char member
    apply decide_eq_true
    rintro rfl
    exact plain member
  have front : ∀ text rest : Text, '\x22' ∉ text → quoted (text ++ '\x22' :: rest) = text := by
    intro text rest plain
    rw [quoted, List.takeWhile_append_of_pos (others text plain)]
    exact List.append_nil _
  unfold pairOf pairText
  rw [List.drop_succ_cons, List.drop_succ_cons, List.drop_zero, front ts _ plain,
    List.dropWhile_append_of_pos (others ts plain)]
  exact congrArg (fun own => Json.arr [.str ts, .str own]) (front id _ plain')

/-- A language and a database that know this instant and pairs of texts without quotes. -/
def newYearFormats : LogFormats where
  stringify
    | .arr [.str ts, .str id] => pairText ts id
    | _ => []
  parse text := if text.head? = some '[' then some (pairOf text) else none
  fromUtf8 bytes := (bytes.toByteArray.utf8Decode?.map Array.toList).getD []
  timestampText _ := newYear
  timestamptz text := if text = newYear then some 0 else none
  datable text := text = newYear
  isoOf _ := none

/-- Rows of this instant are read back. -/
theorem newYear_reads {logs : MessageLogs} (instant : ∀ row ∈ logs.rows, row.timestamp = 0) :
    newYearFormats.Reads logs where
  timestamps row member := by
    rw [instant row member]
    rfl
  dates _ _ := by
    change decide (newYear = newYear) = true
    exact decide_eq_true rfl
  json row _ := by
    have plain : '\x22' ∉ newYear := by decide
    have plain' : '\x22' ∉ Uuid.text row.id := by
      intro inside
      rcases (Uuid.hex_of_isUuid (Uuid.isUuid_text row.id)).2 _ inside with digit | hyphen
      · cases digit
      · cases hyphen
    exact congrArg some (pairOf_pairText plain plain')
  bytes row _ := by
    have decoded : (utf8 (newYearFormats.stringify
        (newYearFormats.cursorOf row))).toByteArray.utf8Decode? =
          some (newYearFormats.stringify (newYearFormats.cursorOf row)).toArray :=
      List.utf8Decode?_utf8Encode
    change ((utf8 _).toByteArray.utf8Decode?.map Array.toList).getD [] = _
    rw [decoded]
    rfl
  brackets _ _ := ⟨_, rfl⟩

/-- A request without a filter. -/
def noFilter : LogFilter := ⟨none, none, none, none, none, none, none⟩

/-- A request for pages of one task. -/
def onePerPage : QueryParams := fun key => if key = "limit".toList then some "1".toList else none

theorem onePerPage_accepted : readFilter onePerPage = some noFilter := by decide +kernel

theorem onePerPage_limit : parseLimit onePerPage 50 100 = 1 := by decide +kernel

section Crowded

variable (count : Nat) (small : 2 * count < 2 ^ 128)

/-- The rows of a campaign, from the newest on: the outcomes of its tasks, their dispatches, and
behind them an older task. -/
def crowdedRow (place : Nat) : MessageLog where
  id := ⟨2 * count - place, by omega⟩
  projectId := "p".toList
  taskId := Nat.toDigits 10 (if place < count then place else place - count)
  channel := .email
  attempt := 1
  kind := if place < count then "attempt".toList else "dispatched".toList
  status := if place < count then "delivered".toList else "dispatched".toList
  timestamp := 0

/-- A log with these rows. -/
def crowdedLogs : MessageLogs where
  rows := (List.range (2 * count + 1)).map (crowdedRow count small)
  distinct := by
    rw [List.map_map]
    refine List.nodup_range.map_on fun one inside two inside' same => ?_
    have places := Fin.mk.inj same
    rw [List.mem_range] at inside inside'
    omega
  unique := by
    rw [List.map_map]
    refine List.nodup_range.map_on fun one inside two inside' same => ?_
    rw [Function.comp_apply, Function.comp_apply, Prod.mk.injEq, Prod.mk.injEq, Prod.mk.injEq]
      at same
    have task := toDigits_inj same.1
    have kind := same.2.2.2
    unfold crowdedRow at kind
    dsimp only at kind
    split at task
    next early =>
      split at task
      next => exact task
      next late =>
        rw [if_pos early, if_neg late] at kind
        cases kind
    next late =>
      split at task
      next early =>
        rw [if_pos early, if_neg late] at kind
        cases kind
      next => omega

theorem crowded_reads : newYearFormats.Reads (crowdedLogs count small) := by
  apply newYear_reads
  intro row member
  obtain ⟨place, _, rfl⟩ := List.mem_map.mp member
  rfl

/-- All of its rows are matched, and in order. -/
theorem crowded_matching :
    matchingRows (crowdedLogs count small) "p".toList onePerPage =
      (crowdedLogs count small).rows := by
  have all : (crowdedLogs count small).rows.filter (conditions "p".toList noFilter) =
      (crowdedLogs count small).rows := by
    rw [List.filter_eq_self]
    intro row member
    obtain ⟨place, _, rfl⟩ := List.mem_map.mp member
    rfl
  unfold matchingRows MessageLogs.matching
  rw [onePerPage_accepted]
  dsimp only
  rw [all]
  apply newestFirst_of_sorted
  unfold crowdedLogs
  dsimp only
  rw [List.pairwise_map]
  refine List.pairwise_lt_range.imp fun {one two} below => ?_
  refine Prod.Lex.toLex_le_toLex.mpr (.inr ⟨rfl, ?_⟩)
  exact Nat.sub_le_sub_left (Nat.le_of_lt below) (2 * count)

/-- The tasks of the campaign begin one behind the other, and the older task behind their rows. -/
theorem crowded_starts :
    starts MessageLog.taskId [] 0 (crowdedLogs count small).rows =
      List.range count ++ [2 * count] := by
  have rows : (crowdedLogs count small).rows =
      (List.range count).map (crowdedRow count small) ++
        ((List.range count).map (fun place => crowdedRow count small (count + place)) ++
          [crowdedRow count small (2 * count)]) := by
    unfold crowdedLogs
    dsimp only
    rw [Nat.two_mul, List.range_succ, List.range_add, List.map_append, List.map_append,
      List.map_map, List.append_assoc]
    rfl
  have early : ∀ place < count, (crowdedRow count small place).taskId = Nat.toDigits 10 place := by
    intro place inside
    unfold crowdedRow
    rw [if_pos inside]
  have late : ∀ place, (crowdedRow count small (count + place)).taskId =
      Nat.toDigits 10 place := by
    intro place
    unfold crowdedRow
    rw [if_neg (by omega), Nat.add_sub_cancel_left]
  have first : ((List.range count).map (crowdedRow count small)).map MessageLog.taskId =
      (List.range count).map (Nat.toDigits 10) := by
    rw [List.map_map]
    exact List.map_congr_left fun place inside => early place (List.mem_range.mp inside)
  have second : ((List.range count).map fun place => crowdedRow count small (count + place)).map
      MessageLog.taskId = (List.range count).map (Nat.toDigits 10) := by
    rw [List.map_map]
    exact List.map_congr_left fun place _ => late place
  have last : (crowdedRow count small (2 * count)).taskId = Nat.toDigits 10 count := by
    rw [Nat.two_mul]
    exact late count
  have fresh : Nat.toDigits 10 count ∉ (List.range count).map (Nat.toDigits 10) := by
    intro listed
    obtain ⟨place, inside, same⟩ := List.mem_map.mp listed
    rw [toDigits_inj same] at inside
    exact absurd (List.mem_range.mp inside) (Nat.lt_irrefl count)
  have distinct : ((List.range count).map (Nat.toDigits 10)).Nodup :=
    List.nodup_range.map fun _ _ => toDigits_inj
  have outcomes : starts MessageLog.taskId [] 0 ((List.range count).map (crowdedRow count small)) =
      List.range count := by
    rw [starts_distinct fun _ _ => List.not_mem_nil]
    · rw [List.length_map, List.length_range, List.range_eq_range']
    · rw [first]
      exact distinct
  rw [rows, starts_append, outcomes, starts_append, starts_known, List.nil_append, starts_fresh]
  · rw [List.length_map, List.length_map, List.length_range, Nat.zero_add, Nat.two_mul]
    rfl
  · rw [last, first, second, List.nil_append, List.mem_append]
    exact fun either => either.elim fresh fresh
  · intro row member
    rw [first, ← second]
    exact List.mem_append_right _ (List.mem_map_of_mem member)

/-- One task a page, the listing gets past so many. -/
theorem crowded_inReach (some' : 0 < count) :
    InReach 1 (scanned 1) (List.range count ++ [2 * count]) ↔ count < 2499 := by
  have wide : scanned 1 = 2500 := rfl
  rw [wide]
  constructor
  · intro all
    have last := all (count - 1) (count - 1) (2 * count)
    rw [Nat.div_one, Nat.one_mul, Nat.sub_add_cancel some',
      List.getElem?_append_left (by rw [List.length_range]; omega),
      List.getElem?_range (by omega), List.getElem?_append_right (by rw [List.length_range]),
      List.length_range, Nat.sub_self] at last
    have near := last rfl rfl
    omega
  · intro fewer index first next here there
    have inside := (List.getElem?_eq_some_iff.mp there).1
    rw [List.length_append, List.length_range, List.length_singleton] at inside
    rw [Nat.div_one, Nat.one_mul, List.getElem?_append_left (by rw [List.length_range]; omega),
      List.getElem?_range (by omega)] at here
    cases here
    by_cases early : index + 1 < count
    · rw [List.getElem?_append_left (by rw [List.length_range]; omega),
        List.getElem?_range early] at there
      cases there
      omega
    · have last : index + 1 = count := by omega
      rw [last, List.getElem?_append_right (by rw [List.length_range]), List.length_range,
        Nat.sub_self] at there
      cases there
      omega

end Crowded

/-- Behind the rows of some two thousand five hundred tasks an older one stays hidden: the page of
the last of them ends with a cursor that is null. -/
theorem log_ends_early :
    ¬ ∀ (formats : LogFormats) (logs : MessageLogs) (projectId : Text) (query : QueryParams),
      formats.Reads logs → (readFilter query).isSome = true →
      ∃ pages, Follows formats logs projectId query none pages ∧
        ListsAll (matchingRows logs projectId query) (listedTasks pages) := by
  intro claimed
  have accepted : (readFilter onePerPage).isSome = true := by
    rw [onePerPage_accepted]
    rfl
  have reads := crowded_reads 2499 (by decide)
  have reached := (listed_iff reads onePerPage_accepted).mp
    (claimed newYearFormats _ "p".toList onePerPage reads accepted)
  rw [crowded_matching, crowded_starts, onePerPage_limit, crowded_inReach 2499 (by decide)]
    at reached
  exact Nat.lt_irrefl 2499 reached

/-- With one task fewer it is found. -/
theorem log_listed_crowded :
    ∃ pages, Follows newYearFormats (crowdedLogs 2498 (by decide)) "p".toList onePerPage none
        pages ∧
      ListsAll (matchingRows (crowdedLogs 2498 (by decide)) "p".toList onePerPage)
        (listedTasks pages) := by
  refine (log_listed (crowded_reads 2498 (by decide))).mpr ⟨?_, ?_⟩
  · rw [onePerPage_accepted]
    rfl
  · rw [crowded_matching, crowded_starts, onePerPage_limit, crowded_inReach 2498 (by decide)]
    decide

end Samples

end Notifkit.Api.NotificationLogs
