import Mathlib.Data.List.Dedup
import Mathlib.Data.Prod.Lex
import Notifkit.Api.QueryParams
import Notifkit.Foundations.Base64url
import Notifkit.Foundations.GroupedPages
import Notifkit.Foundations.JsonTexts
import Notifkit.Foundations.NewestFirst
import Notifkit.Foundations.Patterns
import Notifkit.Foundations.Uuids

/-!
# Paging through the delivery log

The log lists one entry a task, where the task's newest row stands. A page scans rows newest first
in batches and goes on until it is full and has seen the row of a further task: that row is the
cursor. A task that has a row newer than the cursor was listed before.

A page scans fifty batches and no more. A task whose newest row lies behind them is not found, and
if no other is either the listing ends there with tasks unlisted. The pages list everything exactly
when each page's tasks and the one behind them begin within the rows the page scans.
-/

namespace Notifkit.Api.NotificationLogs

open GroupedPages Pipeline

/-- A row of `message_logs`, as far as the listing reads it. -/
structure MessageLog where
  id : Uuid
  projectId : Text
  taskId : Text
  providerMessageId : Option Text := none
  templateId : Option Text := none
  workflowInstanceId : Option Uuid := none
  channel : NotificationChannel
  attempt : Nat
  kind : Text
  status : Text
  campaignId : Option Text := none
  timestamp : Int

/-- `(timestamp, id)` -/
abbrev RowKey := Int ×ₗ Uuid

def MessageLog.key (row : MessageLog) : RowKey := toLex (row.timestamp, row.id)

/-- The table with its constraints: an id is given once, and an attempt has one row of a kind. -/
structure MessageLogs where
  rows : List MessageLog
  distinct : (rows.map MessageLog.id).Nodup
  unique : (rows.map fun row => (row.taskId, row.channel, row.attempt, row.kind)).Nodup

/-- Select the newest rows, up to a number, that meet a condition and lie within bounds. -/
def MessageLogs.select (logs : MessageLogs) (condition : MessageLog → Bool)
    (within : RowKey → Bool) (limit : Nat) : List MessageLog :=
  (newestFirst MessageLog.key
    (logs.rows.filter fun row => condition row && within row.key)).take limit

/-- A place in the log as it travels: a row's full-precision timestamp and id. -/
structure Position where
  ts : Text
  id : Text

/-- What the language and the database make of texts. -/
structure LogFormats extends JsonText where
  /-- `buffer.toString("utf8")` -/
  fromUtf8 : List UInt8 → Text
  /-- `timestamp::text` -/
  timestampText : Int → Text
  /-- `text::timestamptz`, which may fail -/
  timestamptz : Text → Option Int
  /-- `!Number.isNaN(Date.parse(text))` -/
  datable : Text → Bool
  /-- `new Date(Number(text)).toISOString()`, which may throw -/
  isoOf : Text → Option Text

namespace LogFormats

variable (formats : LogFormats)

/-- `encodeLogCursor` -/
def encodeLogCursor (ts id : Text) : Text :=
  Base64url.encode (utf8 (formats.stringify (.arr [.str ts, .str id])))

/-- `/^[0-9a-f-]{36}$/i` -/
def hexDashes (text : Text) : Bool :=
  text.length = 36 && text.all fun char => (Text.hexValue char).isSome || char = '-'

/-- `decodeLogCursor`; absent where it throws. -/
def decodeLogCursor (cursor : Option Text) : Option (Option Position) :=
  match truthy cursor with
  | none => some none
  | some cursor =>
    -- cursors of the first kind were a number of milliseconds
    if cursor.all Char.isDigit then
      (formats.isoOf cursor).map fun ts =>
        some ⟨ts, "ffffffff-ffff-ffff-ffff-ffffffffffff".toList⟩
    else
      match formats.parse (formats.fromUtf8 (Base64url.decode cursor)) with
      | some (.arr (.str ts :: .str id :: _)) =>
        if formats.datable ts && hexDashes id then some (some ⟨ts, id⟩) else some none
      | _ => some none

/-- The place a position names, if the database can read it. -/
def keyOf (position : Position) : Option RowKey := do
  let ts ← formats.timestamptz position.ts
  let id ← Uuid.read position.id
  pure (toLex (ts, id))

/-- The position of a row. -/
def positionOf (row : MessageLog) : Position :=
  ⟨formats.timestampText row.timestamp, Uuid.text row.id⟩

/-- The rows at or behind a position. -/
def bound (scanFrom : Option Position) (inclusive : Bool) : Option (RowKey → Bool) :=
  match scanFrom with
  | none => some fun _ => true
  | some position => (formats.keyOf position).map fun from' key =>
    if inclusive then key ≤ from' else key < from'

end LogFormats

/-- What a request filters by. -/
structure LogFilter where
  templateId : Option Text
  workflowInstanceId : Option Uuid
  channel : Option NotificationChannel
  status : Option Text
  taskId : Option Text
  campaign : Option Text
  search : Option Text
deriving DecidableEq

/-- The filter of a query, in the types of the columns; absent where the database refuses it. -/
def readFilter (query : QueryParams) : Option LogFilter := do
  let text := fun key => (truthy (getQueryParam query key)).mapM storable
  let templateId ← text "templateId".toList
  let workflowInstanceId ←
    (truthy (getQueryParam query "workflowInstanceId".toList)).mapM Uuid.read
  let channel ← (truthy (getQueryParam query "channel".toList)).mapM channelOf
  let status ← text "status".toList
  let taskId ← text "taskId".toList
  let campaign ← ((truthy (getQueryParam query "campaign".toList)).or
    (truthy (getQueryParam query "campaignId".toList))).mapM storable
  let search ← text "search".toList
  pure { templateId, workflowInstanceId, channel, status, taskId, campaign, search }

/-- `conditions` -/
def conditions (projectId : Text) (filter : LogFilter) (row : MessageLog) : Bool :=
  row.projectId = projectId &&
  (filter.templateId.all fun id => row.templateId = some id) &&
  (filter.workflowInstanceId.all fun id => row.workflowInstanceId = some id) &&
  (filter.channel.all fun channel => row.channel = channel) &&
  (filter.status.all fun status => row.status = status) &&
  (filter.taskId.all fun id => row.taskId = id) &&
  (filter.campaign.all fun id => row.campaignId = some id) &&
  filter.search.all fun search =>
    like (contains search) row.taskId || row.templateId.any (like (contains search)) ||
      row.providerMessageId.any (like (contains search)) ||
      row.campaignId.any (like (contains search))

/-- The rows of one task on a page, newest first. -/
structure TaskRows where
  first : MessageLog
  more : List MessageLog := []
  own : ∀ row ∈ more, row.taskId = first.taskId := by intro row inside; cases inside

/-- A further row of the task. -/
def TaskRows.push (task : TaskRows) (row : MessageLog) (same : row.taskId = task.first.taskId) :
    TaskRows where
  first := task.first
  more := task.more ++ [row]
  own other inside := by
    rcases List.mem_append.mp inside with old | new
    · exact task.own other old
    · rw [List.mem_singleton.mp new]
      exact same

/-- The latest outcome, rather than the dispatch that preceded it. -/
def TaskRows.latest (task : TaskRows) : MessageLog :=
  ((task.first :: task.more).find? fun row => row.status ≠ "dispatched".toList).getD task.first

/-- `order`, `rowsByTask` and `nextCursor` of a page in the making. -/
structure Listing where
  rowsByTask : List TaskRows := []
  nextCursor : Option Text := none

namespace Listing

def order (listing : Listing) : List Text := listing.rowsByTask.map fun task => task.first.taskId

/-- A row of a task that is on the page. -/
def push (listing : Listing) (row : MessageLog) : Listing where
  rowsByTask := listing.rowsByTask.map fun task =>
    if same : row.taskId = task.first.taskId then task.push row same else task
  nextCursor := listing.nextCursor

/-- Take in the rows of a batch, up to the first of a task the page has no room for. -/
def takeIn (formats : LogFormats) (limit : Nat) (listedEarlier : List Text) :
    Listing → List MessageLog → Listing
  | listing, [] => listing
  | listing, row :: rest =>
    if row.taskId ∈ listedEarlier then takeIn formats limit listedEarlier listing rest
    else if row.taskId ∈ listing.order then
      takeIn formats limit listedEarlier (listing.push row) rest
    else if listing.order.length = limit then
      let position := formats.positionOf row
      { listing with nextCursor := some (formats.encodeLogCursor position.ts position.id) }
    else
      takeIn formats limit listedEarlier
        { listing with rowsByTask := listing.rowsByTask ++ [{ first := row }] } rest

end Listing

/-- A request's page of the log. -/
structure LogPage where
  logs : List MessageLog
  nextCursor : Option Text

section Handler

variable (formats : LogFormats) (logs : MessageLogs)

/-- Of some tasks those that have a row above the start. -/
def listedEarlier (condition : MessageLog → Bool) (start : Option RowKey) (fresh : List Text) :
    List Text :=
  match start with
  | none => []
  | some start =>
    ((logs.rows.filter fun row =>
      condition row && row.taskId ∈ fresh && start < row.key).map MessageLog.taskId).dedup

/-- The rounds of a page; absent where the database refuses a query. -/
def rounds (condition : MessageLog → Bool) (limit batchSize : Nat) (start : Option RowKey) :
    Nat → Listing → Option Position → Bool → Option Listing
  | 0, listing, _, _ => some listing
  | round + 1, listing, scanFrom, inclusive =>
    if listing.nextCursor.isSome then some listing
    else do
      let within ← formats.bound scanFrom inclusive
      let batch := logs.select condition within batchSize
      let fresh := (batch.map MessageLog.taskId).dedup.filter fun task => task ∉ listing.order
      let earlier := listedEarlier logs condition start fresh
      let listing := listing.takeIn formats limit earlier batch
      if batch.length < batchSize then some listing
      else
        match batch.getLast? with
        | none => some listing
        | some last =>
          rounds condition limit batchSize start round listing (some (formats.positionOf last))
            false

/-- `getNotificationLogs`; absent where the request fails. -/
def getNotificationLogs (projectId : Text) (query : QueryParams) : Option LogPage := do
  let limit := parseLimit query 50 100
  let start ← formats.decodeLogCursor (getQueryParam query "cursor".toList)
  let filter ← readFilter query
  let batchSize := max (limit * 4) 50
  let startKey ← start.mapM formats.keyOf
  let listing ← rounds formats logs (conditions projectId filter) limit batchSize startKey 50 {}
    start true
  pure { logs := listing.rowsByTask.map TaskRows.latest, nextCursor := listing.nextCursor }

end Handler

end Notifkit.Api.NotificationLogs
