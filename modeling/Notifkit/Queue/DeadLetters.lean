import Mathlib.Data.List.Nodup
import Notifkit.Foundations.JsonTexts

/-!
# Dead letters and their replay

An event that is given up is written to the dead-letter stream under the name of a stream to put it
back on. One that was read is recorded with the stream it was read from. One that was handed over
in the process never was on a stream, and is recorded with the first of its worker's streams.

A replay puts the event on the recorded stream and takes the entry out. The writer and the replayer
are in different services; they agree on the entry's text alone.
-/

namespace Notifkit.Queue

/-- `STREAMS` -/
inductive StreamName where
  | inboundCritical | inboundNormal | inboundLow
  | enrichedCritical | enrichedNormal | enrichedLow
  | aiPending
  | scheduled
  | outboundCritical | outboundNormal | outboundLow
  | deadLetter
  | workflowInbound
  | eventsInbound
deriving DecidableEq

namespace StreamName

def text : StreamName → Text
  | inboundCritical => "notifkit:stream:inbound:critical".toList
  | inboundNormal => "notifkit:stream:inbound:normal".toList
  | inboundLow => "notifkit:stream:inbound:low".toList
  | enrichedCritical => "notifkit:stream:enriched:critical".toList
  | enrichedNormal => "notifkit:stream:enriched:normal".toList
  | enrichedLow => "notifkit:stream:enriched:low".toList
  | aiPending => "notifkit:stream:ai:pending".toList
  | scheduled => "notifkit:stream:scheduled".toList
  | outboundCritical => "notifkit:stream:outbound:critical".toList
  | outboundNormal => "notifkit:stream:outbound:normal".toList
  | outboundLow => "notifkit:stream:outbound:low".toList
  | deadLetter => "notifkit:stream:dlq".toList
  | workflowInbound => "notifkit:stream:workflow:inbound".toList
  | eventsInbound => "notifkit:stream:events:inbound".toList

/-- The streams an event may be put back on: `Object.values(STREAMS)` less the dead letters. -/
def replayable : List StreamName :=
  [inboundCritical, inboundNormal, inboundLow, enrichedCritical, enrichedNormal, enrichedLow,
    aiPending, scheduled, outboundCritical, outboundNormal, outboundLow, workflowInbound,
    eventsInbound]

end StreamName

/-- A priority lane. -/
inductive Bucket where
  | critical | normal | low
deriving DecidableEq

/-- A value that was given, or the next one: `value ?? next`. -/
def orElse : Option Json → Option Json → Option Json
  | none, next | some .null, next => next
  | some value, _ => some value

/-- `getPriorityBucket` -/
def getPriorityBucket (priority : Option Json) : Bucket :=
  let p := match priority with
    | some value => if value.truthy then value else .str "normal".toList
    | none => .str "normal".toList
  if p = .str "critical".toList then .critical
  else if p = .str "low".toList then .low
  else .normal

/-- The stages that have a stream for each lane. -/
inductive LaneStage where
  | inbound | enriched | outbound
deriving DecidableEq

/-- The stream of a stage's lane. -/
def LaneStage.stream : LaneStage → Bucket → StreamName
  | inbound, .critical => .inboundCritical
  | inbound, .normal => .inboundNormal
  | inbound, .low => .inboundLow
  | enriched, .critical => .enrichedCritical
  | enriched, .normal => .enrichedNormal
  | enriched, .low => .enrichedLow
  | outbound, .critical => .outboundCritical
  | outbound, .normal => .outboundNormal
  | outbound, .low => .outboundLow

/-- The consumers of streams. -/
inductive WorkerName where
  | enricher | engine | ai | scheduler | delivery | workflow | events
deriving DecidableEq

/-- The stream a consumer names first. -/
def WorkerName.firstStream : WorkerName → StreamName
  | enricher => .inboundCritical
  | engine => .enrichedCritical
  | ai => .aiPending
  | scheduler => .scheduled
  | delivery => .outboundCritical
  | workflow => .workflowInbound
  | events => .eventsInbound

/-- `EventMetadata` -/
structure EventMetadata where
  traceId : Text
  source : Text
  retryCount : Nat := 0
  correlationId : Option Text := none
  causationId : Option Text := none
deriving DecidableEq

/-- `StreamEvent`: what goes over the streams. -/
structure StreamEvent where
  id : Text
  type : Text
  timestamp : Text
  payload : List (Text × Json)
  metadata : EventMetadata
deriving DecidableEq

/-- A field that is written only when it is there. -/
def optionalField (key : Text) (text : Option Text) : List (Text × Json) :=
  text.toList.map fun text => (key, .str text)

def EventMetadata.json (metadata : EventMetadata) : Json :=
  .obj ([("traceId".toList, .str metadata.traceId), ("source".toList, .str metadata.source),
    ("retryCount".toList, .num metadata.retryCount)] ++
    optionalField "correlationId".toList metadata.correlationId ++
    optionalField "causationId".toList metadata.causationId)

namespace StreamEvent

variable (event : StreamEvent)

/-- The event's own properties. -/
def fields : List (Text × Json) :=
  [("id".toList, .str event.id), ("type".toList, .str event.type),
    ("timestamp".toList, .str event.timestamp), ("payload".toList, .obj event.payload),
    ("metadata".toList, event.metadata.json)]

/-- The lane of the event's priority. -/
def bucket : Bucket := getPriorityBucket ((Json.obj event.payload).property "priority".toList)

end StreamEvent

/-- Who publishes events, and what for. -/
inductive Publisher where
  /-- `notify` of the API -/
  | notify
  /-- a notify step of a workflow -/
  | workflowStep
  | enricher
  /-- delivery's next channel -/
  | deliveryFallback
  /-- engine, AI worker and scheduler, for a task that is due -/
  | dispatch
  /-- engine, AI worker and delivery, for a task that is not -/
  | schedule
  | engineAi
  /-- whatever starts or goes on with a workflow -/
  | workflows
  /-- tracked events -/
  | trackedEvents
deriving DecidableEq

namespace Publisher

/-- The worker the events are for. -/
def consumer : Publisher → WorkerName
  | notify | workflowStep => .enricher
  | enricher | deliveryFallback => .engine
  | dispatch => .delivery
  | schedule => .scheduler
  | engineAi => .ai
  | workflows => .workflow
  | trackedEvents => .events

/-- The stream an event is published on. -/
def stream (publisher : Publisher) (event : StreamEvent) : StreamName :=
  match publisher with
  | notify => LaneStage.inbound.stream event.bucket
  | workflowStep => .inboundNormal
  | enricher | deliveryFallback => LaneStage.enriched.stream event.bucket
  | dispatch => LaneStage.outbound.stream event.bucket
  | schedule => .scheduled
  | engineAi => .aiPending
  | workflows => .workflowInbound
  | trackedEvents => .eventsInbound

end Publisher

/-- A command that changes a stream. -/
inductive Command where
  | xadd (stream : StreamName) (fields : List Text)
  | xdel (stream : StreamName) (id : Text)
deriving DecidableEq

section Writing

variable (texts : JsonText)

/-- `publish`: the event's text under `data`. -/
def publish (stream : StreamName) (event : StreamEvent) : Command :=
  .xadd stream ["data".toList, texts.stringify (.obj event.fields)]

/-- What an entry of the dead-letter stream holds. -/
def dlqJson (event : StreamEvent) (originalStream : StreamName) (ackedAt : Text)
    (reason : Option Text) : Json :=
  .obj (event.fields ++ [("dlq".toList, .obj ([("originalStream".toList, .str originalStream.text),
    ("ackedAt".toList, .str ackedAt)] ++ optionalField "reason".toList reason))])

/-- `deadLetter`, for an event that never had an entry of its own. -/
def deadLetter (worker : WorkerName) (event : StreamEvent) (ackedAt : Text)
    (reason : Option Text) : Command :=
  .xadd .deadLetter
    ["data".toList, texts.stringify (dlqJson event worker.firstStream ackedAt reason)]

/-- The write of `nack`. -/
def nack (worker : WorkerName) (event : StreamEvent) (stream : Option StreamName) (ackedAt : Text)
    (reason : Option Text) : Command :=
  let s := stream.getD worker.firstStream
  .xadd .deadLetter ["data".toList, texts.stringify (dlqJson event s ackedAt reason)]

end Writing

/-- An event as its worker has it, after so many times that it was given up and put back. At first
it is read from the stream it was published on or, in the fused pipeline, handed over by the stage
before. -/
structure HandedEvent where
  publisher : Publisher
  event : StreamEvent
  inline : Bool
  /-- only the enricher and the engine hand over -/
  fused : inline = true → publisher = .enricher ∨ publisher = .dispatch
  replays : Nat := 0

namespace HandedEvent

variable (handed : HandedEvent)

/-- The stream that is recorded where an event of a stream, or of none, is given up. -/
def recorded (stream : Option StreamName) : StreamName :=
  stream.getD handed.publisher.consumer.firstStream

/-- The stream the event is read from after some replays; what was put back is on the stream that
was recorded. -/
def streamAfter : Nat → Option StreamName
  | 0 => if handed.inline then none else some (handed.publisher.stream handed.event)
  | replays + 1 => some (handed.recorded (streamAfter replays))

def stream : Option StreamName := handed.streamAfter handed.replays

/-- The stream that is recorded with the event. -/
def originalStream : StreamName := handed.recorded handed.stream

/-- The event is given up. -/
def giveUp (texts : JsonText) (ackedAt : Text) (reason : Option Text) : Command :=
  match handed.stream with
  | none => deadLetter texts handed.publisher.consumer handed.event ackedAt reason
  | some stream => nack texts handed.publisher.consumer handed.event (some stream) ackedAt reason

end HandedEvent

/-- An entry as the API reads it. -/
structure DlqEntry where
  id : Text
  payload : Option Json
  projectId : Option Json
  /-- The event as it was published, without its `dlq` block. -/
  event : Option (List (Text × Json))
  originalStream : Option Json
  fields : List (Text × Text)

/-- A field that is set: in its place if it was there, else behind the others. -/
def setField (fields : List (Text × Text)) (key value : Text) : List (Text × Text) :=
  if key ∈ fields.map Prod.fst then
    fields.map fun field => if field.1 = key then (key, value) else field
  else fields ++ [(key, value)]

/-- The fields of a flat list, behind those there are. -/
def fieldsOf : List (Text × Text) → List Text → List (Text × Text)
  | fields, key :: value :: rest => fieldsOf (setField fields key value) rest
  | fields, _ => fields

/-- A field's text. -/
def fieldOf (fields : List (Text × Text)) (key : Text) : Option Text :=
  (fields.find? fun field => field.1 = key).map Prod.snd

/-- The properties that destructuring a value finds. -/
def ownProperties : Json → List (Text × Json)
  | .str text => (Json.arr (text.map fun char => .str [char])).entries
  | value => value.entries

/-- `parseDlqEntry` -/
def parseDlqEntry (texts : JsonText) (id : Text) (rawFields : List Text) : DlqEntry :=
  let fields := fieldsOf [] rawFields
  let read (key : Text) := (fieldOf fields key).filter fun text => !text.isEmpty
  let parsed := (read "data".toList).bind texts.parse
  let properties := (parsed.map ownProperties).getD []
  let event := properties.filter fun property => property.1 ≠ "dlq".toList
  let dlq := (Json.obj properties).property "dlq".toList
  let asJson := Json.obj (fields.map fun field => (field.1, .str field.2))
  let truthy := (parsed.map Json.truthy).getD false
  let payload :=
    if truthy then (Json.obj event).property "payload".toList
    else match read "payload".toList with
      | some text => some ((texts.parse text).getD (.str text))
      | none => some asJson
  let inPayload (key : Text) := payload.bind fun payload => payload.property key
  { id, payload, fields
    projectId := orElse (inPayload "projectId".toList) (orElse (inPayload "project_id".toList)
      ((fieldOf fields "projectId".toList).map .str))
    event := if truthy then some event else none
    originalStream := dlq.bind fun dlq => dlq.property "originalStream".toList }

/-- `/^\d+-\d+$/` -/
def isEntryId (id : Text) : Bool :=
  let (ms, rest) := id.span Char.isDigit
  match rest with
  | '-' :: seq => !ms.isEmpty && !seq.isEmpty && seq.all Char.isDigit
  | _ => false

/-- What a request answers. -/
inductive ReplayResponse where
  | missingMessageId
  | notFound
  | replayed (stream : StreamName)
  | failed
deriving DecidableEq

/-- A request to replay an entry: the id it asks for, the project it may ask for, the dead-letter
stream as it is then, and which commands are answered. -/
structure ReplayRequest where
  messageId : Text
  projectId : Option Text
  deadLetters : List (Text × List Text)
  answered : Command → Bool

/-- `findDlqEntry`: the entry, or none where it does not exist or belongs to another project. -/
def findDlqEntry (texts : JsonText) (request : ReplayRequest) : Option DlqEntry :=
  if isEntryId request.messageId then
    (request.deadLetters.find? fun entry => entry.1 = request.messageId).bind fun found =>
      let entry := parseDlqEntry texts found.1 found.2
      match request.projectId with
      | some projectId =>
        if projectId ≠ [] ∧ entry.projectId ≠ some (.str projectId) then none else some entry
      | none => some entry
  else none

/-- The stream an entry goes to: the one recorded, or the inbound one of its lane. -/
def targetStream (entry : DlqEntry) : StreamName :=
  let priority := entry.payload.bind fun payload => payload.property "priority".toList
  let inbound := LaneStage.inbound.stream (getPriorityBucket
    (orElse priority ((fieldOf entry.fields "priority".toList).map .str)))
  (StreamName.replayable.find? fun stream =>
    entry.originalStream = some (.str stream.text)).getD inbound

/-- `replayDLQMessage`: the commands that are issued, in order, and the answer. -/
def replayDLQMessage (texts : JsonText) (request : ReplayRequest) :
    List Command × ReplayResponse :=
  if request.messageId = [] then ([], .missingMessageId)
  else match findDlqEntry texts request with
    | none => ([], .notFound)
    | some entry =>
      let stream := targetStream entry
      let xaddArgs := match entry.event with
        | some event => ["data".toList, texts.stringify (.obj event)]
        | none => entry.fields.flatMap fun field => [field.1, field.2]
      let write := Command.xadd stream xaddArgs
      let remove := Command.xdel .deadLetter request.messageId
      if request.answered write then
        if request.answered remove then ([write, remove], .replayed stream)
        else ([write, remove], .failed)
      else ([write], .failed)

namespace HandedEvent

variable (handed : HandedEvent)

/-- The entry's text of the event. -/
def entryJson (ackedAt : Text) (reason : Option Text) : Json :=
  dlqJson handed.event handed.originalStream ackedAt reason

/-- Either way of giving up writes the same kind of entry. -/
theorem giveUp_eq (texts : JsonText) (ackedAt : Text) (reason : Option Text) :
    handed.giveUp texts ackedAt reason =
      .xadd .deadLetter ["data".toList, texts.stringify (handed.entryJson ackedAt reason)] := by
  unfold giveUp entryJson originalStream
  cases handed.stream with
  | none => rfl
  | some stream => rfl

/-- The project the entry belongs to. -/
def projectId : Option Json :=
  orElse ((Json.obj handed.event.payload).property "projectId".toList)
    (orElse ((Json.obj handed.event.payload).property "project_id".toList) none)

/-- The request asks for this entry, and may. -/
structure Asks (texts : JsonText) (ackedAt : Text) (reason : Option Text)
    (request : ReplayRequest) : Prop where
  shape : isEntryId request.messageId = true
  present : request.deadLetters.find? (fun entry => entry.1 = request.messageId) =
    some (request.messageId,
      ["data".toList, texts.stringify (handed.entryJson ackedAt reason)])
  entitled : ∀ projectId ∈ request.projectId, projectId ≠ [] →
    handed.projectId = some (.str projectId)

/-- A replay publishes the event where it was, or would have been, published, and takes the entry
out after that and not before. -/
def ReplaysAsPublished (texts : JsonText) (ackedAt : Text) (reason : Option Text) : Prop :=
  ∀ request, handed.Asks texts ackedAt reason request →
    let write := publish texts (handed.publisher.stream handed.event) handed.event
    let remove := Command.xdel .deadLetter request.messageId
    (replayDLQMessage texts request).1 =
      if request.answered write then [write, remove] else [write]

/-- However often an event was put back, the same stream is recorded. -/
theorem recorded_streamAfter (replays : Nat) :
    handed.recorded (handed.streamAfter replays) =
      if handed.inline then handed.publisher.consumer.firstStream
      else handed.publisher.stream handed.event := by
  induction replays with
  | zero =>
    unfold streamAfter recorded
    split
    · rfl
    · rfl
  | succ replays inductionHypothesis => exact inductionHypothesis

/-- The event is recorded with a stream it may be put back on. -/
theorem originalStream_replayable : handed.originalStream ∈ StreamName.replayable := by
  unfold originalStream stream
  rw [handed.recorded_streamAfter]
  split
  · cases handed.publisher <;> decide
  · unfold Publisher.stream
    cases handed.publisher <;> cases handed.event.bucket <;> decide

/-- The recorded stream is the one the event is published on just when it was published there or is
for the lane its worker names first. -/
theorem originalStream_eq_iff :
    handed.originalStream = handed.publisher.stream handed.event ↔
      handed.inline = false ∨ handed.event.bucket = .critical := by
  unfold originalStream stream
  rw [handed.recorded_streamAfter]
  cases inline : handed.inline with
  | false => simp
  | true =>
    rw [if_pos rfl]
    rcases handed.fused inline with enriched | dispatched
    · rw [enriched]
      unfold Publisher.stream
      cases handed.event.bucket <;> decide
    · rw [dispatched]
      unfold Publisher.stream
      cases handed.event.bucket <;> decide

/-- The entry read back: the event, its payload and the recorded stream. -/
theorem parse_entry {texts : JsonText} {ackedAt : Text} {reason : Option Text} (id : Text)
    (nothing : texts.parse [] = none) (reads : texts.Reads (handed.entryJson ackedAt reason)) :
    parseDlqEntry texts id
        ["data".toList, texts.stringify (handed.entryJson ackedAt reason)] =
      { id
        payload := some (.obj handed.event.payload)
        projectId := handed.projectId
        event := some handed.event.fields
        originalStream := some (.str handed.originalStream.text)
        fields := [("data".toList, texts.stringify (handed.entryJson ackedAt reason))] } := by
  have letters := reads.letters nothing
  generalize written : texts.stringify (handed.entryJson ackedAt reason) = data at letters
  have parsed : texts.parse data = some (handed.entryJson ackedAt reason) := by
    rw [← written]
    exact reads
  have read : ((fieldOf [("data".toList, data)] "data".toList).filter fun text => !text.isEmpty) =
      some data := by
    cases data with
    | nil => exact absurd rfl letters
    | cons => rfl
  have fields : fieldsOf [] ["data".toList, data] = [("data".toList, data)] := rfl
  unfold parseDlqEntry
  simp only [fields, read, Option.bind_some, parsed]
  rfl

/-- The streams are told apart by their names. -/
theorem replayable_texts : (StreamName.replayable.map StreamName.text).Nodup := by
  decide +kernel

/-- A recorded name that may be put back on is found again. -/
theorem find_replayable {stream : StreamName} (listed : stream ∈ StreamName.replayable) :
    (StreamName.replayable.find? fun one => some (Json.str stream.text) = some (.str one.text)) =
      some stream := by
  cases found : StreamName.replayable.find? fun one =>
      some (Json.str stream.text) = some (.str one.text) with
  | none =>
    have missed := List.find?_eq_none.mp found stream listed
    simp at missed
  | some one =>
    have named := List.find?_some found
    have same : stream.text = one.text := by simpa using named
    have member := List.mem_of_find?_eq_some found
    exact congrArg some (List.inj_on_of_nodup_map replayable_texts member listed same.symm)

/-- Who asks for the entry finds it, with the event and the recorded stream. -/
theorem find_entry {texts : JsonText} {ackedAt : Text} {reason : Option Text}
    {request : ReplayRequest} (nothing : texts.parse [] = none)
    (reads : texts.Reads (handed.entryJson ackedAt reason))
    (asks : handed.Asks texts ackedAt reason request) :
    ∃ entry, findDlqEntry texts request = some entry ∧ entry.event = some handed.event.fields ∧
      targetStream entry = handed.originalStream := by
  have parsed := handed.parse_entry request.messageId nothing reads
  refine ⟨parseDlqEntry texts request.messageId
    ["data".toList, texts.stringify (handed.entryJson ackedAt reason)], ?_, ?_, ?_⟩
  · unfold findDlqEntry
    rw [if_pos asks.shape, asks.present, Option.bind_some, parsed]
    cases project : request.projectId with
    | none => rfl
    | some projectId =>
      refine if_neg ?_
      rintro ⟨given, other⟩
      exact other (asks.entitled projectId project given)
  · rw [parsed]
  · rw [parsed]
    unfold targetStream
    rw [find_replayable handed.originalStream_replayable]
    rfl

/-- A replay puts the event on the recorded stream, and takes the entry out after that. -/
theorem replay_eq {texts : JsonText} {ackedAt : Text} {reason : Option Text}
    {request : ReplayRequest} (nothing : texts.parse [] = none)
    (reads : texts.Reads (handed.entryJson ackedAt reason))
    (asks : handed.Asks texts ackedAt reason request) :
    (replayDLQMessage texts request).1 =
      if request.answered (publish texts handed.originalStream handed.event) then
        [publish texts handed.originalStream handed.event,
          .xdel .deadLetter request.messageId]
      else [publish texts handed.originalStream handed.event] := by
  have named : request.messageId ≠ [] := by
    intro empty
    have shape := asks.shape
    rw [empty] at shape
    cases shape
  obtain ⟨entry, found, event, target⟩ := handed.find_entry nothing reads asks
  unfold replayDLQMessage
  rw [if_neg named, found]
  simp only [event, target]
  unfold publish
  split
  · split
    · rfl
    · rfl
  · rfl

/-- A replay is as it should be just when the recorded stream is the one the event is published
on. -/
theorem replaysAsPublished_iff {texts : JsonText} {ackedAt : Text} {reason : Option Text}
    (nothing : texts.parse [] = none) (reads : texts.Reads (handed.entryJson ackedAt reason)) :
    handed.ReplaysAsPublished texts ackedAt reason ↔
      handed.originalStream = handed.publisher.stream handed.event := by
  constructor
  · intro replays
    have asks : handed.Asks texts ackedAt reason
        { messageId := "1-0".toList
          projectId := none
          deadLetters := [("1-0".toList,
            ["data".toList, texts.stringify (handed.entryJson ackedAt reason)])]
          answered := fun _ => true } :=
      { shape := (by decide : isEntryId "1-0".toList = true)
        present := rfl
        entitled := fun _ member => by cases member }
    have issued := replays _ asks
    rw [handed.replay_eq nothing reads asks] at issued
    simp only [if_true, publish, List.cons.injEq, Command.xadd.injEq] at issued
    exact issued.1.1
  · intro same request asks
    rw [handed.replay_eq nothing reads asks, same]

end HandedEvent

/-- An event that is given up, the first time or again, is put back as it was and where it was, or
would have been, published just when it was not handed over in the process or is of the critical
lane. -/
theorem replays_as_published_iff (texts : JsonText) (handed : HandedEvent) (ackedAt : Text)
    (reason : Option Text) (nothing : texts.parse [] = none)
    (reads : texts.Reads (handed.entryJson ackedAt reason)) :
    handed.ReplaysAsPublished texts ackedAt reason ↔
      handed.inline = false ∨ handed.event.bucket = .critical :=
  (handed.replaysAsPublished_iff nothing reads).trans handed.originalStream_eq_iff

/-- A send of normal priority that the engine handed to delivery in the process. -/
def inlineSend : HandedEvent where
  publisher := .dispatch
  event :=
    { id := "e1".toList
      type := "notification.dispatched".toList
      timestamp := "t1".toList
      payload := [("priority".toList, .str "normal".toList)]
      metadata := { traceId := "n1".toList, source := "engine".toList } }
  inline := true
  fused _ := .inr rfl

/-- The text of its entry. -/
def inlineText : Text :=
  ("\x7b\"id\":\"e1\",\"type\":\"notification.dispatched\",\"timestamp\":\"t1\"," ++
    "\"payload\":\x7b\"priority\":\"normal\"\x7d,\"metadata\":\x7b\"traceId\":\"n1\"," ++
    "\"source\":\"engine\",\"retryCount\":0\x7d,\"dlq\":\x7b\"originalStream\":" ++
    "\"notifkit:stream:outbound:critical\",\"ackedAt\":\"t2\"\x7d\x7d").toList

/-- How the language writes and reads it. -/
def inlineTexts : JsonText := .one (inlineSend.entryJson "t2".toList none) inlineText

theorem inlineText_letters : inlineText ≠ [] := by
  unfold inlineText
  rw [String.toList_append]
  exact List.append_ne_nil_of_right_ne_nil _ (by decide +kernel)

theorem inlineTexts_nothing : inlineTexts.parse [] = none :=
  JsonText.one_nothing inlineText_letters

/-- The send is put back on the critical lane, where no send of its priority is published. -/
theorem inline_send_changes_lane :
    ¬inlineSend.ReplaysAsPublished inlineTexts "t2".toList none := by
  rw [inlineSend.replaysAsPublished_iff inlineTexts_nothing (JsonText.one_reads _ _)]
  decide

theorem inline_send_replays_iff :
    inlineSend.ReplaysAsPublished inlineTexts "t2".toList none ↔
      inlineSend.inline = false ∨ inlineSend.event.bucket = .critical :=
  replays_as_published_iff inlineTexts inlineSend "t2".toList none inlineTexts_nothing
    (JsonText.one_reads _ _)

end Notifkit.Queue
