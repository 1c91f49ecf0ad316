import Notifkit.Pipeline.StageRuns

/-!
# The enricher and the engine as deduplicated stages

What the two stages read of a message to decide whether it was seen, and how long
they keep a message they are done with. An event's other fields decide what the
stage publishes, which the runs leave to the environment.
-/

namespace Notifkit.Pipeline

/-- What the enricher reads of a payload for its dedupe. -/
inductive InboundPayload where
  | requested (projectId : Text) (idempotencyKey : Option Text)
  /-- the legacy payload -/
  | created (projectId : Text) (idempotencyKey : Option Text)
  | invalid
deriving DecidableEq

/-- An event on the inbound stream. -/
structure InboundEvent where
  id : Text
  payload : InboundPayload
deriving DecidableEq

/-- A caller's own idempotency key is promised 24 h. -/
def CALLER_KEY_TTL_SECONDS : Nat := 86400

/-- The long lifetime for a caller's key, the configured one for an event id. An
empty key counts as none here. -/
def dedupeTtl (IDEMPOTENCY_TTL_SECONDS : Nat) (idempotencyKey : Option Text) : Nat :=
  match idempotencyKey with
  | some (_ :: _) => CALLER_KEY_TTL_SECONDS
  | _ => IDEMPOTENCY_TTL_SECONDS

/-- The key a message is deduped by: the caller's, else the event's id. -/
def dedupeId (projectId : Text) (idempotencyKey : Option Text) (eventId : Text) : Text :=
  projectId ++ ":".toList ++ idempotencyKey.getD eventId

/-- The enricher. -/
def enricher (IDEMPOTENCY_TTL_SECONDS : Nat) : Stage InboundEvent where
  dedupeKey event :=
    match event.payload with
    | .requested projectId idempotencyKey => some (dedupeId projectId idempotencyKey event.id)
    | .created projectId idempotencyKey => some (dedupeId projectId idempotencyKey event.id)
    | .invalid => none
  doneTtlSeconds event _ :=
    match event.payload with
    | .requested _ idempotencyKey => dedupeTtl IDEMPOTENCY_TTL_SECONDS idempotencyKey
    | .created _ idempotencyKey => dedupeTtl IDEMPOTENCY_TTL_SECONDS idempotencyKey
    | .invalid => IDEMPOTENCY_TTL_SECONDS
  maxRetriesBeforeDlq := 5
  deliveryTtlSeconds := IDEMPOTENCY_TTL_SECONDS

/-- What the engine reads of a payload for its dedupe; the instant is in
milliseconds. -/
structure EnrichedPayload where
  rawEventId : Text
  recipientId : Text
  channel : Text
  contactId : Option Text
  scheduledAt : Option Nat
deriving DecidableEq

/-- The engine's key. One event per resolved contact, so two addresses on a channel
are two messages. -/
def engineKey (enriched : EnrichedPayload) : Text :=
  enriched.rawEventId ++ ":".toList ++ enriched.recipientId ++ ":".toList ++ enriched.channel ++
    match enriched.contactId with
    | some (first :: rest) => ":".toList ++ first :: rest
    | _ => []

/-- Held until the send is due, then as long as any other marker. -/
def engineTtl (IDEMPOTENCY_TTL_SECONDS : Nat) (enriched : EnrichedPayload) (now : Nat) : Nat :=
  match enriched.scheduledAt with
  | some due =>
    if now < due then IDEMPOTENCY_TTL_SECONDS + (due - now + 999) / 1000
    else IDEMPOTENCY_TTL_SECONDS
  | none => IDEMPOTENCY_TTL_SECONDS

/-- The streamed engine. A message without a payload is one that did not parse. -/
def engine (IDEMPOTENCY_TTL_SECONDS : Nat) : Stage (Option EnrichedPayload) where
  dedupeKey message := message.map engineKey
  doneTtlSeconds message now :=
    match message with
    | some enriched => engineTtl IDEMPOTENCY_TTL_SECONDS enriched now
    | none => IDEMPOTENCY_TTL_SECONDS
  maxRetriesBeforeDlq := 3
  deliveryTtlSeconds := IDEMPOTENCY_TTL_SECONDS

end Notifkit.Pipeline
