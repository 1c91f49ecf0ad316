import Notifkit.Pipeline.Stages

/-!
# The ids by which requests are deduplicated

A request under a key has one id for each of its targets: the key itself where there is one target,
else the key, a hyphen and the target's position. A step of a workflow makes its id out of the
instance and its own index, with a prefix in front. Nothing keeps the key apart from what is put
behind it, and nothing keeps a client from writing the prefix: ids that are made in different places
can be the same text.
-/

namespace Notifkit.Pipeline

universe u
variable {Target : Type u}

/-- What `notify` makes ids of: the header as it came, a random id, and the targets. -/
structure NotifyRequest (Target : Type u) where
  projectId : Text
  /-- `req.headers["x-idempotency-key"]` -/
  header : Option Text
  /-- `randomUUID()` -/
  randomId : Text
  targets : List Target

namespace NotifyRequest

variable (request : NotifyRequest Target)

/-- The key a caller gave; an empty one counts as none. -/
def callerKey : Option Text := request.header.filter fun key => !key.isEmpty

def baseNotificationId : Text := request.callerKey.getD request.randomId

/-- The id of the target at a position. -/
def notificationId (i : Nat) : Text :=
  if request.targets.length > 1 then request.baseNotificationId ++ '-' :: Nat.toDigits 10 i
  else request.baseNotificationId

/-- The payload for a target, as far as the enricher dedupes by it. -/
def payload (i : Nat) : InboundPayload :=
  .requested request.projectId (request.callerKey.map fun _ => request.notificationId i)

/-- `CHUNK_SIZE` -/
def chunkSize : Nat := 1000

/-- The targets go out in chunks: the payloads from a chunk's start on. Each round takes a target at
least, so their number is fuel enough. -/
def chunksFrom : Nat → Nat → List (Target × InboundPayload)
  | 0, _ => []
  | fuel + 1, chunkStart =>
    if chunkStart < request.targets.length then
      let chunk := (request.targets.drop chunkStart).take chunkSize
      chunk.mapIdx (fun idx target => (target, request.payload (chunkStart + idx))) ++
        chunksFrom fuel (chunkStart + chunkSize)
    else []

/-- What `notify` publishes for its targets, in order. -/
def published : List (Target × InboundPayload) :=
  request.chunksFrom request.targets.length 0

/-- From a chunk's start on each target is published under its own position. -/
theorem chunksFrom_eq {fuel chunkStart : Nat}
    (enough : request.targets.length ≤ chunkStart + fuel) :
    request.chunksFrom fuel chunkStart = (request.targets.drop chunkStart).mapIdx fun idx target =>
      (target, request.payload (chunkStart + idx)) := by
  induction fuel generalizing chunkStart with
  | zero =>
    rw [List.drop_eq_nil_of_le (by omega)]
    rfl
  | succ fuel inductionHypothesis =>
    unfold chunksFrom
    by_cases more : chunkStart < request.targets.length
    · rw [if_pos more, inductionHypothesis (by unfold chunkSize; omega)]
      -- the targets behind the chunk are those behind its start, less the chunk
      by_cases last : request.targets.length ≤ chunkStart + chunkSize
      · rw [List.drop_eq_nil_of_le last, List.mapIdx_nil, List.append_nil, List.take_of_length_le]
        rw [List.length_drop]
        omega
      · have size : ((request.targets.drop chunkStart).take chunkSize).length = chunkSize := by
          rw [List.length_take, List.length_drop]
          omega
        conv_rhs => rw [← List.take_append_drop chunkSize (request.targets.drop chunkStart)]
        rw [List.mapIdx_append, List.drop_drop, size]
        simp only [Nat.add_assoc, Nat.add_comm chunkSize]
    · rw [if_neg more, List.drop_eq_nil_of_le (Nat.le_of_not_lt more)]
      rfl

/-- Each target is published under its own position, however the list is cut. -/
theorem published_eq : request.published =
    request.targets.mapIdx fun i target => (target, request.payload i) := by
  refine (request.chunksFrom_eq (Nat.le_add_left _ _)).trans ?_
  simp only [List.drop_zero, Nat.zero_add]

/-- The payload at a position is the one made for that position. -/
theorem payload_of_published {position : Nat} {target : Target} {payload : InboundPayload}
    (sent : request.published[position]? = some (target, payload)) :
    payload = request.payload position ∧ position < request.targets.length := by
  rw [published_eq, List.getElem?_mapIdx, Option.map_eq_some_iff] at sent
  obtain ⟨one, found, same⟩ := sent
  exact ⟨(Prod.mk.inj same).2.symm, (List.getElem?_eq_some_iff.mp found).1⟩

end NotifyRequest

/-- The idempotency key of a workflow's notify step. -/
def stepKey (instanceId : Text) (step : Nat) : Text :=
  "wf-".toList ++ (instanceId ++ '-' :: Nat.toDigits 10 step)

/-- The event of a workflow's notify step. -/
def stepEvent (projectId instanceId : Text) (step : Nat) (eventId : Text) : InboundEvent :=
  ⟨eventId, .requested projectId (some (stepKey instanceId step))⟩

/-- A target as it reached the enricher: the payload it was published with and the id its event was
given, which is a random one. -/
structure SentTarget (Target : Type u) where
  request : NotifyRequest Target
  position : Nat
  target : Target
  payload : InboundPayload
  sent : request.published[position]? = some (target, payload)
  eventId : Text
  /-- the text of a UUID -/
  uuid : ∀ char ∈ eventId, (Text.hexValue char).isSome ∨ char = '-'

namespace SentTarget

variable (one other : SentTarget Target) {instanceId : Text} {step : Nat}

/-- The event on the inbound stream. -/
def event : InboundEvent := ⟨one.eventId, one.payload⟩

/-- The id under which the enricher dedupes the target. -/
def dedupeKey (ttl : Nat) : Option Text := (enricher ttl).dedupeKey one.event

/-- The request has one target. -/
def Single : Prop := one.request.targets.length = 1

/-- Both are the same position of requests of one size under one header. -/
def SamePlace : Prop :=
  one.request.header = other.request.header ∧ one.position = other.position ∧
    one.request.targets.length = other.request.targets.length

/-- A request's only target, under a key that reads like another's with a position behind it. -/
def Derived : Prop :=
  one.Single ∧ ¬other.Single ∧ ∃ key ∈ other.request.callerKey,
    one.request.callerKey = some (key ++ '-' :: Nat.toDigits 10 other.position)

/-- One key, used again for a list of another size. -/
def Resized : Prop :=
  ¬one.Single ∧ ¬other.Single ∧ one.request.callerKey ≠ none ∧
    one.request.callerKey = other.request.callerKey ∧ one.position = other.position ∧
    one.request.targets.length ≠ other.request.targets.length

/-- A caller's id is the one the other event was given, which stands in for the key it has not. -/
def StandsIn : Prop :=
  one.request.callerKey ≠ none ∧ other.request.callerKey = none ∧
    one.request.notificationId one.position = other.eventId

/-- A caller's key that reads like a step's, as far as the position does not make up its end. -/
def NamesStep (instanceId : Text) (step : Nat) : Prop :=
  (one.Single ∧ one.request.callerKey = some (stepKey instanceId step)) ∨
    (¬one.Single ∧ one.request.callerKey = some ("wf-".toList ++ instanceId) ∧ one.position = step)

/-- Two targets that have one id though they are not the same place. -/
def Clash : Prop := one.Derived other ∨ one.Resized other ∨ one.StandsIn other

/-- Equal ids mean the same place, and no step of the workflow has the id of either. -/
def Apart (ttl : Nat) (instanceId : Text) (step : Nat) : Prop :=
  (one.dedupeKey ttl = other.dedupeKey ttl → one.SamePlace other) ∧
    ∀ sent ∈ [one, other], ∀ eventId, sent.dedupeKey ttl ≠
      (enricher ttl).dedupeKey (stepEvent sent.request.projectId instanceId step eventId)

/-- The id without the project. -/
def ownId : Text :=
  (one.request.callerKey.map fun _ => one.request.notificationId one.position).getD one.eventId

variable {one other : SentTarget Target} {key : Text} {ttl : Nat}

theorem dedupeKey_eq :
    one.dedupeKey ttl = some (one.request.projectId ++ ":".toList ++ one.ownId) := by
  have made := (one.request.payload_of_published one.sent).1
  unfold dedupeKey event
  rw [made]
  rfl

theorem ownId_keyless (keyless : one.request.callerKey = none) : one.ownId = one.eventId := by
  unfold ownId
  rw [keyless]
  rfl

theorem ownId_keyed (keyed : one.request.callerKey = some key) :
    one.ownId = one.request.notificationId one.position := by
  unfold ownId
  rw [keyed]
  rfl

theorem ownId_single (keyed : one.request.callerKey = some key) (single : one.Single) :
    one.ownId = key := by
  rw [ownId_keyed keyed]
  unfold NotifyRequest.notificationId NotifyRequest.baseNotificationId
  rw [if_neg (by rw [single]; decide), keyed]
  rfl

theorem ownId_many (keyed : one.request.callerKey = some key) (many : ¬one.Single) :
    one.ownId = key ++ '-' :: Nat.toDigits 10 one.position := by
  have placed := (one.request.payload_of_published one.sent).2
  unfold Single at many
  rw [ownId_keyed keyed]
  unfold NotifyRequest.notificationId NotifyRequest.baseNotificationId
  rw [if_pos (by omega), keyed]
  rfl

/-- A caller's key is what the header says. -/
theorem header_of_callerKey (keyed : one.request.callerKey = some key) :
    one.request.header = some key := (Option.filter_eq_some_iff.mp keyed).1

/-- A random id is no step's. -/
theorem eventId_ne_stepKey : one.eventId ≠ stepKey instanceId step := by
  intro same
  have first : 'w' ∈ one.eventId := by
    rw [same]
    exact List.mem_cons_self
  rcases one.uuid 'w' first with digit | hyphen
  · exact absurd digit (by decide)
  · cases hyphen

/-- Where the ids are the same text, the places are the same or the two clash. -/
theorem samePlace_or_clash (events : one.eventId = other.eventId → one = other)
    (same : one.ownId = other.ownId) :
    one.SamePlace other ∨ one.Clash other ∨ other.Clash one := by
  cases keyed : one.request.callerKey with
  | none =>
    cases keyed' : other.request.callerKey with
    | none =>
      rw [ownId_keyless keyed, ownId_keyless keyed'] at same
      rw [events same]
      exact .inl ⟨rfl, rfl, rfl⟩
    | some key' =>
      rw [ownId_keyless keyed, ownId_keyed keyed'] at same
      have keys : other.request.callerKey ≠ none := by
        rw [keyed']
        exact Option.some_ne_none key'
      exact .inr (.inr (.inr (.inr ⟨keys, keyed, same.symm⟩)))
  | some key =>
    have keys : one.request.callerKey ≠ none := by
      rw [keyed]
      exact Option.some_ne_none key
    cases keyed' : other.request.callerKey with
    | none =>
      rw [ownId_keyed keyed, ownId_keyless keyed'] at same
      exact .inr (.inl (.inr (.inr ⟨keys, keyed', same⟩)))
    | some key' =>
      by_cases single : one.Single
      · rw [ownId_single keyed single] at same
        by_cases single' : other.Single
        · rw [ownId_single keyed' single'] at same
          have placed := (one.request.payload_of_published one.sent).2
          have placed' := (other.request.payload_of_published other.sent).2
          rw [single] at placed
          rw [single'] at placed'
          refine .inl ⟨?_, by omega, single.trans single'.symm⟩
          rw [header_of_callerKey keyed, header_of_callerKey keyed', same]
        · rw [ownId_many keyed' single'] at same
          refine .inr (.inl (.inl ⟨single, single', key', keyed', ?_⟩))
          rw [keyed, same]
      · rw [ownId_many keyed single] at same
        by_cases single' : other.Single
        · rw [ownId_single keyed' single'] at same
          refine .inr (.inr (.inl ⟨single', single, key, keyed, ?_⟩))
          rw [keyed', same]
        · rw [ownId_many keyed' single'] at same
          obtain ⟨rfl, digits⟩ :=
            last_mark (hyphen_notMem_toDigits _) (hyphen_notMem_toDigits _) same
          have places := toDigits_inj digits
          by_cases sizes : one.request.targets.length = other.request.targets.length
          · refine .inl ⟨?_, places, sizes⟩
            rw [header_of_callerKey keyed, header_of_callerKey keyed']
          · exact .inr (.inl (.inr (.inl ⟨single, single', keys, keyed.trans keyed'.symm, places,
              sizes⟩)))

/-- Two that clash have one id and are not the same place. -/
theorem Clash.same (clash : one.Clash other) :
    one.ownId = other.ownId ∧ ¬one.SamePlace other := by
  rcases clash with ⟨single, many, key, keyed, own⟩ | ⟨many, many', keys, same, places, sizes⟩ |
    ⟨keys, keyless, same⟩
  · constructor
    · rw [ownId_single own single, ownId_many keyed many]
    · rintro ⟨_, _, sizes⟩
      exact many (sizes.symm.trans single)
  · obtain ⟨key, keyed⟩ := Option.ne_none_iff_exists'.mp keys
    constructor
    · rw [ownId_many keyed many, ownId_many (same.symm.trans keyed) many', places]
    · rintro ⟨_, _, same⟩
      exact sizes same
  · obtain ⟨key, keyed⟩ := Option.ne_none_iff_exists'.mp keys
    constructor
    · rw [ownId_keyed keyed, ownId_keyless keyless, same]
    · rintro ⟨headers, _, _⟩
      unfold NotifyRequest.callerKey at keys keyless
      rw [headers] at keys
      exact keys keyless

/-- A target has a step's id just when its key reads like the step's. -/
theorem ownId_eq_stepKey_iff : one.ownId = stepKey instanceId step ↔
    one.NamesStep instanceId step := by
  cases keyed : one.request.callerKey with
  | none =>
    rw [ownId_keyless keyed]
    constructor
    · exact fun same => absurd same eventId_ne_stepKey
    · rintro (⟨_, named⟩ | ⟨_, named, _⟩)
      · rw [keyed] at named
        cases named
      · rw [keyed] at named
        cases named
  | some key =>
    unfold NamesStep
    rw [keyed]
    by_cases single : one.Single
    · rw [ownId_single keyed single]
      constructor
      · rintro rfl
        exact .inl ⟨single, rfl⟩
      · rintro (⟨_, named⟩ | ⟨many, _, _⟩)
        · exact Option.some.inj named
        · exact absurd single many
    · rw [ownId_many keyed single]
      unfold stepKey
      rw [← List.append_assoc]
      constructor
      · intro same
        obtain ⟨rfl, digits⟩ :=
          last_mark (hyphen_notMem_toDigits _) (hyphen_notMem_toDigits _) same
        exact .inr ⟨single, rfl, toDigits_inj digits⟩
      · rintro (⟨only, _⟩ | ⟨_, named, place⟩)
        · exact absurd only single
        · rw [Option.some.inj named, place]

/-- Ids of one project are told apart by what follows the project. -/
theorem dedupeKey_inj (project : one.request.projectId = other.request.projectId) :
    one.dedupeKey ttl = other.dedupeKey ttl ↔ one.ownId = other.ownId := by
  rw [dedupeKey_eq, dedupeKey_eq, project, Option.some.injEq]
  exact List.append_cancel_left_eq _ _ _ |>.to_iff

/-- A step's id is met just where the key reads like the step's. -/
theorem dedupeKey_step {eventId : Text} : one.dedupeKey ttl =
    (enricher ttl).dedupeKey (stepEvent one.request.projectId instanceId step eventId) ↔
      one.NamesStep instanceId step := by
  rw [dedupeKey_eq, ← ownId_eq_stepKey_iff]
  constructor
  · intro same
    exact List.append_cancel_left (Option.some.inj same)
  · intro same
    rw [same]
    rfl

end SentTarget

variable {one other : SentTarget Target}

/-- The ids of two targets of one project tell them apart, and from a workflow's step, just when
neither key reads like the other's id, like the id of the other's event or like the step's, and a
key is not used again for a list of another size. -/
theorem dedupe_ids_apart_iff (ttl : Nat) (instanceId : Text) (step : Nat)
    (project : one.request.projectId = other.request.projectId)
    (events : one.eventId = other.eventId → one = other) :
    one.Apart other ttl instanceId step ↔
      (¬one.Clash other ∧ ¬other.Clash one) ∧
        ∀ sent ∈ [one, other], ¬sent.NamesStep instanceId step := by
  unfold SentTarget.Apart
  refine and_congr ?_ ?_
  · rw [SentTarget.dedupeKey_inj project]
    constructor
    · intro apart
      constructor
      · exact fun clash => clash.same.2 (apart clash.same.1)
      · intro clash
        obtain ⟨headers, places, sizes⟩ := apart clash.same.1.symm
        exact clash.same.2 ⟨headers.symm, places.symm, sizes.symm⟩
    · rintro ⟨apart, apart'⟩ same
      rcases SentTarget.samePlace_or_clash events same with place | clash | clash
      · exact place
      · exact absurd clash apart
      · exact absurd clash apart'
  · refine forall₂_congr fun sent _ => ?_
    constructor
    · exact fun apart named => apart [] (SentTarget.dedupeKey_step.mpr named)
    · exact fun apart _ same => apart (SentTarget.dedupeKey_step.mp same)

/-- A request of some users under a key. -/
def keyedRequest (key : Text) (targets : List Nat) : NotifyRequest Nat where
  projectId := "p1".toList
  header := some key
  randomId := "6f".toList
  targets := targets

/-- The only target of a request under the key `a-0` is published with that key. -/
theorem derived_published : (keyedRequest "a-0".toList [7]).published[0]? =
    some (7, .requested "p1".toList (some "a-0".toList)) := by decide +kernel

/-- The first of two targets of a request under the key `a` is published with the same key. -/
theorem listed_published : (keyedRequest "a".toList [3, 4]).published[0]? =
    some (3, .requested "p1".toList (some "a-0".toList)) := by decide +kernel

/-- An id whose characters are all checked is the text of a UUID. -/
theorem uuid_checked {id : Text}
    (checked : (id.all fun char => (Text.hexValue char).isSome || char == '-') = true) :
    ∀ char ∈ id, (Text.hexValue char).isSome ∨ char = '-' := by
  intro char listed
  have here := List.all_eq_true.mp checked char listed
  simpa using here

/-- The only target of a request under the key `a-0`. -/
def derivedTarget : SentTarget Nat where
  request := keyedRequest "a-0".toList [7]
  position := 0
  target := 7
  payload := .requested "p1".toList (some "a-0".toList)
  sent := derived_published
  eventId := "e1".toList
  uuid := uuid_checked rfl

/-- The first of two targets of a request under the key `a`. -/
def listedTarget : SentTarget Nat where
  request := keyedRequest "a".toList [3, 4]
  position := 0
  target := 3
  payload := .requested "p1".toList (some "a-0".toList)
  sent := listed_published
  eventId := "e2".toList
  uuid := uuid_checked rfl

/-- Under the key `a-0` one user is asked for, under `a` two others: the first of these is taken for
the one. -/
theorem keys_read_alike :
    derivedTarget.dedupeKey 3600 = listedTarget.dedupeKey 3600 ∧
      derivedTarget.request.header ≠ listedTarget.request.header ∧
      derivedTarget.target ≠ listedTarget.target := by
  decide

theorem listed_apart_iff :
    derivedTarget.Apart listedTarget 3600 "i".toList 0 ↔
      (¬derivedTarget.Clash listedTarget ∧ ¬listedTarget.Clash derivedTarget) ∧
        ∀ sent ∈ [derivedTarget, listedTarget], ¬sent.NamesStep "i".toList 0 :=
  dedupe_ids_apart_iff 3600 "i".toList 0 rfl fun same => absurd same (by decide)

end Notifkit.Pipeline
