import Notifkit.Api.HandleRequest
import Notifkit.Foundations.Runs
import Notifkit.Foundations.Tables
import Notifkit.Shared.LruCache

/-!
# Cached API keys

An API process keeps the keys it has looked up. A key that is deleted, in whichever process, is
announced afterwards, and a process that hears of it forgets all keys. A lookup that is under way at
that time is not told: what it read before the deletion may be put into the cache after it.

With each row that was read stands how often keys with its hash had been deleted before, with each
message which deletion it follows, and with each request that is authenticated from the cache which
deletion of its key the process had heard of.
-/

namespace Notifkit.Api

open Runs Shared Tables

/-- A row of `project_api_keys`. -/
structure ApiKeyRow where
  id : String
  projectId : String
  keyHash : String
  role : KeyRole
deriving DecidableEq

/-- A key that was looked up, and the deletions of its hash before that. -/
structure CachedAuthKey where
  projectId : String
  projectRateLimitRpm : Nat
  keyRole : KeyRole
  tokenHash : String
  deletions : Nat
deriving DecidableEq

/-- Where the lookup of a token stands: sent, or read after so many deletions of its hash. -/
inductive KeyLookupPhase where
  | sent
  | read (row : Option (ApiKeyRow × Option Nat)) (deletions : Nat)
deriving DecidableEq

structure KeyLookup where
  token : String
  phase : KeyLookupPhase := .sent
deriving DecidableEq

/-- A message on the invalidation channel, and the deletions of each hash that it follows. -/
structure KeyInvalidation where
  tokenHash : String
  follows : String → Nat

/-- A request that was authenticated from the cache: the deletions of its key that the process had
heard of, and those before the key was read. -/
structure CachedAuth where
  token : String
  heard : Nat
  read : Nat
deriving DecidableEq

/-- One API process, with the rows, the deletions and the messages of all of them. -/
structure AuthWorld where
  clock : Int := 0
  rows : List ApiKeyRow := []
  /-- the limits of the projects -/
  rateLimitRpm : String → Option Nat := fun _ => none
  /-- how often a row with a hash was deleted -/
  deletions : String → Nat := fun _ => 0
  /-- deletions that are yet to be announced -/
  deleting : List KeyInvalidation := []
  messages : List KeyInvalidation := []
  authCache : LRUCache String CachedAuthKey := { maxSize := 1000, defaultTtlMs := 60_000 }
  tokenHashToToken : List (String × String) := []
  lookups : List KeyLookup := []
  /-- the deletions of each hash that the process has heard of -/
  heard : String → Nat := fun _ => 0
  authenticated : List CachedAuth := []

/-- `Map.set`. -/
def mapSet (map : List (String × String)) (key value : String) : List (String × String) :=
  map.filter (fun pair => pair.1 ≠ key) ++ [(key, value)]

namespace AuthWorld

/-- A request with a token, up to where it is authenticated from the cache or asks the database. -/
def request (world : AuthWorld) (sha256 : String → String) (token : String) : AuthWorld :=
  let read := world.authCache.get world.clock token
  match read.2 with
  | some cached => { world with
      authCache := read.1
      authenticated := ⟨token, world.heard (sha256 token), cached.deletions⟩ :: world.authenticated }
  | none => { world with authCache := read.1, lookups := world.lookups ++ [{ token }] }

/-- The database runs the query of a lookup. -/
def query (world : AuthWorld) (sha256 : String → String) (position : Nat) : Option AuthWorld := do
  let lookup ← world.lookups[position]?
  if lookup.phase = .sent then
    let tokenHash := sha256 lookup.token
    let row := (world.rows.find? fun row => row.keyHash = tokenHash).map fun row =>
      (row, world.rateLimitRpm row.projectId)
    some { world with lookups :=
      world.lookups.set position { lookup with phase := .read row (world.deletions tokenHash) } }
  else none

/-- The token is remembered under its hash; so many of them are too many. -/
def overflows (world : AuthWorld) (tokenHash token : String) : Bool :=
  2000 < (mapSet world.tokenHashToToken tokenHash token).length

/-- A lookup comes back: a key that was found is cached, and the request goes on. -/
def fill (world : AuthWorld) (sha256 : String → String) (position : Nat) : Option AuthWorld := do
  let lookup ← world.lookups[position]?
  match lookup.phase with
  | .read row deletions =>
    let returned := { world with lookups := world.lookups.eraseIdx position }
    match row with
    | none => some returned
    | some (row, limit) =>
      let tokenHash := sha256 lookup.token
      let authCache := world.authCache.set world.clock lookup.token
        ⟨row.projectId, limit.getD 600, row.role, tokenHash, deletions⟩
      let tokenHashToToken := mapSet world.tokenHashToToken tokenHash lookup.token
      -- cleared together, so that every cached token stays revocable by its hash
      if world.overflows tokenHash lookup.token then
        some { returned with authCache := authCache.clear, tokenHashToToken := [] }
      else some { returned with authCache, tokenHashToToken }
  | .sent => none

/-- A key that was never there before is created. -/
def createApiKey (world : AuthWorld) (row : ApiKeyRow) : Option AuthWorld :=
  if world.deletions row.keyHash = 0 then some { world with rows := world.rows ++ [row] } else none

/-- `deleteApiKey`; a deletion is yet to be announced. -/
def deleteProjectKey (world : AuthWorld) (projectId keyId : String) : AuthWorld :=
  let deleted := world.rows.filter fun row => row.id = keyId ∧ row.projectId = projectId
  if deleted = [] then world
  else
    let deletions := fun hash => world.deletions hash +
      if deleted.any fun row => row.keyHash = hash then 1 else 0
    { world with
      rows := world.rows.filter fun row => ¬ (row.id = keyId ∧ row.projectId = projectId)
      deletions := deletions
      deleting := world.deleting ++ [⟨"*", fun hash =>
        if deleted.any fun row => row.keyHash = hash then deletions hash else 0⟩] }

/-- A deletion is announced. -/
def publish (world : AuthWorld) (position : Nat) : Option AuthWorld := do
  let message ← world.deleting[position]?
  some { world with
    deleting := world.deleting.eraseIdx position
    messages := world.messages ++ [message] }

/-- The process handles a message. -/
def onMessage (world : AuthWorld) (position : Nat) : Option AuthWorld := do
  let message ← world.messages[position]?
  let world := { world with
    messages := world.messages.eraseIdx position
    heard := fun hash => max (world.heard hash) (message.follows hash) }
  if message.tokenHash = "*" then
    some { world with authCache := world.authCache.clear, tokenHashToToken := [] }
  else
    match world.tokenHashToToken.find? fun pair => pair.1 = message.tokenHash with
    | some (_, token) => some { world with
        authCache := (world.authCache.delete token).delete message.tokenHash
        tokenHashToToken := world.tokenHashToToken.filter fun pair => pair.1 ≠ message.tokenHash }
    | none => some { world with authCache := world.authCache.delete message.tokenHash }

end AuthWorld

/-- A step of the process, the database, the other processes or the clock. -/
inductive AuthAction where
  | request (token : String)
  | query (position : Nat)
  | fill (position : Nat)
  | createApiKey (row : ApiKeyRow)
  | deleteProjectKey (projectId keyId : String)
  | publish (position : Nat)
  /-- a message that follows no deletion, as after a change of a limit -/
  | announce (tokenHash : String)
  | setLimit (projectId : String) (rateLimitRpm : Option Nat)
  | onMessage (position : Nat)
  | tick (ms : Nat)

/-- One step, for a hash of tokens. -/
def authStep (sha256 : String → String) (world : AuthWorld) : AuthAction → Option AuthWorld
  | .request token => some (world.request sha256 token)
  | .query position => world.query sha256 position
  | .fill position => world.fill sha256 position
  | .createApiKey row => world.createApiKey row
  | .deleteProjectKey projectId keyId => some (world.deleteProjectKey projectId keyId)
  | .publish position => world.publish position
  | .announce tokenHash =>
    some { world with messages := world.messages ++ [⟨tokenHash, fun _ => 0⟩] }
  | .setLimit projectId rateLimitRpm => some { world with rateLimitRpm := fun other =>
      if other = projectId then rateLimitRpm else world.rateLimitRpm other }
  | .onMessage position => world.onMessage position
  | .tick ms => some { world with clock := world.clock + ms }

/-- No request was authenticated from the cache with a key that was read before a deletion of which
the process had heard. -/
def AuthWorld.Revoked (world : AuthWorld) : Prop :=
  ∀ auth ∈ world.authenticated, auth.heard ≤ auth.read

/-- A lookup that read its row before the key was deleted comes back before the process hears of the
deletion, or is forgotten with all others. -/
def ReadInTime (sha256 : String → String) (world : AuthWorld) : AuthAction → Prop
  | .fill position => ∀ lookup ∈ world.lookups[position]?,
    match lookup.phase with
    | .read (some _) deletions =>
      world.overflows (sha256 lookup.token) lookup.token = false →
        world.heard (sha256 lookup.token) ≤ deletions
    | _ => True
  | _ => True

instance (sha256 : String → String) (world : AuthWorld) (action : AuthAction) :
    Decidable (ReadInTime sha256 world action) := by
  unfold ReadInTime
  split
  · have each : ∀ lookup : KeyLookup, Decidable (match lookup.phase with
        | .read (some _) deletions => world.overflows (sha256 lookup.token) lookup.token = false →
          world.heard (sha256 lookup.token) ≤ deletions
        | _ => True) := fun lookup => by split <;> infer_instance
    infer_instance
  · infer_instance

namespace AuthWorld

variable {sha256 : String → String} {world next : AuthWorld}

/-- A token that is cached is authenticated from the cache. -/
theorem request_hit {token : String} {cached : CachedAuthKey}
    (hit : (world.authCache.get world.clock token).2 = some cached) :
    world.request sha256 token = { world with
      authCache := (world.authCache.get world.clock token).1
      authenticated := ⟨token, world.heard (sha256 token), cached.deletions⟩ ::
        world.authenticated } := by
  simp only [request, hit]

/-- Without one a lookup begins. -/
theorem request_miss {token : String}
    (miss : (world.authCache.get world.clock token).2 = none) :
    world.request sha256 token = { world with
      authCache := (world.authCache.get world.clock token).1
      lookups := world.lookups ++ [{ token }] } := by
  simp only [request, miss]

/-- What a lookup that comes back does to the cache. -/
theorem fill_cases {position : Nat} (taken : world.fill sha256 position = some next) :
    ∃ lookup row deletions, world.lookups[position]? = some lookup ∧
      lookup.phase = .read row deletions ∧
      (row = none ∧ next = { world with lookups := world.lookups.eraseIdx position } ∨
      ∃ found limit, row = some (found, limit) ∧
        ((∃ cache : LRUCache String CachedAuthKey,
            world.overflows (sha256 lookup.token) lookup.token = true ∧
            cache.defaultTtlMs = world.authCache.defaultTtlMs ∧
            next = { world with
              lookups := world.lookups.eraseIdx position
              authCache := cache.clear
              tokenHashToToken := [] }) ∨
        world.overflows (sha256 lookup.token) lookup.token = false ∧
          next = { world with
            lookups := world.lookups.eraseIdx position
            authCache := world.authCache.set world.clock lookup.token ⟨found.projectId,
              limit.getD 600, found.role, sha256 lookup.token, deletions⟩
            tokenHashToToken :=
              mapSet world.tokenHashToToken (sha256 lookup.token) lookup.token })) := by
  obtain ⟨lookup, present, ends⟩ := Option.bind_eq_some_iff.mp taken
  cases phase : lookup.phase with
  | sent => simp [phase] at ends
  | read row deletions =>
    refine ⟨lookup, row, deletions, present, phase, ?_⟩
    simp only [phase] at ends
    cases row with
    | none => exact .inl ⟨rfl, (Option.some.inj ends).symm⟩
    | some pair =>
      obtain ⟨found, limit⟩ := pair
      refine .inr ⟨found, limit, rfl, ?_⟩
      dsimp only at ends
      split at ends
      next isOver =>
        exact .inl ⟨_, isOver, LRUCache.set_ttl .., (Option.some.inj ends).symm⟩
      next within =>
        exact .inr ⟨Bool.not_eq_true _ ▸ within, (Option.some.inj ends).symm⟩

/-- A message takes away the cache, or single entries of it. -/
theorem onMessage_cases {position : Nat} (taken : world.onMessage position = some next) :
    ∃ message cache map, world.messages[position]? = some message ∧
      cache.defaultTtlMs = world.authCache.defaultTtlMs ∧
      (∀ entry ∈ cache.entries, entry ∈ world.authCache.entries) ∧
      (message.tokenHash = "*" → cache.entries = []) ∧
      next = { world with
        messages := world.messages.eraseIdx position
        heard := fun hash => max (world.heard hash) (message.follows hash)
        authCache := cache
        tokenHashToToken := map } := by
  obtain ⟨message, present, ends⟩ := Option.bind_eq_some_iff.mp taken
  dsimp only at ends
  split at ends
  next =>
    exact ⟨message, world.authCache.clear, _, present, rfl, nofun, fun _ => rfl,
      (Option.some.inj ends).symm⟩
  next single =>
    split at ends
    next token _ =>
      exact ⟨message, (world.authCache.delete token).delete message.tokenHash, _, present, rfl,
        fun entry member => (LRUCache.mem_delete.mp (LRUCache.mem_delete.mp member).1).1,
        fun all => absurd all single, (Option.some.inj ends).symm⟩
    next =>
      exact ⟨message, world.authCache.delete message.tokenHash, _, present, rfl,
        fun entry member => (LRUCache.mem_delete.mp member).1, fun all => absurd all single,
        (Option.some.inj ends).symm⟩

/-- Messages that name one hash follow no deletion, and entries are kept for a time. -/
structure Announced (world : AuthWorld) : Prop where
  deleting : ∀ message ∈ world.deleting, message.tokenHash = "*"
  messages : ∀ message ∈ world.messages, message.tokenHash ≠ "*" → ∀ hash, message.follows hash = 0
  lasting : world.authCache.defaultTtlMs = 60_000

/-- Nothing was announced yet. -/
theorem Announced.start : Announced {} := ⟨nofun, nofun, rfl⟩

/-- One step. -/
theorem Announced.step (announced : world.Announced) {action : AuthAction}
    (taken : authStep sha256 world action = some next) : next.Announced := by
  obtain ⟨deleting, messages, lasting⟩ := announced
  cases action with
  | request token =>
    obtain rfl := Option.some.inj taken
    have same := LRUCache.get_ttl world.authCache world.clock token
    cases answered : (world.authCache.get world.clock token).2 with
    | none =>
      rw [request_miss answered]
      exact ⟨deleting, messages, same.trans lasting⟩
    | some cached =>
      rw [request_hit answered]
      exact ⟨deleting, messages, same.trans lasting⟩
  | query position =>
    obtain ⟨lookup, _, ends⟩ := Option.bind_eq_some_iff.mp taken
    obtain ⟨_, same⟩ := Option.ite_none_right_eq_some.mp ends
    obtain rfl := Option.some.inj same
    exact ⟨deleting, messages, lasting⟩
  | fill position =>
    obtain ⟨lookup, row, deletions, _, _, ⟨_, rfl⟩ |
      ⟨found, limit, _, ⟨cache, _, same, rfl⟩ | ⟨_, rfl⟩⟩⟩ := fill_cases taken
    · exact ⟨deleting, messages, lasting⟩
    · exact ⟨deleting, messages, same.trans lasting⟩
    · exact ⟨deleting, messages, (LRUCache.set_ttl ..).trans lasting⟩
  | createApiKey row =>
    obtain ⟨_, same⟩ := Option.ite_none_right_eq_some.mp taken
    obtain rfl := Option.some.inj same
    exact ⟨deleting, messages, lasting⟩
  | deleteProjectKey projectId keyId =>
    obtain rfl := Option.some.inj taken
    unfold deleteProjectKey
    dsimp only
    split
    · exact ⟨deleting, messages, lasting⟩
    · exact ⟨all_append deleting rfl, messages, lasting⟩
  | publish position =>
    obtain ⟨message, present, same⟩ := Option.bind_eq_some_iff.mp taken
    obtain rfl := Option.some.inj same
    have all := deleting message (List.mem_of_getElem? present)
    exact ⟨fun other member => deleting other (List.mem_of_mem_eraseIdx member),
      all_append messages fun single => absurd all single, lasting⟩
  | announce tokenHash =>
    obtain rfl := Option.some.inj taken
    exact ⟨deleting, all_append messages fun _ _ => rfl, lasting⟩
  | setLimit projectId limit =>
    obtain rfl := Option.some.inj taken
    exact ⟨deleting, messages, lasting⟩
  | onMessage position =>
    obtain ⟨message, cache, map, _, same, _, _, rfl⟩ := onMessage_cases taken
    exact ⟨deleting, fun other member => messages other (List.mem_of_mem_eraseIdx member),
      same.trans lasting⟩
  | tick ms =>
    obtain rfl := Option.some.inj taken
    exact ⟨deleting, messages, lasting⟩

/-- What is cached was read after the deletions of its key that the process has heard of. -/
structure Kept (sha256 : String → String) (world : AuthWorld) : Prop where
  fresh : world.authCache.Fresh CachedAuthKey.deletions fun token => world.heard (sha256 token)
  revoked : world.Revoked

namespace Kept

/-- A request is authenticated with a key that is fresh, or asks the database. -/
theorem request (kept : world.Kept sha256) (token : String) :
    (world.request sha256 token).Kept sha256 := by
  have read := kept.fresh.get world.clock token
  cases answered : (world.authCache.get world.clock token).2 with
  | none =>
    rw [request_miss answered]
    exact ⟨read, kept.revoked⟩
  | some cached =>
    rw [request_hit answered]
    have since := kept.fresh.answer answered
    exact ⟨read, List.forall_mem_cons.mpr ⟨since, kept.revoked⟩⟩

/-- A lookup that comes back in time. -/
theorem fill (kept : world.Kept sha256) {position : Nat}
    (inTime : ReadInTime sha256 world (.fill position))
    (taken : world.fill sha256 position = some next) : next.Kept sha256 := by
  obtain ⟨lookup, row, deletions, present, phase, ⟨_, rfl⟩ |
    ⟨found, limit, rfl, ⟨cache, _, _, rfl⟩ | ⟨within, rfl⟩⟩⟩ := fill_cases taken
  · exact ⟨kept.fresh, kept.revoked⟩
  · exact ⟨.clear _ _ _, kept.revoked⟩
  · have since := inTime lookup present
    simp only [phase] at since
    exact ⟨kept.fresh.set (since within) _, kept.revoked⟩

/-- A message that follows deletions takes everything with it. -/
theorem onMessage (kept : world.Kept sha256) (announced : world.Announced) {position : Nat}
    (taken : world.onMessage position = some next) : next.Kept sha256 := by
  obtain ⟨message, cache, map, present, _, fewer, all, rfl⟩ := onMessage_cases taken
  refine ⟨fun entry member => ?_, kept.revoked⟩
  dsimp only at member ⊢
  by_cases every : message.tokenHash = "*"
  · rw [all every] at member
    cases member
  · have nothing := announced.messages message (List.mem_of_getElem? present) every
    rw [nothing, Nat.max_zero]
    exact kept.fresh entry (fewer entry member)

/-- One step. -/
theorem step (kept : world.Kept sha256) (announced : world.Announced) {action : AuthAction}
    (inTime : ReadInTime sha256 world action) (taken : authStep sha256 world action = some next) :
    next.Kept sha256 := by
  cases action with
  | request token =>
    obtain rfl := Option.some.inj taken
    exact kept.request token
  | query position =>
    obtain ⟨lookup, _, ends⟩ := Option.bind_eq_some_iff.mp taken
    obtain ⟨_, same⟩ := Option.ite_none_right_eq_some.mp ends
    obtain rfl := Option.some.inj same
    exact ⟨kept.fresh, kept.revoked⟩
  | fill position => exact kept.fill inTime taken
  | createApiKey row =>
    obtain ⟨_, same⟩ := Option.ite_none_right_eq_some.mp taken
    obtain rfl := Option.some.inj same
    exact ⟨kept.fresh, kept.revoked⟩
  | deleteProjectKey projectId keyId =>
    obtain rfl := Option.some.inj taken
    unfold deleteProjectKey
    dsimp only
    split
    · exact kept
    · exact ⟨kept.fresh, kept.revoked⟩
  | publish position =>
    obtain ⟨message, _, same⟩ := Option.bind_eq_some_iff.mp taken
    obtain rfl := Option.some.inj same
    exact ⟨kept.fresh, kept.revoked⟩
  | onMessage position => exact kept.onMessage announced taken
  | announce _ | setLimit _ _ | tick _ =>
    obtain rfl := Option.some.inj taken
    exact ⟨kept.fresh, kept.revoked⟩

end Kept

/-- A lookup that comes back late puts the deleted key into the cache, and the next request with it
is authenticated. -/
theorem late_request (announced : world.Announced) {action : AuthAction}
    (late : ¬ ReadInTime sha256 world action) (taken : authStep sha256 world action = some next) :
    ∃ token later, authStep sha256 next (.request token) = some later ∧ ¬ later.Revoked := by
  obtain ⟨position, rfl⟩ : ∃ position, action = .fill position := by
    cases action with
    | fill position => exact ⟨position, rfl⟩
    | _ => exact absurd trivial late
  obtain ⟨lookup, row, deletions, present, phase, ends⟩ := fill_cases taken
  have notYet : ∃ pair, row = some pair ∧
      world.overflows (sha256 lookup.token) lookup.token = false ∧
      deletions < world.heard (sha256 lookup.token) := by
    by_contra missing
    refine late fun other found => ?_
    obtain rfl : lookup = other := Option.some.inj (present.symm.trans found)
    cases row with
    | none => simp [phase]
    | some pair =>
      simp only [phase]
      intro within
      exact Nat.le_of_not_lt fun stale => missing ⟨pair, rfl, within, stale⟩
  obtain ⟨pair, rfl, within, stale⟩ := notYet
  obtain ⟨none', _⟩ | ⟨found, limit, _, ⟨_, isOver, _, _⟩ | ⟨_, rfl⟩⟩ := ends
  · cases none'
  · rw [within] at isOver
    cases isOver
  · have inTime : world.clock ≤ world.clock + world.authCache.defaultTtlMs := by
      rw [announced.lasting]
      omega
    refine ⟨lookup.token, _, rfl, fun revoked => ?_⟩
    rw [request_hit (LRUCache.get_set inTime)] at revoked
    have since := revoked _ List.mem_cons_self
    exact absurd since (Nat.not_le.mpr stale)

end AuthWorld

/-- As long as every lookup that read its row before the key was deleted comes back before the
process hears of the deletion, no request is authenticated from the cache with a key of whose
deletion the process had heard. A later one is what the next request with the key is authenticated
by. -/
theorem revoked_iff (sha256 : String → String) :
    (∀ world, Reaches (authStep sha256) (ReadInTime sha256) {} world → world.Revoked) ∧
    ∀ world action next, Reaches (authStep sha256) anyStep {} world →
      authStep sha256 world action = some next → ¬ ReadInTime sha256 world action →
      ∃ token later, authStep sha256 next (.request token) = some later ∧ ¬ later.Revoked := by
  have announced : ∀ world, Reaches (authStep sha256) anyStep {} world → world.Announced :=
    fun world run => run.invariant .start fun _ _ _ announced _ taken => announced.step taken
  constructor
  · intro world run
    have start : AuthWorld.Kept sha256 {} := ⟨nofun, nofun⟩
    have known : ∀ reached, Reaches (authStep sha256) (ReadInTime sha256) {} reached →
        reached.Announced := fun reached earlier =>
      announced reached (earlier.weaken fun _ _ _ => trivial)
    have kept : world.Kept sha256 :=
      run.invariant_given known start fun _ _ _ known kept inTime taken =>
        kept.step known inTime taken
    exact kept.revoked
  · intro world action next run taken late
    exact AuthWorld.late_request (announced world run) late taken

/-- A key in a hash that leaves tokens as they are. -/
def anyKey : ApiKeyRow := ⟨"k", "p", "token", .admin⟩

/-- The world after some steps. -/
def authAfter (actions : List AuthAction) : AuthWorld :=
  (perform (authStep id) {} actions).getD {}

/-- A key is looked up, deleted, announced and heard of, and then the lookup comes back. -/
def lateFill : List AuthAction :=
  [.createApiKey anyKey, .request "token", .query 0, .deleteProjectKey "p" "k", .publish 0,
    .onMessage 0, .fill 0]

/-- The next request with the deleted key is authenticated from the cache. -/
theorem deleted_key_authenticated : ¬ ∀ sha256 world,
    Reaches (authStep sha256) anyStep {} world → world.Revoked := by
  intro always
  have run : Reaches (authStep id) anyStep {} (authAfter (lateFill ++ [AuthAction.request "token"])) :=
    reaches_any_performed _ (by decide +kernel)
  exact absurd (always id _ run ⟨"token", 1, 0⟩ (by decide +kernel)) (by decide)

/-- A key is cached and used, deleted, announced and heard of, and no longer found. -/
def heardInTime : List AuthAction :=
  [.createApiKey anyKey, .request "token", .query 0, .fill 0, .request "token",
    .deleteProjectKey "p" "k", .publish 0, .onMessage 0, .request "token", .query 0, .fill 0]

/-- The key was authenticated before it was deleted only; a late lookup would let it in again. -/
theorem revoked_run :
    (authAfter heardInTime).authenticated = [⟨"token", 0, 0⟩] ∧
      (authAfter heardInTime).Revoked ∧
      ∃ token later, authStep id (authAfter lateFill) (.request token) = some later ∧
        ¬ later.Revoked := by
  have inTime : Reaches (authStep id) (ReadInTime id) {} (authAfter heardInTime) :=
    reaches_performed _ (by decide +kernel) (by decide +kernel)
  have waits : Reaches (authStep id) anyStep {} (authAfter lateFill.dropLast) :=
    reaches_any_performed _ (by decide +kernel)
  exact ⟨by decide +kernel, (revoked_iff id).1 _ inTime,
    (revoked_iff id).2 _ (.fill 0) _ waits rfl (by decide +kernel)⟩

end Notifkit.Api
