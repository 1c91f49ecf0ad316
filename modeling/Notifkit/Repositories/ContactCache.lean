import Notifkit.Foundations.Runs
import Notifkit.Foundations.Tables
import Notifkit.Repositories.ContactTables
import Notifkit.Shared.LruCache

/-!
# Active contacts, and contacts that are taken away

A repository keeps the active contacts of a user for half a minute. A lookup for many users answers
from the cache what it has there, reads the rows of the others and then their topics, and only then
puts what it found into the cache. A contact is deactivated or deleted in two statements, and the
entry of its user is dropped before the first of them.

Between the drop and the change of the row a lookup may read the row as it was, and what it found
may go into the cache at any later time. The contact is then answered although it was taken away.
-/

namespace Notifkit.Repositories.ContactRepository

open Pipeline Upserts Runs Shared

/-- A channel and a target. -/
abbrev Address := NotificationChannel × Text

/-- The active contacts of a user, with the topics chosen for each. -/
abbrev Addresses := Address → Option (Text → Option Bool)

/-- How far a lookup is. -/
inductive LookupPhase where
  | querying
  /-- the rows are read, of each user the addresses that are active -/
  | fetched (rows : Text → Address → Bool)
  | returned (byUser : List (Text × Addresses))

/-- A call of `findActiveByUserIds`. -/
structure Lookup where
  projectId : Uuid
  /-- what the cache had -/
  hits : List (Text × Addresses)
  missing : List Text
  phase : LookupPhase
  /-- the contacts that were gone when it was called, and were not added since; no step looks at
  it -/
  gone : ContactKey → Bool

/-- How far a call that takes a contact away is. -/
inductive RemovalPhase where
  | dropped
  | located (internalId : Uuid)
  | changed (internalId : Uuid) (affected : Bool)
  | resolved (result : Bool)
deriving DecidableEq

/-- A call of `deactivate`, or of `delete`. -/
structure Removal where
  erase : Bool
  projectId : Uuid
  userId : Text
  address : Address
  phase : RemovalPhase := .dropped
  /-- the row was changed, and the contact was not added since; no step looks at it -/
  standing : Bool := false
deriving DecidableEq

structure ContactWorld where
  tables : ContactTables := {}
  cache : LRUCache Text Addresses := { maxSize := 5000, defaultTtlMs := 30_000 }
  now : Int := 0
  lookups : List Lookup := []
  removals : List Removal := []
  /-- contacts whose row a removal changed, and that were not added since -/
  removed : ContactKey → Bool := fun _ => false
  /-- those of them whose removal has resolved true -/
  gone : ContactKey → Bool := fun _ => false

inductive ContactAction where
  | findActiveByUserIds (projectId : Uuid) (userIds : List Text)
  | query (lookup : Nat)
  | finish (lookup : Nat)
  | deactivate (projectId : Uuid) (userId : Text) (address : Address)
  | delete (projectId : Uuid) (userId : Text) (address : Address)
  | locate (removal : Nat)
  | change (removal : Nat)
  | resolve (removal : Nat)
  /-- the row of a contact is written by any other statement, here or elsewhere -/
  | write (key : ContactKey) (row : Option ContactRow)
  | writeTopic (key : Uuid × Text) (enabled : Option Bool)
  /-- an entry is dropped at the end of an upsert -/
  | drop (projectId : Uuid) (userId : Text)
  | tick (milliseconds : Nat)

/-- The part of a lookup before its first query: what the cache has, and who is missing there. -/
def askCache (now : Int) (projectId : Uuid) :
    List Text → LRUCache Text Addresses →
      LRUCache Text Addresses × List (Text × Addresses) × List Text
  | [], cache => (cache, [], [])
  | userId :: rest, cache =>
    match cache.get now (Uuid.beside (projectId, userId)) with
    | (cache, some cached) =>
      let (cache, hits, missing) := askCache now projectId rest cache
      (cache, (userId, cached) :: hits, missing)
    | (cache, none) =>
      let (cache, hits, missing) := askCache now projectId rest cache
      (cache, hits, userId :: missing)

section Steps

variable (ids : ContactIds) (users : UserRows)

/-- The query for rows: the enabled contacts of the users that are missing. -/
def activeRows (tables : ContactTables) (projectId : Uuid) (missing : List Text) (userId : Text)
    (address : Address) : Bool :=
  decide (userId ∈ missing) && ((users.id (projectId.text, userId)).bind fun internalId =>
    tables.contacts (internalId, address)).any ContactRow.enabled

/-- The contacts of a user, from the rows that were read and the topics as they are now. -/
def contactsFrom (tables : ContactTables) (projectId : Uuid) (rows : Text → Address → Bool)
    (userId : Text) : Addresses := fun address =>
  if rows userId address then
    some fun topic => (users.id (projectId.text, userId)).bind fun internalId =>
      tables.topics (ids.uuid (internalId, address), topic)
  else none

/-- The fetched contacts go into the cache, user by user. -/
def storeAll (now : Int) (projectId : Uuid) (contacts : Text → Addresses) (missing : List Text)
    (cache : LRUCache Text Addresses) : LRUCache Text Addresses :=
  missing.foldl (fun cache userId =>
    cache.set now (Uuid.beside (projectId, userId)) (contacts userId)) cache

/-- A contact counts as added again where its row is written as enabled. -/
def revive (key : ContactKey) (row : Option ContactRow) (flags : ContactKey → Bool) :
    ContactKey → Bool := fun other =>
  if other = key ∧ row.any ContactRow.enabled = true then false else flags other

/-- A removal begins: the entry of the user is dropped. -/
def ContactWorld.remove (world : ContactWorld) (erase : Bool) (projectId : Uuid) (userId : Text)
    (address : Address) : ContactWorld := { world with
  cache := world.cache.delete (Uuid.beside (projectId, userId))
  removals := world.removals ++
    [{ erase := erase, projectId := projectId, userId := userId, address := address }] }

/-- One statement, or what runs between two of them. -/
def contactStep (world : ContactWorld) : ContactAction → Option ContactWorld
  | .findActiveByUserIds projectId userIds =>
    let (cache, hits, missing) := askCache world.now projectId userIds world.cache
    some { world with
      cache := cache
      lookups := world.lookups ++ [{
        projectId := projectId
        hits := hits
        missing := missing
        phase := if missing = [] then .returned hits else .querying
        gone := world.gone }] }
  | .query index =>
    match world.lookups[index]? with
    | some lookup =>
      match lookup.phase with
      | .querying => some { world with lookups := world.lookups.set index { lookup with
          phase := .fetched (activeRows users world.tables lookup.projectId lookup.missing) } }
      | _ => none
    | none => none
  | .finish index =>
    match world.lookups[index]? with
    | some lookup =>
      match lookup.phase with
      | .fetched rows =>
        let contacts := contactsFrom ids users world.tables lookup.projectId rows
        some { world with
          cache := storeAll world.now lookup.projectId contacts lookup.missing world.cache
          lookups := world.lookups.set index { lookup with
            phase := .returned (lookup.hits ++
              lookup.missing.map fun userId => (userId, contacts userId)) } }
      | _ => none
    | none => none
  | .deactivate projectId userId address => some (world.remove false projectId userId address)
  | .delete projectId userId address => some (world.remove true projectId userId address)
  | .locate index =>
    match world.removals[index]? with
    | some removal =>
      match removal.phase with
      | .dropped => some { world with removals := world.removals.set index { removal with
          phase := match users.id (removal.projectId.text, removal.userId) with
            | some internalId => .located internalId
            | none => .resolved false } }
      | _ => none
    | none => none
  | .change index =>
    match world.removals[index]? with
    | some removal =>
      match removal.phase with
      | .located internalId =>
        let key := (internalId, removal.address)
        let affected := (world.tables.contacts key).isSome
        some { world with
          tables := {
            contacts := fun other =>
              if other = key then
                if removal.erase then none
                else (world.tables.contacts key).map fun row => { row with enabled := false }
              else world.tables.contacts other
            -- the topics of a deleted contact go with it
            topics := fun other =>
              if removal.erase && affected && decide (other.1 = ids.uuid key) then none
              else world.tables.topics other }
          removals := world.removals.set index { removal with
            phase := .changed internalId affected, standing := affected }
          removed := fun other => if other = key ∧ affected = true then true
            else world.removed other }
      | _ => none
    | none => none
  | .resolve index =>
    match world.removals[index]? with
    | some removal =>
      match removal.phase with
      | .changed internalId affected => some { world with
          removals := world.removals.set index { removal with phase := .resolved affected }
          gone := fun other => if other = (internalId, removal.address) ∧ removal.standing = true
            then true else world.gone other }
      | _ => none
    | none => none
  | .write key row => some { world with
      tables := { world.tables with contacts := fun other =>
        if other = key then row else world.tables.contacts other }
      lookups := world.lookups.map fun lookup =>
        { lookup with gone := revive key row lookup.gone }
      removals := world.removals.map fun removal => { removal with
        standing := removal.standing &&
          !((users.id (removal.projectId.text, removal.userId)).any fun internalId =>
            decide ((internalId, removal.address) = key) && row.any ContactRow.enabled) }
      removed := revive key row world.removed
      gone := revive key row world.gone }
  | .writeTopic key enabled => some { world with
      tables := { world.tables with topics := fun other =>
        if other = key then enabled else world.tables.topics other } }
  | .drop projectId userId => some { world with
      cache := world.cache.delete (Uuid.beside (projectId, userId)) }
  | .tick milliseconds => some { world with now := world.now + milliseconds }

end Steps

/-- The contacts found for a user list the contact. -/
def Names (users : UserRows) (projectId : Uuid) (found : Text × Addresses) (key : ContactKey) :
    Prop :=
  users.id (projectId.text, found.1) = some key.1 ∧ (found.2 key.2).isSome = true

/-- No lookup returns a contact that was gone when it was called, and was not added since. -/
def NoneReturned (users : UserRows) (world : ContactWorld) : Prop :=
  ∀ lookup ∈ world.lookups, ∀ byUser, lookup.phase = .returned byUser →
    ∀ found ∈ byUser, ∀ key, Names users lookup.projectId found key → lookup.gone key = false

/-- The rows a lookup has read, and has not stored yet, have the address. -/
def LookupPhase.reads : LookupPhase → Text → Address → Bool
  | .fetched rows => rows
  | _ => fun _ _ => false

/-- The contact has a row. -/
def Removal.there (users : UserRows) (tables : ContactTables) (removal : Removal) : Bool :=
  (users.id (removal.projectId.text, removal.userId)).any fun internalId =>
    (tables.contacts (internalId, removal.address)).isSome

/-- When the row of a contact is changed, neither the cache nor a lookup under way has the
contact. -/
def Undisturbed (users : UserRows) (world : ContactWorld) : ContactAction → Prop
  | .change index => ∀ removal ∈ world.removals[index]?,
      removal.there users world.tables = true →
      (∀ entry ∈ world.cache.entries,
        entry.key = Uuid.beside (removal.projectId, removal.userId) →
        world.now ≤ entry.expiresAt → (entry.value removal.address).isSome = false) ∧
      ∀ lookup ∈ world.lookups, lookup.projectId = removal.projectId →
        lookup.phase.reads removal.userId removal.address = false
  | _ => True

instance (users : UserRows) (world : ContactWorld) (action : ContactAction) :
    Decidable (Undisturbed users world action) := by
  unfold Undisturbed
  split <;> infer_instance

section Invariants

variable {ids : ContactIds} {users : UserRows} {removed removed' : ContactKey → Bool}
  {world after : ContactWorld}

/-- What is still answered from the cache lists no contact that was taken away. -/
def CacheSettled (users : UserRows) (removed : ContactKey → Bool) (now : Int)
    (cache : LRUCache Text Addresses) : Prop :=
  ∀ entry ∈ cache.entries, now ≤ entry.expiresAt → ∀ projectId userId,
    entry.key = Uuid.beside (projectId, userId) → ∀ key,
      Names users projectId (userId, entry.value) key → removed key = false

/-- What a lookup has so far. -/
structure LookupSettled (users : UserRows) (removed : ContactKey → Bool) (lookup : Lookup) :
    Prop where
  gone : ∀ key, lookup.gone key = true → removed key = true
  hits : ∀ found ∈ lookup.hits, ∀ key, Names users lookup.projectId found key →
    lookup.gone key = false
  fetched : ∀ rows, lookup.phase = .fetched rows → ∀ userId key,
    users.id (lookup.projectId.text, userId) = some key.1 → rows userId key.2 = true →
      removed key = false
  returned : ∀ byUser, lookup.phase = .returned byUser → ∀ found ∈ byUser, ∀ key,
    Names users lookup.projectId found key → lookup.gone key = false

/-- A removal that changed the row still stands. -/
def RemovalSettled (users : UserRows) (removed : ContactKey → Bool) (removal : Removal) : Prop :=
  removal.standing = true → ∀ internalId,
    users.id (removal.projectId.text, removal.userId) = some internalId →
      removed (internalId, removal.address) = true

/-- What holds in any run: the cache is as it was made, a lookup reads rows of users it misses, and
a removal works on the id of its user. -/
structure Ordinary (users : UserRows) (world : ContactWorld) : Prop where
  maxSize : world.cache.maxSize = 5000
  ttl : world.cache.defaultTtlMs = 30_000
  fetched : ∀ lookup ∈ world.lookups, ∀ userId address,
    lookup.phase.reads userId address = true → userId ∈ lookup.missing
  located : ∀ removal ∈ world.removals, ∀ internalId,
    (removal.phase = .located internalId ∨ ∃ affected, removal.phase = .changed internalId affected) →
      users.id (removal.projectId.text, removal.userId) = some internalId

/-- A contact that was taken away is inactive, and nothing that is yet to be answered has it. -/
structure Settled (users : UserRows) (world : ContactWorld) : Prop where
  row : ∀ key, world.removed key = true →
    (world.tables.contacts key).any ContactRow.enabled = false
  gone : ∀ key, world.gone key = true → world.removed key = true
  cache : CacheSettled users world.removed world.now world.cache
  lookups : ∀ lookup ∈ world.lookups, LookupSettled users world.removed lookup
  removals : ∀ removal ∈ world.removals, RemovalSettled users world.removed removal

/-- A flag that implies one that is down is down. -/
theorem down {flag other : Bool} (implies : flag = true → other = true) (lowered : other = false) :
    flag = false := by
  cases flag with
  | false => rfl
  | true => exact absurd (implies rfl) (by rw [lowered]; decide)

/-- A cache with fewer entries. -/
theorem CacheSettled.fewer {now : Int} {cache cache' : LRUCache Text Addresses}
    (settled : CacheSettled users removed now cache)
    (fewer : ∀ entry ∈ cache'.entries, entry ∈ cache.entries) :
    CacheSettled users removed now cache' :=
  fun entry member => settled entry (fewer entry member)

/-- What the cache answers at the start of a lookup stood in it. -/
theorem askCache_spec (now : Int) (projectId : Uuid) (userIds : List Text)
    (cache : LRUCache Text Addresses) :
    (∀ entry ∈ (askCache now projectId userIds cache).1.entries, entry ∈ cache.entries) ∧
    ∀ found ∈ (askCache now projectId userIds cache).2.1, ∃ expiresAt,
      (⟨Uuid.beside (projectId, found.1), found.2, expiresAt⟩ : Cached Text Addresses) ∈
        cache.entries ∧ now ≤ expiresAt := by
  induction userIds generalizing cache with
  | nil => exact ⟨fun _ member => member, nofun⟩
  | cons userId rest inductionHypothesis =>
    unfold askCache
    cases answer : cache.get now (Uuid.beside (projectId, userId)) with
    | mk later cached =>
      have kept : ∀ entry ∈ later.entries, entry ∈ cache.entries := by
        intro entry member
        have there : entry ∈ (cache.get now (Uuid.beside (projectId, userId))).1.entries := by
          rwa [answer]
        exact LRUCache.mem_of_get there
      obtain ⟨fewer, hits⟩ := inductionHypothesis later
      have earlier : ∀ found ∈ (askCache now projectId rest later).2.1, ∃ expiresAt,
          (⟨Uuid.beside (projectId, found.1), found.2, expiresAt⟩ : Cached Text Addresses) ∈
            cache.entries ∧ now ≤ expiresAt := by
        intro found member
        obtain ⟨expiresAt, listed, live⟩ := hits found member
        exact ⟨expiresAt, kept _ listed, live⟩
      cases cached with
      | none => exact ⟨fun entry member => kept entry (fewer entry member), earlier⟩
      | some addresses =>
        refine ⟨fun entry member => kept entry (fewer entry member), fun found member => ?_⟩
        obtain rfl | inside := List.mem_cons.mp member
        · have cached : (cache.get now (Uuid.beside (projectId, userId))).2 = some addresses := by
            rw [answer]
          exact LRUCache.get_eq_some.mp cached
        · exact earlier found inside

/-- What is stored at the end of a lookup is what it had found. -/
theorem mem_storeAll {now : Int} {projectId : Uuid} {contacts : Text → Addresses}
    {missing : List Text} {cache : LRUCache Text Addresses} {entry : Cached Text Addresses}
    (member : entry ∈ (storeAll now projectId contacts missing cache).entries) :
    entry ∈ cache.entries ∨ ∃ userId, entry.key = Uuid.beside (projectId, userId) ∧
      entry.value = contacts userId := by
  unfold storeAll at member
  induction missing generalizing cache with
  | nil => exact .inl member
  | cons userId rest inductionHypothesis =>
    obtain old | stored := inductionHypothesis member
    · obtain rfl | ⟨before, _⟩ := LRUCache.mem_of_set old
      · exact .inr ⟨userId, rfl, rfl⟩
      · exact .inl before
    · exact .inr stored

/-- The contacts that are found are those whose rows were read. -/
theorem contactsFrom_isSome (tables : ContactTables) (projectId : Uuid)
    (rows : Text → Address → Bool) (userId : Text) (address : Address) :
    (contactsFrom ids users tables projectId rows userId address).isSome = rows userId address := by
  unfold contactsFrom
  cases rows userId address <;> rfl

/-- A lookup is called. -/
theorem Settled.find (settled : Settled users world) (projectId : Uuid) (userIds : List Text)
    (taken : contactStep ids users world (.findActiveByUserIds projectId userIds) =
      some after) : Settled users after := by
  obtain rfl := Option.some.inj taken
  obtain ⟨fewer, hits⟩ := askCache_spec world.now projectId userIds world.cache
  have answered : ∀ found ∈ (askCache world.now projectId userIds world.cache).2.1, ∀ key,
      Names users projectId found key → world.gone key = false := by
    intro found member key names
    obtain ⟨expiresAt, listed, live⟩ := hits found member
    exact down (settled.gone key) (settled.cache _ listed live projectId found.1 rfl key names)
  refine ⟨settled.row, settled.gone, settled.cache.fewer fewer, ?_, settled.removals⟩
  refine Tables.all_append settled.lookups ⟨settled.gone, answered, ?_, ?_⟩
  · intro rows phase
    dsimp only at phase
    split at phase <;> cases phase
  · intro byUser phase
    dsimp only at phase
    split at phase
    · obtain rfl := LookupPhase.returned.inj phase
      exact answered
    · cases phase

/-- A lookup reads the rows: none of a contact that was taken away. -/
theorem Settled.query (settled : Settled users world) {index : Nat}
    (taken : contactStep ids users world (.query index) = some after) :
    Settled users after := by
  simp only [contactStep] at taken
  split at taken
  next lookup here =>
    split at taken
    next phase =>
      obtain rfl := Option.some.inj taken
      have own := settled.lookups lookup (List.mem_of_getElem? here)
      refine ⟨settled.row, settled.gone, settled.cache, ?_, settled.removals⟩
      refine Tables.all_set settled.lookups ⟨own.gone, own.hits, ?_, nofun⟩
      intro rows same userId key user active
      obtain rfl := LookupPhase.fetched.inj same
      unfold activeRows at active
      rw [user] at active
      obtain ⟨_, enabled⟩ := (Bool.and_eq_true_iff).mp active
      cases taken' : world.removed key with
      | false => rfl
      | true =>
        have inactive := settled.row key taken'
        rw [← enabled, ← inactive]
        rfl
    next => cases taken
  next => cases taken

/-- A lookup ends: what it stores and returns is what it had. -/
theorem Settled.finish (settled : Settled users world) {index : Nat}
    (taken : contactStep ids users world (.finish index) = some after) :
    Settled users after := by
  simp only [contactStep] at taken
  split at taken
  next lookup here =>
    split at taken
    next rows phase =>
      obtain rfl := Option.some.inj taken
      have own := settled.lookups lookup (List.mem_of_getElem? here)
      have fetched : ∀ userId key, Names users lookup.projectId
          (userId, contactsFrom ids users world.tables lookup.projectId rows userId) key →
          world.removed key = false := by
        rintro userId key ⟨user, listed⟩
        exact own.fetched rows phase userId key user ((contactsFrom_isSome ..).symm.trans listed)
      refine ⟨settled.row, settled.gone, ?_, ?_, settled.removals⟩
      · intro entry member live projectId userId named key names
        obtain old | ⟨userId', named', value⟩ := mem_storeAll member
        · exact settled.cache entry old live projectId userId named key names
        · obtain ⟨rfl, rfl⟩ := Prod.mk.inj (Uuid.beside_injective (named'.symm.trans named))
          rw [value] at names
          exact fetched userId' key names
      · refine Tables.all_set settled.lookups ⟨own.gone, own.hits, nofun, ?_⟩
        intro byUser same found member key names
        obtain rfl := LookupPhase.returned.inj same
        obtain hit | new := List.mem_append.mp member
        · exact own.hits found hit key names
        · obtain ⟨userId, _, rfl⟩ := List.mem_map.mp new
          exact down (own.gone key) (fetched userId key names)
    next => cases taken
  next => cases taken

/-- A removal begins. -/
theorem Settled.remove (settled : Settled users world) (erase : Bool) (projectId : Uuid)
    (userId : Text) (address : Address) :
    Settled users (world.remove erase projectId userId address) := by
  refine ⟨settled.row, settled.gone, ?_, settled.lookups, ?_⟩
  · exact settled.cache.fewer fun entry member => (LRUCache.mem_delete.mp member).1
  · exact Tables.all_append settled.removals nofun

/-- A removal looks its user up. -/
theorem Settled.locate (settled : Settled users world) {index : Nat}
    (taken : contactStep ids users world (.locate index) = some after) :
    Settled users after := by
  simp only [contactStep] at taken
  split at taken
  next removal here =>
    split at taken
    next phase =>
      obtain rfl := Option.some.inj taken
      have own := settled.removals removal (List.mem_of_getElem? here)
      exact ⟨settled.row, settled.gone, settled.cache, settled.lookups,
        Tables.all_set settled.removals own⟩
    next => cases taken
  next => cases taken

/-- The row of a contact is changed while nothing else has it. -/
theorem Settled.change (settled : Settled users world) (ordinary : Ordinary users world)
    {index : Nat} (undisturbed : Undisturbed users world (.change index))
    (taken : contactStep ids users world (.change index) = some after) :
    Settled users after := by
  simp only [contactStep] at taken
  split at taken
  next removal here =>
    split at taken
    next internalId phase =>
      obtain rfl := Option.some.inj taken
      have located := ordinary.located removal (List.mem_of_getElem? here) internalId (.inl phase)
      -- one contact more is taken away, if it has a row
      have grown : ∀ key, world.removed key = true →
          (if key = (internalId, removal.address) ∧
            (world.tables.contacts (internalId, removal.address)).isSome = true then true
            else world.removed key) = true := by
        intro key away
        split
        · rfl
        · exact away
      have elsewhere : ∀ key, world.removed key = false →
          ¬(key = (internalId, removal.address) ∧
            (world.tables.contacts (internalId, removal.address)).isSome = true) →
          (if key = (internalId, removal.address) ∧
            (world.tables.contacts (internalId, removal.address)).isSome = true then true
            else world.removed key) = false := by
        intro key standing other
        rw [if_neg other]
        exact standing
      have there : (world.tables.contacts (internalId, removal.address)).isSome = true →
          removal.there users world.tables = true := by
        intro row
        unfold Removal.there
        rw [located]
        exact row
      have mine : ∀ (projectId : Uuid) (userId : Text),
          users.id (projectId.text, userId) = some internalId →
          projectId = removal.projectId ∧ userId = removal.userId := by
        intro projectId userId user
        obtain ⟨text, same⟩ := Prod.mk.inj (users.primary user located)
        exact ⟨Uuid.eq_of_text text, same⟩
      refine ⟨?_, ?_, ?_, ?_, ?_⟩
      · intro key taken'
        dsimp only at taken' ⊢
        by_cases same : key = (internalId, removal.address)
        · subst same
          rw [if_pos rfl]
          cases removal.erase with
          | true => rfl
          | false =>
            cases world.tables.contacts (internalId, removal.address) <;> rfl
        · rw [if_neg same]
          refine settled.row key ?_
          rwa [if_neg fun both => same both.1] at taken'
      · intro key away
        exact grown key (settled.gone key away)
      · intro entry member live projectId userId named key names
        refine elsewhere key (settled.cache entry member live projectId userId named key names) ?_
        rintro ⟨rfl, row⟩
        obtain ⟨rfl, rfl⟩ := mine projectId userId names.1
        have uncached := (undisturbed removal (Option.mem_def.mpr here) (there row)).1
        exact absurd (names.2.symm.trans (uncached entry member named live)) (by decide)
      · intro lookup member
        have one := settled.lookups lookup member
        refine ⟨fun key away => grown key (one.gone key away), one.hits, ?_, one.returned⟩
        intro rows read userId key user active
        refine elsewhere key (one.fetched rows read userId key user active) ?_
        rintro ⟨rfl, row⟩
        obtain ⟨project, rfl⟩ := mine lookup.projectId userId user
        have unread := (undisturbed removal (Option.mem_def.mpr here) (there row)).2
        have free := unread lookup member project
        rw [read] at free
        exact absurd (active.symm.trans free) (by decide)
      · refine Tables.all_set (fun other member standing id user => ?_) ?_
        · exact grown _ (settled.removals other member standing id user)
        · intro affected id user
          obtain rfl := Option.some.inj (located.symm.trans user)
          exact if_pos ⟨rfl, affected⟩
    next => cases taken
  next => cases taken

/-- A removal resolves. -/
theorem Settled.resolve (settled : Settled users world) (ordinary : Ordinary users world)
    {index : Nat}
    (taken : contactStep ids users world (.resolve index) = some after) :
    Settled users after := by
  simp only [contactStep] at taken
  split at taken
  next removal here =>
    split at taken
    next internalId affected phase =>
      obtain rfl := Option.some.inj taken
      have member := List.mem_of_getElem? here
      have own := settled.removals removal member
      have located := ordinary.located removal member internalId (.inr ⟨affected, phase⟩)
      refine ⟨settled.row, ?_, settled.cache, settled.lookups,
        Tables.all_set settled.removals own⟩
      intro key away
      dsimp only at away
      split at away
      next same =>
        obtain ⟨rfl, standing⟩ := same
        exact own standing internalId located
      next => exact settled.gone key away
    next => cases taken
  next => cases taken

/-- A flag that stays up was up, and its contact is not added. -/
theorem revive_up {key other : ContactKey} {row : Option ContactRow} {flags : ContactKey → Bool}
    (up : revive key row flags other = true) :
    flags other = true ∧ ¬(other = key ∧ row.any ContactRow.enabled = true) := by
  unfold revive at up
  split at up
  next => cases up
  next spared => exact ⟨up, spared⟩

/-- A flag that is up stays up where its contact is not added. -/
theorem revive_kept {key other : ContactKey} {row : Option ContactRow} {flags : ContactKey → Bool}
    (up : flags other = true) (spared : ¬(other = key ∧ row.any ContactRow.enabled = true)) :
    revive key row flags other = true := by
  unfold revive
  rw [if_neg spared]
  exact up

/-- A flag that is down stays down. -/
theorem revive_down {key other : ContactKey} (row : Option ContactRow)
    {flags : ContactKey → Bool} (lowered : flags other = false) :
    revive key row flags other = false := by
  unfold revive
  split
  · rfl
  · exact lowered

/-- The row of a contact is written by something else. -/
theorem Settled.write (settled : Settled users world) (key : ContactKey)
    (row : Option ContactRow)
    (taken : contactStep ids users world (.write key row) = some after) :
    Settled users after := by
  obtain rfl := Option.some.inj taken
  have still : ∀ {flags : ContactKey → Bool} other,
      (flags other = true → world.removed other = true) →
      revive key row flags other = true → revive key row world.removed other = true := by
    intro flags other implies up
    obtain ⟨was, spared⟩ := revive_up up
    exact revive_kept (implies was) spared
  refine ⟨?_, fun other => still other (settled.gone other), ?_, ?_, ?_⟩
  · intro other away
    obtain ⟨was, spared⟩ := revive_up away
    dsimp only
    by_cases same : other = key
    · rw [if_pos same]
      exact Bool.eq_false_iff.mpr fun enabled => spared ⟨same, enabled⟩
    · rw [if_neg same]
      exact settled.row other was
  · intro entry member live projectId userId named other names
    exact revive_down row (settled.cache entry member live projectId userId named other names)
  · intro lookup member
    obtain ⟨before, listed, rfl⟩ := List.mem_map.mp member
    have one := settled.lookups before listed
    refine ⟨fun other => still other (one.gone other), ?_, ?_, ?_⟩
    · intro found hit other names
      exact revive_down row (one.hits found hit other names)
    · intro rows read userId other user active
      exact revive_down row (one.fetched rows read userId other user active)
    · intro byUser result found member' other names
      exact revive_down row (one.returned byUser result found member' other names)
  · intro removal member
    obtain ⟨before, listed, rfl⟩ := List.mem_map.mp member
    intro standing internalId user
    obtain ⟨was, spared⟩ := Bool.and_eq_true_iff.mp standing
    have away := settled.removals before listed was internalId user
    refine revive_kept away ?_
    rintro ⟨same, enabled⟩
    dsimp only at same user spared
    rw [user] at spared
    simp [same, enabled] at spared

/-- Every step that does not disturb a lookup keeps contacts that were taken away out of sight. -/
theorem settled_step (settled : Settled users world) (ordinary : Ordinary users world)
    {action : ContactAction} (undisturbed : Undisturbed users world action)
    (taken : contactStep ids users world action = some after) : Settled users after := by
  cases action with
  | findActiveByUserIds projectId userIds => exact settled.find projectId userIds taken
  | query index => exact settled.query taken
  | finish index => exact settled.finish taken
  | deactivate projectId userId address =>
    obtain rfl := Option.some.inj taken
    exact settled.remove false projectId userId address
  | delete projectId userId address =>
    obtain rfl := Option.some.inj taken
    exact settled.remove true projectId userId address
  | locate index => exact settled.locate taken
  | change index => exact settled.change ordinary undisturbed taken
  | resolve index => exact settled.resolve ordinary taken
  | write key row => exact settled.write key row taken
  | writeTopic key enabled =>
    obtain rfl := Option.some.inj taken
    exact ⟨settled.row, settled.gone, settled.cache, settled.lookups, settled.removals⟩
  | drop projectId userId =>
    obtain rfl := Option.some.inj taken
    exact ⟨settled.row, settled.gone,
      settled.cache.fewer fun entry member => (LRUCache.mem_delete.mp member).1,
      settled.lookups, settled.removals⟩
  | tick milliseconds =>
    obtain rfl := Option.some.inj taken
    refine ⟨settled.row, settled.gone, ?_, settled.lookups, settled.removals⟩
    intro entry member live
    refine settled.cache entry member ?_
    dsimp only at live
    omega

/-- The start of a lookup leaves the cache as it was made. -/
theorem askCache_made (now : Int) (projectId : Uuid) (userIds : List Text)
    (cache : LRUCache Text Addresses) :
    (askCache now projectId userIds cache).1.maxSize = cache.maxSize ∧
      (askCache now projectId userIds cache).1.defaultTtlMs = cache.defaultTtlMs := by
  induction userIds generalizing cache with
  | nil => exact ⟨rfl, rfl⟩
  | cons userId rest inductionHypothesis =>
    have size := LRUCache.get_maxSize cache now (Uuid.beside (projectId, userId))
    have ttl := LRUCache.get_ttl cache now (Uuid.beside (projectId, userId))
    unfold askCache
    cases answer : cache.get now (Uuid.beside (projectId, userId)) with
    | mk later cached =>
      rw [answer] at size ttl
      obtain ⟨size', ttl'⟩ := inductionHypothesis later
      cases cached with
      | none => exact ⟨size'.trans size, ttl'.trans ttl⟩
      | some addresses => exact ⟨size'.trans size, ttl'.trans ttl⟩

/-- So does its end. -/
theorem storeAll_made (now : Int) (projectId : Uuid) (contacts : Text → Addresses)
    (missing : List Text) (cache : LRUCache Text Addresses) :
    (storeAll now projectId contacts missing cache).maxSize = cache.maxSize ∧
      (storeAll now projectId contacts missing cache).defaultTtlMs = cache.defaultTtlMs := by
  unfold storeAll
  induction missing generalizing cache with
  | nil => exact ⟨rfl, rfl⟩
  | cons userId rest inductionHypothesis =>
    obtain ⟨size, ttl⟩ := inductionHypothesis
      (cache.set now (Uuid.beside (projectId, userId)) (contacts userId))
    exact ⟨size.trans (LRUCache.set_maxSize ..), ttl.trans (LRUCache.set_ttl ..)⟩

/-- Steps keep what holds in any run. -/
theorem ordinary_step (ordinary : Ordinary users world) {action : ContactAction}
    (taken : contactStep ids users world action = some after) : Ordinary users after := by
  obtain ⟨size, ttl, fetched, located⟩ := ordinary
  cases action with
  | findActiveByUserIds projectId userIds =>
    obtain rfl := Option.some.inj taken
    obtain ⟨size', ttl'⟩ := askCache_made world.now projectId userIds world.cache
    refine ⟨size'.trans size, ttl'.trans ttl, Tables.all_append fetched ?_, located⟩
    intro userId address active
    dsimp only at active
    split at active <;> cases active
  | query index =>
    simp only [contactStep] at taken
    split at taken
    next lookup here =>
      split at taken
      next phase =>
        obtain rfl := Option.some.inj taken
        refine ⟨size, ttl, Tables.all_set fetched ?_, located⟩
        intro userId address active
        exact of_decide_eq_true (Bool.and_eq_true_iff.mp active).1
      next => cases taken
    next => cases taken
  | finish index =>
    simp only [contactStep] at taken
    split at taken
    next lookup here =>
      split at taken
      next rows phase =>
        obtain rfl := Option.some.inj taken
        obtain ⟨size', ttl'⟩ := storeAll_made world.now lookup.projectId
          (contactsFrom ids users world.tables lookup.projectId rows) lookup.missing world.cache
        exact ⟨size'.trans size, ttl'.trans ttl, Tables.all_set fetched nofun, located⟩
      next => cases taken
    next => cases taken
  | deactivate projectId userId address =>
    obtain rfl := Option.some.inj taken
    refine ⟨size, ttl, fetched, Tables.all_append located ?_⟩
    rintro internalId (phase | ⟨affected, phase⟩) <;> cases phase
  | delete projectId userId address =>
    obtain rfl := Option.some.inj taken
    refine ⟨size, ttl, fetched, Tables.all_append located ?_⟩
    rintro internalId (phase | ⟨affected, phase⟩) <;> cases phase
  | locate index =>
    simp only [contactStep] at taken
    split at taken
    next removal here =>
      split at taken
      next phase =>
        obtain rfl := Option.some.inj taken
        refine ⟨size, ttl, fetched, Tables.all_set located ?_⟩
        intro internalId reached
        dsimp only at reached
        cases user : users.id (removal.projectId.text, removal.userId) with
        | none =>
          rw [user] at reached
          obtain phase | ⟨affected, phase⟩ := reached <;> cases phase
        | some found =>
          rw [user] at reached
          obtain phase | ⟨affected, phase⟩ := reached
          · exact congrArg some (RemovalPhase.located.inj phase)
          · cases phase
      next => cases taken
    next => cases taken
  | change index =>
    simp only [contactStep] at taken
    split at taken
    next removal here =>
      split at taken
      next internalId phase =>
        obtain rfl := Option.some.inj taken
        refine ⟨size, ttl, fetched, Tables.all_set located ?_⟩
        rintro id (reached | ⟨affected, reached⟩)
        · cases reached
        · obtain ⟨rfl, _⟩ := RemovalPhase.changed.inj reached
          exact located removal (List.mem_of_getElem? here) internalId (.inl phase)
      next => cases taken
    next => cases taken
  | resolve index =>
    simp only [contactStep] at taken
    split at taken
    next removal here =>
      split at taken
      next internalId affected phase =>
        obtain rfl := Option.some.inj taken
        refine ⟨size, ttl, fetched, Tables.all_set located ?_⟩
        rintro id (reached | ⟨affected, reached⟩) <;> cases reached
      next => cases taken
    next => cases taken
  | write key row =>
    obtain rfl := Option.some.inj taken
    refine ⟨size, ttl, fun lookup member => ?_, fun removal member => ?_⟩
    · obtain ⟨before, listed, rfl⟩ := List.mem_map.mp member
      exact fetched before listed
    · obtain ⟨before, listed, rfl⟩ := List.mem_map.mp member
      exact located before listed
  | writeTopic key enabled =>
    obtain rfl := Option.some.inj taken
    exact ⟨size, ttl, fetched, located⟩
  | drop projectId userId =>
    obtain rfl := Option.some.inj taken
    exact ⟨size, ttl, fetched, located⟩
  | tick milliseconds =>
    obtain rfl := Option.some.inj taken
    exact ⟨size, ttl, fetched, located⟩

end Invariants

section Disturbances

variable {ids : ContactIds} {users : UserRows} {world after : ContactWorld}

/-- A stored entry stays where a lookup stores more, as long as the cache holds more than that. -/
theorem storeAll_behind {now : Int} {projectId : Uuid} {contacts : Text → Addresses}
    {userId : Text} {missing : List Text} {cache : LRUCache Text Addresses} {count : Nat}
    (room : count + missing.length < cache.maxSize)
    (behind : cache.Behind ⟨Uuid.beside (projectId, userId), contacts userId,
      now + cache.defaultTtlMs⟩ count) :
    ∃ count', (storeAll now projectId contacts missing cache).Behind
      ⟨Uuid.beside (projectId, userId), contacts userId, now + cache.defaultTtlMs⟩ count' := by
  unfold storeAll
  induction missing generalizing cache count with
  | nil => exact ⟨count, behind⟩
  | cons other rest inductionHypothesis =>
    rw [List.foldl_cons]
    have ttl := LRUCache.set_ttl cache now (Uuid.beside (projectId, other)) (contacts other)
    rw [← ttl]
    simp only [List.length_cons] at room
    by_cases same : other = userId
    · subst same
      refine @inductionHypothesis _ 0 ?_ ?_
      · rw [LRUCache.set_maxSize]
        omega
      · rw [ttl]
        exact LRUCache.behind_set_self ..
    · refine @inductionHypothesis _ (count + 1) ?_ ?_
      · rw [LRUCache.set_maxSize]
        omega
      · rw [ttl]
        refine behind.set ?_ (by omega) now (contacts other)
        intro named
        exact same (Prod.mk.inj (Uuid.beside_injective named)).2

/-- What a lookup had found for a user it missed is in the cache when it ends. -/
theorem storeAll_stored {now : Int} {projectId : Uuid} {contacts : Text → Addresses}
    {userId : Text} {missing : List Text} {cache : LRUCache Text Addresses}
    (member : userId ∈ missing) (room : missing.length ≤ cache.maxSize) :
    (⟨Uuid.beside (projectId, userId), contacts userId, now + cache.defaultTtlMs⟩ :
      Cached Text Addresses) ∈ (storeAll now projectId contacts missing cache).entries := by
  induction missing generalizing cache with
  | nil => cases member
  | cons other rest inductionHypothesis =>
    have ttl := LRUCache.set_ttl cache now (Uuid.beside (projectId, other)) (contacts other)
    rw [← ttl]
    simp only [List.length_cons] at room
    by_cases inside : userId ∈ rest
    · refine inductionHypothesis inside ?_
      rw [LRUCache.set_maxSize]
      omega
    · obtain rfl := (List.mem_cons.mp member).resolve_right inside
      have behind := LRUCache.behind_set_self cache now (Uuid.beside (projectId, userId))
        (contacts userId)
      rw [← ttl] at behind
      have room' : 0 + rest.length <
          (cache.set now (Uuid.beside (projectId, userId)) (contacts userId)).maxSize := by
        rw [LRUCache.set_maxSize]
        omega
      obtain ⟨count, before, later, entries, _⟩ := storeAll_behind room' behind
      have stored : (⟨Uuid.beside (projectId, userId), contacts userId, now +
          (cache.set now (Uuid.beside (projectId, userId)) (contacts userId)).defaultTtlMs⟩ :
          Cached Text Addresses) ∈
          before ++ ⟨Uuid.beside (projectId, userId), contacts userId, now +
          (cache.set now (Uuid.beside (projectId, userId)) (contacts userId)).defaultTtlMs⟩ ::
            later := List.mem_append_right _ List.mem_cons_self
      rw [← entries] at stored
      exact stored

/-- A contact whose removal stands, and that the cache still answers, is returned once the removal
has resolved. -/
theorem cached_returned {index : Nat} {removal : Removal} {internalId : Uuid}
    {entry : Cached Text Addresses}
    (here : world.removals[index]? = some removal)
    (phase : removal.phase = .changed internalId true) (standing : removal.standing = true)
    (located : users.id (removal.projectId.text, removal.userId) = some internalId)
    (member : entry ∈ world.cache.entries)
    (named : entry.key = Uuid.beside (removal.projectId, removal.userId))
    (live : world.now ≤ entry.expiresAt)
    (listed : (entry.value removal.address).isSome = true) :
    ∃ later, Reaches (contactStep ids users) anyStep world later ∧ ¬NoneReturned users later := by
  obtain ⟨resolved, taken, gone, cache, now⟩ : ∃ resolved,
      contactStep ids users world (.resolve index) = some resolved ∧
      resolved.gone (internalId, removal.address) = true ∧ resolved.cache = world.cache ∧
      resolved.now = world.now := by
    simp only [contactStep, here, phase]
    exact ⟨_, rfl, if_pos ⟨rfl, standing⟩, rfl, rfl⟩
  have cached : (resolved.cache.get resolved.now
      (Uuid.beside (removal.projectId, removal.userId))).2 = some entry.value := by
    rw [cache, now, ← named]
    exact LRUCache.get_eq_some.mpr ⟨entry.expiresAt, member, live⟩
  obtain ⟨hits, missing⟩ :
      (askCache resolved.now removal.projectId [removal.userId] resolved.cache).2.1 =
        [(removal.userId, entry.value)] ∧
      (askCache resolved.now removal.projectId [removal.userId] resolved.cache).2.2 = [] := by
    unfold askCache
    cases answer : resolved.cache.get resolved.now
        (Uuid.beside (removal.projectId, removal.userId)) with
    | mk left found =>
      rw [answer] at cached
      dsimp only at cached
      subst cached
      exact ⟨rfl, rfl⟩
  obtain ⟨later, found, lookups⟩ : ∃ later,
      contactStep ids users resolved (.findActiveByUserIds removal.projectId [removal.userId]) =
        some later ∧
      ({ projectId := removal.projectId, hits := [(removal.userId, entry.value)], missing := [],
         phase := .returned [(removal.userId, entry.value)], gone := resolved.gone } : Lookup) ∈
        later.lookups := by
    simp only [contactStep, hits, missing]
    exact ⟨_, rfl, List.mem_append_right _ List.mem_cons_self⟩
  refine ⟨later, (Reaches.here.next trivial taken).next trivial found, fun none => ?_⟩
  have lowered := none _ lookups _ rfl _ List.mem_cons_self (internalId, removal.address)
    ⟨located, listed⟩
  dsimp only at lowered
  rw [gone] at lowered
  cases lowered

/-- A lookup that has read the row of a contact leaves an entry that lists it. -/
theorem finish_stored {place : Nat} {lookup : Lookup} {rows : Text → Address → Bool}
    {userId : Text} {address : Address} (here : world.lookups[place]? = some lookup)
    (phase : lookup.phase = .fetched rows) (missed : userId ∈ lookup.missing)
    (active : rows userId address = true)
    (room : lookup.missing.length ≤ world.cache.maxSize) (ttl : 0 ≤ world.cache.defaultTtlMs) :
    ∃ filled, contactStep ids users world (.finish place) = some filled ∧
      filled.removals = world.removals ∧ ∃ entry ∈ filled.cache.entries,
        entry.key = Uuid.beside (lookup.projectId, userId) ∧ filled.now ≤ entry.expiresAt ∧
        (entry.value address).isSome = true := by
  have stored := @storeAll_stored world.now lookup.projectId
    (contactsFrom ids users world.tables lookup.projectId rows) userId lookup.missing world.cache
    missed room
  simp only [contactStep, here, phase]
  refine ⟨_, rfl, rfl, _, stored, rfl, ?_, ?_⟩
  · exact Int.le_add_of_nonneg_right ttl
  · exact (contactsFrom_isSome ..).trans active

/-- A change while the cache or a lookup under way has the contact is found out: some lookup that is
called after the removal has resolved returns the contact. -/
theorem disturbed_returned (ordinary : Ordinary users world) {index : Nat}
    (few : ∀ lookup ∈ world.lookups, lookup.missing.length ≤ 5000)
    (taken : contactStep ids users world (.change index) = some after)
    (disturbed : ¬Undisturbed users world (.change index)) :
    ∃ later, Reaches (contactStep ids users) anyStep after later ∧ ¬NoneReturned users later := by
  simp only [contactStep] at taken
  split at taken
  next removal here =>
    split at taken
    next internalId phase =>
      have located := ordinary.located removal (List.mem_of_getElem? here) internalId (.inl phase)
      have clash : removal.there users world.tables = true ∧
          ((∃ entry ∈ world.cache.entries,
            entry.key = Uuid.beside (removal.projectId, removal.userId) ∧
            world.now ≤ entry.expiresAt ∧ (entry.value removal.address).isSome = true) ∨
          ∃ lookup ∈ world.lookups, lookup.projectId = removal.projectId ∧
            lookup.phase.reads removal.userId removal.address = true) := by
        by_contra neither
        refine disturbed fun other same there => ?_
        obtain rfl := Option.some.inj (here.symm.trans (Option.mem_def.mp same))
        have spared := not_and.mp neither there
        obtain ⟨uncached, unread⟩ := not_or.mp spared
        constructor
        · intro entry member named live
          exact Bool.eq_false_iff.mpr fun listed => uncached ⟨entry, member, named, live, listed⟩
        · intro lookup member project
          exact Bool.eq_false_iff.mpr fun active => unread ⟨lookup, member, project, active⟩
      obtain ⟨there, has⟩ := clash
      have row : (world.tables.contacts (internalId, removal.address)).isSome = true := by
        unfold Removal.there at there
        rw [located] at there
        exact there
      rw [row] at taken
      obtain ⟨changed, cache, now, lookups⟩ : after.removals[index]? = some { removal with
            phase := .changed internalId true, standing := true } ∧
          after.cache = world.cache ∧ after.now = world.now ∧ after.lookups = world.lookups := by
        obtain rfl := Option.some.inj taken
        exact ⟨List.getElem?_set_self (List.getElem?_eq_some_iff.mp here).1, rfl, rfl, rfl⟩
      rw [← cache, ← now, ← lookups] at has
      obtain ⟨entry, member, named, live, listed⟩ | ⟨lookup, member, project, active⟩ := has
      · exact cached_returned changed rfl rfl located member named live listed
      · -- what the lookup has read is stored after the entry was dropped
        obtain ⟨place, standing⟩ := List.mem_iff_getElem?.mp member
        rw [lookups] at member
        have missed := ordinary.fetched lookup member removal.userId removal.address active
        have room : lookup.missing.length ≤ after.cache.maxSize := by
          rw [cache, ordinary.maxSize]
          exact few lookup member
        have ttl : 0 ≤ after.cache.defaultTtlMs := by
          rw [cache, ordinary.ttl]
          decide
        cases read : lookup.phase with
        | querying => rw [read] at active; cases active
        | returned byUser => rw [read] at active; cases active
        | fetched rows =>
          rw [read] at active
          obtain ⟨filled, finished, removals, entry, stored, named, live, listed⟩ :=
            @finish_stored ids users after place lookup rows removal.userId removal.address
              standing read missed active room ttl
          rw [← removals] at changed
          rw [project] at named
          obtain ⟨later, run, returned⟩ :=
            @cached_returned ids _ _ _ _ _ _ changed rfl rfl located stored named live listed
          exact ⟨later, (Reaches.here.next trivial finished).trans run, returned⟩
    next => cases taken
  next => cases taken

/-- As long as no row is changed while the cache or a lookup under way has the contact, no lookup
returns a contact that was gone when it was called; where one is changed otherwise, some later lookup
can return it. -/
theorem contacts_gone_iff (ids : ContactIds) (users : UserRows) (tables : ContactTables) :
    (∀ world, Reaches (contactStep ids users) (Undisturbed users) { tables := tables } world →
      NoneReturned users world) ∧
    ∀ world index after, Reaches (contactStep ids users) anyStep { tables := tables } world →
      (∀ lookup ∈ world.lookups, lookup.missing.length ≤ 5000) →
      contactStep ids users world (.change index) = some after →
      ¬Undisturbed users world (.change index) →
      ∃ later, Reaches (contactStep ids users) anyStep after later ∧
        ¬NoneReturned users later := by
  have ordinary : ∀ world,
      Reaches (contactStep ids users) anyStep { tables := tables } world →
      Ordinary users world := by
    intro world run
    refine run.invariant ⟨rfl, rfl, nofun, nofun⟩ ?_
    intro before action later holds _ taken
    exact ordinary_step holds taken
  constructor
  · intro world run
    have settled : Settled users world := by
      refine run.invariant_given (fun reached some => ordinary reached ?_)
        ⟨nofun, nofun, nofun, nofun, nofun⟩ ?_
      · exact some.weaken fun _ _ _ => trivial
      · intro before action later known holds undisturbed taken
        exact settled_step holds known undisturbed taken
    intro lookup member byUser returned found listed key names
    exact (settled.lookups lookup member).returned byUser returned found listed key names
  · intro world index after run few taken disturbed
    exact disturbed_returned (ordinary world run) few taken disturbed

end Disturbances

/-- Rows of users with ids that spell out their keys. -/
def spelledUsers : UserRows where
  id key := some (spelledIds.uuid key.1 key.2)
  primary := by
    intro key key' uuid first second
    obtain ⟨project, user⟩ :=
      spelledIds.apart _ _ _ _ ((Option.some.inj first).trans (Option.some.inj second).symm)
    exact Prod.ext project user

/-- Rows of contacts with ids that spell out their keys. -/
def spelledContacts : ContactIds where
  uuid key := {
    text := strokes (composedKey key)
    plain := strokes_plain (by decide) (by decide) _ }
  apart := fun _ _ same =>
    composedKey_injective (strokes_injective (congrArg Uuid.text same))

/-- An address of one user. -/
def storedContact : ContactTables where
  contacts key :=
    if key = (spelledIds.uuid "p".toList "u".toList, .email, "a".toList) then some {} else none

/-- What is left of some steps. -/
def contactsAfter (actions : List ContactAction) : ContactWorld :=
  (perform (contactStep spelledContacts spelledUsers) { tables := storedContact } actions).getD {}

/-- The user is asked for. -/
def asking : ContactAction := .findActiveByUserIds { text := "p".toList } ["u".toList]

/-- A lookup reads the row, and only then the contact is deactivated. -/
def readBefore : List ContactAction :=
  [asking, .query 0, .deactivate { text := "p".toList } "u".toList (.email, "a".toList), .locate 0]

/-- Some lookup returned a contact that was gone when it was called. -/
def returnsGone (users : UserRows) (key : ContactKey) (world : ContactWorld) : Bool :=
  world.lookups.any fun lookup => lookup.gone key && match lookup.phase with
    | .returned byUser => byUser.any fun found =>
        decide (users.id (lookup.projectId.text, found.1) = some key.1) && (found.2 key.2).isSome
    | _ => false

theorem returnsGone_returned {users : UserRows} {key : ContactKey} {world : ContactWorld}
    (gone : returnsGone users key world = true) : ¬NoneReturned users world := by
  intro none
  obtain ⟨lookup, member, both⟩ := List.any_eq_true.mp gone
  obtain ⟨gone, returned⟩ := Bool.and_eq_true_iff.mp both
  cases phase : lookup.phase with
  | querying => rw [phase] at returned; cases returned
  | fetched rows => rw [phase] at returned; cases returned
  | returned byUser =>
    rw [phase] at returned
    obtain ⟨found, listed, names⟩ := List.any_eq_true.mp returned
    obtain ⟨user, address⟩ := Bool.and_eq_true_iff.mp names
    have lowered := none lookup member byUser phase found listed key
      ⟨of_decide_eq_true user, address⟩
    rw [gone] at lowered
    cases lowered

/-- The lookup ends after the deactivation, and the next one is answered from what it stored. -/
theorem deactivated_contact_returned : ¬ ∀ ids users tables world,
    Reaches (contactStep ids users) anyStep { tables := tables } world →
    NoneReturned users world := by
  intro always
  have run : Reaches (contactStep spelledContacts spelledUsers) anyStep { tables := storedContact }
      (contactsAfter (readBefore ++ [ContactAction.change 0, .resolve 0, .finish 0, asking])) :=
    reaches_any_performed _ (by decide +kernel)
  have gone : returnsGone spelledUsers
      (spelledIds.uuid "p".toList "u".toList, .email, "a".toList)
      (contactsAfter (readBefore ++ [ContactAction.change 0, .resolve 0, .finish 0, asking])) = true := by
    decide +kernel
  exact returnsGone_returned gone (always _ _ _ _ run)

/-- The lookup ends before the contact is deactivated. -/
def readAway : List ContactAction :=
  [asking, .query 0, .finish 0,
    .deactivate { text := "p".toList } "u".toList (.email, "a".toList), .locate 0, .change 0,
    .resolve 0, asking, .query 1, .finish 1]

/-- A lookup that ended before does no harm; one that is under way does. -/
theorem contacts_gone_readAway :
    NoneReturned spelledUsers (contactsAfter readAway) ∧
      ∃ later, Reaches (contactStep spelledContacts spelledUsers) anyStep
        (contactsAfter (readBefore ++ [ContactAction.change 0])) later ∧
        ¬NoneReturned spelledUsers later := by
  have both := contacts_gone_iff spelledContacts spelledUsers storedContact
  constructor
  · have run : Reaches (contactStep spelledContacts spelledUsers) (Undisturbed spelledUsers)
        { tables := storedContact } (contactsAfter readAway) :=
      reaches_performed _ (by decide +kernel) (by decide +kernel)
    exact both.1 _ run
  · have run : Reaches (contactStep spelledContacts spelledUsers) anyStep
        { tables := storedContact } (contactsAfter readBefore) :=
      reaches_any_performed _ (by decide +kernel)
    have few : ∀ lookup ∈ (contactsAfter readBefore).lookups, lookup.missing.length ≤ 5000 := by
      decide +kernel
    have disturbed : ¬Undisturbed spelledUsers (contactsAfter readBefore) (.change 0) := by
      decide +kernel
    exact both.2 _ 0 _ run few rfl disturbed

end Notifkit.Repositories.ContactRepository
