import Notifkit.Pipeline.Snapshot
import Notifkit.Repositories.UserUpdates
import Notifkit.Repositories.UserUpserts
import Notifkit.Shared.LruCache

/-!
# What a process answers about its users

The handlers of one process share a repository, which keeps the records it read for half a minute.
An update of a user and its deletion take the record out. Users that a request brings along are
persisted in a transaction, by a repository of the transaction's own: it takes their records out of
its own cache, which nobody else reads, and the shared one keeps what it had.

So a record that was read shortly before is answered once more after its user was persisted.
-/

namespace Notifkit.Repositories

open Pipeline Upserts Runs Shared

structure RecordPreferences where
  channels : Text → Option Bool
  topics : Text → Option Bool
  /-- absent without rows -/
  quietHours : Option (Multiset QuietWindow)

structure UserRecord where
  userId : Text
  language : Json
  timezone : Json
  email : Option Json
  segments : Text → Bool
  preferences : RecordPreferences

/-- The record of a user, put together from the rows. -/
def recordOf (ids : UserIds) (projectId : Uuid) (userId : Text) (tables : UserTables) :
    Option UserRecord :=
  (findById projectId.text userId tables).map fun profile =>
    let internalId := ids.uuid projectId.text userId
    { userId := profile.userId
      language := profile.language
      timezone := profile.timezone
      email := profile.email
      segments := fun segment => tables.segments (internalId, segment)
      preferences := {
        channels := fun channel => tables.channels (internalId, channel)
        topics := fun topic => tables.topics (internalId, topic)
        quietHours :=
          if tables.quietHours internalId = 0 then none else some (tables.quietHours internalId) } }

/-- A user as requests bring it along; the lists are empty where they are left out. -/
structure InlineUser where
  id : Text
  language : Option Text := none
  timezone : Option Text := none
  contacts : List (NotificationChannel × Text) := []
  email : List Text := []
  segments : Option (List Text) := none
  preferences : Option Preferences := none
deriving DecidableEq

/-- The entry that is upserted for it. Omitted fields stay omitted. -/
def InlineUser.entry (user : InlineUser) : UserEntry where
  userId := user.id
  language := user.language
  timezone := user.timezone
  email := (user.email.head?.or
    ((user.contacts.find? fun contact => contact.1 = .email).map Prod.snd)).map some
  segments := user.segments.getD []
  preferences := user.preferences.getD {}

/-- `persistUsers`, as far as the tables of users go. -/
def persistUsers (ids : UserIds) (projectId : Uuid) (users : List InlineUser)
    (tables : UserTables) : Option UserTables :=
  upsertManyFull ids projectId.text (users.map InlineUser.entry) tables

/-- The row of a user goes, and with it what hangs on its id. -/
def deleteRows (ids : UserIds) (projectId : Uuid) (userId : Text) (tables : UserTables) :
    UserTables where
  users := fun key => if key = (projectId.text, userId) then none else tables.users key
  segments := fun key =>
    if key.1 = ids.uuid projectId.text userId then false else tables.segments key
  topics := fun key => if key.1 = ids.uuid projectId.text userId then none else tables.topics key
  channels := fun key =>
    if key.1 = ids.uuid projectId.text userId then none else tables.channels key
  quietHours := fun id => if id = ids.uuid projectId.text userId then 0 else tables.quietHours id

structure UserWorld where
  tables : UserTables := {}
  recordCache : LRUCache Text UserRecord := { maxSize := 5000, defaultTtlMs := 30_000 }
  now : Int := 0

inductive UserAction where
  /-- a request for a user or for its preferences -/
  | findRecordById (projectId : Uuid) (userId : Text)
  /-- a request that brings users along -/
  | persistUsers (projectId : Uuid) (users : List InlineUser)
  | updatePartial (projectId : Uuid) (userId : Text) (patch : UserPatch)
  | delete (projectId : Uuid) (userId : Text)
  | tick (milliseconds : Nat)

/-- `findRecordById`: the cached record, or else the one of the tables, which is kept. -/
def findRecordById (ids : UserIds) (projectId : Uuid) (userId : Text) (world : UserWorld) :
    UserWorld × Option UserRecord :=
  let cacheKey := Uuid.beside (projectId, userId)
  match world.recordCache.get world.now cacheKey with
  | (recordCache, some cached) => ({ world with recordCache := recordCache }, some cached)
  | (recordCache, none) =>
    -- `findRecordsByIds` asks once more
    match recordCache.get world.now cacheKey with
    | (recordCache, some cached) => ({ world with recordCache := recordCache }, some cached)
    | (recordCache, none) =>
      match recordOf ids projectId userId world.tables with
      | none => ({ world with recordCache := recordCache }, none)
      | some record =>
        ({ world with recordCache := recordCache.set world.now cacheKey record }, some record)

/-- What one request does, and time. -/
def userStep (ids : UserIds) (world : UserWorld) : UserAction → Option UserWorld
  | .findRecordById projectId userId => some (findRecordById ids projectId userId world).1
  | .persistUsers projectId users =>
    -- the shared cache is not told
    (persistUsers ids projectId users world.tables).map fun tables =>
      { world with tables := tables }
  | .updatePartial projectId userId patch =>
    (updatePartial ids projectId.text userId patch world.tables).map fun result =>
      if result.1 then { world with
        tables := result.2
        recordCache := world.recordCache.delete (Uuid.beside (projectId, userId)) }
      else world
  | .delete projectId userId => some { world with
      tables := deleteRows ids projectId userId world.tables
      recordCache := world.recordCache.delete (Uuid.beside (projectId, userId)) }
  | .tick milliseconds => some { world with now := world.now + milliseconds }

/-- Every request is answered with what is stored. -/
def UserWorld.Current (ids : UserIds) (world : UserWorld) : Prop :=
  ∀ projectId userId, (findRecordById ids projectId userId world).2 =
    recordOf ids projectId userId world.tables

/-- Of the users that are persisted none has a record in the cache that is still answered, but for
those whose record is not changed. -/
def PersistsUncached (ids : UserIds) (world : UserWorld) : UserAction → Prop
  | .persistUsers projectId users => ∀ user ∈ users,
      (world.recordCache.get world.now (Uuid.beside (projectId, user.id))).2 = none ∨
        (persistUsers ids projectId users world.tables).bind (recordOf ids projectId user.id) =
          recordOf ids projectId user.id world.tables
  | _ => True

section Coherence

variable {ids : UserIds} {world after : UserWorld} {projectId : Uuid} {userId : Text}

/-- What a lookup does: an entry that is answered is kept; where there is none the stored record
is. -/
theorem findRecordById_cases (ids : UserIds) (projectId : Uuid) (userId : Text)
    (world : UserWorld) :
    (∃ record, (world.recordCache.get world.now (Uuid.beside (projectId, userId))).2 =
        some record ∧
      findRecordById ids projectId userId world = ({ world with
        recordCache := (world.recordCache.get world.now (Uuid.beside (projectId, userId))).1 },
        some record)) ∨
    ∃ recordCache : LRUCache Text UserRecord,
      (world.recordCache.get world.now (Uuid.beside (projectId, userId))).2 = none ∧
      (∀ entry ∈ recordCache.entries, entry ∈ world.recordCache.entries) ∧
      findRecordById ids projectId userId world =
        match recordOf ids projectId userId world.tables with
        | none => ({ world with recordCache := recordCache }, none)
        | some record => ({ world with
            recordCache := recordCache.set world.now (Uuid.beside (projectId, userId)) record },
            some record) := by
  unfold findRecordById
  dsimp only
  cases first : world.recordCache.get world.now (Uuid.beside (projectId, userId)) with
  | mk cache answer =>
    cases answer with
    | some record => exact .inl ⟨record, rfl, rfl⟩
    | none =>
      right
      have missed : (world.recordCache.get world.now (Uuid.beside (projectId, userId))).2 = none :=
        by rw [first]
      have kept : ∀ entry ∈ cache.entries,
          entry ∈ world.recordCache.entries ∧ entry.key ≠ Uuid.beside (projectId, userId) := by
        intro entry member
        have there : entry ∈ (world.recordCache.get world.now
            (Uuid.beside (projectId, userId))).1.entries := by rwa [first]
        exact ⟨LRUCache.mem_of_get there, LRUCache.absent_of_get missed there⟩
      cases second : cache.get world.now (Uuid.beside (projectId, userId)) with
      | mk later again =>
        cases again with
        | some record =>
          have answered : (cache.get world.now (Uuid.beside (projectId, userId))).2 =
              some record := by rw [second]
          obtain ⟨expiresAt, member, _⟩ := LRUCache.get_eq_some.mp answered
          exact absurd rfl (kept _ member).2
        | none =>
          refine ⟨later, rfl, fun entry member => ?_, ?_⟩
          · have there : entry ∈
                (cache.get world.now (Uuid.beside (projectId, userId))).1.entries := by rwa [second]
            exact (kept entry (LRUCache.mem_of_get there)).1
          · simp only [second]

/-- What is answered: the cached record before the stored one. -/
theorem findRecordById_answer (ids : UserIds) (projectId : Uuid) (userId : Text)
    (world : UserWorld) :
    (findRecordById ids projectId userId world).2 =
      ((world.recordCache.get world.now (Uuid.beside (projectId, userId))).2).or
        (recordOf ids projectId userId world.tables) := by
  obtain ⟨record, cached, found⟩ | ⟨recordCache, missed, _, found⟩ :=
    findRecordById_cases ids projectId userId world
  · rw [found, cached]
    rfl
  · rw [found, missed, Option.none_or]
    cases recordOf ids projectId userId world.tables <;> rfl

/-- Every record that the cache still answers is the stored one. -/
def Coherent (ids : UserIds) (world : UserWorld) : Prop :=
  ∀ entry ∈ world.recordCache.entries, world.now ≤ entry.expiresAt →
    ∀ projectId userId, entry.key = Uuid.beside (projectId, userId) →
      recordOf ids projectId userId world.tables = some entry.value

/-- Requests are answered with what is stored exactly where the cache agrees with it. -/
theorem current_of_coherent_iff : world.Current ids ↔ Coherent ids world := by
  constructor
  · intro current entry member live projectId userId key
    have cached : (world.recordCache.get world.now (Uuid.beside (projectId, userId))).2 =
        some entry.value := by
      rw [← key]
      exact LRUCache.get_eq_some.mpr ⟨entry.expiresAt, member, live⟩
    have answer := current projectId userId
    rw [findRecordById_answer, cached, Option.some_or] at answer
    exact answer.symm
  · intro coherent projectId userId
    rw [findRecordById_answer]
    cases cached : (world.recordCache.get world.now (Uuid.beside (projectId, userId))).2 with
    | none => rfl
    | some record =>
      obtain ⟨expiresAt, member, live⟩ := LRUCache.get_eq_some.mp cached
      exact (coherent _ member live projectId userId rfl).symm

/-- A lookup leaves the cache as it agrees with the tables. -/
theorem Coherent.findRecordById (coherent : Coherent ids world) :
    Coherent ids (findRecordById ids projectId userId world).1 := by
  obtain ⟨record, cached, found⟩ | ⟨recordCache, missed, fewer, found⟩ :=
    findRecordById_cases ids projectId userId world
  · rw [found]
    intro entry member
    exact coherent entry (LRUCache.mem_of_get member)
  · rw [found]
    cases stored : recordOf ids projectId userId world.tables with
    | none =>
      intro entry member
      exact coherent entry (fewer entry member)
    | some record =>
      intro entry member live projectId' userId' key
      obtain rfl | ⟨old, _⟩ := LRUCache.mem_of_set member
      · obtain ⟨rfl, rfl⟩ := Prod.mk.inj (Uuid.beside_injective key)
        exact stored
      · exact coherent entry (fewer entry old) live projectId' userId' key

/-- A write that takes out the record of its user, and leaves the records of all others. -/
theorem Coherent.dropped (coherent : Coherent ids world) {tables : UserTables}
    (others : ∀ projectId' userId', (projectId', userId') ≠ (projectId, userId) →
      recordOf ids projectId' userId' tables = recordOf ids projectId' userId' world.tables) :
    Coherent ids { world with
      tables := tables
      recordCache := world.recordCache.delete (Uuid.beside (projectId, userId)) } := by
  intro entry member live projectId' userId' key
  obtain ⟨old, other⟩ := LRUCache.mem_delete.mp member
  have elsewhere : (projectId', userId') ≠ (projectId, userId) := by
    intro same
    rw [same] at key
    exact other key
  rw [others projectId' userId' elsewhere]
  exact coherent entry old live projectId' userId' key

/-- The record of a user is read off its own rows. -/
theorem recordOf_congr {tables : UserTables}
    (row : tables.users (projectId.text, userId) = world.tables.users (projectId.text, userId))
    (segments : ∀ segment, tables.segments (ids.uuid projectId.text userId, segment) =
      world.tables.segments (ids.uuid projectId.text userId, segment))
    (topics : ∀ topic, tables.topics (ids.uuid projectId.text userId, topic) =
      world.tables.topics (ids.uuid projectId.text userId, topic))
    (channels : ∀ channel, tables.channels (ids.uuid projectId.text userId, channel) =
      world.tables.channels (ids.uuid projectId.text userId, channel))
    (quietHours : tables.quietHours (ids.uuid projectId.text userId) =
      world.tables.quietHours (ids.uuid projectId.text userId)) :
    recordOf ids projectId userId tables = recordOf ids projectId userId world.tables := by
  unfold recordOf findById
  simp only [row, segments, topics, channels, quietHours]

/-- Different users have rows of their own. -/
theorem rows_apart (ids : UserIds) {projectId projectId' : Uuid} {userId userId' : Text}
    (other : (projectId', userId') ≠ (projectId, userId)) :
    (projectId'.text, userId') ≠ (projectId.text, userId) ∧
      ids.uuid projectId'.text userId' ≠ ids.uuid projectId.text userId := by
  have keys : (projectId'.text, userId') ≠ (projectId.text, userId) := by
    intro same
    obtain ⟨text, user⟩ := Prod.mk.inj same
    exact other (Prod.ext (Uuid.eq_of_text text) user)
  refine ⟨keys, fun same => keys ?_⟩
  obtain ⟨text, user⟩ := ids.apart _ _ _ _ same
  exact Prod.ext text user

/-- An update leaves the records of others. -/
theorem updatePartial_others {patch : UserPatch} {result : Bool × UserTables}
    (done : updatePartial ids projectId.text userId patch world.tables = some result)
    {projectId' : Uuid} {userId' : Text} (other : (projectId', userId') ≠ (projectId, userId)) :
    recordOf ids projectId' userId' result.2 = recordOf ids projectId' userId' world.tables := by
  obtain ⟨keys, uuids⟩ := rows_apart ids other
  rw [updatePartial_changes] at done
  cases found : findById projectId.text userId world.tables with
  | none =>
    rw [found] at done
    obtain rfl := Option.some.inj done
    rfl
  | some existing =>
    rw [found] at done
    obtain rfl := Option.some.inj done
    apply recordOf_congr
    · exact if_neg keys
    · exact fun _ => if_neg uuids
    · exact fun _ => if_neg uuids
    · exact fun _ => if_neg uuids
    · exact if_neg uuids

/-- A deletion leaves the records of others. -/
theorem deleteRows_others {projectId' : Uuid} {userId' : Text}
    (other : (projectId', userId') ≠ (projectId, userId)) :
    recordOf ids projectId' userId' (deleteRows ids projectId userId world.tables) =
      recordOf ids projectId' userId' world.tables := by
  obtain ⟨keys, uuids⟩ := rows_apart ids other
  apply recordOf_congr
  · exact if_neg keys
  · exact fun _ => if_neg uuids
  · exact fun _ => if_neg uuids
  · exact fun _ => if_neg uuids
  · exact if_neg uuids

/-- Persisting users leaves the records of those who are not among them. -/
theorem persistUsers_others {users : List InlineUser} {tables : UserTables}
    (done : persistUsers ids projectId users world.tables = some tables)
    {projectId' : Uuid} {userId' : Text}
    (others : ∀ user ∈ users, (projectId', userId') ≠ (projectId, user.id)) :
    recordOf ids projectId' userId' tables = recordOf ids projectId' userId' world.tables := by
  have result := upsertManyFull_batched ids projectId.text (users.map InlineUser.entry)
    world.tables
  obtain rfl := Option.some.inj (done.symm.trans result)
  have uuids : ∀ user ∈ users.map InlineUser.entry,
      ids.uuid projectId.text user.userId ≠ ids.uuid projectId'.text userId' := by
    intro user listed
    obtain ⟨inline, inside, rfl⟩ := List.mem_map.mp listed
    exact (rows_apart ids (others inline inside)).2.symm
  have rows : ∀ (named : Preferences → Option Choices) (text : Text)
      (table : Table (Uuid × Text) Bool),
      lastOf (ids.uuid projectId'.text userId', text)
        (preferenceRows ids projectId.text named (users.map InlineUser.entry))
        (table (ids.uuid projectId'.text userId', text)) =
      table (ids.uuid projectId'.text userId', text) := by
    intro named text table
    refine lastOf_absent (fun row listed same => ?_) _
    obtain ⟨user, inside, given⟩ := List.mem_flatMap.mp listed
    obtain ⟨choice, _, rfl⟩ := List.mem_map.mp given
    exact uuids user inside (Prod.mk.inj same).1
  apply recordOf_congr
  · by_cases project : projectId'.text = projectId.text
    · have absent : lastEntry (users.map InlineUser.entry) userId' = none := by
        refine lastEntry_none fun user listed same => uuids user listed ?_
        rw [same, project]
      rw [project]
      refine (mergedUsers_at world.tables.users userId').trans ?_
      rw [absent]
    · exact if_neg project
  · intro segment
    have nobody : ((users.map InlineUser.entry).any fun user => decide
        (ids.uuid projectId.text user.userId = ids.uuid projectId'.text userId' ∧
          segment ∈ user.segments)) = false := by
      refine List.any_eq_false.mpr fun user listed given => ?_
      exact uuids user listed (of_decide_eq_true given).1
    simp only [batched, nobody, Bool.or_false]
  · exact fun topic => rows _ topic world.tables.topics
  · exact fun channel => rows _ channel world.tables.channels
  · exact mergedQuietHours_others world.tables.quietHours uuids

/-- Users are persisted: the records in the cache still agree with the tables exactly where none of
theirs was there to be answered, or where theirs did not change. -/
theorem persisted_coherent_iff {users : List InlineUser} (coherent : Coherent ids world)
    (taken : userStep ids world (.persistUsers projectId users) = some after) :
    Coherent ids after ↔ PersistsUncached ids world (.persistUsers projectId users) := by
  obtain ⟨tables, done, rfl⟩ := Option.map_eq_some_iff.mp taken
  have bound : ∀ userId, (persistUsers ids projectId users world.tables).bind
      (recordOf ids projectId userId) = recordOf ids projectId userId tables := by
    intro userId
    rw [done]
    rfl
  constructor
  · intro agrees user listed
    cases cached : (world.recordCache.get world.now (Uuid.beside (projectId, user.id))).2 with
    | none => exact .inl rfl
    | some record =>
      right
      obtain ⟨expiresAt, member, live⟩ := LRUCache.get_eq_some.mp cached
      rw [bound, coherent _ member live projectId user.id rfl]
      exact agrees _ member live projectId user.id rfl
  · intro uncached entry member live projectId' userId' key
    by_cases named : ∃ user ∈ users, (projectId', userId') = (projectId, user.id)
    · obtain ⟨user, listed, same⟩ := named
      obtain ⟨rfl, rfl⟩ := Prod.mk.inj same
      have stored := coherent entry member live projectId' user.id key
      obtain missed | unchanged := uncached user listed
      · have cached : (world.recordCache.get world.now (Uuid.beside (projectId', user.id))).2 =
            some entry.value := by
          rw [← key]
          exact LRUCache.get_eq_some.mpr ⟨entry.expiresAt, member, live⟩
        rw [missed] at cached
        cases cached
      · rw [bound] at unchanged
        exact unchanged.trans stored
    · have others : ∀ user ∈ users, (projectId', userId') ≠ (projectId, user.id) :=
        fun user listed same => named ⟨user, listed, same⟩
      exact (persistUsers_others done others).trans
        (coherent entry member live projectId' userId' key)

/-- What any request leaves, and any time. -/
theorem coherent_step {action : UserAction} (coherent : Coherent ids world)
    (uncached : PersistsUncached ids world action)
    (taken : userStep ids world action = some after) : Coherent ids after := by
  cases action with
  | findRecordById projectId userId =>
    obtain rfl := Option.some.inj taken
    exact coherent.findRecordById
  | persistUsers projectId users => exact (persisted_coherent_iff coherent taken).mpr uncached
  | updatePartial projectId userId patch =>
    obtain ⟨result, done, rfl⟩ := Option.map_eq_some_iff.mp taken
    split
    · exact coherent.dropped fun _ _ other => updatePartial_others done other
    · exact coherent
  | delete projectId userId =>
    obtain rfl := Option.some.inj taken
    exact coherent.dropped fun _ _ other => deleteRows_others other
  | tick milliseconds =>
    obtain rfl := Option.some.inj taken
    intro entry member live
    refine coherent entry member ?_
    dsimp only at live
    omega

/-- As long as users are persisted while no record of theirs is cached, or without changing it,
every request for a user is answered with what is stored; where one is persisted otherwise, some
request is not. -/
theorem read_your_writes_iff (ids : UserIds) (stored : UserTables) :
    (∀ world, Reaches (userStep ids) (PersistsUncached ids) { tables := stored } world →
      world.Current ids) ∧
    ∀ world projectId users after,
      Reaches (userStep ids) (PersistsUncached ids) { tables := stored } world →
      userStep ids world (.persistUsers projectId users) = some after →
      (after.Current ids ↔ PersistsUncached ids world (.persistUsers projectId users)) := by
  have coherent : ∀ world,
      Reaches (userStep ids) (PersistsUncached ids) { tables := stored } world →
      Coherent ids world := by
    intro world run
    refine run.invariant nofun ?_
    intro before action later agrees uncached taken
    exact coherent_step agrees uncached taken
  constructor
  · intro world run
    exact current_of_coherent_iff.mpr (coherent world run)
  · intro world projectId users after run taken
    rw [current_of_coherent_iff]
    exact persisted_coherent_iff (coherent world run) taken

end Coherence

/-- What is left of some requests. -/
def recordsAfter (actions : List UserAction) : UserWorld :=
  (perform (userStep spelledIds) { tables := storedUser } actions).getD {}

/-- The id of the project has no colon. -/
theorem project_plain : ':' ∉ "p".toList := by decide

/-- The user is asked for, and then persisted with another language. -/
def askedBefore : List UserAction :=
  [.findRecordById ⟨"p".toList, project_plain⟩ "u".toList,
    .persistUsers ⟨"p".toList, project_plain⟩ [{ id := "u".toList, language := some "de".toList }]]

/-- A request that comes after the write is answered with what was stored before it. -/
theorem persisted_user_stale : ¬ ∀ ids stored world,
    Reaches (userStep ids) anyStep { tables := stored } world → world.Current ids := by
  intro always
  have run : Reaches (userStep spelledIds) anyStep { tables := storedUser }
      (recordsAfter askedBefore) := reaches_any_performed _ (by decide +kernel)
  have current := always _ _ _ run { text := "p".toList } "u".toList
  have language := congrArg (fun record => record.map UserRecord.language) current
  exact absurd language (by decide +kernel)

/-- Asked for only after it was persisted, the user is answered as it is stored; asked for before,
it is not. -/
theorem read_your_writes_run :
    (recordsAfter (askedBefore.reverse)).Current spelledIds ∧
      ¬ (recordsAfter askedBefore).Current spelledIds := by
  have start : Reaches (userStep spelledIds) (PersistsUncached spelledIds)
      { tables := storedUser } { tables := storedUser } := .here
  have both := read_your_writes_iff spelledIds storedUser
  constructor
  · obtain ⟨middle, persisted, found⟩ : ∃ middle,
        userStep spelledIds { tables := storedUser } askedBefore[1] = some middle ∧
        userStep spelledIds middle askedBefore[0] = some (recordsAfter askedBefore.reverse) :=
      ⟨_, rfl, rfl⟩
    have admitted : PersistsUncached spelledIds { tables := storedUser } askedBefore[1] := by
      intro user listed
      obtain rfl := List.mem_singleton.mp listed
      exact .inl rfl
    have asked : PersistsUncached spelledIds middle askedBefore[0] := trivial
    exact both.1 _ ((start.next admitted persisted).next asked found)
  · obtain ⟨middle, found, persisted⟩ : ∃ middle,
        userStep spelledIds { tables := storedUser } askedBefore[0] = some middle ∧
        userStep spelledIds middle askedBefore[1] = some (recordsAfter askedBefore) :=
      ⟨_, rfl, rfl⟩
    intro current
    have admitted : PersistsUncached spelledIds { tables := storedUser } askedBefore[0] := trivial
    have asked := start.next admitted found
    obtain rfl := Option.some.inj found
    obtain missed | unchanged :=
      (both.2 _ _ _ _ asked persisted).mp current _ List.mem_cons_self
    · exact absurd (congrArg Option.isSome missed) (by decide +kernel)
    · have language := congrArg (fun record => record.map UserRecord.language) unchanged
      exact absurd language (by decide +kernel)

end Notifkit.Repositories
