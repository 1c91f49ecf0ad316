import Mathlib.Data.Multiset.Bind
import Mathlib.Data.Multiset.Filter
import Notifkit.Foundations.BatchLoaders
import Notifkit.Foundations.Runs
import Notifkit.Pipeline.Gates

/-!
# The enricher's fan-out of many requests at once

A request's target is resolved to users, which are taken in chunks. For each chunk the profiles are
looked up one by one and the contacts together. Lookups of all messages under way share two loaders,
each of which asks the database once for each project of a batch, and what it answers goes back to
the messages that asked.

What a message's events should be is said of the rows alone, with no chunk and no batch. The account
that every step keeps: what a message has sent and what it still owes are together just these events.
-/

namespace Notifkit.Pipeline.FanOuts

open Runs BatchLoaders

deriving instance DecidableEq for UserRecord

structure SegmentRow where
  userId : Nat
  segment : Text
deriving DecidableEq

/-- The tables with their keys. Preferences of addresses come through a schema that passes over the
name of an object's prototype. -/
structure Database where
  tables : Snapshot
  segments : List SegmentRow
  usersKeyed : (tables.users.map UserRow.id).Nodup
  segmentsKeyed : segments.Nodup
  topicsKeyed : (tables.userTopics.map fun row => (row.userId, row.topic)).Nodup
  contactTopicsKeyed : (tables.contactTopics.map fun row => (row.contactId, row.topic)).Nodup
  contactTopicsPlain : ∀ row ∈ tables.contactTopics, row.topic ≠ prototypeTopic

inductive Target where
  | user (userId : Text)
  | segment (segment : Text)
  | topic (topic : Text)

/-- A request before its target is resolved. -/
structure Requested where
  target : Target
  raw : NotificationRequested

section Expected

variable (database : Database)

/-- A user is wanted by a target. -/
def wanted (row : UserRow) : Target → Bool
  | .user userId => row.externalId = userId
  | .segment segment => ⟨row.id, segment⟩ ∈ database.segments
  | .topic topic => database.tables.userTopics.any fun entry =>
      entry.userId = row.id ∧ entry.topic = topic ∧ entry.enabled = true

/-- The users of a request. -/
def recipients (request : Requested) : Multiset UserRow :=
  (database.tables.users : Multiset UserRow).filter fun row =>
    row.projectId = request.raw.projectId ∧ wanted database row request.target = true

/-- The topics of a request's template. -/
def topicsOf (raw : NotificationRequested) : List Text :=
  Enricher.topicsOf database.tables raw.projectId raw.templateId

/-- An address opted out of one of the topics. -/
def optedOut (topics : List Text) (row : ContactRow) : Bool :=
  database.tables.contactTopics.any fun entry =>
    entry.contactId = row.id ∧ entry.topic ∈ topics ∧ entry.enabled = false

/-- The active addresses of a user on a channel that did not opt out. -/
def addresses (topics : List Text) (user : UserRow) (channel : NotificationChannel) :
    Multiset ContactRow :=
  (database.tables.contacts : Multiset ContactRow).filter fun row =>
    row.userId = user.id ∧ row.enabled = true ∧ row.channel = channel ∧
      optedOut database topics row = false

/-- One event for each address; for push a single one. -/
def eventsOn (raw : NotificationRequested) (user : UserRow)
    (chain : List NotificationChannel) (channel : NotificationChannel) :
    Multiset NotificationEnriched :=
  let event := Enricher.enriched raw (database.tables.readable.record user) (topicsOf database raw)
    chain channel
  if channel = .push then {event none}
  else (addresses database (topicsOf database raw) user channel).map fun row =>
    event (some (database.tables.readable.contact row))

/-- The events of the first channel that has an address, with the channels behind it as chain. -/
def firstReached (raw : NotificationRequested) (user : UserRow) :
    List NotificationChannel → Multiset NotificationEnriched
  | [] => 0
  | channel :: rest =>
    if (addresses database (topicsOf database raw) user channel).card = 0 then
      firstReached raw user rest
    else eventsOn database raw user rest channel

/-- The events of one user. -/
def eventsFor (raw : NotificationRequested) (user : UserRow) : Multiset NotificationEnriched :=
  if raw.fallback then firstReached database raw user (Enricher.channelsOf raw)
  else (Enricher.channelsOf raw : Multiset NotificationChannel).bind (eventsOn database raw user [])

/-- The events of a request. -/
def expected (request : Requested) : Multiset NotificationEnriched :=
  (recipients database request).bind (eventsFor database request.raw)

end Expected

section Queries

variable (database : Database)

/-- `findUsersBySegment`, `findUsersByTopic`: the rows of the join. -/
def resolved (request : Requested) : List Text :=
  let users := database.tables.users.filter fun row => row.projectId = request.raw.projectId
  match request.target with
  | .user userId => [userId]
  | .segment segment => users.flatMap fun user =>
      (database.segments.filter fun row => row.userId = user.id ∧ row.segment = segment).map
        fun _ => user.externalId
  | .topic topic => users.flatMap fun user =>
      (database.tables.userTopics.filter fun row =>
        row.userId = user.id ∧ row.topic = topic ∧ row.enabled = true).map fun _ => user.externalId

/-- The rows of `findActiveByUserIds`. -/
def contactRows (projectId : Text) (userIds : List Text) : List (Text × UserContact) :=
  (database.tables.users.filter fun row =>
    row.projectId = projectId ∧ row.externalId ∈ userIds).flatMap fun user =>
      (database.tables.contacts.filter fun row => row.userId = user.id ∧ row.enabled = true).map
        fun row => (user.externalId, database.tables.readable.contact row)

end Queries

/-- `chunkArray` -/
def chunkArray {α : Type} (items : List α) (size : Nat) : List (List α) :=
  (List.range ((items.length + size - 1) / size)).map fun index =>
    (items.drop (index * size)).take size

/-- Where a message stands. A slot holds the profile of an id once it is there. -/
inductive Phase where
  | received
  | profiles (slots : List (Text × Option (Option UserRecord)))
  | contacts (profiles : List UserRecord) (found : Option (List (Text × UserContact)))
  | finished

/-- A message under way, with the chunks it did not come to. -/
structure Message where
  request : Requested
  chunks : List (List Text) := []
  phase : Phase := .received

/-- The messages under way and what they share. Events are kept with the message they are of. -/
structure World where
  messages : List Message := []
  userBatch : Loader Text Text (Nat × Nat) := .empty
  contactBatch : Loader Text Text Nat := .empty
  eventBuffer : List (Nat × NotificationEnriched) := []
  stream : List (Nat × NotificationEnriched) := []

inductive Action where
  | receive (request : Requested)
  | resolve (index : Nat) (userIds : List Text)
  | flushUserBatch
  | findRecords (flight : Nat) (records : List UserRecord)
  | loadContacts (index : Nat)
  | flushContactBatch
  | findContacts (flight : Nat) (rows : List (Text × UserContact))
  | enrich (index : Nat)
  | flushWorkerBuffers

/-- The configuration of the enricher: `SEGMENT_MAX_USERS`, the size of a batch, and whether the
events of a single user are handed on directly. -/
structure Limits where
  maxUsers : Nat
  batchSize : Nat
  inlineNext : Bool

/-- `loadUser` for each id of a chunk. -/
def userLookups (projectId : Text) (index : Nat) (chunk : List Text) :
    List (Lookup Text Text (Nat × Nat)) :=
  chunk.mapIdx fun slot userId => ⟨projectId, [userId], (index, slot)⟩

/-- Go on with the next chunk. -/
def nextChunk (limits : Limits) (world : World) (index : Nat) (message : Message) : World :=
  match message.chunks with
  | [] => { world with messages := world.messages.set index { message with phase := .finished } }
  | chunk :: rest =>
    { world with
      messages := world.messages.set index { message with
        chunks := rest
        phase := .profiles (chunk.map fun userId => (userId, none)) }
      userBatch := world.userBatch.loadAll limits.batchSize
        (userLookups message.request.raw.projectId index chunk) }

/-- A profile goes to the slot that waits for it. -/
def giveProfile (records : List UserRecord) (messages : List Message)
    (lookup : Lookup Text Text (Nat × Nat)) : List Message :=
  messages.modify lookup.ticket.1 fun message =>
    match message.phase with
    | .profiles slots =>
      { message with phase := .profiles (slots.modify lookup.ticket.2 fun slot =>
          (slot.1, some (records.reverse.find? fun record => record.userId ∈ lookup.keys))) }
    | _ => message

/-- The contacts of a batch go to a message that waits for them. -/
def giveContacts (rows : List (Text × UserContact)) (messages : List Message)
    (lookup : Lookup Text Text Nat) : List Message :=
  messages.modify lookup.ticket fun message =>
    match message.phase with
    | .contacts profiles _ => { message with phase := .contacts profiles (some rows) }
    | _ => message

/-- The events of a chunk. -/
def chunkEvents (topics : List Text) (raw : NotificationRequested) (profiles : List UserRecord)
    (rows : List (Text × UserContact)) : List NotificationEnriched :=
  profiles.flatMap fun profile => Enricher.userEvents raw topics profile
    ((rows.filter fun row => row.1 = profile.userId).map Prod.snd)

def step (database : Database) (limits : Limits) (world : World) : Action → Option World
  | .receive request => some { world with messages := world.messages ++ [{ request }] }
  | .resolve index userIds => do
    let message ← world.messages[index]?
    match message.phase with
    | .received =>
      if userIds.Perm (resolved database message.request) then
        if limits.maxUsers < userIds.length then
          some (nextChunk limits world index { message with chunks := [] })
        else some (nextChunk limits world index { message with chunks := chunkArray userIds 500 })
      else none
    | _ => none
  | .flushUserBatch =>
    if world.userBatch.timer then some { world with userBatch := world.userBatch.fire } else none
  | .findRecords flight records => do
    let (filed, after) ← world.userBatch.answer flight
    if records.Perm (database.tables.readable.findRecordsByIds filed.group filed.keys) then
      some { world with
        userBatch := after
        messages := filed.lookups.foldl (giveProfile records) world.messages }
    else none
  | .loadContacts index => do
    let message ← world.messages[index]?
    match message.phase with
    | .profiles slots => do
      let values ← slots.mapM Prod.snd
      let profiles := values.filterMap id
      some { world with
        messages := world.messages.set index { message with phase := .contacts profiles none }
        contactBatch := world.contactBatch.load limits.batchSize
          ⟨message.request.raw.projectId, profiles.map UserRecord.userId, index⟩ }
    | _ => none
  | .flushContactBatch =>
    if world.contactBatch.timer then some { world with contactBatch := world.contactBatch.fire }
    else none
  | .findContacts flight rows => do
    let (filed, after) ← world.contactBatch.answer flight
    if rows.Perm (contactRows database filed.group filed.keys) then
      some { world with
        contactBatch := after
        messages := filed.lookups.foldl (giveContacts rows) world.messages }
    else none
  | .enrich index => do
    let message ← world.messages[index]?
    match message.phase with
    | .contacts profiles (some rows) =>
      let events := (chunkEvents (topicsOf database message.request.raw) message.request.raw
        profiles rows).map fun event => (index, event)
      let sent := match message.request.target, limits.inlineNext with
        | .user _, true => { world with stream := world.stream ++ events }
        | _, _ => { world with eventBuffer := world.eventBuffer ++ events }
      some (nextChunk limits sent index message)
    | _ => none
  | .flushWorkerBuffers => some { world with
      eventBuffer := []
      stream := world.stream ++ world.eventBuffer }

section Rows

variable {database : Database} {projectId userId : Text} {user : UserRow}

/-- The row of a user. -/
def rowOf (database : Database) (projectId userId : Text) : Option UserRow :=
  database.tables.users.find? fun row => row.projectId = projectId ∧ row.externalId = userId

/-- A user has one row. -/
theorem row_unique {one two : UserRow} (isOne : one ∈ database.tables.users)
    (isTwo : two ∈ database.tables.users) (project : one.projectId = two.projectId)
    (named : one.externalId = two.externalId) : one = two :=
  List.inj_on_of_nodup_map database.usersKeyed isOne isTwo
    (database.tables.usersUnique one isOne two isTwo project named)

theorem rowOf_eq_some : rowOf database projectId userId = some user ↔
    user ∈ database.tables.users ∧ user.projectId = projectId ∧ user.externalId = userId := by
  constructor
  · intro found
    exact ⟨List.mem_of_find?_eq_some found, of_decide_eq_true (List.find?_some found :)⟩
  · rintro ⟨isUser, project, named⟩
    cases found : rowOf database projectId userId with
    | none => exact absurd (decide_eq_true ⟨project, named⟩) (List.find?_eq_none.mp found _ isUser)
    | some other =>
      have isOther := List.mem_of_find?_eq_some found
      have own := of_decide_eq_true (List.find?_some found :)
      rw [row_unique isOther isUser (own.1.trans project.symm) (own.2.trans named.symm)]

/-- Where one entry alone passes a test, it is the one that is found. -/
theorem find_unique {α : Type} {test : α → Bool} {entries : List α} {entry : α}
    (listed : entry ∈ entries) (passes : test entry = true)
    (unique : ∀ other ∈ entries, test other = true → other = entry) :
    entries.find? test = some entry := by
  cases found : entries.find? test with
  | none => exact absurd passes (List.find?_eq_none.mp found entry listed)
  | some other =>
    rw [unique other (List.mem_of_find?_eq_some found) (List.find?_some found)]

/-- Whatever else was asked for, and in whatever order the records came, an id is given the record
of its own row. -/
theorem find_record {userIds : List Text} {records : List UserRecord}
    (answered : records.Perm (database.tables.readable.findRecordsByIds projectId userIds))
    (asked : userId ∈ userIds) :
    (records.reverse.find? fun record => record.userId ∈ [userId]) =
      (rowOf database projectId userId).map database.tables.readable.record := by
  have member : ∀ record, record ∈ records.reverse ↔ ∃ row ∈ database.tables.users,
      (row.externalId ∈ userIds ∧ row.projectId = projectId) ∧
        database.tables.readable.record row = record := by
    intro record
    rw [List.mem_reverse, answered.mem_iff, Snapshot.findRecordsByIds, List.mem_map]
    simp only [List.mem_filter, decide_eq_true_eq, and_assoc]
    exact Iff.rfl
  cases found : rowOf database projectId userId with
  | none =>
    rw [Option.map_none, List.find?_eq_none]
    intro record listed same
    obtain ⟨row, isRow, ⟨_, project⟩, rfl⟩ := (member record).mp listed
    have named : row.externalId = userId := List.mem_singleton.mp (of_decide_eq_true same)
    rw [rowOf_eq_some.mpr ⟨isRow, project, named⟩] at found
    cases found
  | some user =>
    obtain ⟨isUser, project, named⟩ := rowOf_eq_some.mp found
    apply find_unique
    · exact (member _).mpr ⟨user, isUser, ⟨named ▸ asked, project⟩, rfl⟩
    · exact decide_eq_true (List.mem_singleton.mpr named)
    · intro record listed same
      obtain ⟨row, isRow, ⟨_, rowProject⟩, rfl⟩ := (member record).mp listed
      have rowNamed : row.externalId = userId := List.mem_singleton.mp (of_decide_eq_true same)
      rw [row_unique isRow isUser (rowProject.trans project.symm) (rowNamed.trans named.symm)]

/-- The rows with a user's key are the user's row. -/
theorem filter_user (isUser : user ∈ database.tables.users) :
    (database.tables.users.filter fun row =>
      row.projectId = user.projectId ∧ row.externalId = user.externalId) = [user] := by
  have distinct : (database.tables.users.filter fun row =>
      row.projectId = user.projectId ∧ row.externalId = user.externalId).Nodup :=
    database.usersKeyed.of_map.filter _
  apply List.perm_singleton.mp
  apply (List.perm_ext_iff_of_nodup distinct (List.nodup_singleton user)).mpr
  intro row
  rw [List.mem_filter, List.mem_singleton, decide_eq_true_eq]
  constructor
  · rintro ⟨isRow, project, named⟩
    exact row_unique isRow isUser project named
  · rintro rfl
    exact ⟨isUser, rfl, rfl⟩

/-- The active addresses of a user. -/
def activeContacts (database : Database) (user : UserRow) : List UserContact :=
  (database.tables.contacts.filter fun row => row.userId = user.id ∧ row.enabled = true).map
    database.tables.readable.contact

/-- Of joined rows, those of one user. -/
theorem filter_joined {β : Type} (userId : Text) (users : List UserRow) (rows : UserRow → List β) :
    ((users.flatMap fun user => (rows user).map fun row => (user.externalId, row)).filter
        fun entry => entry.1 = userId).map Prod.snd =
      (users.filter fun user => user.externalId = userId).flatMap rows := by
  induction users with
  | nil => rfl
  | cons user rest inductionHypothesis =>
    rw [List.flatMap_cons, List.filter_append, List.map_append, inductionHypothesis]
    by_cases named : user.externalId = userId
    · have own : ((rows user).map fun row => (user.externalId, row)).filter
          (fun entry => entry.1 = userId) = (rows user).map fun row => (user.externalId, row) := by
        apply List.filter_eq_self.mpr
        intro entry listed
        obtain ⟨row, _, rfl⟩ := List.mem_map.mp listed
        exact decide_eq_true named
      rw [own, List.filter_cons, if_pos (decide_eq_true named), List.flatMap_cons, List.map_map]
      exact congrArg (· ++ _) (List.map_id _)
    · have none : ((rows user).map fun row => (user.externalId, row)).filter
          (fun entry => entry.1 = userId) = [] := by
        apply List.filter_eq_nil_iff.mpr
        intro entry listed
        obtain ⟨row, _, rfl⟩ := List.mem_map.mp listed
        exact fun same => named (of_decide_eq_true same)
      rw [none, List.filter_cons, if_neg fun same => named (of_decide_eq_true same)]
      rfl

/-- Whatever else was asked for, and in whatever order the rows came, a user is given the addresses
of its own row. -/
theorem filter_contacts {userIds : List Text} {rows : List (Text × UserContact)}
    (found : rowOf database projectId userId = some user)
    (answered : rows.Perm (contactRows database projectId userIds)) (asked : userId ∈ userIds) :
    ((rows.filter fun row => row.1 = userId).map Prod.snd).Perm (activeContacts database user) := by
  obtain ⟨isUser, rfl, rfl⟩ := rowOf_eq_some.mp found
  have joined : contactRows database user.projectId userIds =
      (database.tables.users.filter fun row =>
        row.projectId = user.projectId ∧ row.externalId ∈ userIds).flatMap fun row =>
          (activeContacts database row).map fun contact => (row.externalId, contact) := by
    unfold contactRows activeContacts
    simp only [List.map_map]
    rfl
  have alone : (database.tables.users.filter fun row =>
      row.projectId = user.projectId ∧ row.externalId ∈ userIds).filter
        (fun row => row.externalId = user.externalId) = [user] := by
    rw [List.filter_filter, ← filter_user isUser]
    apply List.filter_congr
    intro row _
    rw [← Bool.decide_and, decide_eq_decide]
    constructor
    · rintro ⟨named, project, _⟩
      exact ⟨project, named⟩
    · rintro ⟨project, named⟩
      exact ⟨named, project, named ▸ asked⟩
  apply ((answered.filter _).map _).trans
  rw [joined, filter_joined, alone, List.flatMap_singleton]

end Rows

section Events

variable {database : Database}

/-- The value of a key that is assigned once. -/
theorem get_iff_mem {κ : Type} [DecidableEq κ] {record : Preference κ} {key : κ} {value : Bool}
    (keyed : (record.map Prod.fst).Nodup) :
    record.get key = some value ↔ (key, value) ∈ record := by
  unfold Preference.get
  rw [Option.map_eq_some_iff]
  constructor
  · rintro ⟨entry, found, rfl⟩
    have same : entry.1 = key := of_decide_eq_true (List.find?_some found :)
    rw [← same]
    exact List.mem_reverse.mp (List.mem_of_find?_eq_some found)
  · intro listed
    refine ⟨(key, value), ?_, rfl⟩
    apply find_unique (List.mem_reverse.mpr listed) (decide_eq_true rfl)
    intro other isOther same
    exact List.inj_on_of_nodup_map keyed (List.mem_reverse.mp isOther) listed
      (of_decide_eq_true same)

/-- The topics of a contact are its rows. -/
theorem mem_contact_topics {row : ContactRow} {topic : Text} {enabled : Bool} :
    (topic, enabled) ∈ (database.tables.readable.contact row).topics ↔
      (⟨row.id, topic, enabled⟩ : ContactTopicRow) ∈ database.tables.contactTopics := by
  unfold Snapshot.contact Snapshot.readable
  simp only [List.mem_map, List.mem_filter, decide_eq_true_eq]
  constructor
  · rintro ⟨⟨contactId, other, flag⟩, ⟨⟨listed, _⟩, rfl⟩, same⟩
    cases same
    exact listed
  · intro listed
    exact ⟨_, ⟨⟨listed, database.contactTopicsPlain _ listed⟩, rfl⟩, rfl⟩

/-- An address opted out just where a row says so. -/
theorem optedOutOf_contact (topics : List Text) (row : ContactRow) :
    optedOutOf topics (database.tables.readable.contact row).topics =
      optedOut database topics row := by
  have keyed : ((database.tables.readable.contact row).topics.map Prod.fst).Nodup := by
    unfold Snapshot.contact Snapshot.readable
    dsimp only
    rw [List.map_map, List.filter_filter]
    apply List.Nodup.of_map fun topic => (row.id, topic)
    rw [List.map_map]
    have rows : ((database.tables.contactTopics.filter fun entry =>
        decide (entry.contactId = row.id) && decide (entry.topic ≠ prototypeTopic)).map
          fun entry => (entry.contactId, entry.topic)).Nodup :=
      database.contactTopicsKeyed.sublist (List.filter_sublist.map _)
    refine Eq.mp (congrArg List.Nodup (List.map_congr_left fun entry listed => ?_)) rows
    have own := (List.mem_filter.mp listed).2
    rw [Bool.and_eq_true, decide_eq_true_eq] at own
    exact Prod.ext own.1 rfl
  apply Bool.eq_iff_iff.mpr
  unfold optedOutOf optedOut
  rw [List.any_eq_true, List.any_eq_true]
  constructor
  · rintro ⟨topic, listed, off⟩
    have stored := mem_contact_topics.mp ((get_iff_mem keyed).mp (of_decide_eq_true off))
    exact ⟨_, stored, decide_eq_true ⟨rfl, listed, rfl⟩⟩
  · rintro ⟨⟨contactId, topic, enabled⟩, stored, own⟩
    obtain ⟨rfl, listed, rfl⟩ := of_decide_eq_true own
    exact ⟨topic, listed, decide_eq_true ((get_iff_mem keyed).mpr (mem_contact_topics.mpr stored))⟩

/-- The usable contacts of a channel are the addresses that did not opt out. -/
theorem usable_eq {user : UserRow} {contacts : List UserContact} (topics : List Text)
    (channel : NotificationChannel) (own : contacts.Perm (activeContacts database user)) :
    (Enricher.usable contacts topics channel : Multiset UserContact) =
      (addresses database topics user channel).map database.tables.readable.contact := by
  have same : (Enricher.usable contacts topics channel).Perm
      (Enricher.usable (activeContacts database user) topics channel) := own.filter _
  rw [Multiset.coe_eq_coe.mpr same]
  unfold Enricher.usable activeContacts addresses
  rw [Multiset.filter_coe, Multiset.map_coe, List.filter_map, List.filter_filter]
  apply congrArg
  apply congrArg
  apply List.filter_congr
  intro row _
  have opted : _ = optedOut database topics row := optedOutOf_contact topics row
  simp only [Function.comp_apply, opted]
  rw [← Bool.decide_and, decide_eq_decide, Bool.not_eq_true, and_comm, and_assoc]
  exact Iff.rfl

variable (raw : NotificationRequested) {user : UserRow} {contacts : List UserContact}

/-- The events of a channel. -/
theorem channelEvents_eq (own : contacts.Perm (activeContacts database user))
    (chain : List NotificationChannel) (channel : NotificationChannel) :
    (Enricher.channelEvents raw (database.tables.readable.record user) contacts
      (topicsOf database raw) chain channel : Multiset NotificationEnriched) =
        eventsOn database raw user chain channel := by
  unfold Enricher.channelEvents eventsOn
  by_cases push : channel = .push
  · rw [if_pos push, if_pos push]
    rfl
  · rw [if_neg push, if_neg push, ← Multiset.map_coe, usable_eq _ _ own, Multiset.map_map]
    rfl

/-- A channel is passed over where no address is left. -/
theorem usable_eq_nil (own : contacts.Perm (activeContacts database user)) (topics : List Text)
    (channel : NotificationChannel) :
    Enricher.usable contacts topics channel = [] ↔
      (addresses database topics user channel).card = 0 := by
  rw [← Multiset.card_map database.tables.readable.contact, ← usable_eq topics channel own,
    Multiset.coe_card, List.length_eq_zero_iff]

/-- Where all channels are passed over there are no events, else those of the first that is not. -/
theorem firstReached_eq (own : contacts.Perm (activeContacts database user))
    (channels : List NotificationChannel) :
    ((channels.dropWhile fun channel =>
        Enricher.usable contacts (topicsOf database raw) channel = []) = [] →
      firstReached database raw user channels = 0) ∧
    ∀ first rest, (channels.dropWhile fun channel =>
        Enricher.usable contacts (topicsOf database raw) channel = []) = first :: rest →
      firstReached database raw user channels = eventsOn database raw user rest first := by
  induction channels with
  | nil => exact ⟨fun _ => rfl, fun first rest found => absurd found.symm (List.cons_ne_nil _ _)⟩
  | cons channel rest inductionHypothesis =>
    rw [List.dropWhile_cons, firstReached]
    by_cases none : Enricher.usable contacts (topicsOf database raw) channel = []
    · rw [if_pos (decide_eq_true none), if_pos ((usable_eq_nil own _ channel).mp none)]
      exact inductionHypothesis
    · rw [if_neg fun empty => none (of_decide_eq_true empty),
        if_neg fun empty => none ((usable_eq_nil own _ channel).mpr empty)]
      refine ⟨fun empty => absurd empty (List.cons_ne_nil _ _), fun first behind found => ?_⟩
      obtain ⟨rfl, rfl⟩ := List.cons.inj found
      rfl

/-- The enricher makes for a user just the events it should. -/
theorem userEvents_eq (own : contacts.Perm (activeContacts database user)) :
    (Enricher.userEvents raw (topicsOf database raw) (database.tables.readable.record user)
      contacts : Multiset NotificationEnriched) = eventsFor database raw user := by
  unfold Enricher.userEvents Enricher.userChannels eventsFor
  cases raw.fallback with
  | false =>
    rw [if_neg Bool.false_ne_true, if_neg Bool.false_ne_true]
    dsimp only
    rw [← Multiset.coe_bind]
    exact Multiset.bind_congr fun channel _ => channelEvents_eq raw own [] channel
  | true =>
    rw [if_pos rfl, if_pos rfl]
    obtain ⟨passed, reached⟩ := firstReached_eq raw own (Enricher.channelsOf raw)
    cases found : (Enricher.channelsOf raw).dropWhile fun channel =>
        Enricher.usable contacts (topicsOf database raw) channel = [] with
    | nil => exact (passed found).symm
    | cons first rest =>
      dsimp only
      rw [reached first rest found, List.flatMap_singleton]
      exact channelEvents_eq raw own rest first

end Events

section Targets

variable (database : Database) (request : Requested)

/-- The events an id owes. -/
def eventsOfId (raw : NotificationRequested) (userId : Text) : Multiset NotificationEnriched :=
  ((rowOf database raw.projectId userId).map (eventsFor database raw)).getD 0

/-- An id whose row is there owes that row's events. -/
theorem eventsOfId_row {raw : NotificationRequested} {user : UserRow}
    (isUser : user ∈ database.tables.users) (project : user.projectId = raw.projectId) :
    eventsOfId database raw user.externalId = eventsFor database raw user := by
  unfold eventsOfId
  rw [rowOf_eq_some.mpr ⟨isUser, project, rfl⟩]
  rfl

/-- Where a join has at most one row for each user, its ids are those of the users that have one. -/
theorem ids_of_join {β : Type} (users : List UserRow) (rows : UserRow → List β)
    (single : ∀ user ∈ users, (rows user).length ≤ 1) :
    (users.flatMap fun user => (rows user).map fun _ => user.externalId) =
      (users.filter fun user => rows user ≠ []).map UserRow.externalId := by
  induction users with
  | nil => rfl
  | cons user rest inductionHypothesis =>
    rw [List.forall_mem_cons] at single
    rw [List.flatMap_cons, List.filter_cons, inductionHypothesis single.2]
    cases found : rows user with
    | nil => rfl
    | cons row more =>
      rw [found, List.length_cons] at single
      have last : more = [] := List.eq_nil_of_length_eq_zero (by omega)
      rw [last]
      rfl

/-- Rows that are all one. -/
theorem length_le_one {α : Type} {entries : List α} (distinct : entries.Nodup)
    (same : ∀ one ∈ entries, ∀ two ∈ entries, one = two) : entries.length ≤ 1 := by
  match entries, distinct with
  | [], _ => exact Nat.zero_le _
  | [_], _ => exact Nat.le_refl _
  | first :: second :: rest, distinct =>
    have equal := same first List.mem_cons_self second (List.mem_cons_of_mem _ List.mem_cons_self)
    exact absurd (equal ▸ List.mem_cons_self) (List.nodup_cons.mp distinct).1

/-- A join that has at most one row for each user, and one just where the user is wanted, resolves to
ids that owe the events of the request. -/
theorem joined_events {β : Type} (rows : UserRow → List β)
    (single : ∀ user, (rows user).length ≤ 1)
    (wants : ∀ user, rows user ≠ [] ↔ wanted database user request.target = true) :
    (((database.tables.users.filter fun row => row.projectId = request.raw.projectId).flatMap
        fun user => (rows user).map fun _ => user.externalId : List Text) : Multiset Text).bind
          (eventsOfId database request.raw) = expected database request := by
  rw [ids_of_join _ rows fun user _ => single user, List.filter_filter]
  have same : (database.tables.users.filter fun user => decide (rows user ≠ []) &&
      decide (user.projectId = request.raw.projectId)) =
      database.tables.users.filter fun row => decide (row.projectId = request.raw.projectId ∧
        wanted database row request.target = true) := by
    apply List.filter_congr
    intro user _
    rw [← Bool.decide_and, decide_eq_decide, and_comm, wants user]
  rw [same, ← Multiset.map_coe, Multiset.bind_map]
  unfold expected recipients
  rw [Multiset.filter_coe]
  apply Multiset.bind_congr
  intro user listed
  obtain ⟨isUser, own⟩ := List.mem_filter.mp (Multiset.mem_coe.mp listed)
  exact eventsOfId_row database isUser (of_decide_eq_true own).1

/-- The users of a target owe just the events of the request. -/
theorem resolved_events :
    (resolved database request : Multiset Text).bind (eventsOfId database request.raw) =
      expected database request := by
  obtain ⟨target, raw⟩ := request
  cases target with
  | user userId =>
    unfold resolved expected recipients wanted eventsOfId
    dsimp only
    rw [Multiset.coe_singleton, Multiset.singleton_bind, Multiset.filter_coe]
    cases found : rowOf database raw.projectId userId with
    | none =>
      have nobody : (database.tables.users.filter fun row => decide (row.projectId = raw.projectId ∧
          decide (row.externalId = userId) = true)) = [] := by
        apply List.filter_eq_nil_iff.mpr
        intro row isRow own
        obtain ⟨project, named⟩ := of_decide_eq_true own
        rw [rowOf_eq_some.mpr ⟨isRow, project, of_decide_eq_true named⟩] at found
        cases found
      rw [nobody]
      rfl
    | some user =>
      obtain ⟨isUser, project, named⟩ := rowOf_eq_some.mp found
      simp only [decide_eq_true_eq]
      rw [← project, ← named, filter_user isUser, Multiset.coe_singleton, Multiset.singleton_bind]
      rfl
  | segment segment =>
    apply joined_events database ⟨.segment segment, raw⟩
    · intro user
      apply length_le_one (database.segmentsKeyed.filter _)
      rintro ⟨one, name⟩ isOne ⟨two, other⟩ isTwo
      obtain ⟨rfl, rfl⟩ := of_decide_eq_true (List.mem_filter.mp isOne).2
      obtain ⟨rfl, rfl⟩ := of_decide_eq_true (List.mem_filter.mp isTwo).2
      rfl
    · intro user
      unfold wanted
      rw [decide_eq_true_eq, ne_eq, List.filter_eq_nil_iff]
      constructor
      · intro some
        by_contra none
        apply some
        rintro ⟨userId, name⟩ listed own
        obtain ⟨rfl, rfl⟩ := of_decide_eq_true own
        exact none listed
      · exact fun listed none => none _ listed (decide_eq_true ⟨rfl, rfl⟩)
  | topic topic =>
    apply joined_events database ⟨.topic topic, raw⟩
    · intro user
      apply length_le_one (database.topicsKeyed.of_map.filter _)
      intro one isOne two isTwo
      obtain ⟨isOne, own⟩ := List.mem_filter.mp isOne
      obtain ⟨isTwo, other⟩ := List.mem_filter.mp isTwo
      obtain ⟨user, topic, _⟩ := of_decide_eq_true own
      obtain ⟨user', topic', _⟩ := of_decide_eq_true other
      exact List.inj_on_of_nodup_map database.topicsKeyed isOne isTwo
        (Prod.ext (user.trans user'.symm) (topic.trans topic'.symm))
    · intro user
      unfold wanted
      rw [List.any_eq_true, ne_eq, List.filter_eq_nil_iff]
      push Not
      exact Iff.rfl

end Targets

section Chunks

variable {α : Type}

/-- The first chunks together are the first items. -/
theorem flatten_chunks (items : List α) (size count : Nat) :
    ((List.range count).map fun index => (items.drop (index * size)).take size).flatten =
      items.take (count * size) := by
  induction count with
  | zero => rw [Nat.zero_mul, List.take_zero]; rfl
  | succ count inductionHypothesis =>
    rw [List.range_succ, List.map_append, List.flatten_append, inductionHypothesis,
      List.map_singleton, List.flatten_singleton, Nat.succ_mul, List.take_add]

/-- Chunks put together again are what was cut up. -/
theorem flatten_chunkArray (items : List α) {size : Nat} (some : 0 < size) :
    (chunkArray items size).flatten = items := by
  unfold chunkArray
  rw [flatten_chunks]
  apply List.take_of_length_le
  have whole := Nat.div_add_mod (items.length + size - 1) size
  have rest := Nat.mod_lt (items.length + size - 1) some
  rw [Nat.mul_comm] at whole
  omega

end Chunks

end Notifkit.Pipeline.FanOuts
