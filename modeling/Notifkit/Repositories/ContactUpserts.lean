import Notifkit.Repositories.ContactTables

/-!
# Many contacts at once

`upsertMany` writes a list of contacts with one statement for the contacts and one for their topics.
An address that comes several times is kept once, the topics of the later entry spread over those of
the earlier ones; the rows come back with their ids and are matched by a composed key. Contacts of
users that are not there are passed over.

However the addresses repeat, this comes to what `upsert` would leave entry by entry.
-/

namespace Notifkit.Repositories.ContactRepository

open Pipeline Upserts

/-- An element of the list. -/
structure ContactEntry where
  userId : Text
  channel : NotificationChannel
  target : Text
  /-- `preferences.topics`, absent also where there are no preferences -/
  topics : Option Choices := none
deriving DecidableEq

section Statements

variable (ids : ContactIds) (users : UserRows) (projectId : Text)

/-- The ids of some users. -/
def selectIds (userIds : List Text) : Option (Text → Option Uuid) :=
  if ∀ userId ∈ userIds, storable userId = true then
    some fun userId => if userId ∈ userIds then users.id (projectId, userId) else none
  else none

/-- The insert of contacts, which returns each row with its id. One that is there is enabled. -/
def insertContacts (rows : List ContactKey) (tables : ContactTables) :
    Option (ContactTables × List (Uuid × ContactKey)) :=
  if ∀ key ∈ rows, storable key.2.2 = true then do
    let contacts ← insertOrUpdate (fun old _ => { old with enabled := true })
      (rows.map fun key => (key, {})) tables.contacts
    some ({ tables with contacts := contacts }, rows.map fun key => (ids.uuid key, key))
  else none

/-- The insert of topics. -/
def insertTopics (rows : List ((Uuid × Text) × Bool)) (tables : ContactTables) :
    Option ContactTables :=
  if ∀ row ∈ rows, storable row.1.2 = true then do
    let topics ← insertOrUpdate (fun _ enabled => enabled) rows tables.topics
    some { tables with topics := topics }
  else none

/-- `upsert`; absent where a statement is refused. -/
def upsert (contact : ContactEntry) (tables : ContactTables) : Option ContactTables := do
  let idMap ← selectIds users projectId [contact.userId]
  match idMap contact.userId with
  | none => some tables
  | some internalId =>
    let (stored, inserted) ←
      insertContacts ids [(internalId, contact.channel, contact.target)] tables
    match inserted.head? with
    | none => some stored
    | some row =>
      let topics := (contact.topics.getD {}).entries
      if topics = [] then some stored
      else insertTopics (topics.map fun topic => ((row.1, topic.1), topic.2)) stored

/-- An entry whose address was there before. -/
def mergeTopics (seen c : ContactEntry) : ContactEntry :=
  { c with topics := some ((seen.topics.getD {}).spread (c.topics.getD {})) }

/-- One entry for each address of a user that is there. -/
def byAddress (idMap : Text → Option Uuid) (contactsList : List ContactEntry) :
    List (Text × ContactEntry) :=
  contactsList.foldl (fun found c =>
    if (idMap c.userId).isNone then found
    else
      let key := addressKey c.userId c.channel c.target
      match lastOf key found none with
      | some seen => put key (mergeTopics seen c) found
      | none => put key c found) []

/-- The rows of the insert of contacts. Whoever is among the valid contacts has an id. -/
def contactInserts (idMap : Text → Option Uuid) (validContacts : List ContactEntry) :
    List ContactKey :=
  validContacts.filterMap fun c => (idMap c.userId).map fun id => (id, c.channel, c.target)

/-- The rows of the insert of topics, under the ids that were returned. -/
def topicInserts (idMap : Text → Option Uuid) (inserted : List (Uuid × ContactKey))
    (validContacts : List ContactEntry) : List ((Uuid × Text) × Bool) :=
  let contactIdMap := inserted.map fun row => (composedKey row.2, row.1)
  validContacts.flatMap fun c =>
    match (idMap c.userId).bind fun id => lastOf (composedKey (id, c.channel, c.target))
        contactIdMap none with
    | some contactId =>
      (c.topics.getD {}).entries.map fun topic => ((contactId, topic.1), topic.2)
    | none => []

/-- `upsertMany`; absent where a statement is refused. -/
def upsertMany (contactsList : List ContactEntry) (tables : ContactTables) :
    Option ContactTables :=
  if contactsList = [] then some tables
  else do
    let idMap ← selectIds users projectId (contactsList.map ContactEntry.userId)
    let validContacts := (byAddress idMap contactsList).map Prod.snd
    if validContacts = [] then some tables
    else
      let (stored, inserted) ←
        insertContacts ids (contactInserts idMap validContacts) tables
      let topics := topicInserts idMap inserted validContacts
      if topics = [] then some stored else insertTopics topics stored

/-- One entry after another. -/
def oneByOne (contactsList : List ContactEntry) (tables : ContactTables) : Option ContactTables :=
  contactsList.foldlM (fun tables contact => upsert ids users projectId contact tables) tables

end Statements

section Rows

variable {ids : ContactIds} {users : UserRows} {projectId : Text}

/-- Contacts with their keys. -/
abbrev Keyed := List (ContactKey × ContactEntry)

/-- The topics chosen for an entry. -/
def topicsOf (c : ContactEntry) : List (Text × Bool) := (c.topics.getD {}).entries

/-- The topics of contacts, under the ids of their rows. -/
def topicRows (ids : ContactIds) (rows : Keyed) : List ((Uuid × Text) × Bool) :=
  spreadRows topicsOf (rows.map fun row => (ids.uuid row.1, row.2))

/-- The database can hold contacts with their topics. -/
def AllStorable (ids : ContactIds) (rows : Keyed) : Prop :=
  (∀ key ∈ rows.map Prod.fst, storable key.2.2 = true) ∧
    ∀ key ∈ (topicRows ids rows).map Prod.fst, storable key.2 = true

instance (ids : ContactIds) (rows : Keyed) : Decidable (AllStorable ids rows) := by
  unfold AllStorable
  infer_instance

/-- Tables with contacts written to them: the contacts are enabled, and of the topics the last
choice counts. -/
def written (ids : ContactIds) (rows : Keyed) (tables : ContactTables) : ContactTables where
  contacts := fun key =>
    if key ∈ rows.map Prod.fst then some { (tables.contacts key).getD {} with enabled := true }
    else tables.contacts key
  topics := fun key => lastOf key (topicRows ids rows) (tables.topics key)

/-- What is written depends on the keys and on the last choice for each topic. -/
theorem written_congr (ids : ContactIds) {rows rows' : Keyed}
    (keys : ∀ key, key ∈ rows.map Prod.fst ↔ key ∈ rows'.map Prod.fst)
    (choices : ∀ key, lastOf key (topicRows ids rows) none = lastOf key (topicRows ids rows') none)
    (tables : ContactTables) :
    written ids rows tables = written ids rows' tables ∧
      (AllStorable ids rows ↔ AllStorable ids rows') := by
  constructor
  · unfold written
    congr 1
    · funext key
      simp only [keys]
    · funext key
      rw [lastOf_eq, choices, ← lastOf_eq]
  · have topics : ∀ key, key ∈ (topicRows ids rows).map Prod.fst ↔
        key ∈ (topicRows ids rows').map Prod.fst := by
      intro key
      rw [← lastOf_isSome, ← lastOf_isSome, choices]
    unfold AllStorable
    simp only [keys, topics]

/-- Nothing is written for no contacts. -/
theorem written_nil (tables : ContactTables) : written ids [] tables = tables := rfl

/-- Contacts may be written in two goes. -/
theorem written_append (first second : Keyed) (tables : ContactTables) :
    written ids (first ++ second) tables = written ids second (written ids first tables) := by
  have rows : topicRows ids (first ++ second) = topicRows ids first ++ topicRows ids second := by
    simp [topicRows, spreadRows]
  unfold written
  congr 1
  · funext key
    by_cases early : key ∈ first.map Prod.fst
    · by_cases late : key ∈ second.map Prod.fst <;> simp [early, late]
    · by_cases late : key ∈ second.map Prod.fst <;> simp [early, late]
  · funext key
    rw [rows, lastOf_append]

theorem allStorable_append (first second : Keyed) :
    AllStorable ids (first ++ second) ↔ AllStorable ids first ∧ AllStorable ids second := by
  have rows : topicRows ids (first ++ second) = topicRows ids first ++ topicRows ids second := by
    simp [topicRows, spreadRows]
  unfold AllStorable
  rw [rows, List.map_append, List.map_append, List.forall_mem_append, List.forall_mem_append]
  exact and_and_and_comm

/-- Topics of different contacts go to different rows. -/
theorem topicRows_distinct {rows : Keyed} (distinct : (rows.map Prod.fst).Nodup) :
    ((topicRows ids rows).map Prod.fst).Nodup := by
  apply spreadRows_distinct
  · have named := distinct.map ids.apart
    rw [List.map_map] at named ⊢
    exact named
  · intro row _
    exact (row.2.topics.getD {}).distinct

/-- The two statements, for contacts that are told apart. -/
theorem inserts_written (ids : ContactIds) {rows : Keyed} (distinct : (rows.map Prod.fst).Nodup)
    (tables : ContactTables) :
    ((insertContacts ids (rows.map Prod.fst) tables).bind fun stored =>
        insertTopics (topicRows ids rows) stored.1) =
      if AllStorable ids rows then some (written ids rows tables) else none := by
  have keyed : ((rows.map Prod.fst).map fun key => (key, ({} : ContactRow))).map Prod.fst =
      rows.map Prod.fst := by
    rw [List.map_map]
    exact List.map_id _
  have contacts : insertOrUpdate (fun old _ => { old with enabled := true })
      ((rows.map Prod.fst).map fun key => (key, ({} : ContactRow))) tables.contacts =
      some (written ids rows tables).contacts := by
    unfold insertOrUpdate
    rw [keyed, if_pos distinct]
    congr 1
    funext key
    rw [foldl_place (keyed.symm ▸ distinct)]
    unfold written
    by_cases named : key ∈ rows.map Prod.fst
    · have listed : (key, ({} : ContactRow)) ∈
          (rows.map Prod.fst).map fun key => (key, ({} : ContactRow)) :=
        List.mem_map.mpr ⟨key, named, rfl⟩
      rw [lastOf_of_mem (keyed.symm ▸ distinct) listed]
      simp only [named, if_true]
      cases tables.contacts key <;> rfl
    · rw [lastOf_absent]
      · simp only [named, if_false]
      · intro row listed same
        obtain ⟨other, inside, rfl⟩ := List.mem_map.mp listed
        exact named (same ▸ inside)
  unfold insertContacts
  rw [contacts]
  by_cases targets : ∀ key ∈ rows.map Prod.fst, storable key.2.2 = true
  · rw [if_pos targets]
    simp only [Option.bind_eq_bind, Option.bind_some]
    unfold insertTopics
    by_cases topics : ∀ row ∈ topicRows ids rows, storable row.1.2 = true
    · have all : AllStorable ids rows := by
        refine ⟨targets, fun key named => ?_⟩
        obtain ⟨row, listed, rfl⟩ := List.mem_map.mp named
        exact topics row listed
      rw [if_pos topics, if_pos all]
      unfold insertOrUpdate
      rw [if_pos (topicRows_distinct distinct)]
      simp only [Option.bind_eq_bind, Option.bind_some, Option.some.injEq]
      unfold written
      congr 1
      funext key
      exact foldl_replace _ _ key
    · rw [if_neg topics, if_neg]
      intro all
      exact topics fun row listed => all.2 row.1 (List.mem_map.mpr ⟨row, listed, rfl⟩)
  · rw [if_neg targets, if_neg fun all => targets all.1]
    rfl

/-- Each row comes back with its id. -/
theorem insertContacts_returned {rows : List ContactKey} {tables : ContactTables}
    {result : ContactTables × List (Uuid × ContactKey)}
    (stored : insertContacts ids rows tables = some result) :
    result.2 = rows.map fun key => (ids.uuid key, key) := by
  unfold insertContacts at stored
  split at stored
  next =>
    obtain ⟨contacts, _, returned⟩ := Option.bind_eq_some_iff.mp stored
    obtain rfl := Option.some.inj returned
    rfl
  next => cases stored

/-- Without topics there is nothing to insert. -/
theorem insertTopics_nil (tables : ContactTables) : insertTopics [] tables = some tables := by
  simp [insertTopics, insertOrUpdate]

end Rows

section Sequence

variable {ids : ContactIds} {users : UserRows} {projectId : Text}

/-- Where an entry lies, if its user is there. -/
def keyOf (users : UserRows) (projectId : Text) (c : ContactEntry) : Option ContactKey :=
  (users.id (projectId, c.userId)).map fun id => (id, c.channel, c.target)

/-- The entries of users that are there, with their keys. -/
def known (users : UserRows) (projectId : Text) (contactsList : List ContactEntry) : Keyed :=
  contactsList.filterMap fun c => (keyOf users projectId c).map fun key => (key, c)

theorem known_cons (c : ContactEntry) (rest : List ContactEntry) :
    known users projectId (c :: rest) = known users projectId [c] ++ known users projectId rest :=
  List.filterMap_append (l := [c])

/-- Entries that the database can hold, with the ids of their users. -/
def Accepted (ids : ContactIds) (users : UserRows) (projectId : Text)
    (contactsList : List ContactEntry) : Prop :=
  (∀ userId ∈ contactsList.map ContactEntry.userId, storable userId = true) ∧
    AllStorable ids (known users projectId contactsList)

instance (ids : ContactIds) (users : UserRows) (projectId : Text)
    (contactsList : List ContactEntry) : Decidable (Accepted ids users projectId contactsList) := by
  unfold Accepted
  infer_instance

theorem accepted_cons (c : ContactEntry) (rest : List ContactEntry) :
    Accepted ids users projectId (c :: rest) ↔
      Accepted ids users projectId [c] ∧ Accepted ids users projectId rest := by
  unfold Accepted
  rw [known_cons, allStorable_append, List.map_cons, List.forall_mem_cons, List.map_cons,
    List.map_nil, List.forall_mem_singleton]
  exact and_and_and_comm

/-- The lookup of some users finds each of them, if it is there. -/
theorem selectIds_some (users : UserRows) (projectId : Text) {userIds : List Text} (held : ∀ userId ∈ userIds, storable userId = true) :
    ∃ idMap, selectIds users projectId userIds = some idMap ∧
      ∀ userId ∈ userIds, idMap userId = users.id (projectId, userId) :=
  ⟨_, if_pos held, fun _ listed => if_pos listed⟩

/-- A single entry, added. -/
theorem upsert_written (c : ContactEntry) (tables : ContactTables) :
    upsert ids users projectId c tables =
      if Accepted ids users projectId [c]
      then some (written ids (known users projectId [c]) tables) else none := by
  unfold upsert
  by_cases held : ∀ userId ∈ [c.userId], storable userId = true
  · obtain ⟨idMap, found, same⟩ := selectIds_some users projectId held
    rw [found]
    simp only [Option.bind_eq_bind, Option.bind_some]
    rw [same c.userId List.mem_cons_self]
    cases user : users.id (projectId, c.userId) with
    | none =>
      have nobody : known users projectId [c] = [] := by simp [known, keyOf, user]
      rw [if_pos]
      · rw [nobody, written_nil]
      · refine ⟨held, ?_⟩
        rw [nobody]
        exact ⟨by simp, by simp [topicRows, spreadRows]⟩
    | some internalId =>
      have only : known users projectId [c] = [((internalId, c.channel, c.target), c)] := by
        simp [known, keyOf, user]
      have accepted : Accepted ids users projectId [c] ↔
          AllStorable ids [((internalId, c.channel, c.target), c)] := by
        unfold Accepted
        rw [only]
        exact and_iff_right held
      have single : ((([((internalId, c.channel, c.target), c)] : Keyed).map Prod.fst)).Nodup :=
        List.nodup_singleton _
      have inserts := inserts_written ids single tables
      simp only [accepted, only, ← inserts]
      have rows : topicRows ids [((internalId, c.channel, c.target), c)] =
          (topicsOf c).map fun topic =>
            ((ids.uuid (internalId, c.channel, c.target), topic.1), topic.2) := by
        simp [topicRows, spreadRows]
      rw [rows, List.map_singleton]
      cases stored : insertContacts ids [(internalId, c.channel, c.target)] tables with
      | none => rfl
      | some result =>
        have returned : result.2 =
            [(ids.uuid (internalId, c.channel, c.target), internalId, c.channel, c.target)] :=
          insertContacts_returned stored
        simp only [Option.bind_some, returned, List.head?_cons]
        unfold topicsOf
        split
        next none => rw [none, List.map_nil, insertTopics_nil]
        next => rfl
  · have refused : selectIds users projectId [c.userId] = none := if_neg held
    rw [refused, if_neg fun accepted => held accepted.1]
    rfl

/-- What the entries leave, one by one. -/
theorem oneByOne_written (contactsList : List ContactEntry) (tables : ContactTables) :
    oneByOne ids users projectId contactsList tables =
      if Accepted ids users projectId contactsList
      then some (written ids (known users projectId contactsList) tables) else none := by
  unfold oneByOne
  induction contactsList generalizing tables with
  | nil =>
    rw [if_pos]
    · rfl
    · exact ⟨by simp, by simp [known], by simp [known, topicRows, spreadRows]⟩
  | cons c rest inductionHypothesis =>
    rw [List.foldlM_cons, upsert_written]
    by_cases first : Accepted ids users projectId [c]
    · rw [if_pos first]
      refine (inductionHypothesis _).trans ?_
      by_cases later : Accepted ids users projectId rest
      · rw [if_pos later, if_pos ((accepted_cons c rest).mpr ⟨first, later⟩),
          known_cons c rest, written_append]
      · rw [if_neg later, if_neg fun all => later ((accepted_cons c rest).mp all).2]
    · rw [if_neg first, if_neg fun all => first ((accepted_cons c rest).mp all).1]
      rfl

end Sequence

section Batch

variable {ids : ContactIds} {users : UserRows} {projectId : Text}
  {idMap : Text → Option Uuid} {contactsList : List ContactEntry}

/-- Entries for one address are merged as they come. -/
theorem byAddress_merged (idMap : Text → Option Uuid) (contactsList : List ContactEntry) :
    byAddress idMap contactsList = merged mergeTopics
      ((contactsList.filter fun c => (idMap c.userId).isSome).map
        fun c => (addressKey c.userId c.channel c.target, c)) := by
  have from' : ∀ found : List (Text × ContactEntry),
      contactsList.foldl (fun found c =>
        if (idMap c.userId).isNone then found
        else
          let key := addressKey c.userId c.channel c.target
          match lastOf key found none with
          | some seen => put key (mergeTopics seen c) found
          | none => put key c found) found =
      ((contactsList.filter fun c => (idMap c.userId).isSome).map
        fun c => (addressKey c.userId c.channel c.target, c)).foldl (putMerged mergeTopics)
          found := by
    induction contactsList with
    | nil => exact fun _ => rfl
    | cons c rest inductionHypothesis =>
      intro found
      rw [List.foldl_cons, inductionHypothesis]
      cases user : idMap c.userId with
      | none => simp [user]
      | some id =>
        have listed : (c :: rest).filter (fun c => (idMap c.userId).isSome) =
            c :: rest.filter fun c => (idMap c.userId).isSome := by simp [user]
        rw [listed, List.map_cons, List.foldl_cons]
        congr 1
        unfold putMerged
        simp only [Option.isNone_some, Bool.false_eq_true, if_false]
        split
        next found => rw [found]; rfl
        next absent => rw [absent]; rfl
  exact from' []

/-- The contacts of the batch: the known ones, merged. -/
def valid (users : UserRows) (projectId : Text) (contactsList : List ContactEntry) : Keyed :=
  merged mergeTopics (known users projectId contactsList)

/-- Each of them still lies where its entry said. -/
theorem valid_keyed {row : ContactKey × ContactEntry}
    (member : row ∈ valid users projectId contactsList) :
    keyOf users projectId row.2 = some row.1 ∧
      row.2.userId ∈ contactsList.map ContactEntry.userId := by
  refine merged_all (fun key c => keyOf users projectId c = some key ∧
    c.userId ∈ contactsList.map ContactEntry.userId) ?_ ?_ row member
  · intro row listed
    obtain ⟨c, inside, keyed⟩ := List.mem_filterMap.mp listed
    obtain ⟨key, found, rfl⟩ := Option.map_eq_some_iff.mp keyed
    exact ⟨found, List.mem_map.mpr ⟨c, inside, rfl⟩⟩
  · intro key old new _ here
    exact here

/-- The same key, for one user of an address or for two that share it. -/
theorem addressKey_iff {c c' : ContactEntry} {key key' : ContactKey}
    (held : storable c.userId = true) (held' : storable c'.userId = true)
    (lies : keyOf users projectId c = some key) (lies' : keyOf users projectId c' = some key') :
    addressKey c.userId c.channel c.target = addressKey c'.userId c'.channel c'.target ↔
      key = key' := by
  obtain ⟨id, user, rfl⟩ := Option.map_eq_some_iff.mp lies
  obtain ⟨id', user', rfl⟩ := Option.map_eq_some_iff.mp lies'
  constructor
  · intro same
    obtain ⟨named, channel, target⟩ := addressKey_apart held held' same
    rw [named, user'] at user
    rw [Option.some.inj user, channel, target]
  · intro same
    obtain ⟨rfl, rest⟩ := Prod.mk.inj same
    obtain ⟨channel, target⟩ := Prod.mk.inj rest
    have named : c.userId = c'.userId := (Prod.mk.inj (users.primary user user')).2
    rw [named, channel, target]

/-- The known entries are those whose user has an id; each of them has a key, so which one stands
in where there is none does not matter. -/
theorem known_filter (nowhere : ContactKey)
    (same : ∀ userId ∈ contactsList.map ContactEntry.userId,
      idMap userId = users.id (projectId, userId)) :
    known users projectId contactsList =
      (contactsList.filter fun c => (idMap c.userId).isSome).map
        fun c => ((keyOf users projectId c).getD nowhere, c) := by
  induction contactsList with
  | nil => rfl
  | cons c rest inductionHypothesis =>
    obtain ⟨here, later⟩ := List.forall_mem_cons.mp same
    rw [known_cons, inductionHypothesis later, List.filter_cons, here]
    unfold known keyOf
    cases user : users.id (projectId, c.userId) with
    | none => simp [user]
    | some id => simp [user]

/-- They are what the map by address holds. -/
theorem byAddress_valid (held : ∀ userId ∈ contactsList.map ContactEntry.userId,
      storable userId = true)
    (same : ∀ userId ∈ contactsList.map ContactEntry.userId,
      idMap userId = users.id (projectId, userId)) :
    (byAddress idMap contactsList).map Prod.snd =
      (valid users projectId contactsList).map Prod.snd := by
  have lies : ∀ c ∈ contactsList.filter fun c => (idMap c.userId).isSome,
      ∃ key, keyOf users projectId c = some key ∧ storable c.userId = true := by
    intro c member
    obtain ⟨inside, there⟩ := List.mem_filter.mp member
    have user : c.userId ∈ contactsList.map ContactEntry.userId :=
      List.mem_map.mpr ⟨c, inside, rfl⟩
    rw [same c.userId user] at there
    obtain ⟨id, found⟩ := Option.isSome_iff_exists.mp there
    exact ⟨(id, c.channel, c.target), by rw [keyOf, found]; rfl, held c.userId user⟩
  unfold valid
  rw [byAddress_merged, known_filter ({ text := [] }, .email, []) same]
  apply merged_spelled
  intro c first c' second
  obtain ⟨key, found, plain⟩ := lies c first
  obtain ⟨key', found', plain'⟩ := lies c' second
  rw [found, found']
  exact addressKey_iff plain plain' found found'

/-- The rows of the first statement are the keys of the contacts. -/
theorem contactInserts_valid
    (same : ∀ userId ∈ contactsList.map ContactEntry.userId,
      idMap userId = users.id (projectId, userId)) :
    contactInserts idMap ((valid users projectId contactsList).map Prod.snd) =
      (valid users projectId contactsList).map Prod.fst := by
  unfold contactInserts
  rw [List.filterMap_map, ← List.filterMap_eq_map]
  apply List.filterMap_congr
  intro row member
  obtain ⟨lies, listed⟩ := valid_keyed member
  rw [Function.comp_apply, same row.2.userId listed]
  exact lies

/-- The rows of the second statement are their topics: each contact finds its own id. -/
theorem topicInserts_valid
    (same : ∀ userId ∈ contactsList.map ContactEntry.userId,
      idMap userId = users.id (projectId, userId)) :
    topicInserts idMap
        (((valid users projectId contactsList).map Prod.fst).map fun key => (ids.uuid key, key))
        ((valid users projectId contactsList).map Prod.snd) =
      topicRows ids (valid users projectId contactsList) := by
  have distinct : ((valid users projectId contactsList).map Prod.fst).Nodup :=
    merged_distinct _ _
  generalize valid_eq : valid users projectId contactsList = rows at distinct ⊢
  unfold topicInserts topicRows spreadRows
  rw [List.flatMap_map, List.flatMap_map]
  apply List.flatMap_congr
  intro row member
  obtain ⟨lies, listed⟩ := valid_keyed (valid_eq ▸ member)
  obtain ⟨id, user, keyed⟩ := Option.map_eq_some_iff.mp lies
  have keys : (((rows.map Prod.fst).map fun key => (key, key)).map Prod.fst).Nodup := by
    rw [List.map_map]
    exact (List.map_id _).symm ▸ distinct
  have own : lastOf row.1 ((rows.map Prod.fst).map fun key => (key, key)) none = some row.1 :=
    lastOf_of_mem keys (List.mem_map.mpr ⟨row.1, List.mem_map.mpr ⟨row, member, rfl⟩, rfl⟩)
  have found := lastOf_map composedKey_injective ids.uuid row.1
    ((rows.map Prod.fst).map fun key => (key, key)) none
  rw [own, List.map_map] at found
  rw [same row.2.userId listed, user, Option.bind_some, keyed, List.map_map]
  have id' : lastOf (composedKey row.1) ((rows.map Prod.fst).map
      ((fun row => (composedKey row.2, row.1)) ∘ fun key => (ids.uuid key, key))) none =
      some (ids.uuid row.1) := found
  rw [id']
  rfl

/-- Merged or not, the entries come to the same choices. -/
theorem topicRows_valid (key : Uuid × Text) :
    lastOf key (topicRows ids (valid users projectId contactsList)) none =
      lastOf key (topicRows ids (known users projectId contactsList)) none := by
  obtain ⟨contactId, topic⟩ := key
  have spelled : ∀ rows : Keyed, topicRows ids rows = (spreadRows topicsOf rows).map
      fun row => ((ids.uuid row.1.1, row.1.2), row.2) := by
    intro rows
    unfold topicRows spreadRows
    rw [List.flatMap_map, List.map_flatMap]
    apply List.flatMap_congr
    intro row _
    rw [List.map_map]
    rfl
  rw [spelled, spelled]
  by_cases lies : ∃ key, ids.uuid key = contactId
  · obtain ⟨key, rfl⟩ := lies
    have apart : Function.Injective fun pair : ContactKey × Text => (ids.uuid pair.1, pair.2) := by
      intro pair pair' same
      obtain ⟨uuid, text⟩ := Prod.mk.inj same
      exact Prod.ext (ids.apart uuid) text
    have look := fun rows : Keyed => lastOf_map apart (fun value : Bool => value) (key, topic)
      (spreadRows topicsOf rows) none
    have both := lastOf_spreadRows_merged topicsOf mergeTopics
      (fun old new field => Choices.lastOf_spread _ _ field)
      (known users projectId contactsList) key topic
    exact (look _).trans ((congrArg _ both).trans (look _).symm)
  · have nowhere : ∀ rows : Keyed, lastOf (contactId, topic) ((spreadRows topicsOf rows).map
        fun row => ((ids.uuid row.1.1, row.1.2), row.2)) none = none := by
      intro rows
      refine lastOf_absent (fun row listed same => lies ?_) none
      obtain ⟨inner, _, rfl⟩ := List.mem_map.mp listed
      exact ⟨inner.1.1, (Prod.mk.inj same).1⟩
    rw [nowhere, nowhere]

/-- What the batch leaves. -/
theorem upsertMany_written (ids : ContactIds) (users : UserRows) (projectId : Text)
    (contactsList : List ContactEntry) (tables : ContactTables) :
    upsertMany ids users projectId contactsList tables =
      if Accepted ids users projectId contactsList
      then some (written ids (known users projectId contactsList) tables) else none := by
  have distinct : ((valid users projectId contactsList).map Prod.fst).Nodup := merged_distinct _ _
  have keys : ∀ key, key ∈ (valid users projectId contactsList).map Prod.fst ↔
      key ∈ (known users projectId contactsList).map Prod.fst := fun _ => mem_merged_keys
  obtain ⟨same, all⟩ := written_congr ids keys topicRows_valid tables
  have inserts := inserts_written ids distinct tables
  rw [same] at inserts
  unfold upsertMany
  by_cases empty : contactsList = []
  · subst empty
    rw [if_pos rfl, if_pos]
    · rfl
    · exact ⟨by simp, by simp [known], by simp [known, topicRows, spreadRows]⟩
  · rw [if_neg empty]
    by_cases held : ∀ userId ∈ contactsList.map ContactEntry.userId, storable userId = true
    · obtain ⟨idMap, found, looked⟩ := selectIds_some users projectId held
      have accepted : Accepted ids users projectId contactsList ↔
          AllStorable ids (valid users projectId contactsList) := (and_iff_right held).trans all.symm
      rw [found]
      simp only [Option.bind_eq_bind, Option.bind_some, accepted]
      rw [byAddress_valid held looked, contactInserts_valid looked, ← inserts]
      split
      next nobody =>
        rw [List.map_eq_nil_iff] at nobody
        rw [nobody]
        simp [insertContacts, insertOrUpdate, topicRows, spreadRows, insertTopics_nil]
      next =>
        cases stored : insertContacts ids ((valid users projectId contactsList).map Prod.fst)
            tables with
        | none => rfl
        | some result =>
          have returned := insertContacts_returned stored
          simp only [Option.bind_some, returned, topicInserts_valid looked]
          split
          next none => rw [none, insertTopics_nil]
          next => rfl
    · have refused : selectIds users projectId (contactsList.map ContactEntry.userId) = none :=
        if_neg held
      rw [refused, if_neg fun accepted => held accepted.1]
      rfl

/-- Neither statement of the batch proposes two rows with one key. -/
def TouchesNoRowTwice (ids : ContactIds) (users : UserRows) (projectId : Text)
    (contactsList : List ContactEntry) (tables : ContactTables) : Prop :=
  match selectIds users projectId (contactsList.map ContactEntry.userId) with
  | none => True
  | some idMap =>
    let validContacts := (byAddress idMap contactsList).map Prod.snd
    (contactInserts idMap validContacts).Nodup ∧
      match insertContacts ids (contactInserts idMap validContacts) tables with
      | none => True
      | some (_, inserted) => ((topicInserts idMap inserted validContacts).map Prod.fst).Nodup

/-- The same address twice, in two entries that choose between them: the later choice counts. -/
example : mergeTopics
      { userId := "u".toList, channel := .email, target := "a".toList,
        topics := some { entries := [("news".toList, false), ("offers".toList, true)] } }
      { userId := "u".toList, channel := .email, target := "a".toList,
        topics := some { entries := [("news".toList, true)] } } =
    { userId := "u".toList, channel := .email, target := "a".toList,
      topics := some { entries := [("news".toList, true), ("offers".toList, true)] } } := by
  decide

end Batch

end Notifkit.Repositories.ContactRepository
