import Mathlib.Data.List.Nodup
import Notifkit.Foundations.Text

/-!
# What the pipeline reads of the database

The rows that decide who is reached: users with their preferences, their addresses with the topics
each opted out of, templates and suppressed addresses. The reads are those of the repositories, as
they are without their caches.

An object of preferences is a list of assignments, of which the last one for a key counts. Ids of
rows are numbers where nothing is made of them but equality.
-/

namespace Notifkit.Pipeline

inductive NotificationChannel where
  | email | sms | push | webhook | inApp | telegram | discord | whatsapp | slack
deriving DecidableEq

/-- How a channel is written. -/
def NotificationChannel.name : NotificationChannel → Text
  | email => "email".toList
  | sms => "sms".toList
  | push => "push".toList
  | webhook => "webhook".toList
  | inApp => "in-app".toList
  | telegram => "telegram".toList
  | discord => "discord".toList
  | whatsapp => "whatsapp".toList
  | slack => "slack".toList

inductive NotificationPriority where
  | low | normal | high | critical
deriving DecidableEq

/-- Truth of a text: an empty one is none. -/
def truthy (text : Option Text) : Option Text := text.filter fun value => value ≠ []

/-- An object with boolean values. -/
abbrev Preference (κ : Type) := List (κ × Bool)

/-- The value of a key: the last one assigned. -/
def Preference.get {κ : Type} [DecidableEq κ] (record : Preference κ) (key : κ) : Option Bool :=
  (record.reverse.find? fun entry => entry.1 = key).map Prod.snd

structure UserRow where
  id : Nat
  projectId : Text
  externalId : Text
  timezone : Text
deriving DecidableEq

structure UserTopicRow where
  userId : Nat
  topic : Text
  enabled : Bool

structure UserChannelRow where
  userId : Nat
  channel : NotificationChannel
  enabled : Bool

/-- Two times of day, as `HH:MM`. -/
structure QuietHours where
  startTime : Text
  endTime : Text
deriving DecidableEq

structure QuietHoursRow where
  userId : Nat
  hours : QuietHours

structure ContactRow where
  id : Text
  userId : Nat
  channel : NotificationChannel
  target : Text
  enabled : Bool
deriving DecidableEq

structure ContactTopicRow where
  contactId : Text
  topic : Text
  enabled : Bool

structure SuppressionRow where
  projectId : Text
  channel : NotificationChannel
  target : Text
deriving DecidableEq

structure TemplateRow where
  projectId : Text
  id : Text
  topics : List Text
  aiPrompts : List (Text × Text) := []

/-- The tables, with their unique constraints. -/
structure Snapshot where
  users : List UserRow := []
  userTopics : List UserTopicRow := []
  userChannels : List UserChannelRow := []
  quietHours : List QuietHoursRow := []
  contacts : List ContactRow := []
  contactTopics : List ContactTopicRow := []
  suppressions : List SuppressionRow := []
  templates : List TemplateRow := []
  usersUnique : ∀ one ∈ users, ∀ two ∈ users, one.projectId = two.projectId →
    one.externalId = two.externalId → one.id = two.id := by decide
  contactsUnique : ∀ one ∈ contacts, ∀ two ∈ contacts, one.userId = two.userId →
    one.channel = two.channel → one.target = two.target → one = two := by decide

/-- A user with the preferences that count for sends. -/
structure UserRecord where
  userId : Text
  timezone : Text
  channels : Preference NotificationChannel
  topics : Preference Text
  quietHours : List QuietHours

/-- An address of a user. -/
structure UserContact where
  id : Text
  channel : NotificationChannel
  target : Text
  topics : Preference Text
  active : Bool
deriving DecidableEq

/-- The topic an object of preferences does not hold: the name of its prototype. -/
def prototypeTopic : Text := "__proto__".toList

namespace Snapshot

variable (snapshot : Snapshot)

/-- The tables as objects of preferences hold them. -/
def readable : Snapshot :=
  { snapshot with
    userTopics := snapshot.userTopics.filter fun row => row.topic ≠ prototypeTopic
    contactTopics := snapshot.contactTopics.filter fun row => row.topic ≠ prototypeTopic }

/-- The record of a user's row. -/
def record (row : UserRow) : UserRecord where
  userId := row.externalId
  timezone := row.timezone
  channels := (snapshot.userChannels.filter fun other => other.userId = row.id).map fun other =>
    (other.channel, other.enabled)
  topics := (snapshot.userTopics.filter fun other => other.userId = row.id).map fun other =>
    (other.topic, other.enabled)
  quietHours := (snapshot.quietHours.filter fun other => other.userId = row.id).map
    QuietHoursRow.hours

/-- The contact of an address's row. -/
def contact (row : ContactRow) : UserContact where
  id := row.id
  channel := row.channel
  target := row.target
  topics := (snapshot.contactTopics.filter fun other => other.contactId = row.id).map fun other =>
    (other.topic, other.enabled)
  active := row.enabled

/-- `UserRepository.findRecordsByIds`. -/
def findRecordsByIds (projectId : Text) (userIds : List Text) : List UserRecord :=
  (snapshot.users.filter fun row => row.externalId ∈ userIds ∧ row.projectId = projectId).map
    snapshot.record

/-- The enabled addresses of a user, by the join of both tables. -/
def enabledContacts (projectId userId : Text) : List UserContact :=
  (snapshot.users.filter fun row => row.projectId = projectId ∧ row.externalId = userId).flatMap
    fun user => (snapshot.contacts.filter fun row => row.userId = user.id ∧ row.enabled = true).map
      snapshot.contact

/-- `ContactRepository.findActiveByUserIds`: nothing for a user who was not asked for. -/
def findActiveByUserIds (projectId : Text) (userIds : List Text) (userId : Text) :
    List UserContact :=
  if userId ∈ userIds then snapshot.enabledContacts projectId userId else []

/-- `TemplateRepository.findById`. -/
def findTemplate (projectId id : Text) : Option TemplateRow :=
  snapshot.templates.find? fun row => row.id = id ∧ row.projectId = projectId

/-- The record of a user who was asked for, among those of any others. -/
theorem find_findRecordsByIds {projectId userId : Text} {userIds : List Text}
    (asked : userId ∈ userIds) :
    ((snapshot.findRecordsByIds projectId userIds).reverse.find? fun record =>
        record.userId = userId) =
      ((snapshot.findRecordsByIds projectId [userId]).reverse.find? fun record =>
        record.userId = userId) := by
  have found : ∀ ids : List Text, userId ∈ ids →
      ((snapshot.findRecordsByIds projectId ids).reverse.find? fun record =>
        record.userId = userId) =
      ((snapshot.users.filter fun row => row.projectId = projectId).reverse.find? fun row =>
        row.externalId = userId).map snapshot.record := by
    intro ids member
    rw [findRecordsByIds, ← List.map_reverse, List.find?_map, ← List.filter_reverse,
      ← List.filter_reverse, List.find?_filter, List.find?_filter]
    congr 2
    funext row
    simp only [Function.comp_apply, record, decide_eq_true_eq, Bool.decide_and, Bool.and_eq_true]
    grind
  rw [found userIds asked, found [userId] (List.mem_singleton.mpr rfl)]

/-- A user has one contact for an address. -/
theorem enabledContacts_unique {projectId userId : Text} {one two : UserContact}
    (first : one ∈ snapshot.enabledContacts projectId userId)
    (second : two ∈ snapshot.enabledContacts projectId userId)
    (channel : one.channel = two.channel) (target : one.target = two.target) : one = two := by
  simp only [enabledContacts, List.mem_flatMap, List.mem_map, List.mem_filter,
    decide_eq_true_eq] at first second
  obtain ⟨user, ⟨userRow, project, external⟩, row, ⟨contactRow, owner, _⟩, rfl⟩ := first
  obtain ⟨user', ⟨userRow', project', external'⟩, row', ⟨contactRow', owner', _⟩, rfl⟩ := second
  have same : user.id = user'.id := snapshot.usersUnique _ userRow _ userRow'
    (project.trans project'.symm) (external.trans external'.symm)
  have rows : row = row' := snapshot.contactsUnique _ contactRow _ contactRow'
    (owner.trans (same.trans owner'.symm)) channel target
  rw [rows]

/-- Every enabled contact is active. -/
theorem enabledContacts_active {projectId userId : Text} {contact : UserContact}
    (member : contact ∈ snapshot.enabledContacts projectId userId) : contact.active = true := by
  simp only [enabledContacts, List.mem_flatMap, List.mem_map, List.mem_filter,
    decide_eq_true_eq] at member
  obtain ⟨_, _, row, ⟨_, _, enabled⟩, rfl⟩ := member
  exact enabled

/-- The tables by their primary keys; ids and addresses are not empty. -/
structure Identified : Prop where
  users : (snapshot.users.map UserRow.id).Nodup
  contacts : (snapshot.contacts.map ContactRow.id).Nodup
  named : ∀ row ∈ snapshot.contacts, row.id ≠ [] ∧ row.target ≠ []

variable {snapshot}

/-- The enabled addresses are rows of a user. -/
theorem mem_enabledContacts {projectId userId : Text} {contact : UserContact} :
    contact ∈ snapshot.enabledContacts projectId userId ↔
      ∃ user ∈ snapshot.users, (user.projectId = projectId ∧ user.externalId = userId) ∧
        ∃ row ∈ snapshot.contacts, (row.userId = user.id ∧ row.enabled = true) ∧
          snapshot.contact row = contact := by
  simp only [enabledContacts, List.mem_flatMap, List.mem_map, List.mem_filter, decide_eq_true_eq,
    and_assoc]

/-- An address has one id, over all users. -/
theorem Identified.contact_unique (identified : snapshot.Identified)
    {projectId userId userId' : Text} {one two : UserContact}
    (first : one ∈ snapshot.enabledContacts projectId userId)
    (second : two ∈ snapshot.enabledContacts projectId userId') (same : one.id = two.id) :
    userId = userId' ∧ one = two := by
  obtain ⟨user, isUser, ⟨_, named⟩, row, isRow, ⟨owner, _⟩, rfl⟩ :=
    mem_enabledContacts.mp first
  obtain ⟨user', isUser', ⟨_, named'⟩, row', isRow', ⟨owner', _⟩, rfl⟩ :=
    mem_enabledContacts.mp second
  have rows : row = row' := List.inj_on_of_nodup_map identified.contacts isRow isRow' same
  subst rows
  have users : user = user' :=
    List.inj_on_of_nodup_map identified.users isUser isUser' (owner.symm.trans owner')
  subst users
  exact ⟨named.symm.trans named', rfl⟩

/-- An enabled address has an id and a text. -/
theorem Identified.contact_named (identified : snapshot.Identified) {projectId userId : Text}
    {contact : UserContact} (member : contact ∈ snapshot.enabledContacts projectId userId) :
    contact.id ≠ [] ∧ contact.target ≠ [] := by
  obtain ⟨_, _, _, row, isRow, _, rfl⟩ := mem_enabledContacts.mp member
  exact identified.named row isRow

/-- The enabled addresses of a user have different ids. -/
theorem Identified.enabledContacts_nodup (identified : snapshot.Identified)
    (projectId userId : Text) :
    ((snapshot.enabledContacts projectId userId).map UserContact.id).Nodup := by
  rw [enabledContacts, List.map_flatMap, List.nodup_flatMap]
  constructor
  · intro user _
    rw [List.map_map]
    exact identified.contacts.sublist (List.filter_sublist.map _)
  · refine (List.Nodup.of_map _ identified.users).filter _ |>.imp_of_mem ?_
    intro user user' member member' differ
    obtain ⟨isUser, project, external⟩ := by simpa using List.mem_filter.mp member
    obtain ⟨isUser', project', external'⟩ := by simpa using List.mem_filter.mp member'
    have same : user.id = user'.id := snapshot.usersUnique _ isUser _ isUser'
      (project.trans project'.symm) (external.trans external'.symm)
    exact absurd (List.inj_on_of_nodup_map identified.users isUser isUser' same) differ

end Snapshot

end Notifkit.Pipeline
