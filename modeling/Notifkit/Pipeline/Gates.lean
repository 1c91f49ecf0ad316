import Notifkit.Pipeline.Snapshot

/-!
# Who is reached

The enricher resolves a request to one event for each address, with what the user prefers; the
engine drops an event by those preferences, resolves the address where the event has none, and
passes over what is suppressed. What is left of an event are the addresses its tasks go to.

Lower-casing is the language's; here it may be any function.
-/

namespace Notifkit.Pipeline

section Normalising

variable (toLowerCase : Text → Text)

/-- The address suppressions are looked up by. -/
def normaliseTarget (target : Text) : Text :=
  let trimmed := target.trim
  if '@' ∈ trimmed then toLowerCase trimmed else trimmed

end Normalising

/-- A request, with the users its target resolved to. -/
structure NotificationRequested where
  projectId : Text
  eventId : Text
  userIds : List Text
  templateId : Option Text := none
  priority : NotificationPriority := .normal
  channels : List NotificationChannel := []
  fallback : Bool := false
  aiPrompts : List (Text × Text) := []
  scheduledAt : Option Nat := none

/-- What an event carries of its recipient. -/
structure RecipientProfile where
  timezone : Text
  optedOut : Bool
  /-- the channels the user disabled -/
  channels : List NotificationChannel
  quietHours : List QuietHours
deriving DecidableEq

/-- An event for one recipient and channel, and mostly one address. -/
structure NotificationEnriched where
  projectId : Text
  rawEventId : Text
  recipientId : Text
  channel : NotificationChannel
  priority : NotificationPriority
  templateId : Option Text
  aiPrompts : List (Text × Text)
  recipient : RecipientProfile
  scheduledAt : Option Nat
  fallbackChain : List NotificationChannel
  contactId : Option Text
  destination : Option Text
  throttleCounted : Bool := false
deriving DecidableEq

/-- One of the topics is switched off. -/
def optedOutOf (topics : List Text) (preference : Preference Text) : Bool :=
  topics.any fun topic => preference.get topic = some false

namespace Enricher

/-- The user's addresses on a channel, less those opted out of one of the topics. -/
def usable (contacts : List UserContact) (topics : List Text) (channel : NotificationChannel) :
    List UserContact :=
  contacts.filter fun contact => contact.channel = channel ∧ ¬ optedOutOf topics contact.topics

/-- What an event says of its recipient. -/
def profileOf (profile : UserRecord) (topics : List Text) : RecipientProfile where
  timezone := profile.timezone
  optedOut := optedOutOf topics profile.topics
  channels := (profile.channels.map Prod.fst).filter fun channel =>
    profile.channels.get channel = some false
  quietHours := profile.quietHours

/-- The requested channels; email where there are none. -/
def channelsOf (raw : NotificationRequested) : List NotificationChannel :=
  if raw.channels = [] then [.email] else raw.channels

/-- The channels of a user that events are made for, and the chain behind them. With fallback it is
the first channel that has a usable address; absent where there is none. -/
def userChannels (raw : NotificationRequested) (contacts : List UserContact) (topics : List Text) :
    Option (List NotificationChannel × List NotificationChannel) :=
  if raw.fallback then
    match (channelsOf raw).dropWhile fun channel => usable contacts topics channel = [] with
    | [] => none
    | first :: rest => some ([first], rest)
  else some (channelsOf raw, [])

/-- The event of one channel and, except for push, one of its addresses. -/
def enriched (raw : NotificationRequested) (profile : UserRecord) (topics : List Text)
    (fallbackChain : List NotificationChannel) (channel : NotificationChannel)
    (contact : Option UserContact) : NotificationEnriched where
  projectId := raw.projectId
  rawEventId := raw.eventId
  recipientId := profile.userId
  channel := channel
  priority := raw.priority
  templateId := raw.templateId
  aiPrompts := raw.aiPrompts
  recipient := profileOf profile topics
  scheduledAt := raw.scheduledAt
  fallbackChain := fallbackChain
  contactId := contact.map UserContact.id
  destination := contact.map UserContact.target

/-- The events of one channel. Push resolves its addresses at send time. -/
def channelEvents (raw : NotificationRequested) (profile : UserRecord) (contacts : List UserContact)
    (topics : List Text) (fallbackChain : List NotificationChannel)
    (channel : NotificationChannel) : List NotificationEnriched :=
  if channel = .push then [enriched raw profile topics fallbackChain channel none]
  else (usable contacts topics channel).map fun contact =>
    enriched raw profile topics fallbackChain channel (some contact)

/-- The events of one user. -/
def userEvents (raw : NotificationRequested) (topics : List Text) (profile : UserRecord)
    (contacts : List UserContact) : List NotificationEnriched :=
  match userChannels raw contacts topics with
  | none => []
  | some (channels, fallbackChain) =>
    channels.flatMap (channelEvents raw profile contacts topics fallbackChain)

/-- The topics of a template; none where it is missing. -/
def topicsOf (snapshot : Snapshot) (projectId : Text) (templateId : Option Text) : List Text :=
  (((truthy templateId).bind (snapshot.findTemplate projectId)).map TemplateRow.topics).getD []

/-- `process`: the events of all users a request resolved to. Users that are not there are passed
over. -/
def fanOut (snapshot : Snapshot) (raw : NotificationRequested) : List NotificationEnriched :=
  let topics := topicsOf snapshot raw.projectId raw.templateId
  let profiles := raw.userIds.filterMap fun userId =>
    (snapshot.findRecordsByIds raw.projectId raw.userIds).reverse.find? fun record =>
      record.userId = userId
  profiles.flatMap fun profile =>
    userEvents raw topics profile
      (snapshot.findActiveByUserIds raw.projectId (profiles.map UserRecord.userId) profile.userId)

end Enricher

namespace Engine

/-- Why the engine drops an event as a whole. -/
inductive SkipReason where
  | userOptedOut | channelDisabled | templateNotFound | noActiveContacts
deriving DecidableEq

/-- The preference gate. -/
def preferenceGate (enriched : NotificationEnriched) : Option SkipReason :=
  if enriched.recipient.optedOut then some .userOptedOut
  else if enriched.channel ∈ enriched.recipient.channels then some .channelDisabled
  else none

/-- The template gate: the template, if the event names one. -/
def templateGate (snapshot : Snapshot) (enriched : NotificationEnriched) :
    Except SkipReason (Option TemplateRow) :=
  match truthy enriched.templateId with
  | none => .ok none
  | some templateId =>
    match snapshot.findTemplate enriched.projectId templateId with
    | some template => .ok (some template)
    | none => .error .templateNotFound

/-- The addresses of an event: its own where the enricher resolved one, else the user's. -/
def activeContacts (snapshot : Snapshot) (enriched : NotificationEnriched) : List UserContact :=
  let allContacts :=
    match truthy enriched.contactId, truthy enriched.destination with
    | some id, some target => ([⟨id, enriched.channel, target, [], true⟩] : List UserContact)
    | _, _ => snapshot.findActiveByUserIds enriched.projectId [enriched.recipientId]
        enriched.recipientId
  allContacts.filter fun contact => contact.channel = enriched.channel ∧ contact.active = true

/-- The suppressed addresses of a project and channel, normalised. -/
def suppressedTargets (toLowerCase : Text → Text) (snapshot : Snapshot) (projectId : Text)
    (channel : NotificationChannel) : List Text :=
  (snapshot.suppressions.filter fun row => row.projectId = projectId ∧ row.channel = channel).map
    fun row => normaliseTarget toLowerCase row.target

/-- An address is passed over where it opted out of a topic, and where it is suppressed. -/
def sendable (toLowerCase : Text → Text) (snapshot : Snapshot) (enriched : NotificationEnriched)
    (topics : List Text) (contact : UserContact) : Bool :=
  !optedOutOf topics contact.topics &&
    !(contact.target ≠ [] && normaliseTarget toLowerCase contact.target ∈
      suppressedTargets toLowerCase snapshot enriched.projectId enriched.channel)

/-- The addresses an event's tasks go to, or why it is dropped. -/
def targets (toLowerCase : Text → Text) (snapshot : Snapshot) (enriched : NotificationEnriched) :
    Except SkipReason (List UserContact) :=
  match preferenceGate enriched with
  | some reason => .error reason
  | none => do
    let dbTemplate ← templateGate snapshot enriched
    let templateTopics := (dbTemplate.map TemplateRow.topics).getD []
    let contacts := activeContacts snapshot enriched
    if contacts = [] then .error .noActiveContacts
    else .ok (contacts.filter (sendable toLowerCase snapshot enriched templateTopics))

end Engine

/-- A value is among the assigned ones. -/
theorem Preference.mem_of_get {κ : Type} [DecidableEq κ] {record : Preference κ} {key : κ}
    {value : Bool} (found : record.get key = some value) : key ∈ record.map Prod.fst := by
  obtain ⟨entry, first, _⟩ := Option.map_eq_some_iff.mp found
  have member : entry ∈ record := List.mem_reverse.mp (List.mem_of_find?_eq_some first)
  have keyed : entry.1 = key := by simpa using List.find?_some first
  exact List.mem_map.mpr ⟨entry, member, keyed⟩

theorem mem_truthy {text : Option Text} {value : Text} :
    truthy text = some value ↔ text = some value ∧ value ≠ [] := by
  simp [truthy, Option.filter_eq_some_iff]

/-- A request makes a task for an address: an event of the enricher passes the gates of the engine,
both reading the same rows. -/
def MakesTask (toLowerCase : Text → Text) (snapshot : Snapshot) (raw : NotificationRequested)
    (userId : Text) (channel : NotificationChannel) (destination : Text) : Prop :=
  ∃ enriched ∈ Enricher.fanOut snapshot raw, enriched.recipientId = userId ∧
    enriched.channel = channel ∧
    ∃ contacts, Engine.targets toLowerCase snapshot enriched = .ok contacts ∧
      ∃ contact ∈ contacts, contact.target = destination

/-- A recipient accepts sends at an address: is there and opted out of neither a topic nor the
channel, has the address among the enabled ones, and opted out of no topic at it. -/
structure Accepts (snapshot : Snapshot) (projectId userId : Text) (channel : NotificationChannel)
    (topics : List Text) (destination : Text) : Prop where
  recipient : ∃ record, (snapshot.findRecordsByIds projectId [userId]).reverse.find?
      (fun record => record.userId = userId) = some record ∧
    optedOutOf topics record.topics = false ∧ record.channels.get channel ≠ some false
  address : ∃ contact ∈ snapshot.enabledContacts projectId userId, contact.channel = channel ∧
    contact.target = destination ∧ optedOutOf topics contact.topics = false

/-- A stored suppression is for the address, however both are spelt. -/
def Suppressed (toLowerCase : Text → Text) (snapshot : Snapshot) (projectId : Text)
    (channel : NotificationChannel) (destination : Text) : Prop :=
  ∃ row ∈ snapshot.suppressions, row.projectId = projectId ∧ row.channel = channel ∧
    normaliseTarget toLowerCase row.target = normaliseTarget toLowerCase destination

section Agreement

variable {toLowerCase : Text → Text} {snapshot : Snapshot} {raw : NotificationRequested}
  {profile : UserRecord} {topics : List Text} {chain : List NotificationChannel}
  {channel : NotificationChannel} {resolved : Option UserContact}

/-- The preference gate reads back what the enricher wrote of the user. -/
theorem preferenceGate_enriched (raw : NotificationRequested) (chain : List NotificationChannel)
    (resolved : Option UserContact) :
    Engine.preferenceGate (Enricher.enriched raw profile topics chain channel resolved) = none ↔
      optedOutOf topics profile.topics = false ∧ profile.channels.get channel ≠ some false := by
  have disabled : channel ∈ (Enricher.profileOf profile topics).channels ↔
      profile.channels.get channel = some false := by
    simp only [Enricher.profileOf, List.mem_filter, decide_eq_true_eq, and_iff_right_iff_imp]
    exact Preference.mem_of_get
  simp only [Engine.preferenceGate, Enricher.enriched, disabled]
  cases optedOut : optedOutOf topics profile.topics <;>
    simp [Enricher.profileOf, optedOut]

/-- The template gate lets an event pass whose template is there, with the topics the enricher
read. -/
theorem templateGate_enriched (profile : UserRecord) (topics : List Text)
    (chain : List NotificationChannel) (channel : NotificationChannel)
    (resolved : Option UserContact)
    (present : ∀ id, truthy raw.templateId = some id → snapshot.findTemplate raw.projectId id ≠ none) :
    ∃ template, Engine.templateGate snapshot
        (Enricher.enriched raw profile topics chain channel resolved) = .ok template ∧
      (template.map TemplateRow.topics).getD [] =
        Enricher.topicsOf snapshot raw.projectId raw.templateId := by
  simp only [Engine.templateGate, Enricher.enriched, Enricher.topicsOf]
  cases named : truthy raw.templateId with
  | none => exact ⟨none, rfl, rfl⟩
  | some id =>
    obtain ⟨template, found⟩ := Option.ne_none_iff_exists'.mp (present id named)
    exact ⟨some template, by simp only [found], by simp only [Option.bind_some, found]⟩

/-- The suppression set answers for the rows. -/
theorem mem_suppressedTargets {projectId target : Text} :
    target ∈ Engine.suppressedTargets toLowerCase snapshot projectId channel ↔
      ∃ row ∈ snapshot.suppressions, row.projectId = projectId ∧ row.channel = channel ∧
        normaliseTarget toLowerCase row.target = target := by
  simp only [Engine.suppressedTargets, List.mem_map, List.mem_filter, decide_eq_true_eq, and_assoc]

/-- The record a user's id finds is that user's. -/
theorem record_found {ids : List Text} {userId : Text}
    (found : (snapshot.findRecordsByIds raw.projectId ids).reverse.find?
      (fun record => record.userId = userId) = some profile) : profile.userId = userId := by
  simpa using List.find?_some found

/-- The events of a request are those of each user that is there. -/
theorem mem_fanOut_users {event : NotificationEnriched} :
    event ∈ Enricher.fanOut snapshot raw ↔ ∃ userId ∈ raw.userIds, ∃ profile,
      (snapshot.findRecordsByIds raw.projectId [userId]).reverse.find?
        (fun record => record.userId = userId) = some profile ∧
      event ∈ Enricher.userEvents raw (Enricher.topicsOf snapshot raw.projectId raw.templateId)
        profile (snapshot.enabledContacts raw.projectId userId) := by
  simp only [Enricher.fanOut, List.mem_flatMap]
  constructor
  · rintro ⟨profile, known, member⟩
    obtain ⟨userId, asked, found⟩ := List.mem_filterMap.mp known
    have named : profile.userId = userId := record_found found
    rw [Snapshot.findActiveByUserIds, if_pos (List.mem_map.mpr ⟨profile, known, rfl⟩),
      named] at member
    exact ⟨userId, asked, profile, snapshot.find_findRecordsByIds asked ▸ found, member⟩
  · rintro ⟨userId, asked, profile, found, member⟩
    have known : profile ∈ raw.userIds.filterMap fun userId =>
        (snapshot.findRecordsByIds raw.projectId raw.userIds).reverse.find?
          fun record => record.userId = userId :=
      List.mem_filterMap.mpr ⟨userId, asked, snapshot.find_findRecordsByIds asked ▸ found⟩
    have named : profile.userId = userId := record_found found
    refine ⟨profile, known, ?_⟩
    rw [Snapshot.findActiveByUserIds, if_pos (List.mem_map.mpr ⟨profile, known, rfl⟩), named]
    exact member

/-- The events of a user: those of the channels chosen for it. -/
theorem mem_userEvents {event : NotificationEnriched} {contacts : List UserContact} :
    event ∈ Enricher.userEvents raw topics profile contacts ↔
      ∃ channels chain, Enricher.userChannels raw contacts topics = some (channels, chain) ∧
        ∃ channel ∈ channels,
          event ∈ Enricher.channelEvents raw profile contacts topics chain channel := by
  rw [Enricher.userEvents]
  cases Enricher.userChannels raw contacts topics with
  | none => simp
  | some chosen =>
    obtain ⟨channels, chain⟩ := chosen
    simp [List.mem_flatMap]

/-- The events of a request without fallback: for each user that is there, those of each channel. -/
theorem mem_fanOut {event : NotificationEnriched} (noFallback : raw.fallback = false) :
    event ∈ Enricher.fanOut snapshot raw ↔ ∃ userId ∈ raw.userIds, ∃ profile,
      (snapshot.findRecordsByIds raw.projectId [userId]).reverse.find?
        (fun record => record.userId = userId) = some profile ∧
      ∃ channel ∈ Enricher.channelsOf raw, event ∈ Enricher.channelEvents raw profile
        (snapshot.enabledContacts raw.projectId userId)
        (Enricher.topicsOf snapshot raw.projectId raw.templateId) [] channel := by
  simp [mem_fanOut_users, mem_userEvents, Enricher.userChannels, noFallback]

/-- The addresses of an event are enabled ones of its user; where the address's topics are not
carried along, the enricher looked at them. -/
theorem of_mem_activeContacts {contact : UserContact}
    (usable : ∀ source, resolved = some source →
      source ∈ Enricher.usable (snapshot.enabledContacts raw.projectId profile.userId) topics channel)
    (member : contact ∈ Engine.activeContacts snapshot
      (Enricher.enriched raw profile topics chain channel resolved)) :
    ∃ source ∈ snapshot.enabledContacts raw.projectId profile.userId, source.channel = channel ∧
      source.target = contact.target ∧
      (optedOutOf topics contact.topics = false → optedOutOf topics source.topics = false) := by
  simp only [Engine.activeContacts, List.mem_filter, decide_eq_true_eq] at member
  simp only [Enricher.enriched] at member
  obtain ⟨listed, onChannel, _⟩ := member
  split at listed
  next id target hasId hasTarget =>
    obtain ⟨source, isSource, isTarget⟩ := Option.map_eq_some_iff.mp (mem_truthy.mp hasTarget).1
    obtain ⟨enabled, sameChannel⟩ := List.mem_filter.mp (usable source isSource)
    simp only [decide_eq_true_eq, Bool.not_eq_true] at sameChannel
    rw [List.mem_singleton.mp listed]
    exact ⟨source, enabled, sameChannel.1, isTarget, fun _ => sameChannel.2⟩
  next =>
    rw [Snapshot.findActiveByUserIds, if_pos (List.mem_singleton.mpr rfl)] at listed
    exact ⟨contact, listed, onChannel, rfl, id⟩

/-- An enabled address is among the addresses of its own event, and of one that names none. -/
theorem mem_activeContacts {source : UserContact}
    (enabled : source ∈ snapshot.enabledContacts raw.projectId profile.userId)
    (onChannel : source.channel = channel)
    (optedIn : optedOutOf topics source.topics = false)
    (own : resolved = none ∨ resolved = some source) :
    ∃ contact ∈ Engine.activeContacts snapshot
      (Enricher.enriched raw profile topics chain channel resolved), contact.target = source.target ∧
      optedOutOf topics contact.topics = false := by
  have active : source.active = true := snapshot.enabledContacts_active enabled
  simp only [Engine.activeContacts, List.mem_filter, decide_eq_true_eq]
  simp only [Enricher.enriched]
  split
  next id target hasId hasTarget =>
    rcases own with rfl | rfl
    · exact absurd (mem_truthy.mp hasTarget).1 nofun
    · have same : source.target = target := Option.some.inj (mem_truthy.mp hasTarget).1
      refine ⟨_, ⟨List.mem_singleton.mpr rfl, rfl, rfl⟩, same.symm, ?_⟩
      simp [optedOutOf, Preference.get]
  next =>
    rw [Snapshot.findActiveByUserIds, if_pos (List.mem_singleton.mpr rfl)]
    exact ⟨source, ⟨enabled, onChannel, active⟩, rfl, optedIn⟩

/-- Each event of a channel is for an address that is usable, or names none. -/
theorem of_mem_channelEvents {event : NotificationEnriched} {contacts : List UserContact}
    (member : event ∈ Enricher.channelEvents raw profile contacts topics chain channel) :
    ∃ resolved : Option UserContact,
      (∀ source, resolved = some source → source ∈ Enricher.usable contacts topics channel) ∧
      event = Enricher.enriched raw profile topics chain channel resolved := by
  unfold Enricher.channelEvents at member
  split at member
  · exact ⟨none, nofun, List.mem_singleton.mp member⟩
  · obtain ⟨contact, usable, made⟩ := List.mem_map.mp member
    refine ⟨some contact, ?_, made.symm⟩
    rintro source ⟨⟩
    exact usable

/-- An address that is usable has an event on its channel. -/
theorem own_channelEvents (raw : NotificationRequested) (profile : UserRecord)
    (chain : List NotificationChannel) {contacts : List UserContact} {source : UserContact}
    (listed : source ∈ contacts) (onChannel : source.channel = channel)
    (optedIn : optedOutOf topics source.topics = false) :
    ∃ resolved, (resolved = none ∨ resolved = some source) ∧
      Enricher.enriched raw profile topics chain channel resolved ∈
        Enricher.channelEvents raw profile contacts topics chain channel := by
  unfold Enricher.channelEvents
  split
  · exact ⟨none, .inl rfl, List.mem_singleton.mpr rfl⟩
  · refine ⟨some source, .inr rfl, List.mem_map.mpr ⟨source, List.mem_filter.mpr ⟨listed, ?_⟩, rfl⟩⟩
    simp [onChannel, optedIn]

/-- An address of an event is sent to unless it opted out or is suppressed. -/
theorem sendable_iff {event : NotificationEnriched} {contact : UserContact} :
    Engine.sendable toLowerCase snapshot event topics contact = true ↔
      optedOutOf topics contact.topics = false ∧
      (contact.target ≠ [] → normaliseTarget toLowerCase contact.target ∉
        Engine.suppressedTargets toLowerCase snapshot event.projectId event.channel) := by
  simp only [Engine.sendable, Bool.and_eq_true, Bool.not_eq_true']
  grind

/-- The addresses an event is sent to. -/
theorem mem_targets {contact : UserContact}
    (present : ∀ id, truthy raw.templateId = some id →
      snapshot.findTemplate raw.projectId id ≠ none) :
    (∃ contacts, Engine.targets toLowerCase snapshot
        (Enricher.enriched raw profile topics chain channel resolved) = .ok contacts ∧
          contact ∈ contacts) ↔
      (optedOutOf topics profile.topics = false ∧ profile.channels.get channel ≠ some false) ∧
      contact ∈ Engine.activeContacts snapshot
        (Enricher.enriched raw profile topics chain channel resolved) ∧
      optedOutOf (Enricher.topicsOf snapshot raw.projectId raw.templateId) contact.topics = false ∧
      (contact.target ≠ [] → normaliseTarget toLowerCase contact.target ∉
        Engine.suppressedTargets toLowerCase snapshot raw.projectId channel) := by
  rw [← preferenceGate_enriched raw chain resolved]
  obtain ⟨template, passed, sameTopics⟩ :=
    templateGate_enriched profile topics chain channel resolved present
  simp only [Engine.targets, passed]
  cases gate : Engine.preferenceGate
      (Enricher.enriched raw profile topics chain channel resolved) with
  | some reason => simp
  | none =>
    simp only [true_and, Except.bind, bind]
    split
    next empty => simp [empty]
    next =>
      simp only [Except.ok.injEq, exists_eq_left', List.mem_filter, sendable_iff, sameTopics]
      exact Iff.rfl

end Agreement

section Agreement

variable {toLowerCase : Text → Text} {snapshot : Snapshot} {raw : NotificationRequested}
  {channel : NotificationChannel} {userId destination : Text}

/-- A request makes a task for an address exactly where its recipient accepts it and nothing
suppresses it. -/
theorem makesTask_iff (noFallback : raw.fallback = false) (asked : userId ∈ raw.userIds)
    (wanted : channel ∈ Enricher.channelsOf raw) (text : destination ≠ [])
    (present : ∀ id, truthy raw.templateId = some id →
      snapshot.findTemplate raw.projectId id ≠ none) :
    MakesTask toLowerCase snapshot raw userId channel destination ↔
      Accepts snapshot raw.projectId userId channel
        (Enricher.topicsOf snapshot raw.projectId raw.templateId) destination ∧
      ¬ Suppressed toLowerCase snapshot raw.projectId channel destination := by
  constructor
  · rintro ⟨event, member, rfl, rfl, contacts, passed, contact, sent, rfl⟩
    obtain ⟨userId, _, profile, found, channel, _, made⟩ := (mem_fanOut noFallback).mp member
    obtain ⟨resolved, usable, rfl⟩ := of_mem_channelEvents made
    have named : profile.userId = userId := record_found found
    obtain ⟨willing, listed, sendable⟩ := (mem_targets present).mp ⟨contacts, passed, sent⟩
    subst named
    obtain ⟨source, enabled, onChannel, sameTarget, optedIn⟩ := of_mem_activeContacts usable listed
    exact ⟨⟨⟨profile, found, willing⟩, source, enabled, onChannel, sameTarget, optedIn sendable.1⟩,
      fun stored => sendable.2 text (mem_suppressedTargets.mpr stored)⟩
  · rintro ⟨⟨⟨profile, found, willing⟩, source, enabled, onChannel, rfl, optedIn⟩, unsuppressed⟩
    have named : profile.userId = userId := record_found found
    subst named
    obtain ⟨resolved, own, made⟩ := own_channelEvents raw profile [] enabled onChannel optedIn
    obtain ⟨contact, listed, sameTarget, topicsIn⟩ :=
      mem_activeContacts enabled onChannel optedIn own
    have clear : normaliseTarget toLowerCase contact.target ∉
        Engine.suppressedTargets toLowerCase snapshot raw.projectId channel := by
      rw [mem_suppressedTargets, sameTarget]
      exact unsuppressed
    obtain ⟨contacts, passed, sent⟩ :=
      (mem_targets present).mpr ⟨willing, listed, topicsIn, fun _ => clear⟩
    exact ⟨_, (mem_fanOut noFallback).mpr ⟨_, asked, profile, found, channel, wanted, made⟩, rfl,
      rfl, contacts, passed, contact, sent, sameTarget⟩

end Agreement

end Notifkit.Pipeline
