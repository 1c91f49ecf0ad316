import Notifkit.Pipeline.RunEnds

/-!
# Where a request with fallback has come to

With fallback an event is for one of the requested channels, and carries those behind it. Its place
is that of its channel in the request. The enricher's events are all at the first channel with a
usable address; a task that is given up leaves one at the next place.

Whom the recipient can be reached at on a channel is read from the rows alone. The engine sends an
event to these addresses, or to one of them where the enricher chose it.
-/

namespace Notifkit.Pipeline.TaskRuns

open Runs Cascades ParkingTimes

/-- The place of an event's channel among the requested ones. -/
def Event.place (raw : NotificationRequested) (event : Event) : Nat :=
  (Enricher.channelsOf raw).length - 1 - event.enriched.fallbackChain.length

/-- The record of a recipient. -/
def recordOf (snapshot : Snapshot) (raw : NotificationRequested) (userId : Text) :
    Option UserRecord :=
  (snapshot.findRecordsByIds raw.projectId [userId]).reverse.find? fun record =>
    record.userId = userId

instance (toLowerCase : Text → Text) (snapshot : Snapshot) (projectId : Text)
    (channel : NotificationChannel) (destination : Text) :
    Decidable (Suppressed toLowerCase snapshot projectId channel destination) :=
  inferInstanceAs (Decidable (∃ row ∈ snapshot.suppressions, row.projectId = projectId ∧
    row.channel = channel ∧
    normaliseTarget toLowerCase row.target = normaliseTarget toLowerCase destination))

/-- The addresses a recipient can be reached at on the channel at a place: the enabled ones that did
not opt out and are not suppressed, unless the recipient opted out or disabled the channel. -/
def addressesAt (toLowerCase : Text → Text) (snapshot : Snapshot) (raw : NotificationRequested)
    (userId : Text) (place : Nat) : List UserContact :=
  match (Enricher.channelsOf raw)[place]?, recordOf snapshot raw userId with
  | some channel, some record =>
    if optedOutOf (topicsFor snapshot raw) record.topics = true ∨
        record.channels.get channel = some false then []
    else (snapshot.enabledContacts raw.projectId userId).filter fun contact =>
      contact.channel = channel ∧ optedOutOf (topicsFor snapshot raw) contact.topics = false ∧
        ¬ Suppressed toLowerCase snapshot raw.projectId channel contact.target
  | _, _ => []

/-- A recipient can be reached on the channel at a place. -/
def Reachable (toLowerCase : Text → Text) (snapshot : Snapshot) (raw : NotificationRequested)
    (userId : Text) (place : Nat) : Prop :=
  addressesAt toLowerCase snapshot raw userId place ≠ []

instance (toLowerCase : Text → Text) (snapshot : Snapshot) (raw : NotificationRequested)
    (userId : Text) (place : Nat) :
    Decidable (Reachable toLowerCase snapshot raw userId place) :=
  inferInstanceAs (Decidable (addressesAt toLowerCase snapshot raw userId place ≠ []))

/-- The enricher finds an address on the channel at a place. -/
def UsableAt (snapshot : Snapshot) (raw : NotificationRequested) (userId : Text) (place : Nat) :
    Prop :=
  ∃ channel, (Enricher.channelsOf raw)[place]? = some channel ∧
    Enricher.usable (snapshot.enabledContacts raw.projectId userId) (topicsFor snapshot raw)
      channel ≠ []

/-- The place the enricher begins at. -/
structure FirstUsable (snapshot : Snapshot) (raw : NotificationRequested) (userId : Text)
    (place : Nat) : Prop where
  usable : UsableAt snapshot raw userId place
  least : ∀ earlier, earlier < place → ¬ UsableAt snapshot raw userId earlier

/-- The template the request names is there. -/
def HasTemplate (snapshot : Snapshot) (raw : NotificationRequested) : Prop :=
  ∀ id, truthy raw.templateId = some id → snapshot.findTemplate raw.projectId id ≠ none

/-- An event of a recipient at one of the requested channels, and the address the enricher chose for
it if any. What changes from one channel to the next is when the send is due, and that it was
counted. -/
structure Descends (snapshot : Snapshot) (raw : NotificationRequested) (profile : UserRecord)
    (resolved : Option UserContact) (event : Event) : Prop where
  asked : profile.userId ∈ raw.userIds
  found : recordOf snapshot raw profile.userId = some profile
  enriched : ∃ scheduledAt throttleCounted, event.enriched =
    { Enricher.enriched raw profile (topicsFor snapshot raw) event.enriched.fallbackChain
        event.enriched.channel resolved with
      scheduledAt := scheduledAt, throttleCounted := throttleCounted }
  listed : ∃ before, Enricher.channelsOf raw =
    before ++ event.enriched.channel :: event.enriched.fallbackChain
  usable : ∀ contact, resolved = some contact → contact ∈ Enricher.usable
    (snapshot.enabledContacts raw.projectId profile.userId) (topicsFor snapshot raw)
    event.enriched.channel

section Places

variable {toLowerCase : Text → Text} {zoneOf : Text → Zone} {snapshot : Snapshot}
  {surroundings : Surroundings} {raw : NotificationRequested} {userId : Text} {place : Nat}

/-- An address of a place, read off the rows. -/
theorem mem_addressesAt {contact : UserContact} :
    contact ∈ addressesAt toLowerCase snapshot raw userId place ↔
      (∃ record, recordOf snapshot raw userId = some record ∧
        optedOutOf (topicsFor snapshot raw) record.topics = false ∧
        record.channels.get contact.channel ≠ some false) ∧
      (Enricher.channelsOf raw)[place]? = some contact.channel ∧
      contact ∈ snapshot.enabledContacts raw.projectId userId ∧
      optedOutOf (topicsFor snapshot raw) contact.topics = false ∧
      ¬ Suppressed toLowerCase snapshot raw.projectId contact.channel contact.target := by
  unfold addressesAt
  split
  next channel record here isRecord =>
    rw [here, isRecord]
    constructor
    · intro member
      split at member
      · cases member
      next willing =>
        simp only [List.mem_filter, decide_eq_true_eq] at member
        obtain ⟨listed, rfl, optedIn, clear⟩ := member
        rw [not_or, Bool.not_eq_true] at willing
        exact ⟨⟨record, rfl, willing⟩, rfl, listed, optedIn, clear⟩
    · rintro ⟨⟨_, ⟨⟩, willing⟩, same, listed, optedIn, clear⟩
      obtain rfl := Option.some.inj same
      rw [if_neg (by simp [willing])]
      simp [listed, optedIn, clear]
  next none =>
    simp only [List.not_mem_nil, false_iff]
    rintro ⟨⟨record, isRecord, _⟩, here, _⟩
    exact none _ _ here isRecord

/-- A place where the recipient can be reached has an address the enricher finds. -/
theorem Reachable.usableAt (reachable : Reachable toLowerCase snapshot raw userId place) :
    UsableAt snapshot raw userId place := by
  obtain ⟨contact, rest, addresses⟩ := List.exists_cons_of_ne_nil reachable
  have member : contact ∈ addressesAt toLowerCase snapshot raw userId place := by
    rw [addresses]
    exact List.mem_cons_self
  obtain ⟨_, here, listed, optedIn, _⟩ := mem_addressesAt.mp member
  refine ⟨contact.channel, here, List.ne_nil_of_mem (a := contact) (List.mem_filter.mpr ⟨listed, ?_⟩)⟩
  simp [optedIn]

/-- A place where the recipient can be reached is one of the request. -/
theorem Reachable.lt_length (reachable : Reachable toLowerCase snapshot raw userId place) :
    place < (Enricher.channelsOf raw).length := by
  obtain ⟨channel, here, _⟩ := reachable.usableAt
  exact (List.getElem?_eq_some_iff.mp here).1

/-- The enricher begins at one place. -/
theorem FirstUsable.unique {other : Nat} (first : FirstUsable snapshot raw userId place)
    (first' : FirstUsable snapshot raw userId other) : place = other := by
  rcases Nat.lt_trichotomy place other with before | same | behind
  · exact absurd first.usable (first'.least place before)
  · exact same
  · exact absurd first'.usable (first.least other behind)

/-- The enricher does not begin after a place where the recipient can be reached. -/
theorem FirstUsable.le {first : Nat} (isFirst : FirstUsable snapshot raw userId first)
    (reachable : Reachable toLowerCase snapshot raw userId place) : first ≤ place :=
  Nat.le_of_not_lt fun before => isFirst.least place before reachable.usableAt

/-- With fallback the enricher chooses the first channel with a usable address. -/
theorem userChannels_fallback (fallback : raw.fallback = true) {contacts : List UserContact}
    {topics : List Text} {channels chain : List NotificationChannel} :
    Enricher.userChannels raw contacts topics = some (channels, chain) ↔
      ∃ channel before, channels = [channel] ∧
        Enricher.channelsOf raw = before ++ channel :: chain ∧
        Enricher.usable contacts topics channel ≠ [] ∧
        ∀ earlier ∈ before, Enricher.usable contacts topics earlier = [] := by
  simp only [Enricher.userChannels, fallback, if_true]
  constructor
  · intro chosen
    split at chosen
    · cases chosen
    next first rest dropped =>
      obtain ⟨rfl, rfl⟩ := Prod.mk.inj (Option.some.inj chosen)
      have whole := List.takeWhile_append_dropWhile
        (p := fun channel => decide (Enricher.usable contacts topics channel = []))
        (l := Enricher.channelsOf raw)
      rw [dropped] at whole
      have left : (Enricher.channelsOf raw).dropWhile
          (fun channel => decide (Enricher.usable contacts topics channel = [])) ≠ [] := by
        rw [dropped]
        exact List.cons_ne_nil _ _
      have stopped := List.head_dropWhile_not _ left
      simp only [dropped, List.head_cons, decide_eq_false_iff_not] at stopped
      refine ⟨first, _, rfl, whole.symm, stopped, fun earlier member => ?_⟩
      simpa using List.mem_takeWhile_imp member
  · rintro ⟨channel, before, rfl, whole, usable, none⟩
    rw [whole, List.dropWhile_append_of_pos (by simpa using none),
      List.dropWhile_cons_of_neg (by simpa using usable)]

/-- What is behind an event tells its place. -/
theorem place_of_listed {event : Event} {before : List NotificationChannel}
    (whole : Enricher.channelsOf raw =
      before ++ event.enriched.channel :: event.enriched.fallbackChain) :
    event.place raw = before.length := by
  rw [Event.place, whole, List.length_append, List.length_cons]
  omega

section Descending

variable {profile : UserRecord} {resolved : Option UserContact} {event next : Event}

/-- The channel at an event's place is its own. -/
theorem Descends.channelAt (descends : Descends snapshot raw profile resolved event) :
    (Enricher.channelsOf raw)[event.place raw]? = some event.enriched.channel := by
  obtain ⟨before, whole⟩ := descends.listed
  rw [place_of_listed whole, whole, List.getElem?_append_right (Nat.le_refl _), Nat.sub_self]
  rfl

/-- The recipient of an event. -/
theorem Descends.recipientId (descends : Descends snapshot raw profile resolved event) :
    event.enriched.recipientId = profile.userId := by
  obtain ⟨_, _, enriched⟩ := descends.enriched
  rw [enriched]
  rfl

/-- A fallback is at the next place, with no address chosen. -/
theorem Descends.fallback (descends : Descends snapshot raw profile resolved event)
    (left : event.fallback = some next) :
    Descends snapshot raw profile none next ∧ next.place raw = event.place raw + 1 := by
  obtain ⟨before, whole⟩ := descends.listed
  obtain ⟨scheduledAt, throttleCounted, enriched⟩ := descends.enriched
  have chain := (fallback_eq_some left).2.2.1
  have listed : Enricher.channelsOf raw = (before ++ [event.enriched.channel]) ++
      next.enriched.channel :: next.enriched.fallbackChain := by
    rw [whole, chain, List.append_assoc]
    rfl
  refine ⟨⟨descends.asked, descends.found, ?_, ⟨_, listed⟩, nofun⟩, ?_⟩
  · unfold Event.fallback at left
    split at left
    · cases left
    next nextChannel remainingChain behind =>
      obtain rfl := Option.some.inj left
      refine ⟨none, true, ?_⟩
      dsimp only
      rw [enriched]
      rfl
  · rw [place_of_listed listed, place_of_listed whole, List.length_append]
    rfl

/-- There is a fallback as long as there is a place behind. -/
theorem Descends.exists_fallback (descends : Descends snapshot raw profile resolved event)
    (behind : event.place raw + 1 < (Enricher.channelsOf raw).length) :
    ∃ next, event.fallback = some next := by
  obtain ⟨before, whole⟩ := descends.listed
  rw [place_of_listed whole, whole, List.length_append, List.length_cons] at behind
  unfold Event.fallback
  split
  next last =>
    rw [last] at behind
    simp at behind
  next => exact ⟨_, rfl⟩

/-- An event of the enricher is at the place it begins at. -/
theorem Issued.descends (fallback : raw.fallback = true)
    (issued : Issued snapshot raw profile resolved event) :
    Descends snapshot raw profile resolved event ∧
      FirstUsable snapshot raw profile.userId (event.place raw) := by
  obtain ⟨channels, chosen, member⟩ := issued.chosen
  obtain ⟨channel, before, rfl, whole, usable, none⟩ := (userChannels_fallback fallback).mp chosen
  obtain rfl := List.mem_singleton.mp member
  have descends : Descends snapshot raw profile resolved event :=
    { asked := issued.asked
      found := issued.found
      enriched := ⟨raw.scheduledAt, false, issued.enriched⟩
      listed := ⟨before, whole⟩
      usable := issued.usable }
  refine ⟨descends, ⟨_, descends.channelAt, usable⟩, fun earlier order => ?_⟩
  rintro ⟨passed, here, some⟩
  rw [place_of_listed whole] at order
  rw [whole, List.getElem?_append_left order] at here
  exact some (none passed (List.mem_of_getElem? here))

/-- When a send is due, and whether it was counted, does not matter to whom it is sent. -/
theorem Descends.targets_eq (descends : Descends snapshot raw profile resolved event) :
    Engine.targets toLowerCase snapshot event.enriched =
      Engine.targets toLowerCase snapshot (Enricher.enriched raw profile (topicsFor snapshot raw)
        event.enriched.fallbackChain event.enriched.channel resolved) := by
  obtain ⟨scheduledAt, throttleCounted, enriched⟩ := descends.enriched
  exact (congrArg (Engine.targets toLowerCase snapshot) enriched).trans rfl

/-- The addresses the engine finds for an event: the one the enricher chose, else those of the
channel. -/
theorem mem_activeContacts_iff (identified : snapshot.Identified)
    {chain : List NotificationChannel} {channel : NotificationChannel} {contact : UserContact}
    (usable : ∀ source, resolved = some source → source ∈ Enricher.usable
      (snapshot.enabledContacts raw.projectId profile.userId) (topicsFor snapshot raw) channel) :
    contact ∈ Engine.activeContacts snapshot
        (Enricher.enriched raw profile (topicsFor snapshot raw) chain channel resolved) ↔
      match resolved with
      | none => contact ∈ snapshot.enabledContacts raw.projectId profile.userId ∧
          contact.channel = channel
      | some source => contact = ⟨source.id, channel, source.target, [], true⟩ := by
  cases resolved with
  | none =>
    have found : Engine.activeContacts snapshot
        (Enricher.enriched raw profile (topicsFor snapshot raw) chain channel none) =
          (snapshot.enabledContacts raw.projectId profile.userId).filter fun contact =>
            contact.channel = channel ∧ contact.active = true := by
      simp only [Engine.activeContacts, Enricher.enriched, truthy, Option.map_none,
        Option.filter_none, Snapshot.findActiveByUserIds, List.mem_singleton, if_true]
      rfl
    rw [found, List.mem_filter, decide_eq_true_eq]
    constructor
    · rintro ⟨listed, onChannel, _⟩
      exact ⟨listed, onChannel⟩
    · rintro ⟨listed, onChannel⟩
      exact ⟨listed, onChannel, snapshot.enabledContacts_active listed⟩
  | some source =>
    obtain ⟨hasId, hasTarget⟩ := identified.contact_named (of_mem_usable (usable source rfl)).1
    have id : truthy (some source.id) = some source.id := mem_truthy.mpr ⟨rfl, hasId⟩
    have target : truthy (some source.target) = some source.target :=
      mem_truthy.mpr ⟨rfl, hasTarget⟩
    simp [Engine.activeContacts, Enricher.enriched, id, target]

/-- Where an event is sent anywhere, its template is there. -/
theorem Descends.hasTemplate (descends : Descends snapshot raw profile resolved event)
    {contacts : List UserContact}
    (passed : Engine.targets toLowerCase snapshot event.enriched = .ok contacts) :
    HasTemplate snapshot raw := by
  rw [descends.targets_eq] at passed
  intro id named none
  unfold Engine.targets at passed
  split at passed
  · cases passed
  · simp [Engine.templateGate, Enricher.enriched, named, none, bind, Except.bind] at passed

/-- An event is sent to addresses the recipient can be reached at. -/
theorem Descends.address (identified : snapshot.Identified)
    (descends : Descends snapshot raw profile resolved event) {contacts : List UserContact}
    (passed : Engine.targets toLowerCase snapshot event.enriched = .ok contacts)
    {contact : UserContact} (sent : contact ∈ contacts) :
    ∃ source ∈ addressesAt toLowerCase snapshot raw profile.userId (event.place raw),
      source.id = contact.id ∧ (resolved = none ∨ resolved = some source) := by
  have present : HasTemplate snapshot raw := descends.hasTemplate passed
  rw [descends.targets_eq] at passed
  obtain ⟨willing, active, optedIn, clear⟩ := (mem_targets present).mp ⟨contacts, passed, sent⟩
  rw [mem_activeContacts_iff identified descends.usable] at active
  have unsuppressed : ∀ source ∈ snapshot.enabledContacts raw.projectId profile.userId,
      source.target = contact.target →
        ¬ Suppressed toLowerCase snapshot raw.projectId event.enriched.channel source.target := by
    intro source listed same stored
    have hasTarget := (identified.contact_named listed).2
    rw [same] at hasTarget stored
    exact clear hasTarget (mem_suppressedTargets.mpr stored)
  cases resolved with
  | none =>
    obtain ⟨listed, onChannel⟩ := active
    refine ⟨contact, mem_addressesAt.mpr ⟨⟨profile, descends.found, ?_⟩, ?_, listed, optedIn, ?_⟩, rfl,
      .inl rfl⟩
    · rw [onChannel]
      exact willing
    · rw [onChannel]
      exact descends.channelAt
    · rw [onChannel]
      exact unsuppressed contact listed rfl
  | some source =>
    obtain ⟨listed, onChannel, optedInSource⟩ := of_mem_usable (descends.usable source rfl)
    have same : contact = ⟨source.id, event.enriched.channel, source.target, [], true⟩ := active
    subst same
    refine ⟨source, mem_addressesAt.mpr
      ⟨⟨profile, descends.found, ?_⟩, ?_, listed, optedInSource, ?_⟩, rfl, .inr rfl⟩
    · rw [onChannel]
      exact willing
    · rw [onChannel]
      exact descends.channelAt
    · rw [onChannel]
      exact unsuppressed source listed rfl

/-- An event is sent to every address the recipient can be reached at, but where the enricher chose
one only to that. -/
theorem Descends.sent (identified : snapshot.Identified)
    (descends : Descends snapshot raw profile resolved event) (present : HasTemplate snapshot raw)
    {source : UserContact}
    (reached : source ∈ addressesAt toLowerCase snapshot raw profile.userId (event.place raw))
    (own : resolved = none ∨ resolved = some source) :
    ∃ contacts, Engine.targets toLowerCase snapshot event.enriched = .ok contacts ∧
      ∃ contact ∈ contacts, contact.id = source.id := by
  obtain ⟨⟨record, isRecord, willing⟩, here, listed, optedIn, clear⟩ := mem_addressesAt.mp reached
  obtain rfl := Option.some.inj (descends.found.symm.trans isRecord)
  have onChannel : source.channel = event.enriched.channel :=
    Option.some.inj (here.symm.trans descends.channelAt)
  rw [onChannel] at willing clear
  have unsuppressed : normaliseTarget toLowerCase source.target ∉
      Engine.suppressedTargets toLowerCase snapshot raw.projectId event.enriched.channel :=
    mt mem_suppressedTargets.mp clear
  rw [descends.targets_eq]
  rcases own with rfl | rfl
  · obtain ⟨contacts, passed, sent⟩ := (mem_targets present).mpr ⟨willing,
      (mem_activeContacts_iff identified descends.usable).mpr ⟨listed, onChannel⟩, optedIn,
      fun _ => unsuppressed⟩
    exact ⟨contacts, passed, source, sent, rfl⟩
  · obtain ⟨contacts, passed, sent⟩ := (mem_targets present).mpr ⟨willing,
      (mem_activeContacts_iff identified descends.usable).mpr rfl,
      by simp [optedOutOf, Preference.get], fun _ => unsuppressed⟩
    exact ⟨contacts, passed, _, sent, rfl⟩

/-- A task of an event is for an address the recipient can be reached at. -/
theorem Descends.address_of_task (identified : snapshot.Identified)
    (descends : Descends snapshot raw profile resolved event) {task : Task}
    (begun : task ∈ tasksOf toLowerCase zoneOf snapshot surroundings event) :
    HasTemplate snapshot raw ∧
      ∃ source ∈ addressesAt toLowerCase snapshot raw profile.userId (event.place raw),
        source.id = task.contact.id ∧ (resolved = none ∨ resolved = some source) := by
  obtain ⟨_, contacts, passed, contact, sent, rfl⟩ := mem_tasksOf.mp begun
  rw [(taskFor_event _ _ _ _ _).2]
  exact ⟨descends.hasTemplate passed, descends.address identified passed sent⟩

/-- An event that is not over the throttle has a task for each address. -/
theorem Descends.exists_task (identified : snapshot.Identified)
    (descends : Descends snapshot raw profile resolved event) (present : HasTemplate snapshot raw)
    (counted : ¬ (event.enriched.throttleCounted = false ∧ surroundings.throttled event.id = true))
    {source : UserContact}
    (reached : source ∈ addressesAt toLowerCase snapshot raw profile.userId (event.place raw))
    (own : resolved = none ∨ resolved = some source) :
    ∃ task ∈ tasksOf toLowerCase zoneOf snapshot surroundings event,
      task.contact.id = source.id := by
  obtain ⟨contacts, passed, contact, sent, same⟩ := descends.sent identified present reached own
  refine ⟨_, mem_tasksOf.mpr ⟨counted, contacts, passed, contact, sent, rfl⟩, ?_⟩
  rw [(taskFor_event _ _ _ _ _).2, same]

end Descending

section Arising

variable {event : Event}

/-- Every event that comes up is at a requested channel. -/
theorem descends_of_arises (fallback : raw.fallback = true)
    (arisen : Arises (rules toLowerCase zoneOf snapshot surroundings) (firstEvents snapshot raw)
      event) : ∃ profile resolved, Descends snapshot raw profile resolved event := by
  induction arisen with
  | first given =>
    obtain ⟨profile, resolved, issued⟩ := of_mem_firstEvents given
    exact ⟨profile, resolved, (issued.descends fallback).1⟩
  | left arisen begun came leaves inductionHypothesis =>
    obtain ⟨profile, resolved, descends⟩ := inductionHypothesis
    obtain ⟨_, left⟩ := leaves_eq_some.mp leaves
    rw [(after_event came).1, event_of_mem_tasksOf begun] at left
    exact ⟨profile, none, (descends.fallback left).1⟩

/-- The enricher's events are at the place it begins at. -/
theorem firstUsable_of_first (fallback : raw.fallback = true)
    (given : event ∈ firstEvents snapshot raw) :
    FirstUsable snapshot raw event.enriched.recipientId (event.place raw) := by
  obtain ⟨profile, resolved, issued⟩ := of_mem_firstEvents given
  rw [issued.recipientId]
  exact (issued.descends fallback).2

/-- The enricher makes an event for each address of the place it begins at, or one for all. -/
theorem exists_first (fallback : raw.fallback = true) (asked : userId ∈ raw.userIds)
    (isFirst : FirstUsable snapshot raw userId place) {source : UserContact}
    (reached : source ∈ addressesAt toLowerCase snapshot raw userId place) :
    ∃ event ∈ firstEvents snapshot raw, ∃ profile resolved,
      Descends snapshot raw profile resolved event ∧ profile.userId = userId ∧
        event.place raw = place ∧ (resolved = none ∨ resolved = some source) := by
  obtain ⟨⟨record, isRecord, _⟩, here, listed, optedIn, _⟩ := mem_addressesAt.mp reached
  obtain rfl : record.userId = userId := record_found isRecord
  obtain ⟨inside, there⟩ := List.getElem?_eq_some_iff.mp here
  have whole : Enricher.channelsOf raw = (Enricher.channelsOf raw).take place ++
      source.channel :: (Enricher.channelsOf raw).drop (place + 1) := by
    rw [← there, ← List.drop_eq_getElem_cons inside, List.take_append_drop]
  have chosen : Enricher.userChannels raw (snapshot.enabledContacts raw.projectId record.userId)
      (topicsFor snapshot raw) =
        some ([source.channel], (Enricher.channelsOf raw).drop (place + 1)) := by
    refine (userChannels_fallback fallback).mpr ⟨source.channel, _, rfl, whole, ?_, ?_⟩
    · obtain ⟨channel, here', usable⟩ := isFirst.usable
      obtain rfl := Option.some.inj (here.symm.trans here')
      exact usable
    · intro earlier member
      obtain ⟨position, order, found⟩ := List.mem_take_iff_getElem.mp member
      refine Classical.byContradiction fun usable =>
        isFirst.least position (by omega) ⟨earlier, ?_, usable⟩
      exact List.getElem?_eq_some_iff.mpr ⟨by omega, found⟩
  obtain ⟨resolved, own, made⟩ := own_channelEvents raw record
    ((Enricher.channelsOf raw).drop (place + 1)) listed rfl optedIn
  have given : (⟨.requested raw.eventId, Enricher.enriched raw record (topicsFor snapshot raw)
      ((Enricher.channelsOf raw).drop (place + 1)) source.channel resolved⟩ : Event) ∈
        firstEvents snapshot raw := by
    refine List.mem_map_of_mem (mem_fanOut_users.mpr ⟨record.userId, asked, record, isRecord, ?_⟩)
    exact mem_userEvents.mpr ⟨_, _, chosen, _, List.mem_singleton.mpr rfl, made⟩
  refine ⟨_, given, record, resolved,
    ⟨asked, isRecord, ⟨raw.scheduledAt, false, rfl⟩, ⟨_, whole⟩, ?_⟩, rfl, ?_, own⟩
  · rintro contact rfl
    obtain rfl := Option.some.inj (own.resolve_left nofun)
    exact List.mem_filter.mpr ⟨listed, by simp [Enricher.enriched, optedIn]⟩
  · rw [place_of_listed whole, List.length_take]
    omega

/-- Read from the streams, a request begins without copies. -/
theorem streamed_distinct (same : streamedStart snapshot raw = fusedStart snapshot raw) :
    Distinct toLowerCase snapshot raw := by
  have none : firstEvents snapshot raw = [] := (congrArg State.called same).symm
  rw [Distinct, none]
  exact List.Pairwise.nil

/-- With fallback a request begins without copies. -/
theorem Begins.distinct {start : State} (identified : snapshot.Identified)
    (fallback : raw.fallback = true) (begins : Begins snapshot raw start)
    (fused : start = fusedStart snapshot raw) : Distinct toLowerCase snapshot raw := by
  cases begins with
  | streamed => exact streamed_distinct fused
  | fused single => exact distinct_of_fallback identified fallback single

/-- A run that came to its end has brought every task that comes up to its end. -/
theorem exists_ended {allowed : State → Action → Prop} {start state : State}
    (identified : snapshot.Identified) (begins : Begins snapshot raw start)
    (distinct : start = fusedStart snapshot raw → Distinct toLowerCase snapshot raw)
    (run : Reaches (step toLowerCase zoneOf snapshot surroundings) allowed start state)
    (ended : state.Ended)
    (arisen : Arises (rules toLowerCase zoneOf snapshot surroundings) (firstEvents snapshot raw)
      event) {task : Task} (begun : task ∈ tasksOf toLowerCase zoneOf snapshot surroundings event) :
    ∃ last ∈ state.tasks, last.isOver = true ∧ ∃ steps,
      (rules toLowerCase zoneOf snapshot surroundings).after steps task = some last := by
  obtain ⟨work, workRun, follows⟩ := follows_of_reaches identified begins distinct run
  have explained := explained_of_reaches workRun
  have complete : Complete (rules toLowerCase zoneOf snapshot surroundings) work :=
    follows.complete ended
  have seen := seen_of_arises explained (keyed identified) complete arisen
  obtain ⟨last, present, steps, progress⟩ :=
    explained.begun (keyed identified) arisen seen begun
  have there : last ∈ state.tasks := follows.jobs ▸ present
  exact ⟨last, there, ended.tasks last there, steps, progress.came⟩

/-- A task that comes up comes to an end. -/
theorem task_ends (identified : snapshot.Identified)
    (arisen : Arises (rules toLowerCase zoneOf snapshot surroundings) (firstEvents snapshot raw)
      event) {task : Task} (begun : task ∈ tasksOf toLowerCase zoneOf snapshot surroundings event) :
    ∃ steps last, (rules toLowerCase zoneOf snapshot surroundings).after steps task = some last ∧
      last.isOver = true := by
  obtain ⟨state, run, ended⟩ : ∃ later, Reaches (step toLowerCase zoneOf snapshot surroundings)
      anyStep (streamedStart snapshot raw) later ∧ later.Ended := run_ends _
  obtain ⟨last, _, isOver, steps, came⟩ :=
    exists_ended identified .streamed streamed_distinct run ended arisen begun
  exact ⟨steps, last, came, isOver⟩

end Arising

end Places

end Notifkit.Pipeline.TaskRuns
