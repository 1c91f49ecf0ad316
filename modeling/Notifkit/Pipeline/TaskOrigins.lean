import Notifkit.Pipeline.TaskRuns

/-!
# What tasks come of

Every event of a run is one of the enricher's or left by a task of another event. The engine's key
determines an event, and the task id a task: no two tasks that come up have one id.
-/

namespace Notifkit.Pipeline.TaskRuns

open Runs Cascades ParkingTimes

variable {toLowerCase : Text → Text} {zoneOf : Text → Zone} {snapshot : Snapshot}
  {surroundings : Surroundings} {raw : NotificationRequested}

/-- The topics the recipient may have opted out of. -/
abbrev topicsFor (snapshot : Snapshot) (raw : NotificationRequested) : List Text :=
  Enricher.topicsOf snapshot raw.projectId raw.templateId

/-- How an event of the enricher came about: for a user asked for, on one of the channels chosen for
it, and with one of its addresses unless it is for push. -/
structure Issued (snapshot : Snapshot) (raw : NotificationRequested) (profile : UserRecord)
    (resolved : Option UserContact) (event : Event) : Prop where
  asked : profile.userId ∈ raw.userIds
  found : (snapshot.findRecordsByIds raw.projectId [profile.userId]).reverse.find?
    (fun record => record.userId = profile.userId) = some profile
  origin : event.rawEventId = .requested raw.eventId
  enriched : event.enriched = Enricher.enriched raw profile (topicsFor snapshot raw)
    event.enriched.fallbackChain event.enriched.channel resolved
  push : resolved = none ↔ event.enriched.channel = .push
  usable : ∀ contact, resolved = some contact → contact ∈ Enricher.usable
    (snapshot.enabledContacts raw.projectId profile.userId) (topicsFor snapshot raw)
    event.enriched.channel
  chosen : ∃ channels, Enricher.userChannels raw
    (snapshot.enabledContacts raw.projectId profile.userId) (topicsFor snapshot raw) =
      some (channels, event.enriched.fallbackChain) ∧ event.enriched.channel ∈ channels

/-- Every first event was issued. -/
theorem of_mem_firstEvents {event : Event} (member : event ∈ firstEvents snapshot raw) :
    ∃ profile resolved, Issued snapshot raw profile resolved event := by
  obtain ⟨enriched, made, rfl⟩ := List.mem_map.mp member
  obtain ⟨userId, asked, profile, found, made⟩ := mem_fanOut_users.mp made
  obtain ⟨channels, chain, chosen, channel, wanted, made⟩ := mem_userEvents.mp made
  have named : profile.userId = userId := record_found found
  subst named
  unfold Enricher.channelEvents at made
  split at made
  next push =>
    obtain rfl := List.mem_singleton.mp made
    exact ⟨profile, none, asked, found, rfl, rfl, by simp [Enricher.enriched, push], nofun,
      channels, chosen, wanted⟩
  next notPush =>
    obtain ⟨contact, usable, rfl⟩ := List.mem_map.mp made
    refine ⟨profile, some contact, asked, found, rfl, rfl, by simp [Enricher.enriched, notPush], ?_,
      channels, chosen, wanted⟩
    rintro _ ⟨⟩
    exact usable

/-- An event that was issued to a user and an address determines both, and all it carries. -/
theorem Issued.unique {profile profile' : UserRecord} {resolved resolved' : Option UserContact}
    {event event' : Event} (issued : Issued snapshot raw profile resolved event)
    (issued' : Issued snapshot raw profile' resolved' event')
    (users : profile.userId = profile'.userId) (addresses : resolved = resolved')
    (channels : event.enriched.channel = event'.enriched.channel) : event = event' := by
  have profiles : profile = profile' := by
    have found' := issued'.found
    rw [← users] at found'
    exact Option.some.inj (issued.found.symm.trans found')
  subst profiles addresses
  obtain ⟨_, chosen, _⟩ := issued.chosen
  obtain ⟨_, chosen', _⟩ := issued'.chosen
  have chains : event.enriched.fallbackChain = event'.enriched.fallbackChain :=
    (Prod.mk.inj (Option.some.inj (chosen.symm.trans chosen'))).2
  have enriched : event.enriched = event'.enriched := by
    rw [issued.enriched, issued'.enriched, chains, channels]
  cases event
  cases event'
  simp only [Event.mk.injEq]
  exact ⟨issued.origin.trans issued'.origin.symm, enriched⟩

/-- A usable address is an enabled one of the channel. -/
theorem of_mem_usable {contacts : List UserContact} {topics : List Text}
    {channel : NotificationChannel} {contact : UserContact}
    (usable : contact ∈ Enricher.usable contacts topics channel) :
    contact ∈ contacts ∧ contact.channel = channel ∧ optedOutOf topics contact.topics = false := by
  simpa [Enricher.usable] using usable

/-- The recipient of an issued event. -/
theorem Issued.recipientId {profile : UserRecord} {resolved : Option UserContact} {event : Event}
    (issued : Issued snapshot raw profile resolved event) :
    event.enriched.recipientId = profile.userId := by
  rw [issued.enriched]
  rfl

/-- The address named in an issued event. -/
theorem Issued.contactId (identified : snapshot.Identified) {profile : UserRecord}
    {resolved : Option UserContact} {event : Event}
    (issued : Issued snapshot raw profile resolved event) :
    truthy event.enriched.contactId = resolved.map UserContact.id := by
  rw [issued.enriched]
  cases resolved with
  | none => rfl
  | some contact =>
    have listed := (of_mem_usable (issued.usable contact rfl)).1
    simp [Enricher.enriched, truthy, (identified.contact_named listed).1]

/-- Issued events with one key are one. -/
theorem Issued.keyed (identified : snapshot.Identified) {profile profile' : UserRecord}
    {resolved resolved' : Option UserContact} {event event' : Event}
    (issued : Issued snapshot raw profile resolved event)
    (issued' : Issued snapshot raw profile' resolved' event') (same : event.id = event'.id) :
    event = event' := by
  simp only [Event.id, EventId.enriched.injEq] at same
  obtain ⟨_, recipients, channels, contactIds⟩ := same
  rw [issued.recipientId, issued'.recipientId] at recipients
  rw [issued.contactId identified, issued'.contactId identified] at contactIds
  refine issued.unique issued' recipients ?_ channels
  cases resolved with
  | none =>
    cases resolved' with
    | none => rfl
    | some contact => cases contactIds
  | some contact =>
    cases resolved' with
    | none => cases contactIds
    | some contact' =>
      have listed := (of_mem_usable (issued.usable contact rfl)).1
      have listed' := (of_mem_usable (issued'.usable contact' rfl)).1
      rw [(identified.contact_unique listed listed' (Option.some.inj contactIds)).2]

/-- An address the engine finds for an issued event is an enabled one of the user and channel, and
the one named in the event if one is. -/
theorem Issued.address (identified : snapshot.Identified) {profile : UserRecord} {resolved : Option UserContact} {event : Event}
    (issued : Issued snapshot raw profile resolved event) {contact : UserContact}
    (active : contact ∈ Engine.activeContacts snapshot event.enriched) :
    ∃ source ∈ snapshot.enabledContacts raw.projectId profile.userId,
      source.channel = event.enriched.channel ∧ source.id = contact.id ∧
      (resolved = none ∨ resolved = some source) := by
  simp only [Engine.activeContacts, List.mem_filter, decide_eq_true_eq] at active
  obtain ⟨listed, onChannel, _⟩ := active
  have project : event.enriched.projectId = raw.projectId := by rw [issued.enriched]; rfl
  have contactId : event.enriched.contactId = resolved.map UserContact.id := by
    rw [issued.enriched]; rfl
  cases resolved with
  | none =>
    simp only [contactId, Option.map_none, truthy, Option.filter_none, project, issued.recipientId,
      Snapshot.findActiveByUserIds, List.mem_singleton, if_true] at listed
    exact ⟨contact, listed, onChannel, rfl, .inl rfl⟩
  | some source =>
    obtain ⟨enabled, channel, _⟩ := of_mem_usable (issued.usable source rfl)
    split at listed
    next id target hasId hasTarget =>
      have named := (mem_truthy.mp hasId).1
      rw [contactId] at named
      rw [List.mem_singleton.mp listed]
      exact ⟨source, enabled, channel, Option.some.inj named, .inr rfl⟩
    next unnamed =>
      obtain ⟨hasId, hasTarget⟩ := identified.contact_named enabled
      have target : event.enriched.destination = some source.target := by rw [issued.enriched]; rfl
      refine absurd ?_ (unnamed source.id source.target (mem_truthy.mpr ⟨contactId, hasId⟩))
      simp [target, truthy, hasTarget]

/-- An event is sent to some of the addresses the engine found for it. -/
theorem targets_sublist {event : NotificationEnriched} {contacts : List UserContact}
    (passed : Engine.targets toLowerCase snapshot event = .ok contacts) :
    contacts.Sublist (Engine.activeContacts snapshot event) := by
  unfold Engine.targets at passed
  split at passed
  · cases passed
  next =>
    cases gate : Engine.templateGate snapshot event with
    | error reason => simp [gate, bind, Except.bind] at passed
    | ok template =>
      simp only [gate, bind, Except.bind] at passed
      split at passed
      · cases passed
      · obtain rfl := Except.ok.inj passed
        exact List.filter_sublist

/-- The addresses the engine finds have different ids. -/
theorem activeContacts_nodup (identified : snapshot.Identified) (event : NotificationEnriched) :
    ((Engine.activeContacts snapshot event).map UserContact.id).Nodup := by
  refine List.Nodup.sublist (List.filter_sublist.map _) ?_
  split
  · exact List.nodup_singleton _
  · rw [Snapshot.findActiveByUserIds, if_pos (List.mem_singleton.mpr rfl)]
    exact identified.enabledContacts_nodup _ _

section Arising

/-- A job of an event keeps the event and its address. -/
theorem after_event {steps : Nat} {task later : Task}
    (came : (rules toLowerCase zoneOf snapshot surroundings).after steps task = some later) :
    later.event = task.event ∧ later.contact = task.contact := by
  induction steps generalizing later with
  | zero => exact Option.some.inj came ▸ ⟨rfl, rfl⟩
  | succ steps inductionHypothesis =>
    obtain ⟨middle, cameBefore, moved⟩ := Option.bind_eq_some_iff.mp came
    obtain ⟨event, contact⟩ := inductionHypothesis cameBefore
    obtain ⟨event', contact'⟩ := Task.advance_event moved
    exact ⟨event'.trans event, contact'.trans contact⟩

/-- The tasks of an event carry it. -/
theorem event_of_mem_tasksOf {event : Event} {task : Task}
    (begun : task ∈ tasksOf toLowerCase zoneOf snapshot surroundings event) :
    task.event = event := by
  obtain ⟨_, _, _, contact, _, rfl⟩ := mem_tasksOf.mp begun
  exact (taskFor_event _ _ _ _ _).1

/-- What a task leaves is its event's fallback. -/
theorem leaves_eq_some {task : Task} {next : Event} :
    task.leaves = some next ↔ task.phase = .fellBack ∧ task.event.fallback = some next := by
  simp [Task.leaves]

/-- A fallback comes of its event, and names no address. -/
theorem fallback_eq_some {event next : Event} (left : event.fallback = some next) :
    next.rawEventId = event.id ∧ next.enriched.contactId = none ∧
      event.enriched.fallbackChain = next.enriched.channel :: next.enriched.fallbackChain ∧
      next.enriched.throttleCounted = true ∧
      next.enriched.recipientId = event.enriched.recipientId := by
  unfold Event.fallback at left
  split at left
  · cases left
  next chain =>
    obtain rfl := Option.some.inj left
    exact ⟨rfl, rfl, chain, rfl, rfl⟩

/-- The items that come up are the first events and those that tasks leave. -/
theorem arises_cases {event : Event}
    (arisen : Arises (rules toLowerCase zoneOf snapshot surroundings) (firstEvents snapshot raw)
      event) :
    event ∈ firstEvents snapshot raw ∨ ∃ parent,
      Arises (rules toLowerCase zoneOf snapshot surroundings) (firstEvents snapshot raw) parent ∧
        parent.fallback = some event := by
  cases arisen with
  | first given => exact .inl given
  | left arisen begun came leaves =>
    obtain ⟨_, left⟩ := leaves_eq_some.mp leaves
    rw [(after_event came).1, event_of_mem_tasksOf begun] at left
    exact .inr ⟨_, arisen, left⟩

/-- A first event comes of the request. -/
theorem rawEventId_first {event : Event} (given : event ∈ firstEvents snapshot raw) :
    event.rawEventId = .requested raw.eventId := by
  obtain ⟨_, _, rfl⟩ := List.mem_map.mp given
  rfl

/-- The engine's key determines an event. -/
theorem keyed (identified : snapshot.Identified) :
    Keyed (rules toLowerCase zoneOf snapshot surroundings) (firstEvents snapshot raw) := by
  intro one two arisenOne
  induction arisenOne generalizing two with
  | @first item given =>
    intro arisenTwo same
    rcases arises_cases arisenTwo with given' | ⟨parent, _, left⟩
    · obtain ⟨_, _, issued⟩ := of_mem_firstEvents given
      obtain ⟨_, _, issued'⟩ := of_mem_firstEvents given'
      exact issued.keyed identified issued' same
    · have origins : item.rawEventId = two.rawEventId := (EventId.enriched.inj same).1
      rw [rawEventId_first given, (fallback_eq_some left).1] at origins
      cases origins
  | @left item next task later steps arisen begun came leaves inductionHypothesis =>
    intro arisenTwo same
    obtain ⟨_, left⟩ := leaves_eq_some.mp leaves
    rw [(after_event came).1, event_of_mem_tasksOf begun] at left
    have origins : next.rawEventId = two.rawEventId := (EventId.enriched.inj same).1
    rw [(fallback_eq_some left).1] at origins
    rcases arises_cases arisenTwo with given' | ⟨parent, arisenParent, left'⟩
    · rw [rawEventId_first given'] at origins
      cases origins
    · rw [(fallback_eq_some left').1] at origins
      rw [inductionHypothesis parent arisenParent origins] at left
      exact Option.some.inj (left.symm.trans left')

/-- The task id determines the event. -/
theorem event_of_task_id (identified : snapshot.Identified) {one two : Event} {task task' : Task}
    (arisenOne : Arises (rules toLowerCase zoneOf snapshot surroundings) (firstEvents snapshot raw)
      one)
    (arisenTwo : Arises (rules toLowerCase zoneOf snapshot surroundings) (firstEvents snapshot raw)
      two)
    (begun : task ∈ tasksOf toLowerCase zoneOf snapshot surroundings one)
    (begun' : task' ∈ tasksOf toLowerCase zoneOf snapshot surroundings two)
    (same : task.id = task'.id) : one = two := by
  simp only [Task.id, event_of_mem_tasksOf begun, event_of_mem_tasksOf begun',
    TaskId.mk.injEq] at same
  obtain ⟨origins, contactIds⟩ := same
  rcases arises_cases arisenOne with given | ⟨parent, arisen, left⟩
  · rcases arises_cases arisenTwo with given' | ⟨parent', _, left'⟩
    · obtain ⟨profile, resolved, issued⟩ := of_mem_firstEvents given
      obtain ⟨profile', resolved', issued'⟩ := of_mem_firstEvents given'
      obtain ⟨_, contacts, passed, contact, member, rfl⟩ := mem_tasksOf.mp begun
      obtain ⟨_, contacts', passed', contact', member', rfl⟩ := mem_tasksOf.mp begun'
      rw [(taskFor_event _ _ _ _ _).2, (taskFor_event _ _ _ _ _).2] at contactIds
      obtain ⟨source, listed, channel, id, own⟩ := issued.address identified ((targets_sublist passed).subset member)
      obtain ⟨source', listed', channel', id', own'⟩ :=
        issued'.address identified ((targets_sublist passed').subset member')
      obtain ⟨users, sources⟩ := identified.contact_unique listed listed'
        (id.trans (contactIds.trans id'.symm))
      have channels : one.enriched.channel = two.enriched.channel := by
        rw [← channel, ← channel', sources]
      refine issued.unique issued' users ?_ channels
      by_cases push : one.enriched.channel = .push
      · rw [issued.push.mpr push, issued'.push.mpr (channels ▸ push)]
      · rw [own.resolve_left (mt issued.push.mp push), own'.resolve_left
          (mt issued'.push.mp (channels ▸ push)), sources]
    · rw [rawEventId_first given, (fallback_eq_some left').1] at origins
      cases origins
  · rcases arises_cases arisenTwo with given' | ⟨parent', arisen', left'⟩
    · rw [rawEventId_first given', (fallback_eq_some left).1] at origins
      cases origins
    · rw [(fallback_eq_some left).1, (fallback_eq_some left').1] at origins
      rw [keyed identified _ _ arisen arisen' origins] at left
      exact Option.some.inj (left.symm.trans left')

/-- The tasks of one event have different ids. -/
theorem tasksOf_nodup (identified : snapshot.Identified) (event : Event) :
    ((tasksOf toLowerCase zoneOf snapshot surroundings event).map Task.id).Nodup := by
  unfold tasksOf
  split
  · exact List.nodup_nil
  · split
    · exact List.nodup_nil
    next contacts passed =>
      have ids : (contacts.map (taskFor zoneOf snapshot surroundings event)).map Task.id =
          (contacts.map UserContact.id).map (TaskId.mk event.rawEventId) := by
        simp only [List.map_map]
        refine List.map_congr_left fun contact _ => ?_
        simp only [Function.comp_apply, Task.id, taskFor_event]
      rw [ids]
      refine List.Nodup.map (fun _ _ same => (TaskId.mk.inj same).2) ?_
      exact (activeContacts_nodup identified event.enriched).sublist
        ((targets_sublist passed).map _)

end Arising

end Notifkit.Pipeline.TaskRuns
