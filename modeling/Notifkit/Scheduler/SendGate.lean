import Notifkit.Pipeline.Gates

/-!
# The gate at release

A parked send is checked once more when it is released: its recipient may have unsubscribed, its
address may have bounced or been removed since. The gate reads the rows for a whole batch, project
by project, and decides each task from what it read.

The pipeline asks the same questions in two services, of events. `Permitted` is what both decide: a
task is blocked exactly where a request for the same address would make no task.
-/

namespace Notifkit.Scheduler.SendGate

open Pipeline

inductive BlockReason where
  | suppressed | recipientNotFound | userOptedOut | channelDisabled | contactInactive
deriving DecidableEq

/-- The fields of a parked payload the gate reads. -/
structure ParkedTask where
  taskId : Text
  projectId : Text
  recipientId : Text
  channel : NotificationChannel
  templateId : Option Text
  destination : Option Text
deriving DecidableEq

/-- A channel and a normalised address as one text. -/
def suppressionKey (channel : NotificationChannel) (target : Text) : Text :=
  channel.name ++ ":".toList ++ target

section Gate

variable (toLowerCase : Text → Text)

/-- Why a task is blocked, from the rows that were read. -/
def decide (t : ParkedTask) (topics : List Text) (suppressed : List Text)
    (user : Option UserRecord) (contactsByUser : Text → List UserContact) : Option BlockReason :=
  if (truthy t.destination).any fun destination =>
      suppressionKey t.channel (normaliseTarget toLowerCase destination) ∈ suppressed
  then some .suppressed
  else match user with
  | none => some .recipientNotFound
  | some user =>
    if optedOutOf topics user.topics then some .userOptedOut
    else if user.channels.get t.channel = some false then some .channelDisabled
    else match truthy t.destination with
    | none => none
    | some destination =>
      match (contactsByUser t.recipientId).find? fun contact =>
        contact.channel = t.channel ∧ contact.target = destination with
      | none => some .contactInactive
      | some contact => if optedOutOf topics contact.topics then some .userOptedOut else none

/-- The tasks that name a project and a recipient, by project. -/
def byProject (tasks : List ParkedTask) : List (Text × List ParkedTask) :=
  let kept := tasks.filter fun t => t.projectId ≠ [] ∧ t.recipientId ≠ []
  (kept.map ParkedTask.projectId).eraseDups.map fun projectId =>
    (projectId, kept.filter fun t => t.projectId = projectId)

/-- The addresses of a project's tasks, normalised. -/
def releaseTargets (group : List ParkedTask) : List Text :=
  ((group.filterMap fun t => (truthy t.destination).map (normaliseTarget toLowerCase)).filter
    fun target => target ≠ []).eraseDups

/-- Why a task of a project's group is blocked, by the rows read for the group. -/
def reasonOf (snapshot : Snapshot) (projectId : Text) (group : List ParkedTask) (t : ParkedTask) :
    Option BlockReason :=
  let recipientIds := (group.map ParkedTask.recipientId).eraseDups
  let templateIds := (group.filterMap fun t => truthy t.templateId).eraseDups
  let suppressedRows := snapshot.suppressions.filter fun row =>
    row.projectId = projectId ∧ row.target ∈ releaseTargets toLowerCase group
  let users := snapshot.findRecordsByIds projectId recipientIds
  let contactsByUser := snapshot.findActiveByUserIds projectId recipientIds
  let suppressed := suppressedRows.map fun row =>
    suppressionKey row.channel (normaliseTarget toLowerCase row.target)
  let topicsByTemplate := templateIds.map fun id =>
    (id, ((snapshot.findTemplate projectId id).map TemplateRow.topics).getD [])
  let topics := ((truthy t.templateId).bind fun id => topicsByTemplate.lookup id).getD []
  let user := users.reverse.find? fun record => record.userId = t.recipientId
  decide toLowerCase t topics suppressed user contactsByUser

/-- The blocked tasks of a batch: what is set under the task's ids. -/
def findBlockedAtRelease (snapshot : Snapshot) (tasks : List ParkedTask) :
    List (Text × BlockReason) :=
  (byProject tasks).flatMap fun (projectId, group) => group.filterMap fun t =>
    (reasonOf toLowerCase snapshot projectId group t).map fun reason => (t.taskId, reason)

end Gate

/-- A channel's name has no colon. -/
theorem colon_not_mem_name (channel : NotificationChannel) : ':' ∉ channel.name := by
  cases channel <;> decide

theorem name_injective {one two : NotificationChannel} (same : one.name = two.name) : one = two := by
  revert same
  cases one <;> cases two <;> decide

/-- The key tells the channel and the address apart. -/
theorem suppressionKey_injective {one two : NotificationChannel} {first second : Text}
    (same : suppressionKey one first = suppressionKey two second) : one = two ∧ first = second := by
  have ahead : ∀ (channel : NotificationChannel) (target : Text),
      (suppressionKey channel target).takeWhile (fun c => c ≠ ':') = channel.name := by
    intro channel target
    rw [suppressionKey, List.append_assoc, List.takeWhile_append_of_pos]
    · simp
    · intro c member
      have other : c ≠ ':' := fun isColon => colon_not_mem_name channel (isColon ▸ member)
      simpa using other
  have channels : one = two := name_injective (by rw [← ahead one first, same, ahead two second])
  subst channels
  exact ⟨rfl, List.append_cancel_left same⟩

section Agreement

variable {toLowerCase : Text → Text} {snapshot : Snapshot} {t : ParkedTask} {destination : Text}
  {topics : List Text} {suppressed : List Text} {user : Option UserRecord}
  {contactsByUser : Text → List UserContact}

/-- What a task passes the gate with. -/
theorem decide_eq_none (named : truthy t.destination = some destination) :
    decide toLowerCase t topics suppressed user contactsByUser = none ↔
      suppressionKey t.channel (normaliseTarget toLowerCase destination) ∉ suppressed ∧
      (∃ record, user = some record ∧ optedOutOf topics record.topics = false ∧
        record.channels.get t.channel ≠ some false) ∧
      ∃ contact, (contactsByUser t.recipientId).find? (fun contact =>
          contact.channel = t.channel ∧ contact.target = destination) = some contact ∧
        optedOutOf topics contact.topics = false := by
  unfold decide
  rw [named]
  cases user with
  | none => grind
  | some record =>
    cases found : (contactsByUser t.recipientId).find? (fun contact =>
          contact.channel = t.channel ∧ contact.target = destination) with
    | none => grind
    | some contact => grind

/-- The group of a task that names a project and a recipient. -/
theorem mem_byProject {tasks : List ParkedTask} {projectId : Text} {group : List ParkedTask} :
    (projectId, group) ∈ byProject tasks ∧ t ∈ group ↔
      t ∈ tasks ∧ t.projectId ≠ [] ∧ t.recipientId ≠ [] ∧ t.projectId = projectId ∧
        group = (tasks.filter fun t => t.projectId ≠ [] ∧ t.recipientId ≠ []).filter fun t =>
          t.projectId = projectId := by
  have kept : t ∈ (tasks.filter fun t => t.projectId ≠ [] ∧ t.recipientId ≠ []) ↔
      t ∈ tasks ∧ t.projectId ≠ [] ∧ t.recipientId ≠ [] := by
    simp only [List.mem_filter, decide_eq_true_eq]
  simp only [byProject, List.mem_map, List.mem_eraseDups, Prod.mk.injEq]
  constructor
  · rintro ⟨⟨_, _, rfl, rfl⟩, member⟩
    obtain ⟨listed, ofProject⟩ := List.mem_filter.mp member
    exact ⟨(kept.mp listed).1, (kept.mp listed).2.1, (kept.mp listed).2.2, by simpa using ofProject,
      rfl⟩
  · rintro ⟨member, hasProject, hasRecipient, rfl, rfl⟩
    have listed := kept.mpr ⟨member, hasProject, hasRecipient⟩
    exact ⟨⟨_, ⟨t, listed, rfl⟩, rfl, rfl⟩, List.mem_filter.mpr ⟨listed, by simp⟩⟩

/-- A task is blocked where a task of its id is decided so with its project's. -/
theorem mem_findBlockedAtRelease {tasks : List ParkedTask} {taskId : Text} :
    taskId ∈ (findBlockedAtRelease toLowerCase snapshot tasks).map Prod.fst ↔
      ∃ t ∈ tasks, t.projectId ≠ [] ∧ t.recipientId ≠ [] ∧ t.taskId = taskId ∧
        ∃ group, (t.projectId, group) ∈ byProject tasks ∧ t ∈ group ∧
          reasonOf toLowerCase snapshot t.projectId group t ≠ none := by
  simp only [findBlockedAtRelease, List.mem_map, List.mem_flatMap, List.mem_filterMap,
    Option.map_eq_some_iff]
  constructor
  · rintro ⟨_, ⟨⟨projectId, group⟩, grouped, t, member, reason, decided, rfl⟩, rfl⟩
    obtain ⟨listed, hasProject, hasRecipient, rfl, _⟩ := mem_byProject.mp ⟨grouped, member⟩
    exact ⟨t, listed, hasProject, hasRecipient, rfl, group, grouped, member, by simp [decided]⟩
  · rintro ⟨t, _, _, _, rfl, group, grouped, member, blocked⟩
    obtain ⟨reason, decided⟩ := Option.ne_none_iff_exists'.mp blocked
    exact ⟨_, ⟨_, grouped, t, member, reason, decided, rfl⟩, rfl⟩

/-- A task that is not blocked was decided with a group it is in. -/
theorem decided_of_passed {tasks : List ParkedTask} (listed : t ∈ tasks)
    (hasProject : t.projectId ≠ []) (hasRecipient : t.recipientId ≠ [])
    (passed : t.taskId ∉ (findBlockedAtRelease toLowerCase snapshot tasks).map Prod.fst) :
    ∃ group, t ∈ group ∧ reasonOf toLowerCase snapshot t.projectId group t = none := by
  obtain ⟨grouped, member⟩ := mem_byProject.mpr ⟨listed, hasProject, hasRecipient, rfl, rfl⟩
  refine ⟨_, member, Decidable.byContradiction fun blocked => passed ?_⟩
  exact mem_findBlockedAtRelease.mpr
    ⟨t, listed, hasProject, hasRecipient, rfl, _, grouped, member, blocked⟩

/-- The topics a task is decided with are those of its template. -/
theorem lookup_topics {ids : List Text} {projectId : Text} {id : Text} (member : id ∈ ids) :
    ((ids.map fun id => (id, ((snapshot.findTemplate projectId id).map
      TemplateRow.topics).getD [])).lookup id) =
        some (((snapshot.findTemplate projectId id).map TemplateRow.topics).getD []) := by
  induction ids with
  | nil => exact absurd member nofun
  | cons first rest inductionHypothesis =>
    by_cases isFirst : id = first
    · subst isFirst
      simp
    · have later := inductionHypothesis (by simpa [isFirst] using member)
      simpa [List.lookup_cons, beq_false_of_ne isFirst] using later

/-- The addresses suppressions are looked up for: the group's, less the blank ones. -/
theorem mem_releaseTargets {group : List ParkedTask} (member : t ∈ group)
    (named : truthy t.destination = some destination) :
    normaliseTarget toLowerCase destination ∈ releaseTargets toLowerCase group ↔
      normaliseTarget toLowerCase destination ≠ [] := by
  simp only [releaseTargets, List.mem_eraseDups, List.mem_filter, decide_eq_true_eq,
    and_iff_right_iff_imp]
  exact fun _ => List.mem_filterMap.mpr ⟨t, member, by rw [named, Option.map_some]⟩

/-- The suppressed keys read for a group hold a task's where a stored suppression is for its
address, unless that is blank. -/
theorem mem_suppressedKeys {group : List ParkedTask}
    (normalised : ∀ row ∈ snapshot.suppressions,
      normaliseTarget toLowerCase row.target = row.target)
    (member : t ∈ group) (named : truthy t.destination = some destination) :
    suppressionKey t.channel (normaliseTarget toLowerCase destination) ∈
        (snapshot.suppressions.filter fun row => row.projectId = t.projectId ∧
          row.target ∈ releaseTargets toLowerCase group).map (fun row =>
            suppressionKey row.channel (normaliseTarget toLowerCase row.target)) ↔
      Suppressed toLowerCase snapshot t.projectId t.channel destination ∧
        normaliseTarget toLowerCase destination ≠ [] := by
  simp only [List.mem_map, List.mem_filter, decide_eq_true_eq]
  constructor
  · rintro ⟨row, ⟨stored, ofProject, lookedUp⟩, sameKey⟩
    obtain ⟨ofChannel, same⟩ := suppressionKey_injective sameKey
    rw [← normalised row stored, same] at lookedUp
    exact ⟨⟨row, stored, ofProject, ofChannel, same⟩, (mem_releaseTargets member named).mp lookedUp⟩
  · rintro ⟨⟨row, stored, ofProject, ofChannel, same⟩, notBlank⟩
    have lookedUp : row.target ∈ releaseTargets toLowerCase group := by
      rw [← normalised row stored, same]
      exact (mem_releaseTargets member named).mpr notBlank
    exact ⟨row, ⟨stored, ofProject, lookedUp⟩, by rw [ofChannel, same]⟩

/-- The first enabled address of a channel and target is the only one. -/
theorem find_enabledContacts {projectId userId : Text} {channel : NotificationChannel} :
    (∃ contact, (snapshot.enabledContacts projectId userId).find? (fun contact =>
        contact.channel = channel ∧ contact.target = destination) = some contact ∧
          optedOutOf topics contact.topics = false) ↔
      ∃ contact ∈ snapshot.enabledContacts projectId userId, contact.channel = channel ∧
        contact.target = destination ∧ optedOutOf topics contact.topics = false := by
  constructor
  · rintro ⟨contact, found, optedIn⟩
    have matching : contact.channel = channel ∧ contact.target = destination := by
      simpa using List.find?_some found
    exact ⟨contact, List.mem_of_find?_eq_some found, matching.1, matching.2, optedIn⟩
  · rintro ⟨contact, member, onChannel, isTarget, optedIn⟩
    have some : ((snapshot.enabledContacts projectId userId).find? fun contact =>
        contact.channel = channel ∧ contact.target = destination).isSome :=
      List.find?_isSome.mpr ⟨contact, member, by simp [onChannel, isTarget]⟩
    obtain ⟨first, found⟩ := Option.isSome_iff_exists.mp some
    have matching : first.channel = channel ∧ first.target = destination := by
      simpa using List.find?_some found
    have same : first = contact := snapshot.enabledContacts_unique (List.mem_of_find?_eq_some found)
      member (matching.1.trans onChannel.symm) (matching.2.trans isTarget.symm)
    exact ⟨first, found, same ▸ optedIn⟩

/-- The gate passes a task exactly where its recipient accepts the address and no suppression is
found for it: none is stored, or the address is blank. -/
theorem reasonOf_eq_none {group : List ParkedTask}
    (normalised : ∀ row ∈ snapshot.suppressions,
      normaliseTarget toLowerCase row.target = row.target)
    (member : t ∈ group) (named : truthy t.destination = some destination) :
    reasonOf toLowerCase snapshot t.projectId group t = none ↔
      Accepts snapshot t.projectId t.recipientId t.channel
        (Enricher.topicsOf snapshot t.projectId t.templateId) destination ∧
      (Suppressed toLowerCase snapshot t.projectId t.channel destination →
        normaliseTarget toLowerCase destination = []) := by
  have asked : t.recipientId ∈ (group.map ParkedTask.recipientId).eraseDups :=
    List.mem_eraseDups.mpr (List.mem_map_of_mem member)
  have topics : ((truthy t.templateId).bind fun id =>
      ((group.filterMap fun t => truthy t.templateId).eraseDups.map fun id => (id,
        ((snapshot.findTemplate t.projectId id).map TemplateRow.topics).getD [])).lookup id).getD [] =
      Enricher.topicsOf snapshot t.projectId t.templateId := by
    cases template : truthy t.templateId with
    | none => simp [Enricher.topicsOf, template]
    | some id =>
      have listed : id ∈ (group.filterMap fun t => truthy t.templateId).eraseDups :=
        List.mem_eraseDups.mpr (List.mem_filterMap.mpr ⟨t, member, template⟩)
      simp [Enricher.topicsOf, template, lookup_topics listed]
  rw [reasonOf, decide_eq_none named, topics, mem_suppressedKeys normalised member named,
    snapshot.find_findRecordsByIds asked, Snapshot.findActiveByUserIds, if_pos asked,
    find_enabledContacts]
  constructor
  · rintro ⟨unsuppressed, recipient, address⟩
    refine ⟨⟨recipient, address⟩, fun stored => ?_⟩
    exact Classical.not_not.mp fun text => unsuppressed ⟨stored, text⟩
  · rintro ⟨⟨recipient, address⟩, blank⟩
    refine ⟨?_, recipient, address⟩
    rintro ⟨stored, text⟩
    exact text (blank stored)

/-- What a request has in common with a parked task. -/
structure SameSend (raw : NotificationRequested) (t : ParkedTask) : Prop where
  project : raw.projectId = t.projectId
  recipient : t.recipientId ∈ raw.userIds
  channel : t.channel ∈ Enricher.channelsOf raw
  template : raw.templateId = t.templateId
  noFallback : raw.fallback = false

/-- Refusing what is suppressed unless it is blank agrees with refusing all that is suppressed,
unless something is blank, accepted and suppressed. -/
theorem refusals_agree_iff {accepted suppressed blank : Prop} :
    (¬ (accepted ∧ (suppressed → blank)) ↔ ¬ (accepted ∧ ¬ suppressed)) ↔
      ¬ (blank ∧ accepted ∧ suppressed) := by
  by_cases isAccepted : accepted
  · by_cases isSuppressed : suppressed <;> simp [isAccepted, isSuppressed]
  · simp [isAccepted]

/-- The gate at release and the gates of the pipeline agree on a task, read on the same rows, unless
its address is blank, its recipient accepts it, and the blank address is suppressed: that
suppression is not looked up at release. -/
theorem release_gate_agrees {tasks : List ParkedTask} {raw : NotificationRequested}
    (normalised : ∀ row ∈ snapshot.suppressions,
      normaliseTarget toLowerCase row.target = row.target)
    (parked : t ∈ tasks) (only : ∀ other ∈ tasks, other.taskId = t.taskId → other = t)
    (hasProject : t.projectId ≠ []) (hasRecipient : t.recipientId ≠ [])
    (named : truthy t.destination = some destination)
    (present : ∀ id, truthy t.templateId = some id → snapshot.findTemplate t.projectId id ≠ none)
    (same : SameSend raw t) :
    (t.taskId ∈ (findBlockedAtRelease toLowerCase snapshot tasks).map Prod.fst ↔
        ¬ MakesTask toLowerCase snapshot raw t.recipientId t.channel destination) ↔
      ¬ (normaliseTarget toLowerCase destination = [] ∧
        Accepts snapshot t.projectId t.recipientId t.channel
          (Enricher.topicsOf snapshot t.projectId t.templateId) destination ∧
        Suppressed toLowerCase snapshot t.projectId t.channel destination) := by
  have blocked : t.taskId ∈ (findBlockedAtRelease toLowerCase snapshot tasks).map Prod.fst ↔
      ¬ (Accepts snapshot t.projectId t.recipientId t.channel
          (Enricher.topicsOf snapshot t.projectId t.templateId) destination ∧
        (Suppressed toLowerCase snapshot t.projectId t.channel destination →
          normaliseTarget toLowerCase destination = [])) := by
    rw [mem_findBlockedAtRelease]
    constructor
    · rintro ⟨other, listed, _, _, sameId, group, _, member, decided⟩
      obtain rfl := only other listed sameId
      rwa [ne_eq, reasonOf_eq_none normalised member named] at decided
    · intro refused
      obtain ⟨grouped, member⟩ := mem_byProject.mpr ⟨parked, hasProject, hasRecipient, rfl, rfl⟩
      refine ⟨t, parked, hasProject, hasRecipient, rfl, _, grouped, member, ?_⟩
      rwa [ne_eq, reasonOf_eq_none normalised member named]
  have made : MakesTask toLowerCase snapshot raw t.recipientId t.channel destination ↔ _ :=
    makesTask_iff same.noFallback same.recipient same.channel (mem_truthy.mp named).2
      (by rw [same.template, same.project]; exact present)
  rw [same.template, same.project] at made
  rw [blocked, made]
  exact refusals_agree_iff

end Agreement

/-- The only user of a project is found by one name. -/
theorem oneAddress_user :
    ∀ one ∈ [(⟨1, "p".toList, "u".toList, "UTC".toList⟩ : UserRow)],
      ∀ two ∈ [(⟨1, "p".toList, "u".toList, "UTC".toList⟩ : UserRow)],
        one.projectId = two.projectId → one.externalId = two.externalId → one.id = two.id := by
  decide

/-- A user with one text message address. -/
def oneAddress (target suppressed : Text) : Snapshot where
  users := [⟨1, "p".toList, "u".toList, "UTC".toList⟩]
  contacts := [⟨"c".toList, 1, .sms, target, true⟩]
  suppressions := [⟨"p".toList, .sms, suppressed⟩]
  usersUnique := oneAddress_user
  contactsUnique := by
    intro one first two second _ _ _
    rw [List.mem_singleton.mp first, List.mem_singleton.mp second]

/-- A task parked for the address. -/
def parkedFor (target : Text) : ParkedTask where
  taskId := "t".toList
  projectId := "p".toList
  recipientId := "u".toList
  channel := .sms
  templateId := none
  destination := some target

/-- A request for the user. -/
def requestFor : NotificationRequested where
  projectId := "p".toList
  eventId := "e".toList
  userIds := ["u".toList]
  channels := [.sms]

theorem release_gate_agrees_run :
    (("t".toList ∈ (findBlockedAtRelease Text.toLowerCase
        (oneAddress "+1".toList "+1".toList) [parkedFor "+1".toList]).map Prod.fst ↔
      ¬ MakesTask Text.toLowerCase (oneAddress "+1".toList "+1".toList) requestFor "u".toList .sms
        "+1".toList) ↔
      ¬ (normaliseTarget Text.toLowerCase "+1".toList = [] ∧
        Accepts (oneAddress "+1".toList "+1".toList) "p".toList "u".toList .sms
          (Enricher.topicsOf (oneAddress "+1".toList "+1".toList) "p".toList none) "+1".toList ∧
        Suppressed Text.toLowerCase (oneAddress "+1".toList "+1".toList) "p".toList .sms
          "+1".toList)) :=
  release_gate_agrees (t := parkedFor "+1".toList) (by decide) (by decide) (by decide) (by decide)
    (by decide) (by decide) (by decide) ⟨rfl, by decide, by decide, rfl, rfl⟩

/-- A blank address that is suppressed: the pipeline makes no task for it, the gate at release lets
it pass. -/
theorem blank_suppression_not_looked_up : ∃ (snapshot : Snapshot) (t : ParkedTask)
    (raw : NotificationRequested) (destination : Text),
    (∀ row ∈ snapshot.suppressions, normaliseTarget Text.toLowerCase row.target = row.target) ∧
    t.projectId ≠ [] ∧ t.recipientId ≠ [] ∧ truthy t.destination = some destination ∧
    (∀ id, truthy t.templateId = some id → snapshot.findTemplate t.projectId id ≠ none) ∧
    SameSend raw t ∧
    ¬ (t.taskId ∈ (findBlockedAtRelease Text.toLowerCase snapshot [t]).map Prod.fst ↔
      ¬ MakesTask Text.toLowerCase snapshot raw t.recipientId t.channel destination) := by
  refine ⟨oneAddress " ".toList [], parkedFor " ".toList, requestFor, " ".toList, by decide,
    by decide, by decide, by decide, nofun, ⟨rfl, by decide, by decide, rfl, rfl⟩, ?_⟩
  have passed : findBlockedAtRelease Text.toLowerCase (oneAddress " ".toList [])
      [parkedFor " ".toList] = [] := by decide
  have made : ¬ MakesTask Text.toLowerCase (oneAddress " ".toList []) requestFor "u".toList .sms
      " ".toList := by
    rw [makesTask_iff rfl (by decide) (by decide) (by decide) (by simp [requestFor, truthy])]
    exact fun sent => sent.2 ⟨_, List.mem_singleton.mpr rfl, rfl, rfl, by decide⟩
  rw [passed]
  exact fun agree => absurd (agree.mpr made) List.not_mem_nil

end Notifkit.Scheduler.SendGate
