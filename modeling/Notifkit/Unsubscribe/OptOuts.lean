import Mathlib.Algebra.Order.BigOperators.Group.List
import Mathlib.Algebra.Order.Group.Nat
import Notifkit.Api.QueryParams
import Notifkit.Pipeline.Suppressions
import Notifkit.Unsubscribe.Tokens

/-!
# From a link in an email to the gates

The engine puts the topics of a template into the claim of an email's link. The handler writes what
the link asks for: a switched-off preference for each topic or, where there is no user, a
suppression of the address. The enricher reads the preferences back into the events it makes, and
the engine drops by them and by the suppressions.

Two things go wrong on the way. One statement inserts all preferences, and the database refuses it
where a topic comes twice. And the object a user's topics are read into does not hold a topic by the
name of an object's prototype. Apart from these, what was recorded stops every later send.
-/

namespace Notifkit.Unsubscribe

open Pipeline Api

/-- What the API and the engine are configured with. -/
structure Config where
  UNSUBSCRIBE_SECRET : Option Text
  PUBLIC_URL : Option Text

/-- The claim of an email's link. Only mail with a topic has one. -/
def unsubscribeClaim (config : Config) (enriched : NotificationEnriched)
    (templateTopics : List Text) (contact : UserContact) : Option UnsubscribeClaim :=
  if enriched.channel = .email ∧ templateTopics ≠ [] ∧
      (truthy config.UNSUBSCRIBE_SECRET).isSome ∧ (truthy config.PUBLIC_URL).isSome ∧
      contact.target ≠ [] then
    some {
      projectId := enriched.projectId
      userId := enriched.recipientId
      channel := enriched.channel.name
      target := contact.target
      topics := templateTopics }
  else none

section Handler

/-- The user a claim names. -/
def userOf (snapshot : Snapshot) (claim : UnsubscribeClaim) : Option UserRow :=
  snapshot.users.find? fun row =>
    row.projectId = claim.projectId ∧ row.externalId = claim.userId

/-- Switch topics off in one statement. The database refuses to touch a row twice. -/
def disableTopics (snapshot : Snapshot) (userId : Nat) (topics : List Text) : Option Snapshot :=
  if topics.Nodup then
    let stored := snapshot.userTopics.map fun row =>
      if row.userId = userId ∧ row.topic ∈ topics then { row with enabled := false } else row
    let added := topics.filter fun topic =>
      ¬ ∃ row ∈ snapshot.userTopics, row.userId = userId ∧ row.topic = topic
    some { snapshot with
      userTopics := stored ++ added.map fun topic => ⟨userId, topic, false⟩ }
  else none

/-- Suppress an address; a row that is there is kept. -/
def suppress (snapshot : Snapshot) (row : SuppressionRow) : Snapshot :=
  if row ∈ snapshot.suppressions then snapshot
  else { snapshot with suppressions := row :: snapshot.suppressions }

variable (toLowerCase : Text → Text)

/-- What a claim asks for is written; absent where the database refuses the statement. -/
def record (snapshot : Snapshot) (claim : UnsubscribeClaim) : Option Snapshot :=
  let target := normaliseTarget toLowerCase claim.target
  match claim.topics, userOf snapshot claim with
  | _ :: _, some user => disableTopics snapshot user.id claim.topics
  | _, _ => (channelOf claim.channel).map fun channel =>
    suppress snapshot ⟨claim.projectId, channel, target⟩

/-- `unsubscribe`: the status of the answer, and the tables afterwards. -/
def unsubscribe (codec : Codec) (config : Config) (snapshot : Snapshot) (token : Option Text) :
    Nat × Snapshot :=
  match (truthy config.UNSUBSCRIBE_SECRET).bind
      (codec.verifyUnsubscribeToken (token.getD [])) with
  | none => (400, snapshot)
  | some claim =>
    match record toLowerCase snapshot claim with
    | none => (500, snapshot)
    | some after => (200, after)

end Handler

/-- Later tables in which what a request recorded stands: the user is gone or the same, its
preferences for the topics are as they were, and suppressions were not taken out. -/
structure Stands (claim : UnsubscribeClaim) (after later : Snapshot) : Prop where
  user : ∀ row ∈ later.users, row.projectId = claim.projectId → row.externalId = claim.userId →
    row ∈ after.users
  topics : ∀ user ∈ after.users, user.projectId = claim.projectId →
    user.externalId = claim.userId → ∀ row : UserTopicRow, row.userId = user.id →
      row.topic ∈ claim.topics → (row ∈ later.userTopics ↔ row ∈ after.userTopics)
  suppressions : ∀ row ∈ after.suppressions, row ∈ later.suppressions

/-- What delivery makes of an event on the way along its chain: it keeps the recipient and names no
address. -/
inductive Onward : NotificationEnriched → NotificationEnriched → Prop
  | here (event : NotificationEnriched) : Onward event event
  | next {first event : NotificationEnriched} {nextChannel : NotificationChannel}
      {remainingChain : List NotificationChannel} (way : Onward first event)
      (chain : event.fallbackChain = nextChannel :: remainingChain) :
      Onward first { event with
        channel := nextChannel
        scheduledAt := none
        fallbackChain := remainingChain
        contactId := none
        destination := none
        throttleCounted := true }

/-- A request mails a user at an address: on a channel asked for or by fallback. -/
def Mails (toLowerCase : Text → Text) (snapshot : Snapshot) (raw : NotificationRequested)
    (userId destination : Text) : Prop :=
  ∃ first ∈ Enricher.fanOut snapshot raw, ∃ event, Onward first event ∧
    event.recipientId = userId ∧ event.channel = .email ∧
    ∃ contacts, Engine.targets toLowerCase snapshot event = .ok contacts ∧
      ∃ contact ∈ contacts, contact.target = destination

/-- A request with an email's token succeeds, and from then on nothing is sent: with the template to
the user by email or, where the user is gone, to the address at all. -/
def Honoured (toLowerCase : Text → Text) (codec : Codec) (config : Config) (now : Snapshot)
    (template : TemplateRow) (claim : UnsubscribeClaim) (token : Text) : Prop :=
  ∃ after, unsubscribe toLowerCase codec config now (some token) = (200, after) ∧
    ∀ later, (userOf now claim ≠ none → Stands claim after later →
        later.findTemplate template.projectId template.id = some template →
        ∀ raw : NotificationRequested, raw.projectId = claim.projectId →
          raw.templateId = some template.id → ∀ destination,
            ¬ Mails toLowerCase later.readable raw claim.userId destination) ∧
      (userOf now claim = none → (∀ row ∈ after.suppressions, row ∈ later.suppressions) →
        ∀ raw : NotificationRequested, raw.projectId = claim.projectId → ∀ userId destination,
          destination ≠ [] → normaliseTarget toLowerCase destination =
            normaliseTarget toLowerCase claim.target →
          ¬ Mails toLowerCase later.readable raw userId destination)

section Gates

variable {toLowerCase : Text → Text} {snapshot : Snapshot} {raw : NotificationRequested}
  {event : NotificationEnriched} {contacts : List UserContact} {contact : UserContact}

/-- What passes the engine's gates is for a user who did not opt out, and none of its addresses is
suppressed. -/
theorem of_targets (passed : Engine.targets toLowerCase snapshot event = .ok contacts)
    (sent : contact ∈ contacts) :
    event.recipient.optedOut = false ∧
      (contact.target ≠ [] → normaliseTarget toLowerCase contact.target ∉
        Engine.suppressedTargets toLowerCase snapshot event.projectId event.channel) := by
  unfold Engine.targets at passed
  cases gate : Engine.preferenceGate event with
  | some reason =>
    rw [gate] at passed
    cases passed
  | none =>
    have willing : event.recipient.optedOut = false := by
      cases out : event.recipient.optedOut with
      | false => rfl
      | true =>
        unfold Engine.preferenceGate at gate
        rw [out] at gate
        cases gate
    refine ⟨willing, ?_⟩
    rw [gate] at passed
    dsimp only at passed
    cases found : Engine.templateGate snapshot event with
    | error reason =>
      rw [found] at passed
      cases passed
    | ok template =>
      rw [found] at passed
      dsimp only [Bind.bind, Except.bind] at passed
      split at passed
      · cases passed
      · cases passed
        exact (sendable_iff.mp (List.mem_filter.mp sent).2).2

/-- An event of a request carries what its user's record says. -/
theorem of_mem_fanOut (member : event ∈ Enricher.fanOut snapshot raw) :
    event.projectId = raw.projectId ∧ ∃ profile,
      (snapshot.findRecordsByIds raw.projectId [event.recipientId]).reverse.find?
        (fun record => record.userId = event.recipientId) = some profile ∧
      event.recipient.optedOut =
        optedOutOf (Enricher.topicsOf snapshot raw.projectId raw.templateId) profile.topics := by
  obtain ⟨userId, _, profile, found, made⟩ := mem_fanOut_users.mp member
  obtain ⟨channels, chain, _, channel, _, made⟩ := mem_userEvents.mp made
  obtain ⟨resolved, _, rfl⟩ := of_mem_channelEvents made
  have named : profile.userId = userId := record_found found
  subst named
  exact ⟨rfl, profile, found, rfl⟩

/-- A key whose entries are all false, and that has one, is false. -/
theorem get_eq_false {record : Preference Text} {key : Text} (has : (key, false) ∈ record)
    (all : ∀ entry ∈ record, entry.1 = key → entry.2 = false) : record.get key = some false := by
  unfold Preference.get
  cases found : record.reverse.find? fun entry => entry.1 = key with
  | none =>
    have missed := List.find?_eq_none.mp found _ (List.mem_reverse.mpr has)
    exact absurd (decide_eq_true rfl) missed
  | some entry =>
    have own : entry.1 = key := by simpa using List.find?_some found
    have inside := List.mem_reverse.mp (List.mem_of_find?_eq_some found)
    rw [Option.map_some, all entry inside own]

end Gates

section Recorded

variable {snapshot after : Snapshot} {claim : UnsubscribeClaim} {user : UserRow}

/-- The user that is found is the one the claim names. -/
theorem userOf_eq_some (found : userOf snapshot claim = some user) :
    user ∈ snapshot.users ∧ user.projectId = claim.projectId ∧
      user.externalId = claim.userId := by
  have own := List.find?_some found
  rw [decide_eq_true_eq] at own
  exact ⟨List.mem_of_find?_eq_some found, own⟩

/-- Every topic of the statement is off afterwards, and none of its rows is on. -/
theorem disableTopics_eq_some {userId : Nat} {topics : List Text}
    (written : disableTopics snapshot userId topics = some after) :
    after.users = snapshot.users ∧
      (∀ topic ∈ topics, (⟨userId, topic, false⟩ : UserTopicRow) ∈ after.userTopics) ∧
      ∀ row ∈ after.userTopics, row.userId = userId → row.topic ∈ topics →
        row.enabled = false := by
  unfold disableTopics at written
  split at written
  next =>
    cases written
    refine ⟨rfl, fun topic listed => ?_, fun row inside own listed => ?_⟩
    · dsimp only
      rw [List.mem_append]
      by_cases stored : ∃ row ∈ snapshot.userTopics, row.userId = userId ∧ row.topic = topic
      · obtain ⟨row, inside, own, named⟩ := stored
        left
        apply List.mem_map.mpr
        refine ⟨row, inside, ?_⟩
        rw [if_pos ⟨own, named ▸ listed⟩, ← own, ← named]
      · right
        apply List.mem_map.mpr
        exact ⟨topic, List.mem_filter.mpr ⟨listed, by simpa using stored⟩, rfl⟩
    · rcases List.mem_append.mp inside with old | new
      · obtain ⟨source, _, rfl⟩ := List.mem_map.mp old
        split
        next => rfl
        next other =>
          rw [if_neg other] at own listed
          exact absurd ⟨own, listed⟩ other
      · obtain ⟨topic, _, rfl⟩ := List.mem_map.mp new
        rfl
  next => cases written

/-- A suppression is stored afterwards. -/
theorem mem_suppress (snapshot : Snapshot) (row : SuppressionRow) :
    row ∈ (suppress snapshot row).suppressions := by
  unfold suppress
  split
  next stored => exact stored
  next => exact List.mem_cons_self

end Recorded

/-- What an event carries on its way. -/
theorem Onward.keeps {first event : NotificationEnriched} (way : Onward first event) :
    event.projectId = first.projectId ∧ event.recipientId = first.recipientId ∧
      event.recipient = first.recipient := by
  induction way with
  | here => exact ⟨rfl, rfl, rfl⟩
  | next way chain inductionHypothesis => exact inductionHypothesis

/-- Mail to a user is for one who opted out of none of the template's topics, and at an address that
is not suppressed. -/
theorem Mails.willing {toLowerCase : Text → Text} {snapshot : Snapshot}
    {raw : NotificationRequested} {userId destination : Text}
    (mails : Mails toLowerCase snapshot raw userId destination) :
    (∃ profile, (snapshot.findRecordsByIds raw.projectId [userId]).reverse.find?
        (fun record => record.userId = userId) = some profile ∧
      optedOutOf (Enricher.topicsOf snapshot raw.projectId raw.templateId) profile.topics =
        false) ∧
      (destination ≠ [] → normaliseTarget toLowerCase destination ∉
        Engine.suppressedTargets toLowerCase snapshot raw.projectId .email) := by
  obtain ⟨first, member, event, way, named, mail, contacts, passed, contact, sent, rfl⟩ := mails
  obtain ⟨willing, clear⟩ := of_targets passed sent
  obtain ⟨sameProject, sameRecipient, sameProfile⟩ := way.keeps
  obtain ⟨project, profile, found, carried⟩ := of_mem_fanOut member
  rw [sameProfile, carried] at willing
  rw [sameProject, project, mail] at clear
  rw [← sameRecipient, named] at found
  exact ⟨⟨profile, found, willing⟩, clear⟩

/-- What the enricher sends on its own channel is mail. -/
theorem mails_of_makesTask {toLowerCase : Text → Text} {snapshot : Snapshot}
    {raw : NotificationRequested} {userId destination : Text}
    (task : MakesTask toLowerCase snapshot raw userId .email destination) :
    Mails toLowerCase snapshot raw userId destination := by
  obtain ⟨event, member, named, mail, sent⟩ := task
  exact ⟨event, member, event, .here event, named, mail, sent⟩

section Claims

variable {toLowerCase : Text → Text} {codec : Codec} {config : Config} {now after later : Snapshot}
  {template : TemplateRow} {claim : UnsubscribeClaim} {user : UserRow}

/-- The claim of a link is for a mail of the event's project, with its template's topics. -/
theorem unsubscribeClaim_eq_some {enriched : NotificationEnriched} {contact : UserContact}
    (issued : unsubscribeClaim config enriched template.topics contact = some claim) :
    claim.projectId = enriched.projectId ∧ claim.channel = NotificationChannel.email.name ∧
      claim.topics = template.topics ∧ template.topics ≠ [] := by
  unfold unsubscribeClaim at issued
  split at issued
  next conditions =>
    cases issued
    exact ⟨rfl, congrArg NotificationChannel.name conditions.1, rfl, conditions.2.1⟩
  next => cases issued

/-- A template that the gate found is the one its ids find. -/
theorem templateGate_eq_some {before : Snapshot} {enriched : NotificationEnriched}
    (found : Engine.templateGate before enriched = .ok (some template)) :
    template.projectId = enriched.projectId ∧ template.id ≠ [] := by
  unfold Engine.templateGate at found
  cases named : truthy enriched.templateId with
  | none =>
    rw [named] at found
    cases found
  | some id =>
    rw [named] at found
    dsimp only at found
    cases row : before.findTemplate enriched.projectId id with
    | none =>
      rw [row] at found
      cases found
    | some stored =>
      rw [row] at found
      cases found
      have own := List.find?_some row
      rw [decide_eq_true_eq] at own
      refine ⟨own.2, ?_⟩
      rw [own.1]
      exact (mem_truthy.mp named).2

/-- The handler writes what a token it can read asks for. -/
theorem unsubscribe_read (toLowerCase : Text → Text) (now : Snapshot) {token secret : Text}
    (hasSecret : truthy config.UNSUBSCRIBE_SECRET = some secret)
    (read : codec.verifyUnsubscribeToken token secret = some claim) :
    unsubscribe toLowerCase codec config now (some token) =
      match record toLowerCase now claim with
      | none => (500, now)
      | some after => (200, after) := by
  unfold unsubscribe
  rw [hasSecret, Option.bind_some, Option.getD_some, read]

/-- For a user who is there the topics are switched off. -/
theorem record_user (found : userOf now claim = some user) (topics : claim.topics ≠ []) :
    record toLowerCase now claim = disableTopics now user.id claim.topics := by
  unfold record
  rw [found]
  cases listed : claim.topics with
  | nil => exact absurd listed topics
  | cons topic rest => rfl

/-- For a user who is gone the address is suppressed. -/
theorem record_gone (gone : userOf now claim = none)
    (mail : claim.channel = NotificationChannel.email.name) :
    record toLowerCase now claim = some (suppress now
      ⟨claim.projectId, .email, normaliseTarget toLowerCase claim.target⟩) := by
  have channel : channelOf claim.channel = some .email := by rw [mail]; decide
  unfold record
  rw [gone, channel]
  cases claim.topics with
  | nil => rfl
  | cons topic rest => rfl

/-- The record that is read later is made of the row that was found. -/
theorem record_stands (found : userOf now claim = some user) (sameUsers : after.users = now.users)
    (stands : Stands claim after later) {profile : UserRecord}
    (isRecord : (later.readable.findRecordsByIds claim.projectId [claim.userId]).reverse.find?
      (fun record => record.userId = claim.userId) = some profile) :
    ∃ row : UserRow, row.id = user.id ∧ profile = later.readable.record row := by
  obtain ⟨isUser, userProject, userName⟩ := userOf_eq_some found
  have member := List.mem_reverse.mp (List.mem_of_find?_eq_some isRecord)
  obtain ⟨row, isRow, rfl⟩ := List.mem_map.mp member
  obtain ⟨isRow, asked⟩ := List.mem_filter.mp isRow
  rw [decide_eq_true_eq, List.mem_singleton] at asked
  refine ⟨row, ?_, rfl⟩
  apply after.usersUnique _ (stands.user row isRow asked.2 asked.1) _ (sameUsers ▸ isUser)
  · exact asked.2.trans userProject.symm
  · exact asked.1.trans userName.symm

/-- Once topics were switched off, of which an object of preferences holds one, mail with them finds
its user opted out. -/
theorem topics_stop (found : userOf now claim = some user)
    (written : disableTopics now user.id claim.topics = some after)
    (stands : Stands claim after later) {topic : Text} (listed : topic ∈ claim.topics)
    (plain : topic ≠ prototypeTopic) {raw : NotificationRequested}
    (project : raw.projectId = claim.projectId)
    (carried : Enricher.topicsOf later.readable raw.projectId raw.templateId = claim.topics)
    (destination : Text) : ¬ Mails toLowerCase later.readable raw claim.userId destination := by
  intro mails
  obtain ⟨⟨profile, isRecord, willing⟩, _⟩ := mails.willing
  obtain ⟨sameUsers, off, noneOn⟩ := disableTopics_eq_some written
  obtain ⟨isUser, userProject, userName⟩ := userOf_eq_some found
  have kept := stands.topics user (sameUsers ▸ isUser) userProject userName
  rw [project] at isRecord
  obtain ⟨row, sameId, rfl⟩ := record_stands found sameUsers stands isRecord
  have isOff : (later.readable.record row).topics.get topic = some false := by
    apply get_eq_false
    · apply List.mem_map.mpr
      refine ⟨⟨user.id, topic, false⟩, List.mem_filter.mpr ⟨List.mem_filter.mpr ⟨?_, ?_⟩, ?_⟩, rfl⟩
      · exact (kept ⟨user.id, topic, false⟩ rfl listed).mpr (off topic listed)
      · exact decide_eq_true plain
      · exact decide_eq_true sameId.symm
    · intro entry inside named
      obtain ⟨other, isOther, rfl⟩ := List.mem_map.mp inside
      obtain ⟨isOther, owned⟩ := List.mem_filter.mp isOther
      have owner : other.userId = user.id := (of_decide_eq_true owned).trans sameId
      have among : other.topic ∈ claim.topics := Eq.mpr (congrArg (· ∈ claim.topics) named) listed
      have stored := (kept other owner among).mp (List.mem_filter.mp isOther).1
      exact noneOn other stored owner among
  have out : optedOutOf claim.topics (later.readable.record row).topics = true :=
    List.any_eq_true.mpr ⟨topic, listed, decide_eq_true isOff⟩
  rw [carried, out] at willing
  cases willing

/-- A suppression stops mail to its address, however it is spelt. -/
theorem suppression_stops (lower : Suppressions.LowerCasing toLowerCase)
    (stored : (⟨claim.projectId, .email, normaliseTarget toLowerCase claim.target⟩ :
      SuppressionRow) ∈ later.suppressions)
    {raw : NotificationRequested} (project : raw.projectId = claim.projectId)
    {userId destination : Text} (text : destination ≠ [])
    (same : normaliseTarget toLowerCase destination = normaliseTarget toLowerCase claim.target) :
    ¬ Mails toLowerCase later.readable raw userId destination := by
  intro mails
  apply mails.willing.2 text
  rw [mem_suppressedTargets, same]
  exact ⟨_, stored, project.symm, rfl, Suppressions.normaliseTarget_normaliseTarget lower _⟩

/-- Topics that differ are switched off. -/
theorem disableTopics_nodup (now : Snapshot) (userId : Nat) {topics : List Text}
    (distinct : topics.Nodup) : ∃ after, disableTopics now userId topics = some after := by
  unfold disableTopics
  rw [if_pos distinct]
  exact ⟨_, rfl⟩

/-- The database takes no topic twice. -/
theorem nodup_of_disableTopics {userId : Nat} {topics : List Text}
    (written : disableTopics now userId topics = some after) : topics.Nodup := by
  unfold disableTopics at written
  split at written
  next distinct => exact distinct
  next => cases written

/-- A text of letters alone is looked up as it is. -/
theorem normaliseTarget_letters (count : Nat) :
    normaliseTarget toLowerCase (List.replicate (count + 1) 'x') =
      List.replicate (count + 1) 'x' := by
  have front : ∀ n, (List.replicate n 'x').dropWhile Text.isWhitespace = List.replicate n 'x' := by
    intro n
    cases n with
    | zero => rfl
    | succ n => rfl
  have trimmed : Text.trim (List.replicate (count + 1) 'x') = List.replicate (count + 1) 'x' := by
    unfold Text.trim
    rw [front, List.reverse_replicate, front, List.reverse_replicate]
  unfold normaliseTarget
  rw [trimmed]
  apply if_neg
  intro sign
  exact absurd (List.eq_of_mem_replicate sign) (by decide)

/-- There is an address that no suppression is for: one longer than all that are suppressed. -/
theorem exists_unsuppressed (toLowerCase : Text → Text) (snapshot : Snapshot) :
    ∃ destination : Text, destination ≠ [] ∧ ∀ row ∈ snapshot.suppressions,
      normaliseTarget toLowerCase row.target ≠ normaliseTarget toLowerCase destination := by
  let lengths := snapshot.suppressions.map fun row =>
    (normaliseTarget toLowerCase row.target).length
  refine ⟨List.replicate (lengths.sum + 1) 'x', List.cons_ne_nil _ _, fun row stored same => ?_⟩
  have listed : (normaliseTarget toLowerCase row.target).length ∈ lengths :=
    List.mem_map.mpr ⟨row, stored, rfl⟩
  have short := List.single_le_sum (fun _ _ => Nat.zero_le _) _ listed
  rw [same, normaliseTarget_letters, List.length_replicate] at short
  omega

/-- Tables of one user with one address, and one template. -/
def alone (userTopics : List UserTopicRow) (suppressions : List SuppressionRow) (user : UserRow)
    (template : TemplateRow) (destination : Text) : Snapshot where
  users := [user]
  userTopics := userTopics
  contacts := [⟨"contact".toList, user.id, .email, destination, true⟩]
  suppressions := suppressions
  templates := [template]
  usersUnique := by
    intro one isOne two isTwo _ _
    rw [List.mem_singleton.mp isOne, List.mem_singleton.mp isTwo]
  contactsUnique := by
    intro one isOne two isTwo _ _ _
    rw [List.mem_singleton.mp isOne, List.mem_singleton.mp isTwo]

/-- The template there is found. -/
theorem findTemplate_alone (userTopics : List UserTopicRow) (suppressions : List SuppressionRow)
    (user : UserRow) (template : TemplateRow) (destination : Text) :
    (alone userTopics suppressions user template destination).findTemplate template.projectId
      template.id = some template :=
  List.find?_cons_of_pos (decide_eq_true ⟨rfl, rfl⟩)

/-- The user there accepts mail with topics that an object does not hold. -/
theorem accepts_alone (project : user.projectId = claim.projectId)
    (named : user.externalId = claim.userId) {topics : List Text}
    (held : ∀ topic ∈ topics, topic = prototypeTopic) (userTopics : List UserTopicRow)
    (suppressions : List SuppressionRow) (destination : Text) :
    Accepts (alone userTopics suppressions user template destination).readable claim.projectId
      claim.userId .email topics destination where
  recipient := by
    refine ⟨(alone userTopics suppressions user template destination).readable.record user,
      ?_, ?_, ?_⟩
    · have asked : ∀ row ∈ [user], decide (row.externalId ∈ [claim.userId] ∧
          row.projectId = claim.projectId) = true := by
        intro row isRow
        rw [List.mem_singleton.mp isRow]
        exact decide_eq_true ⟨List.mem_singleton.mpr named, project⟩
      unfold Snapshot.findRecordsByIds
      change ((List.filter _ [user]).map _).reverse.find? _ = _
      rw [List.filter_eq_self.mpr asked]
      exact List.find?_cons_of_pos (decide_eq_true named)
    · unfold optedOutOf
      rw [List.any_eq_false]
      intro topic listed off
      obtain ⟨entry, isEntry, same⟩ := List.mem_map.mp
        (Preference.mem_of_get (of_decide_eq_true off))
      obtain ⟨row, isRow, rfl⟩ := List.mem_map.mp isEntry
      have plain := of_decide_eq_true (List.mem_filter.mp (List.mem_filter.mp isRow).1).2
      exact plain (same.trans (held topic listed))
    · exact nofun
  address := by
    refine ⟨_, Snapshot.mem_enabledContacts.mpr ⟨user, List.mem_singleton.mpr rfl, ⟨project, named⟩,
      _, List.mem_singleton.mpr rfl, ⟨rfl, rfl⟩, rfl⟩, rfl, rfl, ?_⟩
    exact List.any_eq_false.mpr fun topic listed => by simp [Snapshot.contact, Snapshot.readable, alone,
      Preference.get]

/-- Where all topics are the one an object does not hold, a user who switched them off is mailed. -/
theorem prototype_mailed (toLowerCase : Text → Text) (found : userOf now claim = some user)
    (written : disableTopics now user.id claim.topics = some after)
    (project : template.projectId = claim.projectId) (named : template.id ≠ [])
    (held : ∀ topic ∈ template.topics, topic = prototypeTopic) :
    ∃ later, Stands claim after later ∧
      later.findTemplate template.projectId template.id = some template ∧
      ∃ raw : NotificationRequested, raw.projectId = claim.projectId ∧
        raw.templateId = some template.id ∧ ∃ destination,
          Mails toLowerCase later.readable raw claim.userId destination := by
  obtain ⟨isUser, userProject, userName⟩ := userOf_eq_some found
  obtain ⟨destination, text, free⟩ := exists_unsuppressed toLowerCase after
  let later := alone after.userTopics after.suppressions user template destination
  have isTemplate : later.findTemplate template.projectId template.id = some template :=
    findTemplate_alone _ _ user template destination
  refine ⟨later, ?_, isTemplate, ?_⟩
  · constructor
    · intro row isRow _ _
      rw [List.mem_singleton.mp isRow, (disableTopics_eq_some written).1]
      exact isUser
    · exact fun _ _ _ _ _ _ _ => Iff.rfl
    · exact fun _ stored => stored
  let raw : NotificationRequested :=
    { projectId := claim.projectId
      eventId := []
      userIds := [claim.userId]
      templateId := some template.id }
  have present : ∀ id, truthy raw.templateId = some id →
      later.readable.findTemplate raw.projectId id = some template := by
    intro id isId
    obtain rfl := Option.some.inj (mem_truthy.mp isId).1
    rw [project] at isTemplate
    exact isTemplate
  have carried : Enricher.topicsOf later.readable raw.projectId raw.templateId =
      template.topics := by
    have isId : truthy raw.templateId = some template.id := mem_truthy.mpr ⟨rfl, named⟩
    unfold Enricher.topicsOf
    rw [isId, Option.bind_some, present _ isId]
    rfl
  refine ⟨raw, rfl, rfl, destination, mails_of_makesTask ?_⟩
  apply (makesTask_iff rfl (List.mem_singleton.mpr rfl) (List.mem_singleton.mpr rfl) text
    fun id isId gone => nomatch (present id isId).symm.trans gone).mpr
  rw [carried]
  refine ⟨accepts_alone userProject userName held _ _ destination, ?_⟩
  rintro ⟨row, stored, _, _, same⟩
  exact free row stored same

end Claims

/-- The POST of an email's link is honoured just when the user is gone, or no topic comes twice and
there is one an object of preferences holds. -/
theorem opt_out_honoured (toLowerCase : Text → Text) (lower : Suppressions.LowerCasing toLowerCase)
    (codec : Codec) (config : Config) (before now : Snapshot) (enriched : NotificationEnriched)
    (template : TemplateRow) (contact : UserContact) (claim : UnsubscribeClaim) (secret : Text)
    (sent : Engine.templateGate before enriched = .ok (some template))
    (issued : unsubscribeClaim config enriched template.topics contact = some claim)
    (hasSecret : truthy config.UNSUBSCRIBE_SECRET = some secret)
    (nothing : codec.parse [] = none)
    (parsed : codec.Reads (wireClaim claim))
    (read : codec.fromUtf8 (utf8 (codec.stringify (wireClaim claim))) =
      codec.stringify (wireClaim claim)) :
    Honoured toLowerCase codec config now template claim
        (codec.signUnsubscribeToken claim secret) ↔
      userOf now claim = none ∨
        (template.topics.Nodup ∧ ∃ topic ∈ template.topics, topic ≠ prototypeTopic) := by
  obtain ⟨project, named⟩ := templateGate_eq_some sent
  obtain ⟨sameProject, mail, topics, hasTopics⟩ := unsubscribeClaim_eq_some issued
  have handled := unsubscribe_read toLowerCase now hasSecret
    (verify_signed codec secret nothing parsed read)
  cases found : userOf now claim with
  | none =>
    rw [record_gone found mail] at handled
    apply iff_of_true _ (.inl rfl)
    refine ⟨_, handled, fun later => ⟨fun present => absurd found present, ?_⟩⟩
    intro _ kept raw rawProject userId destination text same
    exact suppression_stops lower (kept _ (mem_suppress _ _)) rawProject text same
  | some user =>
    rw [record_user found (topics ▸ hasTopics)] at handled
    constructor
    · rintro ⟨after, answered, stopped⟩
      right
      rw [handled] at answered
      cases written : disableTopics now user.id claim.topics with
      | none =>
        rw [written] at answered
        cases answered
      | some stored =>
        rw [written] at answered
        cases answered
        refine ⟨topics ▸ nodup_of_disableTopics written, ?_⟩
        by_contra held
        push Not at held
        obtain ⟨later, stands, sameTemplate, raw, rawProject, rawTemplate, destination, mailed⟩ :=
          prototype_mailed toLowerCase found written (project.trans sameProject.symm) named held
        have present : userOf now claim ≠ none := by
          rw [found]
          exact Option.some_ne_none user
        exact (stopped later).1 (found ▸ present) stands sameTemplate raw rawProject rawTemplate
          destination mailed
    · rintro (gone | ⟨distinct, topic, listed, plain⟩)
      · cases gone
      · obtain ⟨after, written⟩ := disableTopics_nodup now user.id
          (topics.symm ▸ distinct)
        rw [written] at handled
        refine ⟨after, handled, fun later => ⟨?_, fun gone => nomatch found.symm.trans gone⟩⟩
        intro _ stands sameTemplate raw rawProject rawTemplate destination
        have isId : truthy raw.templateId = some template.id := mem_truthy.mpr ⟨rawTemplate, named⟩
        have carried : Enricher.topicsOf later.readable raw.projectId raw.templateId =
            claim.topics := by
          unfold Enricher.topicsOf
          rw [isId, Option.bind_some, rawProject, sameProject, ← project, topics]
          exact congrArg (fun row => (Option.map TemplateRow.topics row).getD []) sameTemplate
        exact topics_stop found written stands (topics.symm ▸ listed) plain rawProject carried
          destination

/-- A template of the topics. -/
def newsTemplate (topics : List Text) : TemplateRow where
  projectId := "p1".toList
  id := "t1".toList
  topics := topics

/-- The tables of that template and one user. -/
def newsTables (topics : List Text) : Snapshot :=
  alone [] [] ⟨1, "p1".toList, "u1".toList, "UTC".toList⟩ (newsTemplate topics) "a@b.c".toList

/-- A mail of that template to the user. -/
def newsMail : NotificationEnriched :=
  { Suppressions.mail with
    projectId := "p1".toList
    recipientId := "u1".toList
    templateId := some "t1".toList }

def newsConfig : Config := ⟨some "key".toList, some "https://n".toList⟩

/-- The claim of a template that has its topic twice. -/
def twiceClaim : UnsubscribeClaim :=
  { newsClaim with topics := ["news".toList, "news".toList] }

/-- The text of that claim. -/
def twiceText : Text :=
  "\x7b\"p\":\"p1\",\"u\":\"u1\",\"c\":\"email\",\"t\":\"a@b.c\",\"k\":[\"news\",\"news\"]\x7d".toList

/-- How the language writes and reads it. -/
def twiceCodec : Codec where
  toJsonText := .one (wireClaim twiceClaim) twiceText
  fromUtf8 bytes := if bytes = utf8 twiceText then twiceText else []
  hmac _ _ := Vector.replicate 32 0

theorem twiceText_read : twiceCodec.fromUtf8 (utf8 twiceText) = twiceText := by
  change (if utf8 twiceText = utf8 twiceText then twiceText else []) = twiceText
  exact if_pos rfl

/-- A repeated topic keeps the database from recording anything. -/
theorem opt_out_refused :
    Engine.templateGate (newsTables twiceClaim.topics) newsMail =
        .ok (some (newsTemplate twiceClaim.topics)) ∧
      unsubscribeClaim newsConfig newsMail twiceClaim.topics
        (Suppressions.address "a@b.c".toList) = some twiceClaim ∧
      ¬ Honoured Text.toLowerCase twiceCodec newsConfig (newsTables twiceClaim.topics)
        (newsTemplate twiceClaim.topics) twiceClaim
        (twiceCodec.signUnsubscribeToken twiceClaim "key".toList) := by
  refine ⟨rfl, by decide, ?_⟩
  have handled : unsubscribe Text.toLowerCase twiceCodec newsConfig (newsTables twiceClaim.topics)
      (some (twiceCodec.signUnsubscribeToken twiceClaim "key".toList)) = _ :=
    unsubscribe_read _ _ rfl (verify_signed twiceCodec _ (JsonText.one_nothing (by decide))
      (JsonText.one_reads _ _) twiceText_read)
  have refused : record Text.toLowerCase (newsTables twiceClaim.topics) twiceClaim = none := by
    rfl
  rw [refused] at handled
  rintro ⟨after, answered, _⟩
  rw [handled] at answered
  cases answered

/-- A link of one topic is honoured. -/
theorem opt_out_honoured_news :
    Honoured id newsCodec newsConfig (newsTables newsClaim.topics) (newsTemplate newsClaim.topics)
      newsClaim (newsCodec.signUnsubscribeToken newsClaim "key".toList) := by
  have lower : Suppressions.LowerCasing id :=
    ⟨fun _ => rfl, fun _ => Iff.rfl, fun _ trimmed => trimmed⟩
  apply (opt_out_honoured id lower newsCodec newsConfig (newsTables newsClaim.topics)
    (newsTables newsClaim.topics) newsMail (newsTemplate newsClaim.topics)
    (Suppressions.address "a@b.c".toList) newsClaim "key".toList rfl (by decide) rfl
    (JsonText.one_nothing (by decide)) (JsonText.one_reads _ _) newsText_read).mpr
  exact .inr ⟨by decide, "news".toList, by decide, by decide⟩

end Notifkit.Unsubscribe
