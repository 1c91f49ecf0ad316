import Notifkit.Pipeline.FanOuts

/-!
# What a message has sent and what it owes

In every state the lookups of a loader that were not answered are just those that messages wait for.
So an answer goes to a slot that waits for it, and each slot is given the profile of its own id.
What a message has sent, together with what its slots and its other chunks owe, are the events of
its request; at the end nothing is owed.

As long as a message is under way there is a step that leaves less to do.
-/

namespace Notifkit.Pipeline.FanOuts

open Runs BatchLoaders

/-- The lookup that a slot waits for. -/
def slotWaits (projectId : Text) (index slot : Nat) (entry : Text × Option (Option UserRecord)) :
    Multiset (Lookup Text Text (Nat × Nat)) :=
  if entry.2.isNone then {⟨projectId, [entry.1], (index, slot)⟩} else 0

/-- The lookups of profiles that a message waits for. -/
def userWaits (index : Nat) (message : Message) : Multiset (Lookup Text Text (Nat × Nat)) :=
  match message.phase with
  | .profiles slots => waited (slotWaits message.request.raw.projectId index) slots
  | _ => 0

/-- The lookup of contacts that a message waits for. -/
def contactWaits (index : Nat) (message : Message) : Multiset (Lookup Text Text Nat) :=
  match message.phase with
  | .contacts profiles none =>
    {⟨message.request.raw.projectId, profiles.map UserRecord.userId, index⟩}
  | _ => 0

section Accounts

variable (database : Database) (limits : Limits)

/-- What was answered is what the rows say. -/
def Sound (message : Message) : Prop :=
  match message.phase with
  | .profiles slots => ∀ entry ∈ slots, ∀ value, entry.2 = some value →
      value = (rowOf database message.request.raw.projectId entry.1).map
        database.tables.readable.record
  | .contacts profiles found => ∀ profile ∈ profiles, ∃ user,
      rowOf database message.request.raw.projectId profile.userId = some user ∧
        profile = database.tables.readable.record user ∧ ∀ rows, found = some rows →
          ((rows.filter fun row => row.1 = profile.userId).map Prod.snd).Perm
            (activeContacts database user)
  | .finished => message.chunks = []
  | .received => True

/-- The events a request leads to: those it should, unless there are too many users. -/
def due (request : Requested) : Multiset NotificationEnriched :=
  if limits.maxUsers < (resolved database request).length then 0 else expected database request

/-- The ids of the chunk a message is at. -/
def currentIds (message : Message) : List Text :=
  match message.phase with
  | .profiles slots => slots.map Prod.fst
  | .contacts profiles _ => profiles.map UserRecord.userId
  | _ => []

/-- What a message still owes. -/
def owed (message : Message) : Multiset NotificationEnriched :=
  match message.phase with
  | .received => due database limits message.request
  | _ => ((currentIds message ++ message.chunks.flatten : List Text) : Multiset Text).bind
      (eventsOfId database message.request.raw)

/-- The events of a message among others. -/
def eventsOf (entries : List (Nat × NotificationEnriched)) (index : Nat) :
    Multiset NotificationEnriched :=
  ((entries.filter fun entry => entry.1 = index).map Prod.snd : List NotificationEnriched)

/-- Each message has sent and owes together what its request leads to. -/
structure Books (sent : Nat → Multiset NotificationEnriched) (messages : List Message) :
    Prop where
  sound : ∀ message ∈ messages, Sound database message
  account : ∀ index message, messages[index]? = some message →
    sent index + owed database limits message = due database limits message.request

/-- The books of a state, and the loaders' lookups. -/
structure Balanced (world : World) : Prop where
  users : (world.userBatch.pending : Multiset (Lookup Text Text (Nat × Nat))) =
    waited userWaits world.messages
  contacts : (world.contactBatch.pending : Multiset (Lookup Text Text Nat)) =
    waited contactWaits world.messages
  books : Books database limits (eventsOf (world.stream ++ world.eventBuffer)) world.messages
  known : ∀ entry ∈ world.stream ++ world.eventBuffer, entry.1 < world.messages.length

end Accounts

section Books

variable {database : Database} {limits : Limits} {sent : Nat → Multiset NotificationEnriched}
  {messages : List Message} {index : Nat} {message old : Message}

/-- A message that changes keeps the books where its own account is right. -/
theorem Books.set {later : Nat → Multiset NotificationEnriched}
    (books : Books database limits sent messages) (present : messages[index]? = some old)
    (sound : Sound database message)
    (account : later index + owed database limits message =
      due database limits message.request)
    (others : ∀ other, other ≠ index → later other = sent other) :
    Books database limits later (messages.set index message) where
  sound := Tables.all_set books.sound sound
  account := by
    intro other next found
    rcases (Tables.row_set present).mp found with ⟨rfl, rfl⟩ | ⟨apart, found⟩
    · exact account
    · rw [others other apart]
      exact books.account other next found

/-- A change at a place that is there. -/
theorem modify_present {α : Type} {entries : List α} {position : Nat} {entry : α}
    (present : entries[position]? = some entry) (change : α → α) :
    entries.modify position change = entries.set position (change entry) := by
  induction entries generalizing position with
  | nil => cases present
  | cons head rest inductionHypothesis =>
    cases position with
    | zero =>
      obtain rfl : head = entry := Option.some.inj present
      rfl
    | succ position => exact congrArg (head :: ·) (inductionHypothesis present)

/-- Where one party's wait for a lookup is over, the others' are as before. -/
theorem waited_over {α β : Type} {waits : Nat → α → Multiset β} {parties : List α} {position : Nat}
    {old new : α} {lookup : β} (present : parties[position]? = some old)
    (share : waits position old = lookup ::ₘ waits position new) :
    waited waits parties = lookup ::ₘ waited waits (parties.set position new) := by
  have account : waited waits (parties.set position new) + waits position old =
      waited waits parties + waits position new := waited_set present
  rw [share, Multiset.add_cons, ← Multiset.cons_add] at account
  exact (add_right_cancel account).symm

/-- Where a party waits for the same as before, all do. -/
theorem waited_same {α β : Type} {waits : Nat → α → Multiset β} {parties : List α} {position : Nat}
    {old new : α} (present : parties[position]? = some old)
    (share : waits position new = waits position old) :
    waited waits (parties.set position new) = waited waits parties := by
  have account : waited waits (parties.set position new) + waits position old =
      waited waits parties + waits position new := waited_set present
  rw [share] at account
  exact add_right_cancel account

/-- A change that keeps a property of the row keeps that property of all rows. -/
theorem map_set_same {α β : Type} {entries : List α} {position : Nat} {old new : α} (read : α → β)
    (present : entries[position]? = some old) (same : read new = read old) :
    (entries.set position new).map read = entries.map read := by
  rw [List.map_set, same]
  exact Tables.set_same (by rw [List.getElem?_map, present, Option.map_some])

/-- A change that keeps a property of every row. -/
theorem map_modify_same {α β : Type} (read : α → β) (change : α → α)
    (same : ∀ entry, read (change entry) = read entry) (entries : List α) (position : Nat) :
    (entries.modify position change).map read = entries.map read := by
  induction entries generalizing position with
  | nil => cases position <;> rfl
  | cons head rest inductionHypothesis =>
    cases position with
    | zero => exact congrArg (· :: rest.map read) (same head)
    | succ position => exact congrArg (read head :: ·) (inductionHypothesis position)

/-- Profiles that come in change nothing but slots. -/
theorem map_profiles {β : Type} (read : Message → β)
    (same : ∀ request chunks slots slots',
      read ⟨request, chunks, .profiles slots⟩ = read ⟨request, chunks, .profiles slots'⟩)
    (records : List UserRecord) (lookups : List (Lookup Text Text (Nat × Nat)))
    (messages : List Message) :
    (lookups.foldl (giveProfile records) messages).map read = messages.map read := by
  induction lookups generalizing messages with
  | nil => rfl
  | cons lookup rest inductionHypothesis =>
    apply (inductionHypothesis _).trans
    apply map_modify_same
    rintro ⟨request, chunks, phase⟩
    cases phase with
    | profiles slots => exact same request chunks _ slots
    | received => rfl
    | contacts profiles found => rfl
    | finished => rfl

/-- Contacts that come in change nothing but what was found. -/
theorem map_contacts {β : Type} (read : Message → β)
    (same : ∀ request chunks profiles found found',
      read ⟨request, chunks, .contacts profiles found⟩ =
        read ⟨request, chunks, .contacts profiles found'⟩)
    (rows : List (Text × UserContact)) (lookups : List (Lookup Text Text Nat))
    (messages : List Message) :
    (lookups.foldl (giveContacts rows) messages).map read = messages.map read := by
  induction lookups generalizing messages with
  | nil => rfl
  | cons lookup rest inductionHypothesis =>
    apply (inductionHypothesis _).trans
    apply map_modify_same
    rintro ⟨request, chunks, phase⟩
    cases phase with
    | contacts profiles found => exact same request chunks profiles _ found
    | received => rfl
    | profiles slots => rfl
    | finished => rfl

/-- A profile is given to the slot that waits for it, and to no other. -/
theorem give_profile {records : List UserRecord} {lookup : Lookup Text Text (Nat × Nat)}
    {rest : Multiset (Lookup Text Text (Nat × Nat))}
    (books : Books database limits sent messages)
    (waits : waited userWaits messages = lookup ::ₘ rest)
    (answer : ∀ userId ∈ lookup.keys,
      (records.reverse.find? fun record => record.userId ∈ [userId]) =
        (rowOf database lookup.group userId).map database.tables.readable.record) :
    Books database limits sent (giveProfile records messages lookup) ∧
      waited userWaits (giveProfile records messages lookup) = rest ∧
      waited contactWaits (giveProfile records messages lookup) = waited contactWaits messages := by
  have listed : lookup ∈ waited userWaits messages := waits ▸ Multiset.mem_cons_self _ _
  obtain ⟨index, message, present, waiting⟩ := mem_waited.mp listed
  obtain ⟨request, chunks, phase⟩ := message
  cases phase with
  | received => exact absurd waiting (Multiset.notMem_zero _)
  | contacts profiles found => exact absurd waiting (Multiset.notMem_zero _)
  | finished => exact absurd waiting (Multiset.notMem_zero _)
  | profiles slots =>
    obtain ⟨slot, ⟨userId, value⟩, atSlot, inSlot⟩ := mem_waited.mp waiting
    unfold slotWaits at inSlot
    split at inSlot
    next absent =>
      obtain rfl := Multiset.mem_singleton.mp inSlot
      let given := records.reverse.find? fun record => record.userId ∈ [userId]
      let told : Message := ⟨request, chunks, .profiles (slots.set slot (userId, some given))⟩
      have changed : giveProfile records messages
          ⟨request.raw.projectId, [userId], (index, slot)⟩ = messages.set index told := by
        unfold giveProfile
        rw [modify_present present]
        dsimp only
        rw [modify_present atSlot]
      have isGiven : given = (rowOf database request.raw.projectId userId).map
          database.tables.readable.record := answer userId (List.mem_singleton.mpr rfl)
      have slotOver : slotWaits request.raw.projectId index slot (userId, value) =
          ⟨request.raw.projectId, [userId], (index, slot)⟩ ::ₘ
            slotWaits request.raw.projectId index slot (userId, some given) := if_pos absent
      rw [changed]
      refine ⟨books.set present ?_ ?_ fun _ _ => rfl, ?_, waited_same present rfl⟩
      · -- The other slots hold what they held, this one what the rows say.
        have before := books.sound _ (List.mem_of_getElem? present)
        apply Tables.all_set before
        intro value same
        exact (Option.some.inj same).symm.trans isGiven
      · have ids : currentIds told = currentIds ⟨request, chunks, .profiles slots⟩ :=
          map_set_same Prod.fst atSlot rfl
        have before := books.account index _ present
        unfold owed at before ⊢
        dsimp only at before ⊢
        rw [ids]
        exact before
      · apply (Multiset.cons_inj_right _).mp
        exact (waited_over present (waited_over atSlot slotOver)).symm.trans waits
    next => exact absurd inSlot (Multiset.notMem_zero _)

/-- The profiles of a group are given one after the other. -/
theorem give_profiles {records : List UserRecord} {lookups : List (Lookup Text Text (Nat × Nat))}
    {rest : Multiset (Lookup Text Text (Nat × Nat))}
    (books : Books database limits sent messages)
    (waits : waited userWaits messages = ↑lookups + rest)
    (answer : ∀ lookup ∈ lookups, ∀ userId ∈ lookup.keys,
      (records.reverse.find? fun record => record.userId ∈ [userId]) =
        (rowOf database lookup.group userId).map database.tables.readable.record) :
    Books database limits sent (lookups.foldl (giveProfile records) messages) ∧
      waited userWaits (lookups.foldl (giveProfile records) messages) = rest ∧
      waited contactWaits (lookups.foldl (giveProfile records) messages) =
        waited contactWaits messages := by
  induction lookups generalizing messages with
  | nil => exact ⟨books, waits.trans (zero_add rest), rfl⟩
  | cons lookup more inductionHypothesis =>
    rw [List.forall_mem_cons] at answer
    rw [← Multiset.cons_coe, Multiset.cons_add] at waits
    obtain ⟨booked, waiting, contacts⟩ := give_profile books waits answer.1
    obtain ⟨booked, waiting, contacts'⟩ := inductionHypothesis booked waiting answer.2
    exact ⟨booked, waiting, contacts'.trans contacts⟩

/-- Contacts are given to the message that waits for them. -/
theorem give_contact {rows : List (Text × UserContact)} {lookup : Lookup Text Text Nat}
    {rest : Multiset (Lookup Text Text Nat)}
    (books : Books database limits sent messages)
    (waits : waited contactWaits messages = lookup ::ₘ rest)
    (answer : ∀ userId ∈ lookup.keys, ∀ user,
      rowOf database lookup.group userId = some user →
        ((rows.filter fun row => row.1 = userId).map Prod.snd).Perm
          (activeContacts database user)) :
    Books database limits sent (giveContacts rows messages lookup) ∧
      waited contactWaits (giveContacts rows messages lookup) = rest ∧
      waited userWaits (giveContacts rows messages lookup) = waited userWaits messages := by
  have listed : lookup ∈ waited contactWaits messages := waits ▸ Multiset.mem_cons_self _ _
  obtain ⟨index, message, present, waiting⟩ := mem_waited.mp listed
  obtain ⟨request, chunks, phase⟩ := message
  cases phase with
  | received => exact absurd waiting (Multiset.notMem_zero _)
  | profiles slots => exact absurd waiting (Multiset.notMem_zero _)
  | finished => exact absurd waiting (Multiset.notMem_zero _)
  | contacts profiles found =>
    cases found with
    | some rows => exact absurd waiting (Multiset.notMem_zero _)
    | none =>
      obtain rfl := Multiset.mem_singleton.mp waiting
      let told : Message := ⟨request, chunks, .contacts profiles (some rows)⟩
      have changed : giveContacts rows messages
          ⟨request.raw.projectId, profiles.map UserRecord.userId, index⟩ =
            messages.set index told := by
        unfold giveContacts
        rw [modify_present present]
      have replaced : contactWaits index ⟨request, chunks, .contacts profiles none⟩ =
          ⟨request.raw.projectId, profiles.map UserRecord.userId, index⟩ ::ₘ
            contactWaits index told := rfl
      rw [changed]
      have account := books.account index _ present
      refine ⟨books.set present ?_ account fun _ _ => rfl, ?_, waited_same present rfl⟩
      · intro profile isProfile
        obtain ⟨user, isUser, isRecord, _⟩ :=
          books.sound _ (List.mem_of_getElem? present) profile isProfile
        refine ⟨user, isUser, isRecord, fun given same => ?_⟩
        obtain rfl := Option.some.inj same
        exact answer _ (List.mem_map_of_mem isProfile) user isUser
      · apply (Multiset.cons_inj_right _).mp
        exact (waited_over present replaced).symm.trans waits

/-- The contacts of a group are given to one message after the other. -/
theorem give_contacts {rows : List (Text × UserContact)} {lookups : List (Lookup Text Text Nat)}
    {rest : Multiset (Lookup Text Text Nat)}
    (books : Books database limits sent messages)
    (waits : waited contactWaits messages = ↑lookups + rest)
    (answer : ∀ lookup ∈ lookups, ∀ userId ∈ lookup.keys, ∀ user,
      rowOf database lookup.group userId = some user →
        ((rows.filter fun row => row.1 = userId).map Prod.snd).Perm
          (activeContacts database user)) :
    Books database limits sent (lookups.foldl (giveContacts rows) messages) ∧
      waited contactWaits (lookups.foldl (giveContacts rows) messages) = rest ∧
      waited userWaits (lookups.foldl (giveContacts rows) messages) =
        waited userWaits messages := by
  induction lookups generalizing messages with
  | nil => exact ⟨books, waits.trans (zero_add rest), rfl⟩
  | cons lookup more inductionHypothesis =>
    rw [List.forall_mem_cons] at answer
    rw [← Multiset.cons_coe, Multiset.cons_add] at waits
    obtain ⟨booked, waiting, users⟩ := give_contact books waits answer.1
    obtain ⟨booked, waiting, users'⟩ := inductionHypothesis booked waiting answer.2
    exact ⟨booked, waiting, users'.trans users⟩

end Books

section Chunks

variable {database : Database} {limits : Limits} {world : World} {index : Nat} {message : Message}

/-- A chunk begins with all its slots waiting. -/
theorem waits_begun (request : Requested) (chunks : List (List Text)) (index : Nat)
    (chunk : List Text) :
    userWaits index ⟨request, chunks, .profiles (chunk.map fun userId => (userId, none))⟩ =
      (userLookups request.raw.projectId index chunk : Multiset _) :=
  waited_map chunk _ _ fun _ _ => rfl

/-- A message that waits for nothing goes on with its next chunk where its account is right. -/
theorem Balanced.nextChunk (balanced : Balanced database limits world)
    (present : world.messages[index]? = some message)
    (noUsers : userWaits index message = 0) (noContacts : contactWaits index message = 0)
    {chunks : List (List Text)} {stream buffer : List (Nat × NotificationEnriched)}
    (account : eventsOf (stream ++ buffer) index +
        (chunks.flatten : Multiset Text).bind (eventsOfId database message.request.raw) =
      due database limits message.request)
    (others : ∀ other, other ≠ index → eventsOf (stream ++ buffer) other =
      eventsOf (world.stream ++ world.eventBuffer) other)
    (known : ∀ entry ∈ stream ++ buffer, entry.1 < world.messages.length) :
    Balanced database limits (FanOuts.nextChunk limits
      { world with stream := stream, eventBuffer := buffer } index
      { message with chunks := chunks }) := by
  obtain ⟨users, contacts, books, _⟩ := balanced
  obtain ⟨request, before, phase⟩ := message
  cases chunks with
  | nil =>
    let done : Message := ⟨request, [], .finished⟩
    constructor
    · change _ = waited userWaits (world.messages.set index done)
      exact users.trans (waited_same present noUsers.symm).symm
    · change _ = waited contactWaits (world.messages.set index done)
      exact contacts.trans (waited_same present noContacts.symm).symm
    · exact books.set present rfl account others
    · intro entry listed
      change entry.1 < (world.messages.set index done).length
      rw [List.length_set]
      exact known entry listed
  | cons chunk rest =>
    let begun : Message := ⟨request, rest, .profiles (chunk.map fun userId => (userId, none))⟩
    constructor
    · change ((world.userBatch.loadAll _ _).pending : Multiset _) =
        waited userWaits (world.messages.set index begun)
      have share : waited userWaits (world.messages.set index begun) +
          userWaits index ⟨request, before, phase⟩ = _ := waited_set present
      rw [noUsers, add_zero] at share
      rw [Multiset.coe_eq_coe.mpr (Loader.pending_loadAll _ _ _), ← Multiset.coe_add, users,
        ← waits_begun request rest, add_comm]
      exact share.symm
    · change _ = waited contactWaits (world.messages.set index begun)
      exact contacts.trans (waited_same present noContacts.symm).symm
    · refine books.set present ?_ ?_ others
      · intro entry listed value same
        obtain ⟨userId, _, rfl⟩ := List.mem_map.mp listed
        cases same
      · have ids : currentIds begun = chunk := by
          change (chunk.map _).map Prod.fst = chunk
          rw [List.map_map]
          exact List.map_id chunk
        unfold owed
        dsimp only
        rw [ids]
        exact account
    · intro entry listed
      change entry.1 < (world.messages.set index begun).length
      rw [List.length_set]
      exact known entry listed

end Chunks

section Steps

variable {database : Database} {limits : Limits} {world after : World} {index : Nat}
  {message : Message}

/-- The ids of a request, in any order, owe what the request leads to. -/
theorem owed_resolved {request : Requested} {userIds : List Text}
    (answered : userIds.Perm (resolved database request))
    (within : ¬ limits.maxUsers < userIds.length) :
    (userIds : Multiset Text).bind (eventsOfId database request.raw) =
      due database limits request := by
  unfold due
  rw [← answered.length_eq, if_neg within, Multiset.coe_eq_coe.mpr answered]
  exact resolved_events database request

/-- The events of a chunk are those its profiles owe. -/
theorem chunkEvents_eq {raw : NotificationRequested} {profiles : List UserRecord}
    {rows : List (Text × UserContact)}
    (sound : ∀ profile ∈ profiles, ∃ user, rowOf database raw.projectId profile.userId = some user ∧
      profile = database.tables.readable.record user ∧
        ((rows.filter fun row => row.1 = profile.userId).map Prod.snd).Perm
          (activeContacts database user)) :
    (chunkEvents (topicsOf database raw) raw profiles rows : Multiset NotificationEnriched) =
      ((profiles.map UserRecord.userId : List Text) : Multiset Text).bind
        (eventsOfId database raw) := by
  unfold chunkEvents
  rw [← Multiset.coe_bind, ← Multiset.map_coe, Multiset.bind_map]
  apply Multiset.bind_congr
  intro profile listed
  obtain ⟨user, isUser, isRecord, own⟩ := sound profile (Multiset.mem_coe.mp listed)
  unfold eventsOfId
  rw [isUser, Option.map_some, Option.getD_some, ← userEvents_eq raw own]
  exact congrArg (fun record => (Enricher.userEvents raw (topicsOf database raw) record
    ((rows.filter fun row => row.1 = profile.userId).map Prod.snd) :
      Multiset NotificationEnriched)) isRecord

/-- Profiles are there for all slots just where no slot waits. -/
theorem filled_iff {slots : List (Text × Option (Option UserRecord))} :
    (∃ values, slots.mapM Prod.snd = some values) ↔ ∀ entry ∈ slots, entry.2 ≠ none := by
  induction slots with
  | nil => exact ⟨fun _ entry listed => absurd listed List.not_mem_nil, fun _ => ⟨[], rfl⟩⟩
  | cons entry rest inductionHypothesis =>
    rw [List.forall_mem_cons, ← inductionHypothesis, List.mapM_cons]
    constructor
    · rintro ⟨values, filled⟩
      obtain ⟨value, isValue, filled⟩ := Option.bind_eq_some_iff.mp filled
      obtain ⟨more, others, _⟩ := Option.bind_eq_some_iff.mp filled
      exact ⟨Option.ne_none_iff_exists'.mpr ⟨value, isValue⟩, more, others⟩
    · rintro ⟨some, more, others⟩
      obtain ⟨value, isValue⟩ := Option.ne_none_iff_exists'.mp some
      rw [isValue, others]
      exact ⟨value :: more, rfl⟩

/-- Slots that are all filled wait for nothing. -/
theorem waited_filled {slots : List (Text × Option (Option UserRecord))}
    (filled : ∀ entry ∈ slots, entry.2 ≠ none) (projectId : Text) (index : Nat) :
    waited (slotWaits projectId index) slots = 0 := by
  apply Multiset.eq_zero_of_forall_notMem
  intro lookup listed
  obtain ⟨slot, entry, present, waiting⟩ := mem_waited.mp listed
  have some := filled entry (List.mem_of_getElem? present)
  unfold slotWaits at waiting
  rw [if_neg fun none => some (Option.isNone_iff_eq_none.mp none)] at waiting
  exact Multiset.notMem_zero _ waiting

/-- Once all slots are filled, the profiles found owe what the ids owed. -/
theorem profiles_owe {raw : NotificationRequested}
    {slots : List (Text × Option (Option UserRecord))} {values : List (Option UserRecord)}
    (filled : slots.mapM Prod.snd = some values)
    (sound : ∀ entry ∈ slots, ∀ value, entry.2 = some value →
      value = (rowOf database raw.projectId entry.1).map database.tables.readable.record) :
    (∀ profile ∈ values.filterMap id, ∃ user,
      rowOf database raw.projectId profile.userId = some user ∧
        profile = database.tables.readable.record user) ∧
      (((values.filterMap id).map UserRecord.userId : List Text) : Multiset Text).bind
        (eventsOfId database raw) =
          ((slots.map Prod.fst : List Text) : Multiset Text).bind (eventsOfId database raw) := by
  induction slots generalizing values with
  | nil =>
    obtain rfl := Option.some.inj filled
    exact ⟨fun profile listed => absurd listed List.not_mem_nil, rfl⟩
  | cons entry rest inductionHypothesis =>
    rw [List.mapM_cons] at filled
    obtain ⟨value, isValue, filled⟩ := Option.bind_eq_some_iff.mp filled
    obtain ⟨more, others, filled⟩ := Option.bind_eq_some_iff.mp filled
    obtain rfl := Option.some.inj filled
    rw [List.forall_mem_cons] at sound
    obtain ⟨known, owe⟩ := inductionHypothesis others sound.2
    have own := sound.1 value isValue
    rw [List.map_cons, ← Multiset.cons_coe, Multiset.cons_bind, ← owe]
    unfold eventsOfId at *
    cases found : rowOf database raw.projectId entry.1 with
    | none =>
      rw [found, Option.map_none] at own
      rw [own, List.filterMap_cons_none rfl, Option.map_none, Option.getD_none, zero_add]
      exact ⟨known, rfl⟩
    | some user =>
      rw [found, Option.map_some] at own
      have named : user.externalId = entry.1 := (rowOf_eq_some.mp found).2.2
      have isRow : rowOf database raw.projectId
          (database.tables.readable.record user).userId = some user :=
        (congrArg (rowOf database raw.projectId) named).trans found
      have kept : (some (database.tables.readable.record user) :: more).filterMap id =
          database.tables.readable.record user :: more.filterMap id :=
        List.filterMap_cons_some rfl
      rw [own, kept, List.map_cons, ← Multiset.cons_coe, Multiset.cons_bind, isRow]
      exact ⟨List.forall_mem_cons.mpr ⟨⟨user, isRow, rfl⟩, known⟩, rfl⟩

theorem eventsOf_append (first second : List (Nat × NotificationEnriched)) (index : Nat) :
    eventsOf (first ++ second) index = eventsOf first index + eventsOf second index := by
  unfold eventsOf
  rw [List.filter_append, List.map_append, Multiset.coe_add]

theorem eventsOf_perm {first second : List (Nat × NotificationEnriched)}
    (same : first.Perm second) (index : Nat) : eventsOf first index = eventsOf second index :=
  Multiset.coe_eq_coe.mpr ((same.filter _).map _)

/-- The events a message just made are its own. -/
theorem eventsOf_made (events : List NotificationEnriched) (index : Nat) :
    eventsOf (events.map fun event => (index, event)) index = events := by
  unfold eventsOf
  rw [List.filter_eq_self.mpr, List.map_map]
  · exact congrArg _ (List.map_id events)
  · intro entry listed
    obtain ⟨event, _, rfl⟩ := List.mem_map.mp listed
    exact decide_eq_true rfl

theorem eventsOf_others {entries : List (Nat × NotificationEnriched)} {other : Nat}
    (apart : ∀ entry ∈ entries, entry.1 ≠ other) : eventsOf entries other = 0 := by
  unfold eventsOf
  rw [List.filter_eq_nil_iff.mpr fun entry listed same =>
    apart entry listed (of_decide_eq_true same)]
  rfl

/-- A request that comes in owes what it leads to. -/
theorem balanced_receive (balanced : Balanced database limits world) (request : Requested) :
    Balanced database limits { world with messages := world.messages ++ [{ request }] } := by
  obtain ⟨users, contacts, books, known⟩ := balanced
  constructor
  · exact users.trans (waited_append _ |>.trans (add_zero _)).symm
  · exact contacts.trans (waited_append _ |>.trans (add_zero _)).symm
  · constructor
    · exact Tables.all_append books.sound trivial
    · intro index message found
      rcases Tables.row_append.mp found with old | ⟨rfl, rfl⟩
      · exact books.account index message old
      · have none : eventsOf (world.stream ++ world.eventBuffer) world.messages.length = 0 :=
          eventsOf_others fun entry listed => Nat.ne_of_lt (known entry listed)
        rw [none, zero_add]
        rfl
  · intro entry listed
    rw [List.length_append, List.length_singleton]
    exact Nat.lt_succ_of_lt (known entry listed)

/-- The users of a target are resolved. -/
theorem balanced_resolve (balanced : Balanced database limits world)
    (present : world.messages[index]? = some message) (received : message.phase = .received)
    {chunks : List (List Text)}
    (owes : (chunks.flatten : Multiset Text).bind (eventsOfId database message.request.raw) =
      due database limits message.request) :
    Balanced database limits (nextChunk limits world index { message with chunks := chunks }) := by
  have account := balanced.books.account index _ present
  have waitsNone : userWaits index message = 0 ∧ contactWaits index message = 0 := by
    unfold userWaits contactWaits
    rw [received]
    exact ⟨rfl, rfl⟩
  unfold owed at account
  rw [received] at account
  apply balanced.nextChunk present waitsNone.1 waitsNone.2 (owes ▸ account) (fun _ _ => rfl)
    balanced.known

/-- A chunk's events are sent. -/
theorem balanced_enrich (balanced : Balanced database limits world)
    (present : world.messages[index]? = some message) {profiles : List UserRecord}
    {rows : List (Text × UserContact)} (answered : message.phase = .contacts profiles (some rows))
    {stream buffer : List (Nat × NotificationEnriched)}
    (sent : (stream ++ buffer).Perm (world.stream ++ world.eventBuffer ++
      (chunkEvents (topicsOf database message.request.raw) message.request.raw profiles rows).map
        fun event => (index, event))) :
    Balanced database limits (nextChunk limits
      { world with stream := stream, eventBuffer := buffer } index message) := by
  have account := balanced.books.account index _ present
  have sound := balanced.books.sound _ (List.mem_of_getElem? present)
  have waitsNone : userWaits index message = 0 ∧ contactWaits index message = 0 := by
    unfold userWaits contactWaits
    rw [answered]
    exact ⟨rfl, rfl⟩
  unfold owed currentIds at account
  unfold Sound at sound
  rw [answered] at account sound
  apply balanced.nextChunk present waitsNone.1 waitsNone.2
  · rw [eventsOf_perm sent, eventsOf_append, eventsOf_made, chunkEvents_eq, add_assoc,
      ← Multiset.add_bind, Multiset.coe_add]
    · exact account
    · intro profile listed
      obtain ⟨user, isUser, isRecord, own⟩ := sound profile listed
      exact ⟨user, isUser, isRecord, own rows rfl⟩
  · intro other apart
    rw [eventsOf_perm sent, eventsOf_append]
    have none : eventsOf ((chunkEvents (topicsOf database message.request.raw) message.request.raw
        profiles rows).map fun event => (index, event)) other = 0 := by
      apply eventsOf_others
      intro entry listed
      obtain ⟨event, _, rfl⟩ := List.mem_map.mp listed
      exact apart.symm
    rw [none, add_zero]
  · intro entry listed
    rcases List.mem_append.mp (sent.mem_iff.mp listed) with old | made
    · exact balanced.known entry old
    · obtain ⟨event, _, rfl⟩ := List.mem_map.mp made
      exact (List.getElem?_eq_some_iff.mp present).1

/-- The contacts of a chunk's profiles are asked for. -/
theorem balanced_loadContacts (balanced : Balanced database limits world)
    (present : world.messages[index]? = some message)
    {slots : List (Text × Option (Option UserRecord))} (begun : message.phase = .profiles slots)
    {values : List (Option UserRecord)} (filled : slots.mapM Prod.snd = some values) :
    Balanced database limits { world with
      messages := world.messages.set index
        { message with phase := .contacts (values.filterMap id) none }
      contactBatch := world.contactBatch.load limits.batchSize
        ⟨message.request.raw.projectId, (values.filterMap id).map UserRecord.userId, index⟩ } := by
  obtain ⟨users, contacts, books, known⟩ := balanced
  obtain ⟨request, chunks, phase⟩ := message
  obtain rfl : phase = .profiles slots := begun
  have sound := books.sound _ (List.mem_of_getElem? present)
  have account := books.account index _ present
  obtain ⟨known', owe⟩ := profiles_owe filled sound
  let asking : Message := ⟨request, chunks, .contacts (values.filterMap id) none⟩
  have noUsers : userWaits index ⟨request, chunks, .profiles slots⟩ = 0 :=
    waited_filled (filled_iff.mp ⟨values, filled⟩) _ _
  constructor
  · change _ = waited userWaits (world.messages.set index asking)
    exact users.trans (waited_same present noUsers.symm).symm
  · change ((world.contactBatch.load _ _).pending : Multiset _) =
      waited contactWaits (world.messages.set index asking)
    have share : waited contactWaits (world.messages.set index asking) + 0 =
      waited contactWaits world.messages + contactWaits index asking := waited_set present
    rw [Multiset.coe_eq_coe.mpr (Loader.pending_load _ _ _), ← Multiset.cons_coe, contacts,
      ← Multiset.singleton_add, add_comm]
    exact share.symm.trans (add_zero _)
  · refine books.set present ?_ ?_ fun _ _ => rfl
    · intro profile listed
      obtain ⟨user, isUser, isRecord⟩ := known' profile listed
      exact ⟨user, isUser, isRecord, fun rows answered =>
        absurd answered (Option.some_ne_none rows).symm⟩
    · unfold owed currentIds at account ⊢
      dsimp only at account ⊢
      rw [← Multiset.coe_add, Multiset.add_bind] at account ⊢
      rw [owe]
      exact account
  · intro entry listed
    rw [List.length_set]
    exact known entry listed

/-- Profiles come in. -/
theorem balanced_findRecords (balanced : Balanced database limits world) {flight : Nat}
    {filed : Filed Text Text (Nat × Nat)} {loader : Loader Text Text (Nat × Nat)}
    (taken : world.userBatch.answer flight = some (filed, loader)) {records : List UserRecord}
    (answered : records.Perm
      (database.tables.readable.findRecordsByIds filed.group filed.keys)) :
    Balanced database limits { world with
      userBatch := loader
      messages := filed.lookups.foldl (giveProfile records) world.messages } := by
  obtain ⟨users, contacts, books, known⟩ := balanced
  rw [Multiset.coe_eq_coe.mpr (Loader.pending_answer taken), ← Multiset.coe_add] at users
  have answers : ∀ lookup ∈ filed.lookups, ∀ userId ∈ lookup.keys,
      (records.reverse.find? fun record => record.userId ∈ [userId]) =
        (rowOf database lookup.group userId).map database.tables.readable.record := by
    intro lookup listed userId asked
    rw [filed.own lookup listed]
    exact find_record answered (filed.mem_keys listed asked)
  obtain ⟨booked, waiting, contacts'⟩ := give_profiles books users.symm answers
  have requests := map_profiles Message.request (fun _ _ _ _ => rfl) records filed.lookups
    world.messages
  have same := congrArg List.length requests
  rw [List.length_map, List.length_map] at same
  exact ⟨waiting.symm, contacts.trans contacts'.symm, booked,
    fun entry listed => same ▸ known entry listed⟩

/-- Contacts come in. -/
theorem balanced_findContacts (balanced : Balanced database limits world) {flight : Nat}
    {filed : Filed Text Text Nat} {loader : Loader Text Text Nat}
    (taken : world.contactBatch.answer flight = some (filed, loader))
    {rows : List (Text × UserContact)}
    (answered : rows.Perm (contactRows database filed.group filed.keys)) :
    Balanced database limits { world with
      contactBatch := loader
      messages := filed.lookups.foldl (giveContacts rows) world.messages } := by
  obtain ⟨users, contacts, books, known⟩ := balanced
  rw [Multiset.coe_eq_coe.mpr (Loader.pending_answer taken), ← Multiset.coe_add] at contacts
  have answers : ∀ lookup ∈ filed.lookups, ∀ userId ∈ lookup.keys, ∀ user,
      rowOf database lookup.group userId = some user →
        ((rows.filter fun row => row.1 = userId).map Prod.snd).Perm
          (activeContacts database user) := by
    intro lookup listed userId asked user isUser
    rw [filed.own lookup listed] at isUser
    exact filter_contacts isUser answered (filed.mem_keys listed asked)
  obtain ⟨booked, waiting, users'⟩ := give_contacts books contacts.symm answers
  have requests := map_contacts Message.request (fun _ _ _ _ _ => rfl) rows filed.lookups
    world.messages
  have same := congrArg List.length requests
  rw [List.length_map, List.length_map] at same
  exact ⟨users.trans users'.symm, waiting.symm, booked,
    fun entry listed => same ▸ known entry listed⟩

/-- Every step keeps the balance. -/
theorem balanced_step (balanced : Balanced database limits world) {action : Action}
    (taken : step database limits world action = some after) :
    Balanced database limits after := by
  cases action with
  | receive request =>
    obtain rfl := Option.some.inj taken
    exact balanced_receive balanced request
  | resolve index userIds =>
    obtain ⟨message, present, taken⟩ := Option.bind_eq_some_iff.mp taken
    split at taken
    next received =>
      obtain ⟨answered, taken⟩ := Option.ite_none_right_eq_some.mp taken
      by_cases excess : limits.maxUsers < userIds.length
      · rw [if_pos excess] at taken
        obtain rfl := Option.some.inj taken
        apply balanced_resolve balanced present received
        unfold due
        rw [← answered.length_eq, if_pos excess]
        rfl
      · rw [if_neg excess] at taken
        obtain rfl := Option.some.inj taken
        apply balanced_resolve balanced present received
        rw [flatten_chunkArray _ (by decide)]
        exact owed_resolved answered excess
    next => cases taken
  | flushUserBatch =>
    obtain ⟨_, taken⟩ := Option.ite_none_right_eq_some.mp taken
    obtain rfl := Option.some.inj taken
    have same := Multiset.coe_eq_coe.mpr (Loader.pending_fire world.userBatch)
    exact { balanced with users := same.trans balanced.users }
  | findRecords flight records =>
    obtain ⟨⟨filed, loader⟩, answer, taken⟩ := Option.bind_eq_some_iff.mp taken
    obtain ⟨answered, taken⟩ := Option.ite_none_right_eq_some.mp taken
    obtain rfl := Option.some.inj taken
    exact balanced_findRecords balanced answer answered
  | loadContacts index =>
    obtain ⟨message, present, taken⟩ := Option.bind_eq_some_iff.mp taken
    split at taken
    next slots begun =>
      obtain ⟨values, filled, taken⟩ := Option.bind_eq_some_iff.mp taken
      obtain rfl := Option.some.inj taken
      exact balanced_loadContacts balanced present begun filled
    next => cases taken
  | flushContactBatch =>
    obtain ⟨_, taken⟩ := Option.ite_none_right_eq_some.mp taken
    obtain rfl := Option.some.inj taken
    have same := Multiset.coe_eq_coe.mpr (Loader.pending_fire world.contactBatch)
    exact { balanced with contacts := same.trans balanced.contacts }
  | findContacts flight rows =>
    obtain ⟨⟨filed, loader⟩, answer, taken⟩ := Option.bind_eq_some_iff.mp taken
    obtain ⟨answered, taken⟩ := Option.ite_none_right_eq_some.mp taken
    obtain rfl := Option.some.inj taken
    exact balanced_findContacts balanced answer answered
  | enrich index =>
    obtain ⟨message, present, taken⟩ := Option.bind_eq_some_iff.mp taken
    split at taken
    next profiles rows answered =>
      obtain rfl := Option.some.inj taken
      split
      · apply balanced_enrich balanced present answered
        rw [List.append_assoc, List.append_assoc]
        exact List.perm_append_comm.append_left _
      · apply balanced_enrich balanced present answered
        rw [List.append_assoc]
    next => cases taken
  | flushWorkerBuffers =>
    obtain rfl := Option.some.inj taken
    obtain ⟨users, contacts, books, known⟩ := balanced
    refine ⟨users, contacts, ?_, ?_⟩
    · rw [List.append_nil]
      exact books
    · rw [List.append_nil]
      exact known

end Steps

section Progress

variable (database : Database) {limits : Limits} {world : World}

/-- The turns that chunks lead to. -/
def chunkWork (chunks : List (List Text)) : Nat := 2 * chunks.flatten.length + 5 * chunks.length

/-- The turns that a message leads to. -/
def messageWork (message : Message) : Nat :=
  match message.phase with
  | .received => chunkWork (chunkArray (resolved database message.request) 500) + 1
  | .profiles _ => chunkWork message.chunks + 4
  | .contacts _ _ => chunkWork message.chunks + 1
  | .finished => 0

/-- The turns that the messages and their lookups lead to. -/
def lookupWork (world : World) : Nat :=
  (world.messages.map (messageWork database)).sum + world.userBatch.work + world.contactBatch.work

/-- How many turns are left at most. -/
def work (world : World) : Nat :=
  2 * lookupWork database world + if world.eventBuffer = [] then 0 else 1

/-- Every message is finished, and its events are out. -/
def Final (world : World) : Prop :=
  world.eventBuffer = [] ∧ ∀ message ∈ world.messages, message.phase = .finished

variable {database}

/-- The chunks' turns depend on the number of ids. -/
theorem chunkWork_perm {first second : List Text} (same : first.Perm second) :
    chunkWork (chunkArray first 500) = chunkWork (chunkArray second 500) := by
  unfold chunkWork
  rw [flatten_chunkArray _ (by decide), flatten_chunkArray _ (by decide)]
  unfold chunkArray
  rw [List.length_map, List.length_map, same.length_eq]

/-- Fewer turns of messages and lookups are fewer turns. -/
theorem work_lt {before after : World}
    (fewer : lookupWork database after < lookupWork database before) :
    work database after < work database before := by
  unfold work
  split <;> split <;> omega

/-- The next chunk takes the turns that were left for it. -/
theorem lookupWork_nextChunk (limits : Limits) {index : Nat} {old message : Message}
    (present : world.messages[index]? = some old)
    (left : chunkWork message.chunks < messageWork database old) :
    lookupWork database (nextChunk limits world index message) < lookupWork database world := by
  obtain ⟨request, chunks, phase⟩ := message
  have sums : ∀ new : Message, ((world.messages.set index new).map (messageWork database)).sum +
      messageWork database old = (world.messages.map (messageWork database)).sum +
        messageWork database new := fun new => Tables.sum_set present
  cases chunks with
  | nil =>
    have sum := sums ⟨request, [], .finished⟩
    unfold lookupWork nextChunk
    change _ = _ + 0 at sum
    dsimp only
    omega
  | cons chunk rest =>
    have sum := sums ⟨request, rest, .profiles (chunk.map fun userId => (userId, none))⟩
    have asked := Loader.work_loadAll limits.batchSize world.userBatch
      (userLookups request.raw.projectId index chunk)
    have size : (userLookups request.raw.projectId index chunk).length = chunk.length :=
      List.length_mapIdx
    change _ = _ + (chunkWork rest + 4) at sum
    unfold chunkWork at left sum
    rw [List.flatten_cons, List.length_append, List.length_cons] at left
    unfold lookupWork nextChunk
    dsimp only
    omega

/-- Where a slot waits, its loader has a turn. -/
theorem exists_user_turn (waiting : world.userBatch.pending ≠ []) :
    ∃ action next, step database limits world action = some next ∧
      lookupWork database next < lookupWork database world := by
  rcases Loader.exists_turn waiting with ⟨timer, batch⟩ | ⟨flight, filed, after, answer⟩
  · refine ⟨.flushUserBatch, _, if_pos timer, ?_⟩
    have fewer := Loader.work_fire batch
    unfold lookupWork
    dsimp only
    omega
  · let records := database.tables.readable.findRecordsByIds filed.group filed.keys
    refine ⟨.findRecords flight records, { world with
      userBatch := after
      messages := filed.lookups.foldl (giveProfile records) world.messages }, ?_, ?_⟩
    · exact Option.bind_eq_some_iff.mpr ⟨(filed, after), answer, if_pos (List.Perm.refl _)⟩
    · have fewer := Loader.work_answer answer
      unfold lookupWork
      dsimp only
      rw [map_profiles _ fun _ _ _ _ => rfl]
      omega

/-- Where a message waits for contacts, their loader has a turn. -/
theorem exists_contact_turn (waiting : world.contactBatch.pending ≠ []) :
    ∃ action next, step database limits world action = some next ∧
      lookupWork database next < lookupWork database world := by
  rcases Loader.exists_turn waiting with ⟨timer, batch⟩ | ⟨flight, filed, after, answer⟩
  · refine ⟨.flushContactBatch, _, if_pos timer, ?_⟩
    have fewer := Loader.work_fire batch
    unfold lookupWork
    dsimp only
    omega
  · let rows := contactRows database filed.group filed.keys
    refine ⟨.findContacts flight rows, { world with
      contactBatch := after
      messages := filed.lookups.foldl (giveContacts rows) world.messages }, ?_, ?_⟩
    · exact Option.bind_eq_some_iff.mpr ⟨(filed, after), answer, if_pos (List.Perm.refl _)⟩
    · have fewer := Loader.work_answer answer
      unfold lookupWork
      dsimp only
      rw [map_contacts _ fun _ _ _ _ _ => rfl]
      omega

/-- Whatever a message waits for is pending. -/
theorem pending_of_waits {β : Type} {waits : Nat → Message → Multiset β} {lookups : List β}
    (balance : (lookups : Multiset β) = waited waits world.messages) {index : Nat}
    {message : Message} (present : world.messages[index]? = some message)
    (waiting : waits index message ≠ 0) : lookups ≠ [] := by
  obtain ⟨lookup, listed⟩ := Multiset.exists_mem_of_ne_zero waiting
  have pending : lookup ∈ (lookups : Multiset β) :=
    balance ▸ mem_waited.mpr ⟨index, message, present, listed⟩
  exact List.ne_nil_of_mem (Multiset.mem_coe.mp pending)

/-- A message that is not finished has a turn, or waits for one of a loader. -/
theorem exists_message_turn (balanced : Balanced database limits world) {index : Nat}
    {message : Message} (present : world.messages[index]? = some message)
    (under : message.phase ≠ .finished) :
    ∃ action next, step database limits world action = some next ∧
      lookupWork database next < lookupWork database world := by
  obtain ⟨request, chunks, phase⟩ := message
  cases phase with
  | finished => exact absurd rfl under
  | received =>
    by_cases excess : limits.maxUsers < (resolved database request).length
    · refine ⟨.resolve index (resolved database request), _, Option.bind_eq_some_iff.mpr
        ⟨_, present, (if_pos (List.Perm.refl _)).trans (if_pos excess)⟩, ?_⟩
      apply lookupWork_nextChunk limits present
      exact Nat.succ_pos _
    · refine ⟨.resolve index (resolved database request), _, Option.bind_eq_some_iff.mpr
        ⟨_, present, (if_pos (List.Perm.refl _)).trans (if_neg excess)⟩, ?_⟩
      apply lookupWork_nextChunk limits present
      exact Nat.lt_succ_self _
  | profiles slots =>
    by_cases filled : ∀ entry ∈ slots, entry.2 ≠ none
    · obtain ⟨values, isFilled⟩ := filled_iff.mpr filled
      refine ⟨.loadContacts index, _, Option.bind_eq_some_iff.mpr ⟨_, present,
        Option.bind_eq_some_iff.mpr ⟨values, isFilled, rfl⟩⟩, ?_⟩
      let asking : Message := ⟨request, chunks, .contacts (values.filterMap id) none⟩
      have sums : ((world.messages.set index asking).map (messageWork database)).sum +
          (chunkWork chunks + 4) = (world.messages.map (messageWork database)).sum +
            (chunkWork chunks + 1) := Tables.sum_set present
      let lookup : Lookup Text Text Nat :=
        ⟨request.raw.projectId, (values.filterMap id).map UserRecord.userId, index⟩
      have asked := Loader.work_load limits.batchSize world.contactBatch lookup
      change ((world.messages.set index asking).map (messageWork database)).sum +
        world.userBatch.work + (world.contactBatch.load limits.batchSize lookup).work <
          lookupWork database world
      unfold lookupWork
      omega
    · push Not at filled
      obtain ⟨entry, listed, absent⟩ := filled
      obtain ⟨slot, atSlot⟩ := List.mem_iff_getElem?.mp listed
      apply exists_user_turn
      apply pending_of_waits balanced.users present
      have waiting : (⟨request.raw.projectId, [entry.1], (index, slot)⟩ :
          Lookup Text Text (Nat × Nat)) ∈ userWaits index ⟨request, chunks, .profiles slots⟩ := by
        apply mem_waited.mpr
        refine ⟨slot, entry, atSlot, ?_⟩
        unfold slotWaits
        rw [if_pos (Option.isNone_iff_eq_none.mpr absent)]
        exact Multiset.mem_singleton_self _
      exact fun none => Multiset.notMem_zero _ (none ▸ waiting)
  | contacts profiles found =>
    cases found with
    | none =>
      apply exists_contact_turn
      exact pending_of_waits balanced.contacts present (Multiset.singleton_ne_zero _)
    | some rows =>
      refine ⟨.enrich index, _, Option.bind_eq_some_iff.mpr ⟨_, present, rfl⟩, ?_⟩
      split
      · exact lookupWork_nextChunk limits present (Nat.lt_succ_self _)
      · exact lookupWork_nextChunk limits present (Nat.lt_succ_self _)

/-- As long as not everything is finished, there is a step that leaves less to do. -/
theorem exists_turn (balanced : Balanced database limits world) (under : ¬ Final world) :
    ∃ action next, step database limits world action = some next ∧
      work database next < work database world := by
  by_cases done : ∀ message ∈ world.messages, message.phase = .finished
  · have some : world.eventBuffer ≠ [] := fun empty => under ⟨empty, done⟩
    refine ⟨.flushWorkerBuffers, _, rfl, ?_⟩
    unfold work
    rw [if_pos rfl, if_neg some]
    exact Nat.lt_succ_self _
  · push Not at done
    obtain ⟨message, listed, going⟩ := done
    obtain ⟨index, present⟩ := List.mem_iff_getElem?.mp listed
    obtain ⟨action, next, taken, fewer⟩ := exists_message_turn balanced present going
    exact ⟨action, next, taken, work_lt fewer⟩

end Progress

section Runs

variable {database : Database} {limits : Limits} {world after : World}

theorem balanced_start : Balanced database limits {} where
  users := rfl
  contacts := rfl
  books := ⟨fun _ listed => absurd listed List.not_mem_nil, fun _ _ found => absurd found nofun⟩
  known := fun _ listed => absurd listed List.not_mem_nil

/-- What is balanced and finished was sent as it should be. -/
theorem Balanced.sent (balanced : Balanced database limits world) {index : Nat} {message : Message}
    (present : world.messages[index]? = some message) (done : message.phase = .finished) :
    eventsOf (world.stream ++ world.eventBuffer) index = due database limits message.request := by
  have account := balanced.books.account index message present
  have none := balanced.books.sound message (List.mem_of_getElem? present)
  unfold owed currentIds at account
  unfold Sound at none
  rw [done] at account none
  dsimp only at account none
  rw [none] at account
  exact (add_zero _).symm.trans account

/-- The next chunk is of the same request. -/
theorem requests_nextChunk {index : Nat} {old message : Message}
    (present : world.messages[index]? = some old) (same : message.request = old.request) :
    (nextChunk limits world index message).messages.map Message.request =
      world.messages.map Message.request := by
  unfold nextChunk
  cases message.chunks with
  | nil => exact map_set_same _ present same
  | cons chunk rest => exact map_set_same _ present same

theorem prefix_same {α : Type} {first second : List α} (same : first = second) : first <+: second :=
  same ▸ List.prefix_refl first

/-- The requests stay where they are. -/
theorem requests_step {action : Action} (taken : step database limits world action = some after) :
    world.messages.map Message.request <+: after.messages.map Message.request := by
  cases action with
  | receive request =>
    obtain rfl := Option.some.inj taken
    rw [List.map_append]
    exact List.prefix_append _ _
  | resolve index userIds =>
    obtain ⟨message, present, taken⟩ := Option.bind_eq_some_iff.mp taken
    split at taken
    next =>
      obtain ⟨_, taken⟩ := Option.ite_none_right_eq_some.mp taken
      split at taken
      · obtain rfl := Option.some.inj taken
        exact prefix_same (Eq.symm (requests_nextChunk present rfl))
      · obtain rfl := Option.some.inj taken
        exact prefix_same (Eq.symm (requests_nextChunk present rfl))
    next => cases taken
  | flushUserBatch =>
    obtain ⟨_, taken⟩ := Option.ite_none_right_eq_some.mp taken
    obtain rfl := Option.some.inj taken
    exact List.prefix_refl _
  | findRecords flight records =>
    obtain ⟨⟨filed, loader⟩, _, taken⟩ := Option.bind_eq_some_iff.mp taken
    obtain ⟨_, taken⟩ := Option.ite_none_right_eq_some.mp taken
    obtain rfl := Option.some.inj taken
    exact prefix_same (Eq.symm (map_profiles _ (fun _ _ _ _ => rfl) _ _ _))
  | loadContacts index =>
    obtain ⟨message, present, taken⟩ := Option.bind_eq_some_iff.mp taken
    split at taken
    next =>
      obtain ⟨_, _, taken⟩ := Option.bind_eq_some_iff.mp taken
      obtain rfl := Option.some.inj taken
      exact prefix_same (Eq.symm (map_set_same _ present rfl))
    next => cases taken
  | flushContactBatch =>
    obtain ⟨_, taken⟩ := Option.ite_none_right_eq_some.mp taken
    obtain rfl := Option.some.inj taken
    exact List.prefix_refl _
  | findContacts flight rows =>
    obtain ⟨⟨filed, loader⟩, _, taken⟩ := Option.bind_eq_some_iff.mp taken
    obtain ⟨_, taken⟩ := Option.ite_none_right_eq_some.mp taken
    obtain rfl := Option.some.inj taken
    exact prefix_same (Eq.symm (map_contacts _ (fun _ _ _ _ _ => rfl) _ _ _))
  | enrich index =>
    obtain ⟨message, present, taken⟩ := Option.bind_eq_some_iff.mp taken
    split at taken
    next =>
      obtain rfl := Option.some.inj taken
      split
      · exact prefix_same (Eq.symm (requests_nextChunk present rfl))
      · exact prefix_same (Eq.symm (requests_nextChunk present rfl))
    next => cases taken
  | flushWorkerBuffers =>
    obtain rfl := Option.some.inj taken
    exact List.prefix_refl _

end Runs

/-- Two users of a segment, one of them with an address. -/
def segmentOfTwo : Database where
  tables :=
    { users := [⟨1, "p".toList, "u1".toList, "UTC".toList⟩,
        ⟨2, "p".toList, "u2".toList, "UTC".toList⟩]
      contacts := [⟨"c".toList, 1, .email, "a@b.c".toList, true⟩] }
  segments := [⟨1, "s".toList⟩, ⟨2, "s".toList⟩]
  usersKeyed := by decide
  segmentsKeyed := by decide
  topicsKeyed := by decide
  contactTopicsKeyed := by decide
  contactTopicsPlain := by decide

/-- A request for a target of that project. -/
def requestFor (target : Target) : Requested where
  target := target
  raw := { projectId := "p".toList, eventId := "e".toList, userIds := [] }

/-- A segment and one of its users are asked for at once; their lookups are answered together. -/
def sharedBatch : List Action :=
  let tables := segmentOfTwo.tables.readable
  let userIds := ["u2".toList, "u1".toList]
  [.receive (requestFor (.segment "s".toList)), .receive (requestFor (.user "u1".toList)),
    .resolve 0 userIds, .resolve 1 ["u1".toList], .flushUserBatch,
    .findRecords 0 (tables.findRecordsByIds "p".toList userIds).reverse,
    .loadContacts 1, .loadContacts 0, .flushContactBatch,
    .findContacts 0 (contactRows segmentOfTwo "p".toList userIds),
    .enrich 0, .enrich 1, .flushWorkerBuffers]

def largeBatches : Limits := ⟨1000, 50, false⟩

end Notifkit.Pipeline.FanOuts
