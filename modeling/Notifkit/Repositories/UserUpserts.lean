import Notifkit.Repositories.UserTables

/-!
# Many users at once

`upsertManyFull` writes a list of users with one statement for each table. A user may be named
several times: of the entries for one user the last is inserted, segments and preferences are
collected from all of them, and quiet hours are those of the last.

Entry by entry, an entry that leaves a field out keeps what the entries before it gave. In one batch
what earlier entries gave is lost where the last one leaves it out, unless it was stored already.
-/

namespace Notifkit.Repositories

open Upserts

/-- An entry of the list. -/
structure UserEntry where
  userId : Text
  language : Option Text := none
  timezone : Option Text := none
  /-- `null` clears the email -/
  email : Option (Option Text) := none
  segments : List Text := []
  preferences : Preferences := {}
deriving DecidableEq

/-- The attributes of the row an entry inserts. -/
def UserEntry.attributes (user : UserEntry) : Attributes :=
  givenAttributes user.language user.timezone user.email

/-- The last entry of each user, with its place in the list. -/
def uniqueUsers (usersList : List UserEntry) : List (UserEntry × Nat) :=
  (latest (usersList.zipIdx.map fun placed => (placed.1.userId, placed))).map Prod.snd

/-- One row for each id and text, as they are told apart by a composed key. -/
def dedupe (rows : List ((Uuid × Text) × Bool)) : List ((Uuid × Text) × Bool) :=
  (latest (rows.map fun row => (Uuid.beside row.1, row))).map Prod.snd

/-- The same for rows without a value; the first one is kept. -/
def dedupeSegments (rows : List (Uuid × Text)) : List (Uuid × Text) :=
  (rows.foldl (fun (found : List Text × List (Uuid × Text)) row =>
    if Uuid.beside row ∈ found.1 then found
    else (Uuid.beside row :: found.1, found.2 ++ [row])) ([], [])).2

/-- Rows for each entry whose user has an id. -/
def namedRows {α : Type} (idOf : Text → Option Uuid) (usersList : List UserEntry)
    (rows : UserEntry × Nat → List α) : List (Uuid × α) :=
  usersList.zipIdx.flatMap fun placed =>
    match idOf placed.1.userId with
    | some internalId => (rows placed).map fun row => (internalId, row)
    | none => []

/-- Rows of preferences under their ids and names. -/
def keyedRows (rows : List (Uuid × (Text × Bool))) : List ((Uuid × Text) × Bool) :=
  rows.map fun row => ((row.1, row.2.1), row.2.2)

/-- `upsertManyFull`; absent where a statement is refused. -/
def upsertManyFull (ids : UserIds) (projectId : Text) (usersList : List UserEntry)
    (tables : UserTables) : Option UserTables :=
  if usersList = [] then some tables
  else do
    let winners := uniqueUsers usersList
    let users ← insertOrUpdate mergeAttributes
      (winners.map fun winner => ((projectId, winner.1.userId), winner.1.attributes)) tables.users
    let idMap := fun userId => (users (projectId, userId)).map fun _ => ids.uuid projectId userId
    let segmentInserts := namedRows idMap usersList fun placed => placed.1.segments
    let topicInserts := keyedRows (namedRows idMap usersList fun placed =>
      (placed.1.preferences.topics.getD {}).entries)
    let channelInserts := keyedRows (namedRows idMap usersList fun placed =>
      (placed.1.preferences.channels.getD {}).entries)
    -- quiet hours are replaced, not merged, so only the winning entry counts
    let quietHoursInserts := namedRows idMap usersList fun placed =>
      if placed.2 ∈ winners.map Prod.snd then placed.1.preferences.quietHours.getD [] else []
    let topics ← insertOrUpdate (fun _ enabled => enabled) (dedupe topicInserts) tables.topics
    let channels ← insertOrUpdate (fun _ enabled => enabled) (dedupe channelInserts)
      tables.channels
    let usersWithQuietHours := winners.filter fun winner => winner.1.preferences.quietHours.isSome
    let cleared := usersWithQuietHours.filterMap fun winner => idMap winner.1.userId
    some {
      users := users
      segments := insertMissing (dedupeSegments segmentInserts) tables.segments
      topics := topics
      channels := channels
      quietHours := fun id => (if id ∈ cleared then 0 else tables.quietHours id) +
        ((quietHoursInserts.filter fun row => row.1 = id).map Prod.snd : List QuietWindow) }

section Batch

variable {ids : UserIds} {projectId : Text} {usersList : List UserEntry} {tables : UserTables}

/-- The last entry of a user, with its place. -/
def winnerOf (usersList : List UserEntry) (userId : Text) : Option (UserEntry × Nat) :=
  lastOf userId (usersList.zipIdx.map fun placed => (placed.1.userId, placed)) none

/-- The last entry of a user. -/
def lastEntry (usersList : List UserEntry) (userId : Text) : Option UserEntry :=
  lastOf userId (usersList.map fun user => (user.userId, user)) none

/-- The winner is the last entry. -/
theorem winnerOf_entry (usersList : List UserEntry) (userId : Text) :
    (winnerOf usersList userId).map Prod.fst = lastEntry usersList userId := by
  have mapped : lastOf (id userId) ((usersList.zipIdx.map fun placed =>
      (placed.1.userId, placed)).map fun row => (id row.1, row.2.1)) none =
      (winnerOf usersList userId).map Prod.fst :=
    lastOf_map Function.injective_id Prod.fst userId _ none
  have entries : (usersList.zipIdx.map fun placed => (placed.1.userId, placed)).map
      (fun row => (id row.1, row.2.1)) = usersList.map fun user => (user.userId, user) := by
    rw [List.map_map]
    have firsts := List.zipIdx_map_fst 0 usersList
    calc _ = (usersList.zipIdx.map Prod.fst).map fun user => (user.userId, user) := by
          rw [List.map_map]; rfl
      _ = _ := by rw [firsts]
  rw [entries] at mapped
  exact mapped.symm

/-- The winner of a user is an entry of that user, at its place. -/
theorem winnerOf_mem {userId : Text} {winner : UserEntry × Nat}
    (wins : winnerOf usersList userId = some winner) :
    winner ∈ usersList.zipIdx ∧ winner.1.userId = userId := by
  obtain listed | absent := lastOf_mem wins
  · obtain ⟨placed, member, same⟩ := List.mem_map.mp listed
    obtain ⟨rfl, rfl⟩ := Prod.mk.inj same
    exact ⟨member, rfl⟩
  · cases absent

/-- The rows that are left are the winners of their users. -/
theorem mem_uniqueUsers {winner : UserEntry × Nat} :
    winner ∈ uniqueUsers usersList ↔ winnerOf usersList winner.1.userId = some winner := by
  unfold uniqueUsers
  constructor
  · intro member
    obtain ⟨row, listed, rfl⟩ := List.mem_map.mp member
    have wins := mem_latest.mp listed
    rw [(winnerOf_mem wins).2]
    exact wins
  · intro wins
    exact List.mem_map.mpr ⟨(winner.1.userId, winner), mem_latest.mpr wins, rfl⟩

/-- An entry wins by its place. -/
theorem place_wins {placed : UserEntry × Nat} (member : placed ∈ usersList.zipIdx) :
    placed.2 ∈ (uniqueUsers usersList).map Prod.snd ↔
      winnerOf usersList placed.1.userId = some placed := by
  constructor
  · intro listed
    obtain ⟨winner, unique, same⟩ := List.mem_map.mp listed
    have wins := mem_uniqueUsers.mp unique
    have here := List.mem_zipIdx_iff_getElem?.mp (winnerOf_mem wins).1
    have there := List.mem_zipIdx_iff_getElem?.mp member
    have equal : winner = placed := by
      refine Prod.ext ?_ same
      rw [same] at here
      exact Option.some.inj (here.symm.trans there)
    rw [← equal]
    exact wins
  · intro wins
    exact List.mem_map.mpr ⟨placed, mem_uniqueUsers.mpr wins, rfl⟩

/-- The rows to insert, under the keys of their users. -/
theorem winners_rows (projectId : Text) (usersList : List UserEntry) :
    (uniqueUsers usersList).map
        (fun winner => ((projectId, winner.1.userId), winner.1.attributes)) =
      (latest (usersList.zipIdx.map fun placed => (placed.1.userId, placed))).map
        fun row => ((projectId, row.1), row.2.1.attributes) := by
  unfold uniqueUsers
  rw [List.map_map]
  apply List.map_congr_left
  intro row listed
  have named := (winnerOf_mem (mem_latest.mp listed)).2
  simp [named]

/-- What the rows of users come to: the attributes of the last entry are merged in. -/
def mergedUsers (projectId : Text) (usersList : List UserEntry)
    (users : Table (Text × Text) Attributes) : Table (Text × Text) Attributes := fun key =>
  if key.1 = projectId then
    match lastEntry usersList key.2 with
    | some user => some (((users key).map fun old =>
        mergeAttributes old user.attributes).getD user.attributes)
    | none => users key
  else users key

/-- The statement for users is never refused. -/
theorem insert_users (projectId : Text) (usersList : List UserEntry)
    (users : Table (Text × Text) Attributes) :
    insertOrUpdate mergeAttributes ((uniqueUsers usersList).map fun winner =>
        ((projectId, winner.1.userId), winner.1.attributes)) users =
      some (mergedUsers projectId usersList users) := by
  have keyed : Function.Injective fun userId : Text => (projectId, userId) :=
    fun _ _ same => (Prod.mk.inj same).2
  rw [winners_rows]
  generalize rows : usersList.zipIdx.map (fun placed => (placed.1.userId, placed)) = all
  have distinct : (((latest all).map fun row =>
      ((projectId, row.1), row.2.1.attributes)).map Prod.fst).Nodup := by
    have keys := (latest_distinct all).map keyed
    rw [List.map_map] at keys ⊢
    exact keys
  unfold insertOrUpdate
  rw [if_pos distinct]
  congr 1
  funext key
  rw [foldl_place distinct]
  unfold mergedUsers
  obtain ⟨project, userId⟩ := key
  by_cases same : project = projectId
  · subst same
    have last : lastOf (project, userId) ((latest all).map fun row =>
        ((project, row.1), row.2.1.attributes)) none =
        (lastEntry usersList userId).map UserEntry.attributes := by
      have mapped := lastOf_map keyed (fun winner : UserEntry × Nat => winner.1.attributes) userId
        (latest all) none
      rw [lastOf_latest] at mapped
      rw [← winnerOf_entry, Option.map_map]
      unfold winnerOf
      rw [rows]
      exact mapped
    rw [last, if_pos rfl]
    cases lastEntry usersList userId <;> rfl
  · rw [if_neg same, lastOf_absent]
    intro row listed here
    obtain ⟨entry, _, rfl⟩ := List.mem_map.mp listed
    exact same (congrArg Prod.fst here).symm

/-- A user that is named has a last entry. -/
theorem lastEntry_some {user : UserEntry} (listed : user ∈ usersList) :
    ∃ last, lastEntry usersList user.userId = some last := by
  have row : (user.userId, user) ∈ usersList.map fun user => (user.userId, user) :=
    List.mem_map.mpr ⟨user, listed, rfl⟩
  exact lastOf_some row none

/-- A user that is not named has none. -/
theorem lastEntry_none {userId : Text} (absent : ∀ user ∈ usersList, user.userId ≠ userId) :
    lastEntry usersList userId = none := by
  refine lastOf_absent (fun row listed => ?_) none
  obtain ⟨user, inside, rfl⟩ := List.mem_map.mp listed
  exact absent user inside

/-- After its insert every named user has an id. -/
theorem idMap_named {user : UserEntry} (listed : user ∈ usersList) :
    ((mergedUsers projectId usersList tables.users (projectId, user.userId)).map
      fun _ => ids.uuid projectId user.userId) = some (ids.uuid projectId user.userId) := by
  obtain ⟨last, found⟩ := lastEntry_some listed
  simp only [mergedUsers, if_true, found, Option.map_some]

/-- The rows of an entry stand under the id of its user. -/
theorem namedRows_eq {α : Type} (rows : UserEntry × Nat → List α) :
    namedRows (fun userId => (mergedUsers projectId usersList tables.users (projectId, userId)).map
        fun _ => ids.uuid projectId userId) usersList rows =
      usersList.zipIdx.flatMap fun placed =>
        (rows placed).map fun row => (ids.uuid projectId placed.1.userId, row) := by
  unfold namedRows
  apply List.flatMap_congr
  intro placed member
  have listed : placed.1 ∈ usersList :=
    List.mem_of_getElem? (List.mem_zipIdx_iff_getElem?.mp member)
  have named : ((mergedUsers projectId usersList tables.users (projectId, placed.1.userId)).map
      fun _ => ids.uuid projectId placed.1.userId) = some (ids.uuid projectId placed.1.userId) :=
    idMap_named listed
  simp only [named]

/-- The rows that do not look at the place of their entry. -/
theorem flatMap_zipIdx {α : Type} (rows : UserEntry → List α) :
    (usersList.zipIdx.flatMap fun placed => rows placed.1) = usersList.flatMap rows := by
  have firsts := List.zipIdx_map_fst 0 usersList
  calc _ = (usersList.zipIdx.map Prod.fst).flatMap rows := by rw [List.flatMap_map]
    _ = _ := by rw [firsts]

/-- The same segment is inserted once. -/
theorem mem_dedupeSegments {rows : List (Uuid × Text)} {row : Uuid × Text} :
    row ∈ dedupeSegments rows ↔ row ∈ rows := by
  have found : ∀ (seen : List Text) (kept : List (Uuid × Text)),
      (∀ row, Uuid.beside row ∈ seen ↔ row ∈ kept) →
      (row ∈ (rows.foldl (fun (found : List Text × List (Uuid × Text)) row =>
        if Uuid.beside row ∈ found.1 then found
        else (Uuid.beside row :: found.1, found.2 ++ [row])) (seen, kept)).2 ↔
        row ∈ kept ∨ row ∈ rows) := by
    induction rows with
    | nil => simp
    | cons first rest inductionHypothesis =>
      intro seen kept same
      rw [List.foldl_cons]
      by_cases already : Uuid.beside first ∈ seen
      · simp only [if_pos already]
        rw [inductionHypothesis seen kept same, List.mem_cons]
        constructor
        · exact Or.imp_right .inr
        · rintro (old | rfl | new)
          · exact .inl old
          · exact .inl ((same row).mp already)
          · exact .inr new
      · simp only [if_neg already]
        rw [inductionHypothesis, List.mem_cons, List.mem_append, List.mem_singleton, or_assoc]
        intro other
        rw [List.mem_cons, List.mem_append, List.mem_singleton, same other,
          Uuid.beside_injective.eq_iff, or_comm]
  have all := found [] [] (by simp)
  simpa [dedupeSegments] using all

/-- Composed keys tell rows apart. -/
theorem dedupe_eq (rows : List ((Uuid × Text) × Bool)) : dedupe rows = latest rows :=
  latest_map Uuid.beside_injective rows

/-- The rows of preferences that the entries propose. -/
def preferenceRows (ids : UserIds) (projectId : Text)
    (named : Preferences → Option Choices) (usersList : List UserEntry) :
    List ((Uuid × Text) × Bool) :=
  usersList.flatMap fun user => ((named user.preferences).getD {}).entries.map fun row =>
    ((ids.uuid projectId user.userId, row.1), row.2)

/-- The quiet hours of an id afterwards: those of the last entry of its user, if it gives any. -/
def mergedQuietHours (ids : UserIds) (projectId : Text) (usersList : List UserEntry)
    (quietHours : Uuid → Multiset QuietWindow) (id : Uuid) : Multiset QuietWindow :=
  match usersList.find? fun user => ids.uuid projectId user.userId = id with
  | some user =>
    match (lastEntry usersList user.userId).bind fun last => last.preferences.quietHours with
    | some windows => (windows : Multiset QuietWindow)
    | none => quietHours id
  | none => quietHours id

/-- What the batch leaves. -/
def batched (ids : UserIds) (projectId : Text) (usersList : List UserEntry) (tables : UserTables) :
    UserTables where
  users := mergedUsers projectId usersList tables.users
  segments := fun key => tables.segments key || usersList.any fun user =>
    decide (ids.uuid projectId user.userId = key.1 ∧ key.2 ∈ user.segments)
  topics := fun key =>
    lastOf key (preferenceRows ids projectId Preferences.topics usersList) (tables.topics key)
  channels := fun key =>
    lastOf key (preferenceRows ids projectId Preferences.channels usersList) (tables.channels key)
  quietHours := mergedQuietHours ids projectId usersList tables.quietHours

/-- The rows of one id, among the rows of many. -/
theorem rows_of_id {α β : Type} (entries : List β) (idOf : β → Uuid) (rows : β → List α)
    (id : Uuid) :
    ((entries.flatMap fun entry => (rows entry).map fun row => (idOf entry, row)).filter
      fun row => row.1 = id).map Prod.snd =
      entries.flatMap fun entry => if idOf entry = id then rows entry else [] := by
  induction entries with
  | nil => rfl
  | cons entry rest inductionHypothesis =>
    rw [List.flatMap_cons, List.filter_append, List.map_append, inductionHypothesis,
      List.flatMap_cons]
    congr 1
    by_cases same : idOf entry = id
    · rw [if_pos same, List.filter_eq_self.mpr (by simp [same]), List.map_map]
      exact List.map_id _
    · rw [if_neg same, List.filter_eq_nil_iff.mpr (by simp [same])]
      rfl

/-- Where one entry alone has rows, these are all. -/
theorem flatMap_only {α β : Type} {entries : List β} {only : β} {rows : β → List α}
    (distinct : entries.Nodup) (member : only ∈ entries)
    (others : ∀ entry ∈ entries, entry ≠ only → rows entry = []) :
    entries.flatMap rows = rows only := by
  induction entries with
  | nil => cases member
  | cons entry rest inductionHypothesis =>
    obtain ⟨fresh, later⟩ := List.nodup_cons.mp distinct
    obtain ⟨here, elsewhere⟩ := List.forall_mem_cons.mp others
    rw [List.flatMap_cons]
    obtain rfl | inside := List.mem_cons.mp member
    · have nothing : rest.flatMap rows = [] := by
        apply List.flatMap_eq_nil_iff.mpr
        intro other listed
        exact elsewhere other listed fun same => fresh (same ▸ listed)
      rw [nothing, List.append_nil]
    · rw [here fun same => fresh (same ▸ inside), List.nil_append]
      exact inductionHypothesis later inside elsewhere

/-- Places tell entries apart. -/
theorem zipIdx_distinct (usersList : List UserEntry) : usersList.zipIdx.Nodup := by
  apply List.Nodup.of_map Prod.snd
  rw [List.zipIdx_map_snd]
  exact List.nodup_range'

/-- The quiet hours that are inserted for an id are those of the last entry of its user. -/
theorem quietHours_inserted (id : Uuid) :
    ((usersList.zipIdx.flatMap fun placed =>
      (if placed.2 ∈ (uniqueUsers usersList).map Prod.snd
        then placed.1.preferences.quietHours.getD [] else []).map
        fun row => (ids.uuid projectId placed.1.userId, row)).filter
          fun row => row.1 = id).map Prod.snd =
      match usersList.find? fun user => ids.uuid projectId user.userId = id with
      | some user => ((lastEntry usersList user.userId).bind
          fun last => last.preferences.quietHours).getD []
      | none => [] := by
  rw [rows_of_id]
  cases found : usersList.find? fun user => ids.uuid projectId user.userId = id with
  | none =>
    apply List.flatMap_eq_nil_iff.mpr
    intro placed member
    have listed : placed.1 ∈ usersList :=
      List.mem_of_getElem? (List.mem_zipIdx_iff_getElem?.mp member)
    have other := List.find?_eq_none.mp found placed.1 listed
    exact if_neg (by simpa using other)
  | some user =>
    have listed := List.mem_of_find?_eq_some found
    have mine : ids.uuid projectId user.userId = id := by simpa using List.find?_some found
    obtain ⟨last, isLast⟩ := lastEntry_some listed
    obtain ⟨winner, wins, rfl⟩ : ∃ winner, winnerOf usersList user.userId = some winner ∧
        winner.1 = last := by
      rw [← winnerOf_entry] at isLast
      exact Option.map_eq_some_iff.mp isLast
    obtain ⟨member, named⟩ := winnerOf_mem wins
    rw [flatMap_only (zipIdx_distinct usersList) member]
    · rw [if_pos (by rw [named, mine]), if_pos ((place_wins member).mpr (named ▸ wins))]
      simp [isLast]
    · intro placed inside other
      by_cases same : ids.uuid projectId placed.1.userId = id
      · rw [if_pos same]
        have user' : placed.1.userId = user.userId :=
          (ids.apart _ _ _ _ (same.trans mine.symm)).2
        refine if_neg fun won => other ?_
        have wins' := (place_wins inside).mp won
        rw [user', wins] at wins'
        exact (Option.some.inj wins').symm
      · exact if_neg same

/-- The rows of preferences that are inserted are those that the entries propose. -/
theorem keyedRows_eq (named : Preferences → Option Choices) :
    keyedRows (usersList.zipIdx.flatMap fun placed =>
        ((named placed.1.preferences).getD {}).entries.map fun row =>
          (ids.uuid projectId placed.1.userId, row)) =
      preferenceRows ids projectId named usersList := by
  have rows := @flatMap_zipIdx usersList _ fun user =>
    ((named user.preferences).getD {}).entries.map fun row => (ids.uuid projectId user.userId, row)
  rw [rows]
  unfold keyedRows preferenceRows
  rw [List.map_flatMap]
  apply List.flatMap_congr
  intro user _
  rw [List.map_map]
  rfl

/-- The segments of a user afterwards. -/
theorem segments_inserted (segments : Uuid × Text → Bool) :
    insertMissing (dedupeSegments (usersList.zipIdx.flatMap fun placed =>
        placed.1.segments.map fun row => (ids.uuid projectId placed.1.userId, row))) segments =
      fun key => segments key || usersList.any fun user =>
        decide (ids.uuid projectId user.userId = key.1 ∧ key.2 ∈ user.segments) := by
  have rows := @flatMap_zipIdx usersList _ fun user =>
    user.segments.map fun row => (ids.uuid projectId user.userId, row)
  rw [rows]
  funext key
  unfold insertMissing
  congr 1
  rw [Bool.eq_iff_iff, List.any_eq_true]
  simp only [decide_eq_true_eq, mem_dedupeSegments, List.mem_flatMap, List.mem_map]
  constructor
  · rintro ⟨user, listed, segment, given, rfl⟩
    exact ⟨user, listed, rfl, given⟩
  · rintro ⟨user, listed, mine, given⟩
    exact ⟨user, listed, key.2, given, Prod.ext mine rfl⟩

/-- An id is cleared where the last entry of its user gives quiet hours. -/
theorem mem_cleared {id : Uuid} :
    id ∈ ((uniqueUsers usersList).filter fun winner =>
        winner.1.preferences.quietHours.isSome).filterMap (fun winner =>
          (mergedUsers projectId usersList tables.users (projectId, winner.1.userId)).map
            fun _ => ids.uuid projectId winner.1.userId) ↔
      ∃ winner, winnerOf usersList winner.1.userId = some winner ∧
        winner.1.preferences.quietHours.isSome = true ∧
        ids.uuid projectId winner.1.userId = id := by
  simp only [List.mem_filterMap, List.mem_filter, mem_uniqueUsers]
  refine exists_congr fun winner => ?_
  constructor
  · rintro ⟨⟨wins, gives⟩, named⟩
    have listed : winner.1 ∈ usersList :=
      List.mem_of_getElem? (List.mem_zipIdx_iff_getElem?.mp (winnerOf_mem wins).1)
    rw [idMap_named listed] at named
    exact ⟨wins, gives, Option.some.inj named⟩
  · rintro ⟨wins, gives, rfl⟩
    have listed : winner.1 ∈ usersList :=
      List.mem_of_getElem? (List.mem_zipIdx_iff_getElem?.mp (winnerOf_mem wins).1)
    exact ⟨⟨wins, gives⟩, idMap_named listed⟩

/-- The quiet hours of an id afterwards. -/
theorem quietHours_merged (id : Uuid) :
    (if id ∈ ((uniqueUsers usersList).filter fun winner =>
        winner.1.preferences.quietHours.isSome).filterMap (fun winner =>
          (mergedUsers projectId usersList tables.users (projectId, winner.1.userId)).map
            fun _ => ids.uuid projectId winner.1.userId) then 0 else tables.quietHours id) +
      ((((usersList.zipIdx.flatMap fun placed =>
        (if placed.2 ∈ (uniqueUsers usersList).map Prod.snd
          then placed.1.preferences.quietHours.getD [] else []).map
          fun row => (ids.uuid projectId placed.1.userId, row)).filter
            fun row => row.1 = id).map Prod.snd : List QuietWindow) : Multiset QuietWindow) =
      mergedQuietHours ids projectId usersList tables.quietHours id := by
  rw [quietHours_inserted]
  unfold mergedQuietHours
  cases found : usersList.find? fun user => ids.uuid projectId user.userId = id with
  | none =>
    rw [if_neg]
    · simp
    · intro cleared
      obtain ⟨winner, wins, _, mine⟩ := mem_cleared.mp cleared
      have listed : winner.1 ∈ usersList :=
        List.mem_of_getElem? (List.mem_zipIdx_iff_getElem?.mp (winnerOf_mem wins).1)
      exact absurd mine (by simpa using List.find?_eq_none.mp found winner.1 listed)
  | some user =>
    have listed := List.mem_of_find?_eq_some found
    have mine : ids.uuid projectId user.userId = id := by simpa using List.find?_some found
    have only : ∀ winner, ids.uuid projectId winner.1.userId = id →
        winnerOf usersList winner.1.userId = some winner →
        lastEntry usersList user.userId = some winner.1 := by
      intro winner same wins
      have user' : winner.1.userId = user.userId := (ids.apart _ _ _ _ (same.trans mine.symm)).2
      rw [← winnerOf_entry, ← user', wins]
      rfl
    obtain ⟨last, isLast⟩ := lastEntry_some listed
    simp only [isLast, Option.bind_some]
    cases gives : last.preferences.quietHours with
    | none =>
      rw [if_neg]
      · simp
      · intro cleared
        obtain ⟨winner, wins, some', same⟩ := mem_cleared.mp cleared
        obtain rfl := Option.some.inj (isLast.symm.trans (only winner same wins))
        simp [gives] at some'
    | some windows =>
      rw [if_pos]
      · simp
      · obtain ⟨winner, wins, rfl⟩ : ∃ winner, winnerOf usersList user.userId = some winner ∧
            winner.1 = last := by
          rw [← winnerOf_entry] at isLast
          exact Option.map_eq_some_iff.mp isLast
        have named := (winnerOf_mem wins).2
        exact mem_cleared.mpr ⟨winner, named ▸ wins, by simp [gives], by rw [named, mine]⟩

/-- Without entries nothing changes. -/
theorem batched_nil (ids : UserIds) (projectId : Text) (tables : UserTables) :
    batched ids projectId [] tables = tables := by
  have users : mergedUsers projectId [] tables.users = tables.users := by
    funext key
    unfold mergedUsers
    split <;> rfl
  simp only [batched, users, List.any_nil, Bool.or_false]
  rfl

/-- The batch is never refused. -/
theorem upsertManyFull_batched (ids : UserIds) (projectId : Text) (usersList : List UserEntry)
    (tables : UserTables) : upsertManyFull ids projectId usersList tables =
      some (batched ids projectId usersList tables) := by
  by_cases empty : usersList = []
  · subst empty
    rw [batched_nil]
    rfl
  · unfold upsertManyFull
    rw [if_neg empty]
    simp only [insert_users, Option.bind_eq_bind, Option.bind_some, namedRows_eq, dedupe_eq,
      keyedRows_eq, insert_latest, segments_inserted, quietHours_merged]
    rfl

/-- One entry after another, each in a batch of its own. -/
def oneByOne (ids : UserIds) (projectId : Text) (usersList : List UserEntry)
    (tables : UserTables) : Option UserTables :=
  usersList.foldlM (fun tables user => upsertManyFull ids projectId [user] tables) tables

/-- What the entries of a user give last, or else what was there. -/
def lastGiven {α : Type} (give : UserEntry → Option α) (userId : Text)
    (usersList : List UserEntry) (stored : Option α) : Option α :=
  usersList.foldl (fun held user => if user.userId = userId then (give user).or held else held)
    stored

section Given

variable {α : Type} {give : UserEntry → Option α} {userId : Text}

theorem lastGiven_cons (user : UserEntry) (rest : List UserEntry) (stored : Option α) :
    lastGiven give userId (user :: rest) stored =
      lastGiven give userId rest
        (if user.userId = userId then (give user).or stored else stored) := rfl

/-- What was there counts only where no entry gives anything. -/
theorem lastGiven_eq (usersList : List UserEntry) (stored : Option α) :
    lastGiven give userId usersList stored =
      (lastGiven give userId usersList none).or stored := by
  induction usersList generalizing stored with
  | nil => rfl
  | cons user rest inductionHypothesis =>
    rw [lastGiven_cons, lastGiven_cons, inductionHypothesis]
    by_cases mine : user.userId = userId
    · rw [if_pos mine, if_pos mine, inductionHypothesis ((give user).or none), Option.or_none,
        Option.or_assoc]
    · rw [if_neg mine, if_neg mine]

/-- The last entry of a list that goes on. -/
theorem lastEntry_cons (user : UserEntry) (rest : List UserEntry) (userId : Text) :
    lastEntry (user :: rest) userId =
      (lastEntry rest userId).or (if user.userId = userId then some user else none) := by
  unfold lastEntry
  rw [List.map_cons, lastOf_cons, lastOf_eq]

/-- A user without entries keeps what was there. -/
theorem lastGiven_absent (absent : lastEntry usersList userId = none) (stored : Option α) :
    lastGiven give userId usersList stored = stored := by
  induction usersList generalizing stored with
  | nil => rfl
  | cons user rest inductionHypothesis =>
    rw [lastEntry_cons, Option.or_eq_none_iff] at absent
    obtain ⟨nowhere, other⟩ := absent
    have elsewhere : user.userId ≠ userId := by
      intro mine
      rw [if_pos mine] at other
      cases other
    rw [lastGiven_cons, if_neg elsewhere]
    exact inductionHypothesis nowhere stored

/-- What the last entry gives is given last. -/
theorem lastGiven_last {last : UserEntry} {value : α}
    (isLast : lastEntry usersList userId = some last) (gives : give last = some value) :
    lastGiven give userId usersList none = some value := by
  induction usersList with
  | nil => cases isLast
  | cons user rest inductionHypothesis =>
    rw [lastEntry_cons] at isLast
    rw [lastGiven_cons, lastGiven_eq]
    cases later : lastEntry rest userId with
    | some found =>
      rw [later] at isLast
      obtain rfl : found = last := Option.some.inj isLast
      rw [inductionHypothesis later]
      rfl
    | none =>
      rw [later] at isLast
      have here : user.userId = userId ∧ user = last := by simpa using isLast
      obtain ⟨mine, rfl⟩ := here
      rw [lastGiven_absent later, if_pos mine, gives]
      rfl

/-- Given last or stored, the two agree with the last entry exactly where it loses nothing. -/
theorem lastGiven_kept_iff (give : UserEntry → Option α) {last : UserEntry} (isLast : lastEntry usersList userId = some last)
    (stored : Option α) :
    (give last).or stored = lastGiven give userId usersList stored ↔
      (give last = none → ∀ value, lastGiven give userId usersList none = some value →
        stored = some value) := by
  rw [lastGiven_eq]
  cases gives : give last with
  | some value => simp [lastGiven_last isLast gives]
  | none =>
    cases lastGiven give userId usersList none with
    | none => simp
    | some value => simp

end Given

section Sequence

/-- What the entries come to, one by one. -/
def entryByEntry (ids : UserIds) (projectId : Text) (usersList : List UserEntry)
    (tables : UserTables) : UserTables :=
  usersList.foldl (fun tables user => batched ids projectId [user] tables) tables

/-- No entry is refused. -/
theorem oneByOne_eq (ids : UserIds) (projectId : Text) (usersList : List UserEntry)
    (tables : UserTables) :
    oneByOne ids projectId usersList tables =
      some (entryByEntry ids projectId usersList tables) := by
  unfold oneByOne entryByEntry
  induction usersList generalizing tables with
  | nil => rfl
  | cons user rest inductionHypothesis =>
    rw [List.foldlM_cons, upsertManyFull_batched, List.foldl_cons, ← inductionHypothesis]
    rfl

/-- Segments only add up. -/
theorem entryByEntry_segments :
    (entryByEntry ids projectId usersList tables).segments =
      (batched ids projectId usersList tables).segments := by
  induction usersList generalizing tables with
  | nil => rw [batched_nil]; rfl
  | cons user rest inductionHypothesis =>
    have step := @inductionHypothesis (batched ids projectId [user] tables)
    refine step.trans ?_
    funext key
    simp only [batched, List.any_cons, List.any_nil, Bool.or_false, Bool.or_assoc]

/-- Of the preferences the last one of each name wins, wherever the entries are cut. -/
theorem entryByEntry_preferences {named : Preferences → Option Choices}
    {field : UserTables → Table (Uuid × Text) Bool}
    (written : ∀ usersList tables, field (batched ids projectId usersList tables) = fun key =>
      lastOf key (preferenceRows ids projectId named usersList) (field tables key)) :
    field (entryByEntry ids projectId usersList tables) =
      field (batched ids projectId usersList tables) := by
  induction usersList generalizing tables with
  | nil => rw [batched_nil]; rfl
  | cons user rest inductionHypothesis =>
    have step := @inductionHypothesis (batched ids projectId [user] tables)
    refine step.trans ?_
    have rows : preferenceRows ids projectId named (user :: rest) =
        preferenceRows ids projectId named [user] ++ preferenceRows ids projectId named rest := by
      simp [preferenceRows]
    funext key
    rw [written, written, written, rows]
    exact (lastOf_append key _ _ _).symm

/-- The row of a user after a batch. -/
theorem mergedUsers_at (users : Table (Text × Text) Attributes) (userId : Text) :
    mergedUsers projectId usersList users (projectId, userId) =
      match lastEntry usersList userId with
      | some last => some fun name => (last.attributes name).or
          ((users (projectId, userId)).bind fun row => row name)
      | none => users (projectId, userId) := by
  unfold mergedUsers
  rw [if_pos rfl]
  cases lastEntry usersList userId with
  | none => rfl
  | some last =>
    cases users (projectId, userId) with
    | none => simp
    | some row => rfl

/-- The row of a user after the entries, one by one. -/
theorem entryByEntry_users (userId : Text) :
    (entryByEntry ids projectId usersList tables).users (projectId, userId) =
      match lastEntry usersList userId with
      | some _ => some fun name => lastGiven (fun user => user.attributes name) userId usersList
          ((tables.users (projectId, userId)).bind fun row => row name)
      | none => tables.users (projectId, userId) := by
  induction usersList generalizing tables with
  | nil => rfl
  | cons user rest inductionHypothesis =>
    refine (@inductionHypothesis (batched ids projectId [user] tables)).trans ?_
    have one : (batched ids projectId [user] tables).users (projectId, userId) =
        if user.userId = userId then some fun name => (user.attributes name).or
          ((tables.users (projectId, userId)).bind fun row => row name)
        else tables.users (projectId, userId) := by
      refine (mergedUsers_at tables.users userId).trans ?_
      rw [lastEntry_cons]
      by_cases mine : user.userId = userId
      · rw [if_pos mine, if_pos mine]
        rfl
      · rw [if_neg mine, if_neg mine]
        rfl
    rw [lastEntry_cons, one]
    cases later : lastEntry rest userId with
    | some last =>
      refine congrArg some (funext fun name => ?_)
      rw [lastGiven_cons]
      by_cases mine : user.userId = userId
      · rw [if_pos mine, if_pos mine]
        rfl
      · rw [if_neg mine, if_neg mine]
    | none =>
      rw [Option.none_or]
      by_cases mine : user.userId = userId
      · rw [if_pos mine, if_pos mine]
        refine congrArg some (funext fun name => ?_)
        rw [lastGiven_cons, lastGiven_absent later, if_pos mine]
      · rw [if_neg mine, if_neg mine]

/-- Rows of other projects are left alone. -/
theorem entryByEntry_others {project : Text} (other : project ≠ projectId) (userId : Text) :
    (entryByEntry ids projectId usersList tables).users (project, userId) =
      tables.users (project, userId) := by
  induction usersList generalizing tables with
  | nil => rfl
  | cons user rest inductionHypothesis =>
    refine (@inductionHypothesis (batched ids projectId [user] tables)).trans ?_
    exact if_neg other

/-- The quiet hours of a user after a batch. -/
theorem mergedQuietHours_at (quietHours : Uuid → Multiset QuietWindow) (userId : Text) :
    mergedQuietHours ids projectId usersList quietHours (ids.uuid projectId userId) =
      (((lastEntry usersList userId).bind fun last => last.preferences.quietHours).map
        (↑· : List QuietWindow → Multiset QuietWindow)).getD
          (quietHours (ids.uuid projectId userId)) := by
  unfold mergedQuietHours
  cases found : usersList.find? fun user =>
      ids.uuid projectId user.userId = ids.uuid projectId userId with
  | none =>
    have unnamed : lastEntry usersList userId = none := by
      refine lastEntry_none fun user inside mine => ?_
      have other := List.find?_eq_none.mp found user inside
      exact other (decide_eq_true (congrArg (ids.uuid projectId) mine))
    rw [unnamed]
    rfl
  | some user =>
    have same : ids.uuid projectId user.userId = ids.uuid projectId userId := by
      simpa using List.find?_some found
    obtain rfl : user.userId = userId := (ids.apart _ _ _ _ same).2
    simp only
    cases (lastEntry usersList user.userId).bind fun last => last.preferences.quietHours with
    | none => rfl
    | some windows => rfl

/-- The quiet hours of a user after the entries, one by one. -/
theorem entryByEntry_quietHours (userId : Text) :
    (entryByEntry ids projectId usersList tables).quietHours (ids.uuid projectId userId) =
      ((lastGiven (fun user => user.preferences.quietHours) userId usersList none).map
        (↑· : List QuietWindow → Multiset QuietWindow)).getD
          (tables.quietHours (ids.uuid projectId userId)) := by
  induction usersList generalizing tables with
  | nil => rfl
  | cons user rest inductionHypothesis =>
    refine (@inductionHypothesis (batched ids projectId [user] tables)).trans ?_
    have one := @mergedQuietHours_at ids projectId [user] tables.quietHours userId
    rw [lastEntry_cons] at one
    rw [lastGiven_cons, lastGiven_eq rest (ite _ _ _)]
    cases lastGiven (fun user => user.preferences.quietHours) userId rest none with
    | some windows => rfl
    | none =>
      refine Eq.trans one ?_
      by_cases mine : user.userId = userId
      · rw [if_pos mine, if_pos mine, Option.or_none]
        rfl
      · rw [if_neg mine, if_neg mine]
        rfl

/-- Quiet hours of nobody who is named are left alone. -/
theorem mergedQuietHours_others (quietHours : Uuid → Multiset QuietWindow) {id : Uuid}
    (others : ∀ user ∈ usersList, ids.uuid projectId user.userId ≠ id) :
    mergedQuietHours ids projectId usersList quietHours id = quietHours id := by
  have nobody : (usersList.find? fun user => ids.uuid projectId user.userId = id) = none :=
    List.find?_eq_none.mpr fun user listed => by simpa using others user listed
  unfold mergedQuietHours
  rw [nobody]

/-- The same for the entries one by one. -/
theorem quietHours_others {id : Uuid}
    (others : ∀ user ∈ usersList, ids.uuid projectId user.userId ≠ id) :
    (entryByEntry ids projectId usersList tables).quietHours id =
      (batched ids projectId usersList tables).quietHours id := by
  refine Eq.trans ?_ (mergedQuietHours_others tables.quietHours others).symm
  induction usersList generalizing tables with
  | nil => rfl
  | cons user rest inductionHypothesis =>
    obtain ⟨here, later⟩ := List.forall_mem_cons.mp others
    refine (@inductionHypothesis (batched ids projectId [user] tables) later).trans ?_
    exact mergedQuietHours_others tables.quietHours (List.forall_mem_singleton.mpr here)

/-- The last entry of each user leaves out nothing that the entries before it gave, unless it is
stored already. -/
structure NothingLost (ids : UserIds) (projectId : Text) (usersList : List UserEntry)
    (tables : UserTables) : Prop where
  attributes : ∀ userId last, lastEntry usersList userId = some last → ∀ name,
    last.attributes name = none → ∀ value,
      lastGiven (fun user => user.attributes name) userId usersList none = some value →
        ((tables.users (projectId, userId)).bind fun row => row name) = some value
  quietHours : ∀ userId last, lastEntry usersList userId = some last →
    last.preferences.quietHours = none → ∀ windows,
      lastGiven (fun user => user.preferences.quietHours) userId usersList none = some windows →
        tables.quietHours (ids.uuid projectId userId) = (windows : Multiset QuietWindow)

/-- The rows of users agree where no attribute is lost. -/
theorem users_agree_iff :
    (batched ids projectId usersList tables).users =
        (entryByEntry ids projectId usersList tables).users ↔
      ∀ userId last, lastEntry usersList userId = some last → ∀ name,
        last.attributes name = none → ∀ value,
          lastGiven (fun user => user.attributes name) userId usersList none = some value →
            ((tables.users (projectId, userId)).bind fun row => row name) = some value := by
  have row := @mergedUsers_at projectId usersList tables.users
  have row' := @entryByEntry_users ids projectId usersList tables
  constructor
  · intro same userId last isLast name
    have here := congrFun same (projectId, userId)
    have rows := (row userId).symm.trans (here.trans (row' userId))
    rw [isLast] at rows
    exact (lastGiven_kept_iff (fun user => user.attributes name) isLast _).mp
      (congrFun (Option.some.inj rows) name)
  · intro kept
    funext key
    obtain ⟨project, userId⟩ := key
    by_cases mine : project = projectId
    · subst mine
      refine (row userId).trans (Eq.trans ?_ (row' userId).symm)
      cases isLast : lastEntry usersList userId with
      | none => rfl
      | some last =>
        refine congrArg some (funext fun name => ?_)
        exact (lastGiven_kept_iff (fun user => user.attributes name) isLast _).mpr
          (kept userId last isLast name)
    · rw [entryByEntry_others mine]
      exact if_neg mine

/-- The quiet hours agree where none are lost. -/
theorem quietHours_agree_iff :
    (batched ids projectId usersList tables).quietHours =
        (entryByEntry ids projectId usersList tables).quietHours ↔
      ∀ userId last, lastEntry usersList userId = some last →
        last.preferences.quietHours = none → ∀ windows,
          lastGiven (fun user => user.preferences.quietHours) userId usersList none =
            some windows →
          tables.quietHours (ids.uuid projectId userId) = (windows : Multiset QuietWindow) := by
  have hours := @mergedQuietHours_at ids projectId usersList tables.quietHours
  have hours' := @entryByEntry_quietHours ids projectId usersList tables
  constructor
  · intro same userId last isLast leaves windows given
    have here := congrFun same (ids.uuid projectId userId)
    have both := (hours userId).symm.trans (here.trans (hours' userId))
    rw [isLast, given, Option.bind_some, leaves] at both
    exact both
  · intro kept
    funext id
    by_cases named : ∃ user ∈ usersList, ids.uuid projectId user.userId = id
    · obtain ⟨user, listed, rfl⟩ := named
      obtain ⟨last, isLast⟩ := lastEntry_some listed
      refine (hours user.userId).trans (Eq.trans ?_ (hours' user.userId).symm)
      rw [isLast, Option.bind_some]
      cases gives : last.preferences.quietHours with
      | some windows => rw [lastGiven_last isLast gives]
      | none =>
        cases given : lastGiven (fun user => user.preferences.quietHours) user.userId usersList
            none with
        | none => rfl
        | some windows => exact kept user.userId last isLast gives windows given
    · have others : ∀ user ∈ usersList, ids.uuid projectId user.userId ≠ id :=
        fun user listed same => named ⟨user, listed, same⟩
      exact (quietHours_others others).symm

/-- A batch comes to the same as its entries one by one exactly where the last entry of each user
loses nothing. -/
theorem upsertManyFull_sequential_iff (ids : UserIds) (projectId : Text)
    (usersList : List UserEntry) (tables : UserTables) :
    upsertManyFull ids projectId usersList tables = oneByOne ids projectId usersList tables ↔
      NothingLost ids projectId usersList tables := by
  rw [upsertManyFull_batched, oneByOne_eq, Option.some.injEq]
  constructor
  · intro same
    exact ⟨users_agree_iff.mp (congrArg UserTables.users same),
      quietHours_agree_iff.mp (congrArg UserTables.quietHours same)⟩
  · intro nothing
    apply UserTables.ext
    · exact users_agree_iff.mpr nothing.attributes
    · exact entryByEntry_segments.symm
    · exact (entryByEntry_preferences fun _ _ => rfl).symm
    · exact (entryByEntry_preferences fun _ _ => rfl).symm
    · exact quietHours_agree_iff.mpr nothing.quietHours

/-- A user that comes with a language and then once more without loses it in a batch, and keeps it
where the entries are sent one by one. -/
theorem batch_loses_language :
    upsertManyFull spelledIds "p".toList
        [{ userId := "u".toList, language := some "de".toList }, { userId := "u".toList }] {} ≠
      oneByOne spelledIds "p".toList
        [{ userId := "u".toList, language := some "de".toList }, { userId := "u".toList }] {} := by
  intro same
  have language := congrArg (fun tables => tables.bind fun (tables : UserTables) =>
    (tables.users ("p".toList, "u".toList)).bind fun row => row "language".toList) same
  exact absurd language (by decide +kernel)

end Sequence

end Batch

end Notifkit.Repositories
