import Notifkit.Foundations.Runs
import Notifkit.Foundations.Tables
import Notifkit.Repositories.UserTables

/-!
# Updates of one user, several at a time

`updatePartial` reads the profile of a user, puts what the patch gives over it and writes all three
attributes back. In the same transaction it replaces segments and quiet hours and sets single topics
and channels, where the patch gives them.

The read is not part of the transaction. From its update of the row to its end a transaction keeps
the row to itself, so that two of them follow one another; what other calls read meanwhile is what
was committed before. A call that read before another wrote therefore writes back attributes that
are no longer stored, although its patch leaves them out. What its patch does not touch in the other
tables it never writes.
-/

namespace Notifkit.Repositories

open Upserts Runs

/-- What a user's profile says, with the defaults for what is not stored. -/
structure UserProfile where
  userId : Text
  language : Json
  timezone : Json
  email : Option Json
deriving DecidableEq

/-- `value ?? default` -/
def orDefault (value : Option Json) (default : Text) : Json :=
  match value with
  | none | some .null => .str default
  | some value => value

def findById (projectId userId : Text) (tables : UserTables) : Option UserProfile :=
  (tables.users (projectId, userId)).map fun attributes => {
    userId := userId
    language := orDefault (attributes "language".toList) "en".toList
    timezone := orDefault (attributes "timezone".toList) "UTC".toList
    email := attributes "email".toList }

structure UserPatch where
  language : Option Text := none
  timezone : Option Text := none
  /-- `null` clears the email -/
  email : Option (Option Text) := none
  segments : Option (List Text) := none
  preferences : Preferences := {}
deriving DecidableEq

/-- The attributes that are written: those of the patch, and for the others what was read. -/
def UserPatch.attrs (patch : UserPatch) (existing : UserProfile) : Attributes := fun name =>
  if name = "language".toList then some ((patch.language.map Json.str).getD existing.language)
  else if name = "timezone".toList then some ((patch.timezone.map Json.str).getD existing.timezone)
  else if name = "email".toList then
    match patch.email with
    | some email => some ((email.map Json.str).getD .null)
    | none => existing.email
  else none

/-- A statement of the transaction, after the update of the row. -/
inductive Statement where
  | deleteSegments
  | insertSegments (segments : List Text)
  | insertTopics (topics : Choices)
  | insertChannels (channels : Choices)
  | deleteQuietHours
  | insertQuietHours (windows : List QuietWindow)
deriving DecidableEq

/-- Rows of preferences of one user. -/
def Choices.rows (choices : Choices) (id : Uuid) : List ((Uuid × Text) × Bool) :=
  choices.entries.map fun entry => ((id, entry.1), entry.2)

/-- What a statement leaves; absent where it is refused. -/
def Statement.run (id : Uuid) (tables : UserTables) : Statement → Option UserTables
  | deleteSegments => some { tables with
      segments := fun key => if key.1 = id then false else tables.segments key }
  | insertSegments segments => some { tables with
      segments := insertMissing (segments.map fun segment => (id, segment)) tables.segments }
  | insertTopics topics =>
    (insertOrUpdate (fun _ enabled => enabled) (topics.rows id) tables.topics).map
      fun stored => { tables with topics := stored }
  | insertChannels channels =>
    (insertOrUpdate (fun _ enabled => enabled) (channels.rows id) tables.channels).map
      fun stored => { tables with channels := stored }
  | deleteQuietHours => some { tables with
      quietHours := fun other => if other = id then 0 else tables.quietHours other }
  | insertQuietHours windows => some { tables with
      quietHours := fun other =>
        if other = id then tables.quietHours other + (windows : Multiset QuietWindow)
        else tables.quietHours other }

/-- Segments are replaced, by none where the list is empty. -/
def segmentStatements : Option (List Text) → List Statement
  | none => []
  | some [] => [.deleteSegments]
  | some segments => [.deleteSegments, .insertSegments segments]

/-- Topics and channels are set one by one. -/
def choiceStatements (insert : Choices → Statement) : Option Choices → List Statement
  | none => []
  | some choices => if choices.entries = [] then [] else [insert choices]

/-- Quiet hours are replaced. -/
def quietHoursStatements : Option (List QuietWindow) → List Statement
  | none => []
  | some [] => [.deleteQuietHours]
  | some windows => [.deleteQuietHours, .insertQuietHours windows]

/-- The statements for a patch, in their order. -/
def UserPatch.statements (patch : UserPatch) : List Statement :=
  segmentStatements patch.segments ++ choiceStatements .insertTopics patch.preferences.topics ++
    choiceStatements .insertChannels patch.preferences.channels ++
    quietHoursStatements patch.preferences.quietHours

/-- `UPDATE users SET attributes`; nothing happens where the row is gone. -/
def UserTables.updateRow (tables : UserTables) (projectId userId : Text) (attrs : Attributes) :
    UserTables := { tables with
  users := fun key => if key = (projectId, userId) then (tables.users key).map fun _ => attrs
    else tables.users key }

/-- Statements one after another. -/
def runAll (id : Uuid) (statements : List Statement) (tables : UserTables) : Option UserTables :=
  statements.foldlM (fun tables statement => statement.run id tables) tables

/-- `updatePartial`, on its own: whether there was such a user, and what is left. -/
def updatePartial (ids : UserIds) (projectId userId : Text) (patch : UserPatch)
    (tables : UserTables) : Option (Bool × UserTables) :=
  match findById projectId userId tables with
  | none => some (false, tables)
  | some existing =>
    let updated := tables.updateRow projectId userId (patch.attrs existing)
    (if (updated.users (projectId, userId)).isSome
      then runAll (ids.uuid projectId userId) patch.statements updated
      else some updated).map fun after => (true, after)

section Effects

variable {id : Uuid} {tables : UserTables} {patch : UserPatch}

/-- What an object chooses for a key. -/
def Choices.get (choices : Choices) (key : Text) : Option Bool := lastOf key choices.entries none

/-- What a patch gives. -/
def UserPatch.attributes (patch : UserPatch) : Attributes :=
  givenAttributes patch.language patch.timezone patch.email

/-- What was read, with its defaults. -/
def UserProfile.attributes (profile : UserProfile) : Attributes := fun name =>
  if name = "language".toList then some profile.language
  else if name = "timezone".toList then some profile.timezone
  else if name = "email".toList then profile.email
  else none

/-- The patch is put over what was read. -/
theorem attrs_eq (patch : UserPatch) (existing : UserProfile) (name : Text) :
    patch.attrs existing name = (patch.attributes name).or (existing.attributes name) := by
  unfold UserPatch.attrs UserPatch.attributes givenAttributes UserProfile.attributes
  split
  · cases patch.language <;> rfl
  · split
    · cases patch.timezone <;> rfl
    · split
      · cases patch.email <;> rfl
      · rfl

/-- What a patch makes of the other tables. -/
def UserPatch.changes (patch : UserPatch) (id : Uuid) (tables : UserTables) : UserTables where
  users := tables.users
  segments := fun key =>
    if key.1 = id then (patch.segments.map fun given => decide (key.2 ∈ given)).getD
      (tables.segments key) else tables.segments key
  topics := fun key =>
    if key.1 = id then (patch.preferences.topics.bind fun given => given.get key.2).or
      (tables.topics key) else tables.topics key
  channels := fun key =>
    if key.1 = id then (patch.preferences.channels.bind fun given => given.get key.2).or
      (tables.channels key) else tables.channels key
  quietHours := fun other =>
    if other = id then (patch.preferences.quietHours.map
      (↑· : List QuietWindow → Multiset QuietWindow)).getD (tables.quietHours other)
    else tables.quietHours other

/-- The insert of choices touches no row twice. -/
theorem Choices.insert_rows (choices : Choices) (id : Uuid) (table : Table (Uuid × Text) Bool) :
    insertOrUpdate (fun _ enabled => enabled) (choices.rows id) table = some fun key =>
      if key.1 = id then (choices.get key.2).or (table key) else table key := by
  have named : Function.Injective fun key : Text => (id, key) :=
    fun _ _ same => (Prod.mk.inj same).2
  have distinct : ((choices.rows id).map Prod.fst).Nodup := by
    have keys := choices.distinct.map named
    unfold Choices.rows
    rw [List.map_map] at keys ⊢
    exact keys
  unfold insertOrUpdate
  rw [if_pos distinct]
  congr 1
  funext key
  rw [foldl_replace, lastOf_eq]
  obtain ⟨other, text⟩ := key
  by_cases same : other = id
  · subst same
    have looked := lastOf_map named (fun value : Bool => value) text choices.entries none
    rw [if_pos rfl]
    congr 1
    simpa [Choices.rows, Choices.get] using looked
  · rw [if_neg same, lastOf_absent]
    · rfl
    · intro row listed here
      obtain ⟨entry, _, rfl⟩ := List.mem_map.mp listed
      exact same (Prod.mk.inj here).1.symm

theorem runAll_append (first second : List Statement) :
    runAll id (first ++ second) tables =
      (runAll id first tables).bind fun tables => runAll id second tables :=
  List.foldlM_append

/-- Without choices nothing is chosen. -/
theorem Choices.get_empty {choices : Choices} (empty : choices.entries = []) (key : Text) :
    choices.get key = none := by
  unfold get
  rw [empty]
  rfl

/-- The segments that are left. -/
theorem run_segments (id : Uuid) (given : Option (List Text)) (tables : UserTables) :
    runAll id (segmentStatements given) tables = some { tables with
      segments := fun key => if key.1 = id then
        (given.map fun given => decide (key.2 ∈ given)).getD (tables.segments key)
        else tables.segments key } := by
  cases given with
  | none => simp [segmentStatements, runAll]
  | some segments =>
    have all : runAll id (segmentStatements (some segments)) tables =
        some { tables with
          segments := insertMissing (segments.map fun segment => (id, segment))
            fun key => if key.1 = id then false else tables.segments key } := by
      cases segments with
      | nil =>
        rw [List.map_nil, insertMissing_nil]
        rfl
      | cons first rest => rfl
    rw [all]
    congr 2
    funext key
    obtain ⟨other, segment⟩ := key
    by_cases same : other = id
    · subst same
      simp [insertMissing]
    · simp [insertMissing, same, Ne.symm same]

/-- One statement sets all choices; without any it is left out. -/
theorem run_choices {insert : Choices → Statement} (left : Option Choices → UserTables)
    (absent : left none = tables)
    (inserted : ∀ choices, (insert choices).run id tables = some (left (some choices)))
    (empty : ∀ choices : Choices, choices.entries = [] → left (some choices) = tables)
    (given : Option Choices) :
    runAll id (choiceStatements insert given) tables = some (left given) := by
  cases given with
  | none => exact congrArg some absent.symm
  | some choices =>
    by_cases nothing : choices.entries = []
    · have none : choiceStatements insert (some choices) = [] := if_pos nothing
      rw [none, empty choices nothing]
      rfl
    · have one : choiceStatements insert (some choices) = [insert choices] := if_neg nothing
      rw [one]
      unfold runAll
      rw [List.foldlM_cons, inserted]
      rfl

/-- The topics that are left. -/
theorem run_topics (id : Uuid) (given : Option Choices) (tables : UserTables) :
    runAll id (choiceStatements .insertTopics given) tables = some { tables with
      topics := fun key => if key.1 = id then
        (given.bind fun given => given.get key.2).or (tables.topics key)
        else tables.topics key } := by
  refine run_choices (fun given => { tables with
    topics := fun key => if key.1 = id then
      (given.bind fun given => given.get key.2).or (tables.topics key)
      else tables.topics key }) ?_ ?_ ?_ given
  · simp
  · intro choices
    simp only [Statement.run, Choices.insert_rows, Option.map_some, Option.bind_some]
  · intro choices nothing
    simp [Choices.get_empty nothing]

/-- The channels that are left. -/
theorem run_channels (id : Uuid) (given : Option Choices) (tables : UserTables) :
    runAll id (choiceStatements .insertChannels given) tables = some { tables with
      channels := fun key => if key.1 = id then
        (given.bind fun given => given.get key.2).or (tables.channels key)
        else tables.channels key } := by
  refine run_choices (fun given => { tables with
    channels := fun key => if key.1 = id then
      (given.bind fun given => given.get key.2).or (tables.channels key)
      else tables.channels key }) ?_ ?_ ?_ given
  · simp
  · intro choices
    simp only [Statement.run, Choices.insert_rows, Option.map_some, Option.bind_some]
  · intro choices nothing
    simp [Choices.get_empty nothing]

/-- The quiet hours that are left. -/
theorem run_quietHours (id : Uuid) (given : Option (List QuietWindow)) (tables : UserTables) :
    runAll id (quietHoursStatements given) tables = some { tables with
      quietHours := fun other => if other = id then
        (given.map (↑· : List QuietWindow → Multiset QuietWindow)).getD (tables.quietHours other)
        else tables.quietHours other } := by
  cases given with
  | none => simp [quietHoursStatements, runAll]
  | some windows =>
    have all : runAll id (quietHoursStatements (some windows)) tables =
        some { tables with
          quietHours := fun other => if other = id then (windows : Multiset QuietWindow)
            else tables.quietHours other } := by
      cases windows with
      | nil => rfl
      | cons first rest =>
        simp only [quietHoursStatements, runAll, List.foldlM_cons, List.foldlM_nil, Statement.run]
        refine congrArg some ?_
        congr 1
        funext other
        by_cases same : other = id <;> simp [same]
    rw [all]
    rfl

/-- The statements of a patch come to its changes. -/
theorem runAll_statements (id : Uuid) (patch : UserPatch) (tables : UserTables) :
    runAll id patch.statements tables = some (patch.changes id tables) := by
  unfold UserPatch.statements
  simp only [runAll_append, run_segments, run_topics, run_channels, run_quietHours,
    Option.bind_some]
  rfl

/-- What an update on its own leaves. -/
theorem updatePartial_changes (ids : UserIds) (projectId userId : Text) (patch : UserPatch)
    (tables : UserTables) :
    updatePartial ids projectId userId patch tables =
      match findById projectId userId tables with
      | none => some (false, tables)
      | some existing => some (true, patch.changes (ids.uuid projectId userId)
          (tables.updateRow projectId userId (patch.attrs existing))) := by
  unfold updatePartial
  cases found : findById projectId userId tables with
  | none => rfl
  | some existing =>
    have there : ((tables.updateRow projectId userId (patch.attrs existing)).users
        (projectId, userId)).isSome = true := by
      obtain ⟨row, present, _⟩ := Option.map_eq_some_iff.mp found
      simp [UserTables.updateRow, present]
    simp only [there, if_true, runAll_statements, Option.map_some]

end Effects

end Notifkit.Repositories
