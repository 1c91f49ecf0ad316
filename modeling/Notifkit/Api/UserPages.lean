import Mathlib.Data.Prod.Lex
import Notifkit.Api.QueryParams
import Notifkit.Foundations.Json
import Notifkit.Foundations.NewestFirst
import Notifkit.Foundations.Patterns
import Notifkit.Foundations.Runs
import Notifkit.Foundations.Uuids

/-!
# Paging through the users

Users are listed newest first, and the cursor is the id of the last user of a page. The next page
looks up that user's row for the place to go on from. Users may be created and deleted between
requests.

Where the user of the cursor was deleted there is no place to go on from: the comparison is with
NULL, no row meets it, and the listing ends. As long as the users of the cursors are still there
when the next page is asked for, every matching user that stays is listed exactly once.
-/

namespace Notifkit.Api.UserPages

open Pipeline Runs

/-- A row of `users`, with what the tables of segments and contacts have for it. -/
structure UserRow where
  id : Uuid
  projectId : Text
  externalId : Text
  /-- The JSON object's values, absent where it has no such key. -/
  attributes : Text → Option Json := fun _ => none
  createdAt : Int
  segments : List Text := []
  contactChannels : List NotificationChannel := []

/-- `(created_at, id)` -/
def UserRow.key (row : UserRow) : Int ×ₗ Uuid := toLex (row.createdAt, row.id)

/-- The table with its constraints. -/
structure Users where
  rows : List UserRow
  ids : (rows.map UserRow.id).Nodup
  unique : (rows.map fun row => (row.projectId, row.externalId)).Nodup

/-- What the database makes of texts and values. -/
structure UserFormats where
  /-- How `ILIKE` folds case. -/
  lower : Text → Text
  /-- The text of a JSON value that is no string. -/
  jsonText : Json → Text

section List

variable (formats : UserFormats)

/-- `attributes->>'key'`, absent where it is NULL. -/
def UserFormats.attribute (row : UserRow) (key : Text) : Option Text :=
  match row.attributes key with
  | none | some .null => none
  | some (.str text) => some text
  | some value => some (formats.jsonText value)

/-- `text ILIKE pattern` -/
def UserFormats.ilike (pattern text : Text) : Bool :=
  like (formats.lower pattern) (formats.lower text)

/-- What a request filters by. -/
structure Filters where
  search : Option Text
  segment : Option Text
  language : Option Text
  timezone : Option Text
  channel : Option Text

/-- The condition some filters make, but for the cursor; absent where the database refuses it. -/
def conditions (projectId : Text) (filters : Option Filters) : Option (UserRow → Bool) := do
  let given := fun field : Filters → Option Text => truthy (filters.bind field)
  let language ← (given Filters.language).mapM storable
  let timezone ← (given Filters.timezone).mapM storable
  let search ← (given Filters.search).mapM storable
  let segment ← (given Filters.segment).mapM storable
  let channel ← (given Filters.channel).mapM channelOf
  pure fun row =>
    row.projectId = projectId &&
    (language.all fun language => formats.attribute row "language".toList = some language) &&
    (timezone.all fun timezone => formats.attribute row "timezone".toList = some timezone) &&
    (search.all fun search =>
      let term := contains search.trim
      formats.ilike term row.externalId ||
        (formats.attribute row "email".toList).any (formats.ilike term)) &&
    (segment.all fun segment => segment ∈ row.segments) &&
    (channel.all fun channel => channel ∈ row.contactChannels)

/-- The rows behind the user a cursor names, looked up by its id; none where there is no such user.
A cursor that is no id is passed over. -/
def Users.behind (users : Users) (cursor : Option Text) (row : UserRow) : Bool :=
  match truthy cursor with
  | none => true
  | some cursor =>
    if Uuid.isUuid cursor then
      match users.rows.find? fun other => Uuid.read cursor = some other.id with
      | some last => row.key < last.key
      | none => false
    else true

/-- A user as it is listed. -/
structure UserProfile where
  userId : Text
  language : Json
  timezone : Json
  email : Option Json
  createdAt : Int

/-- A value, or a default where it is absent or null. -/
def orDefault (value : Option Json) (default : Text) : Json :=
  match value with
  | none | some .null => .str default
  | some value => value

def profileOf (row : UserRow) : UserProfile where
  userId := row.externalId
  language := orDefault (row.attributes "language".toList) "en".toList
  timezone := orDefault (row.attributes "timezone".toList) "UTC".toList
  email := row.attributes "email".toList
  createdAt := row.createdAt / 1000

structure UserPage where
  users : List UserProfile
  nextCursor : Option Text

/-- `UserRepository.list`; absent where the database refuses the filters. -/
def list (users : Users) (projectId : Text) (limit : Nat) (cursor : Option Text)
    (filters : Option Filters) : Option UserPage := do
  let condition ← conditions formats projectId filters
  let rows := (newestFirst UserRow.key
    (users.rows.filter fun row => condition row && users.behind cursor row)).take limit
  pure {
    users := rows.map profileOf
    nextCursor := if rows.length = limit then rows.getLast?.map fun row => Uuid.text row.id
      else none }

/-- The filters of a query, `undefined` where it has none. -/
def filtersOf (query : QueryParams) : Option Filters :=
  let search := getQueryParam query "search".toList
  let segment := getQueryParam query "segment".toList
  let language := getQueryParam query "language".toList
  let timezone := getQueryParam query "timezone".toList
  let channel := getQueryParam query "channel".toList
  if (truthy search).isSome || (truthy segment).isSome || (truthy language).isSome ||
      (truthy timezone).isSome || (truthy channel).isSome then
    some { search, segment, language, timezone, channel }
  else none

/-- `listUsers` -/
def listUsers (users : Users) (projectId : Text) (query : QueryParams) : Option UserPage :=
  list formats users projectId (parseLimit query 50 100) (getQueryParam query "cursor".toList)
    (filtersOf query)

end List

/-- What can happen while a client follows the cursors. -/
inductive Action where
  /-- A user is created, under an id that was never given before. -/
  | create (row : UserRow)
  /-- `UserRepository.delete` -/
  | delete (projectId userId : Text)
  /-- The client asks for the next page. -/
  | page

/-- How far the client has come. -/
inductive Progress where
  | asking (cursor : Option Text)
  | finished

/-- The table, the ids that were given away, and what the client was told. -/
structure World where
  users : Users
  deleted : List Uuid := []
  progress : Progress := .asking none
  listed : List Text := []

/-- Insert a row. -/
def Users.insert (users : Users) (row : UserRow) (id : row.id ∉ users.rows.map UserRow.id)
    (key : (row.projectId, row.externalId) ∉
      users.rows.map fun row => (row.projectId, row.externalId)) : Users where
  rows := row :: users.rows
  ids := List.nodup_cons.mpr ⟨id, users.ids⟩
  unique := List.nodup_cons.mpr ⟨key, users.unique⟩

/-- `UserRepository.delete` -/
def Users.delete (users : Users) (projectId userId : Text) : Users where
  rows := users.rows.filter fun row => !(row.externalId = userId && row.projectId = projectId)
  ids := users.ids.sublist (List.filter_sublist.map _)
  unique := users.unique.sublist (List.filter_sublist.map _)

section Step

variable (formats : UserFormats) (projectId : Text) (query : QueryParams)

/-- One thing happens. -/
def step (world : World) : Action → Option World
  | .create row =>
    if fresh : row.id ∉ world.users.rows.map UserRow.id ∧ row.id ∉ world.deleted ∧
        (row.projectId, row.externalId) ∉
          world.users.rows.map fun row => (row.projectId, row.externalId) then
      some { world with users := world.users.insert row fresh.1 fresh.2.2 }
    else none
  | .delete projectId userId =>
    some { world with
      users := world.users.delete projectId userId
      deleted := (world.users.rows.filter fun row =>
        row.externalId = userId && row.projectId = projectId).map UserRow.id ++ world.deleted }
  | .page =>
    match world.progress with
    | .finished => none
    | .asking cursor =>
      (listUsers formats world.users projectId (withCursor query cursor)).map fun page =>
        { world with
          progress := match page.nextCursor with
            | none => .finished
            | some next => .asking (some next)
          listed := world.listed ++ page.users.map UserProfile.userId }

/-- The user a request's cursor names is still there. -/
def CursorKept (world : World) (action : Action) : Prop :=
  match action, world.progress with
  | .page, .asking (some cursor) => ∃ row ∈ world.users.rows, Uuid.text row.id = cursor
  | _, _ => True

end Step

section Pages

variable {formats : UserFormats} {projectId : Text} {query : QueryParams} {users : Users}
  {condition : UserRow → Bool}

/-- Filters ask for users of the project. -/
theorem project_of_conditions {filters : Option Filters} {row : UserRow}
    (accepted : conditions formats projectId filters = some condition)
    (meets : condition row = true) : row.projectId = projectId := by
  unfold conditions at accepted
  simp only [Option.bind_eq_bind, Option.bind_eq_some_iff] at accepted
  obtain ⟨language, _, timezone, _, search, _, segment, _, channel, _, same⟩ := accepted
  cases same
  simp only [Bool.and_eq_true, decide_eq_true_eq] at meets
  exact meets.1.1.1.1.1

theorem filtersOf_withCursor (cursor : Option Text) :
    filtersOf (withCursor query cursor) = filtersOf query := by
  have other : ∀ key, key ≠ "cursor".toList →
      getQueryParam (withCursor query cursor) key = getQueryParam query key :=
    fun _ apart => getQueryParam_withCursor query cursor apart
  unfold filtersOf
  rw [other "search".toList (by decide), other "segment".toList (by decide),
    other "language".toList (by decide), other "timezone".toList (by decide),
    other "channel".toList (by decide)]

/-- The rows of a page. -/
def pageRows (users : Users) (condition : UserRow → Bool) (limit : Nat) (cursor : Option Text) :
    List UserRow :=
  (newestFirst UserRow.key
    (users.rows.filter fun row => condition row && users.behind cursor row)).take limit

/-- What a request is answered. -/
theorem listUsers_eq (accepted : conditions formats projectId (filtersOf query) = some condition)
    (cursor : Option Text) :
    listUsers formats users projectId (withCursor query cursor) =
      let rows := pageRows users condition (parseLimit query 50 100) cursor
      some ⟨rows.map profileOf, if rows.length = parseLimit query 50 100 then
        rows.getLast?.map fun row => Uuid.text row.id else none⟩ := by
  unfold listUsers list
  rw [parseLimit_withCursor, getQueryParam_cursor, filtersOf_withCursor, accepted]
  rfl

variable {limit : Nat} {cursor : Option Text} {row : UserRow}

/-- No two users stand at one place. -/
theorem Users.keys_distinct (users : Users) : (users.rows.map UserRow.key).Nodup := by
  apply List.pairwise_map.mpr
  refine (List.pairwise_map.mp users.ids).imp fun {one two} differ same => differ ?_
  exact congrArg (fun key : Int ×ₗ Uuid => (ofLex key).2) same

/-- What is on a page is in the table, meets the filters and stands behind the cursor. -/
theorem mem_pageRows (listed : row ∈ pageRows users condition limit cursor) :
    row ∈ users.rows ∧ condition row = true ∧ users.behind cursor row = true := by
  have inside := mem_newestFirst.mp (List.mem_of_mem_take listed)
  rw [List.mem_filter, Bool.and_eq_true] at inside
  exact inside

theorem filtered_distinct :
    ((users.rows.filter fun row => condition row && users.behind cursor row).map
      UserRow.key).Nodup :=
  users.keys_distinct.sublist (List.filter_sublist.map _)

theorem pageRows_sorted :
    (pageRows users condition limit cursor).Pairwise fun one two => two.key < one.key :=
  (newestFirst_sorted filtered_distinct).sublist (List.take_sublist _ _)

/-- A row behind the cursor is on the page, or the page is full and ends before it. -/
theorem pageRows_complete (member : row ∈ users.rows) (meets : condition row = true)
    (behind : users.behind cursor row = true) :
    row ∈ pageRows users condition limit cursor ∨
      (pageRows users condition limit cursor).length = limit ∧
        ∀ other ∈ pageRows users condition limit cursor, row.key < other.key := by
  apply mem_take_newestFirst filtered_distinct
  rw [List.mem_filter, Bool.and_eq_true]
  exact ⟨member, meets, behind⟩

/-- In a project an id is given once. -/
theorem Users.eq_of_externalId {one two : UserRow} (inside : one ∈ users.rows)
    (inside' : two ∈ users.rows) (project : one.projectId = two.projectId)
    (same : one.externalId = two.externalId) : one = two :=
  List.inj_on_of_nodup_map users.unique inside inside' (Prod.ext project same)

/-- The users of a page are told apart by their ids. -/
theorem pageRows_externalIds
    (accepted : conditions formats projectId (filtersOf query) = some condition) :
    ((pageRows users condition limit cursor).map UserRow.externalId).Nodup := by
  have distinct : (pageRows users condition limit cursor).Nodup := by
    refine pageRows_sorted.imp fun {one two} below same => ?_
    rw [same] at below
    exact lt_irrefl _ below
  refine distinct.map_on fun one listed two listed' same => ?_
  obtain ⟨inside, meets, _⟩ := mem_pageRows listed
  obtain ⟨inside', meets', _⟩ := mem_pageRows listed'
  exact users.eq_of_externalId inside inside' ((project_of_conditions accepted meets).trans
    (project_of_conditions accepted meets').symm) same

/-- A page lists each of its users once. -/
theorem count_listed (accepted : conditions formats projectId (filtersOf query) = some condition)
    (listed : row ∈ pageRows users condition limit cursor) :
    ((pageRows users condition limit cursor).map UserRow.externalId).count row.externalId = 1 :=
  List.count_eq_one_of_mem (pageRows_externalIds accepted) (List.mem_map_of_mem listed)

/-- A user that is not on the page is not listed under another's id. -/
theorem count_unlisted (accepted : conditions formats projectId (filtersOf query) = some condition)
    (member : row ∈ users.rows) (meets : condition row = true)
    (unlisted : row ∉ pageRows users condition limit cursor) :
    ((pageRows users condition limit cursor).map UserRow.externalId).count row.externalId = 0 := by
  rw [List.count_eq_zero]
  intro listed
  obtain ⟨other, inside, same⟩ := List.mem_map.mp listed
  obtain ⟨member', meets', _⟩ := mem_pageRows inside
  have project := (project_of_conditions accepted meets').trans
    (project_of_conditions accepted meets).symm
  exact unlisted (users.eq_of_externalId member' member project same ▸ inside)

/-- An id has characters. -/
theorem truthy_text (id : Uuid) : truthy (some (Uuid.text id)) = some (Uuid.text id) := by
  have long := (Uuid.hex_of_isUuid (Uuid.isUuid_text id)).1
  apply Option.filter_eq_some_iff.mpr
  refine ⟨rfl, decide_eq_true fun empty => ?_⟩
  rw [empty] at long
  cases long

/-- The user a cursor names is found by its id. -/
theorem behind_last {last : UserRow} (member : last ∈ users.rows) (row : UserRow) :
    users.behind (some (Uuid.text last.id)) row = decide (row.key < last.key) := by
  have found : (users.rows.find? fun other =>
      Uuid.read (Uuid.text last.id) = some other.id) = some last := by
    cases result : users.rows.find? fun other =>
        Uuid.read (Uuid.text last.id) = some other.id with
    | none =>
      have missed := List.find?_eq_none.mp result last member
      rw [Uuid.read_text] at missed
      exact absurd (decide_eq_true rfl) missed
    | some other =>
      have own : Uuid.read (Uuid.text last.id) = some other.id := by
        simpa using List.find?_some result
      rw [Uuid.read_text] at own
      rw [List.inj_on_of_nodup_map users.ids (List.mem_of_find?_eq_some result) member
        (Option.some.inj own).symm]
  unfold Users.behind
  rw [truthy_text]
  dsimp only
  rw [if_pos (Uuid.isUuid_text last.id), found]

/-- Where it was deleted nothing stands behind it. -/
theorem behind_gone {id : Uuid} (gone : ∀ other ∈ users.rows, other.id ≠ id) (row : UserRow) :
    users.behind (some (Uuid.text id)) row = false := by
  have missing : (users.rows.find? fun other => Uuid.read (Uuid.text id) = some other.id) =
      none := by
    rw [List.find?_eq_none]
    intro other member found
    have own := of_decide_eq_true found
    rw [Uuid.read_text] at own
    exact gone other member (Option.some.inj own).symm
  unfold Users.behind
  rw [truthy_text]
  dsimp only
  rw [if_pos (Uuid.isUuid_text id), missing]

end Pages

section Runs

variable {formats : UserFormats} {projectId : Text} {query : QueryParams}
  {condition : UserRow → Bool} {initial : Users} {world next : World}

/-- The last user of the page before has come to a user: it was listed, and so are those above. -/
def passed (edge : Option UserRow) (row : UserRow) : Bool :=
  edge.any fun last => last.key ≤ row.key

/-- A user that was there from the start, is still there, and meets the filters. -/
structure Stays (initial : Users) (condition : UserRow → Bool) (world : World) (row : UserRow) :
    Prop where
  first : row ∈ initial.rows
  still : row ∈ world.users.rows
  meets : condition row = true

/-- What the client was told of the users that stay: those it has come past, each once. -/
def Told (initial : Users) (condition : UserRow → Bool) (world : World) : Prop :=
  match world.progress with
  | .asking cursor => ∃ edge : Option UserRow,
      cursor = edge.map (fun last => Uuid.text last.id) ∧
      (∀ last ∈ edge, last ∈ world.users.rows ∨ last.id ∈ world.deleted) ∧
      ∀ row, Stays initial condition world row →
        world.listed.count row.externalId = if passed edge row then 1 else 0
  | .finished => ∀ row, Stays initial condition world row → world.listed.count row.externalId = 1

/-- What holds in every state of a run. -/
structure Follows (initial : Users) (condition : UserRow → Bool) (world : World) : Prop where
  /-- Users are gone for good. -/
  gone : ∀ row ∈ initial.rows, row ∈ world.users.rows ∨ row.id ∈ world.deleted
  apart : ∀ row ∈ world.users.rows, row.id ∉ world.deleted
  told : Told initial condition world

/-- Where the same users stay the client was told as much. -/
theorem Told.mono (told : Told initial condition world) (progress : next.progress = world.progress)
    (listed : next.listed = world.listed)
    (stays : ∀ row, Stays initial condition next row → Stays initial condition world row)
    (kept : ∀ row, row ∈ world.users.rows ∨ row.id ∈ world.deleted →
      row ∈ next.users.rows ∨ row.id ∈ next.deleted) : Told initial condition next := by
  unfold Told at told ⊢
  rw [progress, listed]
  split
  next cursor same =>
    rw [same] at told
    obtain ⟨edge, is, known, counts⟩ := told
    exact ⟨edge, is, fun last own => kept last (known last own),
      fun row own => counts row (stays row own)⟩
  next same =>
    rw [same] at told
    exact fun row own => told row (stays row own)

/-- A created user is none of those that were there. -/
theorem Follows.create {row : UserRow} (follows : Follows initial condition world)
    (taken : step formats projectId query world (.create row) = some next) :
    Follows initial condition next := by
  rw [step] at taken
  split at taken
  next fresh =>
    cases taken
    obtain ⟨new, never, _⟩ := fresh
    have old : ∀ other ∈ initial.rows, other ∈ row :: world.users.rows →
        other ∈ world.users.rows := by
      intro other first inside
      rcases List.mem_cons.mp inside with rfl | inside
      · rcases follows.gone other first with still | dead
        · exact still
        · exact absurd dead never
      · exact inside
    constructor
    · intro other first
      exact (follows.gone other first).imp_left (List.mem_cons_of_mem row)
    · intro other inside
      rcases List.mem_cons.mp inside with rfl | inside
      · exact never
      · exact follows.apart other inside
    · apply follows.told.mono
      · rfl
      · rfl
      · intro other stays
        exact ⟨stays.first, old other stays.first stays.still, stays.meets⟩
      · intro other known
        exact known.imp_left (List.mem_cons_of_mem row)
  next => cases taken

/-- A deleted user does not stay. -/
theorem Follows.delete {project userId : Text} (follows : Follows initial condition world)
    (taken : step formats projectId query world (.delete project userId) = some next) :
    Follows initial condition next := by
  cases taken
  have parts : ∀ row ∈ world.users.rows, row ∈ (world.users.delete project userId).rows ∨
      row.id ∈ (world.users.rows.filter fun row =>
        row.externalId = userId && row.projectId = project).map UserRow.id ++ world.deleted := by
    intro row inside
    cases own : row.externalId = userId && row.projectId = project with
    | false =>
      left
      apply List.mem_filter.mpr
      exact ⟨inside, by rw [own]; rfl⟩
    | true =>
      right
      apply List.mem_append_left
      exact List.mem_map_of_mem (List.mem_filter.mpr ⟨inside, own⟩)
  have kept : ∀ row : UserRow, row ∈ world.users.rows ∨ row.id ∈ world.deleted →
      row ∈ (world.users.delete project userId).rows ∨
        row.id ∈ (world.users.rows.filter fun row =>
          row.externalId = userId && row.projectId = project).map UserRow.id ++ world.deleted := by
    intro row known
    rcases known with still | dead
    · exact parts row still
    · exact .inr (List.mem_append_right _ dead)
  constructor
  · exact fun row first => kept row (follows.gone row first)
  · intro row inside dead
    obtain ⟨inside, other⟩ := List.mem_filter.mp inside
    rcases List.mem_append.mp dead with now | before
    · obtain ⟨twin, found, same⟩ := List.mem_map.mp now
      obtain ⟨found, own⟩ := List.mem_filter.mp found
      rw [List.inj_on_of_nodup_map world.users.ids found inside same] at own
      rw [own] at other
      cases other
    · exact follows.apart row inside before
  · apply follows.told.mono
    · rfl
    · rfl
    · intro row stays
      exact ⟨stays.first, (List.mem_filter.mp stays.still).1, stays.meets⟩
    · exact kept

/-- The last row of a page has come past all rows of the page, and past those before it. -/
theorem passed_last {limit : Nat} {cursor : Option Text} {users : Users} {last row : UserRow}
    (ends : (pageRows users condition limit cursor).getLast? = some last)
    (listed : row ∈ pageRows users condition limit cursor) : last.key ≤ row.key := by
  obtain ⟨front, split⟩ := List.getLast?_eq_some_iff.mp ends
  have sorted : (pageRows users condition limit cursor).Pairwise
      fun one two => two.key < one.key := pageRows_sorted
  rw [split] at sorted listed
  rcases List.mem_append.mp listed with early | own
  · exact le_of_lt ((List.pairwise_append.mp sorted).2.2 row early last List.mem_cons_self)
  · rw [List.mem_singleton.mp own]

theorem passed_some {last row : UserRow} : passed (some last) row = true ↔ last.key ≤ row.key :=
  decide_eq_true_iff

/-- Who was passed stands above who was not. -/
theorem passed_above {edge : Option UserRow} {above below : UserRow}
    (yes : passed edge above = true) (no : ¬ passed edge below = true) :
    below.key ≤ above.key := by
  cases edge with
  | none => cases yes
  | some last =>
    rw [passed_some] at yes no
    exact le_trans (le_of_lt (lt_of_not_ge no)) yes

/-- With its user in the table, a cursor leads to the rows the client has not come past. -/
theorem behind_edge {users : Users} {edge : Option UserRow}
    (there : ∀ last ∈ edge, last ∈ users.rows) (row : UserRow) :
    users.behind (edge.map fun last => Uuid.text last.id) row = !passed edge row := by
  cases edge with
  | none => rfl
  | some last =>
    rw [Option.map_some, behind_last (there last rfl)]
    by_cases above : last.key ≤ row.key
    · rw [passed_some.mpr above, decide_eq_false (not_lt_of_ge above)]
      rfl
    · have below : passed (some last) row = false := by
        rw [← Bool.not_eq_true, passed_some]
        exact above
      rw [below, decide_eq_true (lt_of_not_ge above)]
      rfl

/-- The page behind a user, or the first one. -/
def nextRows (users : Users) (condition : UserRow → Bool) (limit : Nat) (edge : Option UserRow) :
    List UserRow :=
  pageRows users condition limit (edge.map fun last => Uuid.text last.id)

section Counts

variable {users : Users} {edge : Option UserRow} {limit : Nat} {listed : List Text}
  {row : UserRow}

/-- After a page a user was told of if the client had come past it, or it is on the page. -/
theorem count_after (accepted : conditions formats projectId (filtersOf query) = some condition)
    (there : ∀ last ∈ edge, last ∈ users.rows) (member : row ∈ users.rows)
    (meets : condition row = true)
    (count : listed.count row.externalId = if passed edge row then 1 else 0) :
    (row ∈ nextRows users condition limit edge →
      (listed ++ (nextRows users condition limit edge).map UserRow.externalId).count
        row.externalId = 1) ∧
    (row ∉ nextRows users condition limit edge →
      (listed ++ (nextRows users condition limit edge).map UserRow.externalId).count
        row.externalId = if passed edge row then 1 else 0) := by
  rw [List.count_append, count]
  constructor
  · intro inside
    have behind := (mem_pageRows inside).2.2
    rw [behind_edge there, Bool.not_eq_true'] at behind
    rw [nextRows, count_listed accepted inside, behind]
    rfl
  · intro outside
    rw [nextRows, count_unlisted accepted member meets outside, Nat.add_zero]

/-- A user the client has not come past is on the next page, or behind a full one. -/
theorem ahead_listed (there : ∀ last ∈ edge, last ∈ users.rows) (member : row ∈ users.rows)
    (meets : condition row = true) (ahead : ¬ passed edge row = true) :
    row ∈ nextRows users condition limit edge ∨
      (nextRows users condition limit edge).length = limit ∧
        ∀ other ∈ nextRows users condition limit edge, row.key < other.key := by
  apply pageRows_complete member meets
  rw [behind_edge there, Bool.not_eq_true', ← Bool.not_eq_true]
  exact ahead

/-- A page that is followed by another has come past the users up to its last. -/
theorem count_full {last : UserRow}
    (accepted : conditions formats projectId (filtersOf query) = some condition)
    (there : ∀ last ∈ edge, last ∈ users.rows) (member : row ∈ users.rows)
    (meets : condition row = true)
    (count : listed.count row.externalId = if passed edge row then 1 else 0)
    (ends : (nextRows users condition limit edge).getLast? = some last) :
    (listed ++ (nextRows users condition limit edge).map UserRow.externalId).count
      row.externalId = if passed (some last) row then 1 else 0 := by
  obtain ⟨inside, outside⟩ : (row ∈ nextRows users condition limit edge → _) ∧ _ :=
    count_after accepted there member meets count
  have final := List.mem_of_getLast? ends
  by_cases here : row ∈ nextRows users condition limit edge
  · rw [inside here, if_pos (passed_some.mpr (passed_last ends here))]
  · rw [outside here]
    by_cases earlier : passed edge row = true
    · have behind := (mem_pageRows final).2.2
      rw [behind_edge there, Bool.not_eq_true', ← Bool.not_eq_true] at behind
      rw [if_pos earlier, if_pos (passed_some.mpr (passed_above earlier behind))]
    · have ahead := (ahead_listed there member meets earlier).resolve_left here
      have below : ¬ passed (some last) row = true := by
        rw [passed_some]
        exact not_le_of_gt (ahead.2 last final)
      rw [if_neg earlier, if_neg below]

/-- A last page leaves nobody out. -/
theorem count_short (accepted : conditions formats projectId (filtersOf query) = some condition)
    (there : ∀ last ∈ edge, last ∈ users.rows) (member : row ∈ users.rows)
    (meets : condition row = true)
    (count : listed.count row.externalId = if passed edge row then 1 else 0)
    (short : (nextRows users condition limit edge).length ≠ limit) :
    (listed ++ (nextRows users condition limit edge).map UserRow.externalId).count
      row.externalId = 1 := by
  obtain ⟨inside, outside⟩ : (row ∈ nextRows users condition limit edge → _) ∧ _ :=
    count_after accepted there member meets count
  by_cases here : row ∈ nextRows users condition limit edge
  · exact inside here
  · rw [outside here]
    by_cases earlier : passed edge row = true
    · rw [if_pos earlier]
    · exact absurd ((ahead_listed there member meets earlier).resolve_left here).1 short

end Counts

/-- With the user of its cursor in the table a page tells of the next users, and of none twice. -/
theorem Follows.page (follows : Follows initial condition world)
    (accepted : conditions formats projectId (filtersOf query) = some condition)
    (kept : CursorKept world .page)
    (taken : step formats projectId query world .page = some next) :
    Follows initial condition next := by
  obtain ⟨users, deleted, progress, listed⟩ := world
  have told := follows.told
  rw [step] at taken
  cases progress with
  | finished => cases taken
  | asking cursor =>
    obtain ⟨edge, is, known, counts⟩ := told
    dsimp only at taken is known counts
    rw [listUsers_eq accepted] at taken
    cases taken
    subst is
    have there : ∀ last ∈ edge, last ∈ users.rows := by
      rintro last ⟨⟩
      obtain ⟨row, inside, same⟩ : ∃ row ∈ users.rows, Uuid.text row.id = Uuid.text last.id := kept
      have id := congrArg Uuid.read same
      rw [Uuid.read_text, Uuid.read_text] at id
      refine (known last rfl).resolve_right fun dead => ?_
      exact follows.apart row inside (Option.some.inj id ▸ dead)
    have positive : 0 < parseLimit query 50 100 := parseLimit_pos (by decide) (by decide)
    refine ⟨follows.gone, follows.apart, ?_⟩
    change Told initial condition ⟨users, deleted, _,
      listed ++ ((nextRows users condition _ edge).map profileOf).map UserProfile.userId⟩
    rw [List.map_map]
    change Told initial condition ⟨users, deleted,
      match if (nextRows users condition _ edge).length = _ then
          (nextRows users condition _ edge).getLast?.map fun row => Uuid.text row.id else none with
        | none => .finished
        | some next => .asking (some next),
      listed ++ (nextRows users condition _ edge).map UserRow.externalId⟩
    generalize parseLimit query 50 100 = limit at positive ⊢
    by_cases full : (nextRows users condition limit edge).length = limit
    · have some' : nextRows users condition limit edge ≠ [] := by
        rw [← List.length_pos_iff, full]
        exact positive
      obtain ⟨last, ends⟩ := Option.isSome_iff_exists.mp (List.getLast?_isSome.mpr some')
      have final := (mem_pageRows (List.mem_of_getLast? ends)).1
      rw [if_pos full, ends]
      refine ⟨some last, rfl, ?_, fun row stays => ?_⟩
      · rintro _ ⟨⟩
        exact .inl final
      · exact count_full accepted there stays.still stays.meets (counts row
          ⟨stays.first, stays.still, stays.meets⟩) ends
    · rw [if_neg full]
      intro row stays
      exact count_short accepted there stays.still stays.meets (counts row
        ⟨stays.first, stays.still, stays.meets⟩) full

/-- With the users of its cursors in the table, a listing has told of every user that meets the
filters and was there throughout: at any time once at most, and when it has ended exactly once. -/
theorem users_listed {users : Users} {final : World} {row : UserRow}
    (accepted : conditions formats projectId (filtersOf query) = some condition)
    (run : Reaches (step formats projectId query) CursorKept { users } final)
    (stays : Stays users condition final row) :
    final.listed.count row.externalId ≤ 1 ∧
      (final.progress = .finished → final.listed.count row.externalId = 1) := by
  have follows : Follows users condition final := by
    refine run.invariant ?_ fun world action next follows kept taken => ?_
    · refine ⟨fun row first => .inl first, fun _ _ => List.not_mem_nil, none, rfl, ?_, ?_⟩
      · rintro last ⟨⟩
      · exact fun row _ => List.count_nil
    · cases action with
      | create row => exact follows.create taken
      | delete project userId => exact follows.delete taken
      | page => exact follows.page accepted kept taken
  have told := follows.told
  unfold Told at told
  split at told
  next cursor same =>
    obtain ⟨edge, _, _, counts⟩ := told
    refine ⟨?_, fun ended => ?_⟩
    · rw [counts row stays]
      split <;> omega
    · rw [same] at ended
      cases ended
  next same => exact ⟨Nat.le_of_eq (told row stays), fun _ => told row stays⟩

/-- A page whose cursor names a user that was deleted is empty, and the listing ends there. -/
theorem page_gone {users : Users} {id : Uuid}
    (accepted : conditions formats projectId (filtersOf query) = some condition)
    (gone : ∀ row ∈ users.rows, row.id ≠ id) :
    listUsers formats users projectId (withCursor query (some (Uuid.text id))) =
      some ⟨[], none⟩ := by
  have nobody : pageRows users condition (parseLimit query 50 100) (some (Uuid.text id)) = [] := by
    apply List.eq_nil_iff_forall_not_mem.mpr
    intro row listed
    have behind := (mem_pageRows listed).2.2
    rw [behind_gone gone] at behind
    cases behind
  have positive : 0 < parseLimit query 50 100 := parseLimit_pos (by decide) (by decide)
  rw [listUsers_eq accepted, nobody]
  dsimp only
  rw [List.length_nil, if_neg (Nat.ne_of_lt positive), List.map_nil]

/-- A project's three users, created at one time. -/
def threeUsers : Users where
  rows := [⟨3, "p".toList, "u3".toList, fun _ => none, 0, [], []⟩,
    ⟨2, "p".toList, "u2".toList, fun _ => none, 0, [], []⟩,
    ⟨1, "p".toList, "u1".toList, fun _ => none, 0, [], []⟩]
  ids := by decide +kernel
  unique := by decide

/-- A request for pages of one user. -/
def onePerPage : QueryParams := fun key => if key = "limit".toList then some "1".toList else none

/-- A database that folds no case. -/
def plainFormats : UserFormats := ⟨id, fun _ => []⟩

/-- The users of the project. -/
def everyone (row : UserRow) : Bool :=
  row.projectId = "p".toList && true && true && true && true && true

theorem onePerPage_accepted :
    conditions plainFormats "p".toList (filtersOf onePerPage) = some everyone := rfl

/-- The user of the first page's cursor is deleted: the second page is empty, its cursor is null,
and the two users that are left are never listed. -/
theorem users_lost :
    ¬ ∀ (formats : UserFormats) (projectId : Text) (query : QueryParams)
      (condition : UserRow → Bool) (users : Users) (final : World) (row : UserRow),
      conditions formats projectId (filtersOf query) = some condition →
      Reaches (step formats projectId query) anyStep { users } final →
      Stays users condition final row →
      final.listed.count row.externalId ≤ 1 ∧
        (final.progress = .finished → final.listed.count row.externalId = 1) := by
  intro claimed
  obtain ⟨final, performed, ended, listed, left⟩ : ∃ final,
      perform (step plainFormats "p".toList onePerPage) { users := threeUsers }
        [.page, .delete "p".toList "u3".toList, .page] = some final ∧
      final.progress = .finished ∧ final.listed = ["u3".toList] ∧
      final.users.rows = threeUsers.rows.tail := ⟨_, rfl, rfl, rfl, rfl⟩
  have stays : Stays threeUsers everyone final
      ⟨1, "p".toList, "u1".toList, fun _ => none, 0, [], []⟩ := by
    constructor
    · exact .tail _ (.tail _ (.head _))
    · rw [left]
      exact .tail _ (.head _)
    · rfl
  have whole := (claimed plainFormats "p".toList onePerPage everyone threeUsers final _
    onePerPage_accepted (reaches_any _ performed) stays).2 ended
  rw [listed] at whole
  cases whole

/-- Where another user is deleted the listing goes on to the last one. -/
theorem users_listed_two :
    ∃ final, Reaches (step plainFormats "p".toList onePerPage) CursorKept { users := threeUsers }
        final ∧ final.progress = .finished ∧ final.listed.count "u1".toList = 1 := by
  obtain ⟨final, performed, ended, left⟩ : ∃ final,
      perform (step plainFormats "p".toList onePerPage) { users := threeUsers }
        [.page, .delete "p".toList "u2".toList, .page, .page] = some final ∧
      final.progress = .finished ∧
      final.users.rows = [⟨3, "p".toList, "u3".toList, fun _ => none, 0, [], []⟩,
        ⟨1, "p".toList, "u1".toList, fun _ => none, 0, [], []⟩] := ⟨_, rfl, rfl, rfl⟩
  have run : Reaches (step plainFormats "p".toList onePerPage) CursorKept { users := threeUsers }
      final := by
    refine reaches_of_perform _ ?_ performed
    exact ⟨trivial, trivial, ⟨_, .head _, rfl⟩, ⟨_, .tail _ (.head _), rfl⟩, trivial⟩
  have stays : Stays threeUsers everyone final
      ⟨1, "p".toList, "u1".toList, fun _ => none, 0, [], []⟩ := by
    constructor
    · exact .tail _ (.tail _ (.head _))
    · rw [left]
      exact .tail _ (.head _)
    · rfl
  exact ⟨final, run, ended, (users_listed onePerPage_accepted run stays).2 ended⟩

end Runs

end Notifkit.Api.UserPages
