import Notifkit.Repositories.UserUpdates

/-!
# Calls of `updatePartial` in any interleaving of their statements

A call reads the profile, and then runs its transaction statement by statement. The update takes the
row of the user, which the transaction holds until it is committed; another update waits. What is
not committed is seen by its own transaction only.

The attributes that are left in the end are those the last update wrote. Patches that touch
different fields are all kept exactly where the call that updated last had read every attribute it
leaves out as the others were to leave it.
-/

namespace Notifkit.Repositories

open Upserts Runs

/-- How far a call is. -/
inductive UpdatePhase where
  | ready
  | read (existing : UserProfile)
  /-- the row is updated, its id is not looked up yet -/
  | selecting (existing : UserProfile)
  | writing (existing : UserProfile) (rest : List Statement)
  | resolved (found : Bool)
deriving DecidableEq

structure UpdateCall where
  patch : UserPatch
  phase : UpdatePhase := .ready
deriving DecidableEq

structure UpdateWorld where
  /-- what is committed -/
  tables : UserTables
  calls : List UpdateCall
  /-- the call whose transaction holds the row, with the tables as it sees them -/
  holder : Option (Nat × UserTables) := none
  /-- the patch that was committed last, and what its call had read; no step looks at it -/
  latest : Option (UserPatch × UserProfile) := none

inductive UpdateAction where
  | find (call : Nat)
  | update (call : Nat)
  | select (call : Nat)
  | write (call : Nat)
  | commit (call : Nat)

section Steps

variable (ids : UserIds) (projectId userId : Text)

/-- A call goes on to its next phase. -/
def UpdateWorld.turn (world : UpdateWorld) (call : Nat) (patch : UserPatch)
    (phase : UpdatePhase) : UpdateWorld :=
  { world with calls := world.calls.set call { patch := patch, phase := phase } }

/-- One statement of one call. -/
def updateStep (world : UpdateWorld) : UpdateAction → Option UpdateWorld
  | .find call =>
    match world.calls[call]? with
    | some { patch, phase := .ready } =>
      match findById projectId userId world.tables with
      | some existing => some (world.turn call patch (.read existing))
      | none => some (world.turn call patch (.resolved false))
    | _ => none
  | .update call =>
    match world.calls[call]?, world.holder with
    | some { patch, phase := .read existing }, none =>
      some { world.turn call patch (.selecting existing) with
        holder := some (call,
          world.tables.updateRow projectId userId (patch.attrs existing)) }
    | _, _ => none
  | .select call =>
    match world.calls[call]?, world.holder with
    | some { patch, phase := .selecting existing }, some (holder, tables) =>
      if holder = call then
        some (world.turn call patch (.writing existing
          (if (tables.users (projectId, userId)).isSome then patch.statements else [])))
      else none
    | _, _ => none
  | .write call =>
    match world.calls[call]?, world.holder with
    | some { patch, phase := .writing existing (statement :: rest) }, some (holder, tables) =>
      if holder = call then
        (statement.run (ids.uuid projectId userId) tables).map fun after =>
          { world.turn call patch (.writing existing rest) with holder := some (call, after) }
      else none
    | _, _ => none
  | .commit call =>
    match world.calls[call]?, world.holder with
    | some { patch, phase := .writing existing [] }, some (holder, tables) =>
      if holder = call then
        some { world.turn call patch (.resolved true) with
          tables := tables, holder := none, latest := some (patch, existing) }
      else none
    | _, _ => none

end Steps

/-- Calls that have not begun. -/
def startUpdates (tables : UserTables) (patches : List UserPatch) : UpdateWorld where
  tables := tables
  calls := patches.map fun patch => { patch := patch }

/-- The fields a patch may touch. -/
inductive UserField where
  | attr (name : Text)
  | segments
  | topic (name : Text)
  | channel (name : Text)
  | quietHours

/-- The choice of a topic. -/
def UserPatch.topic (patch : UserPatch) (name : Text) : Option Bool :=
  patch.preferences.topics.bind fun given => given.get name

/-- The choice of a channel. -/
def UserPatch.channel (patch : UserPatch) (name : Text) : Option Bool :=
  patch.preferences.channels.bind fun given => given.get name

/-- A patch gives a value to a field. -/
def UserPatch.touches (patch : UserPatch) : UserField → Bool
  | .attr name => (patch.attributes name).isSome
  | .segments => patch.segments.isSome
  | .topic name => (patch.topic name).isSome
  | .channel name => (patch.channel name).isSome
  | .quietHours => patch.preferences.quietHours.isSome

/-- No field is touched by two of the patches. -/
def Apart (patches : List UserPatch) : Prop :=
  patches.Pairwise fun first second => ∀ field, first.touches field = true →
    second.touches field = false

/-- A call with the patch has resolved, after it found the user. -/
def UpdateWorld.Applied (world : UpdateWorld) (patch : UserPatch) : Prop :=
  { patch := patch, phase := .resolved true } ∈ world.calls

/-- A value is as the patch that gives one has it, or as it was stored if none does. -/
def Kept {β : Type} (applied : UserPatch → Prop) (given : UserPatch → Option β)
    (stored now : β) : Prop :=
  (∀ patch, applied patch → ∀ value, given patch = some value → now = value) ∧
    ((∀ patch, applied patch → given patch = none) → now = stored)

/-- An attribute of the user, absent also where there is no row. -/
def UserTables.storedAttribute (tables : UserTables) (projectId userId name : Text) : Option Json :=
  (tables.users (projectId, userId)).bind fun row => row name

/-- The other fields of the user are kept. -/
structure PreferencesKept (applied : UserPatch → Prop) (id : Uuid) (stored now : UserTables) :
    Prop where
  segments : ∀ segment, Kept applied
    (fun patch => patch.segments.map fun given => decide (segment ∈ given))
    (stored.segments (id, segment)) (now.segments (id, segment))
  topics : ∀ name, Kept applied (fun patch => (patch.topic name).map some)
    (stored.topics (id, name)) (now.topics (id, name))
  channels : ∀ name, Kept applied (fun patch => (patch.channel name).map some)
    (stored.channels (id, name)) (now.channels (id, name))
  quietHours : Kept applied (fun patch => patch.preferences.quietHours.map
    (↑· : List QuietWindow → Multiset QuietWindow)) (stored.quietHours id) (now.quietHours id)

/-- An attribute is kept. -/
def AttributeKept (applied : UserPatch → Prop) (name : Text) (stored now : Option Json) : Prop :=
  Kept applied (fun patch => (patch.attributes name).map some) stored now

/-- No update is lost: every field holds the value of the call that changed it, and what no call
changed is as it was. -/
def NoUpdateLost (ids : UserIds) (projectId userId : Text) (stored : UserTables)
    (world : UpdateWorld) : Prop :=
  (∀ name, AttributeKept world.Applied name (stored.storedAttribute projectId userId name)
    (world.tables.storedAttribute projectId userId name)) ∧
  PreferencesKept world.Applied (ids.uuid projectId userId) stored world.tables

/-- The call that updated last had read every attribute that its patch leaves out as it is to be
kept. -/
def LastReadKept (projectId userId : Text) (stored : UserTables) (world : UpdateWorld) : Prop :=
  match world.latest with
  | none => True
  | some (patch, existing) => ∀ name, patch.attributes name = none →
      AttributeKept world.Applied name (stored.storedAttribute projectId userId name)
        (existing.attributes name)

section Turns

variable {ids : UserIds} {projectId userId : Text} {world after : UpdateWorld}
  {action : UpdateAction}

/-- What a step does, with the state it is taken in. -/
inductive Turn (ids : UserIds) (projectId userId : Text) (world : UpdateWorld) :
    UpdateWorld → Prop where
  | found {call patch existing} (here : world.calls[call]? = some { patch, phase := .ready })
      (row : findById projectId userId world.tables = some existing) :
      Turn ids projectId userId world (world.turn call patch (.read existing))
  | missing {call patch} (here : world.calls[call]? = some { patch, phase := .ready }) :
      Turn ids projectId userId world (world.turn call patch (.resolved false))
  | updated {call patch existing}
      (here : world.calls[call]? = some { patch, phase := .read existing }) :
      Turn ids projectId userId world { world.turn call patch (.selecting existing) with
        holder := some (call, world.tables.updateRow projectId userId (patch.attrs existing)) }
  | selected {call patch existing tables}
      (here : world.calls[call]? = some { patch, phase := .selecting existing })
      (holds : world.holder = some (call, tables)) :
      Turn ids projectId userId world (world.turn call patch (.writing existing
        (if (tables.users (projectId, userId)).isSome then patch.statements else [])))
  | wrote {call patch existing statement rest tables later}
      (here : world.calls[call]? = some { patch, phase := .writing existing (statement :: rest) })
      (holds : world.holder = some (call, tables))
      (done : Statement.run (ids.uuid projectId userId) tables statement = some later) :
      Turn ids projectId userId world
        { world.turn call patch (.writing existing rest) with holder := some (call, later) }
  | committed {call patch existing tables}
      (here : world.calls[call]? = some { patch, phase := .writing existing [] })
      (holds : world.holder = some (call, tables)) :
      Turn ids projectId userId world { world.turn call patch (.resolved true) with
        tables := tables, holder := none, latest := some (patch, existing) }

/-- Every step is one of these. -/
theorem turn_of_step (taken : updateStep ids projectId userId world action = some after) :
    Turn ids projectId userId world after := by
  cases action with
  | find call =>
    simp only [updateStep] at taken
    split at taken
    next patch here =>
      split at taken
      next existing row =>
        obtain rfl := Option.some.inj taken
        exact .found here row
      next =>
        obtain rfl := Option.some.inj taken
        exact .missing here
    next => cases taken
  | update call =>
    simp only [updateStep] at taken
    split at taken
    next patch existing here free =>
      obtain rfl := Option.some.inj taken
      exact .updated here
    next => cases taken
  | select call =>
    simp only [updateStep] at taken
    split at taken
    next patch existing holder tables here holds =>
      split at taken
      next mine =>
        obtain rfl := Option.some.inj taken
        exact .selected here (mine ▸ holds)
      next => cases taken
    next => cases taken
  | write call =>
    simp only [updateStep] at taken
    split at taken
    next patch existing statement rest holder tables here holds =>
      split at taken
      next mine =>
        obtain ⟨later, done, rfl⟩ := Option.map_eq_some_iff.mp taken
        exact .wrote here (mine ▸ holds) done
      next => cases taken
    next => cases taken
  | commit call =>
    simp only [updateStep] at taken
    split at taken
    next patch existing holder tables here holds =>
      split at taken
      next mine =>
        obtain rfl := Option.some.inj taken
        exact .committed here (mine ▸ holds)
      next => cases taken
    next => cases taken

/-- A call that goes on keeps its patch. -/
theorem turn_patches {call : Nat} {patch : UserPatch} {phase : UpdatePhase}
    (here : world.calls[call]? = some { patch, phase }) (next : UpdatePhase) :
    (world.turn call patch next).calls.map UpdateCall.patch =
      world.calls.map UpdateCall.patch := by
  have same : (world.calls.map UpdateCall.patch)[call]? = some patch := by
    rw [List.getElem?_map, here]
    rfl
  unfold UpdateWorld.turn
  rw [List.map_set]
  exact Tables.set_same same

/-- What is applied after a call went on. -/
theorem turn_applied {call : Nat} {patch : UserPatch} {phase : UpdatePhase}
    (here : world.calls[call]? = some { patch, phase }) (open' : phase ≠ .resolved true)
    (next : UpdatePhase) (other : UserPatch) :
    (world.turn call patch next).Applied other ↔
      world.Applied other ∨ next = .resolved true ∧ other = patch := by
  unfold UpdateWorld.Applied UpdateWorld.turn
  rw [List.mem_iff_getElem?, List.mem_iff_getElem?]
  simp only [Tables.row_set here, UpdateCall.mk.injEq]
  constructor
  · rintro ⟨position, ⟨-, rfl, rfl⟩ | ⟨-, there⟩⟩
    · exact .inr ⟨rfl, rfl⟩
    · exact .inl ⟨position, there⟩
  · rintro (⟨position, there⟩ | ⟨rfl, rfl⟩)
    · refine ⟨position, .inr ⟨?_, there⟩⟩
      rintro rfl
      rw [here] at there
      exact open' (UpdateCall.mk.inj (Option.some.inj there)).2
    · exact ⟨call, .inl ⟨rfl, rfl, rfl⟩⟩

end Turns

section Invariants

variable {ids : UserIds} {projectId userId : Text} {stored : UserTables}
  {patches : List UserPatch}

/-- The call found the user. -/
def UpdatePhase.found : UpdatePhase → Bool
  | .ready | .resolved false => false
  | .read _ | .selecting _ | .writing _ _ | .resolved true => true

/-- What a transaction has done so far, and what it still will. -/
def UnderWay (ids : UserIds) (projectId userId : Text) (world : UpdateWorld) (call : Nat)
    (tables : UserTables) : Prop :=
  ∃ patch existing, let updated := world.tables.updateRow projectId userId (patch.attrs existing)
    world.calls[call]? = some { patch := patch, phase := .selecting existing } ∧ tables = updated ∨
    ∃ rest, world.calls[call]? = some { patch := patch, phase := .writing existing rest } ∧
      runAll (ids.uuid projectId userId) rest tables =
        some (patch.changes (ids.uuid projectId userId) updated)

/-- What holds between any two statements. -/
structure Updating (ids : UserIds) (projectId userId : Text) (stored : UserTables)
    (patches : List UserPatch) (world : UpdateWorld) : Prop where
  patches : world.calls.map UpdateCall.patch = patches
  /-- a user that was found is still there -/
  present : ∀ call ∈ world.calls, call.phase.found = true →
    (world.tables.users (projectId, userId)).isSome = true
  holder : ∀ call tables, world.holder = some (call, tables) →
    UnderWay ids projectId userId world call tables
  kept : PreferencesKept world.Applied (ids.uuid projectId userId) stored world.tables
  /-- the row is as the last update wrote it -/
  row : world.tables.users (projectId, userId) =
    match world.latest with
    | none => stored.users (projectId, userId)
    | some (patch, existing) => some (patch.attrs existing)
  idle : world.latest = none → ∀ patch, ¬ world.Applied patch
  latest : ∀ patch existing, world.latest = some (patch, existing) → world.Applied patch

/-- What is kept of a field after one more patch. -/
theorem Kept.more {β : Type} {applied applied' : UserPatch → Prop} {given : UserPatch → Option β}
    {before now now' : β} {patch : UserPatch} (kept : Kept applied given before now)
    (grown : ∀ other, applied' other ↔ applied other ∨ other = patch)
    (apart : ∀ other, applied other → (given other).isSome = true → given patch = none)
    (value : now' = (given patch).getD now) : Kept applied' given before now' := by
  constructor
  · intro other there given' gives
    obtain earlier | rfl := (grown other).mp there
    · rw [value, apart other earlier (by rw [gives]; rfl)]
      exact kept.1 other earlier given' gives
    · rw [value, gives]
      rfl
  · intro nobody
    rw [value, nobody patch ((grown patch).mpr (.inr rfl))]
    exact kept.2 fun other earlier => nobody other ((grown other).mpr (.inl earlier))

/-- Two calls touch no field in common. -/
theorem Apart.at {first second : Nat} {patch other : UserPatch} (apart : Apart patches)
    (here : patches[first]? = some patch) (there : patches[second]? = some other)
    (different : first ≠ second) (field : UserField) (touched : other.touches field = true) :
    patch.touches field = false := by
  obtain ⟨inside, rfl⟩ := List.getElem?_eq_some_iff.mp here
  obtain ⟨inside', rfl⟩ := List.getElem?_eq_some_iff.mp there
  have pairs := List.pairwise_iff_getElem.mp apart
  obtain earlier | later := Nat.lt_or_gt_of_ne different
  · cases clash : patches[first].touches field with
    | false => rfl
    | true =>
      have free := pairs first second inside inside' earlier field clash
      rw [free] at touched
      cases touched
  · exact pairs second first inside' inside later field touched

variable {world : UpdateWorld}

/-- A patch that was applied touches nothing that the patch of an unresolved call touches. -/
theorem Updating.apart (inv : Updating ids projectId userId stored patches world)
    (distinct : Apart patches) {call : Nat} {patch other : UserPatch} {phase : UpdatePhase}
    (here : world.calls[call]? = some { patch, phase }) (open' : phase ≠ .resolved true)
    (applied : world.Applied other) (field : UserField) (touched : other.touches field = true) :
    patch.touches field = false := by
  obtain ⟨position, there⟩ := List.mem_iff_getElem?.mp applied
  have named : ∀ (position : Nat) patch phase,
      world.calls[position]? = some { patch, phase } → patches[position]? = some patch := by
    intro position patch phase found
    rw [← inv.patches, List.getElem?_map, found]
    rfl
  refine distinct.at (named _ _ _ here) (named _ _ _ there) ?_ field touched
  rintro rfl
  rw [here] at there
  exact open' (UpdateCall.mk.inj (Option.some.inj there)).2

/-- The other tables after a transaction. -/
theorem PreferencesKept.more {id : Uuid} {applied applied' : UserPatch → Prop} {now : UserTables}
    {patch : UserPatch} (kept : PreferencesKept applied id stored now)
    (grown : ∀ other, applied' other ↔ applied other ∨ other = patch)
    (apart : ∀ other, applied other → ∀ field, other.touches field = true →
      patch.touches field = false) :
    PreferencesKept applied' id stored (patch.changes id now) where
  segments := fun segment => by
    refine (kept.segments segment).more grown ?_ ?_
    · intro other there gives
      have free := apart other there .segments (by simpa [UserPatch.touches] using gives)
      simpa [UserPatch.touches] using free
    · simp [UserPatch.changes]
  topics := fun name => by
    refine (kept.topics name).more grown ?_ ?_
    · intro other there gives
      have free := apart other there (.topic name) (by simpa [UserPatch.touches] using gives)
      simpa [UserPatch.touches] using free
    · simp only [UserPatch.changes, if_true, UserPatch.topic]
      cases patch.preferences.topics.bind fun given => given.get name <;> rfl
  channels := fun name => by
    refine (kept.channels name).more grown ?_ ?_
    · intro other there gives
      have free := apart other there (.channel name) (by simpa [UserPatch.touches] using gives)
      simpa [UserPatch.touches] using free
    · simp only [UserPatch.changes, if_true, UserPatch.channel]
      cases patch.preferences.channels.bind fun given => given.get name <;> rfl
  quietHours := by
    refine kept.quietHours.more grown ?_ ?_
    · intro other there gives
      have free := apart other there .quietHours (by simpa [UserPatch.touches] using gives)
      simpa [UserPatch.touches] using free
    · simp [UserPatch.changes]

/-- A statement that leaves the committed tables alone. -/
theorem Updating.goes (inv : Updating ids projectId userId stored patches world) {call : Nat}
    {patch : UserPatch} {phase next : UpdatePhase} {holder : Option (Nat × UserTables)}
    (here : world.calls[call]? = some { patch, phase }) (open' : phase ≠ .resolved true)
    (closed : next ≠ .resolved true)
    (found : next.found = true → (world.tables.users (projectId, userId)).isSome = true)
    (underWay : ∀ other tables, holder = some (other, tables) →
      UnderWay ids projectId userId (world.turn call patch next) other tables) :
    Updating ids projectId userId stored patches
      { world.turn call patch next with holder := holder } := by
  have applied : (world.turn call patch next).Applied = world.Applied := by
    funext other
    have same := turn_applied here open' next other
    simpa [closed] using same
  constructor
  · exact (turn_patches here next).trans inv.patches
  · intro other member there
    obtain ⟨position, listed⟩ := List.mem_iff_getElem?.mp member
    obtain ⟨-, rfl⟩ | ⟨-, old⟩ := (Tables.row_set here).mp listed
    · exact found there
    · exact inv.present other (List.mem_of_getElem? old) there
  · exact underWay
  · exact applied.symm ▸ inv.kept
  · exact inv.row
  · intro never other there
    exact inv.idle never other (applied ▸ there)
  · intro last existing latest
    exact applied.symm ▸ inv.latest last existing latest

/-- Another call that goes on does not disturb the transaction under way. -/
theorem UnderWay.other {call : Nat} {patch : UserPatch} {next : UpdatePhase} {holder : Nat}
    {tables : UserTables} (underWay : UnderWay ids projectId userId world holder tables)
    (here : world.calls[call]? = some { patch, phase := .ready }) :
    UnderWay ids projectId userId (world.turn call patch next) holder tables := by
  obtain ⟨current, existing, state⟩ := underWay
  have elsewhere : ∀ phase, phase ≠ .ready →
      world.calls[holder]? = some { patch := current, phase } →
      (world.turn call patch next).calls[holder]? = some { patch := current, phase } := by
    intro phase busy there
    refine (Tables.row_set here).mpr (.inr ⟨?_, there⟩)
    rintro rfl
    rw [here] at there
    exact busy (UpdateCall.mk.inj (Option.some.inj there)).2.symm
  obtain ⟨there, same⟩ | ⟨rest, there, same⟩ := state
  · exact ⟨current, existing, .inl ⟨elsewhere _ nofun there, same⟩⟩
  · exact ⟨current, existing, .inr ⟨rest, elsewhere _ nofun there, same⟩⟩

/-- The call that holds the row is inside its transaction. -/
theorem UnderWay.at {call : Nat} {patch : UserPatch} {phase : UpdatePhase} {tables : UserTables}
    (underWay : UnderWay ids projectId userId world call tables)
    (here : world.calls[call]? = some { patch, phase }) :
    ∃ existing, let updated := world.tables.updateRow projectId userId (patch.attrs existing)
      phase = .selecting existing ∧ tables = updated ∨
      ∃ rest, phase = .writing existing rest ∧ runAll (ids.uuid projectId userId) rest tables =
        some (patch.changes (ids.uuid projectId userId) updated) := by
  obtain ⟨current, existing, state⟩ := underWay
  obtain ⟨there, same⟩ | ⟨rest, there, same⟩ := state
  · rw [here] at there
    obtain ⟨rfl, rfl⟩ := UpdateCall.mk.inj (Option.some.inj there)
    exact ⟨existing, .inl ⟨rfl, same⟩⟩
  · rw [here] at there
    obtain ⟨rfl, rfl⟩ := UpdateCall.mk.inj (Option.some.inj there)
    exact ⟨existing, .inr ⟨rest, rfl, same⟩⟩

/-- The user has a row as long as some call that found it goes on. -/
theorem Updating.row_present (inv : Updating ids projectId userId stored patches world)
    {call : Nat} {patch : UserPatch} {phase : UpdatePhase}
    (here : world.calls[call]? = some { patch, phase }) (found : phase.found = true) :
    (world.tables.users (projectId, userId)).isSome = true :=
  inv.present _ (List.mem_of_getElem? here) found

/-- Every statement of every call keeps this. -/
theorem updating_turn (distinct : Apart patches)
    (inv : Updating ids projectId userId stored patches world) {after : UpdateWorld}
    (turn : Turn ids projectId userId world after) :
    Updating ids projectId userId stored patches after := by
  cases turn with
  | found here row =>
    refine inv.goes here (fun other => by cases other) (fun other => by cases other)
      (fun _ => ?_) fun other tables holds => (inv.holder other tables holds).other here
    obtain ⟨row, present, _⟩ := Option.map_eq_some_iff.mp row
    rw [present]
    rfl
  | missing here =>
    exact inv.goes here (fun other => by cases other) (fun other => by cases other)
      (fun other => by cases other) fun other tables holds =>
        (inv.holder other tables holds).other here
  | @updated call patch existing here =>
    refine inv.goes here (fun other => by cases other) (fun other => by cases other)
      (fun _ => inv.row_present here rfl) ?_
    rintro other tables holds
    obtain ⟨rfl, rfl⟩ := Prod.mk.inj (Option.some.inj holds)
    exact ⟨patch, existing, .inl ⟨(Tables.row_set here).mpr (.inl ⟨rfl, rfl⟩), rfl⟩⟩
  | @selected call patch existing tables here holds =>
    refine inv.goes here (fun other => by cases other) (fun other => by cases other)
      (fun _ => inv.row_present here rfl) ?_
    intro other tables' holds'
    rw [holds] at holds'
    obtain ⟨rfl, rfl⟩ := Prod.mk.inj (Option.some.inj holds')
    obtain ⟨existing', ⟨same, rfl⟩ | ⟨rest, phase, _⟩⟩ := (inv.holder _ _ holds).at here
    · obtain rfl := UpdatePhase.selecting.inj same
      have row := inv.row_present here rfl
      have there : ((world.tables.updateRow projectId userId (patch.attrs existing)).users
          (projectId, userId)).isSome = true := by
        simpa [UserTables.updateRow] using row
      refine ⟨patch, existing, .inr ⟨_, (Tables.row_set here).mpr (.inl ⟨rfl, rfl⟩), ?_⟩⟩
      rw [if_pos there]
      exact runAll_statements _ patch _
    · cases phase
  | @wrote call patch existing statement rest tables later here holds done =>
    refine inv.goes here (fun other => by cases other) (fun other => by cases other)
      (fun _ => inv.row_present here rfl) ?_
    intro other tables' holds'
    obtain ⟨rfl, rfl⟩ := Prod.mk.inj (Option.some.inj holds')
    obtain ⟨existing', ⟨phase, _⟩ | ⟨rest', phase, same⟩⟩ := (inv.holder _ _ holds).at here
    · cases phase
    · obtain ⟨rfl, rfl⟩ := UpdatePhase.writing.inj phase
      refine ⟨patch, existing, .inr ⟨rest, (Tables.row_set here).mpr (.inl ⟨rfl, rfl⟩), ?_⟩⟩
      unfold runAll at same ⊢
      rw [List.foldlM_cons, done] at same
      exact same
  | @committed call patch existing tables here holds =>
    obtain ⟨existing', ⟨phase, _⟩ | ⟨rest', phase, same⟩⟩ := (inv.holder _ _ holds).at here
    · cases phase
    · obtain ⟨rfl, rfl⟩ := UpdatePhase.writing.inj phase
      obtain rfl := Option.some.inj same
      have grown := turn_applied here (fun other => by cases other) (.resolved true)
      have row := inv.row_present here rfl
      obtain ⟨old, present⟩ := Option.isSome_iff_exists.mp row
      have now : (world.tables.updateRow projectId userId (patch.attrs existing)).users
          (projectId, userId) = some (patch.attrs existing) := by
        simp [UserTables.updateRow, present]
      constructor
      · exact (turn_patches here _).trans inv.patches
      · intro _ _ _
        exact Option.isSome_iff_exists.mpr ⟨_, now⟩
      · exact fun _ _ other => by cases other
      · have kept := inv.kept
        have updated : PreferencesKept world.Applied (ids.uuid projectId userId) stored
            (world.tables.updateRow projectId userId (patch.attrs existing)) :=
          ⟨kept.segments, kept.topics, kept.channels, kept.quietHours⟩
        refine updated.more (fun other => ?_) fun other applied field touched =>
          inv.apart distinct here (fun other => by cases other) applied field touched
        have one : (world.turn call patch (.resolved true)).Applied other ↔
            world.Applied other ∨ other = patch := by simpa using grown other
        exact one
      · exact now
      · exact fun other => by cases other
      · intro last existing' latest
        obtain ⟨rfl, rfl⟩ := Prod.mk.inj (Option.some.inj latest)
        exact (grown patch).mpr (.inr ⟨rfl, rfl⟩)

/-- Before the first call nothing is applied. -/
theorem updating_start (ids : UserIds) (projectId userId : Text) (stored : UserTables)
    (patches : List UserPatch) :
    Updating ids projectId userId stored patches (startUpdates stored patches) := by
  have nothing : ∀ patch, ¬(startUpdates stored patches).Applied patch := by
    intro patch there
    obtain ⟨_, _, same⟩ := List.mem_map.mp there
    cases (UpdateCall.mk.inj same).2
  have kept : ∀ {β : Type} (given : UserPatch → Option β) (value : β),
      Kept (startUpdates stored patches).Applied given value value :=
    fun given value => ⟨fun patch there => absurd there (nothing patch), fun _ => rfl⟩
  constructor
  · simp [startUpdates, Function.comp_def]
  · intro call member found
    obtain ⟨patch, _, rfl⟩ := List.mem_map.mp member
    cases found
  · exact nofun
  · exact ⟨fun _ => kept _ _, fun _ => kept _ _, fun _ => kept _ _, kept _ _⟩
  · rfl
  · exact fun _ => nothing
  · exact nofun

/-- In every interleaving this is kept. -/
theorem updating_run (distinct : Apart patches) {world : UpdateWorld}
    (run : Reaches (updateStep ids projectId userId) anyStep (startUpdates stored patches) world) :
    Updating ids projectId userId stored patches world := by
  refine run.invariant (updating_start ids projectId userId stored patches) ?_
  intro before action after inv _ taken
  exact updating_turn distinct inv (turn_of_step taken)

/-- A patch that was applied is the only one that touches its fields. -/
theorem Updating.only (inv : Updating ids projectId userId stored patches world)
    (distinct : Apart patches) {patch other : UserPatch} (applied : world.Applied patch)
    (applied' : world.Applied other) {field : UserField} (touched : patch.touches field = true)
    (touched' : other.touches field = true) : other = patch := by
  obtain ⟨position, here⟩ := List.mem_iff_getElem?.mp applied
  obtain ⟨position', there⟩ := List.mem_iff_getElem?.mp applied'
  have named : ∀ (position : Nat) patch phase,
      world.calls[position]? = some { patch, phase } → patches[position]? = some patch := by
    intro position patch phase found
    rw [← inv.patches, List.getElem?_map, found]
    rfl
  by_cases same : position = position'
  · subst same
    rw [here] at there
    exact (UpdateCall.mk.inj (Option.some.inj there)).1.symm
  · have free := distinct.at (named _ _ _ here) (named _ _ _ there) same field touched'
    rw [touched] at free
    cases free

/-- Whatever the interleaving, patches that touch different fields are all kept exactly where the
call that updated last had read the attributes it leaves out as they were to be kept. -/
theorem updates_kept_iff {ids : UserIds} {projectId userId : Text} {stored : UserTables}
    {patches : List UserPatch} {world : UpdateWorld} (distinct : Apart patches)
    (run : Reaches (updateStep ids projectId userId) anyStep (startUpdates stored patches) world) :
    NoUpdateLost ids projectId userId stored world ↔
      LastReadKept projectId userId stored world := by
  have inv := updating_run distinct run
  unfold NoUpdateLost LastReadKept
  have row := inv.row
  cases latest : world.latest with
  | none =>
    rw [latest] at row
    refine iff_of_true ⟨fun name => ?_, inv.kept⟩ trivial
    have nobody := inv.idle latest
    refine ⟨fun patch there => absurd there (nobody patch), fun _ => ?_⟩
    unfold UserTables.storedAttribute
    rw [row]
  | some last =>
    obtain ⟨patch, existing⟩ := last
    rw [latest] at row
    have applied := inv.latest patch existing latest
    have now : ∀ name, world.tables.storedAttribute projectId userId name =
        (patch.attributes name).or (existing.attributes name) := by
      intro name
      rw [← attrs_eq]
      unfold UserTables.storedAttribute
      rw [row]
      rfl
    rw [and_iff_left inv.kept]
    constructor
    · intro kept name left
      have here := kept name
      rw [now, left, Option.none_or] at here
      exact here
    · intro read name
      rw [now]
      cases gives : patch.attributes name with
      | none => exact read name gives
      | some value =>
        have touched : patch.touches (.attr name) = true := by simp [UserPatch.touches, gives]
        constructor
        · intro other there value' gives'
          obtain ⟨given, found, rfl⟩ := Option.map_eq_some_iff.mp gives'
          have touched' : other.touches (.attr name) = true := by
            simp [UserPatch.touches, found]
          obtain rfl := inv.only distinct applied there touched touched'
          rw [gives] at found
          exact found
        · intro nobody
          have absent : (patch.attributes name).map some = none := nobody patch applied
          rw [gives] at absent
          cases absent

end Invariants

/-- One patch for the language and one for the timezone. -/
def twoPatches : List UserPatch :=
  [{ language := some "de".toList }, { timezone := some "CET".toList }]

/-- A patch for the language gives nothing else. -/
theorem language_only (language name : Text) :
    ({ language := some language } : UserPatch).attributes name =
      if name = "language".toList then some (.str language) else none := by
  unfold UserPatch.attributes givenAttributes
  split
  · rfl
  · split
    · rfl
    · split <;> rfl

theorem twoPatches_apart : Apart twoPatches := by
  refine List.pairwise_cons.mpr ⟨?_, List.pairwise_singleton _ _⟩
  intro second listed field
  obtain rfl := List.mem_singleton.mp listed
  cases field with
  | attr name =>
    intro touched
    have given : (({ language := some "de".toList } : UserPatch).attributes name).isSome = true :=
      touched
    rw [language_only] at given
    split at given
    next language =>
      subst language
      decide
    next => cases given
  | segments => decide
  | topic name => exact fun _ => rfl
  | channel name => exact fun _ => rfl
  | quietHours => decide

/-- The two patches after some steps. -/
def updatesAfter (actions : List UpdateAction) : UpdateWorld :=
  (perform (updateStep spelledIds "p".toList "u".toList) (startUpdates storedUser twoPatches)
    actions).getD (startUpdates storedUser twoPatches)

/-- Both read the profile before either writes it. -/
def overlapping : List UpdateAction :=
  [.find 0, .find 1, .update 0, .select 0, .commit 0, .update 1, .select 1, .commit 1]

/-- The second call writes the old language back over the one that the first had set. -/
theorem overlapping_update_lost : ¬ ∀ ids projectId userId stored patches world,
    Apart patches →
    Reaches (updateStep ids projectId userId) anyStep (startUpdates stored patches) world →
    (∀ call ∈ world.calls, call.phase = .resolved true) →
    NoUpdateLost ids projectId userId stored world := by
  intro always
  have run : Reaches (updateStep spelledIds "p".toList "u".toList) anyStep
      (startUpdates storedUser twoPatches) (updatesAfter overlapping) :=
    reaches_any_performed _ (by decide +kernel)
  have kept := always _ _ _ _ _ _ twoPatches_apart run (by decide +kernel)
  have applied : (updatesAfter overlapping).Applied { language := some "de".toList } := by
    unfold UpdateWorld.Applied
    decide +kernel
  have language := (kept.1 "language".toList).1 _ applied (some (.str "de".toList)) rfl
  exact absurd language (by decide +kernel)

/-- The second reads after the first has committed. -/
def inTurn : List UpdateAction :=
  [.find 0, .update 0, .select 0, .commit 0, .find 1, .update 1, .select 1, .commit 1]

/-- In turn, what the second had read is what the first had left, and both patches are kept. -/
theorem updates_kept_inTurn :
    NoUpdateLost spelledIds "p".toList "u".toList storedUser (updatesAfter inTurn) := by
  have run : Reaches (updateStep spelledIds "p".toList "u".toList) anyStep
      (startUpdates storedUser twoPatches) (updatesAfter inTurn) :=
    reaches_any_performed _ (by decide +kernel)
  refine (updates_kept_iff twoPatches_apart run).mpr ?_
  have latest : (updatesAfter inTurn).latest = some ({ timezone := some "CET".toList },
      { userId := "u".toList, language := .str "de".toList, timezone := .str "UTC".toList,
        email := none }) := by decide +kernel
  have calls : (updatesAfter inTurn).calls =
      twoPatches.map fun patch => { patch := patch, phase := .resolved true } := by
    decide +kernel
  unfold LastReadKept
  rw [latest]
  intro name left
  constructor
  · intro patch applied value gives
    unfold UpdateWorld.Applied at applied
    rw [calls] at applied
    simp only [twoPatches, List.map_cons, List.map_nil, List.mem_cons, UpdateCall.mk.injEq,
      and_true, List.not_mem_nil, or_false] at applied
    obtain rfl | rfl := applied
    · have given : (({ language := some "de".toList } : UserPatch).attributes name).map some =
          some value := gives
      rw [language_only] at given
      split at given
      next language =>
        subst language
        exact Option.some.inj given
      next => cases given
    · have absent : (({ timezone := some "CET".toList } : UserPatch).attributes name).map some =
          some value := gives
      rw [left] at absent
      cases absent
  · intro nobody
    have other : name ≠ "language".toList := by
      rintro rfl
      have applied : (updatesAfter inTurn).Applied { language := some "de".toList } := by
        unfold UpdateWorld.Applied
        decide +kernel
      exact absurd (nobody _ applied) (by decide)
    have other' : name ≠ "timezone".toList := by
      rintro rfl
      exact absurd left (by decide)
    have stored : storedUser.storedAttribute "p".toList "u".toList name =
        givenAttributes (some "en".toList) (some "UTC".toList) none name := by
      have row : storedUser.users ("p".toList, "u".toList) =
          some (givenAttributes (some "en".toList) (some "UTC".toList) none) := by
        simp only [storedUser, if_true]
      unfold UserTables.storedAttribute
      rw [row]
      rfl
    rw [stored]
    unfold UserProfile.attributes givenAttributes
    rw [if_neg other, if_neg other', if_neg other, if_neg other']
    split <;> rfl

end Notifkit.Repositories
