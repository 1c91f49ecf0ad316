import Notifkit.Pipeline.Gates
import Notifkit.Scheduler.SendGate
import Notifkit.Shared.DataLoader
import Notifkit.Shared.LruCache

/-!
# The engine's suppression lookups

The engine asks for the suppressed addresses of a project and channel through a data loader. A batch
goes over its keys one after the other: a key that was met before has its set, one whose set is in the
cache takes it from there, and for any other the table is read, which takes its time, and the set is
kept for ten seconds. If a read fails the whole batch does.

Batches are under way side by side, the tables change at any time, and the cache gives up what does
not fit. `shown` is what the tables were at each instant.
-/

namespace Notifkit.Pipeline.SuppressionLookups

open Runs Tables Shared

/-- What is looked up. -/
structure Key where
  projectId : Text
  channel : NotificationChannel
deriving DecidableEq

/-- The key of its set in the cache. -/
def Key.cacheKey (key : Key) : Text := key.projectId ++ ":".toList ++ key.channel.name

/-- A set, and the instant it was read at. -/
structure Loaded where
  targets : List Text
  readAt : Nat
deriving DecidableEq

/-- Where a batch is with the key at its index. -/
inductive Query where
  /-- the key is to be looked for -/
  | idle
  /-- the table is asked -/
  | asked
  /-- the table was read, the answer is on its way -/
  | read (loaded : Loaded)
deriving DecidableEq

/-- A call of `batchLoadFn`. -/
structure Batch where
  keys : List Key
  begun : Nat
  index : Nat := 0
  results : List (Text × Loaded) := []
  query : Query := .idle

structure World where
  now : Nat := 0
  snapshot : Snapshot := {}
  shown : List (Nat × Snapshot) := [(now, snapshot)]
  suppressionsCache : LRUCache Text Loaded := { maxSize := 1000, defaultTtlMs := 10000 }
  suppressionsLoader : DataLoader.State Key Loaded Text := {}
  /-- when each key was asked for -/
  askedAt : List Nat := []
  /-- the batches under way, in the order of the loader's calls under way -/
  batches : List Batch := []

/-- What happens. Batches are named by their places. -/
inductive Action where
  | tick (ms : Nat)
  | write (snapshot : Snapshot)
  | load (key : Key)
  /-- the loader's turn comes -/
  | turn
  | look (place : Nat)
  | read (place : Nat)
  | keep (place : Nat)
  | fail (place : Nat) (error : Text)
  | finish (place : Nat)

/-- Each call that is new begins a batch. -/
def World.dispatched (world : World) (loader : DataLoader.State Key Loaded Text) : World := { world with
  suppressionsLoader := loader
  batches := world.batches ++ (loader.inFlight.drop world.batches.length).map fun call =>
    { keys := call.2.map DataLoader.Lookup.key, begun := world.now } }

/-- A batch goes on. -/
def World.put (world : World) (place : Nat) (batch : Batch) : World :=
  { world with batches := world.batches.set place batch }

/-- A batch is over. -/
def World.answer (world : World) (place : Nat) (reply : DataLoader.Reply Loaded Text) :
    Option World :=
  (DataLoader.step {} world.suppressionsLoader (.answer place reply)).map fun loader =>
    { world with suppressionsLoader := loader, batches := world.batches.eraseIdx place }

/-- The tables at this instant are shown. -/
def World.show (world : World) : World :=
  { world with shown := world.shown ++ [(world.now, world.snapshot)] }

variable (toLowerCase : Text → Text)

def step (world : World) : Action → Option World
  | .tick ms => some { world with now := world.now + ms }.show
  | .write snapshot => some { world with snapshot := snapshot }.show
  | .load key =>
    let asked : World := { world with askedAt := world.askedAt ++ [world.now] }
    some (asked.dispatched (DataLoader.load {} world.suppressionsLoader key))
  | .turn => (DataLoader.step {} world.suppressionsLoader .turn).map world.dispatched
  | .look place => do
    let batch ← world.batches[place]?
    let key ← batch.keys[batch.index]?
    if batch.query ≠ .idle then none
    else if (batch.results.lookup key.cacheKey).isSome then
      some (world.put place { batch with index := batch.index + 1 })
    else
      let answer := world.suppressionsCache.get world.now key.cacheKey
      let batch := match answer.2 with
        | some loaded => { batch with
            index := batch.index + 1, results := batch.results ++ [(key.cacheKey, loaded)] }
        | none => { batch with query := .asked }
      some { world.put place batch with suppressionsCache := answer.1 }
  | .read place => do
    let batch ← world.batches[place]?
    let key ← batch.keys[batch.index]?
    if batch.query = .asked then
      let targets := Engine.suppressedTargets toLowerCase world.snapshot key.projectId key.channel
      some (world.put place { batch with query := .read ⟨targets, world.now⟩ })
    else none
  | .keep place => do
    let batch ← world.batches[place]?
    let key ← batch.keys[batch.index]?
    match batch.query with
    | .read loaded =>
      let batch := { batch with
        index := batch.index + 1, results := batch.results ++ [(key.cacheKey, loaded)], query := .idle }
      some { world.put place batch with
        suppressionsCache := world.suppressionsCache.set world.now key.cacheKey loaded }
    | _ => none
  | .fail place error => do
    let batch ← world.batches[place]?
    if batch.query = .idle then none else world.answer place (.error error)
  | .finish place => do
    let batch ← world.batches[place]?
    if batch.index = batch.keys.length then
      world.answer place (.ok (batch.keys.map fun key =>
        .ok ((batch.results.lookup key.cacheKey).getD ⟨[], 0⟩)))
    else none

/-- The answer that is on its way, if any, was not read so long ago. -/
def Batch.inTime (delay now : Nat) (batch : Batch) : Prop :=
  match batch.query with
  | .idle | .asked => True
  | .read loaded => now ≤ loaded.readAt + delay

instance (delay now : Nat) (batch : Batch) : Decidable (batch.inTime delay now) := by
  unfold Batch.inTime
  cases batch.query <;> infer_instance

/-- No answer of the table takes longer on its way. -/
def Timely (delay : Nat) (world : World) : Action → Prop
  | .tick ms => ∀ batch ∈ world.batches, batch.inTime delay (world.now + ms)
  | _ => True

instance (delay : Nat) (world : World) (action : Action) : Decidable (Timely delay world action) :=
  match action with
  | .tick _ => inferInstanceAs (Decidable (∀ _ ∈ _, _))
  | .write _ | .load _ | .turn | .look _ | .read _ | .keep _ | .fail _ _ | .finish _ => .isTrue trivial

/-- A set is what the table held of the project and channel at the instant it was read at. -/
def Faithful (shown : List (Nat × Snapshot)) (key : Key) (loaded : Loaded) : Prop :=
  ∃ snapshot, (loaded.readAt, snapshot) ∈ shown ∧
    loaded.targets = Engine.suppressedTargets toLowerCase snapshot key.projectId key.channel

/-- A faithful set under a key of the cache. -/
def FaithfulAt (shown : List (Nat × Snapshot)) (cacheKey : Text) (loaded : Loaded) : Prop :=
  ∃ key : Key, key.cacheKey = cacheKey ∧ Faithful toLowerCase shown key loaded

/-- What was read is not older than the cache and a slow answer make it. -/
def recent (delay since : Nat) (loaded : Loaded) : Prop := since ≤ loaded.readAt + delay + 10000

/-- What is known of a batch under way, by itself. -/
structure Batch.Sound (delay : Nat) (world : World) (batch : Batch) : Prop where
  begun : batch.begun ≤ world.now
  results : ∀ entry ∈ batch.results, FaithfulAt toLowerCase world.shown entry.1 entry.2 ∧
    recent delay batch.begun entry.2
  /-- every key it has passed has its set -/
  passed : ∀ key ∈ batch.keys.take batch.index,
    (batch.results.lookup key.cacheKey).isSome = true
  read : ∀ loaded, batch.query = .read loaded → world.now ≤ loaded.readAt + delay ∧
    batch.begun ≤ loaded.readAt ∧ ∃ key, batch.keys[batch.index]? = some key ∧
      Faithful toLowerCase world.shown key loaded

/-- A batch under way and the call it answers: its keys, none asked for after it was begun. -/
def Batch.Answers (world : World) (batch : Batch) (lookups : List (DataLoader.Lookup Key)) : Prop :=
  batch.keys = lookups.map DataLoader.Lookup.key ∧
    ∀ lookup ∈ lookups, ∃ asked, world.askedAt[lookup.promise]? = some asked ∧ asked ≤ batch.begun

/-- A lookup is answered with a set of its own project and channel that was read lately. -/
def Answered (delay : Nat) (world : World) (lookup : DataLoader.Lookup Key) (loaded : Loaded) : Prop :=
  Faithful toLowerCase world.shown lookup.key loaded ∧
    ∃ asked, world.askedAt[lookup.promise]? = some asked ∧ recent delay asked loaded

/-- What holds in every state of a timely run. -/
structure Sound (delay : Nat) (world : World) : Prop where
  books : DataLoader.Books {} world.suppressionsLoader
  shown : (world.now, world.snapshot) ∈ world.shown
  lifetime : world.suppressionsCache.defaultTtlMs = 10000
  cached : ∀ entry ∈ world.suppressionsCache.entries,
    FaithfulAt toLowerCase world.shown entry.key entry.value ∧
      entry.expiresAt ≤ (entry.value.readAt + delay + 10000 : Nat)
  count : world.askedAt.length = world.suppressionsLoader.asked.length
  past : ∀ asked ∈ world.askedAt, asked ≤ world.now
  aligned : world.batches.length = world.suppressionsLoader.inFlight.length
  answers : ∀ (place : Nat) batch call, world.batches[place]? = some batch →
    world.suppressionsLoader.inFlight[place]? = some call → batch.Answers world call.2
  batches : ∀ batch ∈ world.batches, batch.Sound toLowerCase delay world
  replies : ∀ entry ∈ world.suppressionsLoader.replies, ∀ lookups,
    world.suppressionsLoader.calls[entry.1]? = some lookups →
    (∃ error, entry.2 = .error error) ∨ ∃ sets : List Loaded, entry.2 = .ok (sets.map .ok) ∧
      ∀ (place : Nat) lookup, lookups[place]? = some lookup →
        ∃ loaded, sets[place]? = some loaded ∧ Answered toLowerCase delay world lookup loaded

/-- The key of the cache tells project and channel. -/
theorem cacheKey_injective {one two : Key} (same : one.cacheKey = two.cacheKey) : one = two := by
  cases one with
  | mk project channel =>
  cases two with
  | mk project' channel' =>
  have joined : project ++ ':' :: channel.name = project' ++ ':' :: channel'.name := by
    simpa [Key.cacheKey] using same
  obtain ⟨rfl, names⟩ := last_mark (Scheduler.SendGate.colon_not_mem_name channel)
    (Scheduler.SendGate.colon_not_mem_name channel') joined
  rw [Scheduler.SendGate.name_injective names]

section Growth

variable {toLowerCase : Text → Text} {delay : Nat} {world after : World} {key : Key}
  {loaded : Loaded} {batch : Batch} {lookups : List (DataLoader.Lookup Key)}

theorem Faithful.mono (faithful : Faithful toLowerCase world.shown key loaded)
    (shown : world.shown ⊆ after.shown) : Faithful toLowerCase after.shown key loaded := by
  obtain ⟨snapshot, listed, same⟩ := faithful
  exact ⟨snapshot, shown listed, same⟩

theorem FaithfulAt.mono {cacheKey : Text} (faithful : FaithfulAt toLowerCase world.shown cacheKey loaded)
    (shown : world.shown ⊆ after.shown) : FaithfulAt toLowerCase after.shown cacheKey loaded := by
  obtain ⟨key, named, own⟩ := faithful
  exact ⟨key, named, own.mono shown⟩

/-- A set under a key of the cache is one of the key's own. -/
theorem FaithfulAt.own (faithful : FaithfulAt toLowerCase world.shown key.cacheKey loaded) :
    Faithful toLowerCase world.shown key loaded := by
  obtain ⟨other, named, own⟩ := faithful
  exact cacheKey_injective named ▸ own

/-- When a key was asked for stays known. -/
def AskedStays (world after : World) : Prop :=
  ∀ promise asked : Nat, world.askedAt[promise]? = some asked → after.askedAt[promise]? = some asked

theorem Answered.mono {lookup : DataLoader.Lookup Key}
    (answered : Answered toLowerCase delay world lookup loaded) (shown : world.shown ⊆ after.shown)
    (stays : AskedStays world after) : Answered toLowerCase delay after lookup loaded := by
  obtain ⟨faithful, asked, known, late⟩ := answered
  exact ⟨faithful.mono shown, asked, stays _ _ known, late⟩

theorem Batch.Answers.mono (answers : batch.Answers world lookups) (stays : AskedStays world after) :
    batch.Answers after lookups := by
  refine ⟨answers.1, fun lookup listed => ?_⟩
  obtain ⟨asked, known, before⟩ := answers.2 lookup listed
  exact ⟨asked, stays _ _ known, before⟩

/-- A batch that does nothing meanwhile. -/
theorem Batch.Sound.mono (sound : batch.Sound toLowerCase delay world)
    (shown : world.shown ⊆ after.shown) (later : world.now ≤ after.now)
    (timely : ∀ loaded, batch.query = .read loaded → after.now ≤ loaded.readAt + delay) :
    batch.Sound toLowerCase delay after where
  begun := Nat.le_trans sound.begun later
  results entry listed := by
    obtain ⟨faithful, late⟩ := sound.results entry listed
    exact ⟨faithful.mono shown, late⟩
  passed := sound.passed
  read loaded reading := by
    obtain ⟨_, begun, key, present, faithful⟩ := sound.read loaded reading
    exact ⟨timely loaded reading, begun, key, present, faithful.mono shown⟩

end Growth

section Steps

variable {toLowerCase : Text → Text} {delay : Nat} {world after : World} {place : Nat} {batch : Batch}
  {key : Key}

/-- The tables change or time passes. -/
theorem Sound.shows (sound : Sound toLowerCase delay world) (now : Nat) (snapshot : Snapshot)
    (later : world.now ≤ now) (timely : ∀ batch ∈ world.batches, ∀ loaded,
      batch.query = .read loaded → now ≤ loaded.readAt + delay) :
    Sound toLowerCase delay { world with now := now, snapshot := snapshot }.show where
  books := sound.books
  shown := List.mem_append_right _ (List.mem_singleton.mpr rfl)
  lifetime := sound.lifetime
  cached entry listed := by
    obtain ⟨faithful, kept⟩ := sound.cached entry listed
    exact ⟨faithful.mono (List.subset_append_left _ _), kept⟩
  count := sound.count
  past asked listed := Nat.le_trans (sound.past asked listed) later
  aligned := sound.aligned
  answers place batch call present called := sound.answers place batch call present called
  batches batch listed :=
    (sound.batches batch listed).mono (List.subset_append_left _ _) later (timely batch listed)
  replies entry listed lookups called := by
    rcases sound.replies entry listed lookups called with failed | ⟨sets, replied, each⟩
    · exact .inl failed
    · refine .inr ⟨sets, replied, fun place lookup present => ?_⟩
      obtain ⟨loaded, there, answered⟩ := each place lookup present
      exact ⟨loaded, there, answered.mono (List.subset_append_left _ _) fun _ _ known => known⟩

/-- A batch goes on with the keys it has. -/
theorem Sound.goOn (sound : Sound toLowerCase delay world) (present : world.batches[place]? = some batch)
    {next : Batch} {cache : LRUCache Text Loaded} (keys : next.keys = batch.keys)
    (begun : next.begun = batch.begun) (known : next.Sound toLowerCase delay world)
    (lifetime : cache.defaultTtlMs = 10000)
    (cached : ∀ entry ∈ cache.entries, FaithfulAt toLowerCase world.shown entry.key entry.value ∧
      entry.expiresAt ≤ (entry.value.readAt + delay + 10000 : Nat)) :
    Sound toLowerCase delay { world.put place next with suppressionsCache := cache } where
  books := sound.books
  shown := sound.shown
  lifetime := lifetime
  cached := cached
  count := sound.count
  past := sound.past
  aligned := by
    have same := sound.aligned
    rw [← List.length_set (i := place) (a := next)] at same
    exact same
  answers other row call there called := by
    rcases (row_set present).mp there with ⟨rfl, rfl⟩ | ⟨_, before⟩
    · have answers := sound.answers other batch call present called
      refine ⟨keys.trans answers.1, fun lookup listed => ?_⟩
      rw [begun]
      exact answers.2 lookup listed
    · exact sound.answers other row call before called
  batches := all_set (fun row listed => (sound.batches row listed).mono (List.Subset.refl _)
    (Nat.le_refl _) fun loaded reading => ((sound.batches row listed).read loaded reading).1)
    (known.mono (List.Subset.refl _) (Nat.le_refl _) fun loaded reading =>
      (known.read loaded reading).1)
  replies := sound.replies

/-- Without a bound and a delay a key waits for the turn. -/
theorem load_waits (s : DataLoader.State Key Loaded Text) (key : Key) :
    ∃ turns, DataLoader.load {} s key =
      { DataLoader.push s key with scheduled := true, turns := turns } := by
  have few : ¬ DataLoader.Options.enough {} (DataLoader.push s key).waiting.length := by
    rintro ⟨size, present, _⟩
    cases present
  unfold DataLoader.load
  dsimp only
  rw [if_neg few]
  by_cases scheduled : (DataLoader.push s key).scheduled = true
  · rw [if_pos scheduled]
    exact ⟨s.turns, by rw [← scheduled]; rfl⟩
  · rw [if_neg scheduled, if_neg (Nat.lt_irrefl 0)]
    exact ⟨s.turns + 1, rfl⟩

/-- Nothing is new where every call under way has its batch. -/
theorem dispatched_same (world : World) (loader : DataLoader.State Key Loaded Text)
    (aligned : world.batches.length = loader.inFlight.length) :
    world.dispatched loader = { world with suppressionsLoader := loader } := by
  unfold World.dispatched
  rw [List.drop_eq_nil_of_le (Nat.le_of_eq aligned.symm), List.map_nil, List.append_nil]

/-- The loader does something that concerns no batch. -/
theorem Sound.renew (sound : Sound toLowerCase delay world) {loader : DataLoader.State Key Loaded Text}
    {askedAt : List Nat} (books : DataLoader.Books {} loader)
    (inFlight : loader.inFlight = world.suppressionsLoader.inFlight)
    (calls : loader.calls = world.suppressionsLoader.calls)
    (replies : loader.replies = world.suppressionsLoader.replies)
    (count : askedAt.length = loader.asked.length)
    (stays : AskedStays world { world with askedAt := askedAt })
    (past : ∀ asked ∈ askedAt, asked ≤ world.now) :
    Sound toLowerCase delay { world with askedAt := askedAt, suppressionsLoader := loader } where
  books := books
  shown := sound.shown
  lifetime := sound.lifetime
  cached := sound.cached
  count := count
  past := past
  aligned := sound.aligned.trans (by rw [inFlight])
  answers place batch call present called := by
    dsimp only at called
    rw [inFlight] at called
    exact (sound.answers place batch call present called).mono stays
  batches batch listed := (sound.batches batch listed).mono (List.Subset.refl _)
    (Nat.le_refl _) fun loaded reading => ((sound.batches batch listed).read loaded reading).1
  replies entry listed lookups called := by
    dsimp only at listed called
    rw [replies] at listed
    rw [calls] at called
    rcases sound.replies entry listed lookups called with failed | ⟨sets, replied, each⟩
    · exact .inl failed
    · refine .inr ⟨sets, replied, fun place lookup present => ?_⟩
      obtain ⟨loaded, there, answered⟩ := each place lookup present
      exact ⟨loaded, there, answered.mono (List.Subset.refl _) stays⟩

/-- A key is asked for. -/
theorem Sound.load (sound : Sound toLowerCase delay world) (key : Key)
    (taken : step toLowerCase world (.load key) = some after) : Sound toLowerCase delay after := by
  obtain rfl := Option.some.inj taken
  have books := sound.books.load key
  obtain ⟨turns, waits⟩ := load_waits world.suppressionsLoader key
  rw [dispatched_same { world with askedAt := world.askedAt ++ [world.now] } _
    (by rw [waits]; exact sound.aligned)]
  refine sound.renew books (by rw [waits]; rfl) (by rw [waits]; rfl) (by rw [waits]; rfl) ?_
    (fun promise asked known => row_append.mpr (.inl known)) (all_append sound.past (Nat.le_refl _))
  rw [waits]
  simp only [DataLoader.push, List.length_append, List.length_singleton, sound.count]

/-- A lookup that waits has a number. -/
theorem waiting_numbered {s : DataLoader.State Key Loaded Text} (books : DataLoader.Books {} s)
    {lookup : DataLoader.Lookup Key} (waits : lookup ∈ s.waiting) :
    lookup.promise < s.asked.length := by
  have listed : lookup ∈ DataLoader.numbered s.asked := by
    rw [← books.ordered]
    exact List.mem_append_right _ waits
  obtain ⟨⟨key, number⟩, counted, rfl⟩ := List.mem_map.mp listed
  exact (List.getElem?_eq_some_iff.mp (List.mem_zipIdx_iff_getElem?.mp counted)).1

/-- What was answered was a call before. -/
theorem replies_called {s : DataLoader.State Key Loaded Text} (books : DataLoader.Books {} s)
    {entry : Nat × DataLoader.Reply Loaded Text} (listed : entry ∈ s.replies) :
    entry.1 < s.calls.length := books.answers.bounded listed

/-- What waits becomes a batch. -/
theorem Sound.turn (sound : Sound toLowerCase delay world)
    (taken : step toLowerCase world .turn = some after) : Sound toLowerCase delay after := by
  obtain ⟨loader, dispatched, rfl⟩ := Option.map_eq_some_iff.mp taken
  have books := sound.books.step dispatched
  rcases DataLoader.step_cases dispatched with ⟨_, other, _⟩ | ⟨_, _, same⟩ | ⟨other, _⟩ |
    ⟨_, _, _, _, other, _⟩
  · cases other
  · obtain ⟨replies, asked, ⟨_, inFlight, calls⟩ | ⟨inFlight, calls⟩⟩ := DataLoader.dispatch_cases
      { world.suppressionsLoader with turns := world.suppressionsLoader.turns - 1 }
    · rw [← same] at replies asked inFlight calls
      rw [dispatched_same world loader (sound.aligned.trans (by rw [inFlight]))]
      exact sound.renew books inFlight calls replies (sound.count.trans (by rw [asked]))
        (fun _ _ known => known) sound.past
    · rw [← same] at replies asked inFlight calls
      dsimp only at replies asked inFlight calls
      have fresh : ∀ lookup ∈ world.suppressionsLoader.waiting, ∃ asked,
          world.askedAt[lookup.promise]? = some asked ∧ asked ≤ world.now := by
        intro lookup waits
        have inside := waiting_numbered sound.books waits
        rw [← sound.count] at inside
        exact ⟨_, List.getElem?_eq_getElem inside, sound.past _ (List.getElem_mem inside)⟩
      have batches : (world.dispatched loader).batches = world.batches ++
          [{ keys := world.suppressionsLoader.waiting.map DataLoader.Lookup.key
             begun := world.now }] := by
        unfold World.dispatched
        dsimp only
        rw [inFlight, sound.aligned, List.drop_left]
        rfl
      exact {
        books := books
        shown := sound.shown
        lifetime := sound.lifetime
        cached := sound.cached
        count := sound.count.trans (by rw [← asked]; rfl)
        past := sound.past
        aligned := by
          rw [batches]
          have grown : (world.dispatched loader).suppressionsLoader.inFlight.length =
            world.suppressionsLoader.inFlight.length + 1 := by
              rw [show (world.dispatched loader).suppressionsLoader = loader from rfl, inFlight]
              simp
          rw [grown, List.length_append, sound.aligned, List.length_singleton]
        answers := fun place batch call present called => by
          rw [batches] at present
          rw [show (world.dispatched loader).suppressionsLoader = loader from rfl, inFlight] at called
          rcases row_append.mp present with before | ⟨last, rfl⟩
          · rcases row_append.mp called with calledBefore | ⟨calledLast, rfl⟩
            · exact sound.answers place batch call before calledBefore
            · have inside := (List.getElem?_eq_some_iff.mp before).1
              have aligned := sound.aligned
              omega
          · rcases row_append.mp called with calledBefore | ⟨_, rfl⟩
            · have inside := (List.getElem?_eq_some_iff.mp calledBefore).1
              have aligned := sound.aligned
              omega
            · exact ⟨rfl, fresh⟩
        batches := by
          rw [batches]
          refine all_append (fun batch listed => (sound.batches batch listed).mono
            (List.Subset.refl _) (Nat.le_refl _) fun loaded reading =>
              ((sound.batches batch listed).read loaded reading).1) ?_
          exact {
            begun := Nat.le_refl _
            results := fun _ listed => by cases listed
            passed := fun _ listed => by cases listed
            read := fun _ reading => by cases reading }
        replies := fun entry listed lookups called => by
          rw [show (world.dispatched loader).suppressionsLoader = loader from rfl] at listed called
          rw [replies] at listed
          rw [calls, List.getElem?_append_left (replies_called sound.books listed)] at called
          exact sound.replies entry listed lookups called }
  · cases other
  · cases other

/-- A batch passes a key that has its set now. -/
theorem passed_next {results grown : List (Text × Loaded)} {keys : List Key} {index : Nat}
    (passed : ∀ key ∈ keys.take index, (results.lookup key.cacheKey).isSome = true)
    (stays : ∀ cacheKey, (results.lookup cacheKey).isSome = true →
      (grown.lookup cacheKey).isSome = true)
    (present : keys[index]? = some key) (has : (grown.lookup key.cacheKey).isSome = true) :
    ∀ other ∈ keys.take (index + 1), (grown.lookup other.cacheKey).isSome = true := by
  intro other listed
  rw [List.take_add_one, present] at listed
  rcases List.mem_append.mp listed with before | last
  · exact stays _ (passed other before)
  · rw [List.mem_singleton.mp last]
    exact has

/-- A batch passes its key with a set for it. -/
theorem Batch.Sound.pass (sound : batch.Sound toLowerCase delay world)
    (present : batch.keys[batch.index]? = some key) {loaded : Loaded}
    (faithful : FaithfulAt toLowerCase world.shown key.cacheKey loaded)
    (late : recent delay batch.begun loaded) :
    ({ batch with
        index := batch.index + 1
        results := batch.results ++ [(key.cacheKey, loaded)]
        query := .idle } : Batch).Sound toLowerCase delay world where
  begun := sound.begun
  results := all_append sound.results ⟨faithful, late⟩
  passed := by
    refine passed_next sound.passed (fun cacheKey has => ?_) present ?_
    · rw [List.lookup_append, Option.isSome_or, has, Bool.true_or]
    · rw [List.lookup_append, List.lookup_cons_self, Option.isSome_or, Option.isSome_some,
        Bool.or_true]
  read := fun loaded reading => by cases reading

/-- A key is looked for. -/
theorem Sound.look (sound : Sound toLowerCase delay world)
    (taken : step toLowerCase world (.look place) = some after) : Sound toLowerCase delay after := by
  obtain ⟨batch, present, taken⟩ := Option.bind_eq_some_iff.mp taken
  obtain ⟨key, next, taken⟩ := Option.bind_eq_some_iff.mp taken
  have known := sound.batches batch (List.mem_of_getElem? present)
  split at taken
  · cases taken
  next idle =>
  have idle : batch.query = .idle := by simpa using idle
  split at taken
  next has =>
    obtain rfl := Option.some.inj taken
    refine sound.goOn present rfl rfl ⟨known.begun, known.results, ?_, ?_⟩ sound.lifetime sound.cached
    · exact passed_next known.passed (fun _ has => has) next has
    · intro loaded reading
      rw [idle] at reading
      cases reading
  next =>
    have lifetime : (world.suppressionsCache.get world.now key.cacheKey).1.defaultTtlMs = 10000 :=
      (LRUCache.get_ttl _ _ _).trans sound.lifetime
    have cached : ∀ entry ∈ (world.suppressionsCache.get world.now key.cacheKey).1.entries, _ :=
      fun entry listed => sound.cached entry (LRUCache.mem_of_get listed)
    dsimp only at taken
    cases answered : (world.suppressionsCache.get world.now key.cacheKey).2 with
    | some loaded =>
      rw [answered] at taken
      obtain rfl := Option.some.inj taken
      obtain ⟨expiresAt, listed, inTime⟩ := LRUCache.get_eq_some.mp answered
      obtain ⟨faithful, kept⟩ := sound.cached _ listed
      have late : recent delay batch.begun loaded := by
        have begun := known.begun
        have kept : expiresAt ≤ (loaded.readAt + delay + 10000 : Nat) := kept
        have both := Int.ofNat_le.mp (Int.le_trans inTime kept)
        exact Nat.le_trans begun both
      have passed := known.pass next faithful late
      have same : ({ batch with
          index := batch.index + 1
          results := batch.results ++ [(key.cacheKey, loaded)] } : Batch) = { batch with
          index := batch.index + 1
          results := batch.results ++ [(key.cacheKey, loaded)]
          query := .idle } := by rw [← idle]
      rw [← same] at passed
      exact sound.goOn present rfl rfl passed lifetime cached
    | none =>
      rw [answered] at taken
      obtain rfl := Option.some.inj taken
      refine sound.goOn present rfl rfl ⟨known.begun, known.results, known.passed, ?_⟩ lifetime cached
      intro loaded reading
      cases reading

/-- The table is read. -/
theorem Sound.read (sound : Sound toLowerCase delay world)
    (taken : step toLowerCase world (.read place) = some after) : Sound toLowerCase delay after := by
  obtain ⟨batch, present, taken⟩ := Option.bind_eq_some_iff.mp taken
  obtain ⟨key, next, taken⟩ := Option.bind_eq_some_iff.mp taken
  have known := sound.batches batch (List.mem_of_getElem? present)
  obtain ⟨_, same⟩ := Option.ite_none_right_eq_some.mp taken
  obtain rfl := Option.some.inj same
  refine sound.goOn present rfl rfl ⟨known.begun, known.results, known.passed, ?_⟩ sound.lifetime
    sound.cached
  intro loaded reading
  obtain rfl := Query.read.inj reading
  exact ⟨Nat.le_add_right _ _, known.begun, key, next, world.snapshot, sound.shown, rfl⟩

/-- The answer of the table arrives. -/
theorem Sound.keep (sound : Sound toLowerCase delay world)
    (taken : step toLowerCase world (.keep place) = some after) : Sound toLowerCase delay after := by
  obtain ⟨batch, present, taken⟩ := Option.bind_eq_some_iff.mp taken
  obtain ⟨key, next, taken⟩ := Option.bind_eq_some_iff.mp taken
  have known := sound.batches batch (List.mem_of_getElem? present)
  split at taken
  next loaded reading =>
    obtain rfl := Option.some.inj taken
    obtain ⟨timely, begun, other, there, faithful⟩ := known.read loaded reading
    obtain rfl : key = other := Option.some.inj (next.symm.trans there)
    have late : recent delay batch.begun loaded := by
      unfold recent
      omega
    refine sound.goOn present rfl rfl (known.pass next ⟨key, rfl, faithful⟩ late)
      ((LRUCache.set_ttl _ _ _ _).trans sound.lifetime) fun entry listed => ?_
    rcases LRUCache.mem_of_set listed with rfl | ⟨old, _⟩
    · refine ⟨⟨key, rfl, faithful⟩, ?_⟩
      rw [sound.lifetime]
      have kept : world.now + 10000 ≤ loaded.readAt + delay + 10000 := Nat.add_le_add_right timely _
      exact Int.ofNat_le.mpr kept
    · exact sound.cached entry old
  next => cases taken

/-- The rows of two tables of one length stay together when one place is taken out of both. -/
theorem rows_erased {α β : Type} {one : List α} {other : List β} {place at' : Nat} {row : α} {last : β}
    (first : (one.eraseIdx place)[at']? = some row) (second : (other.eraseIdx place)[at']? = some last) :
    ∃ before : Nat, one[before]? = some row ∧ other[before]? = some last := by
  rw [List.getElem?_eraseIdx] at first second
  by_cases early : at' < place
  · rw [if_pos early] at first second
    exact ⟨at', first, second⟩
  · rw [if_neg early] at first second
    exact ⟨at' + 1, first, second⟩

/-- A batch is over, with what is known of its answer. -/
theorem Sound.answered (sound : Sound toLowerCase delay world)
    (present : world.batches[place]? = some batch) {reply : DataLoader.Reply Loaded Text}
    (taken : world.answer place reply = some after)
    (fits : ∀ lookups, batch.Answers world lookups →
      (∃ error, reply = .error error) ∨ ∃ sets : List Loaded, reply = .ok (sets.map .ok) ∧
        ∀ (place : Nat) lookup, lookups[place]? = some lookup →
          ∃ loaded, sets[place]? = some loaded ∧ Answered toLowerCase delay world lookup loaded) :
    Sound toLowerCase delay after := by
  obtain ⟨loader, answered, rfl⟩ := Option.map_eq_some_iff.mp taken
  have books := sound.books.step answered
  rcases DataLoader.step_cases answered with ⟨_, other, _⟩ | ⟨other, _⟩ | ⟨other, _⟩ |
    ⟨_, _, call, lookups, same, flying, rfl⟩
  · cases other
  · cases other
  · cases other
  · obtain ⟨rfl, rfl⟩ := DataLoader.Action.answer.inj same
    have inside := (List.getElem?_eq_some_iff.mp present).1
    have insideCalls := (List.getElem?_eq_some_iff.mp flying).1
    have called : world.suppressionsLoader.calls[call]? = some lookups :=
      sound.books.called _ (List.mem_of_getElem? flying)
    exact {
      books := books
      shown := sound.shown
      lifetime := sound.lifetime
      cached := sound.cached
      count := sound.count
      past := sound.past
      aligned := by
        have aligned := sound.aligned
        dsimp only
        rw [List.length_eraseIdx_of_lt inside, List.length_eraseIdx_of_lt insideCalls, aligned]
      answers := fun at' row other there calledOther => by
        obtain ⟨before, one, two⟩ := rows_erased there calledOther
        exact sound.answers before row other one two
      batches := fun row listed =>
        have known := sound.batches row (List.mem_of_mem_eraseIdx listed)
        known.mono (List.Subset.refl _) (Nat.le_refl _) fun loaded reading =>
          (known.read loaded reading).1
      replies := fun entry listed others calledOther => by
        rcases List.mem_append.mp listed with old | new
        · exact sound.replies entry old others calledOther
        · obtain rfl := List.mem_singleton.mp new
          obtain rfl : lookups = others := Option.some.inj (called.symm.trans calledOther)
          exact fits lookups (sound.answers place batch _ present flying) }

/-- A batch with a set for each of its keys is over. -/
theorem Sound.finish (sound : Sound toLowerCase delay world)
    (taken : step toLowerCase world (.finish place) = some after) : Sound toLowerCase delay after := by
  obtain ⟨batch, present, taken⟩ := Option.bind_eq_some_iff.mp taken
  obtain ⟨whole, taken⟩ := Option.ite_none_right_eq_some.mp taken
  have known := sound.batches batch (List.mem_of_getElem? present)
  refine sound.answered present taken fun lookups answers => .inr ⟨batch.keys.map fun key =>
    (batch.results.lookup key.cacheKey).getD ⟨[], 0⟩, by rw [List.map_map]; rfl, ?_⟩
  intro at' lookup listed
  have own : batch.keys[at']? = some lookup.key := by
    rw [answers.1, List.getElem?_map, listed]
    rfl
  have has := known.passed lookup.key (by
    rw [whole, List.take_length]
    exact List.mem_of_getElem? own)
  obtain ⟨loaded, found⟩ := Option.isSome_iff_exists.mp has
  refine ⟨loaded, by rw [List.getElem?_map, own, Option.map_some, found, Option.getD_some], ?_⟩
  obtain ⟨before, rest, results, _⟩ := List.lookup_eq_some_iff.mp found
  have entry : (lookup.key.cacheKey, loaded) ∈ batch.results := by
    rw [results]
    exact List.mem_append_right _ List.mem_cons_self
  obtain ⟨faithful, late⟩ := known.results _ entry
  obtain ⟨asked, when, before⟩ := answers.2 lookup (List.mem_of_getElem? listed)
  exact ⟨faithful.own, asked, when, Nat.le_trans before late⟩

/-- What every step of a timely run keeps. -/
theorem Sound.step {action : Action} (sound : Sound toLowerCase delay world)
    (timely : Timely delay world action)
    (taken : SuppressionLookups.step toLowerCase world action = some after) :
    Sound toLowerCase delay after := by
  cases action with
  | tick ms =>
    obtain rfl := Option.some.inj taken
    refine sound.shows (world.now + ms) world.snapshot (Nat.le_add_right _ _) ?_
    intro batch listed loaded reading
    have inTime := timely batch listed
    unfold Batch.inTime at inTime
    rw [reading] at inTime
    exact inTime
  | write snapshot =>
    obtain rfl := Option.some.inj taken
    exact sound.shows world.now snapshot (Nat.le_refl _) fun batch listed loaded reading =>
      ((sound.batches batch listed).read loaded reading).1
  | load key => exact sound.load key taken
  | turn => exact sound.turn taken
  | look place => exact sound.look taken
  | read place => exact sound.read taken
  | keep place => exact sound.keep taken
  | fail place error =>
    obtain ⟨batch, present, taken⟩ := Option.bind_eq_some_iff.mp taken
    split at taken
    · cases taken
    · exact sound.answered present taken fun _ _ => .inl ⟨error, rfl⟩
  | finish place => exact sound.finish taken

/-- Before the first lookup. -/
theorem Sound.initial (toLowerCase : Text → Text) (delay : Nat) (snapshot : Snapshot) :
    Sound toLowerCase delay { snapshot := snapshot } where
  books := .start
  shown := List.mem_singleton.mpr rfl
  lifetime := rfl
  cached := fun _ listed => by cases listed
  count := rfl
  past := fun _ listed => by cases listed
  aligned := rfl
  answers := fun _ _ _ present => by cases present
  batches := fun _ listed => by cases listed
  replies := fun _ listed => by cases listed

end Steps

/-- However lookups are gathered into batches, answered out of the cache or by the table, and however
the tables change meanwhile, as long as no answer of the table is on its way longer than `delay`: a
lookup is answered once at most, by an error or with the set of its own project and channel as the
table had it at one instant, no longer than ten seconds and the delay before the lookup. No lookup is
answered with an empty set for want of one. -/
theorem suppression_lookups_fresh (toLowerCase : Text → Text) (delay : Nat) (snapshot : Snapshot)
    (world : World)
    (run : Reaches (step toLowerCase) (Timely delay) { snapshot := snapshot } world) :
    (world.suppressionsLoader.settled.map Prod.fst).Nodup ∧
    ∀ promise settlement, (promise, settlement) ∈ world.suppressionsLoader.settled →
      (∃ error, settlement = .rejected error) ∨
      ∃ key asked readAt shown, world.suppressionsLoader.asked[promise]? = some key ∧
        world.askedAt[promise]? = some asked ∧ (readAt, shown) ∈ world.shown ∧
        asked ≤ readAt + delay + 10000 ∧
        settlement = .resolved (some ⟨Engine.suppressedTargets toLowerCase shown key.projectId
          key.channel, readAt⟩) := by
  have sound : Sound toLowerCase delay world :=
    run.invariant (.initial toLowerCase delay snapshot) fun _ _ _ sound timely taken =>
      sound.step timely taken
  refine ⟨sound.books.account.settled_nodup, fun promise settlement settled => ?_⟩
  obtain ⟨call, batch, reply, index, key, called, replied, placed, asked, rfl⟩ :=
    sound.books.own settled
  rcases sound.replies (call, reply) replied batch called with ⟨error, rfl⟩ | ⟨sets, rfl, each⟩
  · exact .inl ⟨error, rfl⟩
  · obtain ⟨⟨targets, readAt⟩, there, ⟨shown, listed, rfl⟩, when, known, late⟩ :=
      each index _ placed
    refine .inr ⟨key, when, readAt, shown, asked, known, listed, late, ?_⟩
    simp only [DataLoader.outcome, List.getElem?_map, there, Option.map_some]

/-- The table with one address that opted out. -/
def oneOptOut : Snapshot := { suppressions := [⟨"p".toList, .email, "a@b".toList⟩] }

/-- An address opts out, two messages ask for the set together, and the row is taken out again while
the answer is on its way; a third message finds the set in the cache. -/
def cachedSet : List Action :=
  [.write oneOptOut, .load ⟨"p".toList, .email⟩, .load ⟨"p".toList, .email⟩, .turn, .look 0, .read 0,
    .write {}, .tick 5, .keep 0, .look 0, .finish 0, .tick 9000, .load ⟨"p".toList, .email⟩, .turn,
    .look 0, .finish 0]

theorem cached_set_fresh :
    let world := (perform (step id) {} cachedSet).getD {}
    (world.suppressionsLoader.settled.map Prod.fst).Nodup ∧
    ∀ promise settlement, (promise, settlement) ∈ world.suppressionsLoader.settled →
      (∃ error, settlement = .rejected error) ∨
      ∃ key asked readAt shown, world.suppressionsLoader.asked[promise]? = some key ∧
        world.askedAt[promise]? = some asked ∧ (readAt, shown) ∈ world.shown ∧
        asked ≤ readAt + 10 + 10000 ∧
        settlement = .resolved (some ⟨Engine.suppressedTargets id shown key.projectId
          key.channel, readAt⟩) :=
  suppression_lookups_fresh id 10 {} _ (reaches_performed cachedSet (by decide) (by decide))

end Notifkit.Pipeline.SuppressionLookups
