import Notifkit.Foundations.Runs
import Notifkit.Foundations.Tables
import Notifkit.Shared.LruCache

/-!
# Cached project settings

A project's settings are looked up once for all who ask while the lookup is under way. An
invalidation takes out the cached settings and the lookup under way as well: the lookup goes on for
those who wait for it, but whoever asks next begins another one, and what arrives for a lookup that
is no longer the project's is not cached.

A lookup is numbered by its place, and remembers how many invalidations of its project there had been
when it began. Its answer first comes to its own callback, which may cache it, and then to the one
that clears the place of the lookup; only then do the callers go on.
-/

namespace Notifkit.RateLimiter

open Runs Tables Shared

/-- The throttle overrides of a project. -/
structure ProjectThrottleSettings where
  throttleLimit : Option Int
  throttleWindowHours : Option Int
deriving DecidableEq

def NO_OVERRIDES : ProjectThrottleSettings := ⟨none, none⟩

/-- Where a lookup stands; a failed one has no settings. -/
inductive LookupPhase where
  | onWire
  | resolved (settings : Option ProjectThrottleSettings)
  | settled (settings : Option ProjectThrottleSettings)
deriving DecidableEq

/-- A lookup of a project, which began after so many invalidations of it. -/
structure SettingsLookup where
  projectId : String
  told : Nat
  phase : LookupPhase := .onWire
deriving DecidableEq

/-- The settings that a lookup brought. -/
structure LookedUp where
  settings : ProjectThrottleSettings
  lookup : Nat
  told : Nat
deriving DecidableEq

/-- A caller that waits for a lookup, and asked after so many invalidations. -/
structure SettingsCaller where
  asked : Nat
  lookup : Nat
deriving DecidableEq

/-- What a caller was answered: the invalidations before it asked, and those before the lookup. -/
structure SettingsAnswer where
  asked : Nat
  told : Nat
  settings : ProjectThrottleSettings
deriving DecidableEq

/-- The cache of one process, with all lookups it began. -/
structure ProjectSettingsCache where
  clock : Int := 0
  cache : LRUCache String LookedUp
  /-- lookups in flight -/
  inFlight : String → Option Nat := fun _ => none
  lookups : List SettingsLookup := []
  callers : List SettingsCaller := []
  /-- the invalidations of each project so far -/
  told : String → Nat := fun _ => 0
  answers : List SettingsAnswer := []

namespace ProjectSettingsCache

/-- A cache that was never asked. -/
def new (maxSize : Nat) (ttlMs : Int) : ProjectSettingsCache where
  cache := { maxSize, defaultTtlMs := ttlMs }

/-- `get`, up to where it returns or waits. -/
def get (world : ProjectSettingsCache) (projectId : String) : ProjectSettingsCache :=
  let read := world.cache.get world.clock projectId
  match read.2 with
  | some cached => { world with
      cache := read.1
      answers := ⟨world.told projectId, cached.told, cached.settings⟩ :: world.answers }
  | none =>
    match world.inFlight projectId with
    | some existing => { world with
        cache := read.1
        callers := world.callers ++ [⟨world.told projectId, existing⟩] }
    | none =>
      let pending := world.lookups.length
      { world with
        cache := read.1
        inFlight := fun other => if other = projectId then some pending else world.inFlight other
        lookups := world.lookups ++ [{ projectId, told := world.told projectId }]
        callers := world.callers ++ [⟨world.told projectId, pending⟩] }

/-- A lookup is answered: it is cached while it is still the current one. Where it fails, nothing
happens yet. -/
def resolve (world : ProjectSettingsCache) (pending : Nat)
    (answer : Option (Option ProjectThrottleSettings)) : Option ProjectSettingsCache := do
  let lookup ← world.lookups[pending]?
  if lookup.phase = .onWire then
    let resolved := answer.map fun settings => settings.getD NO_OVERRIDES
    some { world with
      cache := match resolved with
        | some settings =>
          if world.inFlight lookup.projectId = some pending
          then world.cache.set world.clock lookup.projectId ⟨settings, pending, lookup.told⟩
          else world.cache
        | none => world.cache
      lookups := world.lookups.set pending { lookup with phase := .resolved resolved } }
  else none

/-- A lookup is over, whether it failed or not: it is no longer in flight. -/
def finish (world : ProjectSettingsCache) (pending : Nat) : Option ProjectSettingsCache := do
  let lookup ← world.lookups[pending]?
  match lookup.phase with
  | .resolved settings =>
    some { world with
      inFlight := fun other =>
        if other = lookup.projectId ∧ world.inFlight lookup.projectId = some pending then none
        else world.inFlight other
      lookups := world.lookups.set pending { lookup with phase := .settled settings } }
  | _ => none

/-- A caller goes on with what its lookup came to. -/
def return' (world : ProjectSettingsCache) (position : Nat) : Option ProjectSettingsCache := do
  let caller ← world.callers[position]?
  let lookup ← world.lookups[caller.lookup]?
  match lookup.phase with
  | .settled settings =>
    some { world with
      callers := world.callers.eraseIdx position
      answers := match settings with
        | some settings => ⟨caller.asked, lookup.told, settings⟩ :: world.answers
        | none => world.answers }
  | _ => none

def invalidate (world : ProjectSettingsCache) (projectId : String) : ProjectSettingsCache :=
  { world with
    cache := world.cache.delete projectId
    inFlight := fun other => if other = projectId then none else world.inFlight other
    told := fun other => if other = projectId then world.told projectId + 1 else world.told other }

/-- `clear`, which tells of every project. -/
def clear (world : ProjectSettingsCache) : ProjectSettingsCache :=
  { world with
    cache := world.cache.clear
    inFlight := fun _ => none
    told := fun other => world.told other + 1 }

end ProjectSettingsCache

/-- A step of the callers, the lookups or the clock. -/
inductive SettingsAction where
  | get (projectId : String)
  /-- a lookup comes back, with settings, without any, or failed -/
  | resolve (pending : Nat) (answer : Option (Option ProjectThrottleSettings))
  | finish (pending : Nat)
  | return' (position : Nat)
  | invalidate (projectId : String)
  | clear
  | tick (ms : Nat)

/-- One step. -/
def settingsStep (world : ProjectSettingsCache) : SettingsAction → Option ProjectSettingsCache
  | .get projectId => some (world.get projectId)
  | .resolve pending answer => world.resolve pending answer
  | .finish pending => world.finish pending
  | .return' position => world.return' position
  | .invalidate projectId => some (world.invalidate projectId)
  | .clear => some world.clear
  | .tick ms => some { world with clock := world.clock + ms }

/-- A lookup is in flight until its callers may go on. -/
def SettingsLookup.open' (lookup : SettingsLookup) : Prop :=
  ∀ settings, lookup.phase ≠ .settled settings

/-- A lookup brought nothing so far. -/
def SettingsLookup.empty (lookup : SettingsLookup) : Prop :=
  lookup.phase = .onWire ∨ lookup.phase = .resolved none

namespace ProjectSettingsCache

variable {world next : ProjectSettingsCache}

/-- The cache, the lookups in flight and the callers, tied together. -/
structure Kept (world : ProjectSettingsCache) : Prop where
  fresh : world.cache.Fresh LookedUp.told world.told
  /-- what is in flight for a project is a lookup of it that began since its last invalidation, and
  nothing of the project is cached while it brought nothing -/
  current : ∀ projectId pending, world.inFlight projectId = some pending →
    ∃ lookup, world.lookups[pending]? = some lookup ∧ lookup.projectId = projectId ∧
      lookup.told = world.told projectId ∧ lookup.open' ∧
      (lookup.empty → ∀ entry ∈ world.cache.entries, entry.key ≠ projectId)
  /-- and it is the only one of these -/
  held : ∀ (pending : Nat) (lookup : SettingsLookup), world.lookups[pending]? = some lookup →
    lookup.told ≤ world.told lookup.projectId ∧
      (lookup.open' → lookup.told = world.told lookup.projectId →
        world.inFlight lookup.projectId = some pending)
  once : ∀ (first second : Nat) (one two : SettingsLookup), world.lookups[first]? = some one →
    world.lookups[second]? = some two → one.open' → two.open' → one.projectId = two.projectId →
    one.told = two.told → first = second
  waits : ∀ caller ∈ world.callers, ∃ lookup, world.lookups[caller.lookup]? = some lookup ∧
    caller.asked ≤ lookup.told
  answers : ∀ answer ∈ world.answers, answer.asked ≤ answer.told
  /-- a cached value was brought by its lookup -/
  brought : ∀ entry ∈ world.cache.entries, ∃ lookup settings,
    world.lookups[entry.value.lookup]? = some lookup ∧
      (lookup.phase = .resolved (some settings) ∨ lookup.phase = .settled (some settings))

namespace Kept

/-- Nothing was asked yet. -/
theorem start (maxSize : Nat) (ttlMs : Int) : Kept (new maxSize ttlMs) where
  fresh := nofun
  current := nofun
  held := nofun
  once := nofun
  waits := nofun
  answers := nofun
  brought := nofun

/-- A cache with fewer entries, asked for a project. -/
theorem read (kept : world.Kept) (projectId : String) :
    Kept { world with cache := (world.cache.get world.clock projectId).1 } :=
  { kept with
    fresh := kept.fresh.get _ _
    current := fun project pending flies => by
      obtain ⟨lookup, present, mine, since, open', absent⟩ := kept.current project pending flies
      exact ⟨lookup, present, mine, since, open', fun empty entry member =>
        absent empty entry (LRUCache.mem_of_get member)⟩
    brought := fun entry member => kept.brought entry (LRUCache.mem_of_get member) }

/-- A caller is answered. -/
theorem answer (kept : world.Kept) {answer : SettingsAnswer} (since : answer.asked ≤ answer.told) :
    Kept { world with answers := answer :: world.answers } :=
  { kept with answers := List.forall_mem_cons.mpr ⟨since, kept.answers⟩ }

/-- A caller begins to wait for a lookup. -/
theorem wait (kept : world.Kept) {pending : Nat} {lookup : SettingsLookup} {asked : Nat}
    (present : world.lookups[pending]? = some lookup) (since : asked ≤ lookup.told) :
    Kept { world with callers := world.callers ++ [⟨asked, pending⟩] } :=
  { kept with waits := all_append kept.waits ⟨lookup, present, since⟩ }

/-- A lookup begins for a project that has none in flight and nothing cached. -/
theorem begin' (kept : world.Kept) {projectId : String} (idle : world.inFlight projectId = none)
    (absent : ∀ entry ∈ world.cache.entries, entry.key ≠ projectId) :
    Kept { world with
      inFlight := fun other => if other = projectId then some world.lookups.length
        else world.inFlight other
      lookups := world.lookups ++ [{ projectId, told := world.told projectId }] } where
  fresh := kept.fresh
  current := fun project pending flies => by
    dsimp only at flies
    split at flies
    next same =>
      obtain rfl := Option.some.inj flies
      subst same
      exact ⟨_, List.getElem?_concat_length, rfl, rfl, nofun, fun _ => absent⟩
    next other =>
      obtain ⟨lookup, present, rest⟩ := kept.current project pending flies
      exact ⟨lookup, row_append.mpr (.inl present), rest⟩
  held := fun pending lookup present => by
    obtain old | ⟨rfl, rfl⟩ := row_append.mp present
    · obtain ⟨bound, current⟩ := kept.held pending lookup old
      refine ⟨bound, fun open' since => ?_⟩
      have flies := current open' since
      have other : lookup.projectId ≠ projectId := fun same => by
        rw [same, idle] at flies
        cases flies
      dsimp only
      rw [if_neg other]
      exact flies
    · exact ⟨Nat.le_refl _, fun _ _ => if_pos rfl⟩
  once := fun first second one two here there openOne openTwo project told => by
    obtain old | ⟨rfl, rfl⟩ := row_append.mp here
    · obtain old' | ⟨rfl, rfl⟩ := row_append.mp there
      · exact kept.once first second one two old old' openOne openTwo project told
      · have flies := (kept.held first one old).2 openOne (by rw [told, project])
        rw [project, idle] at flies
        cases flies
    · obtain old' | ⟨rfl, rfl⟩ := row_append.mp there
      · have flies := (kept.held second two old').2 openTwo (by rw [← told, ← project])
        rw [← project, idle] at flies
        cases flies
      · rfl
  waits := fun caller waits => by
    obtain ⟨lookup, present, since⟩ := kept.waits caller waits
    exact ⟨lookup, row_append.mpr (.inl present), since⟩
  answers := kept.answers
  brought := fun entry member => by
    obtain ⟨lookup, settings, present, phase⟩ := kept.brought entry member
    exact ⟨lookup, settings, row_append.mpr (.inl present), phase⟩

/-- A caller is answered from the cache, shares the lookup in flight, or begins one. -/
theorem get (kept : world.Kept) (projectId : String) : (world.get projectId).Kept := by
  have read := kept.read projectId
  unfold ProjectSettingsCache.get
  cases answered : (world.cache.get world.clock projectId).2 with
  | some cached =>
    simp only [answered]
    exact read.answer (kept.fresh.answer answered)
  | none =>
    simp only [answered]
    cases flies : world.inFlight projectId with
    | some existing =>
      obtain ⟨lookup, present, _, since, _⟩ := kept.current projectId existing flies
      exact read.wait present (Nat.le_of_eq since.symm)
    | none =>
      have begun := read.begin' flies fun entry member => LRUCache.absent_of_get answered member
      exact begun.wait List.getElem?_concat_length (Nat.le_refl _)

/-- The callers wait for the same lookups, whatever one of these has come to. -/
theorem still_waits (kept : world.Kept) {pending : Nat} {lookup new : SettingsLookup}
    (present : world.lookups[pending]? = some lookup) (same : new.told = lookup.told) :
    ∀ caller ∈ world.callers, ∃ after, (world.lookups.set pending new)[caller.lookup]? = some after ∧
      caller.asked ≤ after.told := by
  intro caller waits
  obtain ⟨other, found, since⟩ := kept.waits caller waits
  by_cases here : caller.lookup = pending
  · rw [here] at found
    obtain rfl : lookup = other := Option.some.inj (present.symm.trans found)
    exact ⟨new, (row_set present).mpr (.inl ⟨here, rfl⟩), same ▸ since⟩
  · exact ⟨other, (row_set present).mpr (.inr ⟨here, found⟩), since⟩

/-- A lookup comes back. -/
theorem resolved (kept : world.Kept) {pending : Nat} {lookup : SettingsLookup}
    (present : world.lookups[pending]? = some lookup) (wire : lookup.phase = .onWire)
    (settings : Option ProjectThrottleSettings) :
    Kept { world with
      lookups := world.lookups.set pending { lookup with phase := .resolved settings } } where
  fresh := kept.fresh
  current := fun project place flies => by
    obtain ⟨other, found, mine, since, open', absent⟩ := kept.current project place flies
    by_cases same : place = pending
    · subst same
      obtain rfl : lookup = other := Option.some.inj (present.symm.trans found)
      exact ⟨_, (row_set present).mpr (.inl ⟨rfl, rfl⟩), mine, since, nofun,
        fun _ => absent (.inl wire)⟩
    · exact ⟨other, (row_set present).mpr (.inr ⟨same, found⟩), mine, since, open', absent⟩
  held := fun place other found => by
    obtain ⟨rfl, rfl⟩ | ⟨_, old⟩ := (row_set present).mp found
    · obtain ⟨bound, current⟩ := kept.held place lookup present
      exact ⟨bound, fun _ => current fun _ settled => nomatch wire.symm.trans settled⟩
    · exact kept.held place other old
  once := fun first second one two here there openOne openTwo project told => by
    have opened : lookup.open' := fun _ settled => nomatch wire.symm.trans settled
    obtain ⟨rfl, rfl⟩ | ⟨_, old⟩ := (row_set present).mp here
    · obtain ⟨rfl, rfl⟩ | ⟨_, old'⟩ := (row_set present).mp there
      · rfl
      · exact kept.once _ _ lookup two present old' opened openTwo project told
    · obtain ⟨rfl, rfl⟩ | ⟨_, old'⟩ := (row_set present).mp there
      · exact kept.once _ _ one lookup old present openOne opened project told
      · exact kept.once first second one two old old' openOne openTwo project told
  waits := kept.still_waits present rfl
  answers := kept.answers
  brought := fun entry member => by
    obtain ⟨other, settings', found, phase⟩ := kept.brought entry member
    refine ⟨other, settings', (row_set present).mpr (.inr ⟨fun same => ?_, found⟩), phase⟩
    rw [same, present] at found
    obtain rfl := Option.some.inj found
    rw [wire] at phase
    cases phase with
    | inl resolved => cases resolved
    | inr settled => cases settled

/-- What the current lookup of a project brought is cached. -/
theorem cached (kept : world.Kept) {pending : Nat} {lookup : SettingsLookup}
    {settings : ProjectThrottleSettings} (present : world.lookups[pending]? = some lookup)
    (phase : lookup.phase = .resolved (some settings))
    (flies : world.inFlight lookup.projectId = some pending) :
    Kept { world with
      cache := world.cache.set world.clock lookup.projectId ⟨settings, pending, lookup.told⟩ } := by
  obtain ⟨found, there, _, since, _⟩ := kept.current lookup.projectId pending flies
  obtain rfl : lookup = found := Option.some.inj (present.symm.trans there)
  exact { kept with
    fresh := kept.fresh.set (Nat.le_of_eq since.symm) _
    current := fun project place flies' => by
      obtain ⟨other, found, mine, since', open', absent⟩ := kept.current project place flies'
      refine ⟨other, found, mine, since', open', fun empty entry member => ?_⟩
      obtain rfl | ⟨old, _⟩ := LRUCache.mem_of_set member
      · -- the lookup of another project may be empty, this one is not
        rintro rfl
        obtain rfl := Option.some.inj (flies.symm.trans flies')
        obtain rfl : lookup = other := Option.some.inj (present.symm.trans found)
        obtain wire | failed := empty
        · exact nomatch phase.symm.trans wire
        · exact nomatch phase.symm.trans failed
      · exact absent empty entry old
    brought := fun entry member => by
      obtain rfl | ⟨old, _⟩ := LRUCache.mem_of_set member
      · exact ⟨lookup, settings, present, .inl phase⟩
      · exact kept.brought entry old }

/-- A lookup comes back, and may be cached. -/
theorem resolve (kept : world.Kept) {pending : Nat}
    {answer : Option (Option ProjectThrottleSettings)}
    (taken : world.resolve pending answer = some next) : next.Kept := by
  obtain ⟨lookup, present, ends⟩ := Option.bind_eq_some_iff.mp taken
  obtain ⟨wire, same⟩ := Option.ite_none_right_eq_some.mp ends
  obtain rfl := Option.some.inj same
  cases answer with
  | none => exact kept.resolved present wire none
  | some settings =>
    have back := kept.resolved present wire (some (settings.getD NO_OVERRIDES))
    by_cases flies : world.inFlight lookup.projectId = some pending
    · have stored := back.cached ((row_set present).mpr (.inl ⟨rfl, rfl⟩)) rfl flies
      simpa [flies] using stored
    · simpa [flies] using back

/-- A lookup is over. -/
theorem finish (kept : world.Kept) {pending : Nat}
    (taken : world.finish pending = some next) : next.Kept := by
  obtain ⟨lookup, present, ends⟩ := Option.bind_eq_some_iff.mp taken
  cases phase : lookup.phase with
  | onWire => simp [phase] at ends
  | settled settings => simp [phase] at ends
  | resolved settings =>
    simp only [phase, Option.some.injEq] at ends
    subst ends
    have opened : lookup.open' := fun _ settled => nomatch phase.symm.trans settled
    constructor
    · exact kept.fresh
    · intro project place flies
      dsimp only at flies
      split at flies
      · cases flies
      next stays =>
        obtain ⟨other, found, mine, since, open', absent⟩ := kept.current project place flies
        refine ⟨other, (row_set present).mpr (.inr ⟨?_, found⟩), mine, since, open', absent⟩
        rintro rfl
        obtain rfl : lookup = other := Option.some.inj (present.symm.trans found)
        exact stays ⟨mine.symm, mine ▸ flies⟩
    · intro place other found
      obtain ⟨rfl, rfl⟩ | ⟨elsewhere, old⟩ := (row_set present).mp found
      · exact ⟨(kept.held place lookup present).1, fun open' => absurd rfl (open' settings)⟩
      · obtain ⟨bound, current⟩ := kept.held place other old
        refine ⟨bound, fun open' since => ?_⟩
        have flies := current open' since
        dsimp only
        rw [if_neg]
        · exact flies
        · rintro ⟨same, mine⟩
          rw [same, mine] at flies
          exact elsewhere (Option.some.inj flies).symm
    · intro first second one two here there openOne openTwo
      obtain ⟨rfl, rfl⟩ | ⟨_, old⟩ := (row_set present).mp here
      · exact absurd rfl (openOne settings)
      · obtain ⟨rfl, rfl⟩ | ⟨_, old'⟩ := (row_set present).mp there
        · exact absurd rfl (openTwo settings)
        · exact kept.once first second one two old old' openOne openTwo
    · exact kept.still_waits present rfl
    · exact kept.answers
    · intro entry member
      obtain ⟨other, settings', found, brought⟩ := kept.brought entry member
      by_cases same : entry.value.lookup = pending
      · rw [same] at found
        obtain rfl : lookup = other := Option.some.inj (present.symm.trans found)
        refine ⟨_, settings', (row_set present).mpr (.inl ⟨same, rfl⟩), .inr ?_⟩
        obtain resolved | settled := brought
        · rw [LookupPhase.resolved.inj (phase.symm.trans resolved)]
        · exact nomatch phase.symm.trans settled
      · exact ⟨other, settings', (row_set present).mpr (.inr ⟨same, found⟩), brought⟩

/-- A caller goes on. -/
theorem return' (kept : world.Kept) {position : Nat}
    (taken : world.return' position = some next) : next.Kept := by
  obtain ⟨caller, waiting, ends⟩ := Option.bind_eq_some_iff.mp taken
  obtain ⟨lookup, present, ends⟩ := Option.bind_eq_some_iff.mp ends
  obtain ⟨other, found, since⟩ := kept.waits caller (List.mem_of_getElem? waiting)
  obtain rfl : lookup = other := Option.some.inj (present.symm.trans found)
  have gone : Kept { world with callers := world.callers.eraseIdx position } :=
    { kept with waits := fun other member => kept.waits other (List.mem_of_mem_eraseIdx member) }
  cases phase : lookup.phase with
  | onWire => simp [phase] at ends
  | resolved settings => simp [phase] at ends
  | settled settings =>
    simp only [phase, Option.some.injEq] at ends
    subst ends
    cases settings with
    | none => exact gone
    | some settings => exact gone.answer since

/-- What is told makes every lookup of the project a former one. -/
theorem told (kept : world.Kept) {cache : LRUCache String LookedUp} {later : String → Nat}
    {inFlight : String → Option Nat} (fresh : cache.Fresh LookedUp.told later)
    (fewer : ∀ entry ∈ cache.entries, entry ∈ world.cache.entries)
    (ways : ∀ project, inFlight project = none ∧ later project = world.told project + 1 ∨
      inFlight project = world.inFlight project ∧ later project = world.told project) :
    Kept { world with cache := cache, inFlight := inFlight, told := later } where
  fresh := fresh
  current := fun project pending flies => by
    obtain ⟨gone, _⟩ | ⟨same, sameTold⟩ := ways project
    · exact nomatch gone.symm.trans flies
    · obtain ⟨lookup, present, mine, since, open', absent⟩ :=
        kept.current project pending (same ▸ flies)
      exact ⟨lookup, present, mine, since.trans sameTold.symm, open', fun empty entry member =>
        absent empty entry (fewer entry member)⟩
  held := fun pending lookup present => by
    obtain ⟨bound, current⟩ := kept.held pending lookup present
    obtain ⟨_, more⟩ | ⟨same, sameTold⟩ := ways lookup.projectId
    · dsimp only
      rw [more]
      exact ⟨by omega, fun _ since => by omega⟩
    · dsimp only
      rw [same, sameTold]
      exact ⟨bound, current⟩
  once := kept.once
  waits := kept.waits
  answers := kept.answers
  brought := fun entry member => kept.brought entry (fewer entry member)

/-- One step. -/
theorem step (kept : world.Kept) {action : SettingsAction}
    (taken : settingsStep world action = some next) : next.Kept := by
  cases action with
  | get projectId =>
    obtain rfl := Option.some.inj taken
    exact kept.get projectId
  | resolve pending answer => exact kept.resolve taken
  | finish pending => exact kept.finish taken
  | return' position => exact kept.return' taken
  | invalidate projectId =>
    obtain rfl := Option.some.inj taken
    refine kept.told (kept.fresh.delete fun _ elsewhere => if_neg elsewhere)
      (fun entry member => (LRUCache.mem_delete.mp member).1) fun project => ?_
    by_cases same : project = projectId
    · exact .inl ⟨if_pos same, by rw [if_pos same, same]⟩
    · exact .inr ⟨if_neg same, if_neg same⟩
  | clear =>
    obtain rfl := Option.some.inj taken
    exact kept.told (.clear _ _ _) nofun fun _ => .inl ⟨rfl, rfl⟩
  | tick ms =>
    obtain rfl := Option.some.inj taken
    exact { kept with }

end Kept

/-- Nothing is in flight for a project, and nothing cached. -/
structure Idle (world : ProjectSettingsCache) (projectId : String) : Prop where
  landed : world.inFlight projectId = none
  absent : ∀ entry ∈ world.cache.entries, entry.key ≠ projectId

namespace Idle

variable {projectId : String}

/-- Whoever asks for an idle project begins a lookup. -/
theorem get (idle : world.Idle projectId) : (world.get projectId).lookups =
    world.lookups ++ [{ projectId, told := world.told projectId }] := by
  have missed : (world.cache.get world.clock projectId).2 = none := by
    cases answered : (world.cache.get world.clock projectId).2 with
    | none => rfl
    | some value =>
      obtain ⟨expiresAt, member, _⟩ := LRUCache.get_eq_some.mp answered
      exact absurd rfl (idle.absent _ member)
  simp only [ProjectSettingsCache.get, missed, idle.landed]

/-- A failed lookup leaves its project idle. -/
theorem failed (kept : world.Kept) {pending : Nat} {lookup : SettingsLookup}
    (present : world.lookups[pending]? = some lookup) (failure : lookup.phase = .resolved none)
    (flies : world.inFlight lookup.projectId = some pending)
    (taken : world.finish pending = some next) : next.Idle lookup.projectId := by
  obtain ⟨other, found, _, _, _, absent⟩ := kept.current lookup.projectId pending flies
  obtain rfl : lookup = other := Option.some.inj (present.symm.trans found)
  unfold finish at taken
  simp only [present, Option.bind_eq_bind, Option.bind_some, failure, Option.some.injEq] at taken
  subst taken
  exact ⟨if_pos ⟨rfl, flies⟩, absent (.inr failure)⟩

/-- It stays idle until somebody asks for it. -/
theorem step (idle : world.Idle projectId) {action : SettingsAction}
    (unasked : action ≠ .get projectId) (taken : settingsStep world action = some next) :
    next.Idle projectId := by
  cases action with
  | get other =>
    obtain rfl := Option.some.inj taken
    have elsewhere : projectId ≠ other := fun same => unasked (same ▸ rfl)
    have read : ∀ entry ∈ (world.cache.get world.clock other).1.entries, entry.key ≠ projectId :=
      fun entry member => idle.absent entry (LRUCache.mem_of_get member)
    unfold ProjectSettingsCache.get
    dsimp only
    split
    · exact ⟨idle.landed, read⟩
    · split
      · exact ⟨idle.landed, read⟩
      · exact ⟨(if_neg elsewhere).trans idle.landed, read⟩
  | resolve pending answer =>
    obtain ⟨lookup, present, ends⟩ := Option.bind_eq_some_iff.mp taken
    obtain ⟨_, same⟩ := Option.ite_none_right_eq_some.mp ends
    obtain rfl := Option.some.inj same
    refine ⟨idle.landed, fun entry member => ?_⟩
    dsimp only at member
    split at member
    · split at member
      next flies =>
        obtain rfl | ⟨old, _⟩ := LRUCache.mem_of_set member
        · rintro rfl
          exact nomatch idle.landed.symm.trans flies
        · exact idle.absent entry old
      · exact idle.absent entry member
    · exact idle.absent entry member
  | finish pending =>
    obtain ⟨lookup, present, ends⟩ := Option.bind_eq_some_iff.mp taken
    split at ends
    · obtain rfl := Option.some.inj ends
      refine ⟨?_, idle.absent⟩
      dsimp only
      split
      · rfl
      · exact idle.landed
    · cases ends
  | return' position =>
    obtain ⟨caller, _, ends⟩ := Option.bind_eq_some_iff.mp taken
    obtain ⟨lookup, _, ends⟩ := Option.bind_eq_some_iff.mp ends
    split at ends
    · obtain rfl := Option.some.inj ends
      exact ⟨idle.landed, idle.absent⟩
    · cases ends
  | invalidate other =>
    obtain rfl := Option.some.inj taken
    refine ⟨?_, fun entry member => idle.absent entry (LRUCache.mem_delete.mp member).1⟩
    dsimp only [ProjectSettingsCache.invalidate]
    split
    · rfl
    · exact idle.landed
  | clear =>
    obtain rfl := Option.some.inj taken
    exact ⟨rfl, nofun⟩
  | tick ms =>
    obtain rfl := Option.some.inj taken
    exact ⟨idle.landed, idle.absent⟩

end Idle

end ProjectSettingsCache

/-- Whatever comes between: settings that are cached were looked up since the last invalidation of
their project, and those that are answered since the last one before they were asked for. Of the
lookups of a project that begin between two invalidations one at most is in flight. A failed one is
nowhere left, and whoever asks next begins another. -/
theorem settings_looked_up_since (maxSize : Nat) (ttlMs : Int) (world : ProjectSettingsCache)
    (run : Reaches settingsStep anyStep (.new maxSize ttlMs) world) :
    (∀ entry ∈ world.cache.entries, world.told entry.key ≤ entry.value.told) ∧
    (∀ answer ∈ world.answers, answer.asked ≤ answer.told) ∧
    (∀ (first second : Nat) (one two : SettingsLookup), world.lookups[first]? = some one →
      world.lookups[second]? = some two → one.open' → two.open' → one.projectId = two.projectId →
      one.told = two.told → first = second) ∧
    (∀ (pending : Nat) (lookup : SettingsLookup), world.lookups[pending]? = some lookup →
      lookup.phase = .settled none → (∀ projectId, world.inFlight projectId ≠ some pending) ∧
        ∀ entry ∈ world.cache.entries, entry.value.lookup ≠ pending) ∧
    (∀ (pending : Nat) (lookup : SettingsLookup) (next later : ProjectSettingsCache),
      world.lookups[pending]? = some lookup → lookup.phase = .resolved none →
      world.inFlight lookup.projectId = some pending →
      settingsStep world (.finish pending) = some next →
      Reaches settingsStep (fun _ action => action ≠ .get lookup.projectId) next later →
      (later.get lookup.projectId).lookups =
        later.lookups ++ [{ projectId := lookup.projectId, told := later.told lookup.projectId }]) := by
  have kept : world.Kept :=
    run.invariant (.start maxSize ttlMs) fun _ _ _ kept _ taken => kept.step taken
  refine ⟨kept.fresh, kept.answers, kept.once, ?_, ?_⟩
  · intro pending lookup present failed
    constructor
    · intro projectId flies
      obtain ⟨other, found, _, _, open', _⟩ := kept.current projectId pending flies
      obtain rfl : lookup = other := Option.some.inj (present.symm.trans found)
      exact open' none failed
    · rintro entry member rfl
      obtain ⟨other, settings, found, brought⟩ := kept.brought entry member
      obtain rfl : lookup = other := Option.some.inj (present.symm.trans found)
      obtain resolved | settled := brought
      · exact nomatch failed.symm.trans resolved
      · exact nomatch failed.symm.trans settled
  · intro pending lookup next later present failed flies taken unasked
    have idle : next.Idle lookup.projectId :=
      ProjectSettingsCache.Idle.failed kept present failed flies taken
    have stays : later.Idle lookup.projectId :=
      @Reaches.invariant _ _ _ _ _ _ (fun world => world.Idle lookup.projectId) unasked idle
        fun _ _ _ still unasked taken => still.step unasked taken
    exact stays.get

/-- The cache after some steps. -/
def settingsAfter (actions : List SettingsAction) : ProjectSettingsCache :=
  (perform settingsStep (.new 1000 60_000) actions).getD (.new 1000 60_000)

/-- A lookup is superseded and arrives late, the next one fails, and another one is cached. -/
def superseded : List SettingsAction :=
  [.get "p", .invalidate "p", .get "p", .resolve 0 (some (some ⟨some 1, none⟩)), .finish 0,
    .return' 0, .resolve 1 none, .finish 1, .return' 0, .get "p", .resolve 2 (some none), .finish 2,
    .return' 0, .get "p"]

/-- The late settings are answered to the one that had asked for them, and to nobody else. -/
theorem settings_looked_up_since_run :
    (settingsAfter superseded).answers =
      [⟨1, 1, NO_OVERRIDES⟩, ⟨1, 1, NO_OVERRIDES⟩, ⟨0, 0, ⟨some 1, none⟩⟩] ∧
    (∀ entry ∈ (settingsAfter superseded).cache.entries, 1 ≤ entry.value.told) := by
  have run : Reaches settingsStep anyStep (.new 1000 60_000) (settingsAfter superseded) :=
    reaches_any_performed superseded (by decide +kernel)
  have looked := settings_looked_up_since 1000 60_000 (settingsAfter superseded) run
  have told : (settingsAfter superseded).told = fun other => if other = "p" then 1 else 0 := rfl
  refine ⟨by decide +kernel, fun entry member => ?_⟩
  have since := looked.1 entry member
  have mine : ∀ entry ∈ (settingsAfter superseded).cache.entries, entry.key = "p" := by
    decide +kernel
  simpa [told, mine entry member] using since

end Notifkit.RateLimiter
