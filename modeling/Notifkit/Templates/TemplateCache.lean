import Notifkit.Foundations.Runs
import Notifkit.Shared.LruCache

/-!
# Cached templates

A template that is not cached is loaded, and put into the cache when it arrives. An invalidation
takes the template out of the cache, but leaves the loads that are under way alone: one of them may
put the old template back.

With each template stands how many invalidations of its key there had been when its load began, and
with each answer how many there had been when it was asked for.
-/

namespace Notifkit.Templates

open Runs Shared

variable {Template : Type}

/-- A template, and the invalidations of its key before it was loaded. -/
structure LoadedTemplate (Template : Type) where
  template : Template
  told : Nat
deriving DecidableEq

/-- A load under way, which began after so many invalidations of its key. -/
structure TemplateLoad where
  key : String
  told : Nat
deriving DecidableEq

/-- What a caller was answered: the invalidations before it asked, and those before the load. -/
structure TemplateAnswer where
  asked : Nat
  loaded : Nat
deriving DecidableEq

/-- The cache of one process, with its loads. -/
structure TemplateCache (Template : Type) where
  clock : Int := 0
  cache : LRUCache String (LoadedTemplate Template) := { maxSize := 1000, defaultTtlMs := 5 * 60 * 1000 }
  loads : List TemplateLoad := []
  /-- the invalidations of each key so far -/
  told : String → Nat := fun _ => 0
  answers : List TemplateAnswer := []

/-- The key of a template. -/
def templateKey (projectId id : String) : String := projectId ++ ":" ++ id

namespace TemplateCache

/-- `getCachedTemplate`, up to where it returns or waits for the repository. -/
def getCachedTemplate (cache : TemplateCache Template) (projectId id : String) :
    TemplateCache Template :=
  let key := templateKey projectId id
  let read := cache.cache.get cache.clock key
  match read.2 with
  | some cached => { cache with
      cache := read.1
      answers := ⟨cache.told key, cached.told⟩ :: cache.answers }
  | none => { cache with cache := read.1, loads := cache.loads ++ [⟨key, cache.told key⟩] }

/-- The repository answers; a template that was found is cached. -/
def loaded (cache : TemplateCache Template) (position : Nat) (dbTemplate : Option Template) :
    Option (TemplateCache Template) := do
  let load ← cache.loads[position]?
  some { cache with
    cache := match dbTemplate with
      | some template => cache.cache.set cache.clock load.key ⟨template, load.told⟩
      | none => cache.cache
    loads := cache.loads.eraseIdx position
    answers := match dbTemplate with
      | some _ => ⟨load.told, load.told⟩ :: cache.answers
      | none => cache.answers }

def invalidateKey (cache : TemplateCache Template) (key : String) : TemplateCache Template :=
  { cache with
    cache := cache.cache.delete key
    told := fun other => if other = key then cache.told key + 1 else cache.told other }

def invalidate (cache : TemplateCache Template) (projectId id : String) : TemplateCache Template :=
  cache.invalidateKey (templateKey projectId id)

def clear (cache : TemplateCache Template) : TemplateCache Template :=
  { cache with cache := cache.cache.clear }

end TemplateCache

/-- A step of the callers, the repository, the invalidations or the clock. -/
inductive TemplateAction (Template : Type) where
  | getCachedTemplate (projectId id : String)
  | loaded (position : Nat) (dbTemplate : Option Template)
  /-- a load fails, and its caller with it -/
  | failed (position : Nat)
  | invalidateKey (key : String)
  | invalidate (projectId id : String)
  | clear
  | tick (ms : Nat)

/-- One step. -/
def templateStep (cache : TemplateCache Template) :
    TemplateAction Template → Option (TemplateCache Template)
  | .getCachedTemplate projectId id => some (cache.getCachedTemplate projectId id)
  | .loaded position dbTemplate => cache.loaded position dbTemplate
  | .failed position =>
    (cache.loads[position]?).map fun _ => { cache with loads := cache.loads.eraseIdx position }
  | .invalidateKey key => some (cache.invalidateKey key)
  | .invalidate projectId id => some (cache.invalidate projectId id)
  | .clear => some cache.clear
  | .tick ms => some { cache with clock := cache.clock + ms }

/-- Nobody was answered with a template whose load began before an invalidation that came before
they asked. -/
def TemplateCache.Current (cache : TemplateCache Template) : Prop :=
  ∀ answer ∈ cache.answers, answer.asked ≤ answer.loaded

/-- A load that finds a template arrives before the next invalidation of its key. -/
def Prompt (cache : TemplateCache Template) : TemplateAction Template → Prop
  | .loaded position (some _) => ∀ load ∈ cache.loads[position]?, cache.told load.key ≤ load.told
  | _ => True

instance (cache : TemplateCache Template) (action : TemplateAction Template) :
    Decidable (Prompt cache action) :=
  match action with
  | .loaded position (some _) => by unfold Prompt; infer_instance
  | .loaded _ none | .getCachedTemplate .. | .failed _ | .invalidateKey _ | .invalidate .. | .clear
  | .tick _ => .isTrue trivial

namespace TemplateCache

variable {cache next : TemplateCache Template} {projectId id : String}

/-- A cached template is the answer. -/
theorem get_hit {cached : LoadedTemplate Template}
    (hit : (cache.cache.get cache.clock (templateKey projectId id)).2 = some cached) :
    cache.getCachedTemplate projectId id = { cache with
      cache := (cache.cache.get cache.clock (templateKey projectId id)).1
      answers := ⟨cache.told (templateKey projectId id), cached.told⟩ :: cache.answers } := by
  simp only [getCachedTemplate, hit]

/-- Without one a load begins. -/
theorem get_miss (miss : (cache.cache.get cache.clock (templateKey projectId id)).2 = none) :
    cache.getCachedTemplate projectId id = { cache with
      cache := (cache.cache.get cache.clock (templateKey projectId id)).1
      loads := cache.loads ++
        [⟨templateKey projectId id, cache.told (templateKey projectId id)⟩] } := by
  simp only [getCachedTemplate, miss]

/-- The cache holds what was loaded since the last invalidation, and so were the answers. -/
structure Kept (cache : TemplateCache Template) : Prop where
  fresh : cache.cache.Fresh LoadedTemplate.told cache.told
  current : cache.Current

namespace Kept

/-- Nothing was asked for yet. -/
theorem start : Kept ({} : TemplateCache Template) where
  fresh := nofun
  current := nofun

/-- A caller is answered with a fresh template, or begins a load. -/
theorem get (kept : cache.Kept) (projectId id : String) :
    (cache.getCachedTemplate projectId id).Kept := by
  have read := kept.fresh.get cache.clock (templateKey projectId id)
  cases answered : (cache.cache.get cache.clock (templateKey projectId id)).2 with
  | none =>
    rw [get_miss answered]
    exact ⟨read, kept.current⟩
  | some cached =>
    rw [get_hit answered]
    have since := kept.fresh.answer answered
    exact ⟨read, List.forall_mem_cons.mpr ⟨since, kept.current⟩⟩

/-- A template that arrives before the next invalidation is fresh. -/
theorem loaded (kept : cache.Kept) {position : Nat} {dbTemplate : Option Template}
    (prompt : Prompt cache (.loaded position dbTemplate))
    (taken : cache.loaded position dbTemplate = some next) : next.Kept := by
  obtain ⟨load, present, same⟩ := Option.bind_eq_some_iff.mp taken
  obtain rfl := Option.some.inj same
  cases dbTemplate with
  | none => exact { kept with }
  | some template =>
    have since := prompt load present
    exact ⟨kept.fresh.set since cache.clock,
      List.forall_mem_cons.mpr ⟨Nat.le_refl _, kept.current⟩⟩

/-- An invalidation takes out what it makes stale. -/
theorem invalidateKey (kept : cache.Kept) (key : String) : (cache.invalidateKey key).Kept where
  fresh := kept.fresh.delete fun _ elsewhere => if_neg elsewhere
  current := kept.current

/-- One step. -/
theorem step (kept : cache.Kept) {action : TemplateAction Template} (prompt : Prompt cache action)
    (taken : templateStep cache action = some next) : next.Kept := by
  cases action with
  | getCachedTemplate projectId id =>
    obtain rfl := Option.some.inj taken
    exact kept.get projectId id
  | loaded position dbTemplate => exact kept.loaded prompt taken
  | failed position =>
    obtain ⟨_, _, rfl⟩ := Option.map_eq_some_iff.mp taken
    exact { kept with }
  | invalidateKey key =>
    obtain rfl := Option.some.inj taken
    exact kept.invalidateKey key
  | invalidate projectId id =>
    obtain rfl := Option.some.inj taken
    exact kept.invalidateKey _
  | clear =>
    obtain rfl := Option.some.inj taken
    exact { kept with fresh := .clear _ _ _ }
  | tick ms =>
    obtain rfl := Option.some.inj taken
    exact { kept with }

end Kept

/-- Every load under way is for the key of a template. -/
def Keyed (cache : TemplateCache Template) : Prop :=
  cache.cache.defaultTtlMs = 5 * 60 * 1000 ∧
    ∀ load ∈ cache.loads, ∃ projectId id, load.key = templateKey projectId id

/-- One step keeps the loads keyed. -/
theorem keyed_step (keyed : cache.Keyed) {action : TemplateAction Template}
    (taken : templateStep cache action = some next) : next.Keyed := by
  obtain ⟨lasting, loads⟩ := keyed
  cases action with
  | getCachedTemplate projectId id =>
    obtain rfl := Option.some.inj taken
    have same := LRUCache.get_ttl cache.cache cache.clock (templateKey projectId id)
    cases answered : (cache.cache.get cache.clock (templateKey projectId id)).2 with
    | none =>
      rw [get_miss answered]
      refine ⟨same.trans lasting, fun load member => ?_⟩
      obtain old | new := List.mem_append.mp member
      · exact loads load old
      · obtain rfl := List.mem_singleton.mp new
        exact ⟨projectId, id, rfl⟩
    | some cached =>
      rw [get_hit answered]
      exact ⟨same.trans lasting, loads⟩
  | loaded position dbTemplate =>
    obtain ⟨load, present, same⟩ := Option.bind_eq_some_iff.mp taken
    obtain rfl := Option.some.inj same
    refine ⟨?_, fun other member => loads other (List.mem_of_mem_eraseIdx member)⟩
    cases dbTemplate with
    | none => exact lasting
    | some template => exact (LRUCache.set_ttl ..).trans lasting
  | failed position =>
    obtain ⟨_, _, rfl⟩ := Option.map_eq_some_iff.mp taken
    exact ⟨lasting, fun other member => loads other (List.mem_of_mem_eraseIdx member)⟩
  | invalidateKey key | invalidate projectId id | clear | tick ms =>
    obtain rfl := Option.some.inj taken
    exact ⟨lasting, loads⟩

/-- A late load puts the old template back, and whoever asks next is answered with it. -/
theorem late_answer (keyed : cache.Keyed) {action : TemplateAction Template}
    (late : ¬ Prompt cache action) (taken : templateStep cache action = some next) :
    ∃ projectId id later,
      templateStep next (.getCachedTemplate projectId id) = some later ∧ ¬ later.Current := by
  obtain ⟨position, template, rfl⟩ :
      ∃ position template, action = .loaded position (some template) := by
    unfold Prompt at late
    split at late
    next position template => exact ⟨position, template, rfl⟩
    next => exact absurd trivial late
  obtain ⟨⟨key, told⟩, present, stale⟩ :
      ∃ load ∈ cache.loads[position]?, ¬ cache.told load.key ≤ load.told := by
    simpa [Prompt] using late
  obtain ⟨found, present', same⟩ := Option.bind_eq_some_iff.mp taken
  obtain rfl : found = ⟨key, told⟩ := Option.some.inj (present'.symm.trans present)
  obtain rfl := Option.some.inj same
  obtain ⟨projectId, id, named⟩ := keyed.2 _ (List.mem_of_getElem? present)
  obtain rfl : key = templateKey projectId id := named
  have inTime : cache.clock ≤ cache.clock + cache.cache.defaultTtlMs := by
    rw [keyed.1]
    omega
  have hit : ((cache.cache.set cache.clock (templateKey projectId id) ⟨template, told⟩).get
      cache.clock (templateKey projectId id)).2 = some ⟨template, told⟩ :=
    LRUCache.get_set inTime
  refine ⟨projectId, id, _, rfl, fun current => ?_⟩
  rw [get_hit hit] at current
  exact stale (current _ List.mem_cons_self)

end TemplateCache

/-- Where every load that finds a template arrives before the next invalidation of its key, nobody
who asks after an invalidation is answered with what was loaded before it; a load that arrives later
is the answer of whoever asks next. -/
theorem current_iff :
    (∀ cache : TemplateCache Template, Reaches templateStep Prompt {} cache → cache.Current) ∧
    ∀ (cache : TemplateCache Template) action next, Reaches templateStep anyStep {} cache →
      templateStep cache action = some next → ¬ Prompt cache action →
      ∃ projectId id later,
        templateStep next (.getCachedTemplate projectId id) = some later ∧ ¬ later.Current := by
  constructor
  · intro cache run
    have kept : cache.Kept :=
      run.invariant .start fun _ _ _ kept prompt taken => kept.step prompt taken
    exact kept.current
  · intro cache action next run taken late
    have keyed : cache.Keyed :=
      run.invariant ⟨rfl, nofun⟩ fun _ _ _ keyed _ taken => TemplateCache.keyed_step keyed taken
    exact TemplateCache.late_answer keyed late taken

/-- The cache after some steps. -/
def templatesAfter (actions : List (TemplateAction Nat)) : TemplateCache Nat :=
  (perform templateStep {} actions).getD {}

/-- A load is under way when its template is invalidated, and arrives afterwards. -/
def lateLoad : List (TemplateAction Nat) :=
  [.getCachedTemplate "p" "t", .invalidateKey "p:t", .loaded 0 (some 1)]

/-- The next caller is answered with the template from before the invalidation. -/
theorem stale_template : ¬ ∀ cache : TemplateCache Nat,
    Reaches templateStep anyStep {} cache → cache.Current := by
  intro always
  have run : Reaches templateStep anyStep {}
      (templatesAfter (lateLoad ++ [.getCachedTemplate "p" "t"])) :=
    reaches_any_performed _ (by decide +kernel)
  exact absurd (always _ run ⟨1, 0⟩ (by decide +kernel)) (by decide)

/-- A template is loaded, invalidated, loaded again and answered from the cache. -/
def loadedAgain : List (TemplateAction Nat) :=
  [.getCachedTemplate "p" "t", .loaded 0 (some 1), .invalidateKey "p:t", .getCachedTemplate "p" "t",
    .loaded 0 (some 2), .getCachedTemplate "p" "t"]

/-- The answers after the invalidation are current; after a late load the next one is not. -/
theorem current_run :
    (templatesAfter loadedAgain).answers = [⟨1, 1⟩, ⟨1, 1⟩, ⟨0, 0⟩] ∧
      (templatesAfter loadedAgain).Current ∧
      ∃ projectId id later, templateStep (templatesAfter lateLoad)
        (.getCachedTemplate projectId id) = some later ∧ ¬ later.Current := by
  have prompt : Reaches templateStep Prompt {} (templatesAfter loadedAgain) :=
    reaches_performed _ (by decide +kernel) (by decide +kernel)
  have waits : Reaches templateStep anyStep {} (templatesAfter lateLoad.dropLast) :=
    reaches_any_performed _ (by decide +kernel)
  exact ⟨by decide +kernel, current_iff.1 _ prompt,
    current_iff.2 _ (.loaded 0 (some 1)) _ waits rfl (by decide +kernel)⟩

end Notifkit.Templates
