import Notifkit.Foundations.Runs
import Notifkit.Foundations.Tables
import Notifkit.Idempotency

/-!
# Who a marker belongs to

Any number of workers take one key, complete it and give it back, each by commands of its own; a
marker may expire between any two. The guard does not say whose a marker is: a worker that completes
or gives back replaces or deletes whatever is there.

As long as that happens in time, or while the key is free, a marker stays to its last instant unless
its own worker changes it.
-/

namespace Notifkit.IdempotencyOwners

open Runs Tables IdempotencyGuard

/-- Where a worker is with the key. -/
inductive Phase where
  /-- `acquireLease`: the key was there, and is to be read -/
  | asked
  /-- `acquireLease`: the key had gone by then, and is to be set -/
  | askedAgain
  | holding
  | returned
deriving DecidableEq

structure Worker where
  phase : Phase
  /-- the last instant of the marker it set, unless it took it back -/
  lasts : Option Nat := none
deriving DecidableEq

structure World where
  now : Nat := 0
  marks : Marks := .empty
  workers : List Worker := []

/-- What happens to the key. A command that fails may still have taken effect; a worker is told so
and goes its failure path. -/
inductive Action where
  | tick (ms : Nat)
  /-- the first command of `acquireLease` -/
  | lease (lockTtlSeconds : Nat)
  /-- the next one, `GET` -/
  | look (index : Nat)
  /-- the last one -/
  | leaseAgain (index lockTtlSeconds : Nat)
  | checkAndMark (ttlSeconds : Nat)
  | markProcessed (index ttlSeconds : Nat) (failed : Bool)
  | unmark (index : Nat)
  /-- gone without giving back -/
  | leave (index : Nat)
deriving DecidableEq

/-- `SET` with `NX`, by a new worker or by one that waited. -/
def take (marks : Marks) (now : Nat) (id : Text) (mark : Mark) (ttlSeconds : Nat)
    (refused : Phase) : Worker × Marks :=
  match marks.setNX now id mark (expiry now ttlSeconds) with
  | some marks => (⟨.holding, some (expiry now ttlSeconds)⟩, marks)
  | none => (⟨refused, none⟩, marks)

def step (id : Text) (world : World) : Action → Option World
  | .tick ms => some { world with now := world.now + ms }
  | .lease lockTtlSeconds =>
    let (worker, marks) := take world.marks world.now id .lease lockTtlSeconds .asked
    some { world with marks := marks, workers := world.workers ++ [worker] }
  | .look index => do
    let worker ← world.workers[index]?
    if worker.phase = .asked then
      let phase := match world.marks.get world.now id with
        | some _ => .returned
        | none => .askedAgain
      some { world with workers := world.workers.set index ⟨phase, none⟩ }
    else none
  | .leaseAgain index lockTtlSeconds => do
    let worker ← world.workers[index]?
    if worker.phase = .askedAgain then
      let (worker, marks) := take world.marks world.now id .lease lockTtlSeconds .returned
      some { world with marks := marks, workers := world.workers.set index worker }
    else none
  | .checkAndMark ttlSeconds =>
    let (worker, marks) := take world.marks world.now id .processed ttlSeconds .returned
    some { world with marks := marks, workers := world.workers ++ [worker] }
  | .markProcessed index ttlSeconds failed => do
    let worker ← world.workers[index]?
    if worker.phase = .holding then
      some { world with
        marks := markProcessed world.marks world.now id ttlSeconds
        workers := world.workers.set index
          ⟨if failed then .holding else .returned, some (expiry world.now ttlSeconds)⟩ }
    else none
  | .unmark index => do
    let worker ← world.workers[index]?
    if worker.phase = .holding then
      some { world with
        marks := unmark world.marks id
        workers := world.workers.set index ⟨.returned, none⟩ }
    else none
  | .leave index => do
    let worker ← world.workers[index]?
    if worker.phase = .holding then
      some { world with workers := world.workers.set index { worker with phase := .returned } }
    else none

/-- The marker of a worker is still in time. -/
def Worker.inTime (worker : Worker) (now : Nat) : Prop := ∃ last ∈ worker.lasts, now ≤ last

instance (worker : Worker) (now : Nat) : Decidable (worker.inTime now) :=
  inferInstanceAs (Decidable (∃ _ ∈ _, _))

/-- A worker that completes or gives back does so before its own marker has expired, or while the
key is free. -/
def Timely (id : Text) (world : World) : Action → Prop
  | .markProcessed index _ _ | .unmark index =>
    ∀ worker ∈ world.workers[index]?, worker.inTime world.now ∨ world.marks.get world.now id = none
  | _ => True

instance (id : Text) (world : World) (action : Action) : Decidable (Timely id world action) :=
  match action with
  | .markProcessed _ _ _ | .unmark _ => inferInstanceAs (Decidable (∀ _ ∈ _, _))
  | .tick _ | .lease _ | .look _ | .leaseAgain _ _ | .checkAndMark _ | .leave _ => .isTrue trivial

/-- Every marker is there to its last instant, unless its own worker took it back. -/
def Kept (id : Text) (world : World) : Prop :=
  ∀ worker ∈ world.workers, ∀ last ∈ worker.lasts, world.now ≤ last →
    ∃ mark, world.marks.cell id = some (mark, last)

/-- At most one marker is in time: the one that is there. -/
structure Owned (id : Text) (world : World) : Prop where
  kept : Kept id world
  single : ∀ (one two : Nat) (worker other : Worker), world.workers[one]? = some worker →
    world.workers[two]? = some other → worker.inTime world.now → other.inTime world.now → one = two
  whose : ∀ mark last, world.marks.cell id = some (mark, last) → world.now ≤ last →
    ∃ worker ∈ world.workers, worker.lasts = some last
  asking : ∀ worker ∈ world.workers, worker.phase = .asked ∨ worker.phase = .askedAgain →
    worker.lasts = none

section Steps

variable {id : Text} {world next : World} {index : Nat} {worker changed : Worker} {marks : Marks}

/-- Where the key is free, no marker is in time. -/
theorem Owned.free (owned : Owned id world) (free : world.marks.get world.now id = none)
    (present : worker ∈ world.workers) : ¬ worker.inTime world.now := by
  rintro ⟨last, marker, inTime⟩
  obtain ⟨mark, there⟩ := owned.kept worker present last marker inTime
  exact absurd (ExpiringStore.get_eq_none.mp free mark last there) (Nat.not_lt.mpr inTime)

/-- A worker goes on with the marker it had. -/
theorem Owned.silent (owned : Owned id world) (found : world.workers[index]? = some worker)
    (lasts : changed.lasts = worker.lasts)
    (asking : changed.phase = .asked ∨ changed.phase = .askedAgain → changed.lasts = none) :
    Owned id { world with workers := world.workers.set index changed } where
  kept := by
    refine all_set owned.kept fun last marker inTime => ?_
    exact owned.kept worker (List.mem_of_getElem? found) last (lasts ▸ marker) inTime
  single one two row other foundOne foundTwo inTimeOne inTimeTwo := by
    have before : ∀ {place : Nat} {row : Worker}, (world.workers.set index changed)[place]? = some row →
        row.inTime world.now → ∃ earlier, world.workers[place]? = some earlier ∧
          earlier.inTime world.now := by
      intro place row foundRow inTime
      rcases (row_set found).mp foundRow with ⟨rfl, rfl⟩ | ⟨_, same⟩
      · exact ⟨worker, found, by simpa only [Worker.inTime, lasts] using inTime⟩
      · exact ⟨row, same, inTime⟩
    obtain ⟨earlier, there, inTime⟩ := before foundOne inTimeOne
    obtain ⟨earlier', there', inTime'⟩ := before foundTwo inTimeTwo
    exact owned.single one two earlier earlier' there there' inTime inTime'
  whose mark last there inTime :=
    some_set found (fun same => lasts.trans same) (owned.whose mark last there inTime)
  asking := all_set owned.asking asking

/-- A worker that comes without a marker. -/
theorem Owned.join (owned : Owned id world) (none : changed.lasts = none) :
    Owned id { world with workers := world.workers ++ [changed] } where
  kept := all_append owned.kept fun last marker => by
    rw [none] at marker
    cases marker
  single one two row other foundOne foundTwo inTimeOne inTimeTwo := by
    have before : ∀ {place : Nat} {row : Worker}, (world.workers ++ [changed])[place]? = some row →
        row.inTime world.now → world.workers[place]? = some row := by
      intro place row foundRow inTime
      rcases row_append.mp foundRow with same | ⟨_, rfl⟩
      · exact same
      · obtain ⟨last, marker, _⟩ := inTime
        rw [none] at marker
        cases marker
    exact owned.single one two row other (before foundOne inTimeOne) (before foundTwo inTimeTwo)
      inTimeOne inTimeTwo
  whose mark last there inTime := some_append (owned.whose mark last there inTime)
  asking := all_append owned.asking fun _ => none

/-- A worker writes its marker while no other one is in time. -/
theorem Owned.write (owned : Owned id world) (mark : Mark) (found : world.workers[index]? = some worker)
    (alone : ∀ place other, world.workers[place]? = some other → other.inTime world.now →
      place = index)
    {last : Nat} {phase : Phase} (waits : phase ≠ .asked ∧ phase ≠ .askedAgain)
    (there : marks.cell id = some (mark, last)) :
    Owned id { world with
      marks := marks, workers := world.workers.set index ⟨phase, some last⟩ } where
  kept row member until' marker inTime := by
    obtain ⟨place, foundRow⟩ := List.mem_iff_getElem?.mp member
    rcases (row_set found).mp foundRow with ⟨rfl, rfl⟩ | ⟨differ, same⟩
    · obtain rfl := Option.some.inj marker
      exact ⟨mark, there⟩
    · exact absurd (alone place row same ⟨until', marker, inTime⟩) differ
  single one two row other foundOne foundTwo inTimeOne inTimeTwo := by
    have own : ∀ {place : Nat} {row : Worker},
        (world.workers.set index ⟨phase, some last⟩)[place]? = some row →
        row.inTime world.now → place = index := by
      intro place row foundRow inTime
      rcases (row_set found).mp foundRow with ⟨rfl, _⟩ | ⟨_, same⟩
      · rfl
      · exact alone place row same inTime
    exact (own foundOne inTimeOne).trans (own foundTwo inTimeTwo).symm
  whose mark' last' there' _ := by
    obtain ⟨_, rfl⟩ := Prod.mk.inj (Option.some.inj (there.symm.trans there'))
    exact ⟨_, List.mem_of_getElem? ((row_set found).mpr (.inl ⟨rfl, rfl⟩)), rfl⟩
  asking := all_set owned.asking fun asked => (asked.elim waits.1 waits.2).elim

/-- A worker that comes writes its marker where the key is free. -/
theorem Owned.arrive (owned : Owned id world) (free : world.marks.get world.now id = none)
    {mark : Mark} {last : Nat} (there : marks.cell id = some (mark, last)) :
    Owned id { world with marks := marks, workers := world.workers ++ [⟨.holding, some last⟩] } where
  kept row member until' marker inTime := by
    rcases List.mem_append.mp member with before | new
    · exact absurd ⟨until', marker, inTime⟩ (owned.free free before)
    · obtain rfl := List.mem_singleton.mp new
      obtain rfl := Option.some.inj marker
      exact ⟨mark, there⟩
  single one two row other foundOne foundTwo inTimeOne inTimeTwo := by
    have own : ∀ {place : Nat} {row : Worker},
        (world.workers ++ [⟨.holding, some last⟩])[place]? = some row →
        row.inTime world.now → place = world.workers.length := by
      intro place row foundRow inTime
      rcases row_append.mp foundRow with same | ⟨last, _⟩
      · exact absurd inTime (owned.free free (List.mem_of_getElem? same))
      · exact last
    exact (own foundOne inTimeOne).trans (own foundTwo inTimeTwo).symm
  whose mark' last' there' _ := by
    obtain ⟨_, rfl⟩ := Prod.mk.inj (Option.some.inj (there.symm.trans there'))
    exact ⟨_, List.mem_append_right _ (List.mem_singleton.mpr rfl), rfl⟩
  asking := all_append owned.asking fun asked => asked.elim nofun nofun

/-- A worker takes its marker back while no other one is in time. -/
theorem Owned.clear (owned : Owned id world) (found : world.workers[index]? = some worker)
    (alone : ∀ place other, world.workers[place]? = some other → other.inTime world.now →
      place = index) :
    Owned id { world with
      marks := unmark world.marks id, workers := world.workers.set index ⟨.returned, none⟩ } where
  kept row member last marker inTime := by
    obtain ⟨place, foundRow⟩ := List.mem_iff_getElem?.mp member
    rcases (row_set found).mp foundRow with ⟨rfl, rfl⟩ | ⟨differ, same⟩
    · cases marker
    · exact absurd (alone place row same ⟨last, marker, inTime⟩) differ
  single one two row other foundOne foundTwo inTimeOne inTimeTwo := by
    have own : ∀ {place : Nat} {row : Worker},
        (world.workers.set index ⟨.returned, none⟩)[place]? = some row →
        row.inTime world.now → place = index := by
      intro place row foundRow inTime
      rcases (row_set found).mp foundRow with ⟨rfl, _⟩ | ⟨_, same⟩
      · rfl
      · exact alone place row same inTime
    exact (own foundOne inTimeOne).trans (own foundTwo inTimeTwo).symm
  whose mark last there _ := by simp [unmark] at there
  asking := all_set owned.asking fun _ => rfl

/-- A timely worker is the only one whose marker may be in time. -/
theorem Owned.alone (owned : Owned id world) (found : world.workers[index]? = some worker)
    (timely : worker.inTime world.now ∨ world.marks.get world.now id = none) :
    ∀ place other, world.workers[place]? = some other → other.inTime world.now → place = index := by
  intro place other foundOther inTime
  rcases timely with own | free
  · exact owned.single place index other worker foundOther found inTime own
  · exact absurd inTime (owned.free free (List.mem_of_getElem? foundOther))

/-- What a take comes to: the key was free and is marked now, or nothing changed. -/
theorem take_spec (id : Text) (marks : Marks) (now : Nat) (mark : Mark) (ttlSeconds : Nat) (refused : Phase) :
    (marks.get now id = none ∧ take marks now id mark ttlSeconds refused =
      (⟨.holding, some (expiry now ttlSeconds)⟩, marks.set id mark (expiry now ttlSeconds))) ∨
    take marks now id mark ttlSeconds refused = (⟨refused, none⟩, marks) := by
  unfold take
  cases read : marks.setNX now id mark (expiry now ttlSeconds) with
  | none => exact .inr rfl
  | some after =>
    obtain ⟨free, rfl⟩ := ExpiringStore.setNX_eq_some.mp read
    exact .inl ⟨free, rfl⟩

/-- A worker that comes takes the key, or has no marker. -/
theorem Owned.come {mark : Mark} {ttlSeconds : Nat} {refused : Phase} (owned : Owned id world) :
    Owned id { world with
      marks := (take world.marks world.now id mark ttlSeconds refused).2
      workers := world.workers ++ [(take world.marks world.now id mark ttlSeconds refused).1] } := by
  rcases take_spec id world.marks world.now mark ttlSeconds refused with ⟨free, took⟩ | took
  · rw [took]
    exact owned.arrive free (if_pos rfl)
  · rw [took]
    exact owned.join rfl

/-- Timely steps leave every marker to its own worker. -/
theorem Owned.step {action : Action} (owned : Owned id world) (timely : Timely id world action)
    (taken : step id world action = some next) : Owned id next := by
  cases action with
  | tick ms =>
    have same := Option.some.inj taken
    subst same
    have earlier : ∀ {worker : Worker}, worker.inTime (world.now + ms) → worker.inTime world.now :=
      fun ⟨last, marker, inTime⟩ => ⟨last, marker, Nat.le_trans (Nat.le_add_right _ _) inTime⟩
    exact {
      kept := fun worker member last marker inTime =>
        owned.kept worker member last marker (Nat.le_trans (Nat.le_add_right _ _) inTime)
      single := fun one two worker other foundOne foundTwo inTimeOne inTimeTwo =>
        owned.single one two worker other foundOne foundTwo (earlier inTimeOne) (earlier inTimeTwo)
      whose := fun mark last there inTime =>
        owned.whose mark last there (Nat.le_trans (Nat.le_add_right _ _) inTime)
      asking := owned.asking }
  | lease lockTtlSeconds => exact Option.some.inj taken ▸ owned.come
  | checkAndMark ttlSeconds => exact Option.some.inj taken ▸ owned.come
  | look index =>
    obtain ⟨worker, found, taken⟩ := Option.bind_eq_some_iff.mp taken
    rw [Option.ite_none_right_eq_some] at taken
    obtain ⟨asked, same⟩ := taken
    have none := owned.asking worker (List.mem_of_getElem? found) (.inl asked)
    rw [← Option.some.inj same]
    exact owned.silent found none.symm fun _ => rfl
  | leaseAgain index lockTtlSeconds =>
    obtain ⟨worker, found, taken⟩ := Option.bind_eq_some_iff.mp taken
    rw [Option.ite_none_right_eq_some] at taken
    obtain ⟨asked, same⟩ := taken
    have none := owned.asking worker (List.mem_of_getElem? found) (.inr asked)
    rcases take_spec id world.marks world.now .lease lockTtlSeconds .returned with
      ⟨free, took⟩ | took
    · rw [took] at same
      rw [← Option.some.inj same]
      refine owned.write .lease found (owned.alone found (.inr free)) ⟨nofun, nofun⟩ ?_
      exact if_pos rfl
    · rw [took] at same
      rw [← Option.some.inj same]
      exact owned.silent found none.symm fun _ => rfl
  | markProcessed index ttlSeconds failed =>
    obtain ⟨worker, found, taken⟩ := Option.bind_eq_some_iff.mp taken
    rw [Option.ite_none_right_eq_some] at taken
    rw [← Option.some.inj taken.2]
    refine owned.write .processed found (owned.alone found (timely worker found)) ?_ ?_
    · cases failed <;> exact ⟨nofun, nofun⟩
    · simp [markProcessed]
  | unmark index =>
    obtain ⟨worker, found, taken⟩ := Option.bind_eq_some_iff.mp taken
    rw [Option.ite_none_right_eq_some] at taken
    rw [← Option.some.inj taken.2]
    exact owned.clear found (owned.alone found (timely worker found))
  | leave index =>
    obtain ⟨worker, found, taken⟩ := Option.bind_eq_some_iff.mp taken
    rw [Option.ite_none_right_eq_some] at taken
    rw [← Option.some.inj taken.2]
    exact owned.silent found rfl fun asked => asked.elim nofun nofun

end Steps

/-- The step takes the marker away that is there, or has it end sooner. -/
def CutsShort (id : Text) (world : World) : Action → Prop
  | .unmark _ => True
  | .markProcessed _ ttlSeconds _ =>
    ∀ mark last, world.marks.cell id = some (mark, last) → expiry world.now ttlSeconds < last
  | _ => False

/-- A worker that acts late while the key is taken has another one's marker before it. -/
theorem Owned.foreign {id : Text} {world : World} {index : Nat} (owned : Owned id world)
    (late : ¬ ∀ worker ∈ world.workers[index]?,
      worker.inTime world.now ∨ world.marks.get world.now id = none) :
    ∃ mark last, world.marks.cell id = some (mark, last) ∧ world.now ≤ last ∧
      ∃ place other, place ≠ index ∧ world.workers[place]? = some other ∧
        other.lasts = some last := by
  simp only [not_forall, not_or] at late
  obtain ⟨worker, found, expired, taken⟩ := late
  obtain ⟨mark, read⟩ := Option.ne_none_iff_exists'.mp taken
  obtain ⟨last, there, inTime⟩ := ExpiringStore.get_eq_some.mp read
  obtain ⟨other, present, marker⟩ := owned.whose mark last there inTime
  obtain ⟨place, foundOther⟩ := List.mem_iff_getElem?.mp present
  refine ⟨mark, last, there, inTime, place, other, fun same => expired ?_, foundOther, marker⟩
  rw [same] at foundOther
  rw [Option.some.inj (found.symm.trans foundOther)]
  exact ⟨last, marker, inTime⟩

/-- In every run in which workers complete and give back in time, or while the key is free, every
marker stays to its last instant unless its own worker takes it back; and the first time a worker
gives back late while the key is taken, or completes for less time, another worker's marker is lost. -/
theorem markers_kept (id : Text) (now : Nat) :
    (∀ world, Reaches (step id) (Timely id) { now := now } world → Kept id world) ∧
    ∀ world action next, Reaches (step id) (Timely id) { now := now } world →
      step id world action = some next → ¬ Timely id world action → CutsShort id world action →
      ¬ Kept id next := by
  have start : Owned id { now := now } :=
    ⟨nofun, nofun, nofun, nofun⟩
  have owned : ∀ world, Reaches (step id) (Timely id) { now := now } world → Owned id world :=
    fun world run => run.invariant start fun _ _ _ before timely taken => before.step timely taken
  refine ⟨fun world run => (owned world run).kept, fun world action next run taken late cuts => ?_⟩
  intro kept
  cases action with
  | unmark index =>
    obtain ⟨mark, last, there, inTime, place, other, differ, foundOther, marker⟩ :=
      (owned world run).foreign late
    obtain ⟨worker, found, taken⟩ := Option.bind_eq_some_iff.mp taken
    rw [Option.ite_none_right_eq_some] at taken
    rw [← Option.some.inj taken.2] at kept
    obtain ⟨_, gone⟩ := kept other
      (List.mem_of_getElem? ((row_set found).mpr (.inr ⟨differ, foundOther⟩))) last marker inTime
    simp [unmark] at gone
  | markProcessed index ttlSeconds failed =>
    obtain ⟨mark, last, there, inTime, place, other, differ, foundOther, marker⟩ :=
      (owned world run).foreign late
    obtain ⟨worker, found, taken⟩ := Option.bind_eq_some_iff.mp taken
    rw [Option.ite_none_right_eq_some] at taken
    rw [← Option.some.inj taken.2] at kept
    obtain ⟨_, changed⟩ := kept other
      (List.mem_of_getElem? ((row_set found).mpr (.inr ⟨differ, foundOther⟩))) last marker inTime
    have sooner := cuts mark last there
    simp only [markProcessed, ExpiringStore.set_cell, if_true, Option.some.injEq,
      Prod.mk.injEq] at changed
    omega
  | tick _ | lease _ | look _ | leaseAgain _ _ | checkAndMark _ | leave _ => exact cuts

/-- A worker takes a lease for 60 s and works for longer; another one takes the key; then the first
one fails and gives back. -/
def slowFailure : List Action :=
  [.lease 60, .tick 60001, .lease 60, .unmark 0]

/-- The slow worker's failure path frees the key that the other one holds. -/
theorem slow_failure_reopens : ¬ ∀ (id : Text) (now : Nat) (world : World),
    Reaches (step id) anyStep { now := now } world → Kept id world := by
  intro claimed
  have kept := claimed [] 0 ((perform (step []) {} slowFailure).getD {})
    (reaches_any_performed _ (by decide +kernel))
  obtain ⟨_, gone⟩ := kept ⟨.holding, some 120001⟩ (by decide +kernel) 120001 rfl (by decide +kernel)
  revert gone
  exact fun gone => nomatch gone

end Notifkit.IdempotencyOwners
