import Notifkit.Foundations.Runs
import Notifkit.Foundations.Tables

/-!
# Items that become jobs, and jobs that leave items

Items wait; one is taken and its jobs are begun, unless an item with its key was taken before. Jobs
go on step by step, and a step may leave another item. Items are taken and jobs go on in any order.

The order decides nothing: where a key determines its item, all orders that come to an end come to
the same jobs. What arises is described without any order, and every run ends with it.
-/

namespace Notifkit.Cascades

open Runs Tables

universe u
variable {ε τ κ : Type u}

/-- The key and the jobs of an item, the next step of a job, and the item a job leaves that has
just come to a state. -/
structure Rules (ε τ κ : Type u) where
  key : ε → κ
  jobs : ε → List τ
  advance : τ → Option τ
  leaves : τ → Option ε

/-- The items that wait, the keys of those that were taken, and all jobs begun. -/
structure Work (ε τ κ : Type u) where
  waiting : List ε
  seen : List κ := []
  jobs : List τ := []

inductive Move where
  | take (position : Nat)
  | advance (position : Nat)

variable [DecidableEq κ] {rules : Rules ε τ κ}

def step (rules : Rules ε τ κ) (work : Work ε τ κ) : Move → Option (Work ε τ κ)
  | .take position => do
    let item ← work.waiting[position]?
    let waiting := work.waiting.eraseIdx position
    if rules.key item ∈ work.seen then some { work with waiting := waiting }
    else some ⟨waiting, rules.key item :: work.seen, work.jobs ++ rules.jobs item⟩
  | .advance position => do
    let job ← work.jobs[position]?
    let next ← rules.advance job
    some { work with
      waiting := work.waiting ++ (rules.leaves next).toList
      jobs := work.jobs.set position next }

omit [DecidableEq κ] in
/-- A job after so many steps; absent where it ended before. -/
def Rules.after (rules : Rules ε τ κ) : Nat → τ → Option τ
  | 0, job => some job
  | steps + 1, job => (rules.after steps job).bind rules.advance

/-- The items that come up from the first ones, in whatever order. -/
inductive Arises (rules : Rules ε τ κ) (first : List ε) : ε → Prop where
  | first {item : ε} (given : item ∈ first) : Arises rules first item
  | left {item next : ε} {job later : τ} {steps : Nat} (arisen : Arises rules first item)
      (begun : job ∈ rules.jobs item) (came : rules.after (steps + 1) job = some later)
      (leaves : rules.leaves later = some next) : Arises rules first next

/-- Among the items that come up a key determines its item. -/
def Keyed (rules : Rules ε τ κ) (first : List ε) : Prop :=
  ∀ one two, Arises rules first one → Arises rules first two → rules.key one = rules.key two →
    one = two

/-- An item is waiting or one with its key was taken. -/
def Work.known (rules : Rules ε τ κ) (work : Work ε τ κ) (item : ε) : Prop :=
  item ∈ work.waiting ∨ rules.key item ∈ work.seen

/-- How far a job is, and that all it left on the way is known. -/
structure Progress (rules : Rules ε τ κ) (work : Work ε τ κ) (job current : τ) (steps : Nat) :
    Prop where
  came : rules.after steps job = some current
  left : ∀ before later item, before < steps → rules.after (before + 1) job = some later →
    rules.leaves later = some item → work.known rules item

/-- Where the work stands against what arises. -/
structure Explained (rules : Rules ε τ κ) (first : List ε) (work : Work ε τ κ) : Prop where
  waiting : ∀ item ∈ work.waiting, Arises rules first item
  given : ∀ item ∈ first, work.known rules item
  seen : ∀ key ∈ work.seen, ∃ item, Arises rules first item ∧ rules.key item = key ∧
    ∀ job ∈ rules.jobs item, ∃ current ∈ work.jobs, ∃ steps, Progress rules work job current steps
  jobs : ∀ current ∈ work.jobs, ∃ item, Arises rules first item ∧ rules.key item ∈ work.seen ∧
    ∃ job ∈ rules.jobs item, ∃ steps, rules.after steps job = some current

/-- Nothing waits and every job has ended. -/
structure Complete (rules : Rules ε τ κ) (work : Work ε τ κ) : Prop where
  waiting : work.waiting = []
  ended : ∀ job ∈ work.jobs, rules.advance job = none

section Jobs

variable {job current later : τ} {steps more : Nat}

omit [DecidableEq κ] in
/-- A job that came so far came every part of the way. -/
theorem after_of_le (order : more ≤ steps) (came : rules.after steps job = some current) :
    ∃ earlier, rules.after more job = some earlier := by
  induction order generalizing current with
  | refl => exact ⟨current, came⟩
  | step _ inductionHypothesis =>
    obtain ⟨before, cameBefore, _⟩ := Option.bind_eq_some_iff.mp came
    exact inductionHypothesis cameBefore

omit [DecidableEq κ] in
/-- A job that has ended comes no further. -/
theorem steps_le_of_ended (came : rules.after steps job = some current)
    (ended : rules.advance current = none) (further : rules.after more job = some later) :
    more ≤ steps := by
  refine Nat.le_of_not_lt fun beyond => ?_
  obtain ⟨past, camePast⟩ := after_of_le (Nat.succ_le_of_lt beyond) further
  rw [Rules.after, came, Option.bind_some, ended] at camePast
  cases camePast

omit [DecidableEq κ] in
/-- A job ends in one state. -/
theorem ended_unique (came : rules.after steps job = some current)
    (ended : rules.advance current = none) (further : rules.after more job = some later)
    (endedLater : rules.advance later = none) : current = later := by
  have same : steps = more := Nat.le_antisymm (steps_le_of_ended further endedLater came)
    (steps_le_of_ended came ended further)
  rw [same] at came
  exact Option.some.inj (came.symm.trans further)

end Jobs

section Steps

variable {first : List ε} {work next : Work ε τ κ}

/-- Taking an item leaves it known, with all that was. -/
theorem known_take {position : Nat} {item other : ε} (found : work.waiting[position]? = some item)
    (taken : step rules work (.take position) = some next) (known : work.known rules other) :
    next.known rules other := by
  simp only [step, found, Option.bind_eq_bind, Option.bind_some] at taken
  have kept : other = item ∨ other ∈ work.waiting.eraseIdx position ∨
      rules.key other ∈ work.seen := by
    rcases known with waits | seen
    · obtain ⟨place, placed⟩ := List.mem_iff_getElem?.mp waits
      by_cases same : place = position
      · rw [same, found] at placed
        exact .inl (Option.some.inj placed).symm
      · exact .inr (.inl (List.mem_eraseIdx_iff_getElem?.mpr ⟨place, same, placed⟩))
    · exact .inr (.inr seen)
  split at taken
  next seen =>
    rw [← Option.some.inj taken]
    rcases kept with rfl | waits | seen'
    · exact .inr seen
    · exact .inl waits
    · exact .inr seen'
  next =>
    rw [← Option.some.inj taken]
    rcases kept with rfl | waits | seen'
    · exact .inr List.mem_cons_self
    · exact .inl waits
    · exact .inr (List.mem_cons_of_mem _ seen')

/-- A step of a job leaves all known that was. -/
theorem known_advance {position : Nat} {other : ε}
    (taken : step rules work (.advance position) = some next) (known : work.known rules other) :
    next.known rules other := by
  obtain ⟨job, _, went⟩ := Option.bind_eq_some_iff.mp taken
  obtain ⟨later, _, same⟩ := Option.bind_eq_some_iff.mp went
  rw [← Option.some.inj same]
  exact known.imp (List.mem_append_left _) id

theorem known_step {move : Move} {other : ε} (taken : step rules work move = some next)
    (known : work.known rules other) : next.known rules other := by
  cases move with
  | take position =>
    obtain ⟨item, found, _⟩ := Option.bind_eq_some_iff.mp taken
    exact known_take found taken known
  | advance position => exact known_advance taken known

/-- What a job left stays known. -/
theorem Progress.step {move : Move} {job current : τ} {steps : Nat}
    (progress : Progress rules work job current steps)
    (taken : Cascades.step rules work move = some next) :
    Progress rules next job current steps where
  came := progress.came
  left before later item order came leaves :=
    known_step taken (progress.left before later item order came leaves)

/-- Taking an item begins its jobs, or finds them begun. -/
theorem Explained.take {position : Nat} (explained : Explained rules first work)
    (taken : step rules work (.take position) = some next) : Explained rules first next := by
  obtain ⟨item, found, went⟩ := Option.bind_eq_some_iff.mp taken
  have arisen : Arises rules first item := explained.waiting item (List.mem_of_getElem? found)
  have known : ∀ other ∈ first, next.known rules other := fun other given =>
    known_step taken (explained.given other given)
  have stillArisen : ∀ other ∈ work.waiting.eraseIdx position, Arises rules first other :=
    fun other waits => explained.waiting other (List.mem_of_mem_eraseIdx waits)
  dsimp only at went
  split at went
  next seen =>
    have same := Option.some.inj went
    subst same
    refine ⟨stillArisen, known, fun key member => ?_, explained.jobs⟩
    obtain ⟨other, arisen, keyed, begun⟩ := explained.seen key member
    refine ⟨other, arisen, keyed, fun job member => ?_⟩
    obtain ⟨current, present, steps, progress⟩ := begun job member
    exact ⟨current, present, steps, progress.step taken⟩
  next unseen =>
    have same := Option.some.inj went
    subst same
    refine ⟨stillArisen, known, fun key member => ?_, fun current member => ?_⟩
    · rcases List.mem_cons.mp member with rfl | before
      · refine ⟨item, arisen, rfl, fun job begun => ⟨job, List.mem_append_right _ begun, 0, rfl, ?_⟩⟩
        exact fun before _ _ order => absurd order (Nat.not_lt_zero before)
      · obtain ⟨other, arisen, keyed, begun⟩ := explained.seen key before
        refine ⟨other, arisen, keyed, fun job member => ?_⟩
        obtain ⟨current, present, steps, progress⟩ := begun job member
        exact ⟨current, List.mem_append_left _ present, steps, progress.step taken⟩
    · rcases List.mem_append.mp member with before | begun
      · obtain ⟨other, arisen, seen, job⟩ := explained.jobs current before
        exact ⟨other, arisen, List.mem_cons_of_mem _ seen, job⟩
      · exact ⟨item, arisen, List.mem_cons_self, current, begun, 0, rfl⟩

/-- A step of a job brings it further, and what it leaves waits. -/
theorem Explained.advance {position : Nat} (explained : Explained rules first work)
    (taken : step rules work (.advance position) = some next) : Explained rules first next := by
  obtain ⟨job, found, went⟩ := Option.bind_eq_some_iff.mp taken
  obtain ⟨later, moved, same⟩ := Option.bind_eq_some_iff.mp went
  have same := Option.some.inj same
  subst same
  have further : ∀ {origin : τ} {steps : Nat}, rules.after steps origin = some job →
      rules.after (steps + 1) origin = some later := by
    intro origin steps came
    rw [Rules.after, came, Option.bind_some, moved]
  refine ⟨fun item member => ?_, fun item given => known_step taken (explained.given item given),
    fun key member => ?_, fun current member => ?_⟩
  · rcases List.mem_append.mp member with before | left
    · exact explained.waiting item before
    · obtain ⟨origin, arisen, _, begun, isBegun, steps, came⟩ :=
        explained.jobs job (List.mem_of_getElem? found)
      exact arisen.left isBegun (further came) (Option.mem_toList.mp left)
  · obtain ⟨item, arisen, keyed, begun⟩ := explained.seen key member
    refine ⟨item, arisen, keyed, fun origin isBegun => ?_⟩
    refine some_set found ?_ ((begun origin isBegun).imp fun current ⟨present, steps, progress⟩ =>
      ⟨present, steps, progress.step taken⟩)
    rintro ⟨steps, progress⟩
    refine ⟨steps + 1, further progress.came, fun before reached item order came leaves => ?_⟩
    rcases Nat.lt_succ_iff_lt_or_eq.mp order with earlier | rfl
    · exact progress.left before reached item earlier came leaves
    · have now : later = reached := Option.some.inj ((further progress.came).symm.trans came)
      exact .inl (List.mem_append_right _ (Option.mem_toList.mpr (now ▸ leaves)))
  · rcases List.mem_or_eq_of_mem_set member with before | rfl
    · exact explained.jobs current before
    · obtain ⟨origin, arisen, seen, begun, isBegun, steps, came⟩ :=
        explained.jobs job (List.mem_of_getElem? found)
      exact ⟨origin, arisen, seen, begun, isBegun, steps + 1, further came⟩

theorem Explained.step {move : Move} (explained : Explained rules first work)
    (taken : Cascades.step rules work move = some next) : Explained rules first next := by
  cases move with
  | take position => exact explained.take taken
  | advance position => exact explained.advance taken

/-- Every state of every run is explained. -/
theorem explained_of_reaches
    (run : Reaches (step rules) anyStep { waiting := first } work) : Explained rules first work :=
  run.invariant
    { waiting := fun _ given => .first given
      given := fun _ given => .inl given
      seen := fun _ member => nomatch member
      jobs := fun _ member => nomatch member }
    fun _ _ _ explained _ taken => explained.step taken

end Steps

section Ends

variable {first : List ε} {work : Work ε τ κ}

omit [DecidableEq κ] in
/-- Where a key determines its item, the jobs of every item taken are there. -/
theorem Explained.begun (explained : Explained rules first work) (keyed : Keyed rules first)
    {item : ε} {job : τ} (arisen : Arises rules first item) (seen : rules.key item ∈ work.seen)
    (begun : job ∈ rules.jobs item) :
    ∃ current ∈ work.jobs, ∃ steps, Progress rules work job current steps := by
  obtain ⟨other, arisen', same, jobs⟩ := explained.seen _ seen
  rw [keyed other item arisen' arisen same] at jobs
  exact jobs job begun

omit [DecidableEq κ] in
/-- At the end every item that arises was taken. -/
theorem seen_of_arises (explained : Explained rules first work) (keyed : Keyed rules first)
    (complete : Complete rules work) {item : ε} (arisen : Arises rules first item) :
    rules.key item ∈ work.seen := by
  have taken : ∀ {item : ε}, work.known rules item → rules.key item ∈ work.seen := by
    intro item known
    refine known.resolve_left fun waits => ?_
    rw [complete.waiting] at waits
    exact List.not_mem_nil waits
  induction arisen with
  | first given => exact taken (explained.given _ given)
  | left arisen begun came leaves inductionHypothesis =>
    obtain ⟨current, present, steps, progress⟩ :=
      explained.begun keyed arisen inductionHypothesis begun
    have within := steps_le_of_ended progress.came (complete.ended current present) came
    exact taken (progress.left _ _ _ (Nat.lt_of_succ_le within) came leaves)

omit [DecidableEq κ] in
/-- Every run that comes to an end comes to the jobs of what arises, each of them ended. -/
theorem mem_jobs_iff (explained : Explained rules first work) (keyed : Keyed rules first)
    (complete : Complete rules work) {current : τ} :
    current ∈ work.jobs ↔ ∃ item, Arises rules first item ∧ ∃ job ∈ rules.jobs item, ∃ steps,
      rules.after steps job = some current ∧ rules.advance current = none := by
  constructor
  · intro member
    obtain ⟨item, arisen, _, job, begun, steps, came⟩ := explained.jobs current member
    exact ⟨item, arisen, job, begun, steps, came, complete.ended current member⟩
  · rintro ⟨item, arisen, job, begun, steps, came, ended⟩
    obtain ⟨reached, present, _, progress⟩ :=
      explained.begun keyed arisen (seen_of_arises explained keyed complete arisen) begun
    rw [ended_unique came ended progress.came (complete.ended reached present)]
    exact present

end Ends

end Notifkit.Cascades
