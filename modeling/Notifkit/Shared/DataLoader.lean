import Notifkit.Foundations.Promises
import Notifkit.Foundations.Runs
import Notifkit.Foundations.Tables

/-!
# The data loader

Keys are asked for one at a time and looked up together: once `maxBatchSize` of them wait, or when the
turn or the timer comes that the first of them ordered. A turn that was ordered comes also when its
keys have left before it, and takes then what has gathered since.

A lookup is answered with what `batchLoadFn` returned at its own place in its batch. The answers, and
the order of all turns, are free.
-/

namespace Notifkit.Shared.DataLoader

open Runs Promises Tables

universe u v w

/-- How long keys gather, and how many at most; without a bound there is none. -/
structure Options where
  batchDelayMs : Nat := 0
  maxBatchSize : Option Nat := none

/-- So many keys are enough for a batch. -/
def Options.enough (options : Options) (waiting : Nat) : Prop :=
  ∃ size ∈ options.maxBatchSize, size ≤ waiting

instance (options : Options) (waiting : Nat) : Decidable (options.enough waiting) :=
  match bound : options.maxBatchSize with
  | none => .isFalse fun ⟨_, present, _⟩ => by
      rw [bound] at present
      cases present
  | some size => decidable_of_iff (size ≤ waiting) ⟨fun reached => ⟨size, bound, reached⟩,
      fun ⟨_, present, reached⟩ => Option.some.inj (bound.symm.trans present) ▸ reached⟩

/-- A key that is asked for, and the number of its promise. -/
structure Lookup (K : Type u) where
  key : K
  promise : Nat

/-- What a promise is settled with. A value is missing where `batchLoadFn` returned too few. -/
inductive Settlement (V : Type v) (E : Type w) where
  | resolved (value : Option V)
  | rejected (error : E)

/-- What `batchLoadFn` comes to: a value or an error for each key, or an error. -/
abbrev Reply (V : Type v) (E : Type w) := Except E (List (Except E V))

/-- The loader, and what passed through it: the keys that were asked for, the batches `batchLoadFn`
was called with, its answers by call, and the promises settled. -/
structure State (K : Type u) (V : Type v) (E : Type w) where
  waiting : List (Lookup K) := []
  scheduled : Bool := false
  timer : Bool := false
  /-- the turns that were ordered and have not come yet -/
  turns : Nat := 0
  /-- the calls of `batchLoadFn` under way, with their batches -/
  inFlight : List (Nat × List (Lookup K)) := []
  asked : List K := []
  calls : List (List (Lookup K)) := []
  replies : List (Nat × Reply V E) := []
  settled : List (Nat × Settlement V E) := []

variable {K : Type u} {V : Type v} {E : Type w}

/-- What is returned at a place. -/
def outcome (reply : Reply V E) (index : Nat) : Settlement V E :=
  match reply with
  | .ok results =>
    match results[index]? with
    | none => .resolved none
    | some (.ok value) => .resolved (some value)
    | some (.error error) => .rejected error
  | .error error => .rejected error

/-- An answer settles each promise of its batch. -/
def settlements (batch : List (Lookup K)) (reply : Reply V E) : List (Nat × Settlement V E) :=
  batch.zipIdx.map fun entry => (entry.1.promise, outcome reply entry.2)

/-- `dispatch`: all keys that wait become one batch. -/
def dispatch (s : State K V E) : State K V E :=
  if s.waiting.length = 0 then { s with timer := false, scheduled := false }
  else { s with
    timer := false
    scheduled := false
    waiting := []
    inFlight := s.inFlight ++ [(s.calls.length, s.waiting)]
    calls := s.calls ++ [s.waiting] }

/-- `load`, up to its dispatch: the key waits. -/
def push (s : State K V E) (key : K) : State K V E := { s with
  waiting := s.waiting ++ [⟨key, s.asked.length⟩]
  asked := s.asked ++ [key] }

def load (options : Options) (s : State K V E) (key : K) : State K V E :=
  let s := push s key
  if options.enough s.waiting.length then dispatch s
  else if s.scheduled = true then s
  else if 0 < options.batchDelayMs then { s with scheduled := true, timer := true }
  else { s with scheduled := true, turns := s.turns + 1 }

/-- What can happen next. A batch under way is named by its place. -/
inductive Action (K : Type u) (V : Type v) (E : Type w) where
  | load (key : K)
  /-- a turn that was ordered comes -/
  | turn
  | fire
  | answer (place : Nat) (reply : Reply V E)

def step (options : Options) (s : State K V E) : Action K V E → Option (State K V E)
  | .load key => some (load options s key)
  | .turn => if 0 < s.turns then some (dispatch { s with turns := s.turns - 1 }) else none
  | .fire => if s.timer = true then some (dispatch s) else none
  | .answer place reply =>
    (s.inFlight[place]?).map fun (call, batch) => { s with
      inFlight := s.inFlight.eraseIdx place
      replies := s.replies ++ [(call, reply)]
      settled := settleAll s.settled (settlements batch reply) }

/-- The keys that were asked for, each with the number of its promise. -/
def numbered (asked : List K) : List (Lookup K) := asked.zipIdx.map fun entry => ⟨entry.1, entry.2⟩

/-- The promises of some lookups. -/
def promisesOf (batch : List (Lookup K)) : List Nat := batch.map Lookup.promise

/-- The promises that are not settled yet. -/
def pending (s : State K V E) : List Nat :=
  s.inFlight.flatMap (fun call => promisesOf call.2) ++ promisesOf s.waiting

/-- A promise got its value from an answer to the batch its key was in, at its own place there. -/
def FromOwnBatch (s : State K V E) (entry : Nat × Settlement V E) : Prop :=
  ∃ call batch reply, s.calls[call]? = some batch ∧ (call, reply) ∈ s.replies ∧
    entry ∈ settlements batch reply

/-- Where the keys, the batches and the promises stand. -/
structure Books (options : Options) (s : State K V E) : Prop where
  ordered : s.calls.flatten ++ s.waiting = numbered s.asked
  called : ∀ call ∈ s.inFlight, s.calls[call.1]? = some call.2
  answers : Accounted s.calls.length s.replies (s.inFlight.map Prod.fst)
  account : Accounted s.asked.length s.settled (pending s)
  matched : ∀ entry ∈ s.settled, FromOwnBatch s entry
  sizes : ∀ batch ∈ s.calls, 0 < batch.length ∧
    ∀ size ∈ options.maxBatchSize, 0 < size → batch.length ≤ size
  few : ∀ size ∈ options.maxBatchSize, 0 < size → s.waiting.length < size
  ordering : s.waiting ≠ [] → s.scheduled = true
  coming : s.scheduled = true → s.timer = true ∨ 0 < s.turns

section Runs

variable {options : Options} {s after : State K V E}

/-- One more key has the next number. -/
theorem numbered_append (asked : List K) (key : K) :
    numbered (asked ++ [key]) = numbered asked ++ [⟨key, asked.length⟩] := by
  simp [numbered, List.zipIdx_append]

/-- The promises an answer settles are those of its batch. -/
theorem settlements_promises (batch : List (Lookup K)) (reply : Reply V E) :
    (settlements batch reply).map Prod.fst = promisesOf batch := by
  have firsts : batch.zipIdx.map Prod.fst = batch := List.zipIdx_map_fst 0 batch
  calc (settlements batch reply).map Prod.fst
      = batch.zipIdx.map fun entry => entry.1.promise := by
        rw [settlements, List.map_map]
        rfl
    _ = (batch.zipIdx.map Prod.fst).map Lookup.promise := by
        rw [List.map_map]
        rfl
    _ = promisesOf batch := by rw [firsts, promisesOf]

/-- What was said of some batches and answers stays true when there are more of them. -/
theorem FromOwnBatch.mono {entry : Nat × Settlement V E} (own : FromOwnBatch s entry)
    (calls : ∀ (call : Nat) batch, s.calls[call]? = some batch → after.calls[call]? = some batch)
    (replies : s.replies ⊆ after.replies) : FromOwnBatch after entry := by
  obtain ⟨call, batch, reply, listed, answered, member⟩ := own
  exact ⟨call, batch, reply, calls call batch listed, replies answered, member⟩

/-- Before the first key. -/
theorem Books.start : Books options ({} : State K V E) where
  ordered := rfl
  called := by simp
  answers := Accounted.none_made
  account := Accounted.none_made
  matched := by simp
  sizes := by simp
  few := fun _ _ positive => positive
  ordering := by simp
  coming := fun scheduled => by cases scheduled

/-- Keys that wait, with as many of them as one batch may have: all go, and nothing is ordered. -/
theorem Books.dispatch (ordered : s.calls.flatten ++ s.waiting = numbered s.asked)
    (called : ∀ call ∈ s.inFlight, s.calls[call.1]? = some call.2)
    (answers : Accounted s.calls.length s.replies (s.inFlight.map Prod.fst))
    (account : Accounted s.asked.length s.settled (pending s))
    (matched : ∀ entry ∈ s.settled, FromOwnBatch s entry)
    (sizes : ∀ batch ∈ s.calls, 0 < batch.length ∧
      ∀ size ∈ options.maxBatchSize, 0 < size → batch.length ≤ size)
    (fit : ∀ size ∈ options.maxBatchSize, 0 < size → s.waiting.length ≤ size) :
    Books options (dispatch s) := by
  unfold DataLoader.dispatch
  by_cases nothing : s.waiting.length = 0
  · rw [if_pos nothing]
    have none : s.waiting = [] := List.eq_nil_of_length_eq_zero nothing
    exact {
      ordered := ordered
      called := called
      answers := answers
      account := account
      matched := matched
      sizes := sizes
      few := fun size _ positive => nothing ▸ positive
      ordering := fun some => absurd none some
      coming := fun scheduled => by cases scheduled }
  · rw [if_neg nothing]
    have longer : ∀ (call : Nat) batch, s.calls[call]? = some batch →
        (s.calls ++ [s.waiting])[call]? = some batch :=
      fun call batch listed => row_append.mpr (.inl listed)
    exact {
      ordered := by simpa using ordered
      called := all_append (fun call member => longer _ _ (called call member)) (by simp)
      answers := by simpa using answers.make
      account := by simpa [pending, promisesOf] using account
      matched := fun entry listed => (matched entry listed).mono longer (List.Subset.refl _)
      sizes := all_append sizes ⟨Nat.pos_of_ne_zero nothing, fit⟩
      few := fun _ _ positive => positive
      ordering := fun some => absurd rfl some
      coming := fun scheduled => by cases scheduled }

/-- The promise of a key that is asked for is pending. -/
theorem push_account (account : Accounted s.asked.length s.settled (pending s)) (key : K) :
    Accounted (push s key).asked.length (push s key).settled (pending (push s key)) := by
  have made := account.make
  simpa [pending, push, promisesOf] using made

/-- A key is asked for. -/
theorem Books.load (books : Books options s) (key : K) : Books options (load options s key) := by
  have ordered : (push s key).calls.flatten ++ (push s key).waiting = numbered (push s key).asked := by
    simp only [push, numbered_append, ← books.ordered, List.append_assoc]
  have account := push_account books.account key
  have length : (push s key).waiting.length = s.waiting.length + 1 := by simp [push]
  unfold DataLoader.load
  dsimp only
  by_cases enough : options.enough (push s key).waiting.length
  · rw [if_pos enough]
    exact .dispatch ordered books.called books.answers account books.matched books.sizes
      fun size present positive => by
        rw [length]
        exact books.few size present positive
  · rw [if_neg enough]
    have few : ∀ size ∈ options.maxBatchSize, 0 < size → (push s key).waiting.length < size :=
      fun size present _ => Nat.lt_of_not_le fun reached => enough ⟨size, present, reached⟩
    by_cases scheduled : (push s key).scheduled = true
    · rw [if_pos scheduled]
      exact ⟨ordered, books.called, books.answers, account, books.matched, books.sizes, few,
        fun _ => scheduled, books.coming⟩
    · rw [if_neg scheduled]
      split
      · exact ⟨ordered, books.called, books.answers, account, books.matched, books.sizes, few,
          fun _ => rfl, fun _ => .inl rfl⟩
      · exact ⟨ordered, books.called, books.answers, account, books.matched, books.sizes, few,
          fun _ => rfl, fun _ => .inr (Nat.succ_pos _)⟩

/-- What waits goes when a turn or the timer comes. -/
theorem Books.dispatched (books : Books options s) (turns : Nat) :
    Books options (DataLoader.dispatch { s with turns := turns }) :=
  .dispatch books.ordered books.called books.answers books.account books.matched books.sizes
    fun size present positive => Nat.le_of_lt (books.few size present positive)

/-- An answer settles what was pending in its batch. -/
theorem Books.answered (books : Books options s) {place call : Nat} {batch : List (Lookup K)}
    (present : s.inFlight[place]? = some (call, batch)) (reply : Reply V E) :
    Books options { s with
      inFlight := s.inFlight.eraseIdx place
      replies := s.replies ++ [(call, reply)]
      settled := settleAll s.settled (settlements batch reply) } := by
  obtain ⟨before, rest, whole, erased⟩ := split_at present
  have batchCalled : s.calls[call]? = some batch := books.called _ (List.mem_of_getElem? present)
  have waiting : s.inFlight.Perm ((call, batch) :: (before ++ rest)) := whole ▸ List.perm_middle
  have callTaken : (s.inFlight.map Prod.fst).Perm
      ([(call, reply)].map Prod.fst ++ (before ++ rest).map Prod.fst) := waiting.map Prod.fst
  have promisesTaken : (pending s).Perm ((settlements batch reply).map Prod.fst ++
      ((before ++ rest).flatMap (fun call => promisesOf call.2) ++ promisesOf s.waiting)) := by
    rw [settlements_promises, ← List.append_assoc]
    exact (waiting.flatMap_right fun call => promisesOf call.2).append_right _
  obtain ⟨added, account⟩ := books.account.settled_all promisesTaken
  exact {
    ordered := books.ordered
    called := fun other member => books.called other (List.mem_of_mem_eraseIdx member)
    answers := by
      rw [erased]
      exact (books.answers.settled_all callTaken).2
    account := by
      unfold pending
      rw [erased, added]
      exact account
    matched := by
      rw [added]
      intro entry listed
      rcases List.mem_append.mp listed with old | new
      · exact FromOwnBatch.mono (books.matched entry old) (fun _ _ called => called)
          (List.subset_append_left _ _)
      · exact ⟨call, batch, reply, batchCalled, List.mem_append_right _ (List.mem_singleton.mpr rfl),
          new⟩
    sizes := books.sizes
    few := books.few
    ordering := books.ordering
    coming := books.coming }

/-- A key is asked for, what waits goes, or a batch is answered. -/
theorem step_cases {action : Action K V E} (taken : step options s action = some after) :
    (∃ key, action = .load key ∧ after = load options s key) ∨
    (action = .turn ∧ 0 < s.turns ∧ after = dispatch { s with turns := s.turns - 1 }) ∨
    (action = .fire ∧ s.timer = true ∧ after = dispatch s) ∨
    ∃ place reply call batch, action = .answer place reply ∧
      s.inFlight[place]? = some (call, batch) ∧ after = { s with
        inFlight := s.inFlight.eraseIdx place
        replies := s.replies ++ [(call, reply)]
        settled := settleAll s.settled (settlements batch reply) } := by
  cases action with
  | load key => exact .inl ⟨key, rfl, (Option.some.inj taken).symm⟩
  | turn =>
    obtain ⟨ordered, same⟩ := Option.ite_none_right_eq_some.mp taken
    exact .inr (.inl ⟨rfl, ordered, (Option.some.inj same).symm⟩)
  | fire =>
    obtain ⟨armed, same⟩ := Option.ite_none_right_eq_some.mp taken
    exact .inr (.inr (.inl ⟨rfl, armed, (Option.some.inj same).symm⟩))
  | answer place reply =>
    obtain ⟨⟨call, batch⟩, present, same⟩ := Option.map_eq_some_iff.mp taken
    exact .inr (.inr (.inr ⟨place, reply, call, batch, rfl, present, same.symm⟩))

/-- A dispatch begins a call for all keys that wait, if any do, and nothing else. -/
theorem dispatch_cases (s : State K V E) :
    (dispatch s).replies = s.replies ∧ (dispatch s).asked = s.asked ∧
    (s.waiting = [] ∧ (dispatch s).inFlight = s.inFlight ∧ (dispatch s).calls = s.calls ∨
      (dispatch s).inFlight = s.inFlight ++ [(s.calls.length, s.waiting)] ∧
      (dispatch s).calls = s.calls ++ [s.waiting]) := by
  unfold dispatch
  by_cases nothing : s.waiting.length = 0
  · rw [if_pos nothing]
    exact ⟨rfl, rfl, .inl ⟨List.eq_nil_of_length_eq_zero nothing, rfl, rfl⟩⟩
  · rw [if_neg nothing]
    exact ⟨rfl, rfl, .inr ⟨rfl, rfl⟩⟩

/-- Every turn keeps the books. -/
theorem Books.step {action : Action K V E} (books : Books options s)
    (taken : step options s action = some after) : Books options after := by
  rcases step_cases taken with ⟨key, rfl, rfl⟩ | ⟨rfl, _, rfl⟩ | ⟨rfl, _, rfl⟩ |
    ⟨place, reply, call, batch, rfl, present, rfl⟩
  · exact books.load key
  · exact books.dispatched _
  · exact books.dispatched _
  · exact books.answered present reply

/-- What a lookup was answered with, by its key and its place. -/
theorem Books.own (books : Books options s) {promise : Nat} {settlement : Settlement V E}
    (listed : (promise, settlement) ∈ s.settled) : ∃ call batch reply index key,
      s.calls[call]? = some batch ∧ (call, reply) ∈ s.replies ∧
      batch[index]? = some ⟨key, promise⟩ ∧ s.asked[promise]? = some key ∧
      settlement = outcome reply index := by
  obtain ⟨call, batch, reply, called, answered, member⟩ := books.matched _ listed
  obtain ⟨⟨⟨key, number⟩, index⟩, placed, same⟩ := List.mem_map.mp member
  obtain ⟨number_eq, rfl⟩ := Prod.mk.inj same
  obtain rfl : number = promise := number_eq
  have at_index : batch[index]? = some ⟨key, number⟩ := List.mem_zipIdx_iff_getElem?.mp placed
  refine ⟨call, batch, reply, index, key, called, answered, at_index, ?_, rfl⟩
  have numbers : (⟨key, number⟩ : Lookup K) ∈ numbered s.asked := by
    rw [← books.ordered]
    exact List.mem_append_left _ (List.mem_flatten.mpr
      ⟨batch, List.mem_of_getElem? called, List.mem_of_getElem? at_index⟩)
  obtain ⟨⟨other, place⟩, counted, same⟩ := List.mem_map.mp numbers
  obtain ⟨rfl, rfl⟩ := Lookup.mk.inj same
  exact List.mem_zipIdx_iff_getElem?.mp counted

/-- No key is asked for. -/
def Action.quiet : Action K V E → Prop
  | .load _ => False
  | .turn | .fire | .answer _ _ => True

/-- What is left to happen if no more keys are asked for. -/
def work (s : State K V E) : Nat :=
  s.turns + (if s.timer = true then 1 else 0) + s.inFlight.length + (if s.waiting = [] then 0 else 1)

/-- What waits is under way instead, or was nothing. -/
theorem work_dispatch (s : State K V E) (turns : Nat) :
    work (dispatch { s with turns := turns }) + (if s.timer = true then 1 else 0) + s.turns =
      work s + turns := by
  unfold dispatch work
  by_cases nothing : s.waiting = []
  · rw [if_pos (by simp [nothing])]
    simp only [nothing, Bool.false_eq_true, if_false, if_true]
    omega
  · rw [if_neg (by simpa using nothing)]
    simp only [nothing, Bool.false_eq_true, if_false, if_true, List.length_append,
      List.length_singleton]
    omega

/-- Every turn but a request does some of what is left, and asks for nothing. -/
theorem work_step {action : Action K V E} (quiet : action.quiet)
    (taken : step options s action = some after) :
    work after < work s ∧ after.asked = s.asked := by
  rcases step_cases taken with ⟨key, rfl, rfl⟩ | ⟨rfl, ordered, rfl⟩ | ⟨rfl, armed, rfl⟩ |
    ⟨place, reply, call, batch, rfl, present, rfl⟩
  · exact quiet.elim
  · have same := work_dispatch s (s.turns - 1)
    exact ⟨by omega, (dispatch_cases _).2.1⟩
  · have same : work (dispatch s) + _ + _ = _ := work_dispatch s s.turns
    rw [if_pos armed] at same
    exact ⟨by omega, (dispatch_cases _).2.1⟩
  · obtain ⟨inside, _⟩ := List.getElem?_eq_some_iff.mp present
    have shorter := List.length_eraseIdx_of_lt inside
    refine ⟨?_, rfl⟩
    unfold work
    dsimp only
    omega

/-- Where only a request can come next, every lookup is answered. -/
theorem Books.idle (books : Books options s)
    (idle : ∀ action : Action K V E, action.quiet → DataLoader.step options s action = none)
    {promise : Nat}
    (inside : promise < s.asked.length) : ∃ settlement, (promise, settlement) ∈ s.settled := by
  have noTurns : ¬ 0 < s.turns := fun ordered => by
    have none := idle .turn trivial
    rw [DataLoader.step, if_pos ordered] at none
    cases none
  have noTimer : ¬ s.timer = true := fun armed => by
    have none := idle .fire trivial
    rw [DataLoader.step, if_pos armed] at none
    cases none
  have landed : s.inFlight = [] := by
    cases flying : s.inFlight with
    | nil => rfl
    | cons call rest =>
      have none := idle (.answer 0 (.ok [])) trivial
      rw [DataLoader.step, flying] at none
      cases none
  have empty : s.waiting = [] := by
    by_contra some
    exact (books.coming (books.ordering some)).elim noTimer noTurns
  have account := books.account
  unfold pending at account
  rw [landed, empty] at account
  exact account.complete inside

/-- Every run of a loader. -/
theorem Books.run (run : Reaches (DataLoader.step options) anyStep {} s) : Books options s :=
  run.invariant .start fun _ _ _ books _ taken => books.step taken

end Runs

/-- In every run of a data loader, the batches and what waits are the keys that were asked for, in
order; no batch is empty or too large; a promise is settled once at most, with what `batchLoadFn`
returned at the place of its own key; and while keys wait a turn or a timer will come. Once no more
keys are asked for, so many turns at most are left, and after them every promise is settled. -/
theorem lookups_answered {K : Type u} {V : Type v} {E : Type w} (options : Options)
    (s : State K V E) (run : Reaches (step options) anyStep {} s) :
    s.calls.flatten ++ s.waiting = numbered s.asked ∧
    (∀ batch ∈ s.calls, 0 < batch.length ∧
      ∀ size ∈ options.maxBatchSize, 0 < size → batch.length ≤ size) ∧
    (s.settled.map Prod.fst).Nodup ∧
    (∀ promise settlement, (promise, settlement) ∈ s.settled → ∃ call batch reply index key,
      s.calls[call]? = some batch ∧ (call, reply) ∈ s.replies ∧
      batch[index]? = some ⟨key, promise⟩ ∧ s.asked[promise]? = some key ∧
      settlement = outcome reply index) ∧
    (s.waiting ≠ [] → s.timer = true ∨ 0 < s.turns) ∧
    ∀ (actions : List (Action K V E)) (final : State K V E), (∀ action ∈ actions, action.quiet) →
      perform (step options) s actions = some final →
      actions.length ≤ work s ∧ final.asked = s.asked ∧
      ((∀ action : Action K V E, action.quiet → step options final action = none) →
        ∀ promise < s.asked.length, ∃ settlement, (promise, settlement) ∈ final.settled) := by
  have books := Books.run run
  refine ⟨books.ordered, books.sizes, books.account.settled_nodup, fun _ _ => books.own,
    fun some => books.coming (books.ordering some), fun actions final quiet performed => ?_⟩
  have shorter := perform_bounded work (fun _ _ _ quiet taken => (work_step quiet taken).1) actions quiet
    performed
  have none : (fun reached : State K V E => reached.asked = s.asked) s := rfl
  have same := (reaches_kind actions quiet performed).invariant none
    fun _ _ _ same quiet taken => (work_step quiet taken).2.trans same
  have later := Books.run (run.trans (reaches_any actions performed))
  exact ⟨Nat.le_trans (Nat.le_add_right _ _) shorter, same,
    fun idle promise inside => later.idle idle (same ▸ inside)⟩

/-- Two keys a batch. -/
def pairs : Options := { maxBatchSize := some 2 }

/-- The first two keys fill a batch, and the turn the first of them ordered takes the third. -/
def earlyTurn : List (Action Nat Nat String) :=
  [.load 1, .load 2, .load 3, .turn, .answer 1 (.ok [.ok 30]), .load 4,
    .answer 0 (.ok [.ok 10, .error "gone"])]

/-- The stale turn takes a key of its own. -/
theorem early_turn_answered :
    let s := (perform (step pairs) {} earlyTurn).getD {}
    s.calls.flatten ++ s.waiting = numbered s.asked ∧
    (∀ batch ∈ s.calls, 0 < batch.length ∧
      ∀ size ∈ pairs.maxBatchSize, 0 < size → batch.length ≤ size) ∧
    (s.settled.map Prod.fst).Nodup ∧
    (∀ promise settlement, (promise, settlement) ∈ s.settled → ∃ call batch reply index key,
      s.calls[call]? = some batch ∧ (call, reply) ∈ s.replies ∧
      batch[index]? = some ⟨key, promise⟩ ∧ s.asked[promise]? = some key ∧
      settlement = outcome reply index) ∧
    (s.waiting ≠ [] → s.timer = true ∨ 0 < s.turns) ∧
    ∀ (actions : List (Action Nat Nat String)) (final : State Nat Nat String),
      (∀ action ∈ actions, action.quiet) → perform (step pairs) s actions = some final →
      actions.length ≤ work s ∧ final.asked = s.asked ∧
      ((∀ action : Action Nat Nat String, action.quiet → step pairs final action = none) →
        ∀ promise < s.asked.length, ∃ settlement, (promise, settlement) ∈ final.settled) :=
  lookups_answered pairs _ (reaches_any_performed earlyTurn (by decide))

end Notifkit.Shared.DataLoader
