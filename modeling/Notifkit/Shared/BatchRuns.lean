import Mathlib.Algebra.Order.BigOperators.Group.List
import Mathlib.Algebra.Order.Group.Nat
import Notifkit.Shared.BatchProcessor

/-!
# Runs of the batch processor

Whatever the order of calls, timers and answers, the batches that were passed on
and the buffer hold the items in the order they were added, every promise is
settled from the place its item has in its batch, and no buffered item is
forgotten: a timer is armed for it, or a batch is under way that attends to the
buffer when it leaves.

Once nobody calls any more the turns left are bounded. Where none is left every
item was passed on and every promise is settled.
-/

namespace Notifkit.Shared.BatchProcessor

open Runs Promises

universe u v w
variable {T : Type u} {R : Type v} {E : Type w}

/-- The items added, each with the number of its promise. -/
def numbered (added : List T) : List (BatchItem T) :=
  added.zipIdx.map fun entry => ⟨entry.1, entry.2⟩

/-- One more item has the next number. -/
theorem numbered_append (added : List T) (item : T) :
    numbered (added ++ [item]) = numbered added ++ [⟨item, added.length⟩] := by
  simp [numbered, List.zipIdx_append]

/-- The batches that `flushFn` has not answered yet. -/
def unanswered (s : State T R E) : List (Run T) := s.inFlight.filter fun run => !run.answered

/-- The promises of the items in some batches. -/
def promisesOf (batch : List (BatchItem T)) : List Nat := batch.map BatchItem.promise

/-- The promises not settled yet: those of unanswered batches and those of the buffer. -/
def pending (s : State T R E) : List Nat :=
  (unanswered s).flatMap (fun run => promisesOf run.batch) ++ promisesOf s.buffer

/-- A promise got its value from an answer to the batch its item was in, at its own place there. -/
def FromOwnBatch (s : State T R E) (entry : Nat × Settlement R E) : Prop :=
  ∃ call batch reply, s.calls[call]? = some batch ∧ (call, reply) ∈ s.replies ∧
    entry ∈ settlements batch reply

/-- The books of a processor: where the items, the batches and the promises stand. -/
structure Books (s : State T R E) : Prop where
  ordered : s.calls.flatten ++ s.buffer = numbered s.added
  called : ∀ run ∈ s.inFlight, s.calls[run.call]? = some run.batch
  answers : Accounted s.calls.length s.replies ((unanswered s).map Run.call)
  account : Accounted s.added.length s.settled (pending s)
  matched : ∀ entry ∈ s.settled, FromOwnBatch s entry

/-- Nothing was added yet. -/
theorem Books.start : Books ({} : State T R E) where
  ordered := rfl
  called := by simp
  answers := Accounted.none_made
  account := Accounted.none_made
  matched := by simp

/-- The books do not look at the timer or at the callers of `flush`. -/
theorem Books.retimed {s : State T R E} (books : Books s) (timer : Bool) (callers : List Caller) :
    Books { s with timer := timer, callers := callers } :=
  ⟨books.ordered, books.called, books.answers, books.account, books.matched⟩

/-- A pushed item is the last one, and its promise is pending. -/
theorem Books.push {s : State T R E} (books : Books s) (item : T) : Books (s.push item) where
  ordered := by
    have before := books.ordered
    simp only [State.push, numbered_append, ← before, List.append_assoc]
  called := books.called
  answers := books.answers
  account := by
    have made := books.account.make
    have places : pending (s.push item) = pending s ++ [s.added.length] := by
      simp [pending, unanswered, State.push, promisesOf]
    rw [places]
    simpa [State.push] using made
  matched := books.matched

/-- A flush that does something: the buffer becomes the last batch. -/
theorem flushOnce_flushes {limits : Limits} {s : State T R E} (some_item : s.buffer.length ≠ 0)
    (free : ¬ Full limits s) :
    flushOnce limits s = { s with
      buffer := []
      inFlight := s.inFlight ++ [{ call := s.calls.length, batch := s.buffer }]
      calls := s.calls ++ [s.buffer] } := by
  have goes : ¬ (s.buffer.length = 0 ∨ Full limits s) := by
    intro either
    cases either with
    | inl nothing => exact some_item nothing
    | inr full => exact free full
  rw [flushOnce, if_neg goes]

/-- A flush of an empty buffer, or without a slot, does nothing. -/
theorem flushOnce_idle {limits : Limits} {s : State T R E}
    (idle : s.buffer.length = 0 ∨ Full limits s) : flushOnce limits s = s := if_pos idle

/-- What was said of some batches and answers stays true when there are more of them. -/
theorem FromOwnBatch.mono {s after : State T R E} {entry : Nat × Settlement R E}
    (own : FromOwnBatch s entry)
    (calls : ∀ (call : Nat) batch, s.calls[call]? = some batch → after.calls[call]? = some batch)
    (replies : s.replies ⊆ after.replies) : FromOwnBatch after entry := by
  obtain ⟨call, batch, reply, listed, answered, member⟩ := own
  exact ⟨call, batch, reply, calls call batch listed, replies answered, member⟩

/-- Flushing keeps the books: the items change their place and nothing else. -/
theorem Books.flushOnce {s : State T R E} (books : Books s) (limits : Limits) :
    Books (flushOnce limits s) := by
  by_cases idle : s.buffer.length = 0 ∨ Full limits s
  · rw [flushOnce_idle idle]
    exact books
  · obtain ⟨some_item, free⟩ := not_or.mp idle
    rw [flushOnce_flushes some_item free]
    have longer : ∀ (call : Nat) batch, s.calls[call]? = some batch →
        (s.calls ++ [s.buffer])[call]? = some batch :=
      fun call batch listed => Tables.row_append.mpr (.inl listed)
    constructor
    · simpa using books.ordered
    · intro run member
      rcases List.mem_append.mp member with old | new
      · exact longer _ _ (books.called run old)
      · rw [List.mem_singleton.mp new]
        simp
    · have made := books.answers.make
      simpa [unanswered] using made
    · have same : pending { s with
          buffer := []
          inFlight := s.inFlight ++ [{ call := s.calls.length, batch := s.buffer }]
          calls := s.calls ++ [s.buffer] } = pending s := by
        simp [pending, unanswered, promisesOf]
      rw [same]
      exact books.account
    · intro entry listed
      exact FromOwnBatch.mono (books.matched entry listed) longer (List.Subset.refl _)

/-- The promises an answer settles are those of its batch. -/
theorem settlements_promises (batch : List (BatchItem T)) (reply : Except E (List R)) :
    (settlements batch reply).map Prod.fst = promisesOf batch := by
  have firsts : batch.zipIdx.map Prod.fst = batch := List.zipIdx_map_fst 0 batch
  calc (settlements batch reply).map Prod.fst
      = batch.zipIdx.map fun entry => entry.1.promise := by
        rw [settlements, List.map_map]
        rfl
    _ = (batch.zipIdx.map Prod.fst).map BatchItem.promise := by
        rw [List.map_map]
        rfl
    _ = promisesOf batch := by rw [firsts, promisesOf]

/-- What an answer changes keeps the books: what was pending in the batch is settled now. -/
theorem Books.answered {s : State T R E} (books : Books s) {place : Nat} {run : Run T}
    (present : s.inFlight[place]? = some run) (first : run.answered = false)
    (reply : Except E (List R)) :
    Books { s with
      inFlight := s.inFlight.set place { run with answered := true }
      replies := s.replies ++ [(run.call, reply)]
      settled := settleAll s.settled (settlements run.batch reply) } := by
  obtain ⟨before, rest, whole, _, written⟩ := Tables.split_set present
  have batchCalled : s.calls[run.call]? = some run.batch :=
    books.called run (List.mem_of_getElem? present)
  -- The run leaves the unanswered ones, and its promises leave the pending ones.
  have waiting : (unanswered s).Perm (run :: (before ++ rest).filter fun run => !run.answered) := by
    unfold unanswered
    rw [whole]
    simp only [List.filter_append, List.filter_cons, first, Bool.not_false, ↓reduceIte]
    exact List.perm_middle
  have left : (s.inFlight.set place { run with answered := true }).filter
      (fun run => !run.answered) = (before ++ rest).filter fun run => !run.answered := by
    rw [written]
    simp
  have callTaken : ((unanswered s).map Run.call).Perm
      ([(run.call, reply)].map Prod.fst ++
        ((before ++ rest).filter fun run => !run.answered).map Run.call) := waiting.map Run.call
  have promisesTaken : (pending s).Perm ((settlements run.batch reply).map Prod.fst ++
      (((before ++ rest).filter fun run => !run.answered).flatMap
        (fun run => promisesOf run.batch) ++ promisesOf s.buffer)) := by
    rw [settlements_promises, ← List.append_assoc]
    exact (waiting.flatMap_right fun run => promisesOf run.batch).append_right _
  obtain ⟨added, account⟩ := books.account.settled_all promisesTaken
  constructor
  · exact books.ordered
  · exact Tables.all_set books.called batchCalled
  · unfold unanswered
    rw [left]
    exact (books.answers.settled_all callTaken).2
  · unfold pending unanswered
    rw [left, added]
    exact account
  · rw [added]
    intro entry listed
    rcases List.mem_append.mp listed with old | new
    · exact FromOwnBatch.mono (books.matched entry old) (fun _ _ called => called)
        (List.subset_append_left _ _)
    · exact ⟨run.call, run.batch, reply, batchCalled, List.mem_append_right _ (by simp), new⟩

/-- An answer is for a batch not answered before, and settles its promises. -/
theorem answer_cases {s after : State T R E} {place : Nat} {reply : Except E (List R)}
    (taken : answer s place reply = some after) :
    ∃ run, s.inFlight[place]? = some run ∧ run.answered = false ∧
      after = { s with
        inFlight := s.inFlight.set place { run with answered := true }
        replies := s.replies ++ [(run.call, reply)]
        settled := settleAll s.settled (settlements run.batch reply) } := by
  unfold answer at taken
  cases present : s.inFlight[place]? with
  | none => simp [present] at taken
  | some run =>
    cases first : run.answered with
    | true => simp [present, first] at taken
    | false =>
      simp only [present, first, Bool.false_eq_true, ↓reduceIte, Option.some.injEq] at taken
      exact ⟨run, rfl, first, taken.symm⟩

/-- An answer keeps the books. -/
theorem Books.answer {s after : State T R E} (books : Books s) {place : Nat}
    {reply : Except E (List R)} (taken : answer s place reply = some after) : Books after := by
  obtain ⟨run, present, first, rfl⟩ := answer_cases taken
  exact books.answered present first reply

/-- A batch that leaves its slot was answered before, so the books stay as they are. -/
theorem Books.leave {s : State T R E} (books : Books s) {place : Nat} {run : Run T}
    (present : s.inFlight[place]? = some run) (answered : run.answered = true) :
    Books { s with inFlight := s.inFlight.eraseIdx place } := by
  obtain ⟨before, rest, whole, erased⟩ := Tables.split_at present
  have same : unanswered { s with inFlight := s.inFlight.eraseIdx place } = unanswered s := by
    unfold unanswered
    rw [erased, whole]
    simp [answered]
  constructor
  · exact books.ordered
  · intro other member
    exact books.called other (List.mem_of_mem_eraseIdx member)
  · rw [same]
    exact books.answers
  · unfold pending
    rw [same]
    exact books.account
  · exact books.matched

/-- A flush after the timer was cleared keeps the books. -/
theorem Books.flushCleared {s : State T R E} (books : Books s) (limits : Limits) :
    Books (BatchProcessor.flushOnce limits s.clearTimer) :=
  (books.retimed false s.callers).flushOnce limits

/-- An added item is in the books. -/
theorem Books.add {s : State T R E} (books : Books s) (limits : Limits) (item : T) :
    Books (BatchProcessor.add limits s item) := by
  have pushed : Books (s.push item) := books.push item
  unfold BatchProcessor.add
  dsimp only
  split
  · exact pushed.flushCleared limits
  · split
    · exact pushed.retimed true (s.push item).callers
    · exact pushed

/-- What is done once a batch has left keeps the books. -/
theorem Books.afterRun {s : State T R E} (books : Books s) (limits : Limits) :
    Books (BatchProcessor.afterRun limits s) := by
  unfold BatchProcessor.afterRun
  split
  · exact books
  · split
    · exact books.flushOnce limits
    · exact books.retimed true s.callers

/-- The inner loop of `flush` keeps the books. -/
theorem Books.takeSlot {s : State T R E} (books : Books s) (limits : Limits) :
    Books (BatchProcessor.takeSlot limits s).1 := by
  unfold BatchProcessor.takeSlot
  split
  · exact books
  · exact books.flushCleared limits

/-- So does the outer one. -/
theorem Books.drain {s : State T R E} (books : Books s) (limits : Limits) :
    Books (BatchProcessor.drain limits s).1 := by
  unfold BatchProcessor.drain
  split
  · exact books
  · exact books.takeSlot limits

/-- What a caller of `flush` does when it goes on: it takes a slot, or it looks at the buffer once
more and leaves or takes a slot. -/
theorem turn_cases {limits : Limits} {s after : State T R E} {place : Nat}
    (taken : turn limits s place = some after) :
    (∃ caller, s.callers[place]? = some caller ∧ (caller = .waiting ∨ s.buffer.length ≠ 0) ∧
      (caller = .waiting → ¬ Full limits s) ∧
      after = (takeSlot limits s).1.setCaller place (takeSlot limits s).2) ∨
    (∃ call, s.callers[place]? = some (.awaiting call) ∧ s.buffer.length = 0 ∧
      after = { s with callers := s.callers.eraseIdx place }) := by
  unfold turn at taken
  cases present : s.callers[place]? with
  | none => simp [present] at taken
  | some caller =>
    cases caller with
    | waiting =>
      by_cases full : Full limits s
      · simp [present, full] at taken
      · simp only [present, full, ↓reduceIte, Option.some.injEq] at taken
        exact .inl ⟨.waiting, rfl, .inl rfl, fun _ => full, taken.symm⟩
    | awaiting call =>
      by_cases held : s.inFlight.any (fun run => some run.call = call) = true
      · simp [present, held] at taken
      · by_cases nothing : s.buffer.length = 0
        · simp only [present, held, drain, nothing, Bool.false_eq_true, ↓reduceIte,
            Option.some.injEq] at taken
          exact .inr ⟨call, rfl, nothing, taken.symm⟩
        · simp only [present, held, drain, nothing, Bool.false_eq_true, ↓reduceIte,
            Option.some.injEq] at taken
          refine .inl ⟨.awaiting call, rfl, .inr nothing, ?_, taken.symm⟩
          intro same
          cases same

/-- What frees a slot: an answered batch is taken out, and then the buffer is attended to. -/
theorem finish_cases {limits : Limits} {s after : State T R E} {place : Nat}
    (taken : finish limits s place = some after) :
    ∃ run, s.inFlight[place]? = some run ∧ run.answered = true ∧
      after = afterRun limits { s with inFlight := s.inFlight.eraseIdx place } := by
  unfold finish at taken
  cases present : s.inFlight[place]? with
  | none => simp [present] at taken
  | some run =>
    cases answered : run.answered with
    | false => simp [present, answered] at taken
    | true =>
      simp only [present, answered, ↓reduceIte, Option.some.injEq] at taken
      exact ⟨run, rfl, answered, taken.symm⟩

/-- A timer fires only where one is armed. -/
theorem fire_cases {limits : Limits} {s after : State T R E}
    (taken : step limits s .fire = some after) :
    s.timer = true ∧ after = flushOnce limits s.clearTimer := by
  cases armed : s.timer with
  | false => simp [step, armed] at taken
  | true =>
    simp only [step, armed, ↓reduceIte, Option.some.injEq] at taken
    exact ⟨rfl, taken.symm⟩

/-- Every turn keeps the books. -/
theorem Books.step {limits : Limits} {s after : State T R E} {action : Action T R E}
    (books : Books s) (taken : step limits s action = some after) : Books after := by
  cases action with
  | add item =>
    rw [← Option.some.inj taken]
    exact books.add limits item
  | flush =>
    rw [← Option.some.inj taken]
    exact (books.drain limits).retimed _ _
  | fire =>
    rw [(fire_cases taken).2]
    exact books.flushCleared limits
  | answer place reply => exact books.answer taken
  | finish place =>
    obtain ⟨run, present, answered, rfl⟩ := finish_cases taken
    exact (books.leave present answered).afterRun limits
  | turn place =>
    rcases turn_cases taken with ⟨_, _, _, _, rfl⟩ | ⟨_, _, _, rfl⟩
    · exact (books.takeSlot limits).retimed _ _
    · exact books.retimed s.timer _

/-- A buffered item has somebody who will attend to it: a timer, or a batch under way. -/
def Watched (s : State T R E) : Prop := s.buffer.length ≠ 0 → s.timer = true ∨ s.inFlight ≠ []

/-- With every slot busy a batch is under way. -/
theorem Full.busy {limits : Limits} {s : State T R E} (full : Full limits s) : s.inFlight ≠ [] := by
  intro nothing
  have free : s.inFlight.length = 0 := by rw [nothing, List.length_nil]
  have slot := limits.slot
  unfold Full at full
  omega

/-- A flush leaves nothing buffered unless every slot is busy. -/
theorem watched_flushOnce (limits : Limits) (s : State T R E) : Watched (flushOnce limits s) := by
  intro some_item
  by_cases idle : s.buffer.length = 0 ∨ Full limits s
  · rw [flushOnce_idle idle] at some_item ⊢
    cases idle with
    | inl nothing => exact absurd nothing some_item
    | inr full => exact .inr full.busy
  · obtain ⟨nonempty, free⟩ := not_or.mp idle
    rw [flushOnce_flushes nonempty free]
    exact .inr (by simp)

/-- Adding an item flushes, or arms a timer, or finds one of the two that attend to it. -/
theorem watched_add (limits : Limits) (s : State T R E) (item : T) :
    Watched (add limits s item) := by
  unfold add
  dsimp only
  split
  · exact watched_flushOnce limits _
  · rename_i small
    split
    · intro _
      exact .inl rfl
    · rename_i unarmed
      intro _
      by_cases full : Full limits (s.push item)
      · exact .inr full.busy
      · cases armed : (s.push item).timer with
        | true => exact .inl rfl
        | false => exact absurd ⟨armed, full⟩ unarmed

/-- A batch that leaves has the buffer attended to. -/
theorem watched_afterRun (limits : Limits) (s : State T R E) : Watched (afterRun limits s) := by
  unfold afterRun
  split
  · rename_i attended
    intro some_item
    cases attended with
    | inl nothing => exact absurd nothing some_item
    | inr armed => exact .inl armed
  · split
    · exact watched_flushOnce limits s
    · intro _
      exact .inl rfl

/-- Both loops of `flush` leave the buffer attended to. -/
theorem watched_takeSlot {limits : Limits} {s : State T R E} :
    Watched (takeSlot limits s).1 := by
  unfold takeSlot
  split
  · rename_i full
    intro _
    exact .inr full.busy
  · exact watched_flushOnce limits _

/-- The outer one finds nothing buffered or goes into the inner one. -/
theorem watched_drain {limits : Limits} {s : State T R E} : Watched (drain limits s).1 := by
  unfold drain
  split
  · rename_i nothing
    intro some_item
    exact absurd nothing some_item
  · exact watched_takeSlot

/-- Whatever happens, a buffered item is attended to afterwards. -/
theorem watched_step {limits : Limits} {s after : State T R E} {action : Action T R E}
    (watched : Watched s) (taken : step limits s action = some after) : Watched after := by
  cases action with
  | add item =>
    rw [← Option.some.inj taken]
    exact watched_add limits s item
  | flush =>
    rw [← Option.some.inj taken]
    exact watched_drain
  | fire =>
    rw [(fire_cases taken).2]
    exact watched_flushOnce limits _
  | answer place reply =>
    obtain ⟨run, present, _, rfl⟩ := answer_cases taken
    intro some_item
    rcases watched some_item with armed | busy
    · exact .inl armed
    · right
      intro nothing
      exact busy (by simpa using nothing)
  | finish place =>
    obtain ⟨run, _, _, rfl⟩ := finish_cases taken
    exact watched_afterRun limits _
  | turn place =>
    rcases turn_cases taken with ⟨_, _, _, _, rfl⟩ | ⟨_, _, _, rfl⟩
    · exact watched_takeSlot
    · exact watched

/-- No more batches are under way than there are slots. -/
def Capped (limits : Limits) (s : State T R E) : Prop := s.inFlight.length ≤ limits.maxConcurrent

/-- A flush takes a slot only where one is free. -/
theorem Capped.flushOnce {limits : Limits} {s : State T R E} (capped : Capped limits s) :
    Capped limits (flushOnce limits s) := by
  by_cases idle : s.buffer.length = 0 ∨ Full limits s
  · rw [flushOnce_idle idle]
    exact capped
  · obtain ⟨some_item, free⟩ := not_or.mp idle
    have below : s.inFlight.length < limits.maxConcurrent := Nat.lt_of_not_le free
    rw [flushOnce_flushes some_item free]
    simpa [Capped] using Nat.succ_le_of_lt below

/-- The inner loop of `flush` keeps the cap. -/
theorem Capped.takeSlot {limits : Limits} {s : State T R E} (capped : Capped limits s) :
    Capped limits (takeSlot limits s).1 := by
  unfold BatchProcessor.takeSlot
  split
  · exact capped
  · exact Capped.flushOnce (s := s.clearTimer) capped

/-- Every turn keeps the cap. -/
theorem Capped.step {limits : Limits} {s after : State T R E} {action : Action T R E}
    (capped : Capped limits s) (taken : step limits s action = some after) :
    Capped limits after := by
  cases action with
  | add item =>
    have pushed : Capped limits (s.push item) := capped
    rw [← Option.some.inj taken]
    unfold BatchProcessor.add
    dsimp only
    split
    · exact Capped.flushOnce (s := (s.push item).clearTimer) pushed
    · split
      · exact pushed
      · exact pushed
  | flush =>
    rw [← Option.some.inj taken]
    change Capped limits (drain limits s).1
    unfold drain
    split
    · exact capped
    · exact capped.takeSlot
  | fire =>
    rw [(fire_cases taken).2]
    exact Capped.flushOnce (s := s.clearTimer) capped
  | answer place reply =>
    obtain ⟨run, _, _, rfl⟩ := answer_cases taken
    simpa [Capped] using capped
  | finish place =>
    obtain ⟨run, present, _, rfl⟩ := finish_cases taken
    have fewer : Capped limits { s with inFlight := s.inFlight.eraseIdx place } :=
      Nat.le_trans (List.length_eraseIdx_le _ _) capped
    unfold afterRun
    split
    · exact fewer
    · split
      · exact fewer.flushOnce
      · exact fewer
  | turn place =>
    rcases turn_cases taken with ⟨_, _, _, _, rfl⟩ | ⟨_, _, _, rfl⟩
    · exact capped.takeSlot
    · exact capped

/-- The turns a batch under way has left. -/
def Run.work (run : Run T) : Nat := if run.answered then 3 else 4

/-- The turns a caller of `flush` has left, by whether something is buffered. -/
def Caller.work (nothing : Bool) : Caller → Nat
  | .waiting => 2
  | .awaiting _ => if nothing then 1 else 3

/-- A bound on the turns left while nobody calls. A buffered item counts for the batch it will be
in. -/
def work (s : State T R E) : Nat :=
  8 * s.buffer.length + (s.inFlight.map Run.work).sum + s.timer.toNat +
    (s.callers.map (Caller.work s.buffer.isEmpty)).sum

/-- A caller has the fewest turns left when nothing is buffered. -/
theorem Caller.work_le (caller : Caller) (nothing : Bool) :
    caller.work true ≤ caller.work nothing := by
  cases caller <;> cases nothing <;> simp [Caller.work]

/-- A flush that does something takes several turns off. -/
theorem work_flushOnce {limits : Limits} {s : State T R E} (some_item : s.buffer.length ≠ 0)
    (free : ¬ Full limits s) : work (flushOnce limits s) + 4 ≤ work s := by
  have callers : (s.callers.map (Caller.work true)).sum ≤
      (s.callers.map (Caller.work s.buffer.isEmpty)).sum :=
    List.sum_le_sum fun caller _ => caller.work_le _
  rw [flushOnce_flushes some_item free]
  simp only [work, List.map_append, List.sum_append, List.map_cons, List.map_nil, List.sum_cons,
    List.sum_nil, List.length_nil, List.isEmpty_nil, Run.work, Bool.false_eq_true, ↓reduceIte]
  omega

/-- No flush adds turns. -/
theorem work_flushOnce_le (limits : Limits) (s : State T R E) :
    work (flushOnce limits s) ≤ work s := by
  by_cases idle : s.buffer.length = 0 ∨ Full limits s
  · rw [flushOnce_idle idle]
  · obtain ⟨some_item, free⟩ := not_or.mp idle
    have fewer := work_flushOnce some_item free
    omega

/-- A cleared timer has no turn left. -/
theorem work_clearTimer (s : State T R E) :
    work s.clearTimer + s.timer.toNat = work s := by
  simp only [work, State.clearTimer, Bool.toNat_false]
  omega

/-- An armed timer has one. -/
theorem work_armTimer {s : State T R E} (unarmed : s.timer = false) :
    work s.armTimer = work s + 1 := by
  simp only [work, State.armTimer, unarmed, Bool.toNat_false, Bool.toNat_true]
  omega

/-- Attending to the buffer once a batch has left arms one timer at most. -/
theorem work_afterRun_le (limits : Limits) (s : State T R E) :
    work (afterRun limits s) ≤ work s + 1 := by
  unfold afterRun
  split
  · omega
  · rename_i unattended
    split
    · have fewer := work_flushOnce_le limits s
      omega
    · have unarmed : s.timer = false := by
        simpa using (not_or.mp unattended).2
      exact Nat.le_of_eq (work_armTimer unarmed)

/-- Another place for a caller changes the turns left by what it has left itself. -/
theorem work_setCaller {s : State T R E} {place : Nat} {caller : Caller}
    (present : s.callers[place]? = some caller) (next : Caller) :
    work (s.setCaller place next) + caller.work s.buffer.isEmpty =
      work s + next.work s.buffer.isEmpty := by
  have moved : ((s.callers.set place next).map (Caller.work s.buffer.isEmpty)).sum +
      caller.work s.buffer.isEmpty = (s.callers.map (Caller.work s.buffer.isEmpty)).sum +
        next.work s.buffer.isEmpty := Tables.sum_set present
  simp only [work, State.setCaller]
  omega

/-- Flushing leaves the callers where they are. -/
theorem flushOnce_callers (limits : Limits) (s : State T R E) :
    (flushOnce limits s).callers = s.callers := by
  unfold flushOnce
  split <;> rfl

/-- A caller that goes into a free slot has fewer turns left than before. -/
theorem work_takeSlot {limits : Limits} {s : State T R E} {place : Nat} {caller : Caller}
    (present : s.callers[place]? = some caller)
    (goes : caller = .waiting ∨ s.buffer.length ≠ 0)
    (unfilled : caller = .waiting → ¬ Full limits s) :
    work ((takeSlot limits s).1.setCaller place (takeSlot limits s).2) < work s := by
  by_cases full : Full limits s
  · have stays : takeSlot limits s = (s, .waiting) := if_pos full
    have moved := work_setCaller present .waiting
    cases caller with
    | waiting => exact absurd full (unfilled rfl)
    | awaiting call =>
      have some_item : s.buffer.isEmpty = false := by
        rcases goes with waits | some_item
        · cases waits
        · simpa using some_item
      rw [stays]
      change work (s.setCaller place .waiting) < work s
      simp only [some_item, Caller.work, Bool.false_eq_true, ↓reduceIte] at moved
      omega
  · have flushes : (takeSlot limits s).1 = flushOnce limits s.clearTimer := by
      rw [takeSlot, if_neg full]
    obtain ⟨call, awaits⟩ : ∃ call, (takeSlot limits s).2 = .awaiting call := by
      rw [takeSlot, if_neg full]
      exact ⟨_, rfl⟩
    have cleared := work_clearTimer s
    have listed : (flushOnce limits s.clearTimer).callers[place]? = some caller := by
      rw [flushOnce_callers]
      exact present
    have moved := work_setCaller listed (.awaiting call)
    rw [flushes, awaits]
    by_cases nothing : s.buffer.length = 0
    · have waits : caller = .waiting := goes.resolve_right fun some_item => some_item nothing
      have idle : flushOnce limits s.clearTimer = s.clearTimer := flushOnce_idle (.inl nothing)
      have empty : s.clearTimer.buffer.isEmpty = true := by
        rw [List.isEmpty_iff]
        exact List.length_eq_zero_iff.mp nothing
      rw [idle] at moved ⊢
      rw [waits, empty] at moved
      simp only [Caller.work, ↓reduceIte] at moved
      omega
    · have flushed : work (flushOnce limits s.clearTimer) + 4 ≤ work s.clearTimer :=
        work_flushOnce nothing full
      have empty : (flushOnce limits s.clearTimer).buffer.isEmpty = true := by
        rw [flushOnce_flushes (s := s.clearTimer) nothing full]
        rfl
      rw [empty] at moved
      simp only [Caller.work, ↓reduceIte] at moved
      omega

/-- Each turn that nobody outside asked for takes off from the turns left. -/
theorem work_step {limits : Limits} {s after : State T R E} {action : Action T R E}
    (own : action.isOwn) (taken : step limits s action = some after) : work after < work s := by
  cases action with
  | add item => exact absurd own not_false
  | flush => exact absurd own not_false
  | fire =>
    obtain ⟨armed, rfl⟩ := fire_cases taken
    have cleared := work_clearTimer s
    have flushed := work_flushOnce_le limits s.clearTimer
    rw [armed, Bool.toNat_true] at cleared
    omega
  | answer place reply =>
    obtain ⟨run, present, first, rfl⟩ := answer_cases taken
    have moved : ((s.inFlight.set place { run with answered := true }).map Run.work).sum + run.work =
        (s.inFlight.map Run.work).sum + Run.work { run with answered := true } :=
      Tables.sum_set present
    simp only [Run.work, first, Bool.false_eq_true, ↓reduceIte] at moved
    simp only [work]
    omega
  | finish place =>
    obtain ⟨run, present, answered, rfl⟩ := finish_cases taken
    have left : (s.inFlight.map Run.work).sum =
        run.work + ((s.inFlight.eraseIdx place).map Run.work).sum := Tables.sum_eraseIdx present
    have attended := work_afterRun_le limits { s with inFlight := s.inFlight.eraseIdx place }
    have turns : run.work = 3 := by rw [Run.work, if_pos answered]
    have fewer : work { s with inFlight := s.inFlight.eraseIdx place } + 3 = work s := by
      simp only [work]
      omega
    omega
  | turn place =>
    rcases turn_cases taken with
      ⟨caller, present, goes, unfilled, rfl⟩ | ⟨call, present, nothing, rfl⟩
    · exact work_takeSlot present goes unfilled
    · have left : (s.callers.map (Caller.work s.buffer.isEmpty)).sum =
          (Caller.awaiting call).work s.buffer.isEmpty +
            ((s.callers.eraseIdx place).map (Caller.work s.buffer.isEmpty)).sum :=
        Tables.sum_eraseIdx present
      have empty : s.buffer.isEmpty = true := by
        rw [List.isEmpty_iff]
        exact List.length_eq_zero_iff.mp nothing
      simp only [work, empty, Caller.work, ↓reduceIte] at left ⊢
      omega

/-- Flushing adds no item. -/
theorem flushOnce_added (limits : Limits) (s : State T R E) :
    (flushOnce limits s).added = s.added := by
  unfold flushOnce
  split <;> rfl

/-- Only a call adds an item. -/
theorem added_step {limits : Limits} {s after : State T R E} {action : Action T R E}
    (own : action.isOwn) (taken : step limits s action = some after) : after.added = s.added := by
  cases action with
  | add item => exact absurd own not_false
  | flush => exact absurd own not_false
  | fire =>
    rw [(fire_cases taken).2, flushOnce_added]
    rfl
  | answer place reply =>
    obtain ⟨_, _, _, rfl⟩ := answer_cases taken
    rfl
  | finish place =>
    obtain ⟨_, _, _, rfl⟩ := finish_cases taken
    unfold afterRun
    split
    · rfl
    · split
      · rw [flushOnce_added]
      · rfl
  | turn place =>
    rcases turn_cases taken with ⟨_, _, _, _, rfl⟩ | ⟨_, _, _, rfl⟩
    · change (takeSlot limits s).1.added = s.added
      unfold takeSlot
      split
      · rfl
      · rw [flushOnce_added]
        rfl
    · rfl

/-- More batches may have been handed over, and none of them was answered. -/
def HandsOver (s after : State T R E) : Prop :=
  ∃ more, after.calls = s.calls ++ more ∧
    (unanswered after).map Run.batch = (unanswered s).map Run.batch ++ more

/-- Nothing was handed over. -/
theorem HandsOver.same {s after : State T R E} (calls : after.calls = s.calls)
    (waiting : unanswered after = unanswered s) : HandsOver s after :=
  ⟨[], by rw [calls, List.append_nil], by rw [waiting, List.append_nil]⟩

/-- A flush hands over what is buffered, or nothing. -/
theorem handsOver_flushOnce (limits : Limits) (s : State T R E) :
    HandsOver s (flushOnce limits s) := by
  by_cases idle : s.buffer.length = 0 ∨ Full limits s
  · rw [flushOnce_idle idle]
    exact .same rfl rfl
  · obtain ⟨some_item, free⟩ := not_or.mp idle
    rw [flushOnce_flushes some_item free]
    refine ⟨[s.buffer], rfl, ?_⟩
    simp [unanswered]

/-- A slot that is taken is taken by what is buffered. -/
theorem handsOver_takeSlot (limits : Limits) (s : State T R E) :
    HandsOver s (takeSlot limits s).1 := by
  unfold takeSlot
  split
  · exact .same rfl rfl
  · exact handsOver_flushOnce limits s.clearTimer

/-- Every turn but an answer hands over batches, or none. -/
theorem handsOver_step {limits : Limits} {s after : State T R E} {action : Action T R E}
    (silent : ∀ place reply, action ≠ .answer place reply)
    (taken : step limits s action = some after) : HandsOver s after := by
  cases action with
  | add item =>
    rw [← Option.some.inj taken]
    unfold add
    dsimp only
    split
    · exact handsOver_flushOnce limits (s.push item).clearTimer
    · split
      · exact .same rfl rfl
      · exact .same rfl rfl
  | flush =>
    rw [← Option.some.inj taken]
    unfold drain
    split
    · exact .same rfl rfl
    · exact handsOver_takeSlot limits s
  | fire =>
    rw [(fire_cases taken).2]
    exact handsOver_flushOnce limits s.clearTimer
  | answer place reply => exact absurd rfl (silent place reply)
  | finish place =>
    obtain ⟨run, present, answered, rfl⟩ := finish_cases taken
    obtain ⟨before, rest, whole, erased⟩ := Tables.split_at present
    have same : unanswered { s with inFlight := s.inFlight.eraseIdx place } = unanswered s := by
      unfold unanswered
      rw [erased, whole]
      simp [answered]
    unfold afterRun
    split
    · exact .same rfl same
    · split
      · obtain ⟨more, calls, waiting⟩ :=
          handsOver_flushOnce limits { s with inFlight := s.inFlight.eraseIdx place }
        exact ⟨more, calls, by rw [waiting, same]⟩
      · exact .same rfl same
  | turn place =>
    rcases turn_cases taken with ⟨_, _, _, _, rfl⟩ | ⟨_, _, _, rfl⟩
    · exact handsOver_takeSlot limits s
    · exact .same rfl rfl

/-- An answered batch is no longer among those that wait. -/
theorem answer_leaves {s after : State T R E} {place : Nat} {run : Run T}
    {reply : Except E (List R)} (present : s.inFlight[place]? = some run)
    (taken : answer s place reply = some after) :
    after.calls = s.calls ∧ after.added = s.added ∧ after.buffer = s.buffer ∧
      (unanswered s).Perm (run :: unanswered after) := by
  obtain ⟨other, found, first, rfl⟩ := answer_cases taken
  obtain rfl := Option.some.inj (present.symm.trans found)
  obtain ⟨before, rest, whole, _, written⟩ := Tables.split_set present
  refine ⟨rfl, rfl, rfl, ?_⟩
  unfold unanswered
  dsimp only
  rw [written, whole]
  simp only [List.filter_append, List.filter_cons, first, Bool.not_false, Bool.not_true,
    ↓reduceIte, Bool.false_eq_true]
  exact List.perm_middle

/-- Where a buffered item has no timer, the next batch that leaves arms one or takes it along. -/
theorem finish_attends {limits : Limits} {s after : State T R E} {place : Nat}
    (capped : Capped limits s) (some_item : s.buffer.length ≠ 0)
    (taken : finish limits s place = some after) :
    after.timer = true ∨ after.buffer = [] ∧ after.calls = s.calls ++ [s.buffer] := by
  obtain ⟨run, present, _, rfl⟩ := finish_cases taken
  unfold afterRun
  split
  · rename_i attended
    cases attended with
    | inl nothing => exact absurd nothing some_item
    | inr armed => exact .inl armed
  · split
    · have inside := (List.getElem?_eq_some_iff.mp present).1
      have shorter := List.length_eraseIdx_of_lt inside
      have free : ¬ Full limits { s with inFlight := s.inFlight.eraseIdx place } := by
        unfold Full Capped at *
        simp only
        omega
      rw [flushOnce_flushes (s := { s with inFlight := s.inFlight.eraseIdx place }) some_item free]
      exact .inr ⟨rfl, rfl⟩
    · exact .inl rfl

/-- What holds of a processor at all times. -/
structure Orderly (limits : Limits) (s : State T R E) : Prop where
  watched : s.buffer ≠ [] → s.timer = true ∨ s.inFlight ≠ [] ∧
    ∀ place after, step limits s (.finish place) = some after →
      after.timer = true ∨ after.buffer = [] ∧ after.calls = s.calls ++ [s.buffer]
  capped : s.inFlight.length ≤ limits.maxConcurrent
  passed : s.calls.flatten ++ s.buffer = numbered s.added
  answeredOnce : (s.replies.map Prod.fst).Nodup
  settledOnce : (s.settled.map Prod.fst).Nodup
  matched : ∀ entry ∈ s.settled, FromOwnBatch s entry

/-- No turn is left that nobody outside asks for. -/
def Idle (limits : Limits) (s : State T R E) : Prop :=
  ∀ action : Action T R E, action.isOwn → step limits s action = none

/-- An idle processor has no batch under way. -/
theorem Idle.landed {limits : Limits} {s : State T R E} (idle : Idle limits s) :
    s.inFlight = [] := by
  cases under : s.inFlight with
  | nil => rfl
  | cons run rest =>
    have present : s.inFlight[0]? = some run := by
      rw [under]
      rfl
    cases answered : run.answered with
    | true =>
      have stuck := idle (.finish 0) trivial
      simp [step, finish, present, answered] at stuck
    | false =>
      have stuck := idle (.answer 0 (.ok [])) trivial
      simp [step, answer, present, answered] at stuck

/-- An idle processor has nothing buffered. -/
theorem Idle.empty {limits : Limits} {s : State T R E} (idle : Idle limits s)
    (watched : Watched s) : s.buffer = [] := by
  apply List.length_eq_zero_iff.mp
  by_contra some_item
  rcases watched some_item with armed | busy
  · have stuck := idle .fire trivial
    simp [step, armed] at stuck
  · exact busy idle.landed

/-- The watching, the cap and the books hold in every state. -/
theorem kept {limits : Limits} {s : State T R E} (run : Reaches (step limits) anyStep {} s) :
    Watched s ∧ Capped limits s ∧ Books s := by
  apply run.invariant
  · exact ⟨fun some_item => absurd rfl some_item, Nat.zero_le _, .start⟩
  · intro before action after ⟨watched, capped, books⟩ _ taken
    exact ⟨watched_step watched taken, capped.step taken, books.step taken⟩

/-- Whatever is called, fires, is answered or leaves, in whatever order: a buffered item is
attended to, the cap holds, the batches hold the items in the order they were added, and every
promise settled got the result at its own place or the error of its batch. Left alone, the
processor comes to rest after a bounded number of turns; every item was passed on by then, and
every promise has its one value. -/
theorem items_attended (limits : Limits) {s : State T R E}
    (run : Reaches (step limits) anyStep {} s) :
    Orderly limits s ∧
      ∀ actions later, (∀ action ∈ actions, Action.isOwn action) →
        perform (step limits) s actions = some later →
          actions.length ≤ work s ∧ later.added = s.added ∧
            (Idle limits later → later.calls.flatten = numbered s.added ∧
              ∀ promise < s.added.length, ∃! value, (promise, value) ∈ later.settled) := by
  obtain ⟨watched, capped, books⟩ := kept run
  constructor
  · constructor
    · intro some_item
      have counted : s.buffer.length ≠ 0 := fun nothing =>
        some_item (List.length_eq_zero_iff.mp nothing)
      rcases watched counted with armed | busy
      · exact .inl armed
      · exact .inr ⟨busy, fun place after taken => finish_attends capped counted taken⟩
    · exact capped
    · exact books.ordered
    · exact books.answers.settled_nodup
    · exact books.account.settled_nodup
    · exact books.matched
  · intro actions later all performed
    have bounded := perform_bounded work (fun _ _ _ => work_step) actions all performed
    have same : later.added = s.added := by
      apply (reaches_kind actions all performed).invariant
      · rfl
      · intro before action after unchanged own taken
        exact (added_step own taken).trans unchanged
    refine ⟨by omega, same, fun idle => ?_⟩
    obtain ⟨laterWatched, _, laterBooks⟩ := kept (run.trans (reaches_any actions performed))
    have nothing : later.buffer = [] := idle.empty laterWatched
    have account := laterBooks.account
    have nonePending : pending later = [] := by
      simp [pending, unanswered, idle.landed, nothing, promisesOf]
    rw [nonePending, same] at account
    constructor
    · have ordered := laterBooks.ordered
      rw [nothing, List.append_nil, same] at ordered
      exact ordered
    · intro promise inside
      obtain ⟨value, listed⟩ := account.complete inside
      exact ⟨value, listed, fun other also => account.value_unique also listed⟩

/-- Two items to a batch and one slot. -/
def oneSlot : Limits := ⟨2, 1, Nat.one_pos⟩

/-- The second item fills a batch, the third gathers while the slot is busy, somebody asks for a
flush, and the first batch fails and leaves. -/
def crowdedSlot : List (Action Nat Nat String) :=
  [.add 10, .add 20, .add 30, .flush, .answer 0 (.error "refused"), .finish 0]

/-- What was run there is orderly. -/
theorem items_attended_crowded :
    Orderly oneSlot ((perform (step oneSlot) {} crowdedSlot).getD {}) :=
  (items_attended oneSlot (reaches_any_performed crowdedSlot rfl)).1

end Notifkit.Shared.BatchProcessor
