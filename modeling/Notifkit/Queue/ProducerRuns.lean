import Notifkit.Queue.ProducerBooks

/-!
# Runs of the stream producer

A queued event always has an immediate coming, stale ones or not. The books give
the rest: the producer's entries stand in the stream in the order their events
were enqueued, and a batch that succeeds has its ids in the order of what it was
given.

Once nobody publishes any more the turns left are bounded, and where none is left
every promise is settled.
-/

namespace Notifkit.Queue.StreamProducer

open Runs Promises

universe u v w
variable {P : Type u} {D : Type v} {E : Type w}
variable {setting : Setting P D E} {s after : State P D E}

/-- A queued event is to be flushed, and the immediate that will flush it is outstanding. -/
structure Scheduled (s : State P D E) : Prop where
  flagged : s.pendingQueue ≠ [] → s.flushScheduled = true
  outstanding : s.flushScheduled = true → s.immediates ≠ 0

/-- A flush leaves nothing queued and nothing scheduled. -/
theorem flush_scheduling (setting : Setting P D E) (s : State P D E) :
    (flush setting s).pendingQueue = [] ∧ (flush setting s).flushScheduled = false := by
  rcases flush_cases setting s with ⟨empty, same⟩ | ⟨_, _, _, same⟩ | ⟨_, same⟩
  · rw [same]
    exact ⟨empty, rfl⟩
  · rw [same]
    exact ⟨rfl, rfl⟩
  · rw [same]
    exact ⟨rfl, rfl⟩

/-- So whatever immediates are outstanding, nothing is missed after a flush. -/
theorem scheduled_flush (setting : Setting P D E) (s : State P D E) :
    Scheduled (flush setting s) := by
  obtain ⟨empty, unscheduled⟩ := flush_scheduling setting s
  constructor
  · intro queued
    exact absurd empty queued
  · intro scheduled
    rw [unscheduled] at scheduled
    cases scheduled

/-- An enqueued event is flushed at once, or an immediate will flush it. -/
theorem Scheduled.enqueue (scheduled : Scheduled s) (event : StreamEvent P) :
    Scheduled (enqueue setting s event) := by
  unfold StreamProducer.enqueue
  dsimp only
  split
  · exact scheduled_flush setting _
  · split
    · rename_i flag
      exact ⟨fun _ => flag, scheduled.outstanding⟩
    · exact ⟨fun _ => rfl, fun _ => Nat.succ_ne_zero _⟩

/-- The same for all events of a batch. -/
theorem Scheduled.publishAll (scheduled : Scheduled s) (given : List P) :
    Scheduled (publishAll setting s given).1 := by
  induction given generalizing s with
  | nil => exact scheduled
  | cons fields rest inductionHypothesis =>
    exact inductionHypothesis (scheduled.enqueue (stamp setting s fields))

/-- Every turn keeps what is queued scheduled. -/
theorem Scheduled.step {action : Action P D E} (scheduled : Scheduled s)
    (taken : step setting s action = some after) : Scheduled after := by
  cases action with
  | publish fields =>
    rw [← Option.some.inj taken]
    exact scheduled.enqueue (stamp setting s fields)
  | publishBatch given =>
    rw [← Option.some.inj taken]
    have all : Scheduled (StreamProducer.publishAll setting s given).1 :=
      scheduled.publishAll given
    exact ⟨all.flagged, all.outstanding⟩
  | immediate =>
    rw [(immediate_cases taken).2]
    exact scheduled_flush setting _
  | execute place result =>
    obtain ⟨_, _, _, _, _, _, _, ends⟩ := execute_cases taken
    rcases ends with ⟨_, _, rfl⟩ | ⟨_, _, _, rfl⟩
    · exact ⟨scheduled.flagged, scheduled.outstanding⟩
    · exact ⟨scheduled.flagged, scheduled.outstanding⟩
  | lose place =>
    obtain ⟨_, _, _, rfl⟩ := lose_cases taken
    exact ⟨scheduled.flagged, scheduled.outstanding⟩
  | reply place =>
    obtain ⟨_, _, _, _, rfl⟩ := reply_cases taken
    exact ⟨scheduled.flagged, scheduled.outstanding⟩
  | fail place error =>
    obtain ⟨_, _, _, rfl⟩ := fail_cases taken
    exact ⟨scheduled.flagged, scheduled.outstanding⟩
  | foreign id data =>
    by_cases new : NewId s.stream id
    · simp only [StreamProducer.step, new, ↓reduceIte, Option.some.injEq] at taken
      subst taken
      exact ⟨scheduled.flagged, scheduled.outstanding⟩
    · simp [StreamProducer.step, new] at taken

/-- The turns a pipeline has left: to be heard of, to lose its connection, and one for each command
that may still be executed. -/
def Pipeline.work (pipeline : Pipeline P D E) : Nat :=
  (if pipeline.settled then 0 else 1) +
    if pipeline.lost then 0 else 1 + (pipeline.commands.length - pipeline.results.length)

/-- A bound on the turns left while nobody publishes. -/
def work (s : State P D E) : Nat :=
  3 * s.pendingQueue.length + s.immediates + (s.pipelines.map Pipeline.work).sum

/-- No flush adds turns. -/
theorem work_flush (setting : Setting P D E) (s : State P D E) :
    work (flush setting s) ≤ work s := by
  rcases flush_cases setting s with ⟨_, same⟩ | ⟨commands, some_event, texts, same⟩ | ⟨_, same⟩
  · rw [same]
    exact Nat.le_refl _
  · have each := (forall₂_of_mapM texts).length_eq
    rw [same]
    simp only [work, List.map_append, List.sum_append, List.map_cons, List.map_nil, List.sum_cons,
      List.sum_nil, List.length_nil, Pipeline.work, Bool.false_eq_true, ↓reduceIte]
    omega
  · rw [same]
    simp only [work, List.map_append, List.sum_append, List.map_cons, List.map_nil, List.sum_cons,
      List.sum_nil, List.length_nil, Pipeline.work, ↓reduceIte]
    omega

/-- A pipeline written again with fewer turns left lessens the bound. -/
theorem sum_work_set {pipelines : List (Pipeline P D E)} {place : Nat} {pipeline : Pipeline P D E}
    (new : Pipeline P D E) (present : pipelines[place]? = some pipeline)
    (fewer : new.work < pipeline.work) :
    ((pipelines.set place new).map Pipeline.work).sum < (pipelines.map Pipeline.work).sum := by
  have moved : ((pipelines.set place new).map Pipeline.work).sum + pipeline.work =
      (pipelines.map Pipeline.work).sum + new.work := Tables.sum_set present
  omega

/-- A result leaves one command less. -/
theorem work_executed {pipeline : Pipeline P D E} {item : PendingPublishItem P} {data : D}
    (unlost : pipeline.lost = false) (next : pipeline.next = some (item, data))
    (result : Except E Nat) :
    Pipeline.work { pipeline with results := pipeline.results ++ [result] } < pipeline.work := by
  have inside := (List.getElem?_eq_some_iff.mp (next_eq_some next).2).1
  simp only [Pipeline.work, unlost, Bool.false_eq_true, ↓reduceIte, List.length_append,
    List.length_singleton]
  omega

/-- A pipeline that was heard of has one turn less. -/
theorem work_heard {pipeline : Pipeline P D E} (unheard : pipeline.settled = false) :
    Pipeline.work { pipeline with settled := true } < pipeline.work := by
  simp only [Pipeline.work, unheard, Bool.false_eq_true, ↓reduceIte]
  omega

/-- Each turn that is neither a call nor another writer's takes off from the turns left. -/
theorem work_step {action : Action P D E} (own : action.isOwn)
    (taken : step setting s action = some after) : work after < work s := by
  cases action with
  | publish fields => exact absurd own not_false
  | publishBatch given => exact absurd own not_false
  | foreign id data => exact absurd own not_false
  | immediate =>
    obtain ⟨outstanding, rfl⟩ := immediate_cases taken
    have flushed := work_flush setting { s with immediates := s.immediates - 1 }
    have fewer : work { s with immediates := s.immediates - 1 } < work s := by
      simp only [work]
      omega
    exact Nat.lt_of_le_of_lt flushed fewer
  | execute place result =>
    obtain ⟨pipeline, item, data, present, unlost, _, next, ends⟩ := execute_cases taken
    rcases ends with ⟨error, rfl, rfl⟩ | ⟨id, rfl, _, rfl⟩
    · exact Nat.add_lt_add_left (sum_work_set _ present (work_executed unlost next _)) _
    · exact Nat.add_lt_add_left (sum_work_set _ present (work_executed unlost next _)) _
  | lose place =>
    obtain ⟨pipeline, present, unlost, rfl⟩ := lose_cases taken
    have fewer : Pipeline.work { pipeline with lost := true } < pipeline.work := by
      simp only [Pipeline.work, unlost, Bool.false_eq_true, ↓reduceIte]
      omega
    exact Nat.add_lt_add_left (sum_work_set _ present fewer) _
  | reply place =>
    obtain ⟨pipeline, present, unheard, _, rfl⟩ := reply_cases taken
    exact Nat.add_lt_add_left (sum_work_set _ present (work_heard unheard)) _
  | fail place error =>
    obtain ⟨pipeline, present, unheard, rfl⟩ := fail_cases taken
    exact Nat.add_lt_add_left (sum_work_set _ present (work_heard unheard)) _

/-- Only a call enqueues. -/
theorem enqueued_step {action : Action P D E} (own : action.isOwn)
    (taken : step setting s action = some after) : after.enqueued = s.enqueued := by
  cases action with
  | publish fields => exact absurd own not_false
  | publishBatch given => exact absurd own not_false
  | foreign id data => exact absurd own not_false
  | immediate =>
    rw [(immediate_cases taken).2, flush_enqueued]
  | execute place result =>
    obtain ⟨_, _, _, _, _, _, _, ends⟩ := execute_cases taken
    rcases ends with ⟨_, _, rfl⟩ | ⟨_, _, _, rfl⟩ <;> rfl
  | lose place =>
    obtain ⟨_, _, _, rfl⟩ := lose_cases taken
    rfl
  | reply place =>
    obtain ⟨_, _, _, _, rfl⟩ := reply_cases taken
    rfl
  | fail place error =>
    obtain ⟨_, _, _, rfl⟩ := fail_cases taken
    rfl

/-- No turn is left that is neither a call nor another writer's. -/
def Idle (setting : Setting P D E) (s : State P D E) : Prop :=
  ∀ action : Action P D E, action.isOwn → step setting s action = none

/-- An idle producer has nothing queued. -/
theorem Idle.empty (idle : Idle setting s) (scheduled : Scheduled s) : s.pendingQueue = [] := by
  by_contra queued
  have outstanding := scheduled.outstanding (scheduled.flagged queued)
  have stuck := idle .immediate trivial
  simp [step, outstanding] at stuck

/-- An idle producer has heard of every pipeline. -/
theorem Idle.heard (idle : Idle setting s) : unsettled s = [] := by
  apply List.filter_eq_nil_iff.mpr
  intro pipeline listed
  obtain ⟨place, present⟩ := List.mem_iff_getElem?.mp listed
  have stuck := idle (.fail place none) trivial
  cases heard : pipeline.settled with
  | true => simp
  | false => simp [step, fail, present, heard] at stuck

/-- A promise resolved with an id is in the ledger. -/
theorem mem_of_messageId {settled : List (Nat × Except E Nat)} {promise id : Nat}
    (found : messageId settled promise = some id) : (promise, Except.ok id) ∈ settled := by
  unfold messageId at found
  split at found
  · rename_i known present
    obtain rfl := Option.some.inj found
    obtain ⟨before, rest, whole, _⟩ := List.lookup_eq_some_iff.mp present
    rw [whole]
    exact List.mem_append_right _ List.mem_cons_self
  · cases found

/-- Rows one by one: what stands at a place on one side stands there on the other. -/
theorem forall₂_at {A : Type u} {B : Type v} {related : A → B → Prop} {rows : List A}
    {others : List B} (all : List.Forall₂ related rows others) {place : Nat} {other : B}
    (present : others[place]? = some other) :
    ∃ row, rows[place]? = some row ∧ related row other := by
  obtain ⟨inside, found⟩ := List.getElem?_eq_some_iff.mp present
  have alsoInside : place < rows.length := by
    rw [all.length_eq]
    exact inside
  have pair := all.get alsoInside inside
  simp only [List.get_eq_getElem, found] at pair
  exact ⟨rows[place], List.getElem?_eq_getElem alsoInside, pair⟩

/-- `Promise.all` has the value of each promise, in order. -/
theorem messageIds_each {settled : List (Nat × Except E Nat)} {promises ids : List Nat}
    (all : promises.mapM (messageId settled) = some ids) :
    List.Forall₂ (fun promise id => messageId settled promise = some id) promises ids := by
  induction promises generalizing ids with
  | nil =>
    obtain rfl : [] = ids := Option.some.inj all
    exact .nil
  | cons promise rest inductionHypothesis =>
    rw [List.mapM_cons] at all
    cases first : messageId settled promise with
    | none => simp [first] at all
    | some id =>
      cases others : rest.mapM (messageId settled) with
      | none => simp [first, others] at all
      | some remaining =>
        obtain rfl : id :: remaining = ids := by simpa [first, others] using all
        exact .cons first (inductionHypothesis others)

/-- The entry of the stream that holds an event's own envelope. -/
def HoldsEvent (setting : Setting P D E) (s : State P D E) (id : Nat) (event : StreamEvent P) :
    Prop :=
  ∃ entry ∈ s.stream, entry.id = id ∧ setting.stringify event = .ok entry.data

/-- What holds of a producer at all times. -/
structure Orderly (setting : Setting P D E) (s : State P D E) : Prop where
  scheduled : s.pendingQueue ≠ [] → s.flushScheduled = true ∧ s.immediates ≠ 0
  settledOnce : (s.settled.map Prod.fst).Nodup
  envelopes : ∀ promise id, (promise, Except.ok id) ∈ s.settled →
    ∃ event, s.enqueued[promise]? = some event ∧ HoldsEvent setting s id event
  distinct : (s.stream.map Entry.id).Nodup
  ofPublish : ∀ entry ∈ s.stream, ∀ promise, entry.publish = some promise →
    ∃ event, s.enqueued[promise]? = some event ∧ setting.stringify event = .ok entry.data
  inOrder : (s.stream.filterMap Entry.publish).Pairwise (· < ·)
  aligned : ∀ call ∈ s.batches, ∀ ids, call.messageIds s.settled = some ids →
    ids.length = call.given.length ∧ call.eventIds.length = call.given.length ∧
      ∀ (index : Nat) fields, call.given[index]? = some fields →
        ∃ id event, ids[index]? = some id ∧ call.eventIds[index]? = some event.id ∧
          event.fields = fields ∧ HoldsEvent setting s id event

/-- What was written for a promise is the envelope of its event. -/
theorem Books.holds (books : Books setting s) {promise id : Nat} {event : StreamEvent P}
    (present : s.enqueued[promise]? = some event)
    (resolved : (promise, Except.ok id) ∈ s.settled) : HoldsEvent setting s id event := by
  obtain ⟨entry, listed, same, own⟩ := books.matched promise id resolved
  obtain ⟨known, found, text⟩ := books.stored entry listed promise own
  rw [present] at found
  rw [← Option.some.inj found] at text
  exact ⟨entry, listed, same, text⟩

/-- A promise in the ledger was made for an event. -/
theorem Books.event_of_settled (books : Books setting s) {entry : Nat × Except E Nat}
    (listed : entry ∈ s.settled) : ∃ event, s.enqueued[entry.1]? = some event := by
  have inside : entry.1 < s.enqueued.length := books.account.bounded listed
  exact ⟨_, List.getElem?_eq_getElem inside⟩

/-- The promises with an entry are among those made, in their order. -/
theorem written_sublist (batch : List (PendingPublishItem P)) (results : List (Except E Nat)) :
    ((outcomes batch results).filterMap resolvedPromise).Sublist (promisesOf batch) := by
  induction batch generalizing results with
  | nil => simp [outcomes]
  | cons item rest inductionHypothesis =>
    cases results with
    | nil => simp [outcomes]
    | cons result results =>
      have shorter := inductionHypothesis results
      cases result with
      | ok id => exact shorter.cons_cons item.promise
      | error error => exact shorter.cons item.promise

/-- The producer's entries stand in the order their events were enqueued. -/
theorem Books.in_order (books : Books setting s) :
    (s.stream.filterMap Entry.publish).Pairwise (· < ·) := by
  have among : (s.pipelines.flatMap Pipeline.written).Sublist
      (s.pipelines.flatMap fun pipeline => promisesOf pipeline.batch) := by
    induction s.pipelines with
    | nil => exact List.Sublist.refl _
    | cons pipeline rest inductionHypothesis =>
      exact (written_sublist pipeline.batch pipeline.results).append inductionHypothesis
  have made : (s.pipelines.flatMap fun pipeline => promisesOf pipeline.batch) ++
      promisesOf s.pendingQueue = List.range s.enqueued.length := by
    rw [← promisesOf_numbered, ← books.ordered]
    simp only [promisesOf, List.map_append, List.map_flatMap]
  have rising : ((s.pipelines.flatMap fun pipeline => promisesOf pipeline.batch) ++
      promisesOf s.pendingQueue).Pairwise (· < ·) := by
    rw [made]
    exact List.pairwise_lt_range
  rw [books.own]
  exact (List.pairwise_append.mp rising).1.sublist among

/-- A batch whose promises are all resolved has its ids aligned with what it was given. -/
theorem Books.aligned (books : Books setting s) {call : BatchCall P} (listed : call ∈ s.batches)
    {ids : List Nat} (all : call.messageIds s.settled = some ids) :
    ids.length = call.given.length ∧ call.eventIds.length = call.given.length ∧
      ∀ (index : Nat) fields, call.given[index]? = some fields →
        ∃ id event, ids[index]? = some id ∧ call.eventIds[index]? = some event.id ∧
          event.fields = fields ∧ HoldsEvent setting s id event := by
  obtain ⟨events, given, eventIds, numbers⟩ := books.batches call listed
  have resolved := messageIds_each all
  refine ⟨?_, ?_, ?_⟩
  · rw [← resolved.length_eq, numbers.length_eq, given, List.length_map]
  · rw [given, eventIds, List.length_map, List.length_map]
  · intro index fields present
    rw [given, List.getElem?_map] at present
    obtain ⟨event, found, same⟩ := Option.map_eq_some_iff.mp present
    obtain ⟨promise, numbered, enqueued⟩ := forall₂_at numbers found
    obtain ⟨id, known, settled⟩ := forall₂_at resolved.flip numbered
    have eventId : call.eventIds[index]? = some event.id := by
      rw [eventIds, List.getElem?_map, found]
      rfl
    exact ⟨id, event, known, eventId, same, books.holds enqueued (mem_of_messageId settled)⟩

/-- The schedule and the books hold in every state. -/
theorem kept (run : Reaches (step setting) anyStep {} s) : Scheduled s ∧ Books setting s := by
  apply run.invariant
  · exact ⟨⟨fun queued => absurd rfl queued, fun flagged => absurd flagged Bool.false_ne_true⟩,
      .start setting⟩
  · intro before action after ⟨scheduled, books⟩ _ taken
    exact ⟨scheduled.step taken, books.step taken⟩

/-- Whatever is published, whichever commands and pipelines fail, and in whatever order immediates,
commands and answers come: a queued event is to be flushed; no promise is settled twice; one that
is resolved has the id of the entry with its own envelope; a batch that succeeds has its ids
aligned with what it was given; and the producer's entries stand in the order their events were
enqueued. Left alone, the producer comes to rest after a bounded number of turns, with every
promise settled. -/
theorem publishes_settled (setting : Setting P D E) {s : State P D E}
    (run : Reaches (step setting) anyStep {} s) :
    Orderly setting s ∧
      ∀ actions later, (∀ action ∈ actions, Action.isOwn action) →
        perform (step setting) s actions = some later →
          actions.length ≤ work s ∧ later.enqueued = s.enqueued ∧
            (Idle setting later →
              ∀ promise < s.enqueued.length, ∃! value, (promise, value) ∈ later.settled) := by
  obtain ⟨scheduled, books⟩ := kept run
  constructor
  · constructor
    · intro queued
      have flagged := scheduled.flagged queued
      exact ⟨flagged, scheduled.outstanding flagged⟩
    · exact books.account.settled_nodup
    · intro promise id resolved
      obtain ⟨event, present⟩ := books.event_of_settled resolved
      exact ⟨event, present, books.holds present resolved⟩
    · exact List.pairwise_map.mpr (books.rising.imp Nat.ne_of_lt)
    · exact books.stored
    · exact books.in_order
    · exact fun call listed ids all => books.aligned listed all
  · intro actions later all performed
    have bounded := perform_bounded work (fun _ _ _ => work_step) actions all performed
    have same : later.enqueued = s.enqueued := by
      apply (reaches_kind actions all performed).invariant
      · rfl
      · intro before action after unchanged own taken
        exact (enqueued_step own taken).trans unchanged
    refine ⟨by omega, same, fun idle => ?_⟩
    obtain ⟨laterScheduled, laterBooks⟩ := kept (run.trans (reaches_any actions performed))
    have account := laterBooks.account
    have nonePending : pending later = [] := by
      simp [pending, idle.heard, idle.empty laterScheduled, promisesOf]
    rw [nonePending, same] at account
    intro promise inside
    obtain ⟨value, listed⟩ := account.complete inside
    exact ⟨value, listed, fun other also => account.value_unique also listed⟩

/-- Events that are numbers, written as they are; one of them has no text. -/
def plainNumbers : Setting Nat Nat String where
  randomUUID := fun _ => []
  now := fun _ => []
  stringify := fun event => if event.fields = 13 then .error "no text" else .ok event.fields
  executionFailed := "no results"

/-- A batch of two goes out, its second command fails, and one more event goes out behind it. -/
def twoPipelines : List (Action Nat Nat String) :=
  [.publishBatch [10, 20], .immediate, .execute 0 (.ok 5), .publish 30, .immediate,
    .execute 0 (.error "full"), .foreign 6 99, .execute 1 (.ok 7), .reply 1, .reply 0]

/-- What was run there is orderly. -/
theorem publishes_settled_two :
    Orderly plainNumbers ((perform (step plainNumbers) {} twoPipelines).getD {}) :=
  (publishes_settled plainNumbers (reaches_any_performed twoPipelines rfl)).1

end Notifkit.Queue.StreamProducer
