import Notifkit.Queue.StreamProducer

/-!
# The books of the stream producer

The events enqueued are, in order, those of the pipelines and those still
queued. Pipelines take turns: where one has something left to execute, nothing
behind it was begun. So what the producer's entries were written for is, in the
order of the stream, what the pipelines have written.

A promise is resolved only with the id of the entry that was written for it, and
what was written for it is the text of its own event.
-/

namespace Notifkit.Queue.StreamProducer

open Runs Promises

universe u v w
variable {P : Type u} {D : Type v} {E : Type w}

/-- The events enqueued, each with the number of its promise. -/
def numbered (enqueued : List (StreamEvent P)) : List (PendingPublishItem P) :=
  enqueued.zipIdx.map fun entry => ⟨entry.1, entry.2⟩

/-- One more event has the next number. -/
theorem numbered_append (enqueued : List (StreamEvent P)) (event : StreamEvent P) :
    numbered (enqueued ++ [event]) = numbered enqueued ++ [⟨event, enqueued.length⟩] := by
  simp [numbered, List.zipIdx_append]

/-- The promises of some events. -/
def promisesOf (batch : List (PendingPublishItem P)) : List Nat :=
  batch.map PendingPublishItem.promise

/-- The promises of the events enqueued are the numbers in order. -/
theorem promisesOf_numbered (enqueued : List (StreamEvent P)) :
    promisesOf (numbered enqueued) = List.range enqueued.length := by
  have seconds : enqueued.zipIdx.map Prod.snd = List.range' 0 enqueued.length :=
    List.zipIdx_map_snd 0 enqueued
  rw [List.range_eq_range', ← seconds, promisesOf, numbered, List.map_map]
  rfl

/-- A numbered event is the one enqueued at its number. -/
theorem mem_numbered {enqueued : List (StreamEvent P)} {item : PendingPublishItem P}
    (listed : item ∈ numbered enqueued) : enqueued[item.promise]? = some item.event := by
  obtain ⟨⟨event, place⟩, member, rfl⟩ := List.mem_map.mp listed
  exact List.mem_zipIdx_iff_getElem?.mp member

/-- The pipelines nothing was heard of yet. -/
def unsettled (s : State P D E) : List (Pipeline P D E) :=
  s.pipelines.filter fun pipeline => !pipeline.settled

/-- The promises not settled yet: those of such pipelines and those of the queue. -/
def pending (s : State P D E) : List Nat :=
  (unsettled s).flatMap (fun pipeline => promisesOf pipeline.batch) ++ promisesOf s.pendingQueue

/-- The promise of an entry of a ledger that was resolved. -/
def resolvedPromise : Nat × Except E Nat → Option Nat
  | (promise, .ok _) => some promise
  | (_, .error _) => none

/-- The promises a pipeline has written an entry for. -/
def Pipeline.written (pipeline : Pipeline P D E) : List Nat :=
  (outcomes pipeline.batch pipeline.results).filterMap resolvedPromise

/-- Entry written for a promise, under an id. -/
def WrittenFor (stream : List (Entry D)) (promise id : Nat) : Prop :=
  ∃ entry ∈ stream, entry.id = id ∧ entry.publish = some promise

/-- What holds of each pipeline: its commands are the texts of its batch, unless nothing was sent;
there are no more results than commands; and a result with an id has its entry. -/
structure Pipeline.Sound (setting : Setting P D E) (stream : List (Entry D))
    (pipeline : Pipeline P D E) : Prop where
  texts : (pipeline.lost = true ∧ pipeline.settled = true ∧ pipeline.commands = []) ∨
    List.Forall₂ (fun item data => setting.stringify item.event = .ok data)
      pipeline.batch pipeline.commands
  inside : pipeline.results.length ≤ pipeline.commands.length
  entered : ∀ promise id, (promise, Except.ok id) ∈ outcomes pipeline.batch pipeline.results →
    WrittenFor stream promise id

/-- A call of `publishBatch` collected the ids and promises of the events it enqueued. -/
def BatchCall.Made (call : BatchCall P) (enqueued : List (StreamEvent P)) : Prop :=
  ∃ events : List (StreamEvent P), call.given = events.map StreamEvent.fields ∧
    call.eventIds = events.map StreamEvent.id ∧
    List.Forall₂ (fun promise event => enqueued[promise]? = some event) call.promises events

/-- The books of a producer: where the events, the entries and the promises stand. -/
structure Books (setting : Setting P D E) (s : State P D E) : Prop where
  ordered : s.pipelines.flatMap Pipeline.batch ++ s.pendingQueue = numbered s.enqueued
  sound : ∀ pipeline ∈ s.pipelines, pipeline.Sound setting s.stream
  -- Where a pipeline has something left, nothing behind it was begun.
  turns : s.pipelines.Pairwise fun pipeline later =>
    pipeline.closed = false → later.results = []
  own : s.stream.filterMap Entry.publish = s.pipelines.flatMap Pipeline.written
  rising : s.stream.Pairwise fun entry later => entry.id < later.id
  stored : ∀ entry ∈ s.stream, ∀ promise, entry.publish = some promise →
    ∃ event, s.enqueued[promise]? = some event ∧ setting.stringify event = .ok entry.data
  account : Accounted s.enqueued.length s.settled (pending s)
  matched : ∀ promise id, (promise, Except.ok id) ∈ s.settled → WrittenFor s.stream promise id
  batches : ∀ call ∈ s.batches, call.Made s.enqueued

/-- Nothing was published yet. -/
theorem Books.start (setting : Setting P D E) : Books setting ({} : State P D E) where
  ordered := rfl
  sound := by simp
  turns := List.Pairwise.nil
  own := rfl
  rising := List.Pairwise.nil
  stored := by simp
  account := Accounted.none_made
  matched := by simp
  batches := by simp

variable {setting : Setting P D E} {s after : State P D E}

/-- The books do not look at what is scheduled. -/
theorem Books.rescheduled (books : Books setting s) (scheduled : Bool) (immediates : Nat) :
    Books setting { s with flushScheduled := scheduled, immediates := immediates } :=
  ⟨books.ordered, books.sound, books.turns, books.own, books.rising, books.stored, books.account,
    books.matched, books.batches⟩

/-- What was made stays made when more is enqueued. -/
theorem BatchCall.Made.append {call : BatchCall P} {enqueued : List (StreamEvent P)}
    (made : call.Made enqueued) (event : StreamEvent P) : call.Made (enqueued ++ [event]) := by
  obtain ⟨events, given, ids, numbers⟩ := made
  refine ⟨events, given, ids, numbers.imp fun promise listed present => ?_⟩
  exact Tables.row_append.mpr (.inl present)

/-- A pushed event is the last one, and its promise is pending. -/
theorem Books.push (books : Books setting s) (event : StreamEvent P) :
    Books setting (s.push event) where
  ordered := by
    have before := books.ordered
    simp only [State.push, numbered_append, ← before, List.append_assoc]
  sound := books.sound
  turns := books.turns
  own := books.own
  rising := books.rising
  stored := by
    intro entry listed promise wrote
    obtain ⟨known, present, text⟩ := books.stored entry listed promise wrote
    exact ⟨known, Tables.row_append.mpr (.inl present), text⟩
  account := by
    have made := books.account.make
    have places : pending (s.push event) = pending s ++ [s.enqueued.length] := by
      simp [pending, unsettled, State.push, promisesOf]
    rw [places]
    simpa [State.push] using made
  matched := books.matched
  batches := by
    intro call listed
    exact (books.batches call listed).append event

/-- Texts that all events of a batch have, one by one. -/
theorem forall₂_of_mapM {A : Type u} {B : Type v} {f : A → Except E B} {items : List A}
    {texts : List B} (all : items.mapM f = .ok texts) :
    List.Forall₂ (fun item text => f item = .ok text) items texts := by
  induction items generalizing texts with
  | nil =>
    obtain rfl : [] = texts := Except.ok.inj all
    exact .nil
  | cons item rest inductionHypothesis =>
    rw [List.mapM_cons] at all
    cases first : f item with
    | error error => simp [first, Bind.bind, Except.bind] at all
    | ok text =>
      cases others : rest.mapM f with
      | error error => simp [first, others, Bind.bind, Except.bind] at all
      | ok remaining =>
        obtain rfl : text :: remaining = texts := by
          simpa [first, others, Bind.bind, Except.bind, Pure.pure, Except.pure] using all
        exact .cons first (inductionHypothesis others)

/-- A flush finds nothing, sends the queue as a pipeline, or rejects it. -/
theorem flush_cases (setting : Setting P D E) (s : State P D E) :
    (s.pendingQueue = [] ∧ flush setting s = { s with flushScheduled := false }) ∨
    (∃ commands, s.pendingQueue.length ≠ 0 ∧
      s.pendingQueue.mapM (fun item => setting.stringify item.event) = .ok commands ∧
      flush setting s = { s with
        flushScheduled := false
        pendingQueue := []
        pipelines := s.pipelines ++ [{ batch := s.pendingQueue, commands := commands }] }) ∨
    (∃ error, flush setting s = { s with
        flushScheduled := false
        pendingQueue := []
        pipelines := s.pipelines ++
          [{ batch := s.pendingQueue, commands := [], lost := true, settled := true }]
        settled := settleAll s.settled (rejections s.pendingQueue error) }) := by
  by_cases nothing : s.pendingQueue.length = 0
  · have empty : s.pendingQueue = [] := List.length_eq_zero_iff.mp nothing
    left
    refine ⟨empty, ?_⟩
    simp [flush, empty]
  · cases texts : s.pendingQueue.mapM (fun item => setting.stringify item.event) with
    | ok commands =>
      right
      left
      exact ⟨commands, nothing, rfl, by simp only [flush, nothing, ↓reduceIte, texts]⟩
    | error error =>
      right
      right
      exact ⟨error, by simp only [flush, nothing, ↓reduceIte, texts]⟩

/-- The promises a rejection settles are those of the batch. -/
theorem rejections_promises (batch : List (PendingPublishItem P)) (error : E) :
    (rejections batch error).map Prod.fst = promisesOf batch := by
  rw [rejections, List.map_map]
  rfl

/-- A pipeline just appended was not begun. -/
theorem written_unbegun {pipeline : Pipeline P D E} (unbegun : pipeline.results = []) :
    pipeline.written = [] := by
  simp [Pipeline.written, outcomes, unbegun]

/-- No rejection names an id. -/
theorem not_resolved_by_rejection {batch : List (PendingPublishItem P)} {error : E}
    {promise id : Nat} (listed : (promise, Except.ok id) ∈ rejections batch error) : False := by
  obtain ⟨_, _, same⟩ := List.mem_map.mp listed
  cases congrArg Prod.snd same

/-- A pipeline that was not begun takes its turn after the others. -/
theorem turns_append {pipelines : List (Pipeline P D E)} {pipeline : Pipeline P D E}
    (turns : pipelines.Pairwise fun pipeline later =>
      pipeline.closed = false → later.results = []) (unbegun : pipeline.results = []) :
    (pipelines ++ [pipeline]).Pairwise fun pipeline later =>
      pipeline.closed = false → later.results = [] := by
  rw [List.pairwise_append]
  refine ⟨turns, List.pairwise_singleton _ _, ?_⟩
  intro earlier _ later member _
  rw [List.mem_singleton.mp member]
  exact unbegun

/-- A flush keeps the books: the queued events become a pipeline, sent or rejected. -/
theorem Books.flush (books : Books setting s) : Books setting (flush setting s) := by
  rcases flush_cases setting s with ⟨_, same⟩ | ⟨commands, _, texts, same⟩ | ⟨error, same⟩
  · rw [same]
    exact books.rescheduled false s.immediates
  · rw [same]
    refine ⟨?_, ?_, turns_append books.turns rfl, ?_, books.rising, books.stored, ?_,
      books.matched, books.batches⟩
    · simpa using books.ordered
    · apply Tables.all_append books.sound
      exact ⟨.inr (forall₂_of_mapM texts), Nat.zero_le _, by simp [outcomes]⟩
    · have unbegun : Pipeline.written
          ({ batch := s.pendingQueue, commands := commands } : Pipeline P D E) = [] :=
        written_unbegun rfl
      simpa [unbegun] using books.own
    · simpa [pending, unsettled, promisesOf] using books.account
  · have taken : (pending s).Perm ((rejections s.pendingQueue error).map Prod.fst ++
        (unsettled s).flatMap fun pipeline => promisesOf pipeline.batch) := by
      rw [rejections_promises]
      exact List.perm_append_comm
    obtain ⟨added, account⟩ := books.account.settled_all taken
    rw [same, added]
    refine ⟨?_, ?_, turns_append books.turns rfl, ?_, books.rising, books.stored, ?_, ?_,
      books.batches⟩
    · simpa using books.ordered
    · apply Tables.all_append books.sound
      exact ⟨.inl ⟨rfl, rfl, rfl⟩, Nat.le_refl _, by simp [outcomes]⟩
    · have unbegun : Pipeline.written
          ({ batch := s.pendingQueue, commands := [], lost := true, settled := true } :
            Pipeline P D E) = [] := written_unbegun rfl
      simpa [unbegun] using books.own
    · simpa [pending, unsettled, promisesOf] using account
    · intro promise id listed
      rcases List.mem_append.mp listed with old | new
      · exact books.matched promise id old
      · exact absurd new not_resolved_by_rejection

/-- An enqueued event is in the books. -/
theorem Books.enqueue (books : Books setting s) (event : StreamEvent P) :
    Books setting (enqueue setting s event) := by
  have pushed : Books setting (s.push event) := books.push event
  unfold StreamProducer.enqueue
  dsimp only
  split
  · exact pushed.flush
  · split
    · exact pushed
    · exact pushed.rescheduled true _

/-- Flushing enqueues nothing. -/
theorem flush_enqueued (setting : Setting P D E) (s : State P D E) :
    (flush setting s).enqueued = s.enqueued := by
  rcases flush_cases setting s with ⟨_, same⟩ | ⟨_, _, _, same⟩ | ⟨_, same⟩ <;> rw [same]

/-- Enqueuing adds the event at the end. -/
theorem enqueue_enqueued (setting : Setting P D E) (s : State P D E) (event : StreamEvent P) :
    (enqueue setting s event).enqueued = s.enqueued ++ [event] := by
  unfold enqueue
  dsimp only
  split
  · rw [flush_enqueued]
    rfl
  · split <;> rfl

/-- The loop of `publishBatch` keeps the books, adds to what was enqueued, and collects the ids and
promises of what it adds. -/
theorem Books.publishAll (books : Books setting s) (given : List P) :
    Books setting (publishAll setting s given).1 ∧
      s.enqueued <+: (publishAll setting s given).1.enqueued ∧
      BatchCall.Made ⟨given, (StreamProducer.publishAll setting s given).2.1,
        (StreamProducer.publishAll setting s given).2.2⟩
        (StreamProducer.publishAll setting s given).1.enqueued := by
  induction given generalizing s with
  | nil => exact ⟨books, List.prefix_refl _, [], rfl, rfl, .nil⟩
  | cons fields rest inductionHypothesis =>
    obtain ⟨restBooks, longer, events, given, ids, numbers⟩ :=
      inductionHypothesis (books.enqueue (stamp setting s fields))
    have added := enqueue_enqueued setting s (stamp setting s fields)
    rw [added] at longer
    have first : (StreamProducer.publishAll setting
        (StreamProducer.enqueue setting s (stamp setting s fields)) rest).1.enqueued[
          s.enqueued.length]? = some (stamp setting s fields) := by
      obtain ⟨more, whole⟩ := longer
      rw [← whole]
      simp
    refine ⟨restBooks, (List.prefix_append _ _).trans longer,
      stamp setting s fields :: events, ?_, ?_, .cons first numbers⟩
    · exact congrArg (List.cons fields) given
    · exact congrArg (List.cons (stamp setting s fields).id) ids

/-- A call of `publishBatch` keeps the books. -/
theorem Books.publishBatch (books : Books setting s) (given : List P) :
    Books setting (publishBatch setting s given) := by
  obtain ⟨after, _, made⟩ := books.publishAll given
  exact ⟨after.ordered, after.sound, after.turns, after.own, after.rising, after.stored,
    after.account, after.matched, Tables.all_append after.batches made⟩

/-- A command is executed where a pipeline has one left and every earlier one has none. One that
succeeds appends its entry. -/
theorem execute_cases {place : Nat} {result : Except E Nat}
    (taken : execute s place result = some after) :
    ∃ pipeline item data, s.pipelines[place]? = some pipeline ∧ pipeline.lost = false ∧
      (∀ earlier ∈ s.pipelines.take place, earlier.closed = true) ∧
      pipeline.next = some (item, data) ∧
      ((∃ error, result = .error error ∧ after = { s with
          pipelines := s.pipelines.set place
            { pipeline with results := pipeline.results ++ [.error error] } }) ∨
        ∃ id, result = .ok id ∧ NewId s.stream id ∧ after = { s with
          pipelines := s.pipelines.set place
            { pipeline with results := pipeline.results ++ [.ok id] }
          stream := s.stream ++ [⟨id, data, some item.promise⟩] }) := by
  unfold execute at taken
  cases present : s.pipelines[place]? with
  | none => simp [present] at taken
  | some pipeline =>
    by_cases stopped : (pipeline.lost || !(s.pipelines.take place).all Pipeline.closed) = true
    · simp [present, stopped] at taken
    · have open' : pipeline.lost = false ∧
          ∀ earlier ∈ s.pipelines.take place, earlier.closed = true := by
        simpa using stopped
      simp only [present, stopped, Bool.false_eq_true, ↓reduceIte] at taken
      cases left : pipeline.next with
      | none => simp [left] at taken
      | some command =>
        obtain ⟨item, data⟩ := command
        refine ⟨pipeline, item, data, rfl, open'.1, open'.2, left, ?_⟩
        cases result with
        | error error =>
          simp only [left, Option.some.injEq] at taken
          exact .inl ⟨error, rfl, taken.symm⟩
        | ok id =>
          by_cases new : NewId s.stream id
          · simp only [left, new, ↓reduceIte, Option.some.injEq] at taken
            exact .inr ⟨id, rfl, new, taken.symm⟩
          · simp [left, new] at taken

/-- A pipeline loses its connection once. -/
theorem lose_cases {place : Nat} (taken : lose s place = some after) :
    ∃ pipeline, s.pipelines[place]? = some pipeline ∧ pipeline.lost = false ∧
      after = { s with pipelines := s.pipelines.set place { pipeline with lost := true } } := by
  unfold lose at taken
  cases present : s.pipelines[place]? with
  | none => simp [present] at taken
  | some pipeline =>
    cases gone : pipeline.lost with
    | true => simp [present, gone] at taken
    | false =>
      simp only [present, gone, Bool.false_eq_true, ↓reduceIte, Option.some.injEq] at taken
      exact ⟨pipeline, rfl, gone, taken.symm⟩

/-- A pipeline's results arrive once, and all of them. -/
theorem reply_cases {place : Nat} (taken : reply s place = some after) :
    ∃ pipeline, s.pipelines[place]? = some pipeline ∧ pipeline.settled = false ∧
      pipeline.commands.length ≤ pipeline.results.length ∧
      after = settlePipeline s place pipeline (outcomes pipeline.batch pipeline.results) := by
  unfold reply at taken
  cases present : s.pipelines[place]? with
  | none => simp [present] at taken
  | some pipeline =>
    by_cases waits : (pipeline.settled || decide (pipeline.results.length <
        pipeline.commands.length)) = true
    · simp [present, waits] at taken
    · have heard : pipeline.settled = false ∧
          pipeline.commands.length ≤ pipeline.results.length := by
        simpa using waits
      simp only [present, waits, Bool.false_eq_true, ↓reduceIte, Option.some.injEq] at taken
      exact ⟨pipeline, rfl, heard.1, heard.2, taken.symm⟩

/-- A pipeline fails as a whole only before anything was heard of it. -/
theorem fail_cases {place : Nat} {error : Option E}
    (taken : fail setting s place error = some after) :
    ∃ pipeline, s.pipelines[place]? = some pipeline ∧ pipeline.settled = false ∧
      after = settlePipeline s place pipeline
        (rejections pipeline.batch (error.getD setting.executionFailed)) := by
  unfold fail at taken
  cases present : s.pipelines[place]? with
  | none => simp [present] at taken
  | some pipeline =>
    cases heard : pipeline.settled with
    | true => simp [present, heard] at taken
    | false =>
      simp only [present, heard, Bool.false_eq_true, ↓reduceIte, Option.some.injEq] at taken
      exact ⟨pipeline, rfl, heard, taken.symm⟩

/-- One more result is the outcome of the next event of the batch. -/
theorem outcomes_append {batch : List (PendingPublishItem P)} {results : List (Except E Nat)}
    {item : PendingPublishItem P} (next : batch[results.length]? = some item)
    (result : Except E Nat) :
    outcomes batch (results ++ [result]) = outcomes batch results ++ [(item.promise, result)] := by
  induction results generalizing batch with
  | nil =>
    cases batch with
    | nil => simp at next
    | cons first rest =>
      obtain rfl : first = item := by simpa using next
      simp [outcomes]
  | cons known results inductionHypothesis =>
    cases batch with
    | nil => simp at next
    | cons first rest =>
      have shorter : outcomes rest (results ++ [result]) =
          outcomes rest results ++ [(item.promise, result)] :=
        inductionHypothesis (by simpa using next)
      simp only [outcomes] at shorter
      simp [outcomes, shorter]

/-- What is written next is the event and the text at the place of the next result. -/
theorem next_eq_some {pipeline : Pipeline P D E} {item : PendingPublishItem P} {data : D}
    (next : pipeline.next = some (item, data)) :
    pipeline.batch[pipeline.results.length]? = some item ∧
      pipeline.commands[pipeline.results.length]? = some data := by
  exact List.getElem?_zip_eq_some.mp next

/-- The same events stand in the pipelines when one of them is written again with its batch. -/
theorem batches_set {pipelines : List (Pipeline P D E)} {place : Nat}
    {pipeline : Pipeline P D E} (new : Pipeline P D E)
    (present : pipelines[place]? = some pipeline) (same : new.batch = pipeline.batch) :
    (pipelines.set place new).flatMap Pipeline.batch = pipelines.flatMap Pipeline.batch := by
  obtain ⟨before, rest, whole, _, written⟩ := Tables.split_set present
  rw [written, whole]
  simp [same]

/-- The same promises are pending when a pipeline is written again with its batch, and nothing more
was heard of it. -/
theorem pending_set {place : Nat} {pipeline : Pipeline P D E} (new : Pipeline P D E)
    (present : s.pipelines[place]? = some pipeline) (same : new.batch = pipeline.batch)
    (unheard : new.settled = pipeline.settled) :
    ((s.pipelines.set place new).filter fun pipeline => !pipeline.settled).flatMap
      (fun pipeline => promisesOf pipeline.batch) ++ promisesOf s.pendingQueue = pending s := by
  obtain ⟨before, rest, whole, _, written⟩ := Tables.split_set present
  unfold pending unsettled
  rw [written, whole]
  simp only [List.filter_append, List.filter_cons, unheard]
  cases pipeline.settled with
  | true => rfl
  | false => simp [same]

/-- Writing a pipeline again keeps the turns: it has no more left than before, and either it has as
many results or its turn has come. -/
theorem turns_set {pipelines : List (Pipeline P D E)} {place : Nat}
    {pipeline new : Pipeline P D E} (present : pipelines[place]? = some pipeline)
    (turns : pipelines.Pairwise fun pipeline later =>
      pipeline.closed = false → later.results = [])
    (left : new.closed = false → pipeline.closed = false)
    (turn : new.results = pipeline.results ∨
      ∀ earlier ∈ pipelines.take place, earlier.closed = true) :
    (pipelines.set place new).Pairwise fun pipeline later =>
      pipeline.closed = false → later.results = [] := by
  obtain ⟨before, rest, whole, first, written⟩ := Tables.split_set present
  rw [first] at turn
  rw [written]
  rw [whole, List.pairwise_append, List.pairwise_cons] at turns
  rw [List.pairwise_append, List.pairwise_cons]
  obtain ⟨among, ⟨behind, others⟩, across⟩ := turns
  refine ⟨among, ⟨fun later member opened => behind later member (left opened), others⟩, ?_⟩
  intro earlier member later listed opened
  cases listed with
  | head =>
    cases turn with
    | inl same =>
      rw [same]
      exact across earlier member pipeline List.mem_cons_self opened
    | inr done =>
      have closed := done earlier member
      rw [opened] at closed
      cases closed
  | tail _ behindListed =>
    exact across earlier member later (List.mem_cons_of_mem _ behindListed) opened

/-- What was written for a promise stays written. -/
theorem WrittenFor.mono {stream later : List (Entry D)} {promise id : Nat}
    (wrote : WrittenFor stream promise id) (more : stream ⊆ later) :
    WrittenFor later promise id := by
  obtain ⟨entry, listed, same, own⟩ := wrote
  exact ⟨entry, more listed, same, own⟩

/-- A sound pipeline stays sound when more is written. -/
theorem Pipeline.Sound.mono {pipeline : Pipeline P D E} {stream later : List (Entry D)}
    (sound : pipeline.Sound setting stream) (more : stream ⊆ later) :
    pipeline.Sound setting later :=
  ⟨sound.texts, sound.inside, fun promise id listed => (sound.entered promise id listed).mono more⟩

/-- What is written next is the text of its event. -/
theorem Pipeline.Sound.text {pipeline : Pipeline P D E} {stream : List (Entry D)}
    (sound : pipeline.Sound setting stream) {item : PendingPublishItem P} {data : D}
    (next : pipeline.next = some (item, data)) :
    setting.stringify item.event = .ok data ∧
      pipeline.results.length < pipeline.commands.length ∧
      List.Forall₂ (fun item data => setting.stringify item.event = .ok data)
        pipeline.batch pipeline.commands := by
  obtain ⟨ofBatch, ofCommands⟩ := next_eq_some next
  obtain ⟨insideBatch, first⟩ := List.getElem?_eq_some_iff.mp ofBatch
  obtain ⟨insideCommands, second⟩ := List.getElem?_eq_some_iff.mp ofCommands
  rcases sound.texts with ⟨_, _, nothing⟩ | texts
  · rw [nothing] at insideCommands
    cases insideCommands
  · have text := texts.get insideBatch insideCommands
    simp only [List.get_eq_getElem, first, second] at text
    exact ⟨text, insideCommands, texts⟩

/-- A pipeline with something to execute is not closed. -/
theorem open_of_next {pipeline : Pipeline P D E} {item : PendingPublishItem P} {data : D}
    (unlost : pipeline.lost = false) (next : pipeline.next = some (item, data)) :
    pipeline.closed = false := by
  have inside := (List.getElem?_eq_some_iff.mp (next_eq_some next).2).1
  simpa [Pipeline.closed, unlost] using inside

/-- The result of the next command keeps a pipeline sound, once its entry is written. -/
theorem Pipeline.Sound.executed {pipeline : Pipeline P D E} {stream : List (Entry D)}
    (sound : pipeline.Sound setting stream) {item : PendingPublishItem P} {data : D}
    (next : pipeline.next = some (item, data)) (result : Except E Nat)
    (entered : ∀ id, result = .ok id → WrittenFor stream item.promise id) :
    Pipeline.Sound setting stream { pipeline with results := pipeline.results ++ [result] } := by
  obtain ⟨_, inside, texts⟩ := sound.text next
  refine ⟨.inr texts, ?_, ?_⟩
  · simpa using Nat.succ_le_of_lt inside
  · intro promise id listed
    rw [outcomes_append (next_eq_some next).1] at listed
    rcases List.mem_append.mp listed with old | new
    · exact sound.entered promise id old
    · have same : (promise, Except.ok id) = (item.promise, result) := List.mem_singleton.mp new
      obtain ⟨rfl, resolved⟩ := Prod.mk.inj same
      exact entered id resolved.symm

/-- An event of a pipeline is the one enqueued under its promise's number. -/
theorem Books.event_of_batch (books : Books setting s) {pipeline : Pipeline P D E}
    (listed : pipeline ∈ s.pipelines) {item : PendingPublishItem P}
    (member : item ∈ pipeline.batch) : s.enqueued[item.promise]? = some item.event := by
  apply mem_numbered
  rw [← books.ordered]
  exact List.mem_append_left _ (List.mem_flatMap.mpr ⟨pipeline, listed, member⟩)

/-- What is behind a pipeline with something to execute has written nothing. -/
theorem written_behind {before rest : List (Pipeline P D E)} {pipeline : Pipeline P D E}
    (turns : (before ++ pipeline :: rest).Pairwise fun pipeline later =>
      pipeline.closed = false → later.results = [])
    (opened : pipeline.closed = false) : rest.flatMap Pipeline.written = [] := by
  rw [List.pairwise_append, List.pairwise_cons] at turns
  rw [List.flatMap_eq_nil_iff]
  intro later member
  exact written_unbegun (turns.2.1.1 later member opened)

/-- What a pipeline has written once its next result is known. -/
theorem written_executed {pipeline : Pipeline P D E} {item : PendingPublishItem P} {data : D}
    (next : pipeline.next = some (item, data)) (result : Except E Nat) :
    Pipeline.written { pipeline with results := pipeline.results ++ [result] } =
      pipeline.written ++ (resolvedPromise (item.promise, result)).toList := by
  simp only [Pipeline.written, outcomes_append (next_eq_some next).1, List.filterMap_append]
  cases result <;> rfl

/-- The promises written for are those written before and the one of the new result, which is the
last in the order of the pipelines. -/
theorem Books.own_executed (books : Books setting s) {place : Nat} {pipeline : Pipeline P D E}
    (present : s.pipelines[place]? = some pipeline) (unlost : pipeline.lost = false)
    {item : PendingPublishItem P} {data : D} (next : pipeline.next = some (item, data))
    (result : Except E Nat) :
    (s.pipelines.set place { pipeline with results := pipeline.results ++ [result] }).flatMap
      Pipeline.written =
      s.stream.filterMap Entry.publish ++ (resolvedPromise (item.promise, result)).toList := by
  obtain ⟨before, rest, whole, _, written⟩ := Tables.split_set present
  have turns := books.turns
  rw [whole] at turns
  have behind : rest.flatMap Pipeline.written = [] :=
    written_behind turns (open_of_next unlost next)
  rw [books.own, written, whole]
  simp only [List.flatMap_append, List.flatMap_cons, behind, List.append_nil,
    written_executed next result, List.append_assoc]

/-- Writing a pipeline again keeps the books: it has its batch, nothing was heard of it since, it
takes its turn, and what the stream has gained is what it has written. -/
theorem Books.replaced (books : Books setting s) {place : Nat} {pipeline : Pipeline P D E}
    (new : Pipeline P D E) {stream : List (Entry D)} (present : s.pipelines[place]? = some pipeline)
    (batch : new.batch = pipeline.batch) (unheard : new.settled = pipeline.settled)
    (sound : new.Sound setting stream) (left : new.closed = false → pipeline.closed = false)
    (turn : new.results = pipeline.results ∨
      ∀ earlier ∈ s.pipelines.take place, earlier.closed = true)
    (more : s.stream ⊆ stream)
    (own : stream.filterMap Entry.publish = (s.pipelines.set place new).flatMap Pipeline.written)
    (rising : stream.Pairwise fun entry later => entry.id < later.id)
    (stored : ∀ entry ∈ stream, ∀ promise, entry.publish = some promise →
      ∃ event, s.enqueued[promise]? = some event ∧ setting.stringify event = .ok entry.data) :
    Books setting { s with pipelines := s.pipelines.set place new, stream := stream } where
  ordered := by
    simpa only [batches_set new present batch] using books.ordered
  sound := Tables.all_set (fun other member => (books.sound other member).mono more) sound
  turns := turns_set present books.turns left turn
  own := own
  rising := rising
  stored := stored
  account := by
    simpa only [pending, unsettled, pending_set new present batch unheard] using books.account
  matched := fun promise id known => (books.matched promise id known).mono more
  batches := books.batches

/-- A failed command keeps the books. -/
theorem Books.executed_error (books : Books setting s) {place : Nat} {pipeline : Pipeline P D E}
    (present : s.pipelines[place]? = some pipeline) (unlost : pipeline.lost = false)
    (turn : ∀ earlier ∈ s.pipelines.take place, earlier.closed = true)
    {item : PendingPublishItem P} {data : D} (next : pipeline.next = some (item, data))
    (error : E) :
    Books setting { s with
      pipelines := s.pipelines.set place
        { pipeline with results := pipeline.results ++ [.error error] } } := by
  have sound := books.sound pipeline (List.mem_of_getElem? present)
  have own := books.own_executed present unlost next (.error error)
  exact books.replaced { pipeline with results := pipeline.results ++ [.error error] } present rfl
    rfl (sound.executed next (.error error) (by simp)) (fun _ => open_of_next unlost next)
    (.inr turn) (List.Subset.refl _) (own.trans (List.append_nil _)).symm books.rising books.stored

/-- A command that succeeds keeps the books: its entry is the last one of the stream. -/
theorem Books.executed_ok (books : Books setting s) {place : Nat} {pipeline : Pipeline P D E}
    (present : s.pipelines[place]? = some pipeline) (unlost : pipeline.lost = false)
    (turn : ∀ earlier ∈ s.pipelines.take place, earlier.closed = true)
    {item : PendingPublishItem P} {data : D} (next : pipeline.next = some (item, data))
    {id : Nat} (new : NewId s.stream id) :
    Books setting { s with
      pipelines := s.pipelines.set place
        { pipeline with results := pipeline.results ++ [.ok id] }
      stream := s.stream ++ [⟨id, data, some item.promise⟩] } := by
  have listed := List.mem_of_getElem? present
  have more : s.stream ⊆ s.stream ++ [⟨id, data, some item.promise⟩] :=
    List.subset_append_left _ _
  have sound := (books.sound pipeline listed).mono more
  have own := books.own_executed present unlost next (.ok id)
  apply books.replaced { pipeline with results := pipeline.results ++ [.ok id] } present rfl rfl _
    (fun _ => open_of_next unlost next) (.inr turn) more
  · rw [own, List.filterMap_append]
    rfl
  · rw [List.pairwise_append]
    refine ⟨books.rising, List.pairwise_singleton _ _, ?_⟩
    intro entry known later member
    rw [List.mem_singleton.mp member]
    exact new entry known
  · apply Tables.all_append books.stored
    intro promise written
    obtain rfl : item.promise = promise := Option.some.inj written
    have member : item ∈ pipeline.batch := List.mem_of_getElem? (next_eq_some next).1
    exact ⟨item.event, books.event_of_batch listed member, (sound.text next).1⟩
  · apply sound.executed next
    intro other same
    rw [← Except.ok.inj same]
    exact ⟨_, List.mem_append_right _ List.mem_cons_self, rfl, rfl⟩

/-- A lost connection keeps the books: nothing was executed. -/
theorem Books.lost (books : Books setting s) {place : Nat} {pipeline : Pipeline P D E}
    (present : s.pipelines[place]? = some pipeline) :
    Books setting { s with
      pipelines := s.pipelines.set place { pipeline with lost := true } } := by
  have sound := books.sound pipeline (List.mem_of_getElem? present)
  have stays : Pipeline.Sound setting s.stream { pipeline with lost := true } :=
    ⟨sound.texts.imp_left fun unsent => ⟨rfl, unsent.2⟩, sound.inside, sound.entered⟩
  have closed : Pipeline.closed { pipeline with lost := true } = true := rfl
  have own : s.stream.filterMap Entry.publish =
      (s.pipelines.set place { pipeline with lost := true }).flatMap Pipeline.written := by
    obtain ⟨before, rest, whole, _, written⟩ := Tables.split_set present
    rw [books.own, written, whole]
    simp [Pipeline.written]
  apply books.replaced { pipeline with lost := true } present rfl rfl stays _ (.inl rfl)
    (List.Subset.refl _) own books.rising books.stored
  intro opened
  rw [closed] at opened
  cases opened

/-- Settling all promises of an unheard pipeline keeps the books, when those resolved are
resolved with the ids of their entries. -/
theorem Books.settled (books : Books setting s) {place : Nat} {pipeline : Pipeline P D E}
    (present : s.pipelines[place]? = some pipeline) (unheard : pipeline.settled = false)
    {entries : List (Nat × Except E Nat)}
    (promises : entries.map Prod.fst = promisesOf pipeline.batch)
    (resolved : ∀ promise id, (promise, Except.ok id) ∈ entries →
      WrittenFor s.stream promise id) :
    Books setting (settlePipeline s place pipeline entries) := by
  have sound := books.sound pipeline (List.mem_of_getElem? present)
  obtain ⟨before, rest, whole, _, written⟩ := Tables.split_set present
  have others : (s.pipelines.set place { pipeline with settled := true }).filter
      (fun pipeline => !pipeline.settled) =
        (before ++ rest).filter fun pipeline => !pipeline.settled := by
    rw [written]
    simp
  have waiting : (unsettled s).Perm
      (pipeline :: (before ++ rest).filter fun pipeline => !pipeline.settled) := by
    unfold unsettled
    rw [whole]
    simp only [List.filter_append, List.filter_cons, unheard, Bool.not_false, ↓reduceIte]
    exact List.perm_middle
  have taken : (pending s).Perm (entries.map Prod.fst ++
      (((before ++ rest).filter fun pipeline => !pipeline.settled).flatMap
        (fun pipeline => promisesOf pipeline.batch) ++ promisesOf s.pendingQueue)) := by
    rw [promises, ← List.append_assoc]
    exact (waiting.flatMap_right fun pipeline => promisesOf pipeline.batch).append_right _
  obtain ⟨added, account⟩ := books.account.settled_all taken
  have stays : Pipeline.Sound setting s.stream { pipeline with settled := true } :=
    ⟨sound.texts.imp_left fun unsent => ⟨unsent.1, rfl, unsent.2.2⟩, sound.inside, sound.entered⟩
  unfold settlePipeline
  refine ⟨?_, Tables.all_set books.sound stays, ?_, ?_, books.rising, books.stored, ?_, ?_,
    books.batches⟩
  · simpa only [batches_set { pipeline with settled := true } present rfl] using books.ordered
  · exact turns_set present books.turns id (.inl rfl)
  · simp only
    rw [books.own, written, whole]
    simp [Pipeline.written]
  · unfold pending unsettled
    rw [others, added]
    exact account
  · rw [added]
    intro promise id listed
    rcases List.mem_append.mp listed with old | new
    · exact books.matched promise id old
    · exact resolved promise id new

/-- With a result for each event of a batch the outcomes are for its promises. -/
theorem outcomes_promises {batch : List (PendingPublishItem P)} {results : List (Except E Nat)}
    (each : batch.length ≤ results.length) :
    (outcomes batch results).map Prod.fst = promisesOf batch := by
  have firsts : (batch.zip results).map Prod.fst = batch := List.map_fst_zip each
  calc (outcomes batch results).map Prod.fst
      = ((batch.zip results).map Prod.fst).map PendingPublishItem.promise := by
        rw [outcomes, List.map_map, List.map_map]
        rfl
    _ = promisesOf batch := by rw [firsts, promisesOf]

/-- An immediate runs where one is outstanding. -/
theorem immediate_cases (taken : step setting s .immediate = some after) :
    s.immediates ≠ 0 ∧ after = flush setting { s with immediates := s.immediates - 1 } := by
  by_cases outstanding : s.immediates = 0
  · simp [step, outstanding] at taken
  · simp only [step, outstanding, ↓reduceIte, Option.some.injEq] at taken
    exact ⟨outstanding, taken.symm⟩

/-- Every turn keeps the books. -/
theorem Books.step {action : Action P D E} (books : Books setting s)
    (taken : step setting s action = some after) : Books setting after := by
  cases action with
  | publish fields =>
    rw [← Option.some.inj taken]
    exact books.enqueue (stamp setting s fields)
  | publishBatch given =>
    rw [← Option.some.inj taken]
    exact books.publishBatch given
  | immediate =>
    rw [(immediate_cases taken).2]
    exact (books.rescheduled s.flushScheduled (s.immediates - 1)).flush
  | execute place result =>
    obtain ⟨pipeline, item, data, present, unlost, turn, next, ends⟩ := execute_cases taken
    rcases ends with ⟨error, rfl, rfl⟩ | ⟨id, rfl, new, rfl⟩
    · exact books.executed_error present unlost turn next error
    · exact books.executed_ok present unlost turn next new
  | lose place =>
    obtain ⟨pipeline, present, _, rfl⟩ := lose_cases taken
    exact books.lost present
  | reply place =>
    obtain ⟨pipeline, present, unheard, complete, rfl⟩ := reply_cases taken
    have sound := books.sound pipeline (List.mem_of_getElem? present)
    apply books.settled present unheard _ sound.entered
    rcases sound.texts with ⟨_, heard, _⟩ | texts
    · rw [unheard] at heard
      cases heard
    · apply outcomes_promises
      rw [texts.length_eq]
      exact complete
  | fail place error =>
    obtain ⟨pipeline, present, unheard, rfl⟩ := fail_cases taken
    exact books.settled present unheard (rejections_promises _ _)
      fun promise id listed => absurd listed not_resolved_by_rejection
  | foreign id data =>
    by_cases new : NewId s.stream id
    · simp only [StreamProducer.step, new, ↓reduceIte, Option.some.injEq] at taken
      subst taken
      have more : s.stream ⊆ s.stream ++ [⟨id, data, none⟩] := List.subset_append_left _ _
      refine ⟨books.ordered, fun other member => (books.sound other member).mono more,
        books.turns, ?_, ?_, ?_, books.account,
        fun promise known listed => (books.matched promise known listed).mono more,
        books.batches⟩
      · simpa using books.own
      · rw [List.pairwise_append]
        refine ⟨books.rising, List.pairwise_singleton _ _, ?_⟩
        intro entry known later member
        rw [List.mem_singleton.mp member]
        exact new entry known
      · apply Tables.all_append books.stored
        intro promise own
        cases own
    · simp [StreamProducer.step, new] at taken

end Notifkit.Queue.StreamProducer
