import Notifkit.Workers.BaseWorker

/-!
# What may take an entry out of its stream

An entry is accounted for once a `process` call was successful for it or a copy of it is in the
dead-letter stream. Removals are issued only then, or for what does not parse: whatever fails, an
entry that is not accounted for stays in its stream, pending, to be claimed again.
-/

namespace Notifkit.Workers

open Runs Queue Tables

/-- A `process` call was successful for the entry, or it has a copy. -/
def World.Accounted (world : World) (ref : Ref) : Prop :=
  ref ∈ world.processed ∨ ref ∈ world.deadLetters

instance (world : World) (ref : Ref) : Decidable (world.Accounted ref) :=
  inferInstanceAs (Decidable (_ ∨ _))

/-- The entry does not parse. -/
def World.Malformed (world : World) (ref : Ref) : Prop :=
  ∃ stream, world.streams[ref.stream]? = some stream ∧ stream.entries[ref.id]? = some false

/-- The entry may go. -/
def World.Disposable (world : World) (ref : Ref) : Prop :=
  world.Accounted ref ∨ world.Malformed ref

/-- Only what may go is being removed, and all else waits. -/
structure Disposed (world : World) : Prop where
  inFlight : ∀ removal ∈ world.inFlight, ∀ id ∈ removal.ids, world.Disposable ⟨removal.stream, id⟩
  buffered : ∀ worker ∈ world.workers, ∀ ref ∈ worker.ackBuffers, ref ∈ world.processed
  waits : ∀ index stream, world.streams[index]? = some stream →
    ∀ id, world.Disposable ⟨index, id⟩ ∨ stream.Waits id
  inside : ∀ stream ∈ world.streams, stream.unread ≤ stream.entries.length

/-- A stream in its later state has the entries it had, and what waited waits unless it may go. -/
structure Evolves (world : World) (index : Nat) (stream later : Stream) : Prop where
  entries : ∀ (id : Nat) (parses : Bool), stream.entries[id]? = some parses →
    later.entries[id]? = some parses
  waits : ∀ id, stream.Waits id → world.Disposable ⟨index, id⟩ ∨ later.Waits id
  inside : later.unread ≤ later.entries.length

section Updates

variable {world : World} {index : Nat} {stream later : Stream} {worker changed : Worker}

/-- What does not parse never will. -/
theorem disposable_setStream (found : world.streams[index]? = some stream)
    (evolves : Evolves world index stream later) {ref : Ref} (may : world.Disposable ref) :
    (world.setStream index later).Disposable ref := by
  refine may.imp (fun accounted => accounted) ?_
  rintro ⟨other, foundOther, malformed⟩
  by_cases same : ref.stream = index
  · rw [same, found] at foundOther
    rw [← Option.some.inj foundOther] at malformed
    refine ⟨later, ?_, evolves.entries _ _ malformed⟩
    exact same ▸ (row_set found).mpr (.inl ⟨rfl, rfl⟩)
  · exact ⟨other, (row_set found).mpr (.inr ⟨same, foundOther⟩), malformed⟩

/-- One stream goes on. -/
theorem Disposed.setStream (disposed : Disposed world) (found : world.streams[index]? = some stream)
    (evolves : Evolves world index stream later) : Disposed (world.setStream index later) where
  inFlight removal member id named :=
    disposable_setStream found evolves (disposed.inFlight removal member id named)
  buffered := disposed.buffered
  waits place row foundRow id := by
    rcases (row_set found).mp foundRow with ⟨rfl, rfl⟩ | ⟨_, before⟩
    · rcases disposed.waits _ _ found id with may | waits
      · exact .inl (disposable_setStream found evolves may)
      · exact (evolves.waits id waits).imp_left (disposable_setStream found evolves)
    · exact (disposed.waits place row before id).imp_left (disposable_setStream found evolves)
  inside := all_set disposed.inside evolves.inside

/-- A worker may change as long as it buffers only what was processed. -/
theorem Disposed.setWorker (disposed : Disposed world)
    (buffered : ∀ ref ∈ changed.ackBuffers, ref ∈ world.processed) :
    Disposed (world.setWorker index changed) where
  inFlight := disposed.inFlight
  buffered := all_set disposed.buffered buffered
  waits := disposed.waits
  inside := disposed.inside

/-- What may go may be removed. -/
theorem Disposed.issue {removals : List Removal} (disposed : Disposed world)
    (may : ∀ removal ∈ removals, ∀ id ∈ removal.ids, world.Disposable ⟨removal.stream, id⟩) :
    Disposed (world.issue removals) where
  inFlight removal member :=
    (List.mem_append.mp member).elim (disposed.inFlight removal) (may removal)
  buffered := disposed.buffered
  waits := disposed.waits
  inside := disposed.inside

/-- An entry was processed. -/
theorem Disposed.process (disposed : Disposed world) (refs : List Ref) :
    Disposed { world with processed := world.processed ++ refs } := by
  have kept : ∀ {ref : Ref}, world.Disposable ref →
      World.Disposable { world with processed := world.processed ++ refs } ref :=
    fun may => may.imp (fun accounted => accounted.imp_left (List.mem_append_left refs)) id
  exact {
    inFlight := fun removal member id named => kept (disposed.inFlight removal member id named)
    buffered := fun worker member ref held =>
      List.mem_append_left _ (disposed.buffered worker member ref held)
    waits := fun place row found id => (disposed.waits place row found id).imp_left kept
    inside := disposed.inside }

/-- A copy was written. -/
theorem Disposed.copy (disposed : Disposed world) (refs : List Ref) :
    Disposed { world with deadLetters := world.deadLetters ++ refs } := by
  have kept : ∀ {ref : Ref}, world.Disposable ref →
      World.Disposable { world with deadLetters := world.deadLetters ++ refs } ref :=
    fun may => may.imp (fun accounted => accounted.imp id (List.mem_append_left refs)) id
  exact {
    inFlight := fun removal member id named => kept (disposed.inFlight removal member id named)
    buffered := disposed.buffered
    waits := fun place row found id => (disposed.waits place row found id).imp_left kept
    inside := disposed.inside }

/-- Commands that were carried out or lost are in flight no more. -/
theorem Disposed.eraseIdx (disposed : Disposed world) (position : Nat) :
    Disposed { world with inFlight := world.inFlight.eraseIdx position } where
  inFlight removal member := disposed.inFlight removal (List.mem_of_mem_eraseIdx member)
  buffered := disposed.buffered
  waits := disposed.waits
  inside := disposed.inside

/-- A loop is none of the buffers. -/
theorem Worker.ackBuffers_setLoop (worker : Worker) (who : LoopName) (loop : Loop) :
    (worker.setLoop who loop).ackBuffers = worker.ackBuffers := by
  cases who <;> rfl

/-- Nor is a permit. -/
theorem Worker.ackBuffers_release (worker : Worker) :
    worker.release.ackBuffers = worker.ackBuffers := by
  unfold Worker.release
  dsimp only
  split
  · exact Worker.ackBuffers_setLoop _ _ _
  · rfl

/-- A buffered id names a buffered entry. -/
theorem Worker.mem_buffer {place id : Nat} :
    id ∈ worker.buffer place ↔ (⟨place, id⟩ : Ref) ∈ worker.ackBuffers := by
  simp only [Worker.buffer, List.mem_map, List.mem_filter, decide_eq_true_eq]
  constructor
  · rintro ⟨⟨_, _⟩, ⟨member, rfl⟩, rfl⟩
    exact member
  · exact fun member => ⟨_, ⟨member, rfl⟩, rfl⟩

/-- Both commands of a removal name the same entries. -/
theorem mem_ackAndDelete {place : Nat} {ids : List Nat} {removal : Removal}
    (member : removal ∈ ackAndDelete place ids) : removal.stream = place ∧ removal.ids = ids := by
  simp only [ackAndDelete, List.mem_cons, List.not_mem_nil, or_false] at member
  rcases member with rfl | rfl <;> exact ⟨rfl, rfl⟩

/-- A flush takes entries out of a buffer and removes those. -/
theorem Worker.flush_spec (worker : Worker) (place : Nat) :
    (∀ ref ∈ (worker.flushAcksForStream place).1.ackBuffers, ref ∈ worker.ackBuffers) ∧
      ∀ removal ∈ (worker.flushAcksForStream place).2, ∀ id ∈ removal.ids,
        (⟨removal.stream, id⟩ : Ref) ∈ worker.ackBuffers := by
  unfold Worker.flushAcksForStream
  split
  · exact ⟨fun ref held => held, fun _ none => nomatch none⟩
  · refine ⟨fun ref held => (List.mem_filter.mp held).1, fun removal member id named => ?_⟩
    obtain ⟨stream, ids⟩ := mem_ackAndDelete member
    rw [ids] at named
    rw [stream]
    exact Worker.mem_buffer.mp named

/-- An acknowledgement buffers and removes no other entries than those buffered before and its own. -/
theorem Worker.ack_spec (worker : Worker) (ref : Ref) :
    (∀ other ∈ (worker.ack ref).1.ackBuffers, other ∈ worker.ackBuffers ++ [ref]) ∧
      ∀ removal ∈ (worker.ack ref).2, ∀ id ∈ removal.ids,
        (⟨removal.stream, id⟩ : Ref) ∈ worker.ackBuffers ++ [ref] := by
  unfold Worker.ack
  split
  · dsimp only
    split
    · exact Worker.flush_spec { worker with ackBuffers := worker.ackBuffers ++ [ref] } ref.stream
    · exact ⟨fun other held => held, fun _ none => nomatch none⟩
  · refine ⟨fun other held => List.mem_append_left _ held, fun removal member id named => ?_⟩
    obtain ⟨stream, ids⟩ := mem_ackAndDelete member
    rw [ids, List.mem_singleton] at named
    rw [stream, named]
    exact List.mem_append_right _ (List.mem_singleton.mpr rfl)

end Updates

section Streams

variable {world : World} {index now : Nat} {stream : Stream}

/-- An operation that keeps the entries and all that waits. -/
theorem evolves_of_waits {later : Stream} (entries : later.entries = stream.entries)
    (inside : later.unread ≤ stream.entries.length)
    (waits : ∀ id, stream.Waits id → later.Waits id) : Evolves world index stream later where
  entries _ _ found := entries ▸ found
  waits id before := .inr (waits id before)
  inside := entries ▸ inside

theorem evolves_xadd {parses : Bool} (inside : stream.unread ≤ stream.entries.length) :
    Evolves world index stream (stream.xadd parses) where
  entries id parses found := by
    have before : id < stream.entries.length := (List.getElem?_eq_some_iff.mp found).1
    exact (List.getElem?_append_left before).trans found
  waits _ waits := .inr waits.xadd
  inside := by
    rw [Stream.xadd, List.length_append]
    exact Nat.le_add_right_of_le inside

theorem evolves_xreadgroup (more : stream.unread < stream.entries.length) :
    Evolves world index stream (stream.xreadgroup now) :=
  evolves_of_waits rfl more fun _ waits => waits.xreadgroup

theorem evolves_touch {id : Nat} (inside : stream.unread ≤ stream.entries.length) :
    Evolves world index stream (stream.touch id now) :=
  evolves_of_waits rfl inside fun _ waits => waits.touch

theorem xclaim_kept (stream : Stream) (id now : Nat) :
    (stream.xclaim id now).entries = stream.entries ∧
      (stream.xclaim id now).unread = stream.unread := by
  unfold Stream.xclaim
  split <;> exact ⟨rfl, rfl⟩

theorem evolves_xclaim {id : Nat} (inside : stream.unread ≤ stream.entries.length) :
    Evolves world index stream (stream.xclaim id now) := by
  obtain ⟨entries, unread⟩ := xclaim_kept stream id now
  exact evolves_of_waits entries (unread ▸ inside) fun _ waits => waits.xclaim inside

/-- A removal of what may go. -/
theorem evolves_remove {removal : Removal} (inside : stream.unread ≤ stream.entries.length)
    (may : ∀ id ∈ removal.ids, world.Disposable ⟨index, id⟩) :
    Evolves world index stream (stream.remove removal) where
  entries _ _ found := by
    cases removal <;> exact found
  waits id waits := by
    by_cases named : id ∈ removal.ids
    · exact .inl (may id named)
    · exact .inr (waits.remove named)
  inside := by
    cases removal <;> exact inside

end Streams

section Steps

variable {world next : World} {index : Nat} {worker : Worker}

theorem Disposed.streamStep {action : StreamAction} (disposed : Disposed world)
    (taken : streamStep world action = some next) : Disposed next := by
  cases action with
  | tick ms =>
    have same := Option.some.inj taken
    subst same
    exact ⟨disposed.inFlight, disposed.buffered, disposed.waits, disposed.inside⟩
  | append place parses =>
    obtain ⟨stream, found, same⟩ := Option.bind_eq_some_iff.mp taken
    rw [← Option.some.inj same]
    exact disposed.setStream found
      (evolves_xadd (disposed.inside stream (List.mem_of_getElem? found)))
  | execute position =>
    obtain ⟨removal, asked, taken⟩ := Option.bind_eq_some_iff.mp taken
    obtain ⟨stream, found, same⟩ := Option.bind_eq_some_iff.mp taken
    rw [← Option.some.inj same]
    refine (disposed.setStream found (evolves_remove
      (disposed.inside stream (List.mem_of_getElem? found)) ?_)).eraseIdx position
    exact disposed.inFlight removal (List.mem_of_getElem? asked)
  | lose position =>
    rw [← Option.some.inj taken]
    exact disposed.eraseIdx position

/-- A new batch buffers nothing. -/
theorem Disposed.setLoop {who : LoopName} {loop : Loop} (disposed : Disposed world)
    (present : worker ∈ world.workers) :
    Disposed (world.setWorker index (worker.setLoop who loop)) := by
  refine disposed.setWorker ?_
  rw [Worker.ackBuffers_setLoop]
  exact disposed.buffered worker present

theorem Disposed.read {place : Nat} (disposed : Disposed world) (present : worker ∈ world.workers)
    (taken : read world worker index place = some next) : Disposed next := by
  obtain ⟨stream, found, taken⟩ := Option.bind_eq_some_iff.mp taken
  obtain ⟨parses, entry, taken⟩ := Option.bind_eq_some_iff.mp taken
  have more : stream.unread < stream.entries.length := (List.getElem?_eq_some_iff.mp entry).1
  have handed : Disposed (world.setStream place (stream.xreadgroup world.now)) :=
    disposed.setStream found (evolves_xreadgroup more)
  split at taken
  · rw [← Option.some.inj taken]
    exact handed.setLoop present
  next malformed =>
    rw [← Option.some.inj taken]
    refine handed.issue fun removal member id named => .inr ?_
    obtain ⟨sameStream, ids⟩ := mem_ackAndDelete member
    rw [ids, List.mem_singleton] at named
    rw [sameStream, named]
    refine ⟨_, (row_set found).mpr (.inl ⟨rfl, rfl⟩), ?_⟩
    rw [Bool.not_eq_true] at malformed
    exact malformed ▸ entry

theorem Disposed.autoclaim {place position : Nat} (disposed : Disposed world)
    (present : worker ∈ world.workers)
    (taken : autoclaim world worker index place position = some next) : Disposed next := by
  obtain ⟨stream, found, taken⟩ := Option.bind_eq_some_iff.mp taken
  obtain ⟨entry, _, taken⟩ := Option.bind_eq_some_iff.mp taken
  have claimed : Disposed (world.setStream place (stream.xclaim entry.id world.now)) :=
    disposed.setStream found (evolves_xclaim (disposed.inside stream (List.mem_of_getElem? found)))
  split at taken
  · dsimp only at taken
    split at taken
    · rw [← Option.some.inj taken]
      exact claimed.setLoop present
    · exact Option.some.inj taken ▸ claimed
  · cases taken

theorem Disposed.acquire {who : LoopName} (disposed : Disposed world)
    (present : worker ∈ world.workers) (taken : acquire world worker index who = some next) :
    Disposed next := by
  unfold Workers.acquire at taken
  dsimp only at taken
  split at taken
  · rw [← Option.some.inj taken]
    refine disposed.setWorker ?_
    rw [Worker.ackBuffers_setLoop]
    exact disposed.buffered worker present
  · cases taken

theorem Disposed.start {who : LoopName} (disposed : Disposed world)
    (present : worker ∈ world.workers) (taken : start world worker index who = some next) :
    Disposed next := by
  unfold Workers.start at taken
  dsimp only at taken
  split at taken
  next message rest _ _ =>
    rw [← Option.some.inj taken]
    have looped : Disposed (world.setWorker index
        (worker.setLoop who { batch := rest, state := .idle })) := disposed.setLoop present
    exact ⟨looped.inFlight, looped.buffered, looped.waits, looped.inside⟩
  · cases taken

theorem Disposed.workerStep {action : WorkerAction} (disposed : Disposed world)
    (taken : workerStep world index action = some next) : Disposed next := by
  obtain ⟨worker, found, taken⟩ := Option.bind_eq_some_iff.mp taken
  have present : worker ∈ world.workers := List.mem_of_getElem? found
  split at taken
  · cases taken
  cases action with
  | read place => exact disposed.read present taken
  | claim place position => exact disposed.autoclaim present taken
  | drop who =>
    dsimp only at taken
    split at taken
    · rw [← Option.some.inj taken]
      exact disposed.setLoop present
    · cases taken
  | acquire who => exact disposed.acquire present taken
  | start who => exact disposed.start present taken
  | flush place =>
    rw [← Option.some.inj taken]
    obtain ⟨kept, issued⟩ := Worker.flush_spec worker place
    refine (disposed.setWorker fun ref held => disposed.buffered worker present ref
      (kept ref held)).issue fun removal member id named => .inl (.inl ?_)
    exact disposed.buffered worker present _ (issued removal member id named)
  | stop =>
    rw [← Option.some.inj taken]
    exact disposed.setWorker (disposed.buffered worker present)
  | finish =>
    dsimp only at taken
    split at taken
    · rw [← Option.some.inj taken]
      exact ⟨disposed.inFlight, disposed.buffered, disposed.waits, disposed.inside⟩
    · cases taken
  | crash =>
    rw [← Option.some.inj taken]
    have restarted : Disposed (world.setWorker index { options := worker.options }) :=
      disposed.setWorker fun _ none => nomatch none
    exact ⟨restarted.inFlight, restarted.buffered, restarted.waits, restarted.inside⟩

/-- The phase of a call is nothing to entries. -/
theorem Disposed.setPhase {call : Call} {phase : Phase} (disposed : Disposed world) :
    Disposed (world.setPhase index call phase) :=
  ⟨disposed.inFlight, disposed.buffered, disposed.waits, disposed.inside⟩

/-- An entry whose `process` call was successful may be acknowledged. -/
theorem Disposed.acknowledge {call : Call} (disposed : Disposed world)
    (present : worker ∈ world.workers) :
    Disposed { ((world.setWorker call.worker (worker.ack call.message.ref).1).setPhase index call
      .acking).issue (worker.ack call.message.ref).2 with
        processed := world.processed ++ [call.message.ref] } := by
  obtain ⟨kept, issued⟩ := Worker.ack_spec worker call.message.ref
  have recorded : ∀ ref ∈ worker.ackBuffers ++ [call.message.ref],
      ref ∈ world.processed ++ [call.message.ref] := by
    intro ref member
    rcases List.mem_append.mp member with held | own
    · exact List.mem_append_left _ (disposed.buffered worker present ref held)
    · exact List.mem_append_right _ own
  have acked : Disposed (World.setWorker { world with
      processed := world.processed ++ [call.message.ref] } call.worker
        (worker.ack call.message.ref).1) :=
    (disposed.process [call.message.ref]).setWorker fun ref held => recorded ref (kept ref held)
  have removed : Disposed (World.issue (World.setWorker { world with
      processed := world.processed ++ [call.message.ref] } call.worker
        (worker.ack call.message.ref).1) (worker.ack call.message.ref).2) :=
    acked.issue fun removal member id named =>
      .inl (.inl (recorded _ (issued removal member id named)))
  exact ⟨removed.inFlight, removed.buffered, removed.waits, removed.inside⟩

/-- The answer to the write of a copy: what it lets be removed has one. -/
theorem Disposed.written {call : Call} {landed : Bool} {reply : Reply} (disposed : Disposed world)
    (taken : processWithTracking world worker index call (.written landed reply) = some next) :
    Disposed next := by
  simp only [processWithTracking] at taken
  split at taken
  next handling _ =>
    have copied := disposed.copy (if landed then [call.message.ref] else [])
    cases reply with
    | id =>
      dsimp only at taken
      split at taken
      next there =>
        subst there
        rw [← Option.some.inj taken]
        refine copied.setPhase.issue fun removal member id named => .inl (.inr ?_)
        obtain ⟨stream, ids⟩ := mem_ackAndDelete member
        rw [ids, List.mem_singleton] at named
        rw [stream, named]
        exact List.mem_append_right _ (List.mem_singleton.mpr rfl)
      · cases taken
    | null => exact Option.some.inj taken ▸ copied.setPhase
    | error thrown => exact Option.some.inj taken ▸ copied.setPhase
  · cases taken

theorem Disposed.processWithTracking {call : Call} {action : CallAction} (disposed : Disposed world)
    (present : worker ∈ world.workers)
    (taken : processWithTracking world worker index call action = some next) : Disposed next := by
  cases action with
  | begin =>
    simp only [Workers.processWithTracking, Option.ite_none_right_eq_some] at taken
    exact Option.some.inj taken.2 ▸ disposed.setPhase
  | touch =>
    obtain ⟨stream, found, taken⟩ := Option.bind_eq_some_iff.mp taken
    rw [Option.ite_none_right_eq_some] at taken
    exact Option.some.inj taken.2 ▸ disposed.setStream found
      (evolves_touch (disposed.inside stream (List.mem_of_getElem? found)))
  | ended ending =>
    simp only [Workers.processWithTracking, Option.ite_none_right_eq_some] at taken
    match ending, taken with
    | .returned false, taken => exact Option.some.inj taken.2 ▸ disposed.setPhase
    | .returned true, taken => exact Option.some.inj taken.2 ▸ disposed.acknowledge present
    | .threw error, taken => exact Option.some.inj taken.2 ▸ disposed.setPhase
  | acked failure =>
    simp only [Workers.processWithTracking, Option.ite_none_right_eq_some] at taken
    exact Option.some.inj taken.2 ▸ disposed.setPhase
  | written landed reply => exact disposed.written taken
  | removed failure =>
    simp only [Workers.processWithTracking] at taken
    split at taken
    · exact Option.some.inj taken ▸ disposed.setPhase
    · cases taken
  | emitted failure =>
    simp only [Workers.processWithTracking] at taken
    split at taken
    · exact Option.some.inj taken ▸ disposed.setPhase
    · cases taken
  | settle =>
    simp only [Workers.processWithTracking, Option.ite_none_right_eq_some] at taken
    rw [← Option.some.inj taken.2]
    have released : Disposed (world.setWorker call.worker { worker.release with
        halted := call.phase = .rejected ∧ call.awaited = false }) := by
      refine disposed.setWorker ?_
      rw [Worker.ackBuffers_release]
      exact disposed.buffered worker present
    exact ⟨released.inFlight, released.buffered, released.waits, released.inside⟩

/-- Every step disposes only of what may go. -/
theorem Disposed.step {action : Action} (disposed : Disposed world)
    (taken : step world action = some next) : Disposed next := by
  cases action with
  | stream action => exact disposed.streamStep taken
  | worker index action => exact disposed.workerStep taken
  | call index action =>
    obtain ⟨call, _, taken⟩ := Option.bind_eq_some_iff.mp taken
    obtain ⟨worker, found, taken⟩ := Option.bind_eq_some_iff.mp taken
    split at taken
    · cases taken
    · exact disposed.processWithTracking (List.mem_of_getElem? found) taken

end Steps

/-- At the start everything waits. -/
theorem Fresh.disposed {world : World} (fresh : Fresh world) : Disposed world where
  inFlight removal member := by
    rw [fresh.inFlight] at member
    cases member
  buffered worker member ref held := by
    obtain ⟨options, rfl⟩ := fresh.workers worker member
    cases held
  waits index stream found id := by
    obtain ⟨unread, _, deleted⟩ := fresh.streams stream (List.mem_of_getElem? found)
    refine .inr ⟨deleted ▸ List.not_mem_nil, fun before => ?_⟩
    rw [unread] at before
    exact absurd before (Nat.not_lt_zero id)
  inside stream member := by
    rw [(fresh.streams stream member).1]
    exact Nat.zero_le _

/-- A scan hands the entry out once it has been idle for as long as its deliveries ask for. A scan
lists a bounded number of entries of a stream. -/
structure Reclaimable (world : World) (index position : Nat) (entry : PendingEntry) : Prop where
  handsOut : ∀ ms who worker, world.workers[who]? = some worker → worker.halted = false →
    position < 2 * BATCH_SIZE →
    recoveryIntervalMs * 2 ^ (entry.deliveryCount - 1) < world.now + ms - entry.lastRead →
    ∃ next claimer, perform step world
        [.stream (.tick ms), .worker who (.claim index position)] = some next ∧
      next.workers[who]? = some claimer ∧
      ⟨⟨index, entry.id⟩, entry.deliveryCount + 1⟩ ∈ claimer.recovering.batch

/-- An entry that parses, is in its stream and pending can be claimed. -/
theorem reclaimable {world : World} {index position : Nat} {stream : Stream} {entry : PendingEntry}
    (found : world.streams[index]? = some stream)
    (listed : stream.pending[position]? = some entry) (holds : stream.holds entry.id = true)
    (parses : stream.entries[entry.id]? = some true) : Reclaimable world index position entry where
  handsOut ms who worker there running inScan idle := by
    have claimable : entry.claimable (world.now + ms) = true := decide_eq_true idle
    let claimer := worker.setLoop .recover { worker.recovering with
      batch := worker.recovering.batch ++ [⟨⟨index, entry.id⟩, entry.deliveryCount + 1⟩] }
    let next := (World.setStream { world with now := world.now + ms } index
      (stream.xclaim entry.id (world.now + ms))).setWorker who claimer
    refine ⟨next, claimer, ?_, ?_, ?_⟩
    · simp [perform, step, streamStep, workerStep, autoclaim, there, running, found, listed, inScan,
        claimable, holds, parses, next, claimer]
    · obtain ⟨inside, _⟩ := List.getElem?_eq_some_iff.mp there
      exact List.getElem?_set_self inside
    · exact List.mem_append_right _ (List.mem_singleton.mpr rfl)

/-- In every run an entry that was handed out leaves its stream only if a `process` call was
successful for it or a copy of it is in the dead-letter stream; otherwise it is in the stream and
pending, and can be claimed. -/
theorem entries_accounted {start world : World} (fresh : Fresh start)
    (run : Reaches step anyStep start world) {index id : Nat} {stream : Stream}
    (found : world.streams[index]? = some stream) (handed : stream.handed id = true) :
    (stream.holds id = false → world.Accounted ⟨index, id⟩) ∧
    (¬ world.Accounted ⟨index, id⟩ → stream.holds id = true ∧ ∃ position entry,
      stream.pending[position]? = some entry ∧ entry.id = id ∧
        Reclaimable world index position entry) := by
  have disposed : Disposed world :=
    run.invariant fresh.disposed fun _ _ _ before _ taken => before.step taken
  obtain ⟨parses, before⟩ : stream.entries[id]? = some true ∧ id < stream.unread :=
    of_decide_eq_true handed
  have waits : ¬ world.Accounted ⟨index, id⟩ → stream.Waits id := by
    intro unaccounted
    refine (disposed.waits index stream found id).resolve_left (not_or.mpr ⟨unaccounted, ?_⟩)
    rintro ⟨other, same, malformed⟩
    rw [Option.some.inj (found.symm.trans same), malformed] at parses
    cases parses
  have holds : stream.Waits id → stream.holds id = true := fun waits =>
    Stream.holds_iff.mpr ⟨(List.getElem?_eq_some_iff.mp parses).1, waits.present⟩
  constructor
  · intro gone
    refine Classical.byContradiction fun unaccounted => ?_
    rw [holds (waits unaccounted)] at gone
    cases gone
  · intro unaccounted
    obtain ⟨entry, member, rfl⟩ := (waits unaccounted).pends before
    obtain ⟨position, listed⟩ := List.mem_iff_getElem?.mp member
    have there := holds (waits unaccounted)
    exact ⟨there, position, entry, listed, rfl, reclaimable found listed there parses⟩

/-- One stream with an entry, and a worker. -/
def oneEntry : World where
  streams := [{ entries := [true] }]
  workers := [{}]

/-- The copy of a refused entry cannot be written: the entry is kept. -/
def keptEntry : World :=
  (perform step oneEntry [.worker 0 (.read 0), .worker 0 (.acquire .consume),
    .worker 0 (.start .consume), .call 0 .begin,
    .call 0 (.ended (.threw { nonRetryable := true })), .call 0 (.written false .null)]).getD {}

theorem entries_accounted_kept : ¬ keptEntry.Accounted ⟨0, 0⟩ ∧ ∃ position entry,
    keptEntry.streams[0]?.any (·.holds 0) = true ∧ Reclaimable keptEntry 0 position entry := by
  have fresh : Fresh oneEntry := ⟨by decide, by simp [oneEntry], rfl, rfl, rfl, rfl⟩
  have run : Reaches step anyStep oneEntry keptEntry := reaches_any_performed _ (by decide +kernel)
  have unaccounted : ¬ keptEntry.Accounted ⟨0, 0⟩ := by decide +kernel
  have found : keptEntry.streams[0]? = some ⟨[true], 1, [⟨0, 0, 1⟩], []⟩ := by decide +kernel
  obtain ⟨holds, position, entry, _, _, reclaimable⟩ :=
    (entries_accounted fresh run found (by decide)).2 unaccounted
  exact ⟨unaccounted, position, entry, by rw [found]; exact holds, reclaimable⟩

end Notifkit.Workers
