import Mathlib.Data.List.Perm.Basic
import Mathlib.Data.List.Nodup
import Notifkit.Workers.BaseWorker

/-!
# Calls that reject

What is thrown in the body of `processWithTracking` is caught there. What is thrown in its `catch`
block is not: a copy that cannot be written, a removal that fails or a listener that throws while a
non-retryable error is being handled makes the call reject. Nobody handles that, unless the worker is
at its end and waits for its calls, and the process is ended.

The permits are right in any case: a worker has as many out as it has messages in flight and loops
about to start one.
-/

namespace Notifkit.Workers

open Runs Queue Tables

section Permits

/-- The permits of a loop. -/
def LoopState.permits : LoopState → Nat
  | .granted => 1
  | .idle | .waiting => 0

/-- The loops that hold a permit for the message they are about to start. -/
def Worker.granted (worker : Worker) : Nat :=
  worker.consuming.state.permits + worker.recovering.state.permits

/-- A worker's messages in flight. -/
def World.active (world : World) (index : Nat) : Nat :=
  world.calls.countP fun call => call.worker = index

/-- A worker's permits, with so many messages in flight. -/
structure Balance (active : Nat) (worker : Worker) : Prop where
  count : worker.semaphore.count = active + worker.granted
  within : worker.semaphore.count ≤ worker.options.concurrency
  queued : ∀ who, who ∈ worker.semaphore.queue ↔ (worker.loop who).state = .waiting
  once : worker.semaphore.queue.Nodup
  next : ∀ who, (worker.loop who).state ≠ .idle → (worker.loop who).batch ≠ []

/-- The permits of all workers are right, and calls are of workers that are there. -/
structure Balanced (world : World) : Prop where
  permits : ∀ index worker, world.workers[index]? = some worker → Balance (world.active index) worker
  owned : ∀ call ∈ world.calls, call.worker < world.workers.length

variable {active : Nat} {worker : Worker} {who : LoopName}

/-- A loop's batch is nothing to the permits, as long as a message stays that one is for. -/
theorem Balance.setBatch {batch : List Message} (balance : Balance active worker)
    (kept : (worker.loop who).state ≠ .idle → batch ≠ []) :
    Balance active (worker.setLoop who { worker.loop who with batch := batch }) where
  count := by cases who <;> exact balance.count
  within := by cases who <;> exact balance.within
  queued other := by cases who <;> cases other <;> exact balance.queued _
  once := by cases who <;> exact balance.once
  next other := by
    cases who <;> cases other
    · exact kept
    · exact balance.next .recover
    · exact balance.next .consume
    · exact kept

/-- A loop has a permit at once, or is in the queue. -/
theorem Balance.acquire (balance : Balance active worker) (idle : (worker.loop who).state = .idle)
    (some : (worker.loop who).batch ≠ []) :
    let taken := worker.semaphore.acquire worker.options.concurrency who
    Balance active ({ worker with semaphore := taken.1 }.setLoop who
      { worker.loop who with state := if taken.2 then .granted else .waiting }) := by
  have counted := balance.count
  have unqueued : who ∉ worker.semaphore.queue := by
    rw [balance.queued, idle]
    nofun
  have queuedOther := balance.queued
  have nextOther := balance.next
  unfold AsyncSemaphore.acquire
  split
  next room =>
    refine ⟨?_, ?_, fun other => ?_, ?_, fun other => ?_⟩
    · cases who <;> simp_all [Worker.setLoop, Worker.granted, Worker.loop, LoopState.permits] <;> omega
    · cases who <;> exact room
    · have before := queuedOther other
      cases who <;> cases other <;> simp_all [Worker.setLoop, Worker.loop]
    · cases who <;> exact balance.once
    · have before := nextOther other
      cases who <;> cases other <;> simp_all [Worker.setLoop, Worker.loop]
  next full =>
    refine ⟨?_, ?_, fun other => ?_, ?_, fun other => ?_⟩
    · cases who <;> simp_all [Worker.setLoop, Worker.granted, Worker.loop, LoopState.permits]
    · cases who <;> exact balance.within
    · have before := queuedOther other
      cases who <;> cases other <;> simp_all [Worker.setLoop, Worker.loop]
    · have queued : (worker.semaphore.queue ++ [who]).Nodup :=
        List.nodup_append'.mpr ⟨balance.once, List.nodup_singleton who, by simpa using unqueued⟩
      cases who <;> exact queued
    · have before := nextOther other
      cases who <;> cases other <;> simp_all [Worker.setLoop, Worker.loop]

/-- The permit of a loop goes to the call it starts. -/
theorem Balance.start {rest : List Message} (balance : Balance active worker)
    (granted : (worker.loop who).state = .granted) :
    Balance (active + 1) (worker.setLoop who { batch := rest, state := .idle }) := by
  have counted := balance.count
  refine ⟨?_, ?_, fun other => ?_, ?_, fun other => ?_⟩
  · cases who with
    | consume =>
      have had : worker.consuming.state = .granted := granted
      simp only [Worker.granted, had, LoopState.permits] at counted
      simp only [Worker.granted, Worker.setLoop, LoopState.permits]
      omega
    | recover =>
      have had : worker.recovering.state = .granted := granted
      simp only [Worker.granted, had, LoopState.permits] at counted
      simp only [Worker.granted, Worker.setLoop, LoopState.permits]
      omega
  · cases who <;> exact balance.within
  · have before := balance.queued other
    cases who <;> cases other <;> simp_all [Worker.setLoop, Worker.loop]
  · cases who <;> exact balance.once
  · have before := balance.next other
    cases who <;> cases other <;> simp_all [Worker.setLoop, Worker.loop]

/-- With nobody in the queue a permit goes back. -/
theorem Worker.release_nil (queue : worker.semaphore.queue = []) : worker.release =
    { worker with semaphore := { worker.semaphore with count := worker.semaphore.count - 1 } } := by
  simp [Worker.release, AsyncSemaphore.release, queue]

/-- The first in the queue has the permit next. -/
theorem Worker.release_cons {first : LoopName} {rest : List LoopName}
    (queue : worker.semaphore.queue = first :: rest) : worker.release =
    { worker with semaphore := { worker.semaphore with queue := rest } }.setLoop first
      { worker.loop first with state := .granted } := by
  simp only [Worker.release, AsyncSemaphore.release, queue]
  cases first <;> rfl

/-- The permit of a call goes to the first loop in the queue, or back. -/
theorem Balance.release (balance : Balance (active + 1) worker) : Balance active worker.release := by
  have counted := balance.count
  have within := balance.within
  cases queue : worker.semaphore.queue with
  | nil =>
    rw [Worker.release_nil queue]
    refine ⟨?_, ?_, balance.queued, balance.once, balance.next⟩
    · simp only [Worker.granted] at counted ⊢
      omega
    · dsimp only
      omega
  | cons first rest =>
    have once := balance.once
    rw [queue] at once
    obtain ⟨apart, fewer⟩ := List.nodup_cons.mp once
    have waits : (worker.loop first).state = .waiting := by
      rw [← balance.queued, queue]
      exact List.mem_cons_self
    rw [Worker.release_cons queue]
    refine ⟨?_, ?_, fun other => ?_, ?_, fun other => ?_⟩
    · cases first with
      | consume =>
        have had : worker.consuming.state = .waiting := waits
        simp only [Worker.granted, had, LoopState.permits] at counted
        simp only [Worker.granted, Worker.setLoop, LoopState.permits]
        omega
      | recover =>
        have had : worker.recovering.state = .waiting := waits
        simp only [Worker.granted, had, LoopState.permits] at counted
        simp only [Worker.granted, Worker.setLoop, LoopState.permits]
        omega
    · cases first <;> exact within
    · have before := balance.queued other
      rw [queue] at before
      cases first <;> cases other <;> simp_all [Worker.setLoop, Worker.loop]
    · cases first <;> exact fewer
    · have before := balance.next other
      have own := balance.next first
      cases first <;> cases other <;> simp_all [Worker.setLoop, Worker.loop]

end Permits

section Steps

variable {world next : World} {index : Nat} {worker changed : Worker} {call : Call}

/-- The messages in flight depend on whose the calls are. -/
theorem active_setPhase {phase : Phase} (found : world.calls[index]? = some call) (place : Nat) :
    (world.setPhase index call phase).active place = world.active place := by
  obtain ⟨inside, own⟩ := List.getElem?_eq_some_iff.mp found
  have counted : (if decide (call.worker = place) = true then 1 else 0) ≤ world.active place := by
    split
    next same => exact List.countP_pos_iff.mpr ⟨call, List.mem_of_getElem? found, same⟩
    · exact Nat.zero_le _
  simp only [World.active, World.setPhase] at counted ⊢
  rw [List.countP_set inside, own]
  exact Nat.sub_add_cancel counted

/-- A call that is gone was one. -/
theorem active_eraseIdx (found : world.calls[index]? = some call) (place : Nat) :
    world.active place = World.active { world with calls := world.calls.eraseIdx index } place +
      if call.worker = place then 1 else 0 := by
  obtain ⟨inside, own⟩ := List.getElem?_eq_some_iff.mp found
  have same := (List.getElem_cons_eraseIdx_perm inside).countP_eq fun call => call.worker = place
  rw [own, List.countP_cons] at same
  simp only [World.active, ← same, decide_eq_true_eq]

/-- One worker changes, with as many messages in flight. -/
theorem Balanced.setWorker (balanced : Balanced world)
    (balance : Balance (world.active index) changed) : Balanced (world.setWorker index changed) where
  permits place row found := by
    rcases Nat.decEq place index with differ | rfl
    · refine balanced.permits place row ?_
      rwa [World.setWorker, List.getElem?_set_ne (Ne.symm differ)] at found
    · obtain ⟨inside, _⟩ := List.getElem?_eq_some_iff.mp found
      rw [World.setWorker, List.getElem?_set_self (by simpa [World.setWorker] using inside)] at found
      exact Option.some.inj found ▸ balance
  owned call member := by
    rw [World.setWorker, List.length_set]
    exact balanced.owned call member

/-- What is no worker, call or permit does not matter. -/
theorem Balanced.of_eq (balanced : Balanced world) (workers : next.workers = world.workers)
    (calls : next.calls = world.calls) : Balanced next where
  permits place row found := by
    rw [World.active, calls]
    exact balanced.permits place row (workers ▸ found)
  owned call member := by
    rw [workers]
    exact balanced.owned call (calls ▸ member)

theorem Balanced.setPhase {phase : Phase} (balanced : Balanced world)
    (found : world.calls[index]? = some call) : Balanced (world.setPhase index call phase) where
  permits place row foundRow := by
    rw [active_setPhase found]
    exact balanced.permits place row foundRow
  owned := all_set balanced.owned (balanced.owned call (List.mem_of_getElem? found))

theorem Balanced.streamStep {action : StreamAction} (balanced : Balanced world)
    (taken : streamStep world action = some next) : Balanced next := by
  cases action with
  | tick ms => exact balanced.of_eq (by simp [← Option.some.inj taken]) (by simp [← Option.some.inj taken])
  | append place parses =>
    obtain ⟨stream, _, same⟩ := Option.bind_eq_some_iff.mp taken
    rw [← Option.some.inj same]
    exact balanced.of_eq rfl rfl
  | execute position =>
    obtain ⟨removal, _, taken⟩ := Option.bind_eq_some_iff.mp taken
    obtain ⟨stream, _, same⟩ := Option.bind_eq_some_iff.mp taken
    rw [← Option.some.inj same]
    exact balanced.of_eq rfl rfl
  | lose position =>
    rw [← Option.some.inj taken]
    exact balanced.of_eq rfl rfl

/-- Messages that were read or claimed wait at the end of a batch. -/
theorem Balance.append {active : Nat} (balance : Balance active worker) (who : LoopName)
    (message : Message) : Balance active (worker.setLoop who { worker.loop who with
      batch := (worker.loop who).batch ++ [message] }) :=
  balance.setBatch fun _ => List.append_ne_nil_of_right_ne_nil _ (List.cons_ne_nil _ _)

theorem Balanced.read {place : Nat} (balanced : Balanced world)
    (found : world.workers[index]? = some worker)
    (taken : read world worker index place = some next) : Balanced next := by
  obtain ⟨stream, _, taken⟩ := Option.bind_eq_some_iff.mp taken
  obtain ⟨parses, _, taken⟩ := Option.bind_eq_some_iff.mp taken
  have handed : Balanced (world.setStream place (stream.xreadgroup world.now)) :=
    balanced.of_eq rfl rfl
  split at taken
  · rw [← Option.some.inj taken]
    exact handed.setWorker ((balanced.permits index worker found).append .consume _)
  · rw [← Option.some.inj taken]
    exact handed.of_eq rfl rfl

theorem Balanced.autoclaim {place position : Nat} (balanced : Balanced world)
    (found : world.workers[index]? = some worker)
    (taken : autoclaim world worker index place position = some next) : Balanced next := by
  obtain ⟨stream, _, taken⟩ := Option.bind_eq_some_iff.mp taken
  obtain ⟨entry, _, taken⟩ := Option.bind_eq_some_iff.mp taken
  have claimed : Balanced (world.setStream place (stream.xclaim entry.id world.now)) :=
    balanced.of_eq rfl rfl
  split at taken
  · dsimp only at taken
    split at taken
    · rw [← Option.some.inj taken]
      exact claimed.setWorker ((balanced.permits index worker found).append .recover _)
    · exact Option.some.inj taken ▸ claimed
  · cases taken

theorem Balanced.acquire {who : LoopName} (balanced : Balanced world)
    (found : world.workers[index]? = some worker)
    (taken : acquire world worker index who = some next) : Balanced next := by
  unfold Workers.acquire at taken
  dsimp only at taken
  split at taken
  next ready =>
    rw [← Option.some.inj taken]
    exact balanced.setWorker ((balanced.permits index worker found).acquire ready.1 ready.2)
  · cases taken

/-- A call that is started is one more message in flight. -/
theorem Balanced.start {who : LoopName} (balanced : Balanced world)
    (found : world.workers[index]? = some worker)
    (taken : start world worker index who = some next) : Balanced next := by
  unfold Workers.start at taken
  dsimp only at taken
  split at taken
  next message rest granted _ =>
    rw [← Option.some.inj taken]
    obtain ⟨inside, _⟩ := List.getElem?_eq_some_iff.mp found
    constructor
    · intro place row foundRow
      simp only [World.active, List.countP_append, List.countP_singleton, decide_eq_true_eq]
      rcases (row_set found).mp foundRow with ⟨rfl, rfl⟩ | ⟨differ, before⟩
      · rw [if_pos rfl]
        exact (balanced.permits _ worker found).start granted
      · rw [if_neg (Ne.symm differ)]
        exact balanced.permits place row before
    · simp only [World.setWorker, List.length_set]
      exact all_append balanced.owned inside
  · cases taken

/-- A worker that crashed has no permits out. -/
theorem Balanced.crash (balanced : Balanced world) (found : world.workers[index]? = some worker) :
    Balanced { world.setWorker index { options := worker.options } with
      calls := world.calls.filter fun call => call.worker ≠ index } where
  permits place row foundRow := by
    rcases (row_set found).mp foundRow with ⟨rfl, rfl⟩ | ⟨differ, before⟩
    · refine ⟨?_, Nat.zero_le _, fun who => ?_, List.nodup_nil, fun who busy => ?_⟩
      · simp [World.active, List.countP_filter, Worker.granted, LoopState.permits]
      · cases who <;> simp [Worker.loop]
      · cases who <;> exact absurd rfl busy
    · have same : World.active { world.setWorker index { options := worker.options } with
          calls := world.calls.filter fun call => call.worker ≠ index } place =
          world.active place := by
        simp only [World.active, List.countP_filter]
        refine List.countP_congr fun call _ => ?_
        simp only [Bool.and_eq_true, decide_eq_true_eq, ne_eq, and_iff_left_iff_imp]
        exact fun own same => differ (own.symm.trans same)
      exact same ▸ balanced.permits place row before
  owned call member := by
    rw [World.setWorker, List.length_set]
    exact balanced.owned call (List.mem_filter.mp member).1

/-- Waiting for the calls changes none of them. -/
theorem Balanced.finish (balanced : Balanced world) :
    Balanced { world with calls := world.calls.map fun call =>
      if call.worker = index then { call with awaited := true } else call } where
  permits place row found := by
    have same : World.active { world with calls := world.calls.map fun call =>
        if call.worker = index then { call with awaited := true } else call } place =
        world.active place := by
      simp only [World.active, List.countP_map]
      refine List.countP_congr fun call _ => ?_
      simp only [Function.comp_apply]
      split <;> rfl
    exact same ▸ balanced.permits place row found
  owned call member := by
    obtain ⟨earlier, before, rfl⟩ := List.mem_map.mp member
    split <;> exact balanced.owned earlier before

/-- Flushing changes no permits. -/
theorem Balance.flush {active : Nat} (balance : Balance active worker) (place : Nat) :
    Balance active (worker.flushAcksForStream place).1 := by
  unfold Worker.flushAcksForStream
  split
  · exact balance
  · exact ⟨balance.count, balance.within, balance.queued, balance.once, balance.next⟩

/-- Nor does acknowledging. -/
theorem Balance.ack {active : Nat} (balance : Balance active worker) (ref : Ref) :
    Balance active (worker.ack ref).1 := by
  have buffered : Balance active { worker with ackBuffers := worker.ackBuffers ++ [ref] } :=
    ⟨balance.count, balance.within, balance.queued, balance.once, balance.next⟩
  unfold Worker.ack
  split
  · dsimp only
    split
    · exact buffered.flush ref.stream
    · exact buffered
  · exact balance

theorem Balanced.workerStep {action : WorkerAction} (balanced : Balanced world)
    (taken : workerStep world index action = some next) : Balanced next := by
  obtain ⟨worker, found, taken⟩ := Option.bind_eq_some_iff.mp taken
  have balance := balanced.permits index worker found
  split at taken
  · cases taken
  cases action with
  | read place => exact balanced.read found taken
  | claim place position => exact balanced.autoclaim found taken
  | drop who =>
    dsimp only at taken
    split at taken
    next idle =>
      rw [← Option.some.inj taken]
      refine balanced.setWorker ?_
      have dropped : ({} : Loop) = { worker.loop who with batch := [] } := by
        simp only [idle]
      exact dropped ▸ balance.setBatch fun busy => absurd idle busy
    · cases taken
  | acquire who => exact balanced.acquire found taken
  | start who => exact balanced.start found taken
  | flush place =>
    rw [← Option.some.inj taken]
    exact (balanced.setWorker (balance.flush place)).of_eq rfl rfl
  | stop =>
    rw [← Option.some.inj taken]
    exact balanced.setWorker
      ⟨balance.count, balance.within, balance.queued, balance.once, balance.next⟩
  | finish =>
    dsimp only at taken
    split at taken
    · exact Option.some.inj taken ▸ balanced.finish
    · cases taken
  | crash => exact Option.some.inj taken ▸ balanced.crash found

/-- A call that settles gives its permit back. -/
theorem Balanced.settle (balanced : Balanced world) (found : world.calls[index]? = some call)
    (foundWorker : world.workers[call.worker]? = some worker) (halted : Bool) :
    Balanced { world.setWorker call.worker { worker.release with halted := halted } with
      calls := world.calls.eraseIdx index } where
  permits place row foundRow := by
    have counted := active_eraseIdx found place
    rcases (row_set foundWorker).mp foundRow with ⟨rfl, rfl⟩ | ⟨differ, before⟩
    · rw [if_pos rfl] at counted
      have released := (counted ▸ balanced.permits _ worker foundWorker).release
      exact ⟨released.count, released.within, released.queued, released.once, released.next⟩
    · have permits := balanced.permits place row before
      rwa [counted, if_neg (Ne.symm differ)] at permits
  owned other member := by
    rw [World.setWorker, List.length_set]
    exact balanced.owned other (List.mem_of_mem_eraseIdx member)

/-- An acknowledgement, an answer or a record leave the permits. -/
theorem Balanced.processWithTracking {action : CallAction} (balanced : Balanced world)
    (found : world.calls[index]? = some call)
    (foundWorker : world.workers[call.worker]? = some worker)
    (taken : processWithTracking world worker index call action = some next) : Balanced next := by
  cases action with
  | begin =>
    simp only [Workers.processWithTracking, Option.ite_none_right_eq_some] at taken
    exact Option.some.inj taken.2 ▸ balanced.setPhase found
  | touch =>
    obtain ⟨stream, _, taken⟩ := Option.bind_eq_some_iff.mp taken
    rw [Option.ite_none_right_eq_some] at taken
    exact Option.some.inj taken.2 ▸ balanced.of_eq rfl rfl
  | ended ending =>
    simp only [Workers.processWithTracking, Option.ite_none_right_eq_some] at taken
    match ending, taken with
    | .returned false, taken => exact Option.some.inj taken.2 ▸ balanced.setPhase found
    | .returned true, taken =>
      rw [← Option.some.inj taken.2]
      have acked : Balanced (world.setWorker call.worker (worker.ack call.message.ref).1) :=
        balanced.setWorker ((balanced.permits _ worker foundWorker).ack _)
      have phased : Balanced ((world.setWorker call.worker
          (worker.ack call.message.ref).1).setPhase index call .acking) := acked.setPhase found
      exact phased.of_eq rfl rfl
    | .threw error, taken => exact Option.some.inj taken.2 ▸ balanced.setPhase found
  | acked failure =>
    simp only [Workers.processWithTracking, Option.ite_none_right_eq_some] at taken
    exact Option.some.inj taken.2 ▸ balanced.setPhase found
  | written landed reply =>
    simp only [Workers.processWithTracking] at taken
    split at taken
    · have copied : Balanced { world with
          deadLetters := world.deadLetters ++ if landed then [call.message.ref] else [] } :=
        balanced.of_eq rfl rfl
      cases reply with
      | id =>
        simp only [Option.ite_none_right_eq_some] at taken
        obtain ⟨rfl, same⟩ := taken
        rw [← Option.some.inj same]
        exact Balanced.of_eq (copied.setPhase found) rfl rfl
      | null => exact Option.some.inj taken ▸ copied.setPhase found
      | error thrown => exact Option.some.inj taken ▸ copied.setPhase found
    · cases taken
  | removed failure =>
    simp only [Workers.processWithTracking] at taken
    split at taken
    · exact Option.some.inj taken ▸ balanced.setPhase found
    · cases taken
  | emitted failure =>
    simp only [Workers.processWithTracking] at taken
    split at taken
    · exact Option.some.inj taken ▸ balanced.setPhase found
    · cases taken
  | settle =>
    simp only [Workers.processWithTracking, Option.ite_none_right_eq_some] at taken
    exact Option.some.inj taken.2 ▸ balanced.settle found foundWorker _

/-- The permits are right after every step. -/
theorem Balanced.step {action : Action} (balanced : Balanced world)
    (taken : step world action = some next) : Balanced next := by
  cases action with
  | stream action => exact balanced.streamStep taken
  | worker index action => exact balanced.workerStep taken
  | call index action =>
    obtain ⟨call, found, taken⟩ := Option.bind_eq_some_iff.mp taken
    obtain ⟨worker, foundWorker, taken⟩ := Option.bind_eq_some_iff.mp taken
    split at taken
    · cases taken
    · exact balanced.processWithTracking found foundWorker taken

/-- At the start no permits are out. -/
theorem Fresh.balanced {world : World} (fresh : Fresh world) : Balanced world where
  permits index worker found := by
    obtain ⟨options, rfl⟩ := fresh.workers worker (List.mem_of_getElem? found)
    refine ⟨?_, Nat.zero_le _, fun who => ?_, List.nodup_nil, fun who busy => ?_⟩
    · simp [World.active, fresh.calls, Worker.granted, LoopState.permits]
    · cases who <;> simp [Worker.loop]
    · cases who <;> exact absurd rfl busy
  owned call member := by
    rw [fresh.calls] at member
    cases member

end Steps

/-- The answers a call may still get. -/
def Phase.left : Phase → Nat
  | .called => 8
  | .processing => 7
  | .nacking false => 6
  | .removing false => 5
  | .acking | .emitting false => 4
  | .nacking true => 3
  | .removing true => 2
  | .emitting true => 1
  | .resolved | .rejected => 0

/-- Something fails while a call handles a non-retryable error: its copy is not written, its entry
is not removed, or a listener throws. -/
def CallAction.failsHandling : CallAction → Phase → Bool
  | .written _ reply, .nacking true => reply ≠ .id
  | .removed failure, .removing true => failure ≠ none
  | .emitted failure, .emitting true => failure ≠ none
  | _, _ => false

/-- The step fails no call that handles an error. -/
def Handled (world : World) : Action → Prop
  | .call index action =>
    ∀ call ∈ world.calls[index]?, action.failsHandling call.phase = false
  | .stream _ | .worker _ _ => True

instance (world : World) (action : Action) : Decidable (Handled world action) :=
  match action with
  | .call _ _ => inferInstanceAs (Decidable (∀ _ ∈ _, _))
  | .stream _ | .worker _ _ => .isTrue trivial

/-- No call rejects, and no process was ended by one that did. -/
structure Resolves (world : World) : Prop where
  resolved : ∀ call ∈ world.calls, call.phase ≠ .rejected
  running : ∀ worker ∈ world.workers, worker.halted = false

section Answers

variable {world next : World} {index : Nat} {worker : Worker} {call : Call} {action : CallAction}

/-- What is thrown brings a call nearer to its end; it rejects where it is handling. -/
theorem Thrown.caught_left (error : Thrown) (handling : Bool) :
    (error.caught handling).left ≤ (if handling then 0 else 3) ∧
      (error.caught handling = .rejected ↔ handling = true) := by
  unfold Thrown.caught
  cases handling <;> cases error.lockHeld <;> cases error.nonRetryable <;> decide

/-- So does an answer that may be a failure. -/
theorem Phase.orCaught_left (phase : Phase) (failure : Option Thrown) (handling : Bool)
    (going : phase ≠ .rejected) :
    (phase.orCaught failure handling).left ≤ max phase.left (if handling then 0 else 3) ∧
      (phase.orCaught failure handling = .rejected ↔ handling = true ∧ failure ≠ none) := by
  cases failure with
  | none => exact ⟨Nat.le_max_left _ _, by simp [Phase.orCaught, going]⟩
  | some error =>
    obtain ⟨left, rejects⟩ := error.caught_left handling
    exact ⟨Nat.le_trans left (Nat.le_max_right _ _), by simp [Phase.orCaught, rejects]⟩

/-- An answer brings its call nearer to the end. The call rejects where something failed while it was
handling an error; its process goes on. -/
theorem answered (running : worker.halted = false)
    (taken : processWithTracking world worker index call action = some next)
    (answer : action ≠ .touch) (going : action ≠ .settle) :
    ∃ phase, next.calls = world.calls.set index { call with phase := phase } ∧
      phase.left < call.phase.left ∧
      (phase = .rejected ↔ action.failsHandling call.phase = true) ∧
      ((∀ worker ∈ world.workers, worker.halted = false) →
        ∀ worker ∈ next.workers, worker.halted = false) := by
  cases action with
  | begin =>
    simp only [processWithTracking, Option.ite_none_right_eq_some] at taken
    obtain ⟨called, same⟩ := taken
    rw [← Option.some.inj same, called]
    refine ⟨_, rfl, ?_, ?_, fun all => all⟩
    · split <;> decide
    · simp only [CallAction.failsHandling, Bool.false_eq_true, iff_false]
      split <;> nofun
  | touch => exact absurd rfl answer
  | ended ending =>
    simp only [processWithTracking, Option.ite_none_right_eq_some] at taken
    obtain ⟨processing, taken⟩ := taken
    rw [processing]
    match ending, taken with
    | .returned false, taken =>
      rw [← Option.some.inj taken]
      exact ⟨_, rfl, by decide, by decide, fun all => all⟩
    | .returned true, taken =>
      rw [← Option.some.inj taken]
      refine ⟨.acking, rfl, by decide, by decide, fun all => all_set all ?_⟩
      unfold Worker.ack
      split
      · dsimp only
        split
        · unfold Worker.flushAcksForStream
          split <;> exact running
        · exact running
      · exact running
    | .threw error, taken =>
      rw [← Option.some.inj taken]
      obtain ⟨left, rejects⟩ := error.caught_left false
      exact ⟨_, rfl, Nat.lt_of_le_of_lt left (by decide), by simp [rejects, CallAction.failsHandling],
        fun all => all⟩
  | acked failure =>
    simp only [processWithTracking, Option.ite_none_right_eq_some] at taken
    obtain ⟨⟨acking, _⟩, same⟩ := taken
    rw [← Option.some.inj same, acking]
    obtain ⟨left, rejects⟩ := Phase.resolved.orCaught_left failure false nofun
    exact ⟨_, rfl, Nat.lt_of_le_of_lt left (by decide), by simp [rejects, CallAction.failsHandling],
      fun all => all⟩
  | written landed reply =>
    simp only [processWithTracking] at taken
    split at taken
    next handling nacking =>
      rw [nacking]
      cases reply with
      | id =>
        simp only [Option.ite_none_right_eq_some] at taken
        rw [← Option.some.inj taken.2]
        refine ⟨_, rfl, by cases handling <;> decide, ?_, fun all => all⟩
        cases handling <;> simp [CallAction.failsHandling]
      | null =>
        rw [← Option.some.inj taken]
        refine ⟨_, rfl, by cases handling <;> decide, ?_, fun all => all⟩
        cases handling <;> simp [Thrown.caught, CallAction.failsHandling]
      | error thrown =>
        rw [← Option.some.inj taken]
        obtain ⟨left, rejects⟩ := thrown.caught_left handling
        refine ⟨_, rfl, Nat.lt_of_le_of_lt left (by cases handling <;> decide), ?_, fun all => all⟩
        cases handling <;> simp [rejects, CallAction.failsHandling]
    · cases taken
  | removed failure =>
    simp only [processWithTracking] at taken
    split at taken
    next handling removing =>
      rw [← Option.some.inj taken, removing]
      obtain ⟨left, rejects⟩ := (Phase.emitting handling).orCaught_left failure handling nofun
      refine ⟨_, rfl, Nat.lt_of_le_of_lt left (by cases handling <;> decide), ?_, fun all => all⟩
      cases handling <;> simp [rejects, CallAction.failsHandling]
    · cases taken
  | emitted failure =>
    simp only [processWithTracking] at taken
    split at taken
    next handling emitting =>
      rw [← Option.some.inj taken, emitting]
      obtain ⟨left, rejects⟩ := Phase.resolved.orCaught_left failure handling nofun
      refine ⟨_, rfl, Nat.lt_of_le_of_lt left (by cases handling <;> decide), ?_, fun all => all⟩
      cases handling <;> simp [rejects, CallAction.failsHandling]
    · cases taken
  | settle => exact absurd rfl going

end Answers

section Runs

variable {world next : World} {index : Nat} {worker changed : Worker} {call : Call}

theorem Resolves.setWorker (resolves : Resolves world) (running : changed.halted = false) :
    Resolves (world.setWorker index changed) :=
  ⟨resolves.resolved, all_set resolves.running running⟩

/-- A loop has nothing to do with what its process has come to. -/
theorem Worker.halted_setLoop (worker : Worker) (who : LoopName) (loop : Loop) :
    (worker.setLoop who loop).halted = worker.halted := by
  cases who <;> rfl

theorem Resolves.streamStep {action : StreamAction} (resolves : Resolves world)
    (taken : streamStep world action = some next) : Resolves next := by
  cases action with
  | tick ms =>
    have same := Option.some.inj taken
    subst same
    exact ⟨resolves.resolved, resolves.running⟩
  | append place parses =>
    obtain ⟨stream, _, same⟩ := Option.bind_eq_some_iff.mp taken
    exact Option.some.inj same ▸ ⟨resolves.resolved, resolves.running⟩
  | execute position =>
    obtain ⟨removal, _, taken⟩ := Option.bind_eq_some_iff.mp taken
    obtain ⟨stream, _, same⟩ := Option.bind_eq_some_iff.mp taken
    exact Option.some.inj same ▸ ⟨resolves.resolved, resolves.running⟩
  | lose position => exact Option.some.inj taken ▸ ⟨resolves.resolved, resolves.running⟩

/-- A loop's messages do not reject. -/
theorem Resolves.setLoop {who : LoopName} {loop : Loop} (resolves : Resolves world)
    (running : worker.halted = false) :
    Resolves (world.setWorker index (worker.setLoop who loop)) :=
  resolves.setWorker ((worker.halted_setLoop who loop).trans running)

theorem Resolves.workerStep {action : WorkerAction} (resolves : Resolves world)
    (taken : workerStep world index action = some next) : Resolves next := by
  obtain ⟨worker, found, taken⟩ := Option.bind_eq_some_iff.mp taken
  have running := resolves.running worker (List.mem_of_getElem? found)
  rw [running] at taken
  simp only [Bool.false_eq_true, if_false] at taken
  cases action with
  | read place =>
    obtain ⟨stream, _, taken⟩ := Option.bind_eq_some_iff.mp taken
    obtain ⟨parses, _, taken⟩ := Option.bind_eq_some_iff.mp taken
    have handed : Resolves (world.setStream place (stream.xreadgroup world.now)) :=
      ⟨resolves.resolved, resolves.running⟩
    split at taken
    · exact Option.some.inj taken ▸ handed.setLoop running
    · exact Option.some.inj taken ▸ ⟨handed.resolved, handed.running⟩
  | claim place position =>
    obtain ⟨stream, _, taken⟩ := Option.bind_eq_some_iff.mp taken
    obtain ⟨entry, _, taken⟩ := Option.bind_eq_some_iff.mp taken
    have claimed : Resolves (world.setStream place (stream.xclaim entry.id world.now)) :=
      ⟨resolves.resolved, resolves.running⟩
    split at taken
    · dsimp only at taken
      split at taken
      · exact Option.some.inj taken ▸ claimed.setLoop running
      · exact Option.some.inj taken ▸ claimed
    · cases taken
  | drop who =>
    dsimp only at taken
    split at taken
    · exact Option.some.inj taken ▸ resolves.setLoop running
    · cases taken
  | acquire who =>
    dsimp only [acquire] at taken
    split at taken
    · rw [← Option.some.inj taken]
      exact resolves.setWorker ((Worker.halted_setLoop _ _ _).trans running)
    · cases taken
  | start who =>
    dsimp only [start] at taken
    split at taken
    next message rest _ _ =>
      rw [← Option.some.inj taken]
      have looped : Resolves (world.setWorker index
          (worker.setLoop who { batch := rest, state := .idle })) := resolves.setLoop running
      exact ⟨all_append looped.resolved nofun, looped.running⟩
    · cases taken
  | flush place =>
    rw [← Option.some.inj taken]
    have flushed : Resolves (world.setWorker index (worker.flushAcksForStream place).1) := by
      refine resolves.setWorker ?_
      unfold Worker.flushAcksForStream
      split <;> exact running
    exact ⟨flushed.resolved, flushed.running⟩
  | stop => exact Option.some.inj taken ▸ resolves.setWorker rfl
  | finish =>
    dsimp only at taken
    split at taken
    · rw [← Option.some.inj taken]
      refine ⟨fun call member => ?_, resolves.running⟩
      obtain ⟨earlier, before, rfl⟩ := List.mem_map.mp member
      split <;> exact resolves.resolved earlier before
    · cases taken
  | crash =>
    rw [← Option.some.inj taken]
    have restarted : Resolves (world.setWorker index { options := worker.options }) :=
      resolves.setWorker rfl
    exact ⟨fun call member => restarted.resolved call (List.mem_filter.mp member).1,
      restarted.running⟩

/-- A worker whose call resolved goes on. -/
theorem Resolves.settle (resolves : Resolves world) (found : world.calls[index]? = some call)
    (taken : processWithTracking world worker index call .settle = some next) : Resolves next := by
  simp only [processWithTracking, Option.ite_none_right_eq_some] at taken
  have resolved := resolves.resolved call (List.mem_of_getElem? found)
  rw [← Option.some.inj taken.2]
  refine ⟨fun other member => resolves.resolved other (List.mem_of_mem_eraseIdx member),
    all_set resolves.running ?_⟩
  simp [resolved]

/-- Where nothing fails while an error is handled, no call rejects. -/
theorem Resolves.step {action : Action} (resolves : Resolves world) (handled : Handled world action)
    (taken : step world action = some next) : Resolves next := by
  cases action with
  | stream action => exact resolves.streamStep taken
  | worker index action => exact resolves.workerStep taken
  | call index action =>
    obtain ⟨call, found, taken⟩ := Option.bind_eq_some_iff.mp taken
    obtain ⟨worker, foundWorker, taken⟩ := Option.bind_eq_some_iff.mp taken
    have running := resolves.running worker (List.mem_of_getElem? foundWorker)
    rw [running] at taken
    simp only [Bool.false_eq_true, if_false] at taken
    by_cases touches : action = .touch
    · subst touches
      obtain ⟨stream, _, taken⟩ := Option.bind_eq_some_iff.mp taken
      rw [Option.ite_none_right_eq_some] at taken
      exact Option.some.inj taken.2 ▸ ⟨resolves.resolved, resolves.running⟩
    by_cases settles : action = .settle
    · subst settles
      exact resolves.settle found taken
    · obtain ⟨phase, calls, _, rejects, running⟩ :=
        answered running taken touches settles
      refine ⟨?_, running resolves.running⟩
      rw [calls]
      refine all_set resolves.resolved fun rejected => ?_
      have failed := rejects.mp rejected
      rw [handled call found] at failed
      cases failed

end Runs

/-- What becomes of calls in a state. Permits are right; an answer brings a call nearer to its end,
where it rejects exactly if something failed while it was handling an error; and a call at its end
leaves the set, its permit given back once, ending its process where it rejected unawaited. -/
structure Tracks (world : World) : Prop where
  permits : Balanced world
  answers : ∀ index call action next, world.calls[index]? = some call →
    step world (.call index action) = some next → action ≠ .touch → action ≠ .settle →
    ∃ phase, next.calls = world.calls.set index { call with phase := phase } ∧
      phase.left < call.phase.left ∧ (phase = .rejected ↔ action.failsHandling call.phase = true)
  leaves : ∀ index call worker, world.calls[index]? = some call → call.settled = true →
    world.workers[call.worker]? = some worker → worker.halted = false →
    ∃ next after, step world (.call index .settle) = some next ∧
      next.calls = world.calls.eraseIdx index ∧ Balanced next ∧
      next.workers[call.worker]? = some after ∧
      (after.halted = true ↔ call.phase = .rejected ∧ call.awaited = false)

/-- Every state with its permits right tracks its calls. -/
theorem Balanced.tracks {world : World} (balanced : Balanced world) : Tracks world where
  permits := balanced
  answers index call action next found taken answer going := by
    obtain ⟨other, foundOther, taken⟩ := Option.bind_eq_some_iff.mp taken
    obtain ⟨worker, foundWorker, taken⟩ := Option.bind_eq_some_iff.mp taken
    obtain rfl := Option.some.inj (found.symm.trans foundOther)
    split at taken
    · cases taken
    next running =>
      obtain ⟨phase, calls, left, rejects, _⟩ :=
        answered (Bool.eq_false_iff.mpr running) taken answer going
      exact ⟨phase, calls, left, rejects⟩
  leaves index call worker found settled foundWorker running := by
    have taken : Workers.step world (.call index .settle) =
        some { world.setWorker call.worker { worker.release with
            halted := call.phase = .rejected ∧ call.awaited = false } with
          calls := world.calls.eraseIdx index } := by
      simp only [Workers.step, callStep, found, foundWorker, running, Option.bind_eq_bind,
        Option.bind_some, Bool.false_eq_true, if_false]
      exact if_pos settled
    obtain ⟨inside, _⟩ := List.getElem?_eq_some_iff.mp foundWorker
    exact ⟨_, _, taken, rfl, balanced.step taken, List.getElem?_set_self inside, by simp⟩

/-- In every run in which nothing fails while a call handles a non-retryable error, no call rejects
and no process is ended; in every run at all, calls are tracked. -/
theorem calls_resolve {start : World} (fresh : Fresh start) :
    (∀ world, Reaches step Handled start world → Resolves world) ∧
    ∀ world, Reaches step anyStep start world → Tracks world := by
  have resolves : Resolves start := by
    refine ⟨fun call member => ?_, fun worker member => ?_⟩
    · rw [fresh.calls] at member
      cases member
    · obtain ⟨options, rfl⟩ := fresh.workers worker member
      rfl
  refine ⟨fun world run => ?_, fun world run => Balanced.tracks ?_⟩
  · exact run.invariant resolves fun _ _ _ before handled taken => before.step handled taken
  · exact run.invariant fresh.balanced fun _ _ _ before _ taken => before.step taken

/-- A stream with one entry, and a worker for it. -/
def loneWorker : World where
  streams := [{ entries := [true] }]
  workers := [{}]

theorem loneWorker_fresh : Fresh loneWorker :=
  ⟨by decide, fun worker member => ⟨{}, List.mem_singleton.mp member⟩, rfl, rfl, rfl, rfl⟩

/-- The entry is refused for good. -/
def refusal : List Action :=
  [.worker 0 (.read 0), .worker 0 (.acquire .consume), .worker 0 (.start .consume), .call 0 .begin,
    .call 0 (.ended (.threw { nonRetryable := true }))]

/-- Its copy is written, and the call is over. -/
theorem calls_resolve_refusal :
    Resolves ((perform step loneWorker (refusal ++ [Action.call 0 (.written true .id),
      .call 0 (.removed none), .call 0 (.emitted none), .call 0 .settle])).getD {}) :=
  (calls_resolve loneWorker_fresh).1 _
    (reaches_performed _ (by decide +kernel) (by decide +kernel))

/-- Its copy cannot be written: the call rejects, and that ends the process. -/
theorem rejection_ends_process : ¬ ∀ start world : World, Fresh start →
    Reaches step anyStep start world → Resolves world := by
  intro claimed
  have resolves := claimed loneWorker
    ((perform step loneWorker (refusal ++ [Action.call 0 (.written false .null), .call 0 .settle])).getD {})
    loneWorker_fresh (reaches_any_performed _ (by decide +kernel))
  have halted : ∃ worker ∈ ((perform step loneWorker
      (refusal ++ [Action.call 0 (.written false .null), .call 0 .settle])).getD {}).workers,
      worker.halted = true := by decide +kernel
  obtain ⟨worker, member, ended⟩ := halted
  rw [resolves.running worker member] at ended
  cases ended

end Notifkit.Workers
