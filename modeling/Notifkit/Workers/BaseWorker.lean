import Notifkit.Foundations.Runs
import Notifkit.Queue.StreamGroup

/-!
# Workers of a consumer group

A worker hands the messages it read or claimed to its calls, one permit each. A call processes its
message and disposes of the entry: it is acknowledged, left pending, or copied to the dead-letter
stream and then acknowledged. Each command and each listener may fail; a removal may take effect at
any time after it was issued, or never.

The batches of a read and of a scan are taken entry by entry. A worker may lose the messages it has
not come to: a reply is lost, a read fails half-way, or it is stopped.
-/

namespace Notifkit.Workers

open Queue

/-- Something thrown, as far as a handler looks at it. -/
structure Thrown where
  lockHeld : Bool := false
  nonRetryable : Bool := false
deriving DecidableEq

/-- How `process` ends; `ack` is false where its result says so. -/
inductive Ending where
  | returned (ack : Bool)
  | threw (error : Thrown)
deriving DecidableEq

/-- The answer to an `XADD`. -/
inductive Reply where
  | id
  | null
  | error (thrown : Thrown)
deriving DecidableEq

/-- Where a call of `processWithTracking` stands. What is `handling` is done in its `catch` block. -/
inductive Phase where
  | called
  | processing
  | acking
  /-- `nack`: the copy is being written -/
  | nacking (handling : Bool)
  /-- `nack`: the entry is being removed -/
  | removing (handling : Bool)
  /-- the listeners are being told -/
  | emitting (handling : Bool)
  | resolved
  | rejected
deriving DecidableEq

/-- A throw in the body comes into the `catch` block; one in there comes out of the call. -/
def Thrown.caught (error : Thrown) (handling : Bool) : Phase :=
  if handling then .rejected
  else if error.lockHeld then .resolved
  else if error.nonRetryable then .nacking true
  else .resolved

/-- Goes on to the next phase unless something was thrown. -/
def Phase.orCaught (next : Phase) (failure : Option Thrown) (handling : Bool) : Phase :=
  match failure with
  | none => next
  | some error => error.caught handling

structure Message where
  ref : Ref
  deliveryCount : Nat
deriving DecidableEq

structure Call where
  worker : Nat
  message : Message
  phase : Phase := .called
  /-- the worker waits for it at its end -/
  awaited : Bool := false
deriving DecidableEq

/-- The call will do nothing more. -/
def Call.settled (call : Call) : Bool := call.phase = .resolved || call.phase = .rejected

structure WorkerOptions where
  concurrency : Nat := 10
  maxRetriesBeforeDlq : Nat := 3
  batchSize : Nat := 10
  bufferAcks : Bool := false
deriving DecidableEq

/-- The two loops that start calls. -/
inductive LoopName where
  | consume | recover
deriving DecidableEq

/-- `AsyncSemaphore`; who waits is a loop. -/
structure AsyncSemaphore where
  count : Nat := 0
  queue : List LoopName := []
deriving DecidableEq

/-- A permit at once, or a place in the queue. -/
def AsyncSemaphore.acquire (semaphore : AsyncSemaphore) (max : Nat) (who : LoopName) :
    AsyncSemaphore × Bool :=
  if semaphore.count < max then ({ semaphore with count := semaphore.count + 1 }, true)
  else ({ semaphore with queue := semaphore.queue ++ [who] }, false)

/-- The permit goes to the first in the queue, or back. -/
def AsyncSemaphore.release (semaphore : AsyncSemaphore) : AsyncSemaphore × Option LoopName :=
  match semaphore.queue with
  | next :: rest => ({ semaphore with queue := rest }, some next)
  | [] => ({ semaphore with count := semaphore.count - 1 }, none)

inductive LoopState where
  | idle | waiting | granted
deriving DecidableEq

/-- A loop over messages; the first one is next. -/
structure Loop where
  batch : List Message := []
  state : LoopState := .idle
deriving DecidableEq

structure Worker where
  options : WorkerOptions := {}
  semaphore : AsyncSemaphore := {}
  consuming : Loop := {}
  recovering : Loop := {}
  stopping : Bool := false
  ackBuffers : List Ref := []
  /-- a rejection nobody handled has ended the process -/
  halted : Bool := false
deriving DecidableEq

namespace Worker

def loop (worker : Worker) : LoopName → Loop
  | .consume => worker.consuming
  | .recover => worker.recovering

def setLoop (worker : Worker) (who : LoopName) (loop : Loop) : Worker :=
  match who with
  | .consume => { worker with consuming := loop }
  | .recover => { worker with recovering := loop }

/-- The buffered ids of a stream. -/
def buffer (worker : Worker) (stream : Nat) : List Nat :=
  (worker.ackBuffers.filter fun ref => ref.stream = stream).map Ref.id

/-- The buffer of a stream is taken, whether or not the flush succeeds. -/
def flushed (worker : Worker) (stream : Nat) : Worker :=
  { worker with ackBuffers := worker.ackBuffers.filter fun ref => ref.stream ≠ stream }

/-- `flushAcksForStream`. -/
def flushAcksForStream (worker : Worker) (stream : Nat) : Worker × List Removal :=
  if worker.buffer stream = [] then (worker, [])
  else (worker.flushed stream, ackAndDelete stream (worker.buffer stream))

/-- `ack`: at once, or by a buffer that is flushed when it is full. -/
def ack (worker : Worker) (ref : Ref) : Worker × List Removal :=
  if worker.options.bufferAcks then
    let worker := { worker with ackBuffers := worker.ackBuffers ++ [ref] }
    if worker.options.batchSize ≤ (worker.buffer ref.stream).length then
      worker.flushAcksForStream ref.stream
    else (worker, [])
  else (worker, ackAndDelete ref.stream [ref.id])

/-- A permit is given back, and a loop that waits has it next. -/
def release (worker : Worker) : Worker :=
  let (semaphore, next) := worker.semaphore.release
  let worker := { worker with semaphore := semaphore }
  match next with
  | some who => worker.setLoop who { worker.loop who with state := .granted }
  | none => worker

end Worker

/-- The streams, the workers, and what is under way. The last list is kept for the record alone. -/
structure World where
  now : Nat := 0
  streams : List Stream := []
  /-- entries with a copy in the dead-letter stream -/
  deadLetters : List Ref := []
  inFlight : List Removal := []
  workers : List Worker := []
  calls : List Call := []
  /-- entries that a `process` call was successful for -/
  processed : List Ref := []
deriving DecidableEq

/-- What happens at the streams. -/
inductive StreamAction where
  | tick (ms : Nat)
  | append (stream : Nat) (parses : Bool)
  | execute (position : Nat)
  | lose (position : Nat)
deriving DecidableEq

/-- What a worker does. -/
inductive WorkerAction where
  | read (stream : Nat)
  | claim (stream position : Nat)
  | drop (who : LoopName)
  | acquire (who : LoopName)
  | start (who : LoopName)
  | flush (stream : Nat)
  | stop
  | finish
  | crash
deriving DecidableEq

/-- What becomes of a call. -/
inductive CallAction where
  | begin
  | touch
  | ended (ending : Ending)
  | acked (failure : Option Thrown)
  | written (landed : Bool) (reply : Reply)
  | removed (failure : Option Thrown)
  | emitted (failure : Option Thrown)
  | settle
deriving DecidableEq

inductive Action where
  | stream (action : StreamAction)
  | worker (index : Nat) (action : WorkerAction)
  | call (index : Nat) (action : CallAction)
deriving DecidableEq

namespace World

def setStream (world : World) (index : Nat) (stream : Stream) : World :=
  { world with streams := world.streams.set index stream }

def setWorker (world : World) (index : Nat) (worker : Worker) : World :=
  { world with workers := world.workers.set index worker }

def setPhase (world : World) (index : Nat) (call : Call) (phase : Phase) : World :=
  { world with calls := world.calls.set index { call with phase := phase } }

def issue (world : World) (removals : List Removal) : World :=
  { world with inFlight := world.inFlight ++ removals }

end World

/-- The clock, the producers, and the commands under way. -/
def streamStep (world : World) : StreamAction → Option World
  | .tick ms => some { world with now := world.now + ms }
  | .append index parses => do
    let stream ← world.streams[index]?
    some (world.setStream index (stream.xadd parses))
  | .execute position => do
    let removal ← world.inFlight[position]?
    let stream ← world.streams[removal.stream]?
    some { world.setStream removal.stream (stream.remove removal) with
      inFlight := world.inFlight.eraseIdx position }
  | .lose position => some { world with inFlight := world.inFlight.eraseIdx position }

/-- `readBatch`, for one entry; what does not parse is removed. -/
def read (world : World) (worker : Worker) (index streamIndex : Nat) : Option World := do
  let stream ← world.streams[streamIndex]?
  let parses ← stream.entries[stream.unread]?
  let world := world.setStream streamIndex (stream.xreadgroup world.now)
  if parses then
    let message : Message := ⟨⟨streamIndex, stream.unread⟩, 1⟩
    some (world.setWorker index (worker.setLoop .consume
      { worker.consuming with batch := worker.consuming.batch ++ [message] }))
  else some (world.issue (ackAndDelete streamIndex [stream.unread]))

/-- `autoclaim`, for one of the entries it listed; a deleted one is not handed out. -/
def autoclaim (world : World) (worker : Worker) (index streamIndex position : Nat) :
    Option World := do
  let stream ← world.streams[streamIndex]?
  let entry ← stream.pending[position]?
  if position < 2 * BATCH_SIZE ∧ entry.claimable world.now then
    let world := world.setStream streamIndex (stream.xclaim entry.id world.now)
    if stream.holds entry.id ∧ stream.entries[entry.id]? = some true then
      let message : Message := ⟨⟨streamIndex, entry.id⟩, entry.deliveryCount + 1⟩
      some (world.setWorker index (worker.setLoop .recover
        { worker.recovering with batch := worker.recovering.batch ++ [message] }))
    else some world
  else none

/-- A loop asks for a permit for its next message. -/
def acquire (world : World) (worker : Worker) (index : Nat) (who : LoopName) : Option World :=
  let loop := worker.loop who
  if loop.state = .idle ∧ loop.batch ≠ [] then
    let (semaphore, granted) := worker.semaphore.acquire worker.options.concurrency who
    let worker := { worker with semaphore := semaphore }
    some (world.setWorker index (worker.setLoop who
      { loop with state := if granted then .granted else .waiting }))
  else none

/-- A loop that has a permit calls `processWithTracking`. -/
def start (world : World) (worker : Worker) (index : Nat) (who : LoopName) : Option World :=
  let loop := worker.loop who
  match loop.state, loop.batch with
  | .granted, message :: rest =>
    some { world.setWorker index (worker.setLoop who { batch := rest, state := .idle }) with
      calls := world.calls ++ [{ worker := index, message := message }] }
  | _, _ => none

/-- A worker's step. A crash takes its calls and its buffers along; it starts over. At its end a
worker waits for the calls under way. -/
def workerStep (world : World) (index : Nat) (action : WorkerAction) : Option World := do
  let worker ← world.workers[index]?
  if worker.halted then none
  else
    match action with
    | .read stream => read world worker index stream
    | .claim stream position => autoclaim world worker index stream position
    | .drop who =>
      if (worker.loop who).state = .idle then
        some (world.setWorker index (worker.setLoop who {}))
      else none
    | .acquire who => acquire world worker index who
    | .start who => start world worker index who
    | .flush stream =>
      let (worker, removals) := worker.flushAcksForStream stream
      some ((world.setWorker index worker).issue removals)
    | .stop => some (world.setWorker index { worker with stopping := true })
    | .finish =>
      if worker.stopping then
        some { world with calls := world.calls.map fun call =>
          if call.worker = index then { call with awaited := true } else call }
      else none
    | .crash =>
      some { world.setWorker index { options := worker.options } with
        calls := world.calls.filter fun call => call.worker ≠ index }

/-- `processWithTracking`. -/
def processWithTracking (world : World) (worker : Worker) (index : Nat) (call : Call) :
    CallAction → Option World
  | .begin =>
    if call.phase = .called then
      some (world.setPhase index call
        (if worker.options.maxRetriesBeforeDlq < call.message.deliveryCount then .nacking false
        else .processing))
    else none
  | .touch => do
    -- the timer of `processHoldingLease`
    let stream ← world.streams[call.message.ref.stream]?
    if call.phase = .processing then
      some (world.setStream call.message.ref.stream (stream.touch call.message.ref.id world.now))
    else none
  | .ended ending =>
    if call.phase = .processing then
      match ending with
      | .returned false => some (world.setPhase index call .resolved)
      | .returned true =>
        let (worker, removals) := worker.ack call.message.ref
        some { ((world.setWorker call.worker worker).setPhase index call .acking).issue removals with
          processed := world.processed ++ [call.message.ref] }
      | .threw error => some (world.setPhase index call (error.caught false))
    else none
  | .acked failure =>
    -- a flush that fails is logged
    if call.phase = .acking ∧ (worker.options.bufferAcks → failure = none) then
      some (world.setPhase index call (Phase.resolved.orCaught failure false))
    else none
  | .written landed reply =>
    match call.phase with
    | .nacking handling =>
      let world := { world with
        deadLetters := world.deadLetters ++ if landed then [call.message.ref] else [] }
      match reply with
      | .id =>
        if landed then
          some ((world.setPhase index call (.removing handling)).issue
            (ackAndDelete call.message.ref.stream [call.message.ref.id]))
        else none
      | .null => some (world.setPhase index call (({} : Thrown).caught handling))
      | .error thrown => some (world.setPhase index call (thrown.caught handling))
    | _ => none
  | .removed failure =>
    match call.phase with
    | .removing handling =>
      some (world.setPhase index call ((Phase.emitting handling).orCaught failure handling))
    | _ => none
  | .emitted failure =>
    match call.phase with
    | .emitting handling =>
      some (world.setPhase index call (Phase.resolved.orCaught failure handling))
    | _ => none
  | .settle =>
    -- `finally`: the promise it gives back is the one in the set
    if call.settled then
      let worker := worker.release
      some { world.setWorker call.worker
          { worker with halted := call.phase = .rejected ∧ call.awaited = false } with
        calls := world.calls.eraseIdx index }
    else none

/-- What becomes of a call; nothing, once its process has ended. -/
def callStep (world : World) (index : Nat) (action : CallAction) : Option World := do
  let call ← world.calls[index]?
  let worker ← world.workers[call.worker]?
  if worker.halted then none else processWithTracking world worker index call action

def step (world : World) : Action → Option World
  | .stream action => streamStep world action
  | .worker index action => workerStep world index action
  | .call index action => callStep world index action

/-- Streams nobody has read yet, and workers that have just been built. -/
structure Fresh (world : World) : Prop where
  streams : ∀ stream ∈ world.streams, stream.unread = 0 ∧ stream.pending = [] ∧ stream.deleted = []
  workers : ∀ worker ∈ world.workers, ∃ options : WorkerOptions, worker = { options := options }
  calls : world.calls = []
  inFlight : world.inFlight = []
  deadLetters : world.deadLetters = []
  processed : world.processed = []

end Notifkit.Workers
