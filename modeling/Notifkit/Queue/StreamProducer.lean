import Notifkit.Foundations.Promises
import Notifkit.Foundations.Runs
import Notifkit.Foundations.Tables
import Notifkit.Foundations.Text

/-!
# The stream producer

Events are queued and sent in pipelines: a hundred at once, or what an immediate
finds when it runs. A flush by size leaves the immediate outstanding that was to
flush, so later ones may find nothing.

The connection executes pipelines in the order they were sent, one `XADD` after
the other; each appends an entry under a new id or fails. It may lose the rest of
a pipeline. The producer hears one result for each command, or that the pipeline
failed as a whole, which says nothing about the entries. Others write to the
stream as well. What was taken out of the stream since is still listed here.
-/

namespace Notifkit.Queue.StreamProducer

open Runs Promises

universe u v w

/-- An event as it is written: what the caller gave, with its id and time. -/
structure StreamEvent (P : Type u) where
  id : Text
  timestamp : Text
  fields : P

/-- The ids and times given to the events, how an event is turned into the text of an entry, and the
error of a pipeline that comes back without results. -/
structure Setting (P : Type u) (D : Type v) (E : Type w) where
  randomUUID : Nat → Text
  now : Nat → Text
  stringify : StreamEvent P → Except E D
  executionFailed : E

/-- A queued event and the number of its promise. -/
structure PendingPublishItem (P : Type u) where
  event : StreamEvent P
  promise : Nat

/-- An entry of the stream. One of this producer's tells the promise it was written for. -/
structure Entry (D : Type v) where
  id : Nat
  data : D
  publish : Option Nat

/-- A pipeline: its batch, the texts to write, and the results so far. One that lost its connection
executes no more. -/
structure Pipeline (P : Type u) (D : Type v) (E : Type w) where
  batch : List (PendingPublishItem P)
  commands : List D
  results : List (Except E Nat) := []
  lost : Bool := false
  settled : Bool := false

/-- A call of `publishBatch`: what it was given, and the ids and promises it made. -/
structure BatchCall (P : Type u) where
  given : List P
  eventIds : List Text
  promises : List Nat

/-- The producer, its connection and the stream. -/
structure State (P : Type u) (D : Type v) (E : Type w) where
  pendingQueue : List (PendingPublishItem P) := []
  flushScheduled : Bool := false
  immediates : Nat := 0
  pipelines : List (Pipeline P D E) := []
  stream : List (Entry D) := []
  enqueued : List (StreamEvent P) := []
  batches : List (BatchCall P) := []
  settled : List (Nat × Except E Nat) := []

variable {P : Type u} {D : Type v} {E : Type w}

/-- An event joins the queue. -/
def State.push (s : State P D E) (event : StreamEvent P) : State P D E :=
  { s with
    pendingQueue := s.pendingQueue ++ [⟨event, s.enqueued.length⟩]
    enqueued := s.enqueued ++ [event] }

/-- Every promise of a batch is rejected with one error. -/
def rejections (batch : List (PendingPublishItem P)) (error : E) : List (Nat × Except E Nat) :=
  batch.map fun item => (item.promise, .error error)

/-- Each promise of a batch gets the result at its own index. -/
def outcomes (batch : List (PendingPublishItem P)) (results : List (Except E Nat)) :
    List (Nat × Except E Nat) :=
  (batch.zip results).map fun pair => (pair.1.promise, pair.2)

/-- What is queued goes out as one pipeline. An event that has no text fails its whole batch before
anything is sent. -/
def flush (setting : Setting P D E) (s : State P D E) : State P D E :=
  let batch := s.pendingQueue
  let taken := { s with flushScheduled := false, pendingQueue := [] }
  if batch.length = 0 then taken
  else
    match batch.mapM fun item => setting.stringify item.event with
    | .ok commands =>
      { taken with pipelines := s.pipelines ++ [{ batch := batch, commands := commands }] }
    | .error error =>
      { taken with
        pipelines := s.pipelines ++
          [{ batch := batch, commands := [], lost := true, settled := true }]
        settled := settleAll s.settled (rejections batch error) }

/-- An event is queued, and flushed or scheduled to be. -/
def enqueue (setting : Setting P D E) (s : State P D E) (event : StreamEvent P) : State P D E :=
  let pushed := s.push event
  if 100 ≤ pushed.pendingQueue.length then flush setting pushed
  else if pushed.flushScheduled then pushed
  else { pushed with flushScheduled := true, immediates := pushed.immediates + 1 }

/-- The event a caller's fields become. -/
def stamp (setting : Setting P D E) (s : State P D E) (fields : P) : StreamEvent P where
  id := setting.randomUUID s.enqueued.length
  timestamp := setting.now s.enqueued.length
  fields := fields

/-- One event is published. -/
def publish (setting : Setting P D E) (s : State P D E) (fields : P) : State P D E :=
  enqueue setting s (stamp setting s fields)

/-- The loop of `publishBatch`, with the ids and promises it collects. -/
def publishAll (setting : Setting P D E) :
    State P D E → List P → State P D E × List Text × List Nat
  | s, [] => (s, [], [])
  | s, fields :: rest =>
    let after := publishAll setting (publish setting s fields) rest
    (after.1, (stamp setting s fields).id :: after.2.1, s.enqueued.length :: after.2.2)

/-- Several events are published by one call. -/
def publishBatch (setting : Setting P D E) (s : State P D E) (given : List P) : State P D E :=
  let after := publishAll setting s given
  { after.1 with
    batches := after.1.batches ++ [⟨given, after.2.1, after.2.2⟩] }

/-- The id a promise was resolved with. -/
def messageId (settled : List (Nat × Except E Nat)) (promise : Nat) : Option Nat :=
  match settled.lookup promise with
  | some (.ok id) => some id
  | _ => none

/-- `Promise.all`: the ids of a batch, once every one of its promises is resolved. -/
def BatchCall.messageIds (call : BatchCall P) (settled : List (Nat × Except E Nat)) :
    Option (List Nat) :=
  call.promises.mapM (messageId settled)

/-- Nothing of a pipeline is left to execute. -/
def Pipeline.closed (pipeline : Pipeline P D E) : Bool :=
  pipeline.lost || pipeline.commands.length ≤ pipeline.results.length

/-- What can happen next. Pipelines are named by their places. -/
inductive Action (P : Type u) (D : Type v) (E : Type w) where
  | publish (fields : P)
  | publishBatch (given : List P)
  | immediate
  | execute (place : Nat) (result : Except E Nat)
  | lose (place : Nat)
  | reply (place : Nat)
  | fail (place : Nat) (error : Option E)
  | foreign (id : Nat) (data : D)

/-- Neither a call nor another writer: immediates, commands and what is heard of them. -/
def Action.isOwn : Action P D E → Prop
  | .publish _ | .publishBatch _ | .foreign _ _ => False
  | .immediate | .execute _ _ | .lose _ | .reply _ | .fail _ _ => True

/-- An id is new when every entry's is below it. -/
def NewId (stream : List (Entry D)) (id : Nat) : Prop := ∀ entry ∈ stream, entry.id < id

instance (stream : List (Entry D)) (id : Nat) : Decidable (NewId stream id) :=
  inferInstanceAs (Decidable (∀ entry ∈ stream, entry.id < id))

/-- The next event of a pipeline to be written, with its text. -/
def Pipeline.next (pipeline : Pipeline P D E) : Option (PendingPublishItem P × D) :=
  (pipeline.batch.zip pipeline.commands)[pipeline.results.length]?

/-- The next command of a pipeline is executed: every pipeline sent before has nothing left. -/
def execute (s : State P D E) (place : Nat) (result : Except E Nat) : Option (State P D E) :=
  match s.pipelines[place]? with
  | none => none
  | some pipeline =>
    if pipeline.lost || !(s.pipelines.take place).all Pipeline.closed then none
    else
      let executed := { s with
        pipelines :=
          s.pipelines.set place { pipeline with results := pipeline.results ++ [result] } }
      match pipeline.next, result with
      | none, _ => none
      | some _, .error _ => some executed
      | some (item, data), .ok id =>
        if NewId s.stream id then
          some { executed with stream := s.stream ++ [⟨id, data, some item.promise⟩] }
        else none

/-- What is left of a pipeline will not be executed. -/
def lose (s : State P D E) (place : Nat) : Option (State P D E) :=
  match s.pipelines[place]? with
  | none => none
  | some pipeline =>
    if pipeline.lost then none
    else some { s with pipelines := s.pipelines.set place { pipeline with lost := true } }

/-- A pipeline's promises are settled. -/
def settlePipeline (s : State P D E) (place : Nat) (pipeline : Pipeline P D E)
    (entries : List (Nat × Except E Nat)) : State P D E :=
  { s with
    pipelines := s.pipelines.set place { pipeline with settled := true }
    settled := settleAll s.settled entries }

/-- The results of a pipeline arrive, one for each of its commands. -/
def reply (s : State P D E) (place : Nat) : Option (State P D E) :=
  match s.pipelines[place]? with
  | none => none
  | some pipeline =>
    if pipeline.settled || pipeline.results.length < pipeline.commands.length then none
    else some (settlePipeline s place pipeline (outcomes pipeline.batch pipeline.results))

/-- A pipeline fails as a whole: with an error, or by coming back without results. -/
def fail (setting : Setting P D E) (s : State P D E) (place : Nat) (error : Option E) :
    Option (State P D E) :=
  match s.pipelines[place]? with
  | none => none
  | some pipeline =>
    if pipeline.settled then none
    else some (settlePipeline s place pipeline
      (rejections pipeline.batch (error.getD setting.executionFailed)))

/-- One turn. -/
def step (setting : Setting P D E) (s : State P D E) : Action P D E → Option (State P D E)
  | .publish fields => some (publish setting s fields)
  | .publishBatch given => some (publishBatch setting s given)
  | .immediate =>
    if s.immediates = 0 then none
    else some (flush setting { s with immediates := s.immediates - 1 })
  | .execute place result => execute s place result
  | .lose place => lose s place
  | .reply place => reply s place
  | .fail place error => fail setting s place error
  | .foreign id data =>
    if NewId s.stream id then some { s with stream := s.stream ++ [⟨id, data, none⟩] } else none

end Notifkit.Queue.StreamProducer
