import Notifkit.Foundations.Promises
import Notifkit.Foundations.Runs
import Notifkit.Foundations.Tables

/-!
# The batch processor

Items are added one at a time and passed on in batches: at `maxSize` items, when
a timer fires, or when someone asks for it. Up to `maxConcurrent` batches are
under way at once, and while every slot is busy items only gather.

The promise of an item is numbered by its place among the items added. A batch
under way awaits one call of `flushFn`; its answer settles the promises of the
batch, and a later turn frees the slot. `flush` is a loop with two places to
wait at: for a free slot, and for the batch it started itself. The answers, and
the order of all turns, are free.
-/

namespace Notifkit.Shared.BatchProcessor

open Runs Promises

universe u v w

/-- The processor's limits. Every caller leaves it at least one slot. -/
structure Limits where
  maxSize : Nat
  maxConcurrent : Nat
  slot : 0 < maxConcurrent

/-- A buffered item and the number of its promise. -/
structure BatchItem (T : Type u) where
  item : T
  promise : Nat

/-- What a promise is settled with. A result is missing where `flushFn` returned too few. -/
inductive Settlement (R : Type v) (E : Type w) where
  | resolved (value : Option R)
  | rejected (error : E)

/-- A batch under way: the call of `flushFn` it awaits, and whether that was answered. -/
structure Run (T : Type u) where
  call : Nat
  batch : List (BatchItem T)
  answered : Bool := false

/-- Where a call of `flush` waits: for a free slot, or for a batch it started. -/
inductive Caller where
  | waiting
  | awaiting (call : Option Nat)

/-- The processor, and what passed through it: the items added, the batches `flushFn` was called
with, its answers by call, and the promises settled. -/
structure State (T : Type u) (R : Type v) (E : Type w) where
  buffer : List (BatchItem T) := []
  timer : Bool := false
  inFlight : List (Run T) := []
  callers : List Caller := []
  added : List T := []
  calls : List (List (BatchItem T)) := []
  replies : List (Nat × Except E (List R)) := []
  settled : List (Nat × Settlement R E) := []

variable {T : Type u} {R : Type v} {E : Type w}

/-- What an answer holds for the item at an index: the result there, or the error. -/
def outcome (reply : Except E (List R)) (index : Nat) : Settlement R E :=
  match reply with
  | .ok results => .resolved results[index]?
  | .error error => .rejected error

/-- An answered batch settles each of its promises. -/
def settlements (batch : List (BatchItem T)) (reply : Except E (List R)) :
    List (Nat × Settlement R E) :=
  batch.zipIdx.map fun entry => (entry.1.promise, outcome reply entry.2)

namespace State

/-- A timer is armed. -/
def armTimer (s : State T R E) : State T R E := { s with timer := true }

/-- No timer is armed. -/
def clearTimer (s : State T R E) : State T R E := { s with timer := false }

/-- A caller of `flush` waits for something else now. -/
def setCaller (s : State T R E) (place : Nat) (caller : Caller) : State T R E :=
  { s with callers := s.callers.set place caller }

/-- An item joins the buffer. -/
def push (s : State T R E) (item : T) : State T R E :=
  { s with
    buffer := s.buffer ++ [⟨item, s.added.length⟩]
    added := s.added ++ [item] }

end State

/-- Every slot is busy. -/
def Full (limits : Limits) (s : State T R E) : Prop := limits.maxConcurrent ≤ s.inFlight.length

instance (limits : Limits) (s : State T R E) : Decidable (Full limits s) :=
  inferInstanceAs (Decidable (_ ≤ _))

/-- Everything buffered becomes one batch, if there is something and a slot is free. -/
def flushOnce (limits : Limits) (s : State T R E) : State T R E :=
  if s.buffer.length = 0 ∨ Full limits s then s
  else { s with
    buffer := []
    inFlight := s.inFlight ++ [{ call := s.calls.length, batch := s.buffer }]
    calls := s.calls ++ [s.buffer] }

/-- An item is added. -/
def add (limits : Limits) (s : State T R E) (item : T) : State T R E :=
  let pushed := s.push item
  if limits.maxSize ≤ pushed.buffer.length ∧ ¬ Full limits pushed then
    flushOnce limits pushed.clearTimer
  else if pushed.timer = false ∧ ¬ Full limits pushed then pushed.armTimer
  else pushed

/-- A batch has left its slot: what gathered meanwhile was given no timer. -/
def afterRun (limits : Limits) (s : State T R E) : State T R E :=
  if s.buffer.length = 0 ∨ s.timer = true then s
  else if limits.maxSize ≤ s.buffer.length then flushOnce limits s
  else s.armTimer

/-- The inner loop of `flush`: past it a slot is free and the buffer is flushed. -/
def takeSlot (limits : Limits) (s : State T R E) : State T R E × Caller :=
  if Full limits s then (s, .waiting)
  else (flushOnce limits s.clearTimer,
    .awaiting (if s.buffer.length = 0 then none else some s.calls.length))

/-- The outer loop of `flush`: it ends once nothing is buffered. -/
def drain (limits : Limits) (s : State T R E) : State T R E × Option Caller :=
  if s.buffer.length = 0 then (s, none)
  else ((takeSlot limits s).1, some (takeSlot limits s).2)

/-- What can happen next. Batches under way and waiting callers are named by their places. -/
inductive Action (T : Type u) (R : Type v) (E : Type w) where
  | add (item : T)
  | flush
  | fire
  | answer (place : Nat) (reply : Except E (List R))
  | finish (place : Nat)
  | turn (place : Nat)

/-- Nobody outside calls: a timer fires, a batch is answered or leaves, a caller of `flush` goes
on. -/
def Action.isOwn : Action T R E → Prop
  | .add _ | .flush => False
  | .fire | .answer _ _ | .finish _ | .turn _ => True

/-- A batch is answered, for the first time. -/
def answer (s : State T R E) (place : Nat) (reply : Except E (List R)) : Option (State T R E) :=
  match s.inFlight[place]? with
  | none => none
  | some run =>
    if run.answered then none
    else some { s with
      inFlight := s.inFlight.set place { run with answered := true }
      replies := s.replies ++ [(run.call, reply)]
      settled := settleAll s.settled (settlements run.batch reply) }

/-- An answered batch leaves its slot. -/
def finish (limits : Limits) (s : State T R E) (place : Nat) : Option (State T R E) :=
  match s.inFlight[place]? with
  | none => none
  | some run =>
    if run.answered then
      some (afterRun limits { s with inFlight := s.inFlight.eraseIdx place })
    else none

/-- A caller of `flush` goes on, once what it waits for has come. -/
def turn (limits : Limits) (s : State T R E) (place : Nat) : Option (State T R E) :=
  match s.callers[place]? with
  | none => none
  | some .waiting =>
    if Full limits s then none
    else some ((takeSlot limits s).1.setCaller place (takeSlot limits s).2)
  | some (.awaiting call) =>
    if s.inFlight.any (fun run => some run.call = call) then none
    else
      match drain limits s with
      | (after, none) => some { after with callers := after.callers.eraseIdx place }
      | (after, some caller) => some (after.setCaller place caller)

/-- One turn of the event loop. -/
def step (limits : Limits) (s : State T R E) : Action T R E → Option (State T R E)
  | .add item => some (add limits s item)
  | .flush =>
    let next := drain limits s
    some { next.1 with callers := next.1.callers ++ next.2.toList }
  | .fire => if s.timer then some (flushOnce limits s.clearTimer) else none
  | .answer place reply => answer s place reply
  | .finish place => finish limits s place
  | .turn place => turn limits s place

end Notifkit.Shared.BatchProcessor
