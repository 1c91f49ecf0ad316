import Notifkit.Foundations.Tables
import Notifkit.Queue.PendingEntries

/-!
# A stream and the one group that reads it

Ids are positions in the order of appending. An entry is known here by whether it parses; it stays in
the stream until `XDEL`, and on the group's pending list from its first read until `XACK`.

A command may take effect at any time after it was issued, whatever its caller is told of it.
-/

namespace Notifkit.Queue

/-- An entry of one of several streams; ids are not unique across them. -/
structure Ref where
  stream : Nat
  id : Nat
deriving DecidableEq

/-- A stream with what its group knows. -/
structure Stream where
  /-- whether each entry appended so far parses -/
  entries : List Bool := []
  unread : Nat := 0
  pending : List PendingEntry := []
  deleted : List Nat := []
deriving DecidableEq

/-- What takes entries out: `XACK` off the pending list, `XDEL` out of the stream. -/
inductive Removal where
  | xack (stream : Nat) (ids : List Nat)
  | xdel (stream : Nat) (ids : List Nat)
deriving DecidableEq

/-- The stream a removal is for. -/
def Removal.stream : Removal → Nat
  | xack stream _ => stream
  | xdel stream _ => stream

/-- The entries a removal names. -/
def Removal.ids : Removal → List Nat
  | xack _ ids => ids
  | xdel _ ids => ids

/-- `ackAndDelete`: both commands are issued before either is awaited. -/
def ackAndDelete (stream : Nat) (ids : List Nat) : List Removal := [.xack stream ids, .xdel stream ids]

/-- The claims of one scan; it lists twice as many. -/
def BATCH_SIZE : Nat := 1000

namespace Stream

/-- The entry is in the stream. -/
def holds (stream : Stream) (id : Nat) : Bool := id < stream.entries.length ∧ id ∉ stream.deleted

/-- The entry parses, and the group was handed it. -/
def handed (stream : Stream) (id : Nat) : Bool :=
  stream.entries[id]? = some true ∧ id < stream.unread

/-- A producer's `XADD`. -/
def xadd (stream : Stream) (parses : Bool) : Stream :=
  { stream with entries := stream.entries ++ [parses] }

/-- `XREADGROUP` for one entry that nobody was handed. -/
def xreadgroup (stream : Stream) (now : Nat) : Stream :=
  { stream with unread := stream.unread + 1, pending := deliver stream.pending stream.unread now }

/-- `XCLAIM`: the entry is handed on with a higher delivery count; one that was deleted goes off the
pending list. -/
def xclaim (stream : Stream) (id now : Nat) : Stream :=
  if stream.holds id then { stream with pending := claim stream.pending id now }
  else { stream with pending := ack stream.pending id }

/-- `XCLAIM` with `JUSTID`: the idle time starts over. -/
def touch (stream : Stream) (id now : Nat) : Stream :=
  { stream with pending := Queue.touch stream.pending id now }

/-- The effect of a removal. -/
def remove (stream : Stream) : Removal → Stream
  | .xack _ ids => { stream with pending := ids.foldl ack stream.pending }
  | .xdel _ ids => { stream with deleted := ids ++ stream.deleted }

end Stream

/-- An entry is on the pending list. -/
def Pends (pending : List PendingEntry) (id : Nat) : Prop := ∃ entry ∈ pending, entry.id = id

section Pending

variable {pending : List PendingEntry} {id other now : Nat}

theorem pends_deliver : Pends (deliver pending other now) id ↔ Pends pending id ∨ other = id := by
  simp [Pends, deliver, or_and_right, exists_or]

theorem pends_claim : Pends (claim pending other now) id ↔ Pends pending id := by
  simp only [Pends, claim, List.mem_map]
  constructor
  · rintro ⟨_, ⟨entry, member, rfl⟩, named⟩
    refine ⟨entry, member, ?_⟩
    split at named
    next same => exact same.trans named
    next => exact named
  · rintro ⟨entry, member, named⟩
    refine ⟨_, ⟨entry, member, rfl⟩, ?_⟩
    split
    next same => exact same.symm.trans named
    next => exact named

theorem pends_touch : Pends (touch pending other now) id ↔ Pends pending id := by
  simp only [Pends, touch, List.mem_map]
  constructor
  · rintro ⟨_, ⟨entry, member, rfl⟩, named⟩
    refine ⟨entry, member, ?_⟩
    split at named <;> exact named
  · rintro ⟨entry, member, named⟩
    refine ⟨_, ⟨entry, member, rfl⟩, ?_⟩
    split <;> exact named

theorem pends_ack (differ : id ≠ other) (pends : Pends pending id) : Pends (ack pending other) id := by
  obtain ⟨entry, member, named⟩ := pends
  exact ⟨entry, List.mem_filter.mpr ⟨member, by simp [named, differ]⟩, named⟩

theorem pends_acks {ids : List Nat} (apart : id ∉ ids) (pends : Pends pending id) :
    Pends (ids.foldl ack pending) id := by
  induction ids generalizing pending with
  | nil => exact pends
  | cons first rest inductionHypothesis =>
    obtain ⟨differ, apart⟩ := not_or.mp (mt List.mem_cons.mpr apart)
    exact inductionHypothesis apart (pends_ack differ pends)

end Pending

namespace Stream

variable {stream : Stream} {id now : Nat}

theorem holds_iff : stream.holds id = true ↔ id < stream.entries.length ∧ id ∉ stream.deleted :=
  decide_eq_true_iff

/-- An entry that waits: in the stream, and pending once it was read. -/
structure Waits (stream : Stream) (id : Nat) : Prop where
  present : id ∉ stream.deleted
  pends : id < stream.unread → Pends stream.pending id

theorem Waits.xadd {parses : Bool} (waits : stream.Waits id) : (stream.xadd parses).Waits id :=
  ⟨waits.present, waits.pends⟩

theorem Waits.xreadgroup (waits : stream.Waits id) : (stream.xreadgroup now).Waits id where
  present := waits.present
  pends before := by
    refine pends_deliver.mpr ?_
    rcases Nat.lt_succ_iff_lt_or_eq.mp before with earlier | rfl
    · exact .inl (waits.pends earlier)
    · exact .inr rfl

theorem Waits.touch {other : Nat} (waits : stream.Waits id) : (stream.touch other now).Waits id :=
  ⟨waits.present, fun before => pends_touch.mpr (waits.pends before)⟩

/-- Claiming any entry leaves those waiting that are in the stream. -/
theorem Waits.xclaim {other : Nat} (waits : stream.Waits id)
    (inside : stream.unread ≤ stream.entries.length) : (stream.xclaim other now).Waits id := by
  unfold Stream.xclaim
  split
  · exact ⟨waits.present, fun before => pends_claim.mpr (waits.pends before)⟩
  next gone =>
    refine ⟨waits.present, fun before => pends_ack ?_ (waits.pends before)⟩
    rintro rfl
    exact gone (holds_iff.mpr ⟨Nat.lt_of_lt_of_le before inside, waits.present⟩)

/-- A removal leaves those waiting that it does not name. -/
theorem Waits.remove {removal : Removal} (waits : stream.Waits id) (apart : id ∉ removal.ids) :
    (stream.remove removal).Waits id := by
  cases removal with
  | xack _ ids => exact ⟨waits.present, fun before => pends_acks apart (waits.pends before)⟩
  | xdel _ ids =>
    exact ⟨fun deleted => (List.mem_append.mp deleted).elim apart waits.present, waits.pends⟩

end Stream

end Notifkit.Queue
