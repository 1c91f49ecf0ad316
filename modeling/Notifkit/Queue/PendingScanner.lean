import Mathlib.Algebra.Group.Nat.Defs
import Mathlib.Data.List.Nodup

/-!
# The scanner of pending entries

A scan lists the first entries of each stream's pending list, twice as many as it
may return, takes those that were idle long enough, as many as are still wanted,
claims them and parses what it gets. A claimed entry that was deleted or does not
parse yields nothing.

The streams are taken as they are when they are listed: nobody else reads,
claims or acknowledges until the claim, which comes some time later. An entry on
a pending list was delivered at least once.
-/

namespace Notifkit.Queue.PendingScanner

universe u v

/-- A pending entry as it is listed. -/
structure PendingEntry where
  id : Nat
  idleMs : Nat
  deliveryCount : Nat
  delivered : 0 < deliveryCount

/-- A stream: its pending list, what each entry holds, absent where it was deleted, and how long
after the listing the claim comes. -/
structure Stream (F : Type u) where
  pending : List PendingEntry
  fields : Nat → Option F
  waited : Nat := 0
  distinct : (pending.map PendingEntry.id).Nodup

/-- A message that was recovered, with the stream it came from by its place. -/
structure StreamMessage (M : Type v) where
  id : Nat
  event : M
  stream : Nat
  deliveryCount : Nat

variable {F : Type u} {M : Type v}

/-- `XPENDING` with a count: the first entries of the list. -/
def xpending (pending : List PendingEntry) (count : Nat) : List PendingEntry := pending.take count

/-- The listing of some streams, until there are enough entries. -/
def gather (limit : Nat) : List PendingEntry → List (List PendingEntry) → List PendingEntry
  | allEntries, [] => allEntries
  | allEntries, pending :: rest =>
    let more := allEntries ++ xpending pending limit
    if limit ≤ more.length then more else gather limit more rest

/-- Pending entries of some streams. -/
def getPendingEntries (limit : Nat) (streams : List (List PendingEntry)) : List PendingEntry :=
  (gather limit [] streams).take limit

/-- Idle beyond the threshold of its delivery count. -/
def PendingEntry.stale (minIdleMs : Nat) (entry : PendingEntry) : Bool :=
  minIdleMs * 2 ^ (entry.deliveryCount - 1) < entry.idleMs

/-- `XCLAIM`: the entries named that are pending and idle long enough by now, and what they hold. -/
def xclaim (stream : Stream F) (minIdleMs : Nat) (ids : List Nat) : List (Nat × Option F) :=
  ids.filterMap fun id =>
    match stream.pending.find? fun entry => entry.id = id with
    | none => none
    | some entry =>
      if minIdleMs ≤ entry.idleMs + stream.waited then some (id, stream.fields id) else none

/-- What a scan takes from a stream, of the entries it lists there. -/
def toClaim (minIdleMs limit wanted : Nat) (stream : Stream F) : List PendingEntry :=
  ((getPendingEntries (limit * 2) [stream.pending]).filter (PendingEntry.stale minIdleMs)).take
    wanted

/-- The delivery count an entry was listed with. -/
def countOf (claimed : List PendingEntry) (id : Nat) : Nat :=
  match claimed.find? fun entry => entry.id = id with
  | some entry => entry.deliveryCount
  | none => 1

/-- The messages of a claim's answer. -/
def parsed (parseMessage : F → Option M) (place : Nat) (claimed : List PendingEntry)
    (result : List (Nat × Option F)) : List (StreamMessage M) :=
  result.filterMap fun raw =>
    (raw.2.bind parseMessage).map fun event => ⟨raw.1, event, place, countOf claimed raw.1 + 1⟩

/-- The scan of the streams from a place on. -/
def scanFrom (parseMessage : F → Option M) (minIdleMs limit : Nat) :
    Nat → List (StreamMessage M) → List (Stream F) → List (StreamMessage M)
  | _, recovered, [] => recovered
  | place, recovered, stream :: rest =>
    if limit ≤ recovered.length then recovered
    else
      let claimed := toClaim minIdleMs limit (limit - recovered.length) stream
      if claimed.length = 0 then scanFrom parseMessage minIdleMs limit (place + 1) recovered rest
      else
        let result := xclaim stream minIdleMs (claimed.map PendingEntry.id)
        scanFrom parseMessage minIdleMs limit (place + 1)
          (recovered ++ parsed parseMessage place claimed result) rest

/-- One scan of all streams. -/
def autoclaim (parseMessage : F → Option M) (minIdleMs limit : Nat) (streams : List (Stream F)) :
    List (StreamMessage M) :=
  scanFrom parseMessage minIdleMs limit 0 [] streams

/-- An entry is there and parses. -/
def Parses (parseMessage : F → Option M) (stream : Stream F) (entry : PendingEntry) : Prop :=
  ((stream.fields entry.id).bind parseMessage).isSome = true

/-- An entry that a scan is for: idle beyond its threshold when listed, and one that parses. -/
def Recoverable (parseMessage : F → Option M) (minIdleMs : Nat) (stream : Stream F)
    (entry : PendingEntry) : Prop :=
  entry.stale minIdleMs = true ∧ Parses parseMessage stream entry

/-- A scan that returns nothing has left nothing it is for. -/
def Complete (parseMessage : F → Option M) (minIdleMs limit : Nat) (streams : List (Stream F)) :
    Prop :=
  autoclaim parseMessage minIdleMs limit streams = [] →
    ∀ stream ∈ streams, ∀ entry ∈ stream.pending,
      ¬ Recoverable parseMessage minIdleMs stream entry

/-- The entries of a stream a scan gets to: the first stale ones among the first it lists. -/
def within (minIdleMs limit : Nat) (stream : Stream F) : List PendingEntry :=
  ((stream.pending.take (limit * 2)).filter (PendingEntry.stale minIdleMs)).take limit

/-- Two fresh entries before a stale one, each of which parses. -/
def behindFresh : Stream Unit where
  pending := [⟨1, 0, 1, Nat.one_pos⟩, ⟨2, 0, 1, Nat.one_pos⟩, ⟨3, 70000, 1, Nat.one_pos⟩]
  fields := fun _ => some ()
  distinct := by decide

/-- A scan for one message lists two, and the stale entry is the third. -/
theorem stale_hidden :
    ¬ ∀ (minIdleMs limit : Nat) (streams : List (Stream Unit)), 0 < limit →
      Complete (fun fields => some fields) minIdleMs limit streams := by
  intro claimed
  have complete := claimed 60000 1 [behindFresh] Nat.one_pos
  have nothing : autoclaim (fun fields => some fields) 60000 1 [behindFresh] = [] := by decide
  apply complete nothing behindFresh List.mem_cons_self ⟨3, 70000, 1, Nat.one_pos⟩
  · exact List.mem_of_getElem? (i := 2) rfl
  · exact ⟨by decide, rfl⟩

/-- The listing of one stream is its first entries. -/
theorem getPendingEntries_single (limit : Nat) (pending : List PendingEntry) :
    getPendingEntries limit [pending] = pending.take limit := by
  have listed : gather limit [] [pending] = pending.take limit := by
    simp [gather, xpending]
  rw [getPendingEntries, listed, List.take_take, Nat.min_self]

/-- A stale entry has been idle for the least time already. -/
theorem le_idle_of_stale {minIdleMs : Nat} {entry : PendingEntry}
    (stale : entry.stale minIdleMs = true) : minIdleMs ≤ entry.idleMs := by
  have beyond : minIdleMs * 2 ^ (entry.deliveryCount - 1) < entry.idleMs :=
    of_decide_eq_true stale
  have doubled : minIdleMs * 1 ≤ minIdleMs * 2 ^ (entry.deliveryCount - 1) :=
    Nat.mul_le_mul_left _ (Nat.one_le_two_pow)
  omega

/-- The entry a pending list has under an id is the only one with it. -/
theorem find_own {pending : List PendingEntry} (distinct : (pending.map PendingEntry.id).Nodup)
    {entry : PendingEntry} (listed : entry ∈ pending) :
    (pending.find? fun other => other.id = entry.id) = some entry := by
  cases found : pending.find? fun other => other.id = entry.id with
  | none =>
    have absent := List.find?_eq_none.mp found entry listed
    simp at absent
  | some other =>
    have same : other.id = entry.id := by simpa using List.find?_some found
    have member : other ∈ pending := List.mem_of_find?_eq_some found
    rw [List.inj_on_of_nodup_map distinct member listed same]

/-- What is taken of a stream is stale and pending there. -/
theorem mem_toClaim {minIdleMs limit wanted : Nat} {stream : Stream F} {entry : PendingEntry}
    (taken : entry ∈ toClaim minIdleMs limit wanted stream) :
    entry ∈ stream.pending ∧ entry.stale minIdleMs = true := by
  unfold toClaim at taken
  rw [getPendingEntries_single] at taken
  obtain ⟨listed, stale⟩ := List.mem_filter.mp (List.mem_of_mem_take taken)
  exact ⟨List.mem_of_mem_take listed, stale⟩

/-- Every entry that was taken is claimed, and it is answered with what it holds. -/
theorem xclaim_taken {minIdleMs : Nat} {stream : Stream F} {taken : List PendingEntry}
    (fit : ∀ entry ∈ taken, entry ∈ stream.pending ∧ entry.stale minIdleMs = true) :
    xclaim stream minIdleMs (taken.map PendingEntry.id) =
      taken.map fun entry => (entry.id, stream.fields entry.id) := by
  induction taken with
  | nil => rfl
  | cons entry rest inductionHypothesis =>
    obtain ⟨listed, stale⟩ := fit entry List.mem_cons_self
    have others := inductionHypothesis fun other member => fit other (List.mem_cons_of_mem _ member)
    have longEnough : minIdleMs ≤ entry.idleMs + stream.waited :=
      Nat.le_trans (le_idle_of_stale stale) (Nat.le_add_right _ _)
    simp only [xclaim, List.map_cons] at others ⊢
    rw [List.filterMap_cons, find_own stream.distinct listed]
    simp only [longEnough, ↓reduceIte, others]

/-- The messages of a claim are those of the entries that parse. -/
theorem parsed_eq_nil {parseMessage : F → Option M} {minIdleMs place : Nat} {stream : Stream F}
    {taken : List PendingEntry}
    (fit : ∀ entry ∈ taken, entry ∈ stream.pending ∧ entry.stale minIdleMs = true) :
    parsed parseMessage place taken (xclaim stream minIdleMs (taken.map PendingEntry.id)) = [] ↔
      ∀ entry ∈ taken, ¬ Parses parseMessage stream entry := by
  rw [xclaim_taken fit]
  simp [parsed, Parses]

/-- Before anything is recovered a scan takes what is within its reach. -/
theorem toClaim_within (minIdleMs limit : Nat) (stream : Stream F) :
    toClaim minIdleMs limit (limit - ([] : List (StreamMessage M)).length) stream =
      within minIdleMs limit stream := by
  rw [toClaim, getPendingEntries_single]
  rfl

/-- A scan forgets nothing it has recovered. -/
theorem scanFrom_recovered {parseMessage : F → Option M} {minIdleMs limit place : Nat}
    {recovered : List (StreamMessage M)} (some_message : recovered ≠ [])
    (streams : List (Stream F)) :
    scanFrom parseMessage minIdleMs limit place recovered streams ≠ [] := by
  induction streams generalizing place recovered with
  | nil => exact some_message
  | cons stream rest inductionHypothesis =>
    unfold scanFrom
    split
    · exact some_message
    · dsimp only
      split
      · exact inductionHypothesis some_message
      · apply inductionHypothesis
        intro nothing
        exact some_message (List.append_eq_nil_iff.mp nothing).1

/-- A scan returns nothing exactly when no entry within its reach parses. -/
theorem scanFrom_eq_nil (parseMessage : F → Option M) (minIdleMs limit place : Nat)
    (streams : List (Stream F)) :
    scanFrom parseMessage minIdleMs limit place [] streams = [] ↔
      ∀ stream ∈ streams, ∀ entry ∈ within minIdleMs limit stream,
        ¬ Parses parseMessage stream entry := by
  induction streams generalizing place with
  | nil => simp [scanFrom]
  | cons stream rest inductionHypothesis =>
    have reach : ∀ entry ∈ within minIdleMs limit stream,
        entry ∈ stream.pending ∧ entry.stale minIdleMs = true := by
      intro entry taken
      rw [← toClaim_within (M := M)] at taken
      exact mem_toClaim taken
    rw [List.forall_mem_cons]
    unfold scanFrom
    split
    · -- A scan for no message takes none.
      rename_i unwanted
      have nothing : limit = 0 := Nat.le_zero.mp unwanted
      simp [nothing, within]
    · rw [toClaim_within]
      dsimp only
      split
      · rename_i nothing
        rw [inductionHypothesis, List.length_eq_zero_iff.mp nothing]
        simp
      · have answer : parsed parseMessage place (within minIdleMs limit stream)
            (xclaim stream minIdleMs ((within minIdleMs limit stream).map PendingEntry.id)) = [] ↔
              ∀ entry ∈ within minIdleMs limit stream, ¬ Parses parseMessage stream entry :=
          parsed_eq_nil reach
        rw [← answer, List.nil_append]
        cases messages : parsed parseMessage place (within minIdleMs limit stream)
            (xclaim stream minIdleMs ((within minIdleMs limit stream).map PendingEntry.id)) with
        | nil =>
          rw [inductionHypothesis]
          simp
        | cons message more =>
          have some_message : scanFrom parseMessage minIdleMs limit (place + 1)
              (message :: more) rest ≠ [] := scanFrom_recovered (List.cons_ne_nil _ _) rest
          simp [some_message]

/-- A scan is complete exactly where, if any stream has an entry it is for, some stream has one
within its reach: among the first `limit` stale entries of its first `2 * limit` pending ones. -/
theorem complete_iff_reached (parseMessage : F → Option M) (minIdleMs limit : Nat)
    (streams : List (Stream F)) :
    Complete parseMessage minIdleMs limit streams ↔
      ((∃ stream ∈ streams, ∃ entry ∈ stream.pending,
          Recoverable parseMessage minIdleMs stream entry) →
        ∃ stream ∈ streams, ∃ entry ∈ within minIdleMs limit stream,
          Parses parseMessage stream entry) := by
  unfold Complete autoclaim
  rw [scanFrom_eq_nil]
  constructor
  · intro complete ⟨stream, listed, entry, pending, recoverable⟩
    by_contra unreached
    have nothing : ∀ stream ∈ streams, ∀ entry ∈ within minIdleMs limit stream,
        ¬ Parses parseMessage stream entry := by
      intro other member reached taken parses
      exact unreached ⟨other, member, reached, taken, parses⟩
    exact complete nothing stream listed entry pending recoverable
  · intro reached nothing stream listed entry pending recoverable
    obtain ⟨other, member, found, taken, parses⟩ :=
      reached ⟨stream, listed, entry, pending, recoverable⟩
    exact nothing other member found taken parses

end Notifkit.Queue.PendingScanner
