import Notifkit.Foundations.Runs
import Notifkit.Foundations.Tables
import Notifkit.Pipeline.Snapshot

/-!
# The streams of delivery outcomes

A client of the API opens a stream and is sent the delivery outcomes of its project. The streams of a
process share one subscription, which is asked for when a stream is opened and none is held, and given
up when the last one is closed. A stream begins to answer once the subscription that it waits for is
settled; it is called for outcomes from before on.

Clients go whenever they like, also while their stream waits; a subscription may fail, and leaves its
streams open for the next one. Which outcomes reach the process is left open.
-/

namespace Notifkit.Api.EventStreams

open Pipeline Runs Tables

/-- What is relayed of an outcome. -/
inductive Data where
  | delivered (taskId providerMessageId channel : Text)
  | failed (taskId error channel : Text)
deriving DecidableEq

/-- An outcome as it was published; anybody could have. -/
structure LiveDeliveryEvent where
  data : Data
  projectId : Option Text
deriving DecidableEq

/-- What is written to a client: the head of the answer, how soon to come back, and outcomes. -/
inductive Chunk where
  | head
  | retry
  | event (data : Data)
deriving DecidableEq

/-- A call of `getEventsStream`. -/
structure Stream where
  projectId : Option Text
  /-- the subscription it awaits -/
  waiting : Option Nat
  /-- the client has gone -/
  gone : Bool := false
  /-- its listener is in the set -/
  listed : Bool := true
  /-- `stop` is set -/
  stop : Bool := false
  written : List Chunk := []
  /-- the outcomes the process had received when it was opened, when it had its subscription, and
  when its listener was taken out -/
  since : Nat
  started : Option Nat := none
  left : Option Nat := none
deriving DecidableEq

/-- What is asked of the subscriber connection. -/
inductive Command where
  | subscribe | unsubscribe | disconnect
deriving DecidableEq

/-- A `RedisLiveDeliveryEvents` and the streams of its process, named by their places. -/
structure World where
  streams : List Stream := []
  /-- `subscribed` -/
  subscribed : Option Nat := none
  /-- the calls of `subscribe` so far, and those that are settled -/
  attempts : Nat := 0
  settled : List Nat := []
  sent : List Command := []
  received : List LiveDeliveryEvent := []
deriving DecidableEq

inductive Action where
  | openStream (projectId : Option Text)
  /-- a call of `subscribe` returns; a failure is only logged -/
  | settle (attempt : Nat) (worked : Bool)
  /-- a stream goes on after its subscription -/
  | resume (place : Nat)
  /-- the client goes -/
  | leave (place : Nat)
  | receive (event : LiveDeliveryEvent)
  /-- `close`, when the process stops -/
  | close

/-- The outcome names the project of the stream, and there is one. -/
def wants (projectId : Option Text) (event : LiveDeliveryEvent) : Bool :=
  (truthy projectId).isSome && event.projectId = projectId

namespace World

/-- `listen` -/
def listen (world : World) (projectId : Option Text) : World :=
  match world.subscribed with
  | some attempt => { world with
      streams := world.streams ++
        [{ projectId := projectId, waiting := some attempt, since := world.received.length }] }
  | none => { world with
      streams := world.streams ++
        [{ projectId := projectId, waiting := some world.attempts
           since := world.received.length }]
      subscribed := some world.attempts
      attempts := world.attempts + 1
      sent := world.sent ++ [.subscribe] }

/-- The function that `listen` returns, called by a stream that is otherwise changed, too. -/
def unlisten (world : World) (place : Nat) (stream : Stream) : World :=
  if stream.listed then
    let streams := world.streams.set place
      { stream with listed := false, left := some world.received.length }
    if streams.any Stream.listed then { world with streams := streams }
    else { world with
      streams := streams, subscribed := none, sent := world.sent ++ [.unsubscribe] }
  else { world with streams := world.streams.set place stream }

/-- Every listener is called. -/
def receive (world : World) (event : LiveDeliveryEvent) : World :=
  { world with
    streams := world.streams.map fun stream =>
      if stream.listed && wants stream.projectId event then
        { stream with written := stream.written ++ [.event event.data] }
      else stream
    received := world.received ++ [event] }

/-- `close` -/
def close (world : World) : World :=
  { world with
    streams := world.streams.map fun stream =>
      if stream.listed then
        { stream with listed := false, left := some world.received.length }
      else stream
    subscribed := none
    sent := world.sent ++ [.disconnect] }

end World

/-- The head cannot be written any more where something was: writing it throws, and so the rest of
the handler is left out. -/
def Stream.start (stream : Stream) (received : Nat) : Stream :=
  { stream with
    waiting := none
    stop := true
    written := if stream.written = [] then [.head, .retry] else stream.written
    started := some received }

def step (world : World) : Action → Option World
  | .openStream projectId => some (world.listen projectId)
  | .settle attempt worked =>
    if attempt < world.attempts ∧ attempt ∉ world.settled then some { world with
      settled := attempt :: world.settled
      subscribed := if worked then world.subscribed else none }
    else none
  | .resume place => do
    let stream ← world.streams[place]?
    let attempt ← stream.waiting
    if attempt ∈ world.settled then
      if stream.gone then some (world.unlisten place { stream with waiting := none })
      else some { world with
        streams := world.streams.set place (stream.start world.received.length) }
    else none
  | .leave place => do
    let stream ← world.streams[place]?
    if stream.gone then none
    else if stream.stop then some (world.unlisten place { stream with gone := true })
    else some { world with streams := world.streams.set place { stream with gone := true } }
  | .receive event => some (world.receive event)
  | .close => some world.close

/-- The outcomes of its project among those that the process received while the listener was in the
set, up to a time. -/
def Stream.heardBy (stream : Stream) (received : List LiveDeliveryEvent) (time : Nat) :
    List LiveDeliveryEvent :=
  ((received.take (min (stream.left.getD time) time)).drop stream.since).filter
    (wants stream.projectId)

/-- What a stream has begun with: the head, unless an outcome came before. -/
def Stream.opening (stream : Stream) (received : List LiveDeliveryEvent) : List Chunk :=
  match stream.started with
  | some time => if stream.heardBy received time = [] then [.head, .retry] else []
  | none => []

/-- What a stream should have been written. -/
def Stream.expected (stream : Stream) (received : List LiveDeliveryEvent) : List Chunk :=
  stream.opening received ++
    (stream.heardBy received received.length).map fun event => .event event.data

/-- What holds of each stream at all times. -/
structure Stream.Sound (stream : Stream) (received : List LiveDeliveryEvent) : Prop where
  since : stream.since ≤ received.length
  started : ∀ time, stream.started = some time → time ≤ received.length
  left : ∀ time, stream.left = some time → time ≤ received.length
  inSet : stream.listed = true ↔ stream.left = none
  written : stream.written = stream.expected received
  stops : stream.waiting = none → stream.gone = false → stream.stop = true
  fresh : ∀ attempt, stream.waiting = some attempt → stream.started = none ∧ stream.stop = false
  unlisted : stream.gone = true → stream.waiting = none → stream.listed = false

/-- What holds of a process at all times. -/
structure Sound (world : World) : Prop where
  streams : ∀ stream ∈ world.streams, stream.Sound world.received
  held : world.subscribed.isSome = true → ∃ stream ∈ world.streams, stream.listed = true
  asked : world.sent.getLast? = some .subscribe ↔
    ∃ stream ∈ world.streams, stream.listed = true

section Steps

variable {stream : Stream} {received : List LiveDeliveryEvent}

/-- What a stream was to hear up to a time does not change when more is received. -/
theorem heardBy_append (more : List LiveDeliveryEvent) {time : Nat}
    (within : time ≤ received.length) :
    stream.heardBy (received ++ more) time = stream.heardBy received time := by
  unfold Stream.heardBy
  rw [List.take_append_of_le_length (Nat.le_trans (Nat.min_le_right ..) within)]

/-- A listener in the set hears what is received next, if it is for its project. -/
theorem heardBy_next (inSet : stream.left = none) (since : stream.since ≤ received.length)
    (event : LiveDeliveryEvent) :
    stream.heardBy (received ++ [event]) (received ++ [event]).length =
      stream.heardBy received received.length ++
        if wants stream.projectId event then [event] else [] := by
  unfold Stream.heardBy
  rw [inSet, Option.getD_none, Option.getD_none, Nat.min_self, Nat.min_self, List.take_length,
    List.take_length, List.drop_append_of_le_length since, List.filter_append, List.filter_cons,
    List.filter_nil]

/-- A listener that was taken out hears nothing more. -/
theorem heardBy_left {time : Nat} (left : stream.left = some time) (within : time ≤ received.length)
    (event : LiveDeliveryEvent) :
    stream.heardBy (received ++ [event]) (received ++ [event]).length =
      stream.heardBy received received.length := by
  unfold Stream.heardBy
  rw [left, Option.getD_some, Option.getD_some, Nat.min_eq_left within,
    Nat.min_eq_left (Nat.le_trans within (by rw [List.length_append]; omega)),
    List.take_append_of_le_length within]

/-- Being taken out now changes nothing of what was heard. -/
theorem heardBy_leaves (inSet : stream.left = none) {time : Nat} (within : time ≤ received.length)
    (listed : Bool) :
    ({ stream with listed := listed, left := some received.length } : Stream).heardBy received
      time = stream.heardBy received time := by
  unfold Stream.heardBy
  rw [inSet, Option.getD_none, Option.getD_some, Nat.min_eq_right within, Nat.min_self]

/-- The opening is settled when the stream starts. -/
theorem opening_append (sound : stream.Sound received) (more : List LiveDeliveryEvent) :
    stream.opening (received ++ more) = stream.opening received := by
  unfold Stream.opening
  cases started : stream.started with
  | none => rfl
  | some time =>
    dsimp only
    rw [heardBy_append more (sound.started time started)]

/-- A stream is called for an outcome, or is not in the set. -/
theorem Stream.Sound.receive (sound : stream.Sound received) (event : LiveDeliveryEvent) :
    (if stream.listed && wants stream.projectId event then
      { stream with written := stream.written ++ [.event event.data] }
      else stream : Stream).Sound (received ++ [event]) := by
  have longer : received.length ≤ (received ++ [event]).length := by
    rw [List.length_append]
    omega
  have next : stream.expected (received ++ [event]) = stream.written ++
      if stream.listed && wants stream.projectId event then [.event event.data] else [] := by
    unfold Stream.expected
    rw [opening_append sound, sound.written, Stream.expected, List.append_assoc]
    congr 1
    cases left : stream.left with
    | none =>
      rw [heardBy_next left sound.since, sound.inSet.mpr left, Bool.true_and]
      split <;> simp
    | some time =>
      have out : stream.listed = false := by
        rw [Bool.eq_false_iff]
        intro listed
        rw [sound.inSet.mp listed] at left
        cases left
      rw [heardBy_left left (sound.left time left), out]
      simp
  split
  next called =>
    rw [if_pos called] at next
    exact {
      since := Nat.le_trans sound.since longer
      started := fun time started => Nat.le_trans (sound.started time started) longer
      left := fun time left => Nat.le_trans (sound.left time left) longer
      inSet := sound.inSet
      written := next.symm
      stops := sound.stops
      fresh := sound.fresh
      unlisted := sound.unlisted }
  next idle =>
    rw [if_neg idle, List.append_nil] at next
    exact { sound with
      since := Nat.le_trans sound.since longer
      started := fun time started => Nat.le_trans (sound.started time started) longer
      left := fun time left => Nat.le_trans (sound.left time left) longer
      written := next.symm }

/-- A stream that has just been opened. -/
theorem sound_opened (projectId : Option Text) (attempt : Nat) (received : List LiveDeliveryEvent) :
    ({ projectId := projectId, waiting := some attempt, since := received.length } : Stream).Sound
      received where
  since := Nat.le_refl _
  started _ none := by cases none
  left _ none := by cases none
  inSet := ⟨fun _ => rfl, fun _ => rfl⟩
  written := by simp [Stream.expected, Stream.opening, Stream.heardBy]
  stops none := by cases none
  fresh _ _ := ⟨rfl, rfl⟩
  unlisted none := by cases none

/-- A stream that goes on, or whose client goes, while its listener is taken out. -/
theorem Stream.Sound.out (sound : stream.Sound received) (listed : stream.listed = true)
    (waiting : Option Nat) (gone : Bool)
    (stops : waiting = none → gone = false → stream.stop = true)
    (fresh : ∀ attempt, waiting = some attempt → stream.started = none ∧ stream.stop = false) :
    ({ stream with
      waiting := waiting, gone := gone, listed := false, left := some received.length } :
        Stream).Sound received := by
  have inSet := sound.inSet.mp listed
  have heard {time : Nat} (within : time ≤ received.length) :
      ({ stream with
        waiting := waiting, gone := gone, listed := false, left := some received.length } :
          Stream).heardBy received time = stream.heardBy received time :=
    heardBy_leaves inSet within false
  exact {
    since := sound.since
    started := sound.started
    left := fun time left => Nat.le_of_eq (Option.some.inj left).symm
    inSet := ⟨fun absent => absurd absent Bool.false_ne_true, fun none => by cases none⟩
    written := by
      refine sound.written.trans ?_
      unfold Stream.expected Stream.opening
      rw [heard (Nat.le_refl _)]
      cases started : stream.started with
      | none => rfl
      | some time =>
        congr 1
        exact congrArg (fun heard : List LiveDeliveryEvent =>
          if heard = [] then [Chunk.head, .retry] else []) (heard (sound.started time started)).symm
    stops := stops
    fresh := fresh
    unlisted := fun _ _ => rfl }

/-- The same where its listener was taken out before, or stays. -/
theorem Stream.Sound.revise (sound : stream.Sound received) (waiting : Option Nat) (gone : Bool)
    (stops : waiting = none → gone = false → stream.stop = true)
    (fresh : ∀ attempt, waiting = some attempt → stream.started = none ∧ stream.stop = false)
    (unlisted : gone = true → waiting = none → stream.listed = false) :
    ({ stream with waiting := waiting, gone := gone } : Stream).Sound received where
  since := sound.since
  started := sound.started
  left := sound.left
  inSet := sound.inSet
  written := sound.written
  stops := stops
  fresh := fresh
  unlisted := unlisted

/-- A stream that starts. -/
theorem Stream.Sound.start (sound : stream.Sound received) {attempt : Nat}
    (waiting : stream.waiting = some attempt) (here : stream.gone = false) :
    (stream.start received.length).Sound received := by
  have unstarted := (sound.fresh attempt waiting).1
  have heard : stream.written =
      (stream.heardBy received received.length).map fun event => .event event.data := by
    rw [sound.written, Stream.expected, Stream.opening, unstarted, List.nil_append]
  exact {
    since := sound.since
    started := fun time started => Nat.le_of_eq (Option.some.inj started).symm
    left := sound.left
    inSet := sound.inSet
    written := by
      change (if stream.written = [] then [Chunk.head, .retry] else stream.written) =
        (if stream.heardBy received received.length = [] then [Chunk.head, .retry] else []) ++
          (stream.heardBy received received.length).map fun event => Chunk.event event.data
      have empty : stream.written = [] ↔ stream.heardBy received received.length = [] := by
        rw [heard, List.map_eq_nil_iff]
      by_cases none : stream.heardBy received received.length = []
      · rw [if_pos none, if_pos (empty.mpr none), none, List.map_nil, List.append_nil]
      · rw [if_neg none, if_neg fun nothing => none (empty.mp nothing), List.nil_append]
        exact heard
    stops := fun _ _ => rfl
    fresh := fun _ none => by cases none
    unlisted := fun gone => by
      change stream.gone = true at gone
      rw [here] at gone
      cases gone }

variable {world after : World} {place : Nat} {old : Stream}

/-- Replacing a stream by one that is in the set if it was. -/
theorem listed_set (present : world.streams[place]? = some old)
    (same : stream.listed = old.listed) :
    (∃ row ∈ world.streams.set place stream, row.listed = true) ↔
      ∃ row ∈ world.streams, row.listed = true := by
  constructor
  · rintro ⟨row, member, listed⟩
    rcases List.mem_or_eq_of_mem_set member with before | rfl
    · exact ⟨row, before, listed⟩
    · exact ⟨old, List.mem_of_getElem? present, same ▸ listed⟩
  · exact some_set present fun listed => same ▸ listed

/-- A stream is replaced by one that is in the set if it was. -/
theorem Sound.replace (sound : Sound world) (present : world.streams[place]? = some old)
    (same : stream.listed = old.listed) (fine : stream.Sound world.received) :
    Sound { world with streams := world.streams.set place stream } where
  streams := all_set sound.streams fine
  held subscribed := (listed_set present same).mpr (sound.held subscribed)
  asked := sound.asked.trans (listed_set present same).symm

/-- A listener is taken out; the last one takes the subscription along. -/
theorem Sound.unlisten (sound : Sound world) (present : world.streams[place]? = some old)
    (same : stream.listed = old.listed)
    (stays : stream.listed = false → stream.Sound world.received)
    (goes : stream.listed = true → ({ stream with
      listed := false, left := some world.received.length } : Stream).Sound world.received) :
    Sound (world.unlisten place stream) := by
  unfold World.unlisten
  split
  next listed =>
    dsimp only
    split
    next others =>
      have some_listed := List.any_eq_true.mp others
      exact {
        streams := all_set sound.streams (goes listed)
        held := fun _ => some_listed
        asked := ⟨fun _ => some_listed, fun _ =>
          sound.asked.mpr ⟨old, List.mem_of_getElem? present, same ▸ listed⟩⟩ }
    next none =>
      exact {
        streams := all_set sound.streams (goes listed)
        held := fun absent => by cases absent
        asked := by
          rw [List.getLast?_concat]
          refine ⟨fun last => ?_, fun some_listed => ?_⟩
          · cases last
          · exact absurd (List.any_eq_true.mpr some_listed) none }
  next out => exact sound.replace present same (stays (Bool.eq_false_iff.mpr out))

/-- A stream is opened. -/
theorem Sound.listen (sound : Sound world) (projectId : Option Text) :
    Sound (world.listen projectId) := by
  have opened (attempt : Nat) : ∃ row ∈ world.streams ++
      [({ projectId := projectId, waiting := some attempt, since := world.received.length } :
        Stream)], row.listed = true :=
    ⟨_, List.mem_append_right _ (List.mem_singleton.mpr rfl), rfl⟩
  unfold World.listen
  split
  next attempt subscribed =>
    have held : world.subscribed.isSome = true := by rw [subscribed]; rfl
    exact {
      streams := all_append sound.streams (sound_opened projectId attempt _)
      held := fun _ => opened attempt
      asked := ⟨fun _ => opened attempt, fun _ => sound.asked.mpr (sound.held held)⟩ }
  next =>
    exact {
      streams := all_append sound.streams (sound_opened projectId world.attempts _)
      held := fun _ => opened world.attempts
      asked := ⟨fun _ => opened world.attempts, fun _ => List.getLast?_concat⟩ }

/-- An outcome is received. -/
theorem Sound.receive (sound : Sound world) (event : LiveDeliveryEvent) :
    Sound (world.receive event) := by
  have listed : (∃ row ∈ (world.receive event).streams, row.listed = true) ↔
      ∃ row ∈ world.streams, row.listed = true := by
    constructor
    · rintro ⟨row, member, inSet⟩
      obtain ⟨stream, before, rfl⟩ := List.mem_map.mp member
      refine ⟨stream, before, ?_⟩
      split at inSet <;> exact inSet
    · rintro ⟨stream, before, inSet⟩
      refine ⟨_, List.mem_map_of_mem before, ?_⟩
      split <;> exact inSet
  exact {
    streams := fun row member => by
      obtain ⟨stream, before, rfl⟩ := List.mem_map.mp member
      exact (sound.streams stream before).receive event
    held := fun subscribed => listed.mpr (sound.held subscribed)
    asked := sound.asked.trans listed.symm }

/-- The process stops. -/
theorem Sound.close (sound : Sound world) : Sound world.close := by
  have unlisted : ¬ ∃ row ∈ world.close.streams, row.listed = true := by
    rintro ⟨row, member, inSet⟩
    obtain ⟨stream, _, rfl⟩ := List.mem_map.mp member
    split at inSet
    next => cases inSet
    next out => exact out inSet
  exact {
    streams := fun row member => by
      obtain ⟨stream, before, rfl⟩ := List.mem_map.mp member
      have fine := sound.streams stream before
      split
      next listed => exact fine.out listed stream.waiting stream.gone fine.stops fine.fresh
      next => exact fine
    held := fun absent => by cases absent
    asked := by
      change (world.sent ++ [Command.disconnect]).getLast? = some .subscribe ↔ _
      rw [List.getLast?_concat]
      refine ⟨fun last => ?_, fun some_listed => absurd some_listed unlisted⟩
      cases last }

/-- A stream goes on after its subscription. -/
theorem Sound.resume (sound : Sound world) (happened : step world (.resume place) = some after) :
    Sound after := by
  obtain ⟨stream, present, happened⟩ := Option.bind_eq_some_iff.mp happened
  obtain ⟨attempt, waiting, happened⟩ := Option.bind_eq_some_iff.mp happened
  have fine := sound.streams stream (List.mem_of_getElem? present)
  obtain ⟨_, happened⟩ := Option.ite_none_right_eq_some.mp happened
  split at happened
  next gone =>
    obtain rfl := Option.some.inj happened
    have stops : (none : Option Nat) = none → stream.gone = false → stream.stop = true := by
      intro _ here
      rw [gone] at here
      cases here
    have fresh : ∀ attempt, (none : Option Nat) = some attempt →
        stream.started = none ∧ stream.stop = false := fun _ none => by cases none
    exact sound.unlisten present rfl
      (fun out => fine.revise none stream.gone stops fresh fun _ _ => out)
      (fun listed => fine.out listed none stream.gone stops fresh)
  next here =>
    obtain rfl := Option.some.inj happened
    exact sound.replace present rfl (fine.start waiting (Bool.eq_false_iff.mpr here))

/-- A client goes. -/
theorem Sound.leave (sound : Sound world) (happened : step world (.leave place) = some after) :
    Sound after := by
  obtain ⟨stream, present, happened⟩ := Option.bind_eq_some_iff.mp happened
  have fine := sound.streams stream (List.mem_of_getElem? present)
  obtain ⟨here, happened⟩ := Option.ite_none_left_eq_some.mp happened
  have stops : stream.waiting = none → true = false → stream.stop = true :=
    fun _ absent => by cases absent
  split at happened
  next =>
    obtain rfl := Option.some.inj happened
    exact sound.unlisten present rfl
      (fun out => fine.revise stream.waiting true stops fine.fresh fun _ _ => out)
      (fun listed => fine.out listed stream.waiting true stops fine.fresh)
  next unset =>
    obtain rfl := Option.some.inj happened
    refine sound.replace present rfl
      (fine.revise stream.waiting true stops fine.fresh fun _ resumed => ?_)
    exact absurd (fine.stops resumed (Bool.eq_false_iff.mpr here)) unset

/-- Every step keeps what holds. -/
theorem Sound.step (sound : Sound world) {action : Action}
    (happened : step world action = some after) : Sound after := by
  cases action with
  | openStream projectId =>
    obtain rfl := Option.some.inj happened
    exact sound.listen projectId
  | settle attempt worked =>
    obtain ⟨_, same⟩ := Option.ite_none_right_eq_some.mp happened
    obtain rfl := Option.some.inj same
    exact { sound with
      held := fun subscribed => by
        cases worked with
        | true => exact sound.held subscribed
        | false => cases subscribed }
  | resume place => exact sound.resume happened
  | leave place => exact sound.leave happened
  | receive event =>
    obtain rfl := Option.some.inj happened
    exact sound.receive event
  | close =>
    obtain rfl := Option.some.inj happened
    exact sound.close

end Steps

/-- However streams are opened and left, subscriptions settle or fail and outcomes come in: a stream
is written each outcome of its own project that the process received while its listener was in the
set, once and in order, and no other. They follow the head of the answer, unless one of them came
before the stream had its subscription: then there is no head at all. A listener is out of the set
once its client has gone and its subscription is settled. And the process has last asked for the
subscription if somebody listens, and given it up if nobody does. -/
theorem streams_relay (world : World) (run : Reaches step anyStep {} world) :
    (∀ stream ∈ world.streams, stream.written = stream.expected world.received ∧
      (stream.gone = true → stream.waiting = none → stream.listed = false)) ∧
    (world.sent.getLast? = some .subscribe ↔
      ∃ stream ∈ world.streams, stream.listed = true) := by
  have sound : Sound world := by
    apply run.invariant
    · exact {
        streams := fun _ none => by cases none
        held := fun none => by cases none
        asked := by
          refine ⟨fun none => ?_, fun some_listed => ?_⟩
          · cases none
          · obtain ⟨_, none, _⟩ := some_listed
            cases none }
    · intro before action next kept _ happened
      exact kept.step happened
  refine ⟨fun stream member => ?_, sound.asked⟩
  have fine := sound.streams stream member
  exact ⟨fine.written, fine.unlisted⟩

/-- Two clients of a project wait for one subscription. An outcome comes when only one of them has
begun to answer, and the other one leaves. -/
def earlyOutcome : List Action :=
  [.openStream (some "p".toList), .openStream (some "p".toList), .settle 0 true, .resume 0,
    .receive ⟨.failed "t".toList "e".toList "sms".toList, some "p".toList⟩, .resume 1, .leave 0]

/-- The one that was first has its head; the other has only the outcome, and goes on. -/
theorem second_headless :
    let world := (perform step {} earlyOutcome).getD {}
    world.streams.map Stream.written =
      [[.head, .retry, .event (.failed "t".toList "e".toList "sms".toList)],
        [.event (.failed "t".toList "e".toList "sms".toList)]] ∧
      world.sent.getLast? = some .subscribe := by
  have run : Reaches step anyStep {} ((perform step {} earlyOutcome).getD {}) :=
    reaches_any_performed earlyOutcome (by decide)
  exact ⟨by decide, (streams_relay _ run).2.mpr (by decide)⟩

end Notifkit.Api.EventStreams
