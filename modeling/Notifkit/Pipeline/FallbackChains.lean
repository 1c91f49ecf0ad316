import Notifkit.Foundations.Walks
import Notifkit.Pipeline.FallbackPlaces

/-!
# The channels a request with fallback is tried on

The channels a send is attempted on are to be those the recipient can be reached on, in the order of
the request, up to and including the first on which a send succeeds. The enricher, delivery and the
engine continue the chain in turn, and each has reasons of its own to stop it.

Here nothing goes wrong but that providers refuse sends for good. What is tried on which channel
depends on their answers alone; the order of the attempts is that of the run.
-/

namespace Notifkit.Pipeline.TaskRuns

open Runs Cascades Walks Tables ParkingTimes

/-- Nothing goes wrong but that providers refuse sends for good. -/
structure Undisturbed (surroundings : Surroundings) : Prop where
  throttled : ∀ id, surroundings.throttled id = false
  generates : ∀ id, surroundings.generates id = true
  answers : ∀ id nth,
    surroundings.answers id nth = .accepted ∨ surroundings.answers id nth = .refused

/-- The places of the sends to a user, in the order they were made. -/
def State.sendPlaces (raw : NotificationRequested) (userId : Text) (state : State) : List Nat :=
  (state.trace.filter fun task => task.event.enriched.recipientId = userId).map fun task =>
    task.event.place raw

/-- The places of the channels on which a send to a user is attempted, by their first attempts. -/
def State.attempted (raw : NotificationRequested) (userId : Text) (state : State) : List Nat :=
  (state.sendPlaces raw userId).eraseDups

/-- A send to a user succeeded on the channel at a place. -/
def State.succeededAt (raw : NotificationRequested) (userId : Text) (state : State) (place : Nat) :
    Bool :=
  state.tasks.any fun task => task.event.enriched.recipientId = userId ∧
    task.event.place raw = place ∧ task.phase = .delivered

/-- The places of the requested channels on which a user can be reached, up to and including the
first on which a send succeeds. -/
def chainWalk (toLowerCase : Text → Text) (snapshot : Snapshot) (raw : NotificationRequested)
    (userId : Text) (state : State) : List Nat :=
  upTo (state.succeededAt raw userId) ((List.range (Enricher.channelsOf raw).length).filter
    fun place => Reachable toLowerCase snapshot raw userId place)

section Answers

variable (toLowerCase : Text → Text) (zoneOf : Text → Zone) (snapshot : Snapshot)
  (surroundings : Surroundings) (raw : NotificationRequested) (userId : Text)

/-- A send to a user that comes up on the channel at a place is answered so. -/
def AnsweredAt (answer : Answer) (place : Nat) : Prop :=
  ∃ event, Arises (rules toLowerCase zoneOf snapshot surroundings) (firstEvents snapshot raw) event ∧
    event.enriched.recipientId = userId ∧ event.place raw = place ∧
    ∃ task ∈ tasksOf toLowerCase zoneOf snapshot surroundings event,
      surroundings.answers task.id 0 = answer

/-- The enricher begins at a place, and the template is there. -/
def BeginsAt (place : Nat) : Prop :=
  FirstUsable snapshot raw userId place ∧ HasTemplate snapshot raw

/-- Where the user can be reached at all it is on the first channel with a usable address, a channel
whose sends are all refused is followed by one the user can be reached on if any later one is, and no
channel on which a send is accepted and another refused is followed by one the user can be reached
on. -/
def ChainUnbroken : Prop :=
  Unbroken (Reachable toLowerCase snapshot raw userId) (BeginsAt snapshot raw userId)
    (AnsweredAt toLowerCase zoneOf snapshot surroundings raw userId .accepted)
    (AnsweredAt toLowerCase zoneOf snapshot surroundings raw userId .refused)

end Answers

/-- A task that was not sent. -/
structure Task.Fresh (task : Task) : Prop where
  going : task.isOver = false
  trips : task.trips = 0
  sends : task.sends = 0

/-- A task that was sent once and answered. -/
structure Task.Answered (surroundings : Surroundings) (task : Task) : Prop where
  sends : task.sends = 1
  phase : surroundings.answers task.id 0 = .accepted ∧ task.phase = .delivered ∨
    surroundings.answers task.id 0 = .refused ∧ task.phase = task.giveUp.phase

section Tasks

variable {toLowerCase : Text → Text} {zoneOf : Text → Zone} {snapshot : Snapshot}
  {surroundings : Surroundings} {event : Event} {task next : Task}

/-- A task that was given up is over. -/
theorem Task.giveUp_over : task.giveUp.isOver = true := by
  by_cases last : task.event.enriched.fallbackChain = []
  · simp [Task.giveUp, Task.isOver, last]
  · simp [Task.giveUp, Task.isOver, last]

/-- A task that was answered is over. -/
theorem Task.Answered.isOver (answered : task.Answered surroundings) : task.isOver = true := by
  rcases answered.phase with ⟨_, phase⟩ | ⟨_, phase⟩
  · rw [Task.isOver, phase]
  · have ended : task.giveUp.isOver = true := giveUp_over
    rw [Task.isOver, ← phase] at ended
    exact ended

/-- A task on its way to a send stays unsent. -/
theorem Task.Fresh.scheduleOrDispatch (trips : task.trips = 0) (sends : task.sends = 0) (now : Int)
    (scheduledAt : Option Int) : (task.scheduleOrDispatch now scheduledAt).Fresh := by
  unfold Task.scheduleOrDispatch
  dsimp only
  split
  · exact ⟨rfl, trips, sends⟩
  · exact ⟨rfl, trips, sends⟩

/-- The tasks of an event are unsent. -/
theorem fresh_of_begun (begun : task ∈ tasksOf toLowerCase zoneOf snapshot surroundings event) :
    task.Fresh := by
  obtain ⟨_, _, _, contact, _, rfl⟩ := mem_tasksOf.mp begun
  unfold taskFor
  dsimp only
  split
  · exact ⟨rfl, rfl, rfl⟩
  · exact Task.Fresh.scheduleOrDispatch rfl rfl _ _

/-- An unsent task stays so or is answered. -/
theorem Task.Fresh.advance (undisturbed : Undisturbed surroundings) (fresh : task.Fresh)
    (moved : task.advance surroundings task.trips = some next) :
    next.Fresh ∨ next.Answered surroundings := by
  have same : next.id = task.id := Task.advance_id moved
  rw [fresh.trips] at moved
  unfold Task.advance at moved
  split at moved
  · rw [if_pos (undisturbed.generates task.id)] at moved
    obtain rfl := Option.some.inj moved
    exact .inl (scheduleOrDispatch fresh.trips fresh.sends _ _)
  · obtain rfl := Option.some.inj moved
    exact .inl ⟨rfl, fresh.trips, fresh.sends⟩
  next phase =>
    have sent : task.sends + 1 = 1 := congrArg (· + 1) fresh.sends
    rcases undisturbed.answers task.id 0 with accepted | refused
    · rw [accepted] at moved
      obtain rfl := Option.some.inj moved
      exact .inr ⟨sent, .inl ⟨accepted, rfl⟩⟩
    · rw [refused] at moved
      obtain rfl := Option.some.inj moved
      exact .inr ⟨sent, .inr ⟨refused, rfl⟩⟩
  all_goals cases moved

/-- A task that comes up is unsent or answered. -/
theorem fresh_or_answered (undisturbed : Undisturbed surroundings)
    (begun : task ∈ tasksOf toLowerCase zoneOf snapshot surroundings event) {steps : Nat}
    (came : (rules toLowerCase zoneOf snapshot surroundings).after steps task = some next) :
    next.Fresh ∨ next.Answered surroundings := by
  induction steps generalizing next with
  | zero => exact .inl (Option.some.inj came ▸ fresh_of_begun begun)
  | succ steps inductionHypothesis =>
    obtain ⟨middle, cameBefore, moved⟩ := Option.bind_eq_some_iff.mp came
    rcases inductionHypothesis cameBefore with fresh | answered
    · exact fresh.advance undisturbed moved
    · have none : middle.advance surroundings middle.trips = none :=
        Task.advance_eq_none.mpr answered.isOver
      exact absurd (moved.symm.trans none) nofun

/-- A task that comes up and is over was answered. -/
theorem answered_of_over (undisturbed : Undisturbed surroundings)
    (begun : task ∈ tasksOf toLowerCase zoneOf snapshot surroundings event) {steps : Nat}
    (came : (rules toLowerCase zoneOf snapshot surroundings).after steps task = some next)
    (isOver : next.isOver = true) : next.Answered surroundings := by
  refine (fresh_or_answered undisturbed begun came).resolve_left fun fresh => ?_
  rw [fresh.going] at isOver
  cases isOver

/-- A task keeps its id on the way. -/
theorem after_id {steps : Nat}
    (came : (rules toLowerCase zoneOf snapshot surroundings).after steps task = some next) :
    next.id = task.id := by
  rw [Task.id, Task.id, (after_event came).1, (after_event came).2]

end Tasks

section Chains

variable {toLowerCase : Text → Text} {zoneOf : Text → Zone} {snapshot : Snapshot}
  {surroundings : Surroundings} {raw : NotificationRequested} {userId : Text}

/-- A task that is refused for good leaves its event's fallback. -/
theorem arises_of_refused (identified : snapshot.Identified) (undisturbed : Undisturbed surroundings)
    {event next : Event} {task : Task}
    (arisen : Arises (rules toLowerCase zoneOf snapshot surroundings) (firstEvents snapshot raw)
      event) (begun : task ∈ tasksOf toLowerCase zoneOf snapshot surroundings event)
    (refused : surroundings.answers task.id 0 = .refused) (left : event.fallback = some next) :
    Arises (rules toLowerCase zoneOf snapshot surroundings) (firstEvents snapshot raw) next := by
  obtain ⟨steps, last, came, isOver⟩ := task_ends identified arisen begun
  have answered := answered_of_over undisturbed begun came isOver
  have own : last.event = event := (after_event came).1.trans (event_of_mem_tasksOf begun)
  have chain : last.event.enriched.fallbackChain ≠ [] := by
    rw [own, (fallback_eq_some left).2.2.1]
    exact List.cons_ne_nil _ _
  have fellBack : last.phase = .fellBack := by
    rcases answered.phase with ⟨accepted, _⟩ | ⟨_, phase⟩
    · rw [after_id came, refused] at accepted
      cases accepted
    · rw [phase, Task.giveUp, if_neg chain]
  cases steps with
  | zero =>
    obtain rfl := Option.some.inj came
    have going := (fresh_of_begun begun).going
    rw [isOver] at going
    cases going
  | succ steps =>
    exact arisen.left begun came (leaves_eq_some.mpr ⟨fellBack, own ▸ left⟩)

/-- An event that comes up after another one was left by a task that was refused. -/
theorem refused_of_left (undisturbed : Undisturbed surroundings) {event next : Event} {task later : Task}
    {steps : Nat} (begun : task ∈ tasksOf toLowerCase zoneOf snapshot surroundings event)
    (came : (rules toLowerCase zoneOf snapshot surroundings).after steps task = some later)
    (leaves : later.leaves = some next) :
    surroundings.answers task.id 0 = .refused ∧ event.fallback = some next := by
  obtain ⟨fellBack, left⟩ := leaves_eq_some.mp leaves
  rw [(after_event came).1, event_of_mem_tasksOf begun] at left
  refine ⟨?_, left⟩
  have isOver : later.isOver = true := by rw [Task.isOver, fellBack]
  rcases (answered_of_over undisturbed begun came isOver).phase with ⟨_, phase⟩ | ⟨refused, _⟩
  · rw [phase] at fellBack
    cases fellBack
  · rw [← after_id came]
    exact refused

/-- Every task that comes up at a place is accepted or refused. -/
theorem answeredAt_of_task (undisturbed : Undisturbed surroundings) {event : Event} {task : Task}
    (arisen : Arises (rules toLowerCase zoneOf snapshot surroundings) (firstEvents snapshot raw)
      event) (own : event.enriched.recipientId = userId)
    (begun : task ∈ tasksOf toLowerCase zoneOf snapshot surroundings event) :
    AnsweredAt toLowerCase zoneOf snapshot surroundings raw userId .accepted (event.place raw) ∨
      AnsweredAt toLowerCase zoneOf snapshot surroundings raw userId .refused (event.place raw) :=
  (undisturbed.answers task.id 0).imp (fun answer => ⟨event, arisen, own, rfl, task, begun, answer⟩)
    fun answer => ⟨event, arisen, own, rfl, task, begun, answer⟩

/-- What is tried on an answered place: an event of the user with a task. -/
theorem event_of_answeredAt {place : Nat}
    (tried : AnsweredAt toLowerCase zoneOf snapshot surroundings raw userId .accepted place ∨
      AnsweredAt toLowerCase zoneOf snapshot surroundings raw userId .refused place) :
    ∃ event, Arises (rules toLowerCase zoneOf snapshot surroundings) (firstEvents snapshot raw)
      event ∧ event.enriched.recipientId = userId ∧ event.place raw = place ∧
      ∃ task, task ∈ tasksOf toLowerCase zoneOf snapshot surroundings event := by
  rcases tried with ⟨event, arisen, own, here, task, begun, _⟩ |
    ⟨event, arisen, own, here, task, begun, _⟩
  · exact ⟨event, arisen, own, here, task, begun⟩
  · exact ⟨event, arisen, own, here, task, begun⟩

/-- The event of a task that was refused leaves one that is sent to the next place, where the user can
be reached there. -/
theorem answeredAt_next (identified : snapshot.Identified) (fallback : raw.fallback = true)
    (undisturbed : Undisturbed surroundings) {place : Nat}
    (refused : AnsweredAt toLowerCase zoneOf snapshot surroundings raw userId .refused place)
    (reachable : Reachable toLowerCase snapshot raw userId (place + 1)) :
    AnsweredAt toLowerCase zoneOf snapshot surroundings raw userId .accepted (place + 1) ∨
      AnsweredAt toLowerCase zoneOf snapshot surroundings raw userId .refused (place + 1) := by
  obtain ⟨event, arisen, own, rfl, task, begun, answer⟩ := refused
  obtain ⟨profile, resolved, descends⟩ := descends_of_arises fallback arisen
  have named : profile.userId = userId := descends.recipientId.symm.trans own
  obtain ⟨next, left⟩ := descends.exists_fallback reachable.lt_length
  obtain ⟨descendsNext, atNext⟩ := descends.fallback left
  have arisenNext := arises_of_refused identified undisturbed arisen begun answer left
  obtain ⟨source, rest, addresses⟩ := List.exists_cons_of_ne_nil reachable
  have reached : source ∈ addressesAt toLowerCase snapshot raw profile.userId (next.place raw) := by
    rw [named, atNext, addresses]
    exact List.mem_cons_self
  have counted : ¬ (next.enriched.throttleCounted = false ∧
      surroundings.throttled next.id = true) := by
    rw [(fallback_eq_some left).2.2.2.1]
    simp
  obtain ⟨task', begun', _⟩ := descendsNext.exists_task identified
    (descends.address_of_task identified begun).1 counted reached (.inl rfl)
  rw [← atNext]
  exact answeredAt_of_task undisturbed arisenNext (descendsNext.recipientId.trans named) begun'

/-- The enricher's events are sent to the place they are at, where the user can be reached there. -/
theorem answeredAt_first (identified : snapshot.Identified) (fallback : raw.fallback = true)
    (undisturbed : Undisturbed surroundings) (asked : userId ∈ raw.userIds) {place : Nat}
    (begins : BeginsAt snapshot raw userId place)
    (reachable : Reachable toLowerCase snapshot raw userId place) :
    AnsweredAt toLowerCase zoneOf snapshot surroundings raw userId .accepted place ∨
      AnsweredAt toLowerCase zoneOf snapshot surroundings raw userId .refused place := by
  obtain ⟨source, rest, addresses⟩ := List.exists_cons_of_ne_nil reachable
  have reached : source ∈ addressesAt toLowerCase snapshot raw userId place := by
    rw [addresses]
    exact List.mem_cons_self
  obtain ⟨event, given, profile, resolved, descends, rfl, rfl, own⟩ :=
    exists_first fallback asked begins.1 reached
  have counted : ¬ (event.enriched.throttleCounted = false ∧
      surroundings.throttled event.id = true) := by
    rw [undisturbed.throttled]
    simp
  obtain ⟨task, begun, _⟩ := descends.exists_task identified begins.2 counted reached own
  exact answeredAt_of_task undisturbed (.first given) descends.recipientId begun

/-- What is tried, place by place. -/
theorem chain_tries (identified : snapshot.Identified) (fallback : raw.fallback = true)
    (undisturbed : Undisturbed surroundings) (asked : userId ∈ raw.userIds) :
    Tries (Reachable toLowerCase snapshot raw userId) (BeginsAt snapshot raw userId)
      (AnsweredAt toLowerCase zoneOf snapshot surroundings raw userId .accepted)
      (AnsweredAt toLowerCase zoneOf snapshot surroundings raw userId .refused) where
  tried := by
    intro place
    constructor
    · intro tried
      obtain ⟨event, arisen, own, rfl, task, begun⟩ := event_of_answeredAt tried
      obtain ⟨profile, resolved, descends⟩ := descends_of_arises fallback arisen
      obtain ⟨present, source, reached, _⟩ := descends.address_of_task identified begun
      rw [← descends.recipientId, own] at reached
      refine ⟨List.ne_nil_of_mem reached, ?_⟩
      cases arisen with
      | first given => exact .inl ⟨own ▸ firstUsable_of_first fallback given, present⟩
      | @left parent _ task later steps arisen begun came leaves =>
        obtain ⟨refused, left⟩ := refused_of_left undisturbed begun came leaves
        obtain ⟨_, _, descendsParent⟩ := descends_of_arises fallback arisen
        exact .inr ⟨parent.place raw, (descendsParent.fallback left).2, parent, arisen,
          (fallback_eq_some left).2.2.2.2.symm.trans own, rfl, task, begun, refused⟩
    · rintro ⟨reachable, begins | ⟨before, rfl, refused⟩⟩
      · exact answeredAt_first identified fallback undisturbed asked begins reachable
      · exact answeredAt_next identified fallback undisturbed refused reachable
  least _ _ reachable begins := begins.1.le reachable

end Chains

/-- An event of the enricher, or the fallback of one whose task was sent. -/
def Traced (snapshot : Snapshot) (raw : NotificationRequested) (trace : List Task) (event : Event) :
    Prop :=
  event ∈ firstEvents snapshot raw ∨ ∃ entry ∈ trace, entry.event.fallback = some event

/-- Everything there is came of a send, and the sends to a user climb from place to place. -/
structure Climbing (toLowerCase : Text → Text) (zoneOf : Text → Zone) (snapshot : Snapshot)
    (surroundings : Surroundings) (raw : NotificationRequested) (state : State) : Prop where
  waiting : ∀ event ∈ state.called ++ state.streamed, Traced snapshot raw state.trace event
  traced : ∀ task ∈ state.tasks, Traced snapshot raw state.trace task.event
  sent : ∀ task ∈ state.tasks, task.Fresh ∨
    task.Answered surroundings ∧ ∃ entry ∈ state.trace, entry.event = task.event
  entries : ∀ entry ∈ state.trace,
    Arises (rules toLowerCase zoneOf snapshot surroundings) (firstEvents snapshot raw) entry.event ∧
      ∃ task, task ∈ tasksOf toLowerCase zoneOf snapshot surroundings entry.event
  climbs : ∀ userId first, (∀ event ∈ firstEvents snapshot raw,
    event.enriched.recipientId = userId → event.place raw = first) →
      Climbs first (state.sendPlaces raw userId)

section Climbing

variable {toLowerCase : Text → Text} {zoneOf : Text → Zone} {snapshot : Snapshot}
  {surroundings : Surroundings} {raw : NotificationRequested} {state next : State}

/-- What came of a send stays so. -/
theorem Traced.later {trace : List Task} {event : Event} (traced : Traced snapshot raw trace event)
    (entry : Task) : Traced snapshot raw (trace ++ [entry]) event :=
  traced.imp id fun ⟨earlier, member, left⟩ => ⟨earlier, List.mem_append_left _ member, left⟩

/-- A request begins with the enricher's events. -/
theorem climbing_start {start : State} (begins : Begins snapshot raw start) :
    Climbing toLowerCase zoneOf snapshot surroundings raw start := by
  have waiting : start.called ++ start.streamed = firstEvents snapshot raw := by
    cases begins with
    | streamed => rfl
    | fused single => exact List.append_nil _
  have nothing : start.tasks = [] ∧ start.trace = [] := by
    cases begins with
    | streamed => exact ⟨rfl, rfl⟩
    | fused single => exact ⟨rfl, rfl⟩
  exact {
    waiting := fun event member => .inl (waiting ▸ member)
    traced := fun task member => absurd (nothing.1 ▸ member) List.not_mem_nil
    sent := fun task member => absurd (nothing.1 ▸ member) List.not_mem_nil
    entries := fun entry member => absurd (nothing.2 ▸ member) List.not_mem_nil
    climbs := by
      intro userId first _
      rw [State.sendPlaces, nothing.2]
      exact .nothing }

/-- Taking up an event begins its tasks. -/
theorem Climbing.begin {called streamed : List Event} {marks : List EventId} {event : Event}
    {tasks : List Task} (climbing : Climbing toLowerCase zoneOf snapshot surroundings raw state)
    (fewer : ∀ other ∈ called ++ streamed, other ∈ state.called ++ state.streamed)
    (waits : event ∈ state.called ++ state.streamed)
    (begun : ∀ task ∈ tasks, task ∈ tasksOf toLowerCase zoneOf snapshot surroundings event) :
    Climbing toLowerCase zoneOf snapshot surroundings raw { state with
      called := called
      streamed := streamed
      marks := marks
      tasks := state.tasks ++ tasks } where
  waiting other member := climbing.waiting other (fewer other member)
  traced task member := by
    rcases List.mem_append.mp member with before | new
    · exact climbing.traced task before
    · rw [event_of_mem_tasksOf (begun task new)]
      exact climbing.waiting event waits
  sent task member := by
    rcases List.mem_append.mp member with before | new
    · exact climbing.sent task before
    · exact .inl (fresh_of_begun (begun task new))
  entries := climbing.entries
  climbs := climbing.climbs

/-- A task's send is at the place the enricher begins at or behind a place there was a send to. -/
theorem Climbing.climb (fallback : raw.fallback = true) {task : Task} {userId : Text} {first : Nat}
    (climbing : Climbing toLowerCase zoneOf snapshot surroundings raw state)
    (traced : Traced snapshot raw state.trace task.event)
    (firsts : ∀ event ∈ firstEvents snapshot raw,
      event.enriched.recipientId = userId → event.place raw = first)
    (own : task.event.enriched.recipientId = userId) :
    Climbs first (state.sendPlaces raw userId ++ [task.event.place raw]) := by
  have before := climbing.climbs userId first firsts
  rcases traced with given | ⟨entry, member, left⟩
  · rw [firsts _ given own]
    exact before.again
  · obtain ⟨arisen, _⟩ := climbing.entries entry member
    obtain ⟨profile, resolved, descends⟩ := descends_of_arises fallback arisen
    rw [(descends.fallback left).2]
    refine before.further (List.mem_map_of_mem (List.mem_filter.mpr ⟨member, ?_⟩))
    rw [← own, (fallback_eq_some left).2.2.2.2]
    exact decide_eq_true rfl

/-- A task goes on by itself, or is sent and answered. -/
theorem Climbing.advance (fallback : raw.fallback = true) (undisturbed : Undisturbed surroundings)
    {work : Work Event Task EventId} {position : Nat}
    (explained : Explained (rules toLowerCase zoneOf snapshot surroundings)
      (firstEvents snapshot raw) work) (follows : Follows toLowerCase snapshot raw state work)
    (climbing : Climbing toLowerCase zoneOf snapshot surroundings raw state)
    (taken : step toLowerCase zoneOf snapshot surroundings state (.advance position) = some next) :
    Climbing toLowerCase zoneOf snapshot surroundings raw next := by
  obtain ⟨task, found, went⟩ := Option.bind_eq_some_iff.mp taken
  have present : task ∈ state.tasks := List.mem_of_getElem? found
  rw [if_neg (by simp [standsFor_eq_false follows.distinct present]),
    tripsOf_eq follows.distinct present] at went
  obtain ⟨moved, advanced, same⟩ := Option.bind_eq_some_iff.mp went
  obtain rfl := Option.some.inj same
  have own : moved.event = task.event := (Task.advance_event advanced).1
  have fresh : task.Fresh := by
    refine (climbing.sent task present).resolve_right ?_
    rintro ⟨answered, _⟩
    rw [Task.advance_eq_none.mpr answered.isOver] at advanced
    cases advanced
  rcases fresh.advance undisturbed advanced with still | answered
  · have silent : moved.leaves = none := by
      rw [Task.leaves, if_neg]
      intro fellBack
      have going := still.going
      rw [Task.isOver, fellBack] at going
      cases going
    rw [if_neg (by rw [fresh.sends, still.sends]; exact Nat.lt_irrefl 0), silent]
    exact {
      waiting := by simpa using climbing.waiting
      traced := all_set climbing.traced (own ▸ climbing.traced task present)
      sent := all_set climbing.sent (.inl still)
      entries := climbing.entries
      climbs := climbing.climbs }
  · rw [if_pos (by rw [fresh.sends, answered.sends]; exact Nat.one_pos)]
    exact {
      waiting := by
        intro event member
        rw [← List.append_assoc] at member
        rcases List.mem_append.mp member with before | left
        · exact (climbing.waiting event before).later moved
        · obtain ⟨_, left⟩ := leaves_eq_some.mp (Option.mem_toList.mp left)
          exact .inr ⟨moved, List.mem_append_right _ (List.mem_singleton.mpr rfl), left⟩
      traced := all_set (fun other member => (climbing.traced other member).later moved)
        (own ▸ (climbing.traced task present).later moved)
      sent := by
        refine all_set (fun other member => ?_) (.inr ⟨answered, moved, ?_, rfl⟩)
        · refine (climbing.sent other member).imp_right ?_
          rintro ⟨answered, entry, there, same⟩
          exact ⟨answered, entry, List.mem_append_left _ there, same⟩
        · exact List.mem_append_right _ (List.mem_singleton.mpr rfl)
      entries := by
        intro entry member
        rcases List.mem_append.mp member with before | last
        · exact climbing.entries entry before
        · obtain rfl := List.mem_singleton.mp last
          obtain ⟨event, arisen, _, begun, isBegun, steps, came⟩ :=
            explained.jobs task (follows.jobs ▸ present)
          have event_eq : entry.event = event :=
            own.trans ((after_event came).1.trans (event_of_mem_tasksOf isBegun))
          rw [event_eq]
          exact ⟨arisen, begun, isBegun⟩
      climbs := by
        intro userId first firsts
        rw [State.sendPlaces, List.filter_append, List.map_append]
        by_cases isOwn : task.event.enriched.recipientId = userId
        · rw [List.filter_cons_of_pos (by simpa [own] using isOwn)]
          simp only [List.filter_nil, List.map_cons, List.map_nil, own]
          exact climbing.climb fallback (climbing.traced task present) firsts isOwn
        · rw [List.filter_cons_of_neg (by simpa [own] using isOwn), List.filter_nil, List.map_nil,
            List.append_nil]
          exact climbing.climbs userId first firsts }

/-- Every step keeps the climb. -/
theorem Climbing.step {action : Action} (fallback : raw.fallback = true)
    (undisturbed : Undisturbed surroundings) {work : Work Event Task EventId}
    (explained : Explained (rules toLowerCase zoneOf snapshot surroundings)
      (firstEvents snapshot raw) work) (follows : Follows toLowerCase snapshot raw state work)
    (climbing : Climbing toLowerCase zoneOf snapshot surroundings raw state)
    (taken : TaskRuns.step toLowerCase zoneOf snapshot surroundings state action = some next) :
    Climbing toLowerCase zoneOf snapshot surroundings raw next := by
  cases action with
  | call position =>
    obtain ⟨event, found, same⟩ := Option.bind_eq_some_iff.mp taken
    obtain rfl := Option.some.inj same
    refine climbing.begin (fun other member => ?_)
      (List.mem_append_left _ (List.mem_of_getElem? found)) fun _ begun => begun
    exact List.mem_append.mpr ((List.mem_append.mp member).imp List.mem_of_mem_eraseIdx id)
  | take position =>
    obtain ⟨event, found, went⟩ := Option.bind_eq_some_iff.mp taken
    have fewer : ∀ other ∈ state.called ++ state.streamed.eraseIdx position,
        other ∈ state.called ++ state.streamed := fun other member =>
      List.mem_append.mpr ((List.mem_append.mp member).imp id List.mem_of_mem_eraseIdx)
    dsimp only at went
    split at went
    · obtain rfl := Option.some.inj went
      exact { climbing with waiting := fun other member => climbing.waiting other (fewer other member) }
    · obtain rfl := Option.some.inj went
      exact climbing.begin fewer (List.mem_append_right _ (List.mem_of_getElem? found))
        fun _ begun => begun
  | advance position => exact climbing.advance fallback undisturbed explained follows taken
  | skip position =>
    obtain ⟨task, found, went⟩ := Option.bind_eq_some_iff.mp taken
    rw [if_neg (by simp [copied_eq_false follows.distinct found])] at went
    cases went

/-- Every state of every undisturbed run with fallback. -/
theorem climbing_of_reaches (identified : snapshot.Identified) (fallback : raw.fallback = true)
    (undisturbed : Undisturbed surroundings) {start : State} (begins : Begins snapshot raw start)
    (run : Reaches (TaskRuns.step toLowerCase zoneOf snapshot surroundings) anyStep start state) :
    Climbing toLowerCase zoneOf snapshot surroundings raw state := by
  refine run.invariant_given
    (fun reached before => follows_of_reaches identified begins (begins.distinct identified fallback)
      before) (climbing_start begins) ?_
  rintro before action after ⟨work, workRun, follows⟩ climbing _ taken
  exact climbing.step fallback undisturbed (explained_of_reaches workRun) follows taken

end Climbing

section Ends

variable {toLowerCase : Text → Text} {zoneOf : Text → Zone} {snapshot : Snapshot}
  {surroundings : Surroundings} {raw : NotificationRequested} {state : State} {userId : Text}

/-- In a run that came to its end every task that comes up was sent. -/
theorem Climbing.mem_sendPlaces (climbing : Climbing toLowerCase zoneOf snapshot surroundings raw state)
    (undisturbed : Undisturbed surroundings)
    (ends : ∀ event, Arises (rules toLowerCase zoneOf snapshot surroundings)
      (firstEvents snapshot raw) event →
      ∀ task ∈ tasksOf toLowerCase zoneOf snapshot surroundings event,
        ∃ last ∈ state.tasks, last.isOver = true ∧ ∃ steps,
          (rules toLowerCase zoneOf snapshot surroundings).after steps task = some last)
    (place : Nat) : place ∈ state.sendPlaces raw userId ↔
      AnsweredAt toLowerCase zoneOf snapshot surroundings raw userId .accepted place ∨
        AnsweredAt toLowerCase zoneOf snapshot surroundings raw userId .refused place := by
  constructor
  · intro member
    obtain ⟨entry, sent, rfl⟩ := List.mem_map.mp member
    obtain ⟨present, own⟩ := List.mem_filter.mp sent
    obtain ⟨arisen, task, begun⟩ := climbing.entries entry present
    exact answeredAt_of_task undisturbed arisen (of_decide_eq_true own) begun
  · intro tried
    obtain ⟨event, arisen, own, rfl, task, begun⟩ := event_of_answeredAt tried
    obtain ⟨last, present, isOver, steps, came⟩ := ends event arisen task begun
    have event_eq : last.event = event :=
      (after_event came).1.trans (event_of_mem_tasksOf begun)
    rcases climbing.sent last present with fresh | ⟨_, entry, there, same⟩
    · rw [fresh.going] at isOver
      cases isOver
    · have entry_eq : entry.event = event := same.trans event_eq
      rw [← entry_eq]
      refine List.mem_map_of_mem (List.mem_filter.mpr ⟨there, ?_⟩)
      rw [entry_eq, own]
      exact decide_eq_true rfl

/-- In a run that came to its end a send succeeded on the channels on which one that comes up is
accepted. -/
theorem succeededAt_iff (undisturbed : Undisturbed surroundings)
    (tasks : ∀ task, task ∈ state.tasks ↔ ∃ event,
      Arises (rules toLowerCase zoneOf snapshot surroundings) (firstEvents snapshot raw) event ∧
      ∃ begun ∈ tasksOf toLowerCase zoneOf snapshot surroundings event, ∃ steps,
        (rules toLowerCase zoneOf snapshot surroundings).after steps begun = some task ∧
        (rules toLowerCase zoneOf snapshot surroundings).advance task = none)
    (ends : ∀ event, Arises (rules toLowerCase zoneOf snapshot surroundings)
      (firstEvents snapshot raw) event →
      ∀ task ∈ tasksOf toLowerCase zoneOf snapshot surroundings event,
        ∃ last ∈ state.tasks, last.isOver = true ∧ ∃ steps,
          (rules toLowerCase zoneOf snapshot surroundings).after steps task = some last)
    (place : Nat) : state.succeededAt raw userId place = true ↔
      AnsweredAt toLowerCase zoneOf snapshot surroundings raw userId .accepted place := by
  simp only [State.succeededAt, List.any_eq_true, decide_eq_true_eq]
  constructor
  · rintro ⟨task, present, own, rfl, delivered⟩
    obtain ⟨event, arisen, begun, isBegun, steps, came, _⟩ := (tasks task).mp present
    have event_eq : task.event = event :=
      (after_event came).1.trans (event_of_mem_tasksOf isBegun)
    have isOver : task.isOver = true := by rw [Task.isOver, delivered]
    refine ⟨event, arisen, event_eq ▸ own, by rw [event_eq], begun, isBegun, ?_⟩
    rcases (answered_of_over undisturbed isBegun came isOver).phase with ⟨accepted, _⟩ | ⟨_, phase⟩
    · rw [← after_id came]
      exact accepted
    · rw [delivered, Task.giveUp] at phase
      dsimp only at phase
      split at phase
      · cases phase
      · cases phase
  · rintro ⟨event, arisen, own, rfl, task, begun, accepted⟩
    obtain ⟨last, present, isOver, steps, came⟩ := ends event arisen task begun
    have event_eq : last.event = event :=
      (after_event came).1.trans (event_of_mem_tasksOf begun)
    refine ⟨last, present, by rw [event_eq, own], by rw [event_eq], ?_⟩
    rcases (answered_of_over undisturbed begun came isOver).phase with ⟨_, phase⟩ | ⟨refused, _⟩
    · exact phase
    · rw [after_id came, accepted] at refused
      cases refused

/-- The enricher's events for a user are at one place. -/
theorem exists_first_place (fallback : raw.fallback = true) (userId : Text) :
    ∃ first, ∀ event ∈ firstEvents snapshot raw, event.enriched.recipientId = userId →
      event.place raw = first := by
  by_cases some : ∃ event ∈ firstEvents snapshot raw, event.enriched.recipientId = userId
  · obtain ⟨event, given, own⟩ := some
    refine ⟨event.place raw, fun other given' own' => ?_⟩
    have isFirst := firstUsable_of_first fallback given
    have isFirst' := firstUsable_of_first fallback given'
    rw [own] at isFirst
    rw [own'] at isFirst'
    exact isFirst'.unique isFirst
  · exact ⟨0, fun event given own => absurd ⟨event, given, own⟩ some⟩

/-- The channels a send is attempted on are those of the walk exactly where the chain is not
broken. -/
theorem chain_followed_iff (toLowerCase : Text → Text) (zoneOf : Text → Zone) (snapshot : Snapshot)
    (identified : snapshot.Identified) (raw : NotificationRequested)
    (fallback : raw.fallback = true) (surroundings : Surroundings)
    (undisturbed : Undisturbed surroundings) {start state : State}
    (begins : Begins snapshot raw start)
    (run : Reaches (step toLowerCase zoneOf snapshot surroundings) anyStep start state)
    (ended : state.Ended) (userId : Text) (asked : userId ∈ raw.userIds) :
    state.attempted raw userId = chainWalk toLowerCase snapshot raw userId state ↔
      ChainUnbroken toLowerCase zoneOf snapshot surroundings raw userId := by
  have distinct : start = fusedStart snapshot raw → Distinct toLowerCase snapshot raw :=
    begins.distinct identified fallback
  have ends : ∀ event, Arises (rules toLowerCase zoneOf snapshot surroundings)
      (firstEvents snapshot raw) event →
      ∀ task ∈ tasksOf toLowerCase zoneOf snapshot surroundings event,
        ∃ last ∈ state.tasks, last.isOver = true ∧ ∃ steps,
          (rules toLowerCase zoneOf snapshot surroundings).after steps task = some last :=
    fun event arisen task begun => exists_ended identified begins distinct run ended arisen begun
  have climbing : Climbing toLowerCase zoneOf snapshot surroundings raw state :=
    climbing_of_reaches identified fallback undisturbed begins run
  have succeeded : ∀ place, state.succeededAt raw userId place = true ↔
      AnsweredAt toLowerCase zoneOf snapshot surroundings raw userId .accepted place :=
    succeededAt_iff undisturbed (mem_tasks_iff identified begins distinct run ended) ends
  obtain ⟨first, firsts⟩ := exists_first_place fallback userId
  have rising : ((List.range (Enricher.channelsOf raw).length).filter fun place =>
      Reachable toLowerCase snapshot raw userId place).Pairwise (· < ·) :=
    List.pairwise_lt_range.sublist List.filter_sublist
  have reached : ∀ place, place ∈ (List.range (Enricher.channelsOf raw).length).filter (fun place =>
      Reachable toLowerCase snapshot raw userId place) ↔
        Reachable toLowerCase snapshot raw userId place := by
    intro place
    rw [List.mem_filter, List.mem_range, decide_eq_true_eq]
    exact ⟨And.right, fun reachable => ⟨reachable.lt_length, reachable⟩⟩
  rw [State.attempted, chainWalk, (climbing.climbs userId first firsts).eraseDups_eq_iff
      (rising.sublist (upTo_sublist _ _)), ChainUnbroken,
    ← (chain_tries identified fallback undisturbed asked).follows_iff, FollowsWalk]
  refine forall_congr' fun place => ?_
  rw [climbing.mem_sendPlaces undisturbed ends, mem_upTo rising, reached]
  refine iff_congr Iff.rfl (and_congr_right fun _ => forall_congr' fun earlier => ?_)
  rw [reached, ← succeeded, Bool.not_eq_true]
  exact ⟨fun free order reachable => free reachable order,
    fun free reachable order => free order reachable⟩

/-- A user with two mail addresses and a phone. -/
def twoMailboxes : Snapshot where
  users := [⟨1, "p".toList, "u".toList, "UTC".toList⟩]
  contacts := [⟨"c1".toList, 1, .email, "a@x".toList, true⟩,
    ⟨"c2".toList, 1, .email, "b@x".toList, true⟩, ⟨"c3".toList, 1, .sms, "+1".toList, true⟩]

theorem twoMailboxes_identified : twoMailboxes.Identified where
  users := by decide +kernel
  contacts := by decide +kernel
  named := by decide +kernel

/-- Mail first, then the phone. -/
def mailThenPhone : NotificationRequested where
  projectId := "p".toList
  eventId := "r".toList
  userIds := ["u".toList]
  channels := [.email, .sms]
  fallback := true

/-- Sends to these addresses are refused for good, all others taken. -/
def refusing (contactIds : List Text) : Surroundings where
  judgedAt _ := 0
  throttled _ := false
  dispatchedAt _ := 0
  generates _ := true
  answers id _ := if id.contactId ∈ contactIds then .refused else .accepted
  answeredAt _ _ := 0

theorem refusing_undisturbed (contactIds : List Text) : Undisturbed (refusing contactIds) where
  throttled _ := rfl
  generates _ := rfl
  answers id nth := by
    by_cases member : id.contactId ∈ contactIds
    · exact .inr (if_pos member)
    · exact .inl (if_neg member)

/-- One mail is refused and the other one delivered; the refused one's fallback goes to the phone. -/
def mailAndPhone : State :=
  (perform (step id (fun _ => none) twoMailboxes (refusing ["c1".toList]))
    (streamedStart twoMailboxes mailThenPhone)
    [.take 0, .take 0, .advance 0, .advance 1, .take 0, .advance 2]).getD {}

/-- A send to the second channel is attempted though one on the first succeeded. -/
theorem chain_goes_on_after_success :
    ¬ ∀ (toLowerCase : Text → Text) (zoneOf : Text → Zone) (snapshot : Snapshot)
      (raw : NotificationRequested) (surroundings : Surroundings) (start state : State)
      (userId : Text), snapshot.Identified → raw.fallback = true → Undisturbed surroundings →
      Begins snapshot raw start →
      Reaches (step toLowerCase zoneOf snapshot surroundings) anyStep start state → state.Ended →
      userId ∈ raw.userIds →
      state.attempted raw userId = chainWalk toLowerCase snapshot raw userId state := by
  intro claimed
  have run : Reaches (step id (fun _ => none) twoMailboxes (refusing ["c1".toList])) anyStep
      (streamedStart twoMailboxes mailThenPhone) mailAndPhone :=
    reaches_any_performed _ (by decide +kernel)
  have follows := claimed id (fun _ => none) twoMailboxes mailThenPhone (refusing ["c1".toList]) _
    mailAndPhone "u".toList twoMailboxes_identified rfl (refusing_undisturbed _) .streamed run
    ⟨by decide +kernel, by decide +kernel, by decide +kernel⟩ (by decide +kernel)
  have attempted : mailAndPhone.attempted mailThenPhone "u".toList = [0, 1] := by decide +kernel
  have walk : chainWalk id twoMailboxes mailThenPhone "u".toList mailAndPhone = [0] := by
    decide +kernel
  rw [attempted, walk] at follows
  cases follows

/-- Both mails are refused, and of their fallbacks each one is delivered to the phone. -/
def phoneOnly : State :=
  (perform (step id (fun _ => none) twoMailboxes (refusing ["c1".toList, "c2".toList]))
    (streamedStart twoMailboxes mailThenPhone)
    [.take 0, .take 0, .advance 0, .advance 1, .take 0, .take 0, .advance 2, .advance 3]).getD {}

/-- Where both mails are refused the phone is the next, and the chain is not broken. -/
theorem chain_followed_refused :
    ChainUnbroken id (fun _ => none) twoMailboxes (refusing ["c1".toList, "c2".toList]) mailThenPhone
      "u".toList :=
  have run : Reaches (step id (fun _ => none) twoMailboxes (refusing ["c1".toList, "c2".toList]))
      anyStep (streamedStart twoMailboxes mailThenPhone) phoneOnly :=
    reaches_any_performed _ (by decide +kernel)
  (chain_followed_iff id (fun _ => none) twoMailboxes twoMailboxes_identified mailThenPhone rfl
    (refusing ["c1".toList, "c2".toList]) (refusing_undisturbed _) .streamed run
    ⟨by decide +kernel, by decide +kernel, by decide +kernel⟩ "u".toList (by decide +kernel)).mp
    (by decide +kernel)

end Ends

end Notifkit.Pipeline.TaskRuns
