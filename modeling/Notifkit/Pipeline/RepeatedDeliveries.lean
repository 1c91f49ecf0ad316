import Notifkit.Pipeline.FallbackChains

/-!
# Deliveries of a request with fallback to one address

The enricher makes an event for each address of the first channel, and each of them has fallbacks of
its own: where two of these addresses are refused, every address of the next channel is sent to
twice. From then on an event is for all addresses of its channel, and its tasks leave one fallback
between them. A channel that is listed again is tried again, also where one of its addresses was
delivered to and another one refused.
-/

namespace Notifkit.Pipeline.TaskRuns

open Runs Cascades ParkingTimes

/-- The tasks delivered to an address. -/
def State.deliveriesTo (contactId : Text) (state : State) : List Task :=
  state.tasks.filter fun task => task.contact.id = contactId ∧ task.phase = .delivered

/-- Each address of a recipient receives at most one delivery. -/
def DeliversOnce (snapshot : Snapshot) (raw : NotificationRequested) (userId : Text) (state : State) :
    Prop :=
  ∀ contact ∈ snapshot.enabledContacts raw.projectId userId,
    (state.deliveriesTo contact.id).length ≤ 1

section Conditions

variable (toLowerCase : Text → Text) (snapshot : Snapshot) (raw : NotificationRequested)
  (userId : Text)

/-- The chain can come to a place: on every channel from the first one with a usable address up to it
the recipient can be reached. -/
def OnTheWay (place : Nat) : Prop :=
  HasTemplate snapshot raw ∧ ∃ first, FirstUsable snapshot raw userId first ∧ first ≤ place ∧
    ∀ between, first ≤ between → between ≤ place →
      Reachable toLowerCase snapshot raw userId between

/-- Where the chain can go on, the recipient has one address on the first channel, unless that is
push, and on every channel that is listed again. -/
def SingleAddresses : Prop :=
  ∀ place later, place < later → OnTheWay toLowerCase snapshot raw userId later →
    (FirstUsable snapshot raw userId place ∧ (Enricher.channelsOf raw)[place]? ≠ some .push ∨
      (Enricher.channelsOf raw)[place]? = (Enricher.channelsOf raw)[later]?) →
    ∀ one ∈ addressesAt toLowerCase snapshot raw userId place,
      ∀ two ∈ addressesAt toLowerCase snapshot raw userId place, one = two

end Conditions

section Chains

variable {toLowerCase : Text → Text} {zoneOf : Text → Zone} {snapshot : Snapshot}
  {surroundings : Surroundings} {raw : NotificationRequested} {userId : Text}

/-- The chain comes to a place behind another one only by way of that. -/
theorem OnTheWay.before {place : Nat} (way : OnTheWay toLowerCase snapshot raw userId (place + 1))
    {first : Nat} (isFirst : FirstUsable snapshot raw userId first) (order : first ≤ place) :
    OnTheWay toLowerCase snapshot raw userId place := by
  obtain ⟨present, first', isFirst', _, reachable⟩ := way
  obtain rfl := isFirst.unique isFirst'
  exact ⟨present, first, isFirst, order, fun between above below =>
    reachable between above (Nat.le_succ_of_le below)⟩

/-- The enricher's events for a user are at the place it begins at. -/
theorem place_of_first (fallback : raw.fallback = true) {event : Event} {first : Nat}
    (isFirst : FirstUsable snapshot raw userId first) (given : event ∈ firstEvents snapshot raw)
    (own : event.enriched.recipientId = userId) : event.place raw = first := by
  have isFirst' := firstUsable_of_first fallback given
  rw [own] at isFirst'
  exact isFirst'.unique isFirst

/-- An event that comes up is one of the enricher's or behind the place it begins at. -/
theorem first_or_behind (fallback : raw.fallback = true) {event : Event} {first : Nat}
    (isFirst : FirstUsable snapshot raw userId first)
    (arisen : Arises (rules toLowerCase zoneOf snapshot surroundings) (firstEvents snapshot raw)
      event) (own : event.enriched.recipientId = userId) :
    event ∈ firstEvents snapshot raw ∧ event.place raw = first ∨ first < event.place raw := by
  induction arisen with
  | first given => exact .inl ⟨given, place_of_first fallback isFirst given own⟩
  | left arisen begun came leaves inductionHypothesis =>
    obtain ⟨_, left⟩ := leaves_eq_some.mp leaves
    rw [(after_event came).1, event_of_mem_tasksOf begun] at left
    obtain ⟨_, _, descends⟩ := descends_of_arises fallback arisen
    have next := (descends.fallback left).2
    rcases inductionHypothesis ((fallback_eq_some left).2.2.2.2.symm.trans own) with
      ⟨_, here⟩ | behind
    · exact .inr (by omega)
    · exact .inr (by omega)

/-- An event that is sent anywhere is on the way. -/
theorem onTheWay_of_task (identified : snapshot.Identified) (fallback : raw.fallback = true)
    {event : Event} {task : Task}
    (arisen : Arises (rules toLowerCase zoneOf snapshot surroundings) (firstEvents snapshot raw)
      event) (own : event.enriched.recipientId = userId)
    (begun : task ∈ tasksOf toLowerCase zoneOf snapshot surroundings event) :
    OnTheWay toLowerCase snapshot raw userId (event.place raw) := by
  have reached : ∀ {item : Event} {job : Task},
      Arises (rules toLowerCase zoneOf snapshot surroundings) (firstEvents snapshot raw) item →
      item.enriched.recipientId = userId →
      job ∈ tasksOf toLowerCase zoneOf snapshot surroundings item →
      HasTemplate snapshot raw ∧ Reachable toLowerCase snapshot raw userId (item.place raw) := by
    intro item job arisen own begun
    obtain ⟨profile, _, descends⟩ := descends_of_arises fallback arisen
    obtain ⟨present, source, member, _⟩ := descends.address_of_task identified begun
    rw [← descends.recipientId, own] at member
    exact ⟨present, List.ne_nil_of_mem member⟩
  obtain ⟨present, reachable⟩ := reached arisen own begun
  induction arisen generalizing task with
  | first given =>
    have isFirst := firstUsable_of_first fallback given
    rw [own] at isFirst
    refine ⟨present, _, isFirst, Nat.le_refl _, fun between above below => ?_⟩
    rw [Nat.le_antisymm below above]
    exact reachable
  | @left parent next job later steps arisen isBegun came leaves inductionHypothesis =>
    obtain ⟨_, left⟩ := leaves_eq_some.mp leaves
    rw [(after_event came).1, event_of_mem_tasksOf isBegun] at left
    obtain ⟨_, _, descends⟩ := descends_of_arises fallback arisen
    have behind := (descends.fallback left).2
    have ownParent : parent.enriched.recipientId = userId :=
      (fallback_eq_some left).2.2.2.2.symm.trans own
    obtain ⟨_, first, isFirst, order, before⟩ :=
      inductionHypothesis ownParent isBegun (reached arisen ownParent isBegun).2
    refine ⟨present, first, isFirst, by omega, fun between above below => ?_⟩
    rcases Nat.lt_or_eq_of_le below with earlier | rfl
    · exact before between above (by omega)
    · exact reachable

/-- An event a task left is behind the place of the task's event. -/
theorem parent_of_left (fallback : raw.fallback = true) {parent next : Event} {task later : Task}
    {steps : Nat}
    (arisen : Arises (rules toLowerCase zoneOf snapshot surroundings) (firstEvents snapshot raw)
      parent)
    (begun : task ∈ tasksOf toLowerCase zoneOf snapshot surroundings parent)
    (came : (rules toLowerCase zoneOf snapshot surroundings).after steps task = some later)
    (leaves : later.leaves = some next) (own : next.enriched.recipientId = userId) :
    parent.fallback = some next ∧ parent.enriched.recipientId = userId ∧
      next.place raw = parent.place raw + 1 ∧ later.phase = .fellBack := by
  obtain ⟨fellBack, left⟩ := leaves_eq_some.mp leaves
  rw [(after_event came).1, event_of_mem_tasksOf begun] at left
  obtain ⟨_, _, descends⟩ := descends_of_arises fallback arisen
  exact ⟨left, (fallback_eq_some left).2.2.2.2.symm.trans own, (descends.fallback left).2, fellBack⟩

/-- The address of a task, among those of its event's place. -/
theorem address_of_begun (identified : snapshot.Identified) (fallback : raw.fallback = true)
    {event : Event} {task : Task}
    (arisen : Arises (rules toLowerCase zoneOf snapshot surroundings) (firstEvents snapshot raw)
      event) (own : event.enriched.recipientId = userId)
    (begun : task ∈ tasksOf toLowerCase zoneOf snapshot surroundings event) :
    ∃ source ∈ addressesAt toLowerCase snapshot raw userId (event.place raw),
      source.id = task.contact.id := by
  obtain ⟨profile, _, descends⟩ := descends_of_arises fallback arisen
  obtain ⟨_, source, member, same, _⟩ := descends.address_of_task identified begun
  rw [← descends.recipientId, own] at member
  exact ⟨source, member, same⟩

/-- Two of the enricher's events for a user that are sent anywhere are one where the channel is push,
or their tasks are for one address. -/
theorem first_unique (identified : snapshot.Identified) (fallback : raw.fallback = true)
    {one two : Event} {task task' : Task} (given : one ∈ firstEvents snapshot raw)
    (given' : two ∈ firstEvents snapshot raw) (own : one.enriched.recipientId = userId)
    (own' : two.enriched.recipientId = userId)
    (begun : task ∈ tasksOf toLowerCase zoneOf snapshot surroundings one)
    (begun' : task' ∈ tasksOf toLowerCase zoneOf snapshot surroundings two)
    (single : (Enricher.channelsOf raw)[one.place raw]? ≠ some .push →
      task.contact.id = task'.contact.id) : one = two := by
  by_cases push : (Enricher.channelsOf raw)[one.place raw]? = some .push
  · obtain ⟨profile, resolved, issued⟩ := of_mem_firstEvents given
    obtain ⟨profile', resolved', issued'⟩ := of_mem_firstEvents given'
    obtain ⟨descends, isFirst⟩ := issued.descends fallback
    obtain ⟨descends', isFirst'⟩ := issued'.descends fallback
    have users : profile.userId = profile'.userId := by
      rw [← issued.recipientId, ← issued'.recipientId, own, own']
    rw [← users] at isFirst'
    have channel : one.enriched.channel = .push :=
      Option.some.inj (descends.channelAt.symm.trans push)
    have channel' : two.enriched.channel = .push := by
      rw [isFirst.unique isFirst'] at push
      exact Option.some.inj (descends'.channelAt.symm.trans push)
    exact issued.unique issued' users
      ((issued.push.mpr channel).trans (issued'.push.mpr channel').symm)
      (channel.trans channel'.symm)
  · refine event_of_task_id identified (.first given) (.first given') begun begun' ?_
    rw [Task.id, Task.id, event_of_mem_tasksOf begun, event_of_mem_tasksOf begun', single push,
      rawEventId_first given, rawEventId_first given']

/-- Behind the first place the chain comes to a place with one event. -/
theorem event_unique (identified : snapshot.Identified) (fallback : raw.fallback = true)
    (single : SingleAddresses toLowerCase snapshot raw userId) {one two : Event} {first : Nat}
    (isFirst : FirstUsable snapshot raw userId first)
    (arisen : Arises (rules toLowerCase zoneOf snapshot surroundings) (firstEvents snapshot raw) one)
    (arisen' : Arises (rules toLowerCase zoneOf snapshot surroundings) (firstEvents snapshot raw)
      two)
    (own : one.enriched.recipientId = userId) (own' : two.enriched.recipientId = userId)
    (behind : first < one.place raw) (same : one.place raw = two.place raw)
    (way : OnTheWay toLowerCase snapshot raw userId (one.place raw)) : one = two := by
  induction arisen generalizing two with
  | first given =>
    have here := place_of_first fallback isFirst given own
    omega
  | @left parent next task later steps arisen begun came leaves inductionHypothesis =>
    obtain ⟨left, ownParent, place, _⟩ := parent_of_left fallback arisen begun came leaves own
    cases arisen' with
    | first given' =>
      have here := place_of_first fallback isFirst given' own'
      omega
    | @left parent' _ task' later' steps' arisen' begun' came' leaves' =>
      obtain ⟨left', ownParent', place', _⟩ :=
        parent_of_left fallback arisen' begun' came' leaves' own'
      have places : parent.place raw = parent'.place raw := by omega
      have parents : parent = parent' := by
        rcases first_or_behind fallback isFirst arisen ownParent with ⟨given, here⟩ | after
        · rcases first_or_behind fallback isFirst arisen' ownParent' with ⟨given', _⟩ | after'
          · refine first_unique identified fallback given given' ownParent ownParent' begun begun'
              fun notPush => ?_
            obtain ⟨source, member, id⟩ := address_of_begun identified fallback arisen ownParent begun
            obtain ⟨source', member', id'⟩ :=
              address_of_begun identified fallback arisen' ownParent' begun'
            rw [← places] at member'
            have isFirstHere : FirstUsable snapshot raw userId (parent.place raw) := here ▸ isFirst
            rw [← id, ← id', single _ _ (by omega) way (.inl ⟨isFirstHere, notPush⟩) source member
              source' member']
          · omega
        · rw [place] at way
          exact inductionHypothesis arisen' ownParent ownParent' after places
            (way.before isFirst (Nat.le_of_lt after))
      rw [parents] at left
      exact Option.some.inj (left.symm.trans left')

/-- A place before an event's has an event with a task that was given up. -/
theorem exists_given_up (fallback : raw.fallback = true) {event : Event} {first place : Nat}
    (isFirst : FirstUsable snapshot raw userId first) (order : first ≤ place)
    (arisen : Arises (rules toLowerCase zoneOf snapshot surroundings) (firstEvents snapshot raw)
      event) (own : event.enriched.recipientId = userId) (before : place < event.place raw) :
    ∃ earlier, Arises (rules toLowerCase zoneOf snapshot surroundings) (firstEvents snapshot raw)
      earlier ∧ earlier.enriched.recipientId = userId ∧ earlier.place raw = place ∧
      ∃ task ∈ tasksOf toLowerCase zoneOf snapshot surroundings earlier, ∃ steps later,
        (rules toLowerCase zoneOf snapshot surroundings).after steps task = some later ∧
          later.phase = .fellBack := by
  induction arisen with
  | first given =>
    have here := place_of_first fallback isFirst given own
    omega
  | @left parent next task later steps arisen begun came leaves inductionHypothesis =>
    obtain ⟨_, ownParent, atNext, fellBack⟩ := parent_of_left fallback arisen begun came leaves own
    by_cases here : parent.place raw = place
    · exact ⟨parent, arisen, ownParent, here, task, begun, _, later, came, fellBack⟩
    · exact inductionHypothesis ownParent (by omega)

/-- An address of the user is among those of the place of an event with a task for it. -/
theorem contact_of_begun (identified : snapshot.Identified) (fallback : raw.fallback = true)
    {event : Event} {task : Task} {contact : UserContact}
    (listed : contact ∈ snapshot.enabledContacts raw.projectId userId)
    (arisen : Arises (rules toLowerCase zoneOf snapshot surroundings) (firstEvents snapshot raw)
      event)
    (begun : task ∈ tasksOf toLowerCase zoneOf snapshot surroundings event)
    (same : task.contact.id = contact.id) :
    event.enriched.recipientId = userId ∧
      contact ∈ addressesAt toLowerCase snapshot raw userId (event.place raw) := by
  obtain ⟨source, member, id⟩ := address_of_begun identified fallback arisen rfl begun
  have listed' := (mem_addressesAt.mp member).2.2.1
  obtain ⟨users, sources⟩ := identified.contact_unique listed' listed (id.trans same)
  rw [users, sources] at member
  exact ⟨users, member⟩

/-- An address that was delivered to is not sent to on a channel behind. -/
theorem not_sent_again (identified : snapshot.Identified) (fallback : raw.fallback = true)
    (single : SingleAddresses toLowerCase snapshot raw userId) {contact : UserContact}
    (listed : contact ∈ snapshot.enabledContacts raw.projectId userId) {event later : Event}
    {task again last : Task} {steps : Nat}
    (arisen : Arises (rules toLowerCase zoneOf snapshot surroundings) (firstEvents snapshot raw)
      event)
    (begun : task ∈ tasksOf toLowerCase zoneOf snapshot surroundings event)
    (own : task.contact.id = contact.id)
    (came : (rules toLowerCase zoneOf snapshot surroundings).after steps task = some last)
    (delivered : last.phase = .delivered)
    (arisenLater : Arises (rules toLowerCase zoneOf snapshot surroundings)
      (firstEvents snapshot raw) later)
    (begunAgain : again ∈ tasksOf toLowerCase zoneOf snapshot surroundings later)
    (ownAgain : again.contact.id = contact.id) : ¬ event.place raw < later.place raw := by
  intro order
  obtain ⟨user, member⟩ := contact_of_begun identified fallback listed arisen begun own
  obtain ⟨userLater, memberLater⟩ :=
    contact_of_begun identified fallback listed arisenLater begunAgain ownAgain
  have way := onTheWay_of_task identified fallback arisen user begun
  have wayLater := onTheWay_of_task identified fallback arisenLater userLater begunAgain
  obtain ⟨_, first, isFirst, from_first, _⟩ := way
  obtain ⟨earlier, arisenEarlier, userEarlier, here, job, isBegun, more, reached, cameJob, fellBack⟩ :=
    exists_given_up fallback isFirst from_first arisenLater userLater order
  have sameAddress : job.contact.id = task.contact.id := by
    obtain ⟨source, atPlace, id⟩ :=
      address_of_begun identified fallback arisenEarlier userEarlier isBegun
    rw [here] at atPlace
    have listedAgain : (Enricher.channelsOf raw)[event.place raw]? =
        (Enricher.channelsOf raw)[later.place raw]? :=
      (mem_addressesAt.mp member).2.1.trans (mem_addressesAt.mp memberLater).2.1.symm
    rw [own, ← id, single _ _ order wayLater (.inr listedAgain) source atPlace contact member]
  have same : earlier = event := by
    rcases first_or_behind fallback isFirst arisen user with ⟨given, atFirst⟩ | behind
    · rcases first_or_behind fallback isFirst arisenEarlier userEarlier with ⟨given', _⟩ | behind'
      · exact first_unique identified fallback given' given userEarlier user isBegun begun
          fun _ => sameAddress
      · omega
    · refine event_unique identified fallback single isFirst arisenEarlier arisen userEarlier user
        (here ▸ behind) here ?_
      rw [here]
      exact onTheWay_of_task identified fallback arisen user begun
  rw [same] at isBegun
  have jobs : job = task := by
    refine List.inj_on_of_nodup_map (tasksOf_nodup identified event) isBegun begun ?_
    rw [Task.id, Task.id, event_of_mem_tasksOf isBegun, event_of_mem_tasksOf begun, sameAddress]
  rw [jobs] at cameJob
  have ended : ∀ {one : Task}, one.isOver = true →
      (rules toLowerCase zoneOf snapshot surroundings).advance one = none := fun isOver =>
    Task.advance_eq_none.mpr isOver
  have lasts : last = reached := ended_unique came
    (ended (by rw [Task.isOver, delivered])) cameJob (ended (by rw [Task.isOver, fellBack]))
  rw [lasts, fellBack] at delivered
  cases delivered

/-- Where every address that could be sent to twice is the only one, each is delivered to once. -/
theorem delivers_once (identified : snapshot.Identified) (fallback : raw.fallback = true)
    (single : SingleAddresses toLowerCase snapshot raw userId) {start state : State}
    (begins : Begins snapshot raw start)
    (run : Reaches (step toLowerCase zoneOf snapshot surroundings) anyStep start state) :
    DeliversOnce snapshot raw userId state := by
  obtain ⟨work, workRun, follows⟩ :=
    follows_of_reaches identified begins (begins.distinct identified fallback) run
  have explained := explained_of_reaches workRun
  intro contact listed
  have unique : ∀ one ∈ state.deliveriesTo contact.id, ∀ two ∈ state.deliveriesTo contact.id,
      one = two := by
    intro one member two member'
    simp only [State.deliveriesTo, List.mem_filter, decide_eq_true_eq] at member member'
    obtain ⟨present, own, delivered⟩ := member
    obtain ⟨present', own', delivered'⟩ := member'
    obtain ⟨event, arisen, _, task, begun, steps, came⟩ := explained.jobs one (follows.jobs ▸ present)
    obtain ⟨event', arisen', _, task', begun', steps', came'⟩ :=
      explained.jobs two (follows.jobs ▸ present')
    rw [(after_event came).2] at own
    rw [(after_event came').2] at own'
    have notBehind := not_sent_again identified fallback single listed arisen begun own came delivered
      arisen' begun' own'
    have notBefore := not_sent_again identified fallback single listed arisen' begun' own' came'
      delivered' arisen begun own
    have places : event.place raw = event'.place raw := by omega
    obtain ⟨user, _⟩ := contact_of_begun identified fallback listed arisen begun own
    obtain ⟨user', _⟩ := contact_of_begun identified fallback listed arisen' begun' own'
    have way := onTheWay_of_task identified fallback arisen user begun
    obtain ⟨_, first, isFirst, _, _⟩ := way
    have events : event = event' := by
      rcases first_or_behind fallback isFirst arisen user with ⟨given, atFirst⟩ | behind
      · rcases first_or_behind fallback isFirst arisen' user' with ⟨given', _⟩ | behind'
        · exact first_unique identified fallback given given' user user' begun begun'
            fun _ => own.trans own'.symm
        · omega
      · exact event_unique identified fallback single isFirst arisen arisen' user user' behind places
          (onTheWay_of_task identified fallback arisen user begun)
    refine List.inj_on_of_nodup_map follows.distinct present present' ?_
    rw [after_id came, after_id came', Task.id, Task.id, event_of_mem_tasksOf begun,
      event_of_mem_tasksOf begun', events, own, own']
  have distinct : (state.deliveriesTo contact.id).Nodup :=
    (List.Nodup.of_map _ follows.distinct).filter _
  cases found : state.deliveriesTo contact.id with
  | nil => exact Nat.zero_le 1
  | cons one others =>
    cases others with
    | nil => exact Nat.le_refl 1
    | cons two rest =>
      rw [found] at unique distinct
      have same : one = two :=
        unique one List.mem_cons_self two (List.mem_cons_of_mem _ List.mem_cons_self)
      rw [same] at distinct
      exact absurd List.mem_cons_self (List.nodup_cons.mp distinct).1

end Chains

/-- How many fallbacks lie between a request and what came of it. -/
def EventId.depth : EventId → Nat
  | .requested _ => 0
  | .enriched rawEventId _ _ _ => rawEventId.depth + 1

/-- Some sends are taken, all others refused for good. -/
def acceptingOnly (accepted : TaskId → Bool) : Surroundings where
  judgedAt _ := 0
  throttled _ := false
  dispatchedAt _ := 0
  generates _ := true
  answers id _ := if accepted id then .accepted else .refused
  answeredAt _ _ := 0

theorem acceptingOnly_undisturbed (accepted : TaskId → Bool) :
    Undisturbed (acceptingOnly accepted) where
  throttled _ := rfl
  generates _ := rfl
  answers id nth := by
    cases answer : accepted id with
    | true => exact .inl (if_pos answer)
    | false => exact .inr (if_neg (by simp [answer]))

section Repetitions

variable {toLowerCase : Text → Text} {zoneOf : Text → Zone} {snapshot : Snapshot}
  {surroundings : Surroundings} {raw : NotificationRequested} {userId : Text}

/-- The place of an event is as far behind the first one as there were fallbacks. -/
theorem place_eq_depth (fallback : raw.fallback = true) {event : Event} {first : Nat}
    (isFirst : FirstUsable snapshot raw userId first)
    (arisen : Arises (rules toLowerCase zoneOf snapshot surroundings) (firstEvents snapshot raw)
      event) (own : event.enriched.recipientId = userId) :
    event.place raw = first + event.rawEventId.depth := by
  induction arisen with
  | first given =>
    rw [rawEventId_first given]
    exact place_of_first fallback isFirst given own
  | left arisen begun came leaves inductionHypothesis =>
    obtain ⟨left, ownParent, atNext, _⟩ := parent_of_left fallback arisen begun came leaves own
    rw [atNext, inductionHypothesis ownParent, (fallback_eq_some left).1]
    rfl

/-- Where two sends to an address are accepted it is delivered to twice. -/
theorem delivered_twice (identified : snapshot.Identified) (undisturbed : Undisturbed surroundings)
    {contact : UserContact} (listed : contact ∈ snapshot.enabledContacts raw.projectId userId)
    {event event' : Event} {task task' : Task}
    (arisen : Arises (rules toLowerCase zoneOf snapshot surroundings) (firstEvents snapshot raw)
      event)
    (arisen' : Arises (rules toLowerCase zoneOf snapshot surroundings) (firstEvents snapshot raw)
      event')
    (begun : task ∈ tasksOf toLowerCase zoneOf snapshot surroundings event)
    (begun' : task' ∈ tasksOf toLowerCase zoneOf snapshot surroundings event')
    (own : task.contact.id = contact.id) (own' : task'.contact.id = contact.id)
    (differ : task.id ≠ task'.id) (accepted : surroundings.answers task.id 0 = .accepted)
    (accepted' : surroundings.answers task'.id 0 = .accepted) :
    ∃ state, Reaches (step toLowerCase zoneOf snapshot surroundings) anyStep
      (streamedStart snapshot raw) state ∧ ¬ DeliversOnce snapshot raw userId state := by
  obtain ⟨state, run, ended⟩ : ∃ later, Reaches (step toLowerCase zoneOf snapshot surroundings)
      anyStep (streamedStart snapshot raw) later ∧ later.Ended := run_ends _
  have delivered : ∀ {item : Event} {job : Task},
      Arises (rules toLowerCase zoneOf snapshot surroundings) (firstEvents snapshot raw) item →
      job ∈ tasksOf toLowerCase zoneOf snapshot surroundings item →
      job.contact.id = contact.id → surroundings.answers job.id 0 = .accepted →
      ∃ last ∈ state.deliveriesTo contact.id, last.id = job.id := by
    intro item job arisen begun own accepted
    obtain ⟨last, present, isOver, steps, came⟩ :=
      exists_ended identified .streamed streamed_distinct run ended arisen begun
    have phase : last.phase = .delivered := by
      rcases (answered_of_over undisturbed begun came isOver).phase with ⟨_, phase⟩ | ⟨refused, _⟩
      · exact phase
      · rw [after_id came, accepted] at refused
        cases refused
    refine ⟨last, List.mem_filter.mpr ⟨present, ?_⟩, after_id came⟩
    rw [(after_event came).2]
    exact decide_eq_true ⟨own, phase⟩
  obtain ⟨last, member, same⟩ := delivered arisen begun own accepted
  obtain ⟨last', member', same'⟩ := delivered arisen' begun' own' accepted'
  refine ⟨state, run, fun once => ?_⟩
  have few := once contact listed
  match found : state.deliveriesTo contact.id with
  | [] =>
    rw [found] at member
    exact List.not_mem_nil member
  | [one] =>
    rw [found] at member member'
    rw [← same, ← same', List.mem_singleton.mp member, List.mem_singleton.mp member'] at differ
    exact differ rfl
  | one :: two :: rest =>
    rw [found] at few
    simp at few

/-- The chain comes to every place on the way where on each channel before it a send is refused. -/
theorem exists_event_at (identified : snapshot.Identified) (fallback : raw.fallback = true)
    (undisturbed : Undisturbed surroundings) (asked : userId ∈ raw.userIds)
    (present : HasTemplate snapshot raw) {first later : Nat}
    (isFirst : FirstUsable snapshot raw userId first)
    (refusals : ∀ place, first ≤ place → place < later →
      ∃ source ∈ addressesAt toLowerCase snapshot raw userId place, ∀ rawEventId : EventId,
        rawEventId.depth = place - first →
          surroundings.answers ⟨rawEventId, source.id⟩ 0 = .refused) (steps : Nat)
    (within : first + steps ≤ later) {source : UserContact}
    (reached : source ∈ addressesAt toLowerCase snapshot raw userId (first + steps)) :
    ∃ event, Arises (rules toLowerCase zoneOf snapshot surroundings) (firstEvents snapshot raw)
      event ∧ event.enriched.recipientId = userId ∧ event.place raw = first + steps ∧
      ∃ task ∈ tasksOf toLowerCase zoneOf snapshot surroundings event,
        task.contact.id = source.id ∧ task.id.rawEventId.depth = steps := by
  induction steps generalizing source with
  | zero =>
    obtain ⟨event, given, profile, resolved, descends, rfl, here, own⟩ :=
      exists_first fallback asked isFirst reached
    have counted : ¬ (event.enriched.throttleCounted = false ∧
        surroundings.throttled event.id = true) := by
      rw [undisturbed.throttled]
      simp
    obtain ⟨task, begun, id⟩ :=
      descends.exists_task identified present counted (here.symm ▸ reached) own
    refine ⟨event, .first given, descends.recipientId, here, task, begun, id, ?_⟩
    rw [Task.id, event_of_mem_tasksOf begun, rawEventId_first given]
    rfl
  | succ steps inductionHypothesis =>
    obtain ⟨refusedAt, atPlace, refuses⟩ := refusals (first + steps) (by omega) (by omega)
    obtain ⟨event, arisen, own, here, task, begun, id, depth⟩ :=
      inductionHypothesis (by omega) atPlace
    have refused : surroundings.answers task.id 0 = .refused := by
      have answer := refuses task.id.rawEventId (by omega)
      rw [← id] at answer
      exact answer
    obtain ⟨profile, resolved, descends⟩ := descends_of_arises fallback arisen
    have listedAt : first + (steps + 1) < (Enricher.channelsOf raw).length :=
      Reachable.lt_length (List.ne_nil_of_mem reached)
    obtain ⟨next, left⟩ := descends.exists_fallback (by omega)
    obtain ⟨descendsNext, atNext⟩ := descends.fallback left
    have user : profile.userId = userId := descends.recipientId.symm.trans own
    have counted : ¬ (next.enriched.throttleCounted = false ∧
        surroundings.throttled next.id = true) := by
      rw [(fallback_eq_some left).2.2.2.1]
      simp
    have place : next.place raw = first + (steps + 1) := by omega
    rw [← place, ← user] at reached
    obtain ⟨task', begun', id'⟩ :=
      descendsNext.exists_task identified present counted reached (.inl rfl)
    refine ⟨next, arises_of_refused identified undisturbed arisen begun refused left,
      descendsNext.recipientId.trans user, place, task', begun', id', ?_⟩
    rw [Task.id, event_of_mem_tasksOf begun', (fallback_eq_some left).1]
    rw [Task.id, event_of_mem_tasksOf begun] at depth
    exact congrArg (· + 1) depth

/-- Except for push, the enricher chooses an address for each of its events. -/
theorem chosen_of_first {event : Event} {profile : UserRecord} {resolved : Option UserContact}
    (given : event ∈ firstEvents snapshot raw)
    (descends : Descends snapshot raw profile resolved event)
    (notPush : (Enricher.channelsOf raw)[event.place raw]? ≠ some .push) : resolved ≠ none := by
  rintro rfl
  obtain ⟨profile', resolved', issued⟩ := of_mem_firstEvents given
  have unnamed : event.enriched.contactId = none := by
    obtain ⟨_, _, enriched⟩ := descends.enriched
    rw [enriched]
    rfl
  have none : resolved' = none := by
    rw [issued.enriched] at unnamed
    exact Option.map_eq_none_iff.mp unnamed
  refine notPush ?_
  rw [descends.channelAt, issued.push.mp none]

/-- An address of the first channel that is refused leaves an event of its own for the next one. -/
theorem exists_own_fallback (identified : snapshot.Identified) (fallback : raw.fallback = true)
    (undisturbed : Undisturbed surroundings) (asked : userId ∈ raw.userIds)
    (present : HasTemplate snapshot raw) {first : Nat}
    (isFirst : FirstUsable snapshot raw userId first)
    (notPush : (Enricher.channelsOf raw)[first]? ≠ some .push)
    (refuses : ∀ rawEventId contactId, rawEventId.depth = 0 →
      surroundings.answers ⟨rawEventId, contactId⟩ 0 = .refused) {source next : UserContact}
    (reached : source ∈ addressesAt toLowerCase snapshot raw userId first)
    (reachedNext : next ∈ addressesAt toLowerCase snapshot raw userId (first + 1)) :
    ∃ event, ∃ origin : Event, Arises (rules toLowerCase zoneOf snapshot surroundings)
        (firstEvents snapshot raw) event ∧ event.rawEventId = origin.id ∧
      truthy origin.enriched.contactId = some source.id ∧ origin.rawEventId.depth = 0 ∧
      ∃ task ∈ tasksOf toLowerCase zoneOf snapshot surroundings event,
        task.contact.id = next.id := by
  obtain ⟨event, given, profile, resolved, descends, user, here, own⟩ :=
    exists_first fallback asked isFirst reached
  have depth : event.rawEventId.depth = 0 := by
    rw [rawEventId_first given]
    rfl
  have counted : ¬ (event.enriched.throttleCounted = false ∧
      surroundings.throttled event.id = true) := by
    rw [undisturbed.throttled]
    simp
  have chosen : resolved = some source :=
    own.resolve_left (chosen_of_first given descends (here ▸ notPush))
  rw [← user, ← here] at reached
  obtain ⟨task, begun, id⟩ := descends.exists_task identified present counted reached own
  have refused : surroundings.answers task.id 0 = .refused := by
    refine refuses _ _ ?_
    rw [event_of_mem_tasksOf begun]
    exact depth
  have listedAt : first + 1 < (Enricher.channelsOf raw).length :=
    Reachable.lt_length (List.ne_nil_of_mem reachedNext)
  obtain ⟨left, isLeft⟩ := descends.exists_fallback (here ▸ listedAt)
  obtain ⟨descendsLeft, place⟩ := descends.fallback isLeft
  have countedLeft : ¬ (left.enriched.throttleCounted = false ∧
      surroundings.throttled left.id = true) := by
    rw [(fallback_eq_some isLeft).2.2.2.1]
    simp
  rw [← user, ← here, ← place] at reachedNext
  obtain ⟨task', begun', id'⟩ :=
    descendsLeft.exists_task identified present countedLeft reachedNext (.inl rfl)
  refine ⟨left, event, arises_of_refused identified undisturbed (.first given) begun refused isLeft,
    (fallback_eq_some isLeft).1, ?_, depth, task', begun', id'⟩
  obtain ⟨_, _, enriched⟩ := descends.enriched
  rw [enriched, chosen]
  exact mem_truthy.mpr ⟨rfl, (identified.contact_named
    (of_mem_usable (descends.usable source chosen)).1).1⟩

/-- Two addresses on the first channel lead to two deliveries on the next one. -/
theorem first_fans_out (identified : snapshot.Identified) (fallback : raw.fallback = true)
    (asked : userId ∈ raw.userIds) (present : HasTemplate snapshot raw) {first : Nat}
    (isFirst : FirstUsable snapshot raw userId first)
    (notPush : (Enricher.channelsOf raw)[first]? ≠ some .push) {one two : UserContact}
    (isOne : one ∈ addressesAt toLowerCase snapshot raw userId first)
    (isTwo : two ∈ addressesAt toLowerCase snapshot raw userId first) (differ : one.id ≠ two.id)
    (reachable : Reachable toLowerCase snapshot raw userId (first + 1)) :
    ∃ surroundings state, Reaches (step toLowerCase zoneOf snapshot surroundings) anyStep
      (streamedStart snapshot raw) state ∧ ¬ DeliversOnce snapshot raw userId state := by
  obtain ⟨contact, rest, addresses⟩ := List.exists_cons_of_ne_nil reachable
  have reached : contact ∈ addressesAt toLowerCase snapshot raw userId (first + 1) := by
    rw [addresses]
    exact List.mem_cons_self
  have undisturbed := acceptingOnly_undisturbed fun id => decide (id.rawEventId.depth = 1)
  have refuses : ∀ rawEventId contactId, rawEventId.depth = 0 →
      (acceptingOnly fun id => decide (id.rawEventId.depth = 1)).answers ⟨rawEventId, contactId⟩ 0 =
        .refused := by
    intro rawEventId contactId depth
    simp [acceptingOnly, depth]
  obtain ⟨event, origin, arisen, came, chosen, depth, task, begun, id⟩ :=
    @exists_own_fallback toLowerCase zoneOf snapshot _ raw userId identified fallback undisturbed
      asked present first isFirst notPush refuses one contact isOne reached
  obtain ⟨event', origin', arisen', came', chosen', depth', task', begun', id'⟩ :=
    @exists_own_fallback toLowerCase zoneOf snapshot _ raw userId identified fallback undisturbed
      asked present first isFirst notPush refuses two contact isTwo reached
  have accepted : ∀ {item source : Event} {job : Task}, item.rawEventId = source.id →
      source.rawEventId.depth = 0 →
      job ∈ tasksOf toLowerCase zoneOf snapshot
        (acceptingOnly fun id => decide (id.rawEventId.depth = 1)) item →
      (acceptingOnly fun id => decide (id.rawEventId.depth = 1)).answers job.id 0 = .accepted := by
    intro item source job came depth begun
    have after : job.id.rawEventId.depth = 1 := by
      rw [Task.id, event_of_mem_tasksOf begun, came]
      exact congrArg (· + 1) depth
    simp [acceptingOnly, after]
  refine ⟨_, delivered_twice identified undisturbed (mem_addressesAt.mp reached).2.2.1 arisen arisen'
    begun begun' id id' ?_ (accepted came depth begun) (accepted came' depth' begun')⟩
  intro same
  rw [Task.id, Task.id, event_of_mem_tasksOf begun, event_of_mem_tasksOf begun', came, came'] at same
  have keys := (EventId.enriched.inj (TaskId.mk.inj same).1).2.2.2
  rw [chosen, chosen'] at keys
  exact differ (Option.some.inj keys)

/-- Two addresses on a channel that is listed again lead to two deliveries to one of them. -/
theorem repeats_channel (identified : snapshot.Identified) (fallback : raw.fallback = true)
    (asked : userId ∈ raw.userIds) (present : HasTemplate snapshot raw) {first place later : Nat}
    (isFirst : FirstUsable snapshot raw userId first) (order : first ≤ place)
    (before : place < later)
    (reachable : ∀ between, first ≤ between → between ≤ later →
      Reachable toLowerCase snapshot raw userId between) {one two : UserContact}
    (isOne : one ∈ addressesAt toLowerCase snapshot raw userId place)
    (isTwo : two ∈ addressesAt toLowerCase snapshot raw userId place) (differ : one.id ≠ two.id)
    (again : one ∈ addressesAt toLowerCase snapshot raw userId later) :
    ∃ surroundings state, Reaches (step toLowerCase zoneOf snapshot surroundings) anyStep
      (streamedStart snapshot raw) state ∧ ¬ DeliversOnce snapshot raw userId state := by
  let accepted : TaskId → Bool := fun id =>
    id.rawEventId.depth = place - first ∧ id.contactId = one.id ∨ id.rawEventId.depth = later - first
  have undisturbed := acceptingOnly_undisturbed accepted
  have refusals : ∀ between, first ≤ between → between < later →
      ∃ source ∈ addressesAt toLowerCase snapshot raw userId between, ∀ rawEventId : EventId,
        rawEventId.depth = between - first →
          (acceptingOnly accepted).answers ⟨rawEventId, source.id⟩ 0 = .refused := by
    intro between above below
    by_cases here : between = place
    · refine ⟨two, here ▸ isTwo, fun rawEventId depth => if_neg ?_⟩
      have notLater : ¬ rawEventId.depth = later - first := by omega
      simp [accepted, notLater, Ne.symm differ]
    · obtain ⟨source, rest, addresses⟩ :=
        List.exists_cons_of_ne_nil (reachable between above (Nat.le_of_lt below))
      refine ⟨source, by rw [addresses]; exact List.mem_cons_self, fun rawEventId depth => if_neg ?_⟩
      have notLater : ¬ rawEventId.depth = later - first := by omega
      have notPlace : ¬ rawEventId.depth = place - first := by omega
      simp [accepted, notLater, notPlace]
  have place_eq : first + (place - first) = place := by omega
  have later_eq : first + (later - first) = later := by omega
  obtain ⟨event, arisen, _, _, task, begun, id, depth⟩ :=
    @exists_event_at toLowerCase zoneOf snapshot _ raw userId identified fallback undisturbed asked
      present first later isFirst refusals (place - first) (by omega) one (place_eq.symm ▸ isOne)
  obtain ⟨event', arisen', _, _, task', begun', id', depth'⟩ :=
    @exists_event_at toLowerCase zoneOf snapshot _ raw userId identified fallback undisturbed asked
      present first later isFirst refusals (later - first) (by omega) one (later_eq.symm ▸ again)
  refine ⟨_, delivered_twice identified undisturbed (mem_addressesAt.mp isOne).2.2.1 arisen arisen'
    begun begun' id id' ?_ (if_pos ?_) (if_pos ?_)⟩
  · intro same
    rw [same] at depth
    omega
  · have own : task.id.contactId = one.id := id
    simp [accepted, depth, own]
  · simp [accepted, depth']

/-- Where each address is delivered to once, every address that could be sent to twice is the only
one. -/
theorem single_of_delivers_once (identified : snapshot.Identified) (fallback : raw.fallback = true)
    (asked : userId ∈ raw.userIds)
    (once : ∀ surroundings start state, Begins snapshot raw start →
      Reaches (step toLowerCase zoneOf snapshot surroundings) anyStep start state →
      DeliversOnce snapshot raw userId state) :
    SingleAddresses toLowerCase snapshot raw userId := by
  rintro place later order ⟨present, first, isFirst, _, reachable⟩ condition one isOne two isTwo
  have listed := (mem_addressesAt.mp isOne).2.2.1
  have listed' := (mem_addressesAt.mp isTwo).2.2.1
  refine Classical.byContradiction fun differ => ?_
  have ids : one.id ≠ two.id := fun same => differ (identified.contact_unique listed listed' same).2
  have from_first : first ≤ place := isFirst.le (List.ne_nil_of_mem isOne)
  rcases condition with ⟨isFirst', notPush⟩ | again
  · obtain rfl := isFirst.unique isFirst'
    obtain ⟨surroundings, state, run, twice⟩ : ∃ surroundings state,
        Reaches (step toLowerCase zoneOf snapshot surroundings) anyStep (streamedStart snapshot raw)
          state ∧ ¬ DeliversOnce snapshot raw userId state :=
      first_fans_out identified fallback asked present isFirst notPush isOne isTwo ids
        (reachable (first + 1) (by omega) (by omega))
    exact twice (once surroundings _ state .streamed run)
  · have isOneAgain : one ∈ addressesAt toLowerCase snapshot raw userId later := by
      rw [mem_addressesAt] at isOne ⊢
      rw [← again]
      exact isOne
    obtain ⟨surroundings, state, run, twice⟩ : ∃ surroundings state,
        Reaches (step toLowerCase zoneOf snapshot surroundings) anyStep (streamedStart snapshot raw)
          state ∧ ¬ DeliversOnce snapshot raw userId state :=
      repeats_channel identified fallback asked present isFirst from_first order reachable isOne isTwo
        ids isOneAgain
    exact twice (once surroundings _ state .streamed run)

end Repetitions

/-- In all runs and whatever providers answer each address of a recipient receives at most one
delivery, exactly where every address that could be sent to twice is the only one. -/
theorem delivers_once_iff (toLowerCase : Text → Text) (zoneOf : Text → Zone) (snapshot : Snapshot)
    (identified : snapshot.Identified) (raw : NotificationRequested)
    (fallback : raw.fallback = true) (userId : Text) (asked : userId ∈ raw.userIds) :
    (∀ surroundings start state, Begins snapshot raw start →
      Reaches (step toLowerCase zoneOf snapshot surroundings) anyStep start state →
      DeliversOnce snapshot raw userId state) ↔
    SingleAddresses toLowerCase snapshot raw userId :=
  ⟨single_of_delivers_once identified fallback asked, fun single _ _ _ begins run =>
    delivers_once identified fallback single begins run⟩

/-- Both mails are refused, and of their fallbacks each one is delivered to the phone. -/
theorem phone_receives_two :
    ¬ ∀ (toLowerCase : Text → Text) (zoneOf : Text → Zone) (snapshot : Snapshot)
      (raw : NotificationRequested) (userId : Text) (surroundings : Surroundings)
      (start state : State), snapshot.Identified → raw.fallback = true → userId ∈ raw.userIds →
      Begins snapshot raw start →
      Reaches (step toLowerCase zoneOf snapshot surroundings) anyStep start state →
      DeliversOnce snapshot raw userId state := by
  intro claimed
  have run : Reaches (step id (fun _ => none) twoMailboxes (refusing ["c1".toList, "c2".toList]))
      anyStep (streamedStart twoMailboxes mailThenPhone) phoneOnly :=
    reaches_any_performed _ (by decide +kernel)
  have once := claimed id (fun _ => none) twoMailboxes mailThenPhone "u".toList
    (refusing ["c1".toList, "c2".toList]) _ phoneOnly twoMailboxes_identified rfl (by decide +kernel)
    .streamed run
  revert once
  simp only [DeliversOnce]
  decide +kernel

/-- A request for the phone alone. -/
def phoneAlone : NotificationRequested := { mailThenPhone with channels := [.sms] }

/-- Where a request lists one channel each address is delivered to once. -/
theorem delivers_once_alone :
    SingleAddresses id twoMailboxes phoneAlone "u".toList ∧
    ∀ surroundings start state, Begins twoMailboxes phoneAlone start →
      Reaches (step id (fun _ => none) twoMailboxes surroundings) anyStep start state →
      DeliversOnce twoMailboxes phoneAlone "u".toList state := by
  have single : SingleAddresses id twoMailboxes phoneAlone "u".toList := by
    intro place later order ⟨_, _, _, from_first, reachable⟩
    have inside : later < 1 := (reachable later from_first (Nat.le_refl _)).lt_length
    omega
  exact ⟨single, (delivers_once_iff id (fun _ => none) twoMailboxes twoMailboxes_identified
    phoneAlone rfl "u".toList (by decide +kernel)).mpr single⟩

end Notifkit.Pipeline.TaskRuns
