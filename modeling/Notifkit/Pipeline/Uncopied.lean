import Notifkit.Pipeline.TaskOrigins

/-!
# Runs without copies

As long as no event is handed to the engine twice, no task is made twice: what delivery's lease
stands for never happens, and events and tasks go their ways by themselves. Such runs are those of
the rules for single events and tasks.
-/

namespace Notifkit.Pipeline.TaskRuns

open Runs Cascades Tables

variable {toLowerCase : Text → Text} {zoneOf : Text → Zone} {snapshot : Snapshot}
  {surroundings : Surroundings} {raw : NotificationRequested}

section Copies

variable {state : State} {task : Task} {position : Nat}

/-- Of the tasks with different ids one has a given one. -/
theorem filter_id {tasks : List Task} (distinct : (tasks.map Task.id).Nodup)
    (member : task ∈ tasks) : tasks.filter (fun other => other.id = task.id) = [task] := by
  induction tasks with
  | nil => cases member
  | cons head tail inductionHypothesis =>
    obtain ⟨apart, distinct⟩ := List.nodup_cons.mp distinct
    by_cases same : head.id = task.id
    · have none : tail.filter (fun other => other.id = task.id) = [] := by
        refine List.filter_eq_nil_iff.mpr fun other present found => apart ?_
        rw [same, ← of_decide_eq_true found]
        exact List.mem_map_of_mem present
      rcases List.mem_cons.mp member with rfl | inTail
      · rw [List.filter_cons_of_pos (by simp), none]
      · exact absurd (List.mem_map_of_mem inTail) (same ▸ apart)
    · rw [List.filter_cons_of_neg (by simpa using same)]
      rcases List.mem_cons.mp member with rfl | inTail
      · exact absurd rfl same
      · exact inductionHypothesis distinct inTail

/-- Without copies the calls for a task id are those of its task. -/
theorem tripsOf_eq (distinct : (state.tasks.map Task.id).Nodup) (member : task ∈ state.tasks) :
    state.tripsOf task.id = task.trips := by
  rw [State.tripsOf, filter_id distinct member]
  rfl

/-- Without copies no task stands for another. -/
theorem standsFor_eq_false (distinct : (state.tasks.map Task.id).Nodup)
    (member : task ∈ state.tasks) : state.standsFor task = false := by
  refine Bool.eq_false_iff.mpr fun stands => ?_
  simp only [State.standsFor, Bool.decide_and, Bool.decide_eq_true, Bool.and_eq_true,
    decide_eq_true_eq, List.any_eq_true] at stands
  obtain ⟨waits, other, present, same, completed⟩ := stands
  have itself : other = task := List.inj_on_of_nodup_map distinct present member same
  rw [itself] at completed
  simp [Task.completed, waits] at completed

/-- Without copies no task is passed over. -/
theorem copied_eq_false (distinct : (state.tasks.map Task.id).Nodup)
    (found : state.tasks[position]? = some task) : state.copied position task = false := by
  refine Bool.eq_false_iff.mpr fun copied => ?_
  simp only [State.copied, Bool.decide_and, Bool.and_eq_true, decide_eq_true_eq,
    List.any_eq_true] at copied
  obtain ⟨_, other, present, same, _⟩ := copied
  obtain ⟨place, elsewhere, placed⟩ := List.mem_eraseIdx_iff_getElem?.mp present
  refine elsewhere ?_
  have ids : (state.tasks.map Task.id)[place]? = (state.tasks.map Task.id)[position]? := by
    simp [placed, found, same]
  obtain ⟨inside, _⟩ := List.getElem?_eq_some_iff.mp placed
  exact (List.getElem?_inj (by simpa using inside) distinct).mp ids

end Copies

/-- An event is sent to some address. -/
def MakesTasks (toLowerCase : Text → Text) (snapshot : Snapshot) (event : Event) : Prop :=
  ∃ contacts, Engine.targets toLowerCase snapshot event.enriched = .ok contacts ∧ contacts ≠ []

/-- Of two events with one key, none is sent anywhere. -/
def Apart (toLowerCase : Text → Text) (snapshot : Snapshot) (one two : Event) : Prop :=
  one.id = two.id → ¬ MakesTasks toLowerCase snapshot one ∧ ¬ MakesTasks toLowerCase snapshot two

/-- An event that is sent nowhere has no tasks. -/
theorem tasksOf_nil {event : Event} (none : ¬ MakesTasks toLowerCase snapshot event) :
    tasksOf toLowerCase zoneOf snapshot surroundings event = [] := by
  refine List.eq_nil_iff_forall_not_mem.mpr fun task member => none ?_
  obtain ⟨_, contacts, passed, contact, sent, _⟩ := mem_tasksOf.mp member
  exact ⟨contacts, passed, List.ne_nil_of_mem sent⟩

/-- A state without copies, and the work of the rules that it is. Called events that are sent
anywhere were not taken up before; all are of the request. Marks tell which of the streamed ones
were. -/
structure Follows (toLowerCase : Text → Text) (snapshot : Snapshot) (raw : NotificationRequested)
    (state : State) (work : Work Event Task EventId) : Prop where
  waiting : work.waiting = state.called ++ state.streamed
  jobs : work.jobs = state.tasks
  marked : ∀ id ∈ state.marks, id ∈ work.seen
  checked : ∀ event ∈ state.streamed, event.id ∈ work.seen → event.id ∈ state.marks
  derived : ∀ event : Event, event.rawEventId ≠ .requested raw.eventId → event.id ∈ work.seen →
    event.id ∈ state.marks
  calledOnce : state.called.Pairwise (Apart toLowerCase snapshot)
  calledFirst : ∀ event ∈ state.called, event.rawEventId = .requested raw.eventId ∧
    (event.id ∈ work.seen → ¬ MakesTasks toLowerCase snapshot event) ∧
    ∀ other ∈ state.streamed, event.id ≠ other.id
  distinct : (state.tasks.map Task.id).Nodup
  begun : ∀ task ∈ state.tasks, task.event.id ∈ work.seen

section Following

variable {state next : State} {work : Work Event Task EventId} {event : Event} {position : Nat}

/-- The tasks of an event that was not taken up before are new. -/
theorem distinct_append (identified : snapshot.Identified)
    (explained : Explained (rules toLowerCase zoneOf snapshot surroundings)
      (firstEvents snapshot raw) work) (follows : Follows toLowerCase snapshot raw state work)
    (arisen : Arises (rules toLowerCase zoneOf snapshot surroundings) (firstEvents snapshot raw)
      event) (unseen : event.id ∉ work.seen) :
    ((state.tasks ++ tasksOf toLowerCase zoneOf snapshot surroundings event).map Task.id).Nodup := by
  rw [List.map_append, List.nodup_append']
  refine ⟨follows.distinct, tasksOf_nodup identified event, ?_⟩
  intro id old new
  obtain ⟨task, present, rfl⟩ := List.mem_map.mp old
  obtain ⟨task', begun', same⟩ := List.mem_map.mp new
  obtain ⟨item, arisenItem, _, origin, begun, steps, came⟩ :=
    explained.jobs task (follows.jobs ▸ present)
  have origins : origin.id = task'.id := by
    rw [same, Task.id, Task.id, (after_event came).1, (after_event came).2]
  have events : item = event :=
    event_of_task_id identified arisenItem arisen begun begun' origins
  refine unseen (events ▸ ?_)
  have seen := follows.begun task present
  rwa [(after_event came).1, event_of_mem_tasksOf begun] at seen

/-- The other called events with the key of one are sent nowhere. -/
theorem Follows.others (follows : Follows toLowerCase snapshot raw state work)
    (found : state.called[position]? = some event) :
    ∀ other ∈ state.called.eraseIdx position, other.id = event.id →
      ¬ MakesTasks toLowerCase snapshot other := by
  intro other member same
  obtain ⟨place, elsewhere, placed⟩ := List.mem_eraseIdx_iff_getElem?.mp member
  obtain ⟨inside, here⟩ := List.getElem?_eq_some_iff.mp found
  obtain ⟨within, there⟩ := List.getElem?_eq_some_iff.mp placed
  have pairs := List.pairwise_iff_getElem.mp follows.calledOnce
  rcases Nat.lt_or_gt_of_ne elsewhere with before | behind
  · have apart := pairs place position within inside before
    rw [here, there] at apart
    exact (apart same).1
  · have apart := pairs position place inside within behind
    rw [here, there] at apart
    exact (apart same.symm).2

/-- Handing on an event that was taken up before adds nothing. -/
theorem Follows.callAgain (follows : Follows toLowerCase snapshot raw state work)
    (found : state.called[position]? = some event) (seen : event.id ∈ work.seen) :
    ∃ after, Cascades.step (rules toLowerCase zoneOf snapshot surroundings) work
      (.take position) = some after ∧ Follows toLowerCase snapshot raw
        { state with
          called := state.called.eraseIdx position
          tasks := state.tasks ++ tasksOf toLowerCase zoneOf snapshot surroundings event } after := by
  obtain ⟨inside, _⟩ := List.getElem?_eq_some_iff.mp found
  have none : ¬ MakesTasks toLowerCase snapshot event :=
    (follows.calledFirst event (List.mem_of_getElem? found)).2.1 seen
  have waits : work.waiting[position]? = some event := by
    rw [follows.waiting, List.getElem?_append_left inside, found]
  rw [tasksOf_nil none, List.append_nil]
  refine ⟨{ work with waiting := work.waiting.eraseIdx position }, ?_, ?_⟩
  · simp [Cascades.step, waits, rules, seen]
  exact {
    waiting := by
      rw [follows.waiting]
      exact List.eraseIdx_append_of_lt_length inside _
    jobs := follows.jobs
    marked := follows.marked
    checked := follows.checked
    derived := follows.derived
    calledOnce := follows.calledOnce.eraseIdx position
    calledFirst := fun other member => follows.calledFirst other (List.mem_of_mem_eraseIdx member)
    distinct := follows.distinct
    begun := follows.begun }

/-- Handing on an event that was not taken up before takes it up. -/
theorem Follows.callFirst (identified : snapshot.Identified)
    (explained : Explained (rules toLowerCase zoneOf snapshot surroundings)
      (firstEvents snapshot raw) work) (follows : Follows toLowerCase snapshot raw state work)
    (found : state.called[position]? = some event) (unseen : event.id ∉ work.seen) :
    ∃ after, Cascades.step (rules toLowerCase zoneOf snapshot surroundings) work
      (.take position) = some after ∧ Follows toLowerCase snapshot raw
        { state with
          called := state.called.eraseIdx position
          tasks := state.tasks ++ tasksOf toLowerCase zoneOf snapshot surroundings event } after := by
  obtain ⟨inside, _⟩ := List.getElem?_eq_some_iff.mp found
  obtain ⟨isFirst, _, apart⟩ := follows.calledFirst event (List.mem_of_getElem? found)
  have waits : work.waiting[position]? = some event := by
    rw [follows.waiting, List.getElem?_append_left inside, found]
  have arisen := explained.waiting event (List.mem_of_getElem? waits)
  refine ⟨⟨work.waiting.eraseIdx position, event.id :: work.seen,
    work.jobs ++ tasksOf toLowerCase zoneOf snapshot surroundings event⟩, ?_, ?_⟩
  · simp [Cascades.step, waits, rules, unseen]
  exact {
    waiting := by
      rw [follows.waiting]
      exact List.eraseIdx_append_of_lt_length inside _
    jobs := by rw [follows.jobs]
    marked := fun id marked => List.mem_cons_of_mem _ (follows.marked id marked)
    checked := by
      intro other streamed seen
      rcases List.mem_cons.mp seen with same | before
      · exact absurd same.symm (apart other streamed)
      · exact follows.checked other streamed before
    derived := by
      intro other foreign seen
      rcases List.mem_cons.mp seen with same | before
      · exact absurd ((EventId.enriched.inj same).1.trans isFirst) foreign
      · exact follows.derived other foreign before
    calledOnce := follows.calledOnce.eraseIdx position
    calledFirst := by
      intro other member
      obtain ⟨isFirst', again, apart'⟩ :=
        follows.calledFirst other (List.mem_of_mem_eraseIdx member)
      refine ⟨isFirst', fun seen => ?_, apart'⟩
      rcases List.mem_cons.mp seen with same | before
      · exact follows.others found other member same
      · exact again before
    distinct := distinct_append identified explained follows arisen unseen
    begun := by
      intro task member
      rcases List.mem_append.mp member with before | made
      · exact List.mem_cons_of_mem _ (follows.begun task before)
      · rw [event_of_mem_tasksOf made]
        exact List.mem_cons_self }

/-- Handing on an event is a step of the rules. -/
theorem Follows.call (identified : snapshot.Identified)
    (explained : Explained (rules toLowerCase zoneOf snapshot surroundings)
      (firstEvents snapshot raw) work) (follows : Follows toLowerCase snapshot raw state work)
    (taken : step toLowerCase zoneOf snapshot surroundings state (.call position) = some next) :
    ∃ after, Cascades.step (rules toLowerCase zoneOf snapshot surroundings) work
      (.take position) = some after ∧ Follows toLowerCase snapshot raw next after := by
  obtain ⟨event, found, same⟩ := Option.bind_eq_some_iff.mp taken
  rw [← Option.some.inj same]
  by_cases seen : event.id ∈ work.seen
  · exact follows.callAgain found seen
  · exact follows.callFirst identified explained found seen

/-- Taking a streamed event takes it up, or finds it taken. -/
theorem Follows.take (identified : snapshot.Identified)
    (explained : Explained (rules toLowerCase zoneOf snapshot surroundings)
      (firstEvents snapshot raw) work) (follows : Follows toLowerCase snapshot raw state work)
    (taken : step toLowerCase zoneOf snapshot surroundings state (.take position) = some next) :
    ∃ after, Cascades.step (rules toLowerCase zoneOf snapshot surroundings) work
      (.take (state.called.length + position)) = some after ∧ Follows toLowerCase snapshot raw next after := by
  obtain ⟨event, found, went⟩ := Option.bind_eq_some_iff.mp taken
  have present : event ∈ state.streamed := List.mem_of_getElem? found
  have waits : work.waiting[state.called.length + position]? = some event := by
    rw [follows.waiting, List.getElem?_append_right (Nat.le_add_right _ _),
      Nat.add_sub_cancel_left, found]
  have arisen := explained.waiting event (List.mem_of_getElem? waits)
  have erased : work.waiting.eraseIdx (state.called.length + position) =
      state.called ++ state.streamed.eraseIdx position := by
    rw [follows.waiting, List.eraseIdx_append_of_length_le (Nat.le_add_right _ _),
      Nat.add_sub_cancel_left]
  dsimp only at went
  split at went
  next marked =>
    have same := Option.some.inj went
    subst same
    refine ⟨{ work with waiting := work.waiting.eraseIdx (state.called.length + position) }, ?_, ?_⟩
    · simp [Cascades.step, waits, rules, follows.marked _ marked]
    exact {
      waiting := erased
      jobs := follows.jobs
      marked := follows.marked
      checked := fun other member => follows.checked other (List.mem_of_mem_eraseIdx member)
      derived := follows.derived
      calledOnce := follows.calledOnce
      calledFirst := by
        intro other member
        obtain ⟨isFirst, unseen, apart⟩ := follows.calledFirst other member
        exact ⟨isFirst, unseen, fun later streamed => apart later (List.mem_of_mem_eraseIdx streamed)⟩
      distinct := follows.distinct
      begun := follows.begun }
  next unmarked =>
    have same := Option.some.inj went
    subst same
    have unseen : event.id ∉ work.seen := mt (follows.checked event present) unmarked
    refine ⟨⟨work.waiting.eraseIdx (state.called.length + position), event.id :: work.seen,
      work.jobs ++ tasksOf toLowerCase zoneOf snapshot surroundings event⟩, ?_, ?_⟩
    · simp [Cascades.step, waits, rules, unseen]
    exact {
      waiting := erased
      jobs := by rw [follows.jobs]
      marked := by
        intro id member
        rcases List.mem_cons.mp member with rfl | before
        · exact List.mem_cons_self
        · exact List.mem_cons_of_mem _ (follows.marked id before)
      checked := by
        intro other member seen
        rcases List.mem_cons.mp seen with same | before
        · exact same ▸ List.mem_cons_self
        · exact List.mem_cons_of_mem _
            (follows.checked other (List.mem_of_mem_eraseIdx member) before)
      derived := by
        intro other foreign seen
        rcases List.mem_cons.mp seen with same | before
        · exact same ▸ List.mem_cons_self
        · exact List.mem_cons_of_mem _ (follows.derived other foreign before)
      calledOnce := follows.calledOnce
      calledFirst := by
        intro other member
        obtain ⟨isFirst, unseen', apart⟩ := follows.calledFirst other member
        refine ⟨isFirst, fun seen => ?_, fun later streamed =>
          apart later (List.mem_of_mem_eraseIdx streamed)⟩
        rcases List.mem_cons.mp seen with same | before
        · exact absurd same (apart event present)
        · exact unseen' before
      distinct := distinct_append identified explained follows arisen unseen
      begun := by
        intro task member
        rcases List.mem_append.mp member with before | made
        · exact List.mem_cons_of_mem _ (follows.begun task before)
        · rw [event_of_mem_tasksOf made]
          exact List.mem_cons_self }

/-- A task goes on by itself. -/
theorem Follows.advance (follows : Follows toLowerCase snapshot raw state work)
    (taken : step toLowerCase zoneOf snapshot surroundings state (.advance position) = some next) :
    ∃ after, Cascades.step (rules toLowerCase zoneOf snapshot surroundings) work
      (.advance position) = some after ∧ Follows toLowerCase snapshot raw next after := by
  obtain ⟨task, found, went⟩ := Option.bind_eq_some_iff.mp taken
  have present : task ∈ state.tasks := List.mem_of_getElem? found
  rw [if_neg (by simp [standsFor_eq_false follows.distinct present]),
    tripsOf_eq follows.distinct present] at went
  obtain ⟨moved, advanced, same⟩ := Option.bind_eq_some_iff.mp went
  have same := Option.some.inj same
  subst same
  have sameId : moved.id = task.id := Task.advance_id advanced
  have ids : (state.tasks.set position moved).map Task.id = state.tasks.map Task.id := by
    rw [List.map_set, sameId]
    refine List.ext_getElem? fun place => ?_
    by_cases here : position = place
    · obtain ⟨inside, _⟩ := List.getElem?_eq_some_iff.mp found
      subst here
      rw [List.getElem?_set_self (by simpa using inside)]
      simp [found]
    · rw [List.getElem?_set_ne here]
  refine ⟨{ work with
    waiting := work.waiting ++ moved.leaves.toList
    jobs := work.jobs.set position moved }, ?_, ?_⟩
  · simp [Cascades.step, follows.jobs, found, rules, advanced]
  exact {
    waiting := by rw [follows.waiting, List.append_assoc]
    jobs := by rw [follows.jobs]
    marked := follows.marked
    checked := by
      intro other member seen
      rcases List.mem_append.mp member with before | left
      · exact follows.checked other before seen
      · obtain ⟨_, fallback⟩ := leaves_eq_some.mp (Option.mem_toList.mp left)
        refine follows.derived other (fun same => ?_) seen
        rw [(fallback_eq_some fallback).1] at same
        cases same
    derived := follows.derived
    calledOnce := follows.calledOnce
    calledFirst := by
      intro other member
      obtain ⟨isFirst, unseen, apart⟩ := follows.calledFirst other member
      refine ⟨isFirst, unseen, fun later streamed same => ?_⟩
      rcases List.mem_append.mp streamed with before | left
      · exact apart later before same
      · obtain ⟨_, fallback⟩ := leaves_eq_some.mp (Option.mem_toList.mp left)
        have origins : other.rawEventId = later.rawEventId := (EventId.enriched.inj same).1
        rw [isFirst, (fallback_eq_some fallback).1] at origins
        cases origins
    distinct := ids ▸ follows.distinct
    begun := by
      refine all_set follows.begun ?_
      rw [(Task.advance_event advanced).1]
      exact follows.begun task present }

/-- Every step follows the rules. -/
theorem Follows.step {action : Action} (identified : snapshot.Identified)
    (explained : Explained (rules toLowerCase zoneOf snapshot surroundings)
      (firstEvents snapshot raw) work) (follows : Follows toLowerCase snapshot raw state work)
    (taken : TaskRuns.step toLowerCase zoneOf snapshot surroundings state action = some next) :
    ∃ move after, Cascades.step (rules toLowerCase zoneOf snapshot surroundings) work move =
      some after ∧ Follows toLowerCase snapshot raw next after := by
  cases action with
  | call position => exact ⟨_, follows.call identified explained taken⟩
  | take position => exact ⟨_, follows.take identified explained taken⟩
  | advance position => exact ⟨_, follows.advance taken⟩
  | skip position =>
    obtain ⟨task, found, went⟩ := Option.bind_eq_some_iff.mp taken
    rw [if_neg (by simp [copied_eq_false follows.distinct found])] at went
    cases went

end Following

/-- The enricher makes no two events with one key of the engine that are sent anywhere. -/
def Distinct (toLowerCase : Text → Text) (snapshot : Snapshot) (raw : NotificationRequested) : Prop :=
  (firstEvents snapshot raw).Pairwise (Apart toLowerCase snapshot)

/-- A request begins without copies. -/
theorem follows_start {start : State} (begins : Begins snapshot raw start)
    (distinct : start = fusedStart snapshot raw → Distinct toLowerCase snapshot raw) :
    Follows toLowerCase snapshot raw start { waiting := firstEvents snapshot raw } := by
  cases begins with
  | streamed =>
    exact {
      waiting := rfl
      jobs := rfl
      marked := fun _ member => nomatch member
      checked := fun _ _ seen => nomatch seen
      derived := fun _ _ seen => nomatch seen
      calledOnce := List.Pairwise.nil
      calledFirst := fun _ member => nomatch member
      distinct := List.nodup_nil
      begun := fun _ member => nomatch member }
  | fused single =>
    exact {
      waiting := (List.append_nil _).symm
      jobs := rfl
      marked := fun _ member => nomatch member
      checked := fun _ member => nomatch member
      derived := fun _ _ seen => nomatch seen
      calledOnce := distinct rfl
      calledFirst := fun _ member =>
        ⟨rawEventId_first member, fun seen => (nomatch seen), fun _ streamed => nomatch streamed⟩
      distinct := List.nodup_nil
      begun := fun _ member => nomatch member }

/-- Every run that begins without copies is one of the rules. -/
theorem follows_of_reaches {allowed : State → Action → Prop} {start state : State}
    (identified : snapshot.Identified) (begins : Begins snapshot raw start)
    (distinct : start = fusedStart snapshot raw → Distinct toLowerCase snapshot raw)
    (run : Reaches (step toLowerCase zoneOf snapshot surroundings) allowed start state) :
    ∃ work, Reaches (Cascades.step (rules toLowerCase zoneOf snapshot surroundings)) anyStep
      { waiting := firstEvents snapshot raw } work ∧ Follows toLowerCase snapshot raw state work := by
  induction run with
  | here => exact ⟨_, .here, follows_start begins distinct⟩
  | next _ _ taken inductionHypothesis =>
    obtain ⟨work, run, follows⟩ := inductionHypothesis
    obtain ⟨_, after, moved, follows⟩ := follows.step identified (explained_of_reaches run) taken
    exact ⟨after, run.next trivial moved, follows⟩

/-- Where nothing is left to do, nothing is left by the rules. -/
theorem Follows.complete {state : State} {work : Work Event Task EventId}
    (follows : Follows toLowerCase snapshot raw state work) (ended : state.Ended) :
    Complete (rules toLowerCase zoneOf snapshot surroundings) work where
  waiting := by rw [follows.waiting, ended.called, ended.streamed, List.append_nil]
  ended task member := Task.advance_eq_none.mpr (ended.tasks task (follows.jobs ▸ member))

/-- The tasks of a run that came to its end are those that come up, each at its end. -/
theorem mem_tasks_iff {allowed : State → Action → Prop} {start state : State}
    (identified : snapshot.Identified) (begins : Begins snapshot raw start)
    (distinct : start = fusedStart snapshot raw → Distinct toLowerCase snapshot raw)
    (run : Reaches (step toLowerCase zoneOf snapshot surroundings) allowed start state)
    (ended : state.Ended) (task : Task) :
    task ∈ state.tasks ↔ ∃ event,
      Arises (rules toLowerCase zoneOf snapshot surroundings) (firstEvents snapshot raw) event ∧
      ∃ begun ∈ tasksOf toLowerCase zoneOf snapshot surroundings event, ∃ steps,
        (rules toLowerCase zoneOf snapshot surroundings).after steps begun = some task ∧
        (rules toLowerCase zoneOf snapshot surroundings).advance task = none := by
  obtain ⟨work, workRun, follows⟩ := follows_of_reaches identified begins distinct run
  rw [← follows.jobs]
  exact mem_jobs_iff (explained_of_reaches workRun) (keyed identified) (follows.complete ended)

/-- The events of a channel have different keys. -/
theorem channelEvents_distinct (identified : snapshot.Identified) (profile : UserRecord)
    (userId : Text) (topics : List Text) (chain : List NotificationChannel)
    (channel : NotificationChannel) :
    ((Enricher.channelEvents raw profile (snapshot.enabledContacts raw.projectId userId) topics
      chain channel).map fun enriched => Event.id ⟨.requested raw.eventId, enriched⟩).Nodup := by
  unfold Enricher.channelEvents
  split
  · exact List.nodup_singleton _
  · rw [List.map_map]
    have usableIds : ((Enricher.usable (snapshot.enabledContacts raw.projectId userId) topics
        channel).map UserContact.id).Nodup :=
      (identified.enabledContacts_nodup _ _).sublist (List.filter_sublist.map _)
    refine (List.Nodup.of_map _ usableIds).map_on ?_
    intro one usable two usable' same
    have named := (identified.contact_named (of_mem_usable usable).1).1
    have named' := (identified.contact_named (of_mem_usable usable').1).1
    have keys : truthy (some one.id) = truthy (some two.id) := (EventId.enriched.inj same).2.2.2
    rw [mem_truthy.mpr ⟨rfl, named⟩, mem_truthy.mpr ⟨rfl, named'⟩] at keys
    exact (identified.contact_unique (of_mem_usable usable).1 (of_mem_usable usable').1
      (Option.some.inj keys)).2

/-- The events of a single user's request with fallback have different keys. -/
theorem distinct_of_fallback (identified : snapshot.Identified) (fallback : raw.fallback = true)
    {userId : Text} (single : raw.userIds = [userId]) : Distinct toLowerCase snapshot raw := by
  have keys : ((firstEvents snapshot raw).map Event.id).Nodup := by
    rw [firstEvents, List.map_map, Enricher.fanOut]
    simp only [single, List.filterMap_cons, List.filterMap_nil]
    split
    · exact List.nodup_nil
    next profile found =>
      have named : profile.userId = userId := by simpa using List.find?_some found
      simp only [List.map_cons, List.map_nil, List.flatMap_cons, List.flatMap_nil, List.append_nil,
        Snapshot.findActiveByUserIds, List.mem_singleton, if_true, Enricher.userEvents]
      split
      · exact List.nodup_nil
      next channels chain chosen =>
        obtain ⟨channel, rfl⟩ : ∃ channel, channels = [channel] := by
          simp only [Enricher.userChannels, fallback, if_true] at chosen
          split at chosen
          · cases chosen
          next first _ _ => exact ⟨first, (Prod.mk.inj (Option.some.inj chosen)).1.symm⟩
        rw [List.flatMap_singleton]
        exact channelEvents_distinct identified profile _ _ chain channel
  exact (List.pairwise_map.mp keys).imp fun differ same => absurd same differ

end Notifkit.Pipeline.TaskRuns
