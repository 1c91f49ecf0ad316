import Mathlib.Data.List.Nodup
import Notifkit.Workflow.StepsOnce

/-!
# Replays come to one execution

Taken together: in the runs in which a step has one answer, and no event reads as a timeout,
whatever a handler has seen is what one uninterrupted execution gives it, and the steps it has
come past were each performed once. Where workers may die, a notification can be published
again; the key it carries is made of the instance and the step, and so is the same.
-/

namespace Notifkit.Workflow

open Crowd Runs

variable {triggers : InstanceId → Trigger} {stores after : Stores} {me : Nat}

/-- An actor is not disturbed by what others do. -/
theorem TracesKept.agent {mover : Option Nat} (kept : TracesKept mover stores after)
    (dead : LeavesDead stores after) {other : Nat} (apart : mover ≠ some other)
    {agent : Option Agent} (owns : Agent.Owns other agent stores)
    (traces : Agent.Traces triggers other agent stores) :
    Agent.Traces triggers other agent after := by
  rintro ⟨process, role⟩ rfl alive
  have before : process ∉ stores.dead := fun was => alive (dead process was)
  have knew := traces _ rfl before
  cases role with
  | run current => exact kept.run apart (owns current ⟨process, rfl, before⟩) knew
  | task => exact knew
  | poll => trivial
  | reap => trivial

/-- A step in which everybody answers plainly keeps the rows telling what was done. -/
theorem traced_step {world next : World} {action : Action} (answering : Answering triggers world)
    (traced : Traced triggers world) (spares : AnswersPlainly world action)
    (taken : step triggers world action = some next) : Traced triggers next := by
  refine holds_step traced taken ?_ ?_ ?_
  · rintro index choice rfl agent later shared present alive _ move
    have traces := traced.actor index
    rw [present] at traces
    obtain ⟨traced', mine, kept⟩ :=
      move.traces answering spares present alive traced.shared traces
    have dead : LeavesDead world.shared shared := fun _ was => move.dead ▸ was
    refine ⟨traced', mine, fun other apart => ?_⟩
    exact kept.agent dead (fun same => apart (Option.some.inj same).symm)
      (answering.owned.actor other)
  · rintro agent starts _ _ ⟨⟩ _
    cases starts with
    | run => exact Run.Traces.of_idle rfl nofun
    | poll => trivial
    | reap => trivial
    | task => exact fun _ _ _ phase => nomatch phase
  · intro event shared _ changed
    have frame := outsideStep_frame changed
    have kept : TracesKept none world.shared shared := .of_same (frame.beside.keeps none) frame.performed
    refine ⟨?_, fun other => ?_⟩
    · exact traced.shared.of_same frame.performed frame.steps frame.answered
        (fun _ pending => .inl (frame.pending pending)) fun _ => frame.present
    · exact kept.agent frame.dead (Option.some_ne_none other).symm (answering.owned.actor other)

/-- Nothing has been done. -/
theorem traced_start : Traced triggers start where
  shared := ⟨List.nodup_nil, nofun, nofun, nofun, nofun, nofun⟩
  actor _ := nofun

/-- The rows tell what was done in every run in which everybody answers plainly. -/
theorem traced_reached {world : World} (run : Reaches (step triggers) AnswersPlainly start world) :
    Answering triggers world ∧ Traced triggers world := by
  apply run.invariant (And.intro ⟨owned_start, sequential_start, writers_start⟩ traced_start)
  rintro before action after ⟨answering, traced⟩ spares taken
  exact ⟨answering_step answering spares.1 taken, traced_step answering traced spares taken⟩

/-- The answers of the first rows are the first answers. -/
theorem answers_take {now : Nat} {rows : List StepRow} {results : List Json}
    (answered : answers now rows = some results) (count : Nat) :
    answers now (rows.take count) = some (results.take count) := by
  induction rows generalizing results count with
  | nil =>
    obtain rfl := Option.some.inj answered
    simp [answers]
  | cons row rest inductionHypothesis =>
    obtain ⟨value, first, answered⟩ := Option.bind_eq_some_iff.mp answered
    obtain ⟨later, answeredRest, rfl⟩ := Option.map_eq_some_iff.mp answered
    cases count with
    | zero => rfl
    | succ count => simp [answers, first, inductionHypothesis answeredRest count]

/-- Each row gives the answer in its place. -/
theorem answers_at {now : Nat} {rows : List StepRow} {results : List Json} {index : Nat}
    {row : StepRow} (answered : answers now rows = some results) (present : rows[index]? = some row) :
    ∃ value, row.answer now = some value ∧ results[index]? = some value := by
  induction rows generalizing results index with
  | nil => cases present
  | cons head rest inductionHypothesis =>
    obtain ⟨value, first, answered⟩ := Option.bind_eq_some_iff.mp answered
    obtain ⟨later, answeredRest, rfl⟩ := Option.map_eq_some_iff.mp answered
    cases index with
    | zero =>
      obtain rfl := Option.some.inj present
      exact ⟨value, first, rfl⟩
    | succ index =>
      obtain ⟨found, answers', there⟩ := inductionHypothesis answeredRest present
      exact ⟨found, answers', there⟩

/-- A deed of a step is the one that is found. -/
theorem Stores.Traced.found (traced : stores.Traced) {deed : Deed} (member : deed ∈ stores.performed) :
    (stores.performed.find? fun other => other.key = deed.key ∧ other.action = deed.action) =
      some deed := by
  cases found : stores.performed.find? fun other =>
      other.key = deed.key ∧ other.action = deed.action with
  | none =>
    have apart := List.find?_eq_none.mp found deed member
    simp at apart
  | some other =>
    have there := List.mem_of_find?_eq_some found
    have same := List.find?_some found
    simp only [decide_eq_true_eq] at same
    rw [List.inj_on_of_nodup_map traced.distinct there member same.1]

/-- A deed of a step is its only one. -/
theorem Stores.Traced.count (traced : stores.Traced) {deed : Deed} {key : InstanceId × StepIndex}
    {action : StepAction} (member : deed ∈ stores.performed) (own : deed.key = key)
    (kind : deed.action = action) :
    (stores.performed.countP fun other => other.key = key ∧ other.action = action) = 1 := by
  have some' : 0 < stores.performed.countP fun other => other.key = key ∧ other.action = action :=
    List.countP_pos_iff.mpr ⟨deed, member, by simp [own, kind]⟩
  have fewer : (stores.performed.countP fun other => other.key = key ∧ other.action = action) ≤
      stores.performed.countP fun other => other.key = key := by
    apply List.countP_mono_left
    simp only [decide_eq_true_eq]
    exact fun _ _ both => both.1
  have once : (stores.performed.countP fun other => other.key = key) ≤ 1 := by
    have count := List.nodup_iff_count_le_one.mp traced.distinct key
    rw [List.count, List.countP_map] at count
    refine Nat.le_trans (List.countP_mono_left ?_) count
    simp
  omega

/-- A row answers what the oracle says of the call it was made for. -/
theorem Stores.Traced.oracle (traced : stores.Traced) {instanceId : InstanceId} {row : StepRow}
    {call : StepCall} {value : Json} (present : (stores.steps instanceId)[row.stepIndex]? = some row)
    (kind : call.action = row.action) (answered : row.answer stores.clock = some value) :
    stores.oracle instanceId row.stepIndex call = value := by
  have member := List.mem_of_getElem? present
  rw [StepRow.answer, ← kind] at answered
  cases call with
  | notify =>
    obtain ⟨deed, there, key, action, output⟩ := traced.done instanceId row member (.inl kind.symm)
    have found := traced.found there
    rw [key, action, ← kind] at found
    obtain rfl : row.output = value := Option.some.inj answered
    simp only [Stores.oracle, found, output]
  | run =>
    obtain ⟨deed, there, key, action, output⟩ := traced.done instanceId row member (.inr kind.symm)
    have found := traced.found there
    rw [key, action, ← kind] at found
    obtain rfl : row.output = value := Option.some.inj answered
    simp only [Stores.oracle, found, output]
  | wait duration =>
    simp only [StepCall.action, recollect] at answered
    split at answered
    next =>
      obtain ⟨_, same⟩ := Option.ite_none_left_eq_some.mp answered
      exact Option.some.inj same
    next => exact Option.some.inj answered
  | waitForEvent eventName options =>
    simp only [StepCall.action, recollect] at answered
    obtain ⟨filled, answered⟩ := Option.ite_none_left_eq_some.mp answered
    unfold Stores.oracle
    cases found : stores.answered.find? fun answer =>
        answer.instanceId = instanceId ∧ answer.stepIndex = row.stepIndex with
    | some answer =>
      have there := List.mem_of_find?_eq_some found
      have own := List.find?_some found
      simp only [decide_eq_true_eq] at own
      obtain ⟨plain, other, was, output⟩ := traced.answered answer there
      rw [own.1, own.2] at was
      obtain rfl : other = row := Option.some.inj (was.symm.trans present)
      rw [output] at answered
      unfold Event.plain at plain
      split at answered
      next reads =>
        rw [reads] at plain
        cases plain
      next => exact Option.some.inj answered
    | none =>
      rcases traced.filled instanceId row member kind.symm with empty | output | ⟨answer, there, own⟩
      · rw [empty] at filled
        exact absurd rfl filled
      · rw [output] at answered
        exact Option.some.inj answered
      · have apart := List.find?_eq_none.mp found answer there
        simp [own] at apart

/-- A handler that has the answers of the first rows has what an execution gives it. -/
theorem Stores.Traced.executes (traced : stores.Traced) (conforms : stores.Conforms triggers)
    {instanceId : InstanceId} {results : List Json}
    (answered : answers stores.clock ((stores.steps instanceId).take results.length) = some results)
    {index : Nat} (inside : index < results.length) :
    ∃ row call, (stores.steps instanceId)[index]? = some row ∧ row.stepIndex = index ∧
      call.action = row.action ∧
      (triggers instanceId).handler (results.take index) = .step call ∧
      results[index]? = some (stores.oracle instanceId index call) := by
  have length := answers_length answered
  rw [List.length_take] at length
  have bound : index < (stores.steps instanceId).length := by omega
  obtain ⟨row, present⟩ : ∃ row, (stores.steps instanceId)[index]? = some row :=
    ⟨_, List.getElem?_eq_getElem bound⟩
  obtain ⟨place, call, ⟨_, before, answeredBefore, asks⟩, kind⟩ :=
    conforms.rows instanceId index row present
  have first := answers_take answered index
  rw [List.take_take, Nat.min_eq_left (Nat.le_of_lt inside)] at first
  obtain rfl : before = results.take index := Option.some.inj (answeredBefore.symm.trans first)
  have taken : ((stores.steps instanceId).take results.length)[index]? = some row := by
    rw [List.getElem?_take_of_lt inside]
    exact present
  obtain ⟨value, answers', there⟩ := answers_at answered taken
  refine ⟨row, call, present, place, kind, asks, ?_⟩
  rw [there, ← place, traced.oracle (place ▸ present) kind answers']

/-- Nothing is done twice; and wherever a handler stands between two steps, or has returned, it
has seen what one uninterrupted execution gives it, and each notification and function it has
come past was published or executed once. -/
def ExecutesOnce (triggers : InstanceId → Trigger) (world : World) : Prop :=
  (world.shared.performed.map Deed.key).Nodup ∧
  ∀ (index : Nat) process current, world.actors[index]? = some ⟨process, .run current⟩ →
    process ∉ world.shared.dead →
    current.phase = .calling ∨ current.phase = .finishing .completed →
      execute (triggers current.instanceId).handler (world.shared.oracle current.instanceId)
          current.results.length [] =
        (current.results, (triggers current.instanceId).handler current.results) ∧
      (current.phase = .finishing .completed →
        (triggers current.instanceId).handler current.results = .returns) ∧
      ∀ step call, step < current.results.length →
        (triggers current.instanceId).handler (current.results.take step) = .step call →
          call = .notify ∨ call = .run →
            (world.shared.performed.countP fun deed =>
              deed.key = (current.instanceId, step) ∧ deed.action = call.action) = 1

/-- The key a published notification carries. -/
def Deed.idempotencyKey (deed : Deed) : Text :=
  "wf-".toList ++ (toString deed.instanceId).toList ++ "-".toList ++
    (toString deed.stepIndex).toList

/-- In every run of workers, polls and event tasks over any messages, in which a step has one
answer and no event reads as a timeout, replays come to one execution. In every run at all, with
crashes and reapers, a notification that is published again carries the same key. -/
theorem replays_execute_once (triggers : InstanceId → Trigger) (world : World) :
    (Reaches (step triggers) AnswersPlainly start world → ExecutesOnce triggers world) ∧
    (Reaches (step triggers) anyStep start world →
      ∀ one ∈ world.shared.performed, ∀ two ∈ world.shared.performed, one.action = .notify →
        two.action = .notify → one.key = two.key → one.idempotencyKey = two.idempotencyKey) := by
  constructor
  · intro run
    obtain ⟨answering, traced⟩ := traced_reached run
    have conforms := answering.sequential.shared
    refine ⟨traced.shared.distinct, fun index process current present alive phase => ?_⟩
    have knows : current.Knows triggers world.shared :=
      answering.sequential.actor index current ⟨process, present, alive⟩
    have traces : current.Traces triggers world.shared := traced.actor index _ present alive
    have answered : answers world.shared.clock ((world.shared.steps current.instanceId).take
        current.results.length) = some current.results := by
      rcases phase with calling | returned
      · exact (knows.calls calling).results
      · exact (traces.returned returned).2.1
    refine ⟨?_, fun returned => (traces.returned returned).2.2, ?_⟩
    · apply execute_eq
      intro step inside
      obtain ⟨_, call, _, _, _, asks, there⟩ := traced.shared.executes conforms answered inside
      exact ⟨call, asks, there⟩
    · intro step call inside asks kind
      obtain ⟨row, call', present, place, action, asks', _⟩ :=
        traced.shared.executes conforms answered inside
      obtain rfl : call = call' := Call.step.inj (asks.symm.trans asks')
      have member := List.mem_of_getElem? present
      have which : row.action = .notify ∨ row.action = .run := by
        rw [← action]
        exact kind.imp (congrArg StepCall.action) (congrArg StepCall.action)
      obtain ⟨deed, there, key, did, _⟩ := traced.shared.done _ row member which
      rw [place] at key
      exact traced.shared.count there key (did.trans action.symm)
  · intro _ one _ two _ _ _ same
    obtain ⟨place, step⟩ := Prod.mk.inj same
    unfold Deed.idempotencyKey
    rw [place, step]

/-- A handler that waits for an event, does one thing or another by it, and waits again. -/
def branches : Trigger where
  projectId := 0
  handler
    | [] => .step (.waitForEvent "paid".toList { timeout := some ⟨some 3_600_000⟩ })
    | [event] => .step (if event.property "late".toList = none then .notify else .run)
    | [_, _] => .step (.wait ⟨some 60_000⟩)
    | _ => .returns

/-- The resume of an answered step is published, and the replay publishes the notification. -/
def notifies (actor : Nat) : List Action :=
  [Action.outside (.flush 1 0), .outside (.publishItem 0), .outside (.flushPasses 0),
    .takeMessage actor 0] ++ runs actor 7 ++ [Action.act actor (.run (.produce (.str "id".toList)))]

/-- The wait runs out, and the replay comes to the end of the handler. -/
def wakes (poll replay : Nat) : List Action :=
  [Action.outside (.tick 60_000), .startPoll 1, .act poll (.poll (.claim 60_000 [.sleep 0]))] ++
    polls poll 3 ++ [Action.takeMessage replay 0] ++ runs replay 8

/-- A handler replayed three times, and a worker that dies between publishing a notification
and recording it. -/
theorem replays_execute_once_run : ∃ world again,
    Reaches (step fun _ => branches) AnswersPlainly start world ∧
      world.shared.performed.map Deed.key = [(0, 1)] ∧ ExecutesOnce (fun _ => branches) world ∧
      (∃ current, world.actors[4]? = some ⟨4, .run current⟩ ∧
        current.phase = .finishing .completed ∧ current.results.length = 3) ∧
      Reaches (step fun _ => branches) anyStep start again ∧
      again.shared.performed.map Deed.key = [(0, 1), (0, 1)] ∧
      (∀ one ∈ again.shared.performed, ∀ two ∈ again.shared.performed, one.action = .notify →
        two.action = .notify → one.key = two.key → one.idempotencyKey = two.idempotencyKey) := by
  have run : Reaches (step fun _ => branches) AnswersPlainly start _ :=
    reaches_of_perform (matched ++ notifies 2 ++ runs 2 9 ++ wakes 3 4) (by decide +kernel) rfl
  have crashed : Reaches (step fun _ => branches) anyStep start _ :=
    reaches_any (matched ++ notifies 2 ++ [Action.outside (.crash 2), .outside (.tick 60_001),
        .startReap 1, .act 3 (.reap (.scan [0]))] ++ reaps 3 2 ++ [Action.takeMessage 4 0] ++
        runs 4 7 ++ [Action.act 4 (.run (.produce (.str "id".toList)))]) rfl
  exact ⟨_, _, run, rfl, (replays_execute_once _ _).1 run, ⟨_, rfl, rfl, rfl⟩, crashed, rfl,
    (replays_execute_once _ _).2 crashed⟩

/-- Two events answer one step: by the first the handler notifies, and by the second its replay
takes the row of the notification for the result of a function that was never executed. -/
theorem overwritten_answer_diverts : ∃ triggers world,
    Reaches (step triggers) (fun _ action => action.calm = true) start world ∧
      ¬ ExecutesOnce triggers world := by
  have run : Reaches (step fun _ => branches) (fun _ action => action.calm = true) start _ :=
    reaches_of_perform (metTwice ++ tasks 1 2 ++ notifies 3 ++ runs 3 9 ++ tasks 2 1 ++ wakes 4 5)
      (by decide +kernel) rfl
  refine ⟨_, _, run, fun executes => ?_⟩
  have came := (executes.2 5 5 _ rfl (by decide +kernel) (.inr rfl)).2.2 1 .run (by decide) rfl
    (.inr rfl)
  exact absurd came (by decide +kernel)

/-- An event whose data reads as a timeout is taken for one. -/
theorem plain_data_needed : ∃ triggers world,
    Reaches (step triggers) FindsAlone start world ∧ ¬ ExecutesOnce triggers world := by
  have run : Reaches (step fun _ => awaitsOne) FindsAlone start _ :=
    reaches_of_perform ([Action.outside (.send 0), .takeMessage 0 0] ++ runs 0 14 ++
        [Action.outside (.emit ⟨0, "paid".toList, .obj [("timedOut".toList, .bool true)]⟩),
          .takeEvent 1 0] ++ tasks 1 1 ++ [Action.act 1 (.task (.handle 0))] ++ tasks 1 1 ++
        [Action.act 1 (.task (.select (some 0)))] ++ tasks 1 2 ++
        [Action.outside (.flush 1 0), .outside (.publishItem 0), .outside (.flushPasses 0),
          .takeMessage 2 0] ++ runs 2 5) (by decide +kernel) rfl
  refine ⟨_, _, run, fun executes => ?_⟩
  have same := (executes.2 2 2 _ rfl (by decide +kernel) (.inl rfl)).1
  exact nomatch congrArg Prod.fst same

end Notifkit.Workflow
