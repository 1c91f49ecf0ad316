import Notifkit.Scheduler.World

/-!
# What a step of each actor can do

A step of each kind of call is taken apart here once. The invariants of the scheduler are
proved from the moves and never unfold a step.
-/

namespace Notifkit.Scheduler

variable {order : LinearOrder TaskId} {stores after : Stores} {me : Nat}

/-- What a step of `scheduleOrDispatch` can do. -/
inductive ParkMove (stores : Stores) (park : Park) : Stores → Park → Prop where
  | fail : ParkMove stores park stores (park.goto .ended)
  | later {scheduledAt : SendTime} (phase : park.phase = .deciding)
    (late : stores.clock < scheduledAt.ms) :
    ParkMove stores park stores (park.goto (.inserting scheduledAt))
  | due (phase : park.phase = .deciding) : ParkMove stores park stores (park.goto .dispatching)
  | insert {scheduledAt : SendTime} (phase : park.phase = .inserting scheduledAt) :
    ParkMove stores park
      (stores.insertPayload park.source.taskId (park.payload (some scheduledAt)))
      (park.goto (.announcing scheduledAt))
  | announce {scheduledAt : SendTime} (phase : park.phase = .announcing scheduledAt) :
    ParkMove stores park (stores.announce (park.message scheduledAt)) (park.goto .acking)
  | dispatch (phase : park.phase = .dispatching) :
    ParkMove stores park (stores.dispatch park.source.taskId (park.payload none))
      (park.goto .acking)
  | ack (phase : park.phase = .acking) :
    ParkMove stores park { stores with sourcesDone := park.position :: stores.sourcesDone }
      (park.goto .ended)

/-- A step of `scheduleOrDispatch` is one of the moves. -/
theorem Park.step_moves {park later : Park} {fails : Bool}
    (taken : park.step stores fails = some (after, later)) : ParkMove stores park after later := by
  unfold Park.step at taken
  split at taken
  next => cases taken
  all_goals obtain ⟨rfl, rfl⟩ := Prod.mk.inj (Option.some.inj taken)
  next => exact .fail
  next phase =>
    unfold Park.decide
    split
    next scheduledAt _ =>
      split
      next late => exact .later phase late
      next => exact .due phase
    next => exact .due phase
  next scheduledAt phase => exact .insert phase
  next scheduledAt phase => exact .announce phase
  next phase => exact .dispatch phase
  next phase => exact .ack phase

/-- What a step of a delivery can do. -/
inductive DeliveryMove (stores : Stores) (delivery : Delivery) (choice : DeliveryChoice) :
    Stores → Delivery → Prop where
  | fail : DeliveryMove stores delivery choice stores (delivery.goto .ended)
  | settle (phase : delivery.phase = .deciding) :
    DeliveryMove stores delivery choice
      { stores with ended := delivery.task.taskId :: stores.ended } (delivery.goto .acking)
  | wait {delay : Nat} {reason : Text} (phase : delivery.phase = .deciding) (positive : 0 < delay) :
    DeliveryMove stores delivery choice stores
      (delivery.goto (.storing ⟨stores.clock + delay, none⟩ reason))
  | store {scheduledAt : SendTime} {reason : Text}
    (phase : delivery.phase = .storing scheduledAt reason) :
    DeliveryMove stores delivery choice
      (stores.upsertPayload delivery.task.taskId (delivery.payload scheduledAt))
      (delivery.goto (.announcing scheduledAt reason))
  | announce {scheduledAt : SendTime} {reason : Text} (chosen : choice = .proceed)
    (phase : delivery.phase = .announcing scheduledAt reason) :
    DeliveryMove stores delivery choice
      (stores.announce (delivery.message scheduledAt reason stores.clock)) (delivery.goto .acking)
  | ack (phase : delivery.phase = .acking) :
    DeliveryMove stores delivery choice
      { stores with outboundDone := delivery.position :: stores.outboundDone }
      (delivery.goto .ended)

/-- A step of a delivery is one of the moves. -/
theorem Delivery.step_moves {delivery later : Delivery} {choice : DeliveryChoice}
    (taken : delivery.step stores choice = some (after, later)) :
    DeliveryMove stores delivery choice after later := by
  unfold Delivery.step at taken
  split at taken
  next => cases taken
  next =>
    obtain ⟨rfl, rfl⟩ := Prod.mk.inj (Option.some.inj taken)
    exact .fail
  next phase =>
    obtain ⟨rfl, rfl⟩ := Prod.mk.inj (Option.some.inj taken)
    exact .settle phase
  next delay reason phase =>
    obtain ⟨positive, same⟩ := Option.ite_none_right_eq_some.mp taken
    obtain ⟨rfl, rfl⟩ := Prod.mk.inj (Option.some.inj same)
    exact .wait phase positive
  next scheduledAt reason phase =>
    obtain ⟨rfl, rfl⟩ := Prod.mk.inj (Option.some.inj taken)
    exact .store phase
  next scheduledAt reason phase =>
    obtain ⟨rfl, rfl⟩ := Prod.mk.inj (Option.some.inj taken)
    exact .announce rfl phase
  next phase =>
    obtain ⟨rfl, rfl⟩ := Prod.mk.inj (Option.some.inj taken)
    exact .ack phase
  next => cases taken

/-- What a step of the scheduler worker's `process` can do. -/
inductive QueueingMove (stores : Stores) (queueing : Queueing) : Stores → Queueing → Prop where
  | fail : QueueingMove stores queueing stores (queueing.goto .ended)
  | add (phase : queueing.phase = .adding) :
    QueueingMove stores queueing
      (stores.zadd queueing.scheduled.scheduledAt.ms queueing.scheduled.member)
      (queueing.goto .acking)
  | ack (phase : queueing.phase = .acking) :
    QueueingMove stores queueing
      { stores with scheduledDone := queueing.position :: stores.scheduledDone }
      (queueing.goto .ended)

/-- A step of `process` is one of the moves. -/
theorem Queueing.step_moves {queueing later : Queueing} {fails : Bool}
    (taken : queueing.step stores fails = some (after, later)) :
    QueueingMove stores queueing after later := by
  unfold Queueing.step at taken
  split at taken
  next => cases taken
  all_goals obtain ⟨rfl, rfl⟩ := Prod.mk.inj (Option.some.inj taken)
  next => exact .fail
  next phase => exact .add phase
  next phase => exact .ack phase

/-- What a step of `cancelNotification` can do. -/
inductive CancelMove (stores : Stores) (cancel : Cancel) (fails : Bool) :
    Stores → Cancel → Prop where
  | quiet {phase : CancelPhase} (unanswered : phase ≠ .answered true) :
    CancelMove stores cancel fails stores (cancel.goto phase)
  | delete {row : Row} (works : fails = false) (phase : cancel.phase = .deleting)
    (found : stores.scheduledPayloads.lookup cancel.taskId = some row) :
    CancelMove stores cancel fails
      { stores.deletePayloads fun taskId _ => taskId = cancel.taskId with
        canceled := row.id :: stores.canceled
        ended := cancel.taskId :: stores.ended }
      (cancel.goto (.answered true))

/-- A step of `cancelNotification` is one of the moves. -/
theorem Cancel.step_moves {cancel later : Cancel} {fails : Bool}
    (taken : cancel.step stores fails = some (after, later)) :
    CancelMove stores cancel fails after later := by
  unfold Cancel.step at taken
  split at taken
  next => cases taken
  next => cases taken
  next =>
    obtain ⟨rfl, rfl⟩ := Prod.mk.inj (Option.some.inj taken)
    exact .quiet (by simp)
  next =>
    split at taken
    next =>
      split at taken <;>
        (obtain ⟨rfl, rfl⟩ := Prod.mk.inj (Option.some.inj taken)
         exact .quiet (by simp))
    next =>
      obtain ⟨rfl, rfl⟩ := Prod.mk.inj (Option.some.inj taken)
      exact .quiet (by simp)
  next phase =>
    split at taken
    next row found =>
      obtain ⟨rfl, rfl⟩ := Prod.mk.inj (Option.some.inj taken)
      exact .delete rfl phase found
    next =>
      obtain ⟨rfl, rfl⟩ := Prod.mk.inj (Option.some.inj taken)
      exact .quiet (by simp)

/-- What a step of a poll can do. -/
inductive PollMove (stores : Stores) (poll : Poll) (choice : PollChoice) :
    Stores → Poll → Prop where
  /-- the poll lock is taken, found taken, or released -/
  | turn {pollLock : ExpiringStore Unit Nat} {phase : PollPhase}
    (outer : poll.phase = .locking ∧ phase = .starting ∨ phase = .ended) :
    PollMove stores poll choice { stores with pollLock := pollLock } (poll.goto phase)
  | start (phase : poll.phase = .starting) :
    PollMove stores poll choice stores { poll with now := stores.clock, phase := .claiming 0 }
  | claim {shard : Nat} {members : List Member} {phase : PollPhase}
    (was : poll.phase = .claiming shard)
    (due : ∀ member ∈ members, ∃ score ∈ stores.zset.score (shard, member), score ≤ poll.now)
    (goes : (∃ shard, phase = .claiming shard) ∨ phase = .unlocking ∨ phase = .reading) :
    PollMove stores poll choice
      { stores with
        zset := stores.zset.rescore (members.map fun member => (shard, member))
          (poll.now + visibilityTimeout) }
      { poll with
        parsedTasks := poll.parsedTasks ++ members
        due := fun member =>
          if member ∈ members then stores.putFor (shard, member) else poll.due member
        phase := phase }
  | read (chosen : choice = .proceed) (phase : poll.phase = .reading) :
    PollMove stores poll choice stores
      { poll with
        payloadMap := fun taskId => stores.scheduledPayloads.lookup taskId
        phase := .gating }
  | gate {blocked : List TaskId} (phase : poll.phase = .gating) :
    PollMove stores poll choice { stores with refused := poll.refusals blocked ++ stores.refused }
      { poll with
        blocked := blocked
        phase := .publishing (Poll.batchedEvents poll.payloadMap blocked [] poll.parsedTasks) }
  | publish {rest : List (Member × Row)} {position : Nat} {member : Member} {row : Row}
    (phase : poll.phase = .publishing rest) (next : rest[position]? = some (member, row)) :
    PollMove stores poll choice (poll.release stores member row)
      (poll.goto (.publishing (rest.eraseIdx position)))
  | published (phase : poll.phase = .publishing []) :
    PollMove stores poll choice stores (poll.goto .deleting)
  | delete (chosen : choice = .proceed) (phase : poll.phase = .deleting) :
    PollMove stores poll choice
      { stores.deletePayloads poll.cleanup with ended := poll.dropped ++ stores.ended }
      (poll.goto (.cleaning poll.parsedTasks))
  /-- the deletion fails -/
  | pass (phase : poll.phase = .deleting) :
    PollMove stores poll choice { stores with ended := poll.dropped ++ stores.ended }
      (poll.goto (.cleaning poll.parsedTasks))
  | remove {member : Member} {rest : List Member}
    (phase : poll.phase = .cleaning (member :: rest)) :
    PollMove stores poll choice (stores.zrem member) (poll.goto (.cleaning rest))
  /-- a member cannot be taken out -/
  | leave {member : Member} {rest : List Member}
    (phase : poll.phase = .cleaning (member :: rest)) :
    PollMove stores poll choice stores (poll.goto (.cleaning rest))
  | unlock : PollMove stores poll choice stores (poll.goto .unlocking)

/-- A step of a poll is one of the moves. -/
theorem Poll.step_moves {poll later : Poll} {choice : PollChoice}
    (taken : poll.step me stores choice = some (after, later)) :
    PollMove stores poll choice after later := by
  unfold Poll.step at taken
  split at taken
  next phase =>
    split at taken <;> obtain ⟨rfl, rfl⟩ := Prod.mk.inj (Option.some.inj taken)
    · exact .turn (.inl ⟨phase, rfl⟩)
    · exact .turn (.inr rfl)
  next phase =>
    obtain ⟨rfl, rfl⟩ := Prod.mk.inj (Option.some.inj taken)
    exact .start phase
  next shard members phase =>
    obtain ⟨⟨_, _, due⟩, same⟩ := Option.ite_none_right_eq_some.mp taken
    obtain ⟨rfl, rfl⟩ := Prod.mk.inj (Option.some.inj same)
    refine .claim phase due ?_
    split
    · exact .inl ⟨_, rfl⟩
    · split
      · exact .inr (.inl rfl)
      · exact .inr (.inr rfl)
  next phase =>
    obtain ⟨rfl, rfl⟩ := Prod.mk.inj (Option.some.inj taken)
    exact .read rfl phase
  next blocked phase =>
    obtain ⟨rfl, rfl⟩ := Prod.mk.inj (Option.some.inj taken)
    exact .gate phase
  next rest position phase =>
    obtain ⟨⟨member, row⟩, next, same⟩ := Option.map_eq_some_iff.mp taken
    obtain ⟨rfl, rfl⟩ := Prod.mk.inj same
    exact .publish phase next
  next phase =>
    obtain ⟨rfl, rfl⟩ := Prod.mk.inj (Option.some.inj taken)
    exact .published phase
  next phase =>
    obtain ⟨rfl, rfl⟩ := Prod.mk.inj (Option.some.inj taken)
    exact .delete rfl phase
  next =>
    obtain ⟨rfl, rfl⟩ := Prod.mk.inj (Option.some.inj taken)
    exact .unlock
  next member rest phase =>
    obtain ⟨rfl, rfl⟩ := Prod.mk.inj (Option.some.inj taken)
    exact .remove phase
  next =>
    obtain ⟨rfl, rfl⟩ := Prod.mk.inj (Option.some.inj taken)
    unfold Poll.releaseLock
    split
    · exact .turn (.inr rfl)
    · exact .turn (.inr rfl)
  any_goals obtain ⟨rfl, rfl⟩ := Prod.mk.inj (Option.some.inj taken)
  next => exact .turn (.inr rfl)
  next => exact .turn (.inr rfl)
  next => exact .unlock
  next => exact .unlock
  next => exact .unlock
  next => exact .unlock
  next phase => exact .pass phase
  next member rest phase => exact .leave phase
  next => cases taken

/-- What a step of a rebuild can do. -/
inductive RebuildMove (order : LinearOrder TaskId) (stores : Stores) (rebuild : Rebuild)
    (fails : Bool) : Stores → Rebuild → Prop where
  | page {last : TaskId × Row} (phase : rebuild.phase = .paging)
    (ends : (stores.scheduledPayloads.page order rebuild.after rebuild.pageSize).getLast? =
      some last) :
    RebuildMove order stores rebuild fails stores
      { rebuild with
        after := some last.1
        now := stores.clock
        phase := .adding (stores.scheduledPayloads.page order rebuild.after rebuild.pageSize)
          ((stores.scheduledPayloads.page order rebuild.after rebuild.pageSize).length <
            rebuild.pageSize) }
  | nothing (phase : rebuild.phase = .paging)
    (empty : stores.scheduledPayloads.page order rebuild.after rebuild.pageSize = []) :
    RebuildMove order stores rebuild fails stores (rebuild.goto .marking)
  | add {taskId : TaskId} {row : Row} {rest : List (TaskId × Row)} {last : Bool}
    (phase : rebuild.phase = .adding ((taskId, row) :: rest) last) :
    RebuildMove order stores rebuild fails
      (stores.zaddNX (rebuild.sendAt row) (Rebuild.member taskId row))
      (rebuild.goto (.adding rest last))
  /-- the command fails, and nothing notices -/
  | miss {entry : TaskId × Row} {rest : List (TaskId × Row)} {last : Bool}
    (phase : rebuild.phase = .adding (entry :: rest) last) (fault : fails = true) :
    RebuildMove order stores rebuild fails stores (rebuild.goto (.adding rest last))
  | goOn (phase : rebuild.phase = .adding [] false) :
    RebuildMove order stores rebuild fails stores (rebuild.goto .paging)
  | close (phase : rebuild.phase = .adding [] true) :
    RebuildMove order stores rebuild fails stores (rebuild.goto .marking)
  | mark (phase : rebuild.phase = .marking) :
    RebuildMove order stores rebuild fails { stores with sentinel := true } (rebuild.goto .ended)
  | giveUp (phase : rebuild.phase = .paging ∨ rebuild.phase = .marking) :
    RebuildMove order stores rebuild fails stores (rebuild.goto .ended)

/-- A step of a rebuild is one of the moves. -/
theorem Rebuild.step_moves {rebuild later : Rebuild} {fails : Bool}
    (taken : rebuild.step order stores fails = some (after, later)) :
    RebuildMove order stores rebuild fails after later := by
  unfold Rebuild.step at taken
  split at taken
  next _ phase =>
    obtain ⟨rfl, rfl⟩ := Prod.mk.inj (Option.some.inj taken)
    unfold Rebuild.turn
    split
    next empty => exact .nothing phase (List.getLast?_eq_none_iff.mp empty)
    next taskId row ends => exact .page phase ends
  next _ taskId row rest last phase =>
    obtain ⟨rfl, rfl⟩ := Prod.mk.inj (Option.some.inj taken)
    exact .add phase
  next _ entry rest last phase =>
    obtain ⟨rfl, rfl⟩ := Prod.mk.inj (Option.some.inj taken)
    exact .miss phase rfl
  next last phase =>
    obtain ⟨rfl, rfl⟩ := Prod.mk.inj (Option.some.inj taken)
    cases last
    · exact .goOn phase
    · exact .close phase
  next _ phase =>
    obtain ⟨rfl, rfl⟩ := Prod.mk.inj (Option.some.inj taken)
    exact .mark phase
  next _ phase =>
    obtain ⟨rfl, rfl⟩ := Prod.mk.inj (Option.some.inj taken)
    exact .giveUp (.inl phase)
  next _ phase =>
    obtain ⟨rfl, rfl⟩ := Prod.mk.inj (Option.some.inj taken)
    exact .giveUp (.inr phase)
  next => cases taken

/-- A step of an actor is a move of what it is doing. -/
inductive RoleMove (order : LinearOrder TaskId) (stores : Stores) :
    Role → Choice → Stores → Role → Prop where
  | park {park later : Park} {fails : Bool} {after : Stores}
    (move : ParkMove stores park after later) :
    RoleMove order stores (.park park) (.plain fails) after (.park later)
  | delivery {delivery later : Delivery} {choice : DeliveryChoice} {after : Stores}
    (move : DeliveryMove stores delivery choice after later) :
    RoleMove order stores (.delivery delivery) (.delivery choice) after (.delivery later)
  | queueing {queueing later : Queueing} {fails : Bool} {after : Stores}
    (move : QueueingMove stores queueing after later) :
    RoleMove order stores (.queueing queueing) (.plain fails) after (.queueing later)
  | poll {poll later : Poll} {choice : PollChoice} {after : Stores}
    (move : PollMove stores poll choice after later) :
    RoleMove order stores (.poll poll) (.poll choice) after (.poll later)
  | cancel {cancel later : Cancel} {fails : Bool} {after : Stores}
    (move : CancelMove stores cancel fails after later) :
    RoleMove order stores (.cancel cancel) (.plain fails) after (.cancel later)
  | rebuild {rebuild later : Rebuild} {fails : Bool} {after : Stores}
    (move : RebuildMove order stores rebuild fails after later) :
    RoleMove order stores (.rebuild rebuild) (.plain fails) after (.rebuild later)

/-- A step of what an actor is doing is one of its moves. -/
theorem Role.step_moves {role later : Role} {choice : Choice}
    (taken : role.step order me stores choice = some (after, later)) :
    RoleMove order stores role choice after later := by
  unfold Role.step at taken
  split at taken
  next =>
    obtain ⟨moved, stepped, same⟩ := Option.map_eq_some_iff.mp taken
    obtain ⟨rfl, rfl⟩ := Prod.mk.inj same
    exact .park (Park.step_moves stepped)
  next =>
    obtain ⟨moved, stepped, same⟩ := Option.map_eq_some_iff.mp taken
    obtain ⟨rfl, rfl⟩ := Prod.mk.inj same
    exact .delivery (Delivery.step_moves stepped)
  next =>
    obtain ⟨moved, stepped, same⟩ := Option.map_eq_some_iff.mp taken
    obtain ⟨rfl, rfl⟩ := Prod.mk.inj same
    exact .queueing (Queueing.step_moves stepped)
  next =>
    obtain ⟨moved, stepped, same⟩ := Option.map_eq_some_iff.mp taken
    obtain ⟨rfl, rfl⟩ := Prod.mk.inj same
    exact .poll (Poll.step_moves stepped)
  next =>
    obtain ⟨moved, stepped, same⟩ := Option.map_eq_some_iff.mp taken
    obtain ⟨rfl, rfl⟩ := Prod.mk.inj same
    exact .cancel (Cancel.step_moves stepped)
  next =>
    obtain ⟨moved, stepped, same⟩ := Option.map_eq_some_iff.mp taken
    obtain ⟨rfl, rfl⟩ := Prod.mk.inj same
    exact .rebuild (Rebuild.step_moves stepped)
  next => cases taken

/-- Only an actor of a living process moves, and it stays in its process. -/
theorem Agent.move_moves {agent later : Agent} {choice : Choice}
    (taken : agent.move order me stores choice = some (after, later)) :
    agent.process ∉ stores.dead ∧ later.process = agent.process ∧
      RoleMove order stores agent.role choice after later.role := by
  obtain ⟨alive, taken⟩ := Option.ite_none_left_eq_some.mp taken
  obtain ⟨moved, stepped, same⟩ := Option.map_eq_some_iff.mp taken
  obtain ⟨rfl, rfl⟩ := Prod.mk.inj same
  exact ⟨alive, rfl, Role.step_moves stepped⟩

/-- What an actor that has just been started is doing. -/
inductive Role.Starts (stores : Stores) : Role → Prop where
  | park {position : Nat} {source : Source} (present : stores.sources[position]? = some source) :
    Starts stores (.park { position, source })
  | delivery {position : Nat} {task : Dispatch}
    (present : stores.outbound[position]? = some task) :
    Starts stores (.delivery { position, task })
  | queueing {position : Nat} {scheduled : Scheduled}
    (present : stores.scheduled[position]? = some scheduled) :
    Starts stores (.queueing { position, scheduled })
  | poll : Starts stores (.poll {})
  | cancel {projectId : Nat} {taskId : TaskId} : Starts stores (.cancel { projectId, taskId })
  | rebuild {pageSize : Nat} : Starts stores (.rebuild { pageSize })

/-- What is to be shown of a step of the scheduler: about the move of an actor, about an actor
that is started, and about what happens outside. -/
theorem holds_step {invariant : Stores → Prop} {knows : Nat → Option Agent → Stores → Prop}
    {world next : World} {action : Action} (holds : Crowd.Holds invariant knows world)
    (taken : step order world action = some next)
    (acts : ∀ index choice, action = .act index choice → ∀ agent later shared,
      world.actors[index]? = some agent → agent.process ∉ world.shared.dead →
      later.process = agent.process →
      RoleMove order world.shared agent.role choice shared later.role →
        invariant shared ∧ knows index (some later) shared ∧
          ∀ other : Nat, other ≠ index → knows other world.actors[other]? world.shared →
            knows other world.actors[other]? shared)
    (starts : ∀ agent : Agent, agent.role.Starts world.shared →
      knows world.actors.length (some agent) world.shared)
    (outside : ∀ event, action = .outside event → invariant (outsideStep world.shared event) ∧
      ∀ other : Nat, knows other world.actors[other]? world.shared →
        knows other world.actors[other]? (outsideStep world.shared event)) :
    Crowd.Holds invariant knows next := by
  cases action with
  | act index choice =>
    obtain ⟨agent, shared, later, present, moved, rfl⟩ := Crowd.act_eq_some taken
    obtain ⟨alive, place, move⟩ := Agent.move_moves moved
    obtain ⟨kept, mine, others⟩ := acts index choice rfl agent later shared present alive place move
    exact holds.act present kept mine others
  | takeSource process position =>
    obtain ⟨source, present, taken⟩ := Option.bind_eq_some_iff.mp taken
    obtain ⟨_, same⟩ := Option.ite_none_right_eq_some.mp taken
    obtain rfl := Option.some.inj same
    exact holds.join fun _ => starts _ (.park present)
  | takeDispatch process position =>
    obtain ⟨task, present, taken⟩ := Option.bind_eq_some_iff.mp taken
    obtain ⟨_, same⟩ := Option.ite_none_right_eq_some.mp taken
    obtain rfl := Option.some.inj same
    exact holds.join fun _ => starts _ (.delivery present)
  | takeScheduled process position =>
    obtain ⟨scheduled, present, taken⟩ := Option.bind_eq_some_iff.mp taken
    obtain ⟨_, same⟩ := Option.ite_none_right_eq_some.mp taken
    obtain rfl := Option.some.inj same
    exact holds.join fun _ => starts _ (.queueing present)
  | startPoll process =>
    obtain ⟨_, same⟩ := Option.ite_none_right_eq_some.mp taken
    obtain rfl := Option.some.inj same
    exact holds.join fun _ => starts _ .poll
  | startCancel process projectId taskId =>
    obtain ⟨_, same⟩ := Option.ite_none_right_eq_some.mp taken
    obtain rfl := Option.some.inj same
    exact holds.join fun _ => starts _ .cancel
  | startRebuild process pageSize =>
    obtain ⟨_, same⟩ := Option.ite_none_right_eq_some.mp taken
    obtain rfl := Option.some.inj same
    exact holds.join fun _ => starts _ .rebuild
  | outside event =>
    obtain rfl := Option.some.inj taken
    obtain ⟨kept, others⟩ := outside event rfl
    exact holds.change kept others

end Notifkit.Scheduler
