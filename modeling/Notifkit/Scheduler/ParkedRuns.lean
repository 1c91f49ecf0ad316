import Notifkit.Foundations.Tables
import Notifkit.Scheduler.Parked

/-!
# What each call knows of the tasks it holds

A call that parks a task knows between its commands that the row stands and that what it
announced is carried on; a delivery and the scheduler worker know the same of the dispatch or
the message they are about. A poll that has read its rows knows that it is still to publish
the task of every member it holds, as long as the task is owed to where the member came
from. So nobody takes a member out that is still needed.
-/

namespace Notifkit.Scheduler

open Runs

variable {order : LinearOrder TaskId} {stores after : Stores} {me : Nat}

/-- What `scheduleOrDispatch` knows. -/
structure Park.Knows (stores : Stores) (park : Park) : Prop where
  source : stores.sources[park.position]? = some park.source
  announcing : ∀ scheduledAt, park.phase = .announcing scheduledAt →
    stores.Stands park.source.taskId none
  acking : park.phase = .acking → stores.Carrying park.source.taskId none

/-- What a delivery knows. -/
structure Delivery.Knows (stores : Stores) (delivery : Delivery) : Prop where
  task : stores.outbound[delivery.position]? = some delivery.task
  announcing : ∀ scheduledAt reason, delivery.phase = .announcing scheduledAt reason →
    stores.Stands delivery.task.taskId (some delivery.position)
  acking : delivery.phase = .acking →
    stores.Carrying delivery.task.taskId (some delivery.position)

/-- What the scheduler worker knows. -/
structure Queueing.Knows (stores : Stores) (queueing : Queueing) : Prop where
  scheduled : stores.scheduled[queueing.position]? = some queueing.scheduled
  acking : queueing.phase = .acking → stores.Holding queueing.scheduled

/-- A row was refused by the gate or published. -/
def Stores.Settled (stores : Stores) (poll : Poll) (taskId : TaskId) (row : Row) : Prop :=
  taskId ∈ poll.blocked ∧ row.id ∈ stores.refused ∨
    (∃ release ∈ stores.releases, release.row.id = row.id) ∧
      ∃ task ∈ stores.outbound, task.taskId = taskId ∧ row.id < task.since

/-- A poll has read its rows and not yet tried to delete them. -/
def Poll.holdsRows (poll : Poll) : Bool :=
  match poll.phase with
  | .gating | .publishing _ | .deleting => true
  | _ => false

/-- What a poll knows. -/
structure Poll.Knows (stores : Stores) (poll : Poll) : Prop where
  claimed : ∀ member ∈ poll.parsedTasks, stores.Stands member.taskId none
  read : poll.holdsRows = true → ∀ member ∈ poll.parsedTasks, ∀ row,
    poll.payloadMap member.taskId = some row →
      row.id < stores.nextRow ∧ stores.Accepted member.taskId
  owed : ∀ member ∈ poll.removing, ∀ home, home = none ∨ stores.Announced member home →
    stores.Owed member.taskId home → poll.pends member.taskId = true
  taken : ∀ member ∈ poll.removing, member ∈ poll.parsedTasks
  publishing : ∀ rest, poll.phase = .publishing rest → ∀ event ∈ rest,
    event.1 ∈ poll.parsedTasks ∧ poll.payloadMap event.1.taskId = some event.2
  settled : poll.holdsRows = true → poll.phase ≠ .gating → ∀ member ∈ poll.parsedTasks, ∀ row,
    poll.payloadMap member.taskId = some row →
      (∃ rest, poll.phase = .publishing rest ∧ ∃ event ∈ rest,
        event.1.taskId = member.taskId ∧ event.2 = row) ∨
      stores.Settled poll member.taskId row

/-- What a rebuild knows: the tasks of the rows on its page stand. -/
def Rebuild.Knows (stores : Stores) (rebuild : Rebuild) : Prop :=
  ∀ rest last, rebuild.phase = .adding rest last → ∀ entry ∈ rest, stores.Stands entry.1 none

/-- What an actor knows, by what it is doing. -/
def Role.Knows (stores : Stores) : Role → Prop
  | .park current => current.Knows stores
  | .delivery current => current.Knows stores
  | .queueing current => current.Knows stores
  | .poll current => current.Knows stores
  | .cancel _ => True
  | .rebuild current => current.Knows stores

/-- What an actor of a living process knows. -/
def Agent.Knows (_ : Nat) (agent : Option Agent) (stores : Stores) : Prop :=
  ∀ process role, agent = some ⟨process, role⟩ → process ∉ stores.dead → role.Knows stores

theorem Park.Knows.kept {park : Park} (knows : park.Knows stores) (keeps : stores.Keeps after) :
    park.Knows after :=
  ⟨keeps.grows.sources _ _ knows.source,
    fun scheduledAt phase => keeps.stands _ _ (knows.announcing scheduledAt phase),
    fun phase => keeps.carrying _ _ (knows.acking phase)⟩

theorem Delivery.Knows.kept {delivery : Delivery} (knows : delivery.Knows stores)
    (keeps : stores.Keeps after) : delivery.Knows after :=
  ⟨keeps.grows.outbound _ _ knows.task,
    fun scheduledAt reason phase => keeps.stands _ _ (knows.announcing scheduledAt reason phase),
    fun phase => keeps.carrying _ _ (knows.acking phase)⟩

theorem Queueing.Knows.kept {queueing : Queueing} (knows : queueing.Knows stores)
    (keeps : stores.Keeps after) : queueing.Knows after :=
  ⟨keeps.grows.scheduled _ _ knows.scheduled, fun phase => keeps.holding _ (knows.acking phase)⟩

theorem Rebuild.Knows.kept {rebuild : Rebuild} (knows : rebuild.Knows stores)
    (keeps : stores.Keeps after) : rebuild.Knows after :=
  fun rest last phase entry listed => keeps.stands _ _ (knows rest last phase entry listed)

theorem Stores.Settled.kept {poll : Poll} {taskId : TaskId} {row : Row}
    (settled : stores.Settled poll taskId row) (grows : stores.Grows after) :
    after.Settled poll taskId row := by
  rcases settled with ⟨blocked, refused⟩ | ⟨⟨release, listed, same⟩, task, sent, own, earlier⟩
  · exact .inl ⟨blocked, grows.refused _ refused⟩
  · obtain ⟨position, found⟩ := List.mem_iff_getElem?.mp sent
    exact .inr ⟨⟨release, grows.releases release listed, same⟩, task,
      List.mem_of_getElem? (grows.outbound position task found), own, earlier⟩

/-- Where a member came from is the position of a dispatch. -/
theorem Stores.Parked.valid (parked : stores.Parked) {member : Member} {home : Option Nat}
    (from' : home = none ∨ stores.Announced member home) : stores.Valid home := by
  rcases from' with rfl | ⟨message, listed, _, rfl⟩
  · exact nofun
  · exact (parked.messages message listed).valid

/-- A poll's knowledge is kept if no member it is to take out is announced anew for a task it
does not publish. -/
theorem Poll.Knows.kept {poll : Poll} (knows : poll.Knows stores) (parked : stores.Parked)
    (keeps : stores.Keeps after)
    (announced : ∀ member home, after.Announced member home →
      stores.Announced member home ∨ home = none ∨
        (member ∈ poll.removing → poll.pends member.taskId = true)) : poll.Knows after := by
  have grows := keeps.grows
  refine ⟨fun member listed => keeps.stands _ _ (knows.claimed member listed), ?_, ?_,
    knows.taken, knows.publishing, ?_⟩
  · intro holds member listed row found
    obtain ⟨written, accepted⟩ := knows.read holds member listed row found
    exact ⟨Nat.lt_of_lt_of_le written grows.nextRow, grows.accepted accepted⟩
  · intro member taken home from' owed
    have old : home = none ∨ stores.Announced member home →
        poll.pends member.taskId = true := fun from' =>
      knows.owed member taken home from' (grows.owed (parked.valid from') owed)
    rcases from' with none | now
    · exact old (.inl none)
    · rcases announced member home now with before | none | pends
      · exact old (.inr before)
      · exact old (.inl none)
      · exact pends taken
  · intro holds phase member listed row found
    exact (knows.settled holds phase member listed row found).imp_right
      fun settled => settled.kept grows

/-- What a move has to come to: it keeps what others rely on and adds what it may, and nothing
is announced for a dispatch. -/
structure Stores.Fair (stores after : Stores) : Prop where
  keeps : stores.Keeps after
  adds : stores.Adds after
  announced : ∀ member home, after.Announced member home →
    stores.Announced member home ∨ home = none

/-- A step that changes neither rows nor members nor messages. -/
theorem Stores.Fair.of_quiet (grows : stores.Grows after) (adds : stores.Adds after)
    (rows : after.scheduledPayloads = stores.scheduledPayloads) (zset : after.zset = stores.zset)
    (scheduled : after.scheduled = stores.scheduled)
    (done : after.scheduledDone = stores.scheduledDone) : stores.Fair after := by
  refine ⟨.of_more grows ?_ ?_ done, adds, ?_⟩
  · intro taskId row found
    exact ⟨row, by rwa [rows], Nat.le_refl _⟩
  · intro slot there
    rwa [zset]
  · rintro member home ⟨message, listed, same⟩
    exact .inl ⟨message, scheduled ▸ listed, same⟩

theorem Stores.Fair.refl (stores : Stores) : stores.Fair stores :=
  .of_quiet (.refl stores) (.refl stores) rfl rfl rfl rfl

/-- No message is announced for a dispatch that is still to come. -/
theorem Stores.Parked.unannounced (parked : stores.Parked) {member : Member} {position : Nat}
    (announced : stores.Announced member (some position)) :
    position < stores.outbound.length := by
  obtain ⟨message, listed, _, is⟩ := announced
  obtain ⟨task, found, _⟩ := parked.homes message listed position is
  exact (List.getElem?_eq_some_iff.mp found).1

/-- A new dispatch. -/
theorem Stores.fair_dispatch {taskId : TaskId} {payload : Payload}
    {releases : List Release} (accepted : stores.Accepted taskId)
    (more : ∀ release ∈ stores.releases, release ∈ releases) :
    stores.Fair { stores.dispatch taskId payload with releases := releases } := by
  refine .of_quiet { Stores.Grows.refl stores with
      outbound := fun position task found => Tables.row_append.mpr (.inl found)
      releases := more }
    { Stores.Adds.refl stores with
      outbound := fun position task found => ?_
      accounted := fun id gone => .inl gone } rfl rfl rfl rfl
  rcases Tables.row_append.mp found with old | ⟨same, rfl⟩
  · exact .inl old
  · exact .inr ⟨same, rfl, accepted⟩

/-- A poll that publishes a task knows what it needs afterwards. -/
theorem Poll.Knows.publish {poll : Poll} {rest : List (Member × Row)} {position : Nat}
    {member : Member} {row : Row} (knows : poll.Knows stores) (parked : stores.Parked)
    (phase : poll.phase = .publishing rest) (next : rest[position]? = some (member, row)) :
    (poll.goto (.publishing (rest.eraseIdx position))).Knows (poll.release stores member row) := by
  have holds : poll.holdsRows = true := by simp only [Poll.holdsRows, phase]
  obtain ⟨claimed, found⟩ := knows.publishing rest phase _ (List.mem_of_getElem? next)
  obtain ⟨written, accepted⟩ := knows.read holds member claimed row found
  have fair : stores.Fair (poll.release stores member row) :=
    Stores.fair_dispatch accepted fun _ listed => List.mem_cons_of_mem _ listed
  have grows := fair.keeps.grows
  have stays : ∀ event ∈ rest, event.1.taskId ≠ member.taskId → event ∈ rest.eraseIdx position := by
    intro event listed apart
    obtain ⟨other, there⟩ := List.mem_iff_getElem?.mp listed
    refine List.mem_eraseIdx_iff_getElem?.mpr ⟨other, ?_, there⟩
    rintro rfl
    obtain rfl := Option.some.inj (there.symm.trans next)
    exact apart rfl
  refine ⟨fun other listed => fair.keeps.stands _ _ (knows.claimed other listed), ?_, ?_, ?_, ?_,
    ?_⟩
  · intro _ other listed row' found'
    obtain ⟨earlier, accepted'⟩ := knows.read holds other listed row' found'
    exact ⟨Nat.lt_of_lt_of_le earlier grows.nextRow, grows.accepted accepted'⟩
  · intro other taken home from' owed
    have taken' : other ∈ poll.removing := by
      simp only [Poll.removing, phase]
      exact taken
    have before : home = none ∨ stores.Announced other home := by
      rcases from' with none | now
      · exact .inl none
      · exact (fair.announced other home now).symm
    by_cases same : other.taskId = member.taskId
    · -- the task is owed to the new dispatch now, and nothing was announced for it yet
      have sent : (poll.release stores member row).outbound[stores.outbound.length]? =
          some ⟨member.taskId, row.payload, stores.nextRow⟩ :=
        Tables.row_append.mpr (.inr ⟨rfl, rfl⟩)
      obtain ⟨last, is, late⟩ := owed.latest _ _ sent same.symm
      rcases before with rfl | announced
      · cases is
      · obtain rfl := Option.mem_def.mp is
        exact absurd (parked.unannounced announced) (Nat.not_lt_of_le late)
    · have pends := knows.owed other taken' home before (grows.owed (parked.valid before) owed)
      simp only [Poll.pends, phase, Poll.goto, Bool.or_eq_true] at pends ⊢
      refine pends.imp_left fun listed => ?_
      obtain ⟨event, there, is⟩ := List.any_eq_true.mp listed
      have is' : event.1.taskId = other.taskId := of_decide_eq_true is
      exact List.any_eq_true.mpr ⟨event, stays event there fun task => same (is'.symm.trans task), is⟩
  · intro other taken
    apply knows.taken other
    simp only [Poll.removing, phase]
    exact taken
  · rintro _ ⟨⟩ event listed
    exact knows.publishing rest phase event (List.mem_of_mem_eraseIdx listed)
  · intro _ _ other listed row' found'
    rcases knows.settled holds (by simp [phase]) other listed row' found' with
      ⟨rest', phase', event, there, is, rfl⟩ | settled
    · obtain rfl := PollPhase.publishing.inj (phase.symm.trans phase')
      by_cases same : event = (member, row)
      · subst same
        refine .inr (.inr ⟨⟨_, List.mem_cons_self, rfl⟩, _,
          List.mem_append_right _ List.mem_cons_self, is, written⟩)
      · refine .inl ⟨_, rfl, event, ?_, is, rfl⟩
        obtain ⟨index, at'⟩ := List.mem_iff_getElem?.mp there
        refine List.mem_eraseIdx_iff_getElem?.mpr ⟨index, ?_, at'⟩
        rintro rfl
        exact same (Option.some.inj (at'.symm.trans next))
    · exact .inr (settled.kept grows)

/-- A phase in which a poll holds nothing it has read. -/
def PollPhase.light : PollPhase → Prop
  | .locking | .starting | .claiming _ | .reading | .unlocking | .ended => True
  | .gating | .publishing _ | .deleting | .cleaning _ => False

/-- Such a poll knows only of the members it has claimed. -/
theorem Poll.Knows.of_light {poll : Poll} (light : poll.phase.light)
    (claimed : ∀ member ∈ poll.parsedTasks, stores.Stands member.taskId none) :
    poll.Knows stores := by
  have removing : poll.removing = [] := by
    unfold Poll.removing
    cases phase : poll.phase <;> simp_all [PollPhase.light]
  have holds : poll.holdsRows = false := by
    unfold Poll.holdsRows
    cases phase : poll.phase <;> simp_all [PollPhase.light]
  refine ⟨claimed, ?_, ?_, ?_, ?_, ?_⟩
  · intro reads
    exact nomatch holds.symm.trans reads
  · intro member taken
    rw [removing] at taken
    cases taken
  · intro member taken
    rw [removing] at taken
    cases taken
  · intro rest phase
    rw [phase] at light
    exact light.elim
  · intro reads
    exact nomatch holds.symm.trans reads

/-- A poll that has just read its rows finds one for every task that is owed. -/
theorem Poll.Knows.readRows {poll : Poll} (knows : poll.Knows stores) (parked : stores.Parked) :
    { poll with
      payloadMap := fun taskId => stores.scheduledPayloads.lookup taskId
      phase := .gating }.Knows stores := by
  refine ⟨knows.claimed, ?_, ?_, fun _ listed => listed, nofun, fun _ not => absurd rfl not⟩
  · intro _ member _ row found
    exact parked.written _ row found
  · intro member taken home from' owed
    have stands : stores.Stands member.taskId home := by
      rcases from' with rfl | ⟨message, listed, rfl, rfl⟩
      · exact knows.claimed member taken
      · exact parked.messages message listed
    obtain ⟨row, found, _⟩ := stands.row owed
    simp only [Poll.pends, found, Option.isSome_some]

/-- Every task the poll has read a row of is published or dropped. -/
theorem Poll.batchedEvents_complete {payloadMap : TaskId → Option Row} {blocked released : List TaskId}
    {members : List Member} {member : Member} {row : Row} (listed : member ∈ members)
    (found : payloadMap member.taskId = some row) (allowed : member.taskId ∉ blocked)
    (fresh : member.taskId ∉ released) :
    ∃ event ∈ batchedEvents payloadMap blocked released members,
      event.1.taskId = member.taskId := by
  induction members generalizing released with
  | nil => cases listed
  | cons head rest inductionHypothesis =>
    by_cases same : head.taskId = member.taskId
    · refine ⟨(head, row), ?_, same⟩
      unfold batchedEvents
      rw [same, if_neg fresh, found]
      dsimp only
      rw [if_neg allowed]
      exact List.mem_cons_self
    · have later : member ∈ rest := by
        rcases List.mem_cons.mp listed with rfl | later
        · exact absurd rfl same
        · exact later
      have goesOn : ∀ released, member.taskId ∉ released →
          ∃ event ∈ batchedEvents payloadMap blocked released rest,
            event.1.taskId = member.taskId := fun _ => inductionHypothesis later
      have more : member.taskId ∉ head.taskId :: released := by
        rw [List.mem_cons, not_or]
        exact ⟨Ne.symm same, fresh⟩
      unfold batchedEvents
      split
      next => exact goesOn released fresh
      next =>
        split
        next => exact goesOn released fresh
        next =>
          split
          next => exact goesOn _ more
          next =>
            obtain ⟨event, there, is⟩ := goesOn _ more
            exact ⟨event, List.mem_cons_of_mem _ there, is⟩

theorem Poll.mem_dropped {poll : Poll} {member : Member} {row : Row}
    (listed : member ∈ poll.parsedTasks) (found : poll.payloadMap member.taskId = some row)
    (blocked : member.taskId ∈ poll.blocked) : member.taskId ∈ poll.dropped := by
  apply List.mem_filter.mpr
  exact ⟨List.mem_map_of_mem listed, by simp [blocked, found]⟩

/-- A poll that has asked the gate publishes what it may and has noted the rest. -/
theorem Poll.Knows.gate {poll : Poll} (knows : poll.Knows stores) (parked : stores.Parked)
    (phase : poll.phase = .gating) (blocked : List TaskId) :
    { poll with
      blocked := blocked
      phase := .publishing (batchedEvents poll.payloadMap blocked [] poll.parsedTasks) }.Knows
      { stores with refused := poll.refusals blocked ++ stores.refused } := by
  have holds : poll.holdsRows = true := by simp only [Poll.holdsRows, phase]
  have removing : poll.removing = poll.parsedTasks := by simp only [Poll.removing, phase]
  have fair : stores.Fair { stores with refused := poll.refusals blocked ++ stores.refused } :=
    .of_quiet { Stores.Grows.refl stores with
        refused := fun _ was => List.mem_append_right _ was }
      { Stores.Adds.refl stores with accounted := fun _ gone => .inl gone } rfl rfl rfl rfl
  refine ⟨fun member listed => fair.keeps.stands _ _ (knows.claimed member listed),
    fun _ => knows.read holds, ?_, fun _ listed => listed, ?_, ?_⟩
  · intro member taken home from' owed
    have before : home = none ∨ stores.Announced member home :=
      from'.imp_right fun now => now
    have pends := knows.owed member (removing ▸ taken) home before
      (fair.keeps.grows.owed (parked.valid before) owed)
    simp only [Poll.pends, phase] at pends
    obtain ⟨row, found⟩ := Option.isSome_iff_exists.mp pends
    simp only [Poll.pends, Bool.or_eq_true, decide_eq_true_eq]
    by_cases refused : member.taskId ∈ blocked
    · exact .inr (Poll.mem_dropped taken found refused)
    · obtain ⟨event, there, same⟩ :=
        Poll.batchedEvents_complete taken found refused List.not_mem_nil
      exact .inl (List.any_eq_true.mpr ⟨event, there, decide_eq_true same⟩)
  · rintro _ ⟨⟩ event listed
    exact Poll.mem_batchedEvents listed
  · intro _ _ member listed row found
    by_cases refused : member.taskId ∈ blocked
    · refine .inr (.inl ⟨refused, List.mem_append_left _ ?_⟩)
      apply List.mem_filterMap.mpr
      exact ⟨member, listed, by rw [if_pos refused, found]; rfl⟩
    · obtain ⟨event, there, same⟩ :=
        Poll.batchedEvents_complete listed found refused List.not_mem_nil
      have read := (Poll.mem_batchedEvents there).2
      rw [same, found] at read
      exact .inl ⟨_, rfl, event, there, same, (Option.some.inj read).symm⟩

/-- A poll that has published everything knows what it may delete. -/
theorem Poll.Knows.published {poll : Poll} (knows : poll.Knows stores)
    (phase : poll.phase = .publishing []) : (poll.goto .deleting).Knows stores := by
  have holds : poll.holdsRows = true := by simp only [Poll.holdsRows, phase]
  have removing : poll.removing = poll.parsedTasks := by simp only [Poll.removing, phase]
  refine ⟨knows.claimed, fun _ => knows.read holds, ?_, fun _ listed => listed, nofun, ?_⟩
  · intro member taken home from' owed
    have pends := knows.owed member (removing ▸ taken) home from' owed
    simp only [Poll.pends, phase, List.any_nil, Bool.false_or] at pends
    exact pends
  · intro _ _ member listed row found
    rcases knows.settled holds (by simp [phase]) member listed row found with
      ⟨rest, is, event, there, _⟩ | settled
    · obtain rfl := PollPhase.publishing.inj (phase.symm.trans is)
      cases there
    · exact .inr settled

/-- A poll that is done with its rows takes out only members that nobody needs. -/
theorem Poll.Knows.cleaning {poll : Poll} {rest : List Member}
    (claimed : ∀ member ∈ poll.parsedTasks, stores.Stands member.taskId none)
    (taken : ∀ member ∈ rest, member ∈ poll.parsedTasks)
    (unowed : ∀ member ∈ rest, ∀ home, home = none ∨ stores.Announced member home →
      ¬ stores.Owed member.taskId home) : (poll.goto (.cleaning rest)).Knows stores := by
  refine ⟨claimed, nofun, ?_, taken, nofun, nofun⟩
  intro member listed home from' owed
  exact absurd owed (unowed member listed home from')

/-- What a poll dropped has come to its end, and what it published is owed elsewhere. -/
theorem Poll.Knows.unowed {poll : Poll} (knows : poll.Knows stores) (parked : stores.Parked)
    (phase : poll.phase = .deleting) (grows : stores.Grows after)
    (same : after.scheduled = stores.scheduled) (ended : ∀ taskId ∈ poll.dropped, taskId ∈ after.ended) :
    ∀ member ∈ poll.parsedTasks, ∀ home, home = none ∨ after.Announced member home →
      ¬ after.Owed member.taskId home := by
  intro member listed home from' owed
  have before : home = none ∨ stores.Announced member home := by
    rcases from' with none | ⟨message, there, is⟩
    · exact .inl none
    · exact .inr ⟨message, same ▸ there, is⟩
  have pends := knows.owed member (by simpa only [Poll.removing, phase]) home before
    (grows.owed (parked.valid before) owed)
  simp only [Poll.pends, phase, decide_eq_true_eq] at pends
  exact owed.unended (ended _ pends)

/-- The row a poll deletes was refused or released, if it is the one the poll has read. -/
theorem Poll.Knows.deletes {poll : Poll} (knows : poll.Knows stores)
    (phase : poll.phase = .deleting) (own : poll.deletesOwn stores = true) {taskId : TaskId}
    {row : Row} (found : stores.scheduledPayloads.lookup taskId = some row)
    (cleanup : poll.cleanup taskId row = true) :
    taskId ∈ poll.parsedTasks.map Member.taskId ∧
      (taskId ∈ poll.dropped ∧ row.id ∈ stores.refused ∨
        (∃ release ∈ stores.releases, release.row.id = row.id) ∧
          ∃ task ∈ stores.outbound, task.taskId = taskId ∧ row.id < task.since) := by
  have entry := List.all_eq_true.mp own _ (KeyedRows.lookup_eq_some.mp found)
  simp only [cleanup, Bool.not_true, Bool.false_or] at entry
  obtain ⟨read, found', is⟩ := (Option.any_eq_true _ _).mp entry
  have is' : read.id = row.id := of_decide_eq_true is
  have listed : taskId ∈ poll.parsedTasks.map Member.taskId := by
    unfold Poll.cleanup at cleanup
    exact of_decide_eq_true (Bool.and_eq_true_iff.mp cleanup).1
  obtain ⟨member, claimed, rfl⟩ := List.mem_map.mp listed
  refine ⟨listed, ?_⟩
  rcases knows.settled (by simp only [Poll.holdsRows, phase]) (by simp [phase]) member claimed read
      found' with ⟨_, not, _⟩ | settled
  · exact nomatch phase.symm.trans not
  · rw [← is']
    exact settled.imp_left fun ⟨blocked, refused⟩ =>
      ⟨Poll.mem_dropped claimed found' blocked, refused⟩

/-- A poll's delete is fair if it deletes the rows the poll has read. -/
theorem Poll.Knows.fair_delete {poll : Poll} (knows : poll.Knows stores) (parked : stores.Parked)
    (phase : poll.phase = .deleting) (own : poll.deletesOwn stores = true) :
    stores.Fair { stores.deletePayloads poll.cleanup with ended := poll.dropped ++ stores.ended } := by
  have grows : stores.Grows
      { stores.deletePayloads poll.cleanup with ended := poll.dropped ++ stores.ended } :=
    { Stores.Grows.refl stores with ended := fun _ was => List.mem_append_right _ was }
  refine ⟨.of grows ?_ (fun _ _ _ there => there) (fun _ _ _ _ waits => .inl waits),
    { Stores.Adds.refl stores with rows := ?_, accounted := ?_ }, ?_⟩
  · intro taskId home row valid owed found since
    refine ⟨row, Stores.lookup_deletePayloads.mpr ⟨found, ?_⟩, since⟩
    rw [← Bool.not_eq_true]
    intro cleanup
    obtain ⟨_, ⟨dropped, _⟩ | ⟨_, task, sent, is, earlier⟩⟩ :=
      knows.deletes phase own found cleanup
    · exact owed.unended (List.mem_append_left _ dropped)
    · -- a later dispatch than the one the row was written after
      obtain ⟨position, there⟩ := List.mem_iff_getElem?.mp sent
      obtain ⟨last, same, late⟩ := owed.latest position task there is
      obtain rfl := Option.mem_def.mp same
      have old := List.getElem?_eq_getElem (valid last rfl)
      have ordered := parked.ordered position last task _ late there old
      simp only [Stores.since, Option.bind_some, old, Option.map_some, Option.getD_some] at since
      omega
  · intro taskId row found
    exact .inl (Stores.lookup_deletePayloads.mp found).1
  · intro id gone
    rcases List.mem_append.mp gone with now | before
    · obtain ⟨entry, listed, rfl⟩ := List.mem_map.mp now
      obtain ⟨there, cleanup⟩ := List.mem_filter.mp listed
      have found := KeyedRows.lookup_eq_some.mpr there
      right
      rcases (knows.deletes phase own found cleanup).2 with ⟨_, refused⟩ | ⟨released, _⟩
      · exact .inr (.inl refused)
      · exact .inl released
    · exact .inl before
  · intro member home announced
    exact .inl announced

/-- Taking a member out is fair if nobody needs it. -/
theorem Stores.fair_zrem {member : Member}
    (unowed : ∀ home, stores.Announced member home → ¬ stores.Owed member.taskId home) :
    stores.Fair (stores.zrem member) := by
  refine ⟨.of { Stores.Grows.refl stores with } ?_ ?_ fun _ _ _ _ waits => .inl waits,
    { Stores.Adds.refl stores with members := ?_, accounted := fun _ gone => .inl gone },
    fun _ _ announced => .inl announced⟩
  · intro taskId home row _ _ found since
    exact ⟨row, found, since⟩
  · intro message listed owed there
    simp only [Stores.zrem, ScoredSet.zrem_score]
    rw [if_neg]
    · exact there
    · intro same
      have own : message.member = member := congrArg Prod.snd same
      have owed' : stores.Owed message.member.taskId message.home :=
        ⟨owed.own, owed.latest, owed.unended⟩
      rw [own] at owed'
      exact unowed message.home ⟨message, listed, own, rfl⟩ owed'
  · intro shard other there
    simp only [Stores.zrem, ScoredSet.zrem_score] at there
    split at there
    · exact absurd rfl there
    · exact .inl there

/-- A claim changes scores, and every member it gets is one of the sorted set. -/
theorem Stores.fair_rescore {shard now : Nat} {members : List Member}
    (due : ∀ member ∈ members, ∃ score ∈ stores.zset.score (shard, member), score ≤ now) :
    stores.Fair { stores with
      zset := stores.zset.rescore (members.map fun member => (shard, member))
        (now + visibilityTimeout) } := by
  refine ⟨.of_more { Stores.Grows.refl stores with } ?_ ?_ rfl,
    { Stores.Adds.refl stores with members := ?_, accounted := fun _ gone => .inl gone },
    fun _ _ announced => .inl announced⟩
  · intro taskId row found
    exact ⟨row, found, Nat.le_refl _⟩
  · intro slot there
    simp only [ScoredSet.rescore_score]
    split
    · exact Option.some_ne_none _
    · exact there
  · intro shard' member there
    simp only [ScoredSet.rescore_score] at there
    split at there
    next listed =>
      obtain ⟨other, claimed, same⟩ := List.mem_map.mp listed
      obtain ⟨score, found, _⟩ := due other claimed
      rw [← same]
      exact .inl (by simp [Option.mem_def.mp found])
    next => exact .inl there

/-- A move of a poll is fair, if it deletes only rows it has read. -/
theorem PollMove.fair {poll later : Poll} {choice : PollChoice}
    (move : PollMove stores poll choice after later) (parked : stores.Parked)
    (knows : poll.Knows stores)
    (own : choice = .proceed → poll.phase = .deleting → poll.deletesOwn stores = true) :
    stores.Fair after ∧ later.Knows after := by
  have claimed : stores.Fair after → ∀ member ∈ poll.parsedTasks, after.Stands member.taskId none :=
    fun fair member listed => fair.keeps.stands _ _ (knows.claimed member listed)
  cases move with
  | @turn pollLock phase outer =>
    have fair : stores.Fair { stores with pollLock := pollLock } :=
      .of_quiet { Stores.Grows.refl stores with }
        { Stores.Adds.refl stores with accounted := fun _ gone => .inl gone } rfl rfl rfl rfl
    refine ⟨fair, .of_light ?_ (claimed fair)⟩
    rcases outer with ⟨_, rfl⟩ | rfl <;> trivial
  | start => exact ⟨.refl stores, .of_light trivial (claimed (.refl stores))⟩
  | @claim shard members phase was due goes =>
    have fair := Stores.fair_rescore due
    refine ⟨fair, .of_light ?_ ?_⟩
    · rcases goes with ⟨_, rfl⟩ | rfl | rfl <;> trivial
    · intro member listed
      rcases List.mem_append.mp listed with old | new
      · exact claimed fair member old
      · obtain ⟨score, found, _⟩ := due member new
        exact fair.keeps.stands _ _
          (parked.members shard member (by simp [Option.mem_def.mp found]))
  | read => exact ⟨.refl stores, knows.readRows parked⟩
  | @gate blocked phase =>
    refine ⟨.of_quiet { Stores.Grows.refl stores with
        refused := fun _ was => List.mem_append_right _ was }
      { Stores.Adds.refl stores with accounted := fun _ gone => .inl gone } rfl rfl rfl rfl, ?_⟩
    exact knows.gate parked phase blocked
  | @publish rest position member row phase next =>
    refine ⟨Stores.fair_dispatch ?_ fun _ listed => List.mem_cons_of_mem _ listed,
      knows.publish parked phase next⟩
    obtain ⟨listed, found⟩ := knows.publishing rest phase _ (List.mem_of_getElem? next)
    exact (knows.read (by simp only [Poll.holdsRows, phase]) member listed row found).2
  | published phase => exact ⟨.refl stores, knows.published phase⟩
  | delete chosen phase =>
    have fair := knows.fair_delete parked phase (own chosen phase)
    refine ⟨fair, .cleaning (claimed fair) (fun _ listed => listed) ?_⟩
    exact knows.unowed parked phase fair.keeps.grows rfl
      fun _ dropped => List.mem_append_left _ dropped
  | pass phase =>
    have fair : stores.Fair { stores with ended := poll.dropped ++ stores.ended } :=
      .of_quiet { Stores.Grows.refl stores with
          ended := fun _ was => List.mem_append_right _ was }
        { Stores.Adds.refl stores with accounted := fun _ gone => .inl gone } rfl rfl rfl rfl
    refine ⟨fair, .cleaning (claimed fair) (fun _ listed => listed) ?_⟩
    exact knows.unowed parked phase fair.keeps.grows rfl
      fun _ dropped => List.mem_append_left _ dropped
  | @remove member rest phase =>
    have removing : poll.removing = member :: rest := by simp only [Poll.removing, phase]
    have unowed : ∀ other ∈ member :: rest, ∀ home, home = none ∨ stores.Announced other home →
        ¬ stores.Owed other.taskId home := by
      intro other listed home from' owed
      have pends := knows.owed other (removing ▸ listed) home from' owed
      simp only [Poll.pends, phase] at pends
      cases pends
    have fair : stores.Fair (stores.zrem member) :=
      Stores.fair_zrem fun home announced => unowed member List.mem_cons_self home (.inr announced)
    refine ⟨fair, .cleaning (claimed fair) ?_ ?_⟩
    · intro other listed
      exact knows.taken other (removing ▸ List.mem_cons_of_mem _ listed)
    · intro other listed home from' owed
      exact unowed other (List.mem_cons_of_mem _ listed) home from'
        ⟨owed.own, owed.latest, owed.unended⟩
  | @leave member rest phase =>
    have removing : poll.removing = member :: rest := by simp only [Poll.removing, phase]
    refine ⟨.refl stores, .cleaning (claimed (.refl stores)) ?_ ?_⟩
    · intro other listed
      exact knows.taken other (removing ▸ List.mem_cons_of_mem _ listed)
    · intro other listed home from' owed
      have pends := knows.owed other (removing ▸ List.mem_cons_of_mem _ listed) home from' owed
      simp only [Poll.pends, phase] at pends
      cases pends
  | unlock => exact ⟨.refl stores, .of_light trivial (claimed (.refl stores))⟩

/-- A message that is announced for a task that stands carries it on. -/
theorem Stores.Parked.announce (parked : stores.Parked) {message : Scheduled}
    (home : ∀ position ∈ message.home,
      ∃ task, stores.outbound[position]? = some task ∧ task.taskId = message.taskId)
    (stands : stores.Stands message.taskId message.home) :
    stores.Keeps (stores.announce message) ∧ stores.Adds (stores.announce message) ∧
      (stores.announce message).Carrying message.taskId message.home := by
  refine ⟨.of_more { Stores.Grows.refl stores with
      scheduled := fun position other found => Tables.row_append.mpr (.inl found) }
      (fun taskId row found => ⟨row, found, Nat.le_refl _⟩) (fun _ there => there) rfl,
    { Stores.Adds.refl stores with
      scheduled := ?_, accounted := fun _ gone => .inl gone }, ?_⟩
  · intro other listed
    rcases List.mem_append.mp listed with old | new
    · exact .inl old
    · obtain rfl := List.mem_singleton.mp new
      exact .inr ⟨home, stands⟩
  · refine ⟨stands.valid, fun _ => ?_⟩
    refine ⟨stores.scheduled.length, message, Tables.row_append.mpr (.inr ⟨rfl, rfl⟩), rfl, rfl, ?_⟩
    exact .inl fun done => Nat.lt_irrefl _ (parked.counted _ done)

/-- What was announced before, and the new message. -/
theorem Stores.announced_announce {message : Scheduled} {member : Member} {home : Option Nat}
    (announced : (stores.announce message).Announced member home) :
    stores.Announced member home ∨ member = message.member ∧ home = message.home := by
  obtain ⟨other, listed, rfl, rfl⟩ := announced
  rcases List.mem_append.mp listed with old | new
  · exact .inl ⟨other, old, rfl, rfl⟩
  · obtain rfl := List.mem_singleton.mp new
    exact .inr ⟨rfl, rfl⟩

/-- A row is written only where there is none, so everything stands. -/
theorem Stores.fair_insertPayload {taskId : TaskId} {payload : Payload}
    (accepted : stores.Accepted taskId) : stores.Fair (stores.insertPayload taskId payload) := by
  refine ⟨.of_more { Stores.Grows.refl stores with nextRow := Nat.le_succ _ } ?_
      (fun _ there => there) rfl,
    { Stores.Adds.refl stores with rows := ?_, accounted := fun _ gone => .inl gone },
    fun _ _ announced => .inl announced⟩
  · intro other row found
    refine ⟨row, ?_, Nat.le_refl _⟩
    simp only [Stores.insertPayload, KeyedRows.lookup_insertNew]
    split
    next same => rw [← same, found, Option.getD_some]
    next => exact found
  · intro other row found
    rcases Stores.lookup_insertPayload found with old | ⟨rfl, rfl⟩
    · exact .inl old
    · exact .inr ⟨Nat.lt_succ_self _, accepted⟩

/-- A row that is written over was written earlier, so everything stands. -/
theorem Stores.Parked.fair_upsertPayload (parked : stores.Parked) {taskId : TaskId}
    {payload : Payload} (accepted : stores.Accepted taskId) :
    stores.Fair (stores.upsertPayload taskId payload) := by
  refine ⟨.of_more { Stores.Grows.refl stores with nextRow := Nat.le_succ _ } ?_
      (fun _ there => there) rfl,
    { Stores.Adds.refl stores with rows := ?_, accounted := fun _ gone => .inl gone },
    fun _ _ announced => .inl announced⟩
  · intro other row found
    by_cases same : other = taskId
    · refine ⟨⟨payload, stores.nextRow⟩, ?_, Nat.le_of_lt (parked.written other row found).1⟩
      simp only [Stores.upsertPayload, KeyedRows.lookup_insert, if_pos same]
    · refine ⟨row, ?_, Nat.le_refl _⟩
      simp only [Stores.upsertPayload, KeyedRows.lookup_insert, if_neg same]
      exact found
  · intro other row found
    rcases Stores.lookup_upsertPayload found with old | ⟨rfl, rfl⟩
    · exact .inl old
    · exact .inr ⟨Nat.lt_succ_self _, accepted⟩

/-- A move of `scheduleOrDispatch` is fair. -/
theorem ParkMove.fair {park later : Park} (move : ParkMove stores park after later)
    (parked : stores.Parked) (knows : park.Knows stores) :
    stores.Fair after ∧ later.Knows after := by
  have accepted : stores.Accepted park.source.taskId :=
    ⟨park.source, List.mem_of_getElem? knows.source, rfl⟩
  cases move with
  | fail =>
    exact ⟨.refl stores, knows.source, (fun _ other => by cases other),
      fun other => by cases other⟩
  | later =>
    exact ⟨.refl stores, knows.source, (fun _ other => by cases other),
      fun other => by cases other⟩
  | due =>
    exact ⟨.refl stores, knows.source, (fun _ other => by cases other),
      fun other => by cases other⟩
  | @insert scheduledAt phase =>
    refine ⟨Stores.fair_insertPayload accepted, knows.source, ?_, fun other => by cases other⟩
    refine fun _ _ => ⟨(fun _ other => by cases other), fun _ => ?_⟩
    refine ⟨(stores.scheduledPayloads.lookup park.source.taskId).getD
      ⟨park.payload (some scheduledAt), stores.nextRow⟩, ?_, Nat.zero_le _⟩
    simp only [Stores.insertPayload, KeyedRows.lookup_insertNew]
    exact if_pos rfl
  | @announce scheduledAt phase =>
    have stands := knows.announcing scheduledAt phase
    obtain ⟨keeps, adds, carrying⟩ :=
      @Stores.Parked.announce _ parked (park.message scheduledAt)
        (fun _ other => by cases other) stands
    refine ⟨⟨keeps, adds, fun member home announced => ?_⟩, knows.source,
      (fun _ other => by cases other), fun _ => carrying⟩
    exact (Stores.announced_announce announced).imp_right And.right
  | dispatch =>
    refine ⟨Stores.fair_dispatch accepted fun _ listed => listed, knows.source,
      (fun _ other => by cases other), fun _ => ?_⟩
    refine ⟨(fun _ other => by cases other), fun owed => ?_⟩
    -- the task is owed to the new dispatch, not to its first parking
    obtain ⟨_, none, _⟩ := owed.latest stores.outbound.length _
      (Tables.row_append.mpr (.inr ⟨rfl, rfl⟩)) rfl
    cases none
  | ack phase =>
    refine ⟨.of_quiet { Stores.Grows.refl stores with } { Stores.Adds.refl stores with
      parked := ?_, accounted := fun _ gone => .inl gone } rfl rfl rfl rfl, knows.source,
      (fun _ other => by cases other), fun other => by cases other⟩
    intro position done
    rcases List.mem_cons.mp done with rfl | old
    · exact .inr ⟨park.source, knows.source, knows.acking phase⟩
    · exact .inl old

/-- What a move of a delivery keeps and adds; it may announce a member for its dispatch. -/
theorem DeliveryMove.fair {delivery later : Delivery} {choice : DeliveryChoice}
    (move : DeliveryMove stores delivery choice after later) (parked : stores.Parked)
    (knows : delivery.Knows stores) :
    stores.Keeps after ∧ stores.Adds after ∧ later.Knows after ∧
      ∀ member home, after.Announced member home → stores.Announced member home ∨ home = none ∨
        ∃ scheduledAt reason, choice = .proceed ∧
          delivery.phase = .announcing scheduledAt reason ∧
          member = (delivery.message scheduledAt reason stores.clock).member := by
  have accepted : stores.Accepted delivery.task.taskId :=
    parked.tasks _ (List.mem_of_getElem? knows.task)
  have inside := (List.getElem?_eq_some_iff.mp knows.task).1
  have valid : stores.Valid (some delivery.position) := by
    rintro _ ⟨⟩
    exact inside
  have fairly : ∀ {after : Stores} {later : Delivery}, stores.Fair after → later.Knows after →
      stores.Keeps after ∧ stores.Adds after ∧ later.Knows after ∧
        ∀ member home, after.Announced member home → stores.Announced member home ∨ home = none ∨
          ∃ scheduledAt reason, choice = .proceed ∧
          delivery.phase = .announcing scheduledAt reason ∧
            member = (delivery.message scheduledAt reason stores.clock).member :=
    fun fair knows => ⟨fair.keeps, fair.adds, knows, fun member home announced =>
      (fair.announced member home announced).imp_right .inl⟩
  cases move with
  | fail => exact fairly (.refl stores) ⟨knows.task, nofun, nofun⟩
  | wait => exact fairly (.refl stores) ⟨knows.task, nofun, nofun⟩
  | settle =>
    refine fairly (.of_quiet { Stores.Grows.refl stores with
        ended := fun _ was => List.mem_cons_of_mem _ was }
      { Stores.Adds.refl stores with accounted := fun _ gone => .inl gone } rfl rfl rfl rfl)
      ⟨knows.task, nofun, fun _ => ⟨valid, fun owed => ?_⟩⟩
    exact absurd List.mem_cons_self owed.unended
  | @store scheduledAt reason phase =>
    refine fairly (parked.fair_upsertPayload accepted) ⟨knows.task, fun _ _ _ => ⟨valid, fun _ => ?_⟩,
      nofun⟩
    refine ⟨⟨delivery.payload scheduledAt, stores.nextRow⟩, ?_, ?_⟩
    · simp only [Stores.upsertPayload, KeyedRows.lookup_insert]
      exact if_pos rfl
    · have since : stores.since (some delivery.position) = delivery.task.since := by
        simp only [Stores.since, Option.bind_some, knows.task, Option.map_some, Option.getD_some]
      have before := parked.before _ (List.mem_of_getElem? knows.task)
      exact since ▸ before
  | @announce scheduledAt reason chosen phase =>
    have stands := knows.announcing scheduledAt reason phase
    have home : ∀ position ∈ (delivery.message scheduledAt reason stores.clock).home,
        ∃ task, stores.outbound[position]? = some task ∧ task.taskId = delivery.task.taskId := by
      rintro _ ⟨⟩
      exact ⟨_, knows.task, rfl⟩
    obtain ⟨keeps, adds, carrying⟩ := parked.announce home stands
    refine ⟨keeps, adds, ⟨knows.task, nofun, fun _ => carrying⟩, fun member home announced => ?_⟩
    rcases Stores.announced_announce announced with old | ⟨new, _⟩
    · exact .inl old
    · exact .inr (.inr ⟨scheduledAt, reason, chosen, phase, new⟩)
  | ack phase =>
    refine fairly (.of_quiet { Stores.Grows.refl stores with } { Stores.Adds.refl stores with
      delivered := ?_, accounted := fun _ gone => .inl gone } rfl rfl rfl rfl)
      ⟨knows.task, nofun, nofun⟩
    intro position done
    rcases List.mem_cons.mp done with rfl | old
    · exact .inr ⟨delivery.task, knows.task, knows.acking phase⟩
    · exact .inl old

/-- A member is put in for a message whose task stands. -/
theorem Stores.fair_zadd {score : Nat} {member : Member}
    (stands : stores.Stands member.taskId none) : stores.Fair (stores.zadd score member) := by
  refine ⟨.of_more { Stores.Grows.refl stores with } ?_ ?_ rfl,
    { Stores.Adds.refl stores with members := ?_, accounted := fun _ gone => .inl gone },
    fun _ _ announced => .inl announced⟩
  · intro taskId row found
    exact ⟨row, found, Nat.le_refl _⟩
  · intro slot there
    simp only [Stores.zadd, ScoredSet.zadd_score]
    split
    · exact Option.some_ne_none _
    · exact there
  · intro shard other there
    simp only [Stores.zadd, ScoredSet.zadd_score] at there
    split at there
    next same =>
      obtain rfl : other = member := congrArg Prod.snd same
      exact .inr stands
    next => exact .inl there

/-- A move of the scheduler worker's `process` is fair. -/
theorem QueueingMove.fair {queueing later : Queueing}
    (move : QueueingMove stores queueing after later) (parked : stores.Parked)
    (knows : queueing.Knows stores) : stores.Fair after ∧ later.Knows after := by
  have listed := List.mem_of_getElem? knows.scheduled
  have stands := parked.messages _ listed
  cases move with
  | fail => exact ⟨.refl stores, knows.scheduled, nofun⟩
  | add phase =>
    have unparked : stores.Stands queueing.scheduled.taskId none := by
      refine ⟨nofun, fun owed => ?_⟩
      cases home : queueing.scheduled.home with
      | none => exact home ▸ stands.row (home ▸ owed)
      | some position =>
        -- the task was dispatched, so it is not owed to its first parking
        obtain ⟨task, found, same⟩ := parked.homes _ listed position home
        obtain ⟨last, is, _⟩ := owed.latest position task found same
        cases is
    refine ⟨Stores.fair_zadd unparked, knows.scheduled, fun _ => ?_⟩
    refine ⟨stands.valid, listed, fun _ => ?_⟩
    simp only [Queueing.goto, Stores.zadd, ScoredSet.zadd_score]
    exact Option.some_ne_none _
  | ack phase =>
    have holding := knows.acking phase
    refine ⟨⟨.of { Stores.Grows.refl stores with } ?_ (fun _ _ _ there => there) ?_,
      { Stores.Adds.refl stores with counted := ?_, accounted := fun _ gone => .inl gone },
      fun _ _ announced => .inl announced⟩, knows.scheduled, nofun⟩
    · intro taskId home row _ _ found since
      exact ⟨row, found, since⟩
    · intro position message found owed waits
      by_cases same : position = queueing.position
      · subst same
        obtain rfl := Option.some.inj (knows.scheduled.symm.trans found)
        exact .inr (holding.there ⟨owed.own, owed.latest, owed.unended⟩)
      · refine .inl fun done => ?_
        rcases List.mem_cons.mp done with now | before
        · exact same now
        · exact waits before
    · intro position done
      rcases List.mem_cons.mp done with rfl | before
      · exact .inr (List.getElem?_eq_some_iff.mp knows.scheduled).1
      · exact .inl before

/-- A move of `cancelNotification` is fair: it deletes the row of a task it ends. -/
theorem CancelMove.fair {cancel later : Cancel} {fails : Bool}
    (move : CancelMove stores cancel fails after later) : stores.Fair after := by
  cases move with
  | quiet => exact .refl stores
  | @delete row works phase found =>
    refine ⟨.of { Stores.Grows.refl stores with ended := fun _ was => List.mem_cons_of_mem _ was }
        ?_ (fun _ _ _ there => there) (fun _ _ _ _ waits => .inl waits),
      { Stores.Adds.refl stores with
        rows := ?_, accounted := ?_, canceled := fun _ was => List.mem_cons_of_mem _ was },
      fun _ _ announced => .inl announced⟩
    · intro taskId home row' _ owed found' since
      refine ⟨row', Stores.lookup_deletePayloads.mpr ⟨found', ?_⟩, since⟩
      apply decide_eq_false
      rintro rfl
      exact owed.unended List.mem_cons_self
    · intro taskId row' found'
      exact .inl (Stores.lookup_deletePayloads.mp found').1
    · intro id gone
      rcases List.mem_append.mp gone with now | before
      · obtain ⟨entry, listed, rfl⟩ := List.mem_map.mp now
        obtain ⟨there, same⟩ := List.mem_filter.mp listed
        have own : entry.1 = cancel.taskId := of_decide_eq_true same
        have is := KeyedRows.lookup_eq_some.mpr there
        rw [own, found] at is
        obtain rfl := Option.some.inj is
        exact .inr (.inr (.inr List.mem_cons_self))
      · exact .inl before

/-- A move of a rebuild is fair. -/
theorem RebuildMove.fair {rebuild later : Rebuild} {fails : Bool}
    (move : RebuildMove order stores rebuild fails after later) (knows : rebuild.Knows stores) :
    stores.Fair after ∧ later.Knows after := by
  cases move with
  | page =>
    refine ⟨.refl stores, ?_⟩
    rintro rest last ⟨⟩ ⟨taskId, row⟩ listed
    refine ⟨nofun, fun _ => ⟨row, ?_, Nat.zero_le _⟩⟩
    exact KeyedRows.mem_page listed |>.1
  | nothing => exact ⟨.refl stores, nofun⟩
  | @add taskId row rest last phase =>
    have stands := knows _ _ phase (taskId, row) List.mem_cons_self
    have fair : stores.Fair (stores.zaddNX (rebuild.sendAt row) (Rebuild.member taskId row)) := by
      rcases stores.zaddNX_cases (rebuild.sendAt row) (Rebuild.member taskId row) with is | is
      · rw [is]
        exact Stores.fair_zadd stands
      · rw [is]
        exact .refl stores
    refine ⟨fair, ?_⟩
    rintro rest' last' ⟨⟩ entry listed
    exact fair.keeps.stands _ _ (knows _ _ phase entry (List.mem_cons_of_mem _ listed))
  | miss phase =>
    refine ⟨.refl stores, ?_⟩
    rintro rest' last' ⟨⟩ entry listed
    exact knows _ _ phase entry (List.mem_cons_of_mem _ listed)
  | goOn => exact ⟨.refl stores, nofun⟩
  | close => exact ⟨.refl stores, nofun⟩
  | mark =>
    refine ⟨.of_quiet { Stores.Grows.refl stores with }
      { Stores.Adds.refl stores with accounted := fun _ gone => .inl gone } rfl rfl rfl rfl, nofun⟩
  | giveUp => exact ⟨.refl stores, nofun⟩

end Notifkit.Scheduler
