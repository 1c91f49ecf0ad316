import Notifkit.Foundations.Runs
import Notifkit.Scheduler.Moves

/-!
# What a rebuild certifies

One rebuild runs while rows come and go, time passes, commands of its pipelines fail and
Redis loses its data. When the sentinel is there afterwards, each row that was there all
along should have its member.

The cursor carries the argument: a row the rebuild has come past is in its sorted set,
unless it is one of those the pipeline at hand has still to put in, and a page that is not
full leaves no row before it. Nothing looks at the results of a pipeline, though, and nothing
notices that data was lost before the sentinel is set; so the sentinel can be there while
members are missing. The runs in which that does not happen are the careful ones below.

The loop ends in any case, unless rows are inserted forever: each full page takes the
cursor past rows it had not come past before.
-/

namespace Notifkit.Scheduler

open Runs

/-- A rebuild at work. -/
structure Recovery where
  stores : Stores
  rebuild : Rebuild
  /-- ghost: the sorted sets as the rebuild found them, emptied when Redis loses its data -/
  before : ScoredSet (Nat × Member)
  /-- ghost: the rows that have been there all along -/
  lasting : KeyedRows TaskId Row
  /-- ghost: the tasks of the rows there were and of those written since -/
  known : List TaskId
  /-- ghost: how many steps the rebuild has taken -/
  taken : Nat := 0

/-- What can happen while a rebuild is at work. -/
inductive RecoveryAction where
  /-- a step of the rebuild, and whether its command fails -/
  | rebuild (fails : Bool)
  | insert (taskId : TaskId) (payload : Payload)
  | overwrite (taskId : TaskId) (payload : Payload)
  | delete (taskId : TaskId)
  | tick (ms : Nat)
  | wipe

namespace Recovery

/-- A rebuild begins, as the sentinel is missing. -/
def begin (stores : Stores) (pageSize : Nat) : Recovery where
  stores := { stores with sentinel := false }
  rebuild := { pageSize }
  before := stores.zset
  lasting := stores.scheduledPayloads
  known := stores.scheduledPayloads.keys

/-- One step. -/
def step (order : LinearOrder TaskId) (recovery : Recovery) : RecoveryAction → Option Recovery
  | .rebuild fails =>
    (recovery.rebuild.step order recovery.stores fails).map fun (stores, rebuild) =>
      { recovery with stores := stores, rebuild := rebuild, taken := recovery.taken + 1 }
  | .insert taskId payload =>
    some { recovery with
      stores := recovery.stores.insertPayload taskId payload
      known := taskId :: recovery.known }
  | .overwrite taskId payload =>
    some { recovery with
      stores := recovery.stores.upsertPayload taskId payload
      lasting := recovery.lasting.erase taskId
      known := taskId :: recovery.known }
  | .delete taskId =>
    some { recovery with
      stores := recovery.stores.deletePayloads fun other _ => other = taskId
      lasting := recovery.lasting.erase taskId }
  | .tick ms =>
    some { recovery with
      stores := { recovery.stores with clock := recovery.stores.clock + ms } }
  | .wipe => some { recovery with stores := recovery.stores.wipe, before := .empty }

/-- A row has its member, under its own send time or under the score the member had. A row
without a send time is due at once. -/
def Kept (recovery : Recovery) (taskId : TaskId) (row : Row) : Prop :=
  ∃ score, recovery.stores.zset.score (Rebuild.member taskId row).slot = some score ∧
    match recovery.before.score (Rebuild.member taskId row).slot with
    | some old => score = old
    | none => match row.payload.scheduledAt with
      | some scheduledAt => score = scheduledAt.ms
      | none => score ≤ recovery.stores.clock

/-- What a rebuild is for: where the sentinel is there, so are the members; and it ends, within
a number of steps that only the rows there are and come to be decide. -/
structure Sound (order : LinearOrder TaskId) (recovery : Recovery) : Prop where
  certified : recovery.stores.sentinel = true → ∀ taskId row,
    recovery.lasting.lookup taskId = some row → recovery.Kept taskId row
  bounded : recovery.taken ≤ 3 * recovery.known.length + 2
  onward : recovery.rebuild.phase = .ended ∨
    (recovery.step order (.rebuild false)).isSome = true

end Recovery

/-- The rows a rebuild has read and not yet put in. -/
def Rebuild.pending (rebuild : Rebuild) : List (TaskId × Row) :=
  match rebuild.phase with
  | .adding rest _ => rest
  | .paging | .marking | .ended => []

/-- A rebuild is done with the row of a task: it has come past it and put it in. -/
def Rebuild.done (order : LinearOrder TaskId) (rebuild : Rebuild) (taskId : TaskId) : Bool :=
  KeyedRows.passed order rebuild.after taskId && taskId ∉ rebuild.pending.map Prod.fst

/-- A rebuild reads no further page. -/
def Rebuild.through (rebuild : Rebuild) : Bool :=
  match rebuild.phase with
  | .paging => false
  | .adding _ last => last
  | .marking | .ended => true

/-- The steps at which nothing goes unnoticed: pages are not empty by their size, a command
that fails is for a row that is gone or a member that is there, and Redis loses its data
only while no row is there that the rebuild is done with, or after the rebuild. -/
def Recovery.careful (order : LinearOrder TaskId) (recovery : Recovery) : RecoveryAction → Bool
  | .rebuild fails =>
    match recovery.rebuild.phase, fails with
    | .paging, _ => 0 < recovery.rebuild.pageSize
    | .adding ((taskId, row) :: _) _, true =>
      recovery.stores.scheduledPayloads.lookup taskId ≠ some row ||
        (recovery.stores.zset.score (Rebuild.member taskId row).slot).isSome
    | _, _ => true
  | .wipe =>
    match recovery.rebuild.phase with
    | .ended => true
    | _ => recovery.stores.scheduledPayloads.entries.all fun entry =>
        !recovery.rebuild.done order entry.1
  | _ => true

/-- How many steps a rebuild has still to take if no row comes. -/
def Recovery.remaining (order : LinearOrder TaskId) (recovery : Recovery) : Nat :=
  match recovery.rebuild.phase with
  | .paging => 3 * KeyedRows.unpassed order recovery.rebuild.after recovery.known + 2
  | .adding rest true => rest.length + 2
  | .adding rest false =>
    rest.length + 3 + 3 * KeyedRows.unpassed order recovery.rebuild.after recovery.known
  | .marking => 1
  | .ended => 0

/-- The steps a rebuild has taken and has still to take are paid for by the known tasks. -/
structure Recovery.Bounded (order : LinearOrder TaskId) (recovery : Recovery) : Prop where
  known : ∀ taskId, recovery.stores.scheduledPayloads.lookup taskId ≠ none →
    taskId ∈ recovery.known
  steps : recovery.taken + recovery.remaining order ≤ 3 * recovery.known.length + 2

variable {order : LinearOrder TaskId} {recovery next : Recovery}

/-- A further task costs three steps at most. -/
theorem Recovery.remaining_known (taskId : TaskId) (stores : Stores)
    (lasting : KeyedRows TaskId Row) :
    { recovery with stores := stores, lasting := lasting, known := taskId :: recovery.known }.remaining
        order ≤ recovery.remaining order + 3 := by
  have one : KeyedRows.unpassed order recovery.rebuild.after (taskId :: recovery.known) ≤
      KeyedRows.unpassed order recovery.rebuild.after recovery.known + 1 := by
    unfold KeyedRows.unpassed
    rw [List.countP_cons]
    split <;> omega
  unfold Recovery.remaining
  dsimp only
  split <;> omega

theorem Stores.zaddNX_scheduledPayloads (stores : Stores) (score : Nat) (member : Member) :
    (stores.zaddNX score member).scheduledPayloads = stores.scheduledPayloads := by
  rcases stores.zaddNX_cases score member with is | is <;> rw [is]
  rfl

/-- A step of the rebuild takes one off what remains. -/
theorem Recovery.remaining_step {stores : Stores} {rebuild : Rebuild} {fails : Bool}
    (bounded : recovery.Bounded order)
    (move : RebuildMove order recovery.stores recovery.rebuild fails stores rebuild) :
    { recovery with stores := stores, rebuild := rebuild, taken := recovery.taken + 1 }.remaining
        order + 1 ≤ recovery.remaining order := by
  cases move with
  | @page last phase ends =>
    have fewer := KeyedRows.length_add_unpassed ends bounded.known
    have some : 0 < (recovery.stores.scheduledPayloads.page order recovery.rebuild.after
        recovery.rebuild.pageSize).length := List.length_pos_of_mem (List.mem_of_getLast? ends)
    simp only [remaining, phase]
    split
    next contradicted => cases contradicted
    next same =>
      obtain ⟨rfl, _⟩ := RebuildPhase.adding.inj same
      omega
    next same =>
      obtain ⟨rfl, _⟩ := RebuildPhase.adding.inj same
      omega
    next contradicted => cases contradicted
    next contradicted => cases contradicted
  | nothing phase =>
    simp only [remaining, phase, Rebuild.goto]
    omega
  | @add taskId row rest last phase =>
    cases last <;> simp only [remaining, phase, Rebuild.goto, List.length_cons] <;> omega
  | @miss entry rest last phase =>
    cases last <;> simp only [remaining, phase, Rebuild.goto, List.length_cons] <;> omega
  | goOn phase =>
    simp only [remaining, phase, Rebuild.goto, List.length_nil]
    omega
  | close phase =>
    simp only [remaining, phase, Rebuild.goto, List.length_nil]
    omega
  | mark phase => simp only [remaining, phase, Rebuild.goto]; omega
  | giveUp phase =>
    rcases phase with phase | phase <;> simp only [remaining, phase, Rebuild.goto] <;> omega

/-- Each step keeps the account. -/
theorem Recovery.Bounded.step {action : RecoveryAction} (bounded : recovery.Bounded order)
    (taken : recovery.step order action = some next) : next.Bounded order := by
  cases action with
  | rebuild fails =>
    obtain ⟨⟨stores, rebuild⟩, stepped, rfl⟩ := Option.map_eq_some_iff.mp taken
    have move := Rebuild.step_moves stepped
    have fewer := Recovery.remaining_step bounded move
    have steps := bounded.steps
    constructor
    · have same : stores.scheduledPayloads = recovery.stores.scheduledPayloads := by
        cases move with
        | add => exact Stores.zaddNX_scheduledPayloads _ _ _
        | _ => rfl
      intro taskId
      dsimp only
      rw [same]
      exact bounded.known taskId
    · dsimp only at fewer ⊢
      omega
  | insert taskId payload =>
    obtain rfl := Option.some.inj taken
    constructor
    · intro other present
      simp only [Stores.insertPayload, KeyedRows.lookup_insertNew] at present
      split at present
      next same => exact same ▸ List.mem_cons_self
      next => exact List.mem_cons_of_mem _ (bounded.known other present)
    · have steps := bounded.steps
      have more := @Recovery.remaining_known order recovery taskId
        (recovery.stores.insertPayload taskId payload) recovery.lasting
      rw [List.length_cons]
      dsimp only at more ⊢
      omega
  | overwrite taskId payload =>
    obtain rfl := Option.some.inj taken
    constructor
    · intro other present
      simp only [Stores.upsertPayload, KeyedRows.lookup_insert] at present
      split at present
      next same => exact same ▸ List.mem_cons_self
      next => exact List.mem_cons_of_mem _ (bounded.known other present)
    · have steps := bounded.steps
      have more := @Recovery.remaining_known order recovery taskId
        (recovery.stores.upsertPayload taskId payload) (recovery.lasting.erase taskId)
      rw [List.length_cons]
      dsimp only at more ⊢
      omega
  | delete taskId =>
    obtain rfl := Option.some.inj taken
    refine ⟨fun other present => bounded.known other fun absent => present ?_, bounded.steps⟩
    simp only [Stores.deletePayloads, KeyedRows.lookup_deleteWhere, absent, Option.filter_none]
  | tick ms =>
    obtain rfl := Option.some.inj taken
    exact ⟨bounded.known, bounded.steps⟩
  | wipe =>
    obtain rfl := Option.some.inj taken
    exact ⟨bounded.known, bounded.steps⟩

/-- At the beginning each row has its task. -/
theorem Recovery.bounded_begin (stores : Stores) (pageSize : Nat) :
    (Recovery.begin stores pageSize).Bounded order := by
  constructor
  · intro taskId present
    exact AList.mem_keys.mp (AList.lookup_isSome.mp (Option.isSome_iff_ne_none.mpr present))
  · have most : KeyedRows.unpassed order none stores.scheduledPayloads.keys ≤
        stores.scheduledPayloads.keys.length := List.countP_le_length
    simp only [begin, remaining]
    omega

/-- A rebuild has not ended, or it has set the sentinel and nothing was lost since. -/
def Recovery.Standing (recovery : Recovery) : Prop :=
  recovery.rebuild.phase = .ended → recovery.stores.sentinel = true

/-- What a rebuild knows at each point: the rows it is done with have their members, the
others' are as they were, and once it reads no further page it has come past every row. -/
structure Recovery.Certifies (order : LinearOrder TaskId) (recovery : Recovery) : Prop where
  lasting : ∀ taskId row, recovery.lasting.lookup taskId = some row →
    recovery.stores.scheduledPayloads.lookup taskId = some row
  marked : recovery.stores.sentinel = true → recovery.rebuild.phase = .ended
  untouched : recovery.rebuild.phase ≠ .ended → ∀ member : Member,
    recovery.rebuild.done order member.taskId = false →
      recovery.stores.zset.score member.slot = recovery.before.score member.slot
  covered : recovery.Standing → ∀ taskId row, recovery.lasting.lookup taskId = some row →
    recovery.rebuild.done order taskId = true → recovery.Kept taskId row
  through : recovery.Standing → recovery.rebuild.through = true →
    ∀ taskId row, recovery.lasting.lookup taskId = some row →
      KeyedRows.passed order recovery.rebuild.after taskId = true
  distinct : (recovery.rebuild.pending.map Prod.fst).Nodup
  passed : ∀ entry ∈ recovery.rebuild.pending,
    KeyedRows.passed order recovery.rebuild.after entry.1 = true
  read : ∀ entry ∈ recovery.rebuild.pending, ∀ row,
    recovery.lasting.lookup entry.1 = some row → entry.2 = row
  now : recovery.rebuild.now ≤ recovery.stores.clock

theorem Rebuild.done_iff {rebuild : Rebuild} {taskId : TaskId} :
    rebuild.done order taskId = true ↔ KeyedRows.passed order rebuild.after taskId = true ∧
      taskId ∉ rebuild.pending.map Prod.fst := by
  simp only [Rebuild.done, Bool.and_eq_true, decide_eq_true_eq]

/-- Nothing was done before the first page, and nothing pending is done. -/
theorem Rebuild.not_done_of_pending {rebuild : Rebuild} {entry : TaskId × Row}
    (pending : entry ∈ rebuild.pending) : rebuild.done order entry.1 = false := by
  rw [← Bool.not_eq_true, Rebuild.done_iff]
  intro ⟨_, isOver⟩
  exact isOver (List.mem_map_of_mem pending)

/-- A member stays as long as the sorted sets do. -/
theorem Recovery.Kept.of_same {taskId : TaskId} {row : Row} (kept : recovery.Kept taskId row)
    (zset : next.stores.zset = recovery.stores.zset) (before : next.before = recovery.before)
    (clock : recovery.stores.clock ≤ next.stores.clock) : next.Kept taskId row := by
  obtain ⟨score, found, same⟩ := kept
  refine ⟨score, zset ▸ found, ?_⟩
  rw [before]
  split at same
  next old => exact same
  next =>
    split at same
    next scheduledAt => exact same
    next => exact Nat.le_trans same clock

theorem Stores.zaddNX_score (stores : Stores) (score : Nat) (member : Member)
    (slot : Nat × Member) : (stores.zaddNX score member).zset.score slot =
      if slot = member.slot then some ((stores.zset.score member.slot).getD score)
      else stores.zset.score slot := by
  unfold Stores.zaddNX
  split
  next absent => simp [Stores.zadd, absent]
  next present =>
    obtain ⟨old, found⟩ := Option.ne_none_iff_exists'.mp present
    split
    next same => rw [same, found, Option.getD_some]
    next => rfl

theorem Stores.zaddNX_clock (stores : Stores) (score : Nat) (member : Member) :
    (stores.zaddNX score member).clock = stores.clock := by
  rcases stores.zaddNX_cases score member with is | is <;> rw [is]
  rfl

theorem Stores.zaddNX_sentinel (stores : Stores) (score : Nat) (member : Member) :
    (stores.zaddNX score member).sentinel = stores.sentinel := by
  rcases stores.zaddNX_cases score member with is | is <;> rw [is]
  rfl

/-- A rebuild that reads a page knows what it needs about it. -/
theorem Recovery.Certifies.page {last : TaskId × Row} (certifies : recovery.Certifies order)
    (phase : recovery.rebuild.phase = .paging)
    (ends : (recovery.stores.scheduledPayloads.page order recovery.rebuild.after
      recovery.rebuild.pageSize).getLast? = some last) :
    { recovery with
      taken := recovery.taken + 1
      rebuild := { recovery.rebuild with
        after := some last.1
        now := recovery.stores.clock
        phase := .adding (recovery.stores.scheduledPayloads.page order recovery.rebuild.after
            recovery.rebuild.pageSize)
          ((recovery.stores.scheduledPayloads.page order recovery.rebuild.after
            recovery.rebuild.pageSize).length < recovery.rebuild.pageSize) } }.Certifies order := by
  have standing : recovery.Standing := fun ended => nomatch phase.symm.trans ended
  have idle : recovery.rebuild.pending = [] := by simp only [Rebuild.pending, phase]
  constructor
  · exact certifies.lasting
  · intro marked
    exact nomatch phase.symm.trans (certifies.marked marked)
  · intro _ member waits
    refine certifies.untouched (by simp [phase]) member ?_
    rw [← Bool.not_eq_true, Rebuild.done_iff] at waits ⊢
    rintro ⟨before, _⟩
    refine waits ⟨KeyedRows.passed_next ends before, fun listed => ?_⟩
    obtain ⟨entry, on, same⟩ := List.mem_map.mp listed
    exact KeyedRows.not_passed_listed on (same ▸ before)
  · intro _ taskId row lasts done
    obtain ⟨now, off⟩ := Rebuild.done_iff.mp done
    rcases KeyedRows.listed_of_passed ends (certifies.lasting taskId row lasts) now with
      before | listed
    · have was := certifies.covered standing taskId row lasts
        (Rebuild.done_iff.mpr ⟨before, by simp [idle]⟩)
      exact was.of_same rfl rfl (Nat.le_refl _)
    · exact absurd (List.mem_map_of_mem listed) off
  · intro _ short taskId row lasts
    rcases KeyedRows.listed_of_short (of_decide_eq_true short)
        (certifies.lasting taskId row lasts) with before | listed
    · exact KeyedRows.passed_next ends before
    · exact KeyedRows.passed_listed ends listed
  · exact KeyedRows.page_distinct
  · intro entry listed
    exact KeyedRows.passed_listed ends listed
  · intro entry listed row lasts
    have found := (KeyedRows.mem_page listed).1
    exact Option.some.inj (found.symm.trans (certifies.lasting _ _ lasts))
  · exact Nat.le_refl _

/-- A rebuild that moves on to a phase without a pending row, or with the pending rows it had,
knows what it knew. -/
theorem Recovery.Certifies.goto {phase : RebuildPhase} (certifies : recovery.Certifies order)
    (running : recovery.rebuild.phase ≠ .ended)
    (pending : (recovery.rebuild.goto phase).pending = recovery.rebuild.pending)
    (through : (recovery.rebuild.goto phase).through = true → recovery.rebuild.through = true ∨
      ∀ taskId row, recovery.lasting.lookup taskId = some row →
        KeyedRows.passed order recovery.rebuild.after taskId = true) :
    { recovery with
      taken := recovery.taken + 1
      rebuild := recovery.rebuild.goto phase }.Certifies order := by
  have standing : recovery.Standing := fun ended => absurd ended running
  have done : ∀ taskId, (recovery.rebuild.goto phase).done order taskId =
      recovery.rebuild.done order taskId := by
    intro taskId
    rw [Rebuild.done, pending]
    rfl
  constructor
  · exact certifies.lasting
  · intro marked
    exact absurd (certifies.marked marked) running
  · intro _ member waits
    exact certifies.untouched running member (done _ ▸ waits)
  · intro _ taskId row lasts is
    exact (certifies.covered standing taskId row lasts (done _ ▸ is)).of_same rfl rfl
      (Nat.le_refl _)
  · intro _ ends
    rcases through ends with was | all
    · exact certifies.through standing was
    · exact all
  · exact pending ▸ certifies.distinct
  · exact pending ▸ certifies.passed
  · exact pending ▸ certifies.read
  · exact certifies.now

/-- A rebuild that has put in a row, or need not, goes on with the rest. -/
theorem Recovery.Certifies.added {stores : Stores} {taskId : TaskId} {row : Row}
    {rest : List (TaskId × Row)} {last : Bool} (certifies : recovery.Certifies order)
    (phase : recovery.rebuild.phase = .adding ((taskId, row) :: rest) last)
    (same : stores.scheduledPayloads = recovery.stores.scheduledPayloads)
    (clock : stores.clock = recovery.stores.clock)
    (sentinel : stores.sentinel = recovery.stores.sentinel)
    (others : ∀ slot, slot ≠ (Rebuild.member taskId row).slot →
      stores.zset.score slot = recovery.stores.zset.score slot)
    (own : recovery.lasting.lookup taskId = some row →
      { recovery with stores := stores }.Kept taskId row) :
    { recovery with
      stores := stores
      taken := recovery.taken + 1
      rebuild := recovery.rebuild.goto (.adding rest last) }.Certifies order := by
  have running : recovery.rebuild.phase ≠ .ended := by simp [phase]
  have standing : recovery.Standing := fun ended => absurd ended running
  have pending : recovery.rebuild.pending = (taskId, row) :: rest := by
    simp only [Rebuild.pending, phase]
  have distinct := certifies.distinct
  rw [pending, List.map_cons, List.nodup_cons] at distinct
  have waited : ∀ other, other ≠ taskId →
      ((recovery.rebuild.goto (.adding rest last)).done order other = true ↔
        recovery.rebuild.done order other = true) := by
    intro other apart
    rw [Rebuild.done_iff, Rebuild.done_iff, pending, List.map_cons, List.mem_cons, not_or]
    exact and_congr_right fun _ => ⟨fun off => ⟨apart, off⟩, And.right⟩
  have now : (recovery.rebuild.goto (.adding rest last)).done order taskId = true := by
    refine Rebuild.done_iff.mpr ⟨?_, distinct.1⟩
    exact certifies.passed (taskId, row) (pending ▸ List.mem_cons_self)
  constructor
  · rw [same]
    exact certifies.lasting
  · intro marked
    exact absurd (certifies.marked (sentinel ▸ marked)) running
  · intro _ member waits
    have apart : member.taskId ≠ taskId := by
      rintro rfl
      exact Bool.noConfusion (now.symm.trans waits)
    rw [others _ fun slot => apart (congrArg (fun slot : Nat × Member => slot.2.taskId) slot)]
    apply certifies.untouched running
    rw [← Bool.not_eq_true, ← waited _ apart]
    exact Bool.eq_false_iff.mp waits
  · intro _ other found lasts done
    by_cases apart : other = taskId
    · subst apart
      obtain rfl : row = found :=
        certifies.read (other, row) (pending ▸ List.mem_cons_self) found lasts
      exact (own lasts).of_same rfl rfl (Nat.le_refl _)
    · obtain ⟨score, kept, valued⟩ :=
        certifies.covered standing other found lasts ((waited other apart).mp done)
      refine ⟨score, ?_, ?_⟩
      · dsimp only
        rw [others _ fun slot => apart (congrArg (fun slot : Nat × Member => slot.2.taskId) slot)]
        exact kept
      · dsimp only
        rw [clock]
        exact valued
  · intro _ ends
    refine certifies.through standing ?_
    simp only [Rebuild.through, phase]
    exact ends
  · exact distinct.2
  · intro entry member
    exact certifies.passed entry (pending ▸ List.mem_cons_of_mem _ member)
  · intro entry member
    exact certifies.read entry (pending ▸ List.mem_cons_of_mem _ member)
  · dsimp only
    rw [clock]
    exact certifies.now

/-- A careful step of the rebuild keeps what it knows. -/
theorem Recovery.certifies_rebuild {stores : Stores} {rebuild : Rebuild} {fails : Bool}
    (certifies : recovery.Certifies order)
    (careful : recovery.careful order (.rebuild fails) = true)
    (move : RebuildMove order recovery.stores recovery.rebuild fails stores rebuild) :
    { recovery with stores := stores, rebuild := rebuild, taken := recovery.taken + 1 }.Certifies
      order := by
  cases move with
  | page phase ends => exact certifies.page phase ends
  | nothing phase empty =>
    apply certifies.goto (by simp [phase])
    · simp only [Rebuild.pending, Rebuild.goto, phase]
    · intro _
      right
      intro taskId row lasts
      have sized : 0 < recovery.rebuild.pageSize := by
        simpa [Recovery.careful, phase] using careful
      have short : (recovery.stores.scheduledPayloads.page order recovery.rebuild.after
          recovery.rebuild.pageSize).length < recovery.rebuild.pageSize := by simpa [empty] using sized
      rcases KeyedRows.listed_of_short short (certifies.lasting taskId row lasts) with
        before | listed
      · exact before
      · rw [empty] at listed
        cases listed
  | @add taskId row rest last phase =>
    have pending : (taskId, row) ∈ recovery.rebuild.pending := by simp [Rebuild.pending, phase]
    have waits : recovery.rebuild.done order (Rebuild.member taskId row).taskId = false :=
      Rebuild.not_done_of_pending pending
    have untouched := certifies.untouched (by simp [phase]) _ waits
    apply certifies.added phase (Stores.zaddNX_scheduledPayloads _ _ _)
      (Stores.zaddNX_clock _ _ _) (Stores.zaddNX_sentinel _ _ _)
    · intro slot apart
      rw [Stores.zaddNX_score, if_neg apart]
    · intro _
      refine ⟨_, by rw [Stores.zaddNX_score, if_pos rfl], ?_⟩
      rw [untouched]
      dsimp only
      split
      next old before => rw [before, Option.getD_some]
      next before =>
        rw [before, Option.getD_none, Stores.zaddNX_clock]
        unfold Rebuild.sendAt
        cases row.payload.scheduledAt with
        | some scheduledAt => rfl
        | none => exact certifies.now
  | @miss entry rest last phase fault =>
    obtain ⟨taskId, row⟩ := entry
    have pending : (taskId, row) ∈ recovery.rebuild.pending := by simp [Rebuild.pending, phase]
    have waits : recovery.rebuild.done order (Rebuild.member taskId row).taskId = false :=
      Rebuild.not_done_of_pending pending
    have untouched := certifies.untouched (by simp [phase]) _ waits
    apply certifies.added phase rfl rfl rfl fun _ _ => rfl
    intro lasts
    have present := certifies.lasting taskId row lasts
    have there : (recovery.stores.zset.score (Rebuild.member taskId row).slot).isSome = true := by
      simpa [Recovery.careful, phase, fault, present] using careful
    obtain ⟨score, found⟩ := Option.isSome_iff_exists.mp there
    refine ⟨score, found, ?_⟩
    dsimp only
    rw [← untouched, found]
  | goOn phase =>
    apply certifies.goto (by simp [phase])
    · simp only [Rebuild.pending, Rebuild.goto, phase]
    · intro ends
      simp [Rebuild.through, Rebuild.goto] at ends
  | close phase =>
    apply certifies.goto (by simp [phase])
    · simp only [Rebuild.pending, Rebuild.goto, phase]
    · intro _
      left
      simp only [Rebuild.through, phase]
  | mark phase =>
    have running : recovery.rebuild.phase ≠ .ended := by simp [phase]
    have standing : recovery.Standing := fun ended => absurd ended running
    have pending : recovery.rebuild.pending = [] := by simp only [Rebuild.pending, phase]
    have through : recovery.rebuild.through = true := by simp only [Rebuild.through, phase]
    have all := certifies.through standing through
    constructor
    · exact certifies.lasting
    · intro _
      rfl
    · intro on
      exact absurd rfl on
    · intro _ taskId row lasts _
      have done : recovery.rebuild.done order taskId = true :=
        Rebuild.done_iff.mpr ⟨all taskId row lasts, by simp [pending]⟩
      exact (certifies.covered standing taskId row lasts done).of_same rfl rfl (Nat.le_refl _)
    · intro _ _
      exact all
    · exact List.nodup_nil
    · exact nofun
    · exact nofun
    · exact certifies.now
  | giveUp phase =>
    have running : recovery.rebuild.phase ≠ .ended := by
      rcases phase with phase | phase <;> simp [phase]
    have unmarked : recovery.stores.sentinel ≠ true := fun marked =>
      running (certifies.marked marked)
    constructor
    · exact certifies.lasting
    · intro marked
      exact absurd marked unmarked
    · intro on
      exact absurd rfl on
    · intro standing
      exact absurd (standing rfl) unmarked
    · intro standing
      exact absurd (standing rfl) unmarked
    · exact List.nodup_nil
    · exact nofun
    · exact nofun
    · exact certifies.now

/-- A change of the rows that leaves the lasting ones keeps what the rebuild knows. -/
theorem Recovery.Certifies.changed {stores : Stores} {lasting : KeyedRows TaskId Row}
    {known : List TaskId} (certifies : recovery.Certifies order)
    (fewer : ∀ taskId row, lasting.lookup taskId = some row →
      recovery.lasting.lookup taskId = some row)
    (there : ∀ taskId row, lasting.lookup taskId = some row →
      stores.scheduledPayloads.lookup taskId = some row)
    (zset : stores.zset = recovery.stores.zset)
    (sentinel : stores.sentinel = recovery.stores.sentinel)
    (clock : recovery.stores.clock ≤ stores.clock) :
    { recovery with stores := stores, lasting := lasting, known := known }.Certifies order where
  lasting := there
  marked marked := certifies.marked (sentinel ▸ marked)
  untouched running member waits := zset ▸ certifies.untouched running member waits
  covered standing taskId row lasts done :=
    (certifies.covered (fun ended => sentinel ▸ standing ended) taskId row
      (fewer taskId row lasts) done).of_same zset rfl clock
  through standing ends taskId row lasts :=
    certifies.through (fun ended => sentinel ▸ standing ended) ends taskId row
      (fewer taskId row lasts)
  distinct := certifies.distinct
  passed := certifies.passed
  read entry member row lasts := certifies.read entry member row (fewer _ row lasts)
  now := Nat.le_trans certifies.now clock

/-- Redis may lose its data where the rebuild is not done with any row. -/
theorem Recovery.Certifies.wiped (certifies : recovery.Certifies order)
    (careful : recovery.careful order .wipe = true) :
    { recovery with stores := recovery.stores.wipe, before := .empty }.Certifies order := by
  have undone : recovery.rebuild.phase ≠ .ended → ∀ taskId row,
      recovery.lasting.lookup taskId = some row →
        recovery.rebuild.done order taskId = false := by
    intro running taskId row lasts
    have present := KeyedRows.lookup_eq_some.mp (certifies.lasting taskId row lasts)
    have all : recovery.stores.scheduledPayloads.entries.all
        (fun entry => !recovery.rebuild.done order entry.1) = true := by
      simpa only [Recovery.careful] using careful
    simpa using List.all_eq_true.mp all _ present
  constructor
  · exact certifies.lasting
  · intro marked
    cases marked
  · intro _ member _
    rfl
  · intro standing taskId row lasts done
    have running : recovery.rebuild.phase ≠ .ended := fun ended => nomatch standing ended
    exact Bool.noConfusion (done.symm.trans (undone running taskId row lasts))
  · intro standing ends
    have running : recovery.rebuild.phase ≠ .ended := fun ended => nomatch standing ended
    exact certifies.through (fun ended => absurd ended running) ends
  · exact certifies.distinct
  · exact certifies.passed
  · exact certifies.read
  · exact certifies.now

/-- A careful step keeps what the rebuild knows. -/
theorem Recovery.Certifies.step {action : RecoveryAction}
    (certifies : recovery.Certifies order) (careful : recovery.careful order action = true)
    (taken : recovery.step order action = some next) : next.Certifies order := by
  cases action with
  | rebuild fails =>
    obtain ⟨⟨stores, rebuild⟩, stepped, rfl⟩ := Option.map_eq_some_iff.mp taken
    exact Recovery.certifies_rebuild certifies careful (Rebuild.step_moves stepped)
  | insert taskId payload =>
    obtain rfl := Option.some.inj taken
    refine certifies.changed (fun _ _ lasts => lasts) ?_ rfl rfl (Nat.le_refl _)
    intro other row lasts
    have present := certifies.lasting other row lasts
    simp only [Stores.insertPayload, KeyedRows.lookup_insertNew]
    split
    next same => rw [← same, present, Option.getD_some]
    next => exact present
  | overwrite taskId payload =>
    obtain rfl := Option.some.inj taken
    have apart : ∀ other row, (recovery.lasting.erase taskId).lookup other = some row →
        other ≠ taskId := by
      rintro other row lasts rfl
      rw [AList.lookup_erase] at lasts
      cases lasts
    refine certifies.changed ?_ ?_ rfl rfl (Nat.le_refl _)
    · intro other row lasts
      rwa [AList.lookup_erase_ne (apart other row lasts)] at lasts
    · intro other row lasts
      simp only [Stores.upsertPayload, KeyedRows.lookup_insert, if_neg (apart other row lasts)]
      rw [AList.lookup_erase_ne (apart other row lasts)] at lasts
      exact certifies.lasting other row lasts
  | delete taskId =>
    obtain rfl := Option.some.inj taken
    have apart : ∀ other row, (recovery.lasting.erase taskId).lookup other = some row →
        other ≠ taskId := by
      rintro other row lasts rfl
      rw [AList.lookup_erase] at lasts
      cases lasts
    refine certifies.changed ?_ ?_ rfl rfl (Nat.le_refl _)
    · intro other row lasts
      rwa [AList.lookup_erase_ne (apart other row lasts)] at lasts
    · intro other row lasts
      have other' := apart other row lasts
      rw [AList.lookup_erase_ne other'] at lasts
      simp only [Stores.deletePayloads, KeyedRows.lookup_deleteWhere,
        certifies.lasting other row lasts]
      simp [other']
  | tick ms =>
    obtain rfl := Option.some.inj taken
    exact certifies.changed (fun _ _ lasts => lasts) certifies.lasting rfl rfl
      (Nat.le_add_right _ _)
  | wipe =>
    obtain rfl := Option.some.inj taken
    exact certifies.wiped careful

/-- At the beginning a rebuild is done with nothing. -/
theorem Recovery.certifies_begin (stores : Stores) (pageSize : Nat) :
    (Recovery.begin stores pageSize).Certifies order := by
  constructor
  · intro taskId row lasts
    exact lasts
  · intro marked
    cases marked
  · intro _ member _
    rfl
  · intro _ taskId row _ done
    cases (Rebuild.done_iff.mp done).1
  · intro _ through
    cases through
  · exact List.nodup_nil
  · exact nofun
  · exact nofun
  · exact Nat.zero_le _

/-- A rebuild that has not ended can take a step. -/
theorem Recovery.onward (recovery : Recovery) :
    recovery.rebuild.phase = .ended ∨ (recovery.step order (.rebuild false)).isSome = true := by
  unfold Recovery.step Rebuild.step
  rcases recovery.rebuild.phase with _ | ⟨_ | _, _⟩ | _ | _
  · exact .inr rfl
  · exact .inr rfl
  · exact .inr rfl
  · exact .inr rfl
  · exact .inl rfl

/-- In every run whose steps are careful a rebuild does what it is for. -/
theorem rebuild_is_sound (order : LinearOrder TaskId) (stores : Stores) (pageSize : Nat)
    (recovery : Recovery)
    (run : Reaches (Recovery.step order)
      (fun recovery action => recovery.careful order action = true)
      (Recovery.begin stores pageSize) recovery) : recovery.Sound order := by
  have bounded : recovery.Bounded order :=
    run.invariant (Recovery.bounded_begin stores pageSize)
      fun _ _ _ kept _ taken => kept.step taken
  have certifies : recovery.Certifies order :=
    run.invariant (Recovery.certifies_begin stores pageSize)
      fun _ _ _ kept careful taken => kept.step careful taken
  refine ⟨fun marked taskId row lasts => ?_, ?_, recovery.onward⟩
  · have ended := certifies.marked marked
    have standing : recovery.Standing := fun _ => marked
    have through : recovery.rebuild.through = true := by simp only [Rebuild.through, ended]
    apply certifies.covered standing taskId row lasts
    exact Rebuild.done_iff.mpr
      ⟨certifies.through standing through taskId row lasts, by simp [Rebuild.pending, ended]⟩
  · exact Nat.le_trans (Nat.le_add_right _ _) bounded.steps

/-- A row with a send time. -/
def dated : Row := ⟨⟨0, 7, some ⟨500, none⟩⟩, 0⟩

/-- A row without one. -/
def undated : Row := ⟨⟨0, 8, none⟩, 1⟩

/-- Two tasks are parked. -/
def twoParked : Stores where
  scheduledPayloads := AList.insert "b2".toList undated (AList.insert "a1".toList dated ∅)
  nextRow := 2

/-- Some steps of a rebuild without a failure. -/
def rebuilds (count : Nat) : List RecoveryAction := List.replicate count (.rebuild false)

/-- Where some steps lead, with pages of one row. -/
def recovered (actions : List RecoveryAction) : Recovery :=
  (perform (Recovery.step codePoints) (Recovery.begin twoParked 1) actions).getD
    (Recovery.begin twoParked 1)

/-- A row comes while the rebuild is at work; it ends with the sentinel set. -/
def undisturbed : List RecoveryAction :=
  rebuilds 2 ++ [RecoveryAction.insert "c3".toList ⟨0, 9, some ⟨800, none⟩⟩, .tick 5] ++ rebuilds 9

theorem rebuild_is_sound_run : (recovered undisturbed).stores.sentinel = true ∧
    (recovered undisturbed).lasting.lookup "a1".toList = some dated ∧
    (recovered undisturbed).Sound codePoints := by
  have run : Reaches (Recovery.step codePoints)
      (fun recovery action => recovery.careful codePoints action = true)
      (Recovery.begin twoParked 1) (recovered undisturbed) :=
    reaches_of_perform undisturbed (by decide +kernel) rfl
  exact ⟨by decide +kernel, by decide +kernel, rebuild_is_sound _ _ _ _ run⟩

/-- The command that would put the first row in fails. -/
def missedCommand : List RecoveryAction := rebuilds 1 ++ [RecoveryAction.rebuild true] ++ rebuilds 6

/-- Redis loses its data between the two pages. -/
def lostBetweenPages : List RecoveryAction := rebuilds 3 ++ [RecoveryAction.wipe] ++ rebuilds 5

/-- The sentinel is there, and the member of a row that was there all along is not. -/
structure Recovery.Misses (recovery : Recovery) : Prop where
  marked : recovery.stores.sentinel = true
  lasts : recovery.lasting.lookup "a1".toList = some dated
  absent : recovery.stores.zset.score (Rebuild.member "a1".toList dated).slot = none

/-- Such a rebuild was not sound. -/
theorem Recovery.Misses.unsound {recovery : Recovery} (misses : recovery.Misses) :
    ¬ recovery.Sound codePoints := by
  intro sound
  obtain ⟨score, found, _⟩ := sound.certified misses.marked _ _ misses.lasts
  exact nomatch misses.absent.symm.trans found

/-- The sentinel does not certify a row whose command failed, nor one that Redis lost before the
rebuild came to its end. -/
theorem sentinel_without_member :
    (Reaches (Recovery.step codePoints) anyStep (Recovery.begin twoParked 1)
        (recovered missedCommand) ∧
      (recovered missedCommand).Misses ∧ ¬ (recovered missedCommand).Sound codePoints) ∧
    Reaches (Recovery.step codePoints) anyStep (Recovery.begin twoParked 1)
        (recovered lostBetweenPages) ∧
      (recovered lostBetweenPages).Misses ∧
      ¬ (recovered lostBetweenPages).Sound codePoints := by
  have missed : (recovered missedCommand).Misses :=
    ⟨by decide +kernel, by decide +kernel, by decide +kernel⟩
  have lost : (recovered lostBetweenPages).Misses :=
    ⟨by decide +kernel, by decide +kernel, by decide +kernel⟩
  constructor
  · exact ⟨reaches_any missedCommand rfl, missed, missed.unsound⟩
  · exact ⟨reaches_any lostBetweenPages rfl, lost, lost.unsound⟩

end Notifkit.Scheduler
