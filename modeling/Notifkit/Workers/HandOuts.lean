import Mathlib.Data.List.Perm.Subperm
import Notifkit.Foundations.Runs
import Notifkit.Foundations.Tables
import Notifkit.Queue.StreamGroup

/-!
# How often an entry is handed out

An entry is handed to a worker by its first read and by every claim after that.
The message of a read counts one delivery. The message of a claim counts one more
than the entry had when the scanner listed it, and the claim comes some time after
the listing: other scanners may have claimed the entry meanwhile.

Workers may lose a message before they begin it, and everything when they crash.
Touches and acknowledgements may come at any time, whoever sends them. The lists
of what was handed out, processed and dead-lettered are kept for the record.
-/

namespace Notifkit.Workers.HandOuts

open Runs Queue

/-- A message as a worker has it. -/
structure Message where
  id : Nat
  deliveryCount : Nat
deriving DecidableEq

/-- A worker: the entries its scanner has listed to claim, and the messages it has not begun. -/
structure Worker where
  listed : List PendingEntry := []
  inbox : List Message := []
deriving DecidableEq

/-- The stream with its group, the workers, and the record. -/
structure State where
  now : Nat := 0
  appended : Nat := 0
  unread : Nat := 0
  pending : List PendingEntry := []
  workers : List Worker
  handedOut : List Message := []
  processed : List Message := []
  deadLettered : List Message := []
deriving DecidableEq

/-- Some workers, and nothing appended yet. -/
def start (workers : Nat) : State where
  workers := List.replicate workers {}

/-- `XCLAIM` grants an entry that is pending and idle for the least time. -/
def granted (pending : List PendingEntry) (now id : Nat) : Bool :=
  pending.any fun entry => entry.id = id && recoveryIntervalMs ≤ now - entry.lastRead

/-- The claim of the entries listed: the pending list after it, and its messages. -/
def claimEach (now : Nat) :
    List PendingEntry → List PendingEntry → List PendingEntry × List Message
  | pending, [] => (pending, [])
  | pending, entry :: rest =>
    if granted pending now entry.id then
      let after := claimEach now (claim pending entry.id now) rest
      (after.1, ⟨entry.id, entry.deliveryCount + 1⟩ :: after.2)
    else claimEach now pending rest

/-- What can happen next. -/
inductive Action where
  | tick (ms : Nat)
  | xadd
  | read (worker : Nat)
  | list (worker wanted : Nat)
  | claim (worker : Nat)
  | begin (worker place : Nat)
  | drop (worker place : Nat)
  | touch (id : Nat)
  | ack (id : Nat)
  | crash (worker : Nat)
deriving DecidableEq

/-- The first read of the next entry. -/
def read (s : State) (place : Nat) : Option State :=
  match s.workers[place]? with
  | none => none
  | some worker =>
    if s.unread < s.appended then
      some { s with
        unread := s.unread + 1
        pending := deliver s.pending s.unread s.now
        workers := s.workers.set place { worker with inbox := worker.inbox ++ [⟨s.unread, 1⟩] }
        handedOut := s.handedOut ++ [⟨s.unread, 1⟩] }
    else none

/-- A scanner lists: the first entries, of these the ones idle long enough, as many as it wants. -/
def list (s : State) (place wanted : Nat) : Option State :=
  match s.workers[place]? with
  | none => none
  | some worker =>
    let listed := ((s.pending.take (BATCH_SIZE * 2)).filter fun entry => entry.claimable s.now).take
      wanted
    some { s with workers := s.workers.set place { worker with listed := listed } }

/-- A scanner claims what it has listed. -/
def claimListed (s : State) (place : Nat) : Option State :=
  match s.workers[place]? with
  | none => none
  | some worker =>
    let after := claimEach s.now s.pending worker.listed
    some { s with
      pending := after.1
      workers := s.workers.set place ⟨[], worker.inbox ++ after.2⟩
      handedOut := s.handedOut ++ after.2 }

/-- A worker takes up a message: past the retries it is dead-lettered, else it is processed. -/
def begin (maxRetriesBeforeDlq : Nat) (s : State) (place message : Nat) : Option State :=
  match s.workers[place]? with
  | none => none
  | some worker =>
    match worker.inbox[message]? with
    | none => none
    | some taken =>
      let workers := s.workers.set place { worker with inbox := worker.inbox.eraseIdx message }
      if maxRetriesBeforeDlq < taken.deliveryCount then
        some { s with workers := workers, deadLettered := s.deadLettered ++ [taken] }
      else some { s with workers := workers, processed := s.processed ++ [taken] }

/-- A worker loses a message. -/
def drop (s : State) (place message : Nat) : Option State :=
  match s.workers[place]? with
  | none => none
  | some worker =>
    some { s with
      workers := s.workers.set place { worker with inbox := worker.inbox.eraseIdx message } }

/-- A worker loses all it has. -/
def crash (s : State) (place : Nat) : Option State :=
  match s.workers[place]? with
  | none => none
  | some _ => some { s with workers := s.workers.set place {} }

/-- One step of the whole. -/
def step (maxRetriesBeforeDlq : Nat) (s : State) : Action → Option State
  | .tick ms => some { s with now := s.now + ms }
  | .xadd => some { s with appended := s.appended + 1 }
  | .read worker => read s worker
  | .list worker wanted => list s worker wanted
  | .claim worker => claimListed s worker
  | .begin worker place => begin maxRetriesBeforeDlq s worker place
  | .drop worker place => drop s worker place
  | .touch id => some { s with pending := Queue.touch s.pending id s.now }
  | .ack id => some { s with pending := Queue.ack s.pending id }
  | .crash worker => crash s worker

/-- How often an entry is among some messages. -/
def timesOf (messages : List Message) (id : Nat) : Nat :=
  messages.countP fun message => message.id = id

/-- No message counts less than its entry was handed out, its own time included. -/
def NeverUnderstates (s : State) : Prop :=
  ∀ place message, s.handedOut[place]? = some message →
    timesOf (s.handedOut.take (place + 1)) message.id ≤ message.deliveryCount

/-- No entry is processed more often than the retries allow. -/
def Bounded (maxRetriesBeforeDlq : Nat) (s : State) : Prop :=
  ∀ id, timesOf s.processed id ≤ maxRetriesBeforeDlq

/-- Three scanners list an entry that was read once. They claim it one after the other, each after
the entry was idle long enough again, and each takes its claim for the second delivery. -/
def lateClaims : List Action :=
  [.xadd, .read 0, .begin 0 0, .tick 60001, .list 0 1, .list 1 1, .list 2 1, .claim 0, .begin 0 0,
    .tick 60001, .claim 1, .begin 1 0, .tick 60001, .claim 2, .begin 2 0]

/-- So the entry is processed four times where three are allowed. -/
theorem processed_again :
    ¬ ∀ (maxRetriesBeforeDlq workers : Nat) (s : State),
      Reaches (step maxRetriesBeforeDlq) anyStep (start workers) s →
        Bounded maxRetriesBeforeDlq s ∧ NeverUnderstates s := by
  intro claimed
  have run : Reaches (step 3) anyStep (start 3)
      ((perform (step 3) (start 3) lateClaims).getD (start 3)) :=
    reaches_any_performed lateClaims rfl
  have bounded := (claimed 3 3 _ run).1 0
  exact absurd bounded (by decide)

/-- A claim is in time: every entry it is granted has the delivery count it was listed with. -/
def OnTime (s : State) : Action → Prop
  | .claim place => ∀ worker ∈ s.workers[place]?, ∀ listed ∈ worker.listed,
      ∀ entry ∈ s.pending, entry.id = listed.id → recoveryIntervalMs ≤ s.now - entry.lastRead →
        entry.deliveryCount = listed.deliveryCount
  | _ => True

instance (s : State) (action : Action) : Decidable (OnTime s action) :=
  match action with
  | .claim place => inferInstanceAs (Decidable (∀ worker ∈ s.workers[place]?,
      ∀ listed ∈ worker.listed, ∀ entry ∈ s.pending, entry.id = listed.id →
        recoveryIntervalMs ≤ s.now - entry.lastRead →
          entry.deliveryCount = listed.deliveryCount))
  | .tick _ | .xadd | .read _ | .list _ _ | .begin _ _ | .drop _ _ | .touch _ | .ack _
  | .crash _ => .isTrue trivial

/-- Messages that number the deliveries of each entry from one on. -/
inductive Numbered : List Message → Prop where
  | nil : Numbered []
  | snoc {messages : List Message} {message : Message} (before : Numbered messages)
      (next : message.deliveryCount = timesOf messages message.id + 1) :
      Numbered (messages ++ [message])

/-- One more message adds to the times of its entry. -/
theorem timesOf_append (messages : List Message) (message : Message) (id : Nat) :
    timesOf (messages ++ [message]) id =
      timesOf messages id + if message.id = id then 1 else 0 := by
  simp [timesOf, List.countP_append, List.countP_cons]

/-- The deliveries of an entry are numbered in order. -/
theorem Numbered.counts {messages : List Message} (numbered : Numbered messages) (id : Nat) :
    (messages.filter fun message => message.id = id).map Message.deliveryCount =
      List.range' 1 (timesOf messages id) := by
  induction numbered with
  | nil => rfl
  | @snoc messages message before next inductionHypothesis =>
    rw [timesOf_append, List.filter_append, List.map_append, inductionHypothesis]
    by_cases same : message.id = id
    · subst same
      rw [if_pos rfl, List.range'_1_concat]
      simp [next, Nat.add_comm]
    · simp [same]

/-- A message counts the deliveries up to its own. -/
theorem Numbered.upTo {messages : List Message} (numbered : Numbered messages) {place : Nat}
    {message : Message} (present : messages[place]? = some message) :
    timesOf (messages.take (place + 1)) message.id = message.deliveryCount := by
  induction numbered with
  | nil => cases present
  | @snoc earlier last before next inductionHypothesis =>
    rcases Tables.row_append.mp present with old | ⟨rfl, rfl⟩
    · have inside := (List.getElem?_eq_some_iff.mp old).1
      rw [List.take_append_of_le_length inside]
      exact inductionHypothesis old
    · have whole : (earlier ++ [message]).take (earlier.length + 1) = earlier ++ [message] :=
        List.take_of_length_le (by simp)
      rw [whole, timesOf_append, if_pos rfl, next]

/-- What the group knows, and what was handed out of it. -/
structure Tally (unread : Nat) (pending : List PendingEntry) (handedOut : List Message) : Prop where
  distinct : (pending.map PendingEntry.id).Nodup
  below : ∀ entry ∈ pending, entry.id < unread
  counted : ∀ entry ∈ pending, timesOf handedOut entry.id = entry.deliveryCount
  fresh : ∀ message ∈ handedOut, message.id < unread
  numbered : Numbered handedOut

/-- The record of a state: the group's tally, what the workers have or have had being part of what
was handed out, and no message processed past the retries. -/
structure Record (maxRetriesBeforeDlq : Nat) (s : State) : Prop where
  tally : Tally s.unread s.pending s.handedOut
  held : (s.workers.flatMap Worker.inbox ++ (s.processed ++ s.deadLettered)).Subperm s.handedOut
  capped : ∀ message ∈ s.processed, message.deliveryCount ≤ maxRetriesBeforeDlq

/-- Nothing was handed out yet. -/
theorem Record.start (maxRetriesBeforeDlq workers : Nat) :
    Record maxRetriesBeforeDlq (start workers) where
  tally := ⟨List.nodup_nil, by simp [HandOuts.start], by simp [HandOuts.start],
    by simp [HandOuts.start], .nil⟩
  held := by simp [HandOuts.start]
  capped := by simp [HandOuts.start]

variable {unread now : Nat} {pending : List PendingEntry} {handedOut : List Message}

/-- No message is of an entry that was not read. -/
theorem Tally.unread_times (tally : Tally unread pending handedOut) :
    timesOf handedOut unread = 0 := by
  apply List.countP_eq_zero.mpr
  intro message listed
  have below := tally.fresh message listed
  simpa using Nat.ne_of_lt below

/-- A first read hands out the first delivery. -/
theorem Tally.deliver (tally : Tally unread pending handedOut) :
    Tally (unread + 1) (deliver pending unread now) (handedOut ++ [⟨unread, 1⟩]) where
  distinct := by
    unfold Queue.deliver
    rw [List.map_append, List.nodup_append]
    refine ⟨tally.distinct, by simp, ?_⟩
    intro id known other new
    obtain ⟨entry, listed, rfl⟩ := List.mem_map.mp known
    have same : other = unread := by simpa using new
    have below := tally.below entry listed
    omega
  below := by
    apply Tables.all_append
    · intro entry listed
      exact Nat.lt_succ_of_lt (tally.below entry listed)
    · exact Nat.lt_succ_self _
  counted := by
    apply Tables.all_append
    · intro entry listed
      have below := tally.below entry listed
      have other : unread ≠ entry.id := by omega
      rw [timesOf_append, if_neg other]
      exact tally.counted entry listed
    · rw [timesOf_append, tally.unread_times, if_pos rfl]
  fresh := by
    apply Tables.all_append
    · intro message listed
      exact Nat.lt_succ_of_lt (tally.fresh message listed)
    · exact Nat.lt_succ_self _
  numbered := .snoc tally.numbered (by rw [tally.unread_times])

/-- A granted claim hands out the next delivery, when its message counts one more than the entry
has. -/
theorem Tally.claim (tally : Tally unread pending handedOut) {entry : PendingEntry}
    (listed : entry ∈ pending) :
    Tally unread (claim pending entry.id now)
      (handedOut ++ [⟨entry.id, entry.deliveryCount + 1⟩]) where
  distinct := by
    have same : (Queue.claim pending entry.id now).map PendingEntry.id =
        pending.map PendingEntry.id := by
      unfold Queue.claim
      rw [List.map_map]
      apply List.map_congr_left
      intro other _
      simp only [Function.comp]
      split
      · rename_i own
        exact own.symm
      · rfl
    rw [same]
    exact tally.distinct
  below := by
    intro other member
    obtain ⟨before, known, rfl⟩ := List.mem_map.mp member
    have below := tally.below before known
    split
    · exact tally.below entry listed
    · exact below
  counted := by
    intro other member
    obtain ⟨before, known, rfl⟩ := List.mem_map.mp member
    rw [timesOf_append]
    split
    · rename_i own
      have same := tally.counted before known
      rw [own] at same
      simp [same]
    · rename_i foreign
      rw [if_neg (Ne.symm foreign)]
      exact tally.counted before known
  fresh := Tables.all_append tally.fresh (tally.below entry listed)
  numbered := .snoc tally.numbered (by rw [tally.counted entry listed])

/-- A touch changes no count. -/
theorem Tally.touch (tally : Tally unread pending handedOut) (id : Nat) :
    Tally unread (Queue.touch pending id now) handedOut where
  distinct := by
    have same : (Queue.touch pending id now).map PendingEntry.id =
        pending.map PendingEntry.id := by
      unfold Queue.touch
      rw [List.map_map]
      apply List.map_congr_left
      intro other _
      simp only [Function.comp]
      split <;> rfl
    rw [same]
    exact tally.distinct
  below := by
    intro other member
    obtain ⟨before, known, rfl⟩ := List.mem_map.mp member
    have below := tally.below before known
    split <;> exact below
  counted := by
    intro other member
    obtain ⟨before, known, rfl⟩ := List.mem_map.mp member
    have counted := tally.counted before known
    split <;> exact counted
  fresh := tally.fresh
  numbered := tally.numbered

/-- An acknowledgement only takes an entry off the list. -/
theorem Tally.ack (tally : Tally unread pending handedOut) (id : Nat) :
    Tally unread (Queue.ack pending id) handedOut where
  distinct := (List.filter_sublist.map PendingEntry.id).nodup tally.distinct
  below := fun entry listed => tally.below entry (List.mem_of_mem_filter listed)
  counted := fun entry listed => tally.counted entry (List.mem_of_mem_filter listed)
  fresh := tally.fresh
  numbered := tally.numbered

/-- The claim of a list that is in time hands out the next delivery of each entry it is granted. -/
theorem Tally.claimEach {listed : List PendingEntry} (tally : Tally unread pending handedOut)
    (onTime : ∀ asked ∈ listed, ∀ entry ∈ pending, entry.id = asked.id →
      recoveryIntervalMs ≤ now - entry.lastRead → entry.deliveryCount = asked.deliveryCount) :
    Tally unread (claimEach now pending listed).1
      (handedOut ++ (claimEach now pending listed).2) := by
  induction listed generalizing pending handedOut with
  | nil =>
    rw [HandOuts.claimEach, List.append_nil]
    exact tally
  | cons asked rest inductionHypothesis =>
    have restOnTime := fun other member => onTime other (List.mem_cons_of_mem _ member)
    unfold HandOuts.claimEach
    split
    · rename_i grant
      obtain ⟨entry, present, idle⟩ := List.any_eq_true.mp grant
      simp only [Bool.and_eq_true, decide_eq_true_eq] at idle
      obtain ⟨named, longEnough⟩ := idle
      have count := onTime asked List.mem_cons_self entry present named longEnough
      have next : Tally unread (Queue.claim pending asked.id now)
          (handedOut ++ [⟨asked.id, asked.deliveryCount + 1⟩]) := by
        rw [← named, ← count]
        exact tally.claim present
      have after := inductionHypothesis next (by
        -- The entry just claimed is not idle, and the others are as they were.
        intro other member entry claimed same idle
        obtain ⟨before, known, rfl⟩ := List.mem_map.mp claimed
        by_cases own : before.id = asked.id
        · have positive : 0 < recoveryIntervalMs := by decide
          rw [if_pos own, Nat.sub_self] at idle
          omega
        · rw [if_neg own] at same idle ⊢
          exact restOnTime other member before known same idle)
      simpa using after
    · exact inductionHypothesis tally restOnTime

/-- The messages of workers when one of them has more: they are those of before and the new ones. -/
theorem inboxes_more {workers : List Worker} {place : Nat} {worker next : Worker}
    (present : workers[place]? = some worker) {messages : List Message}
    (more : next.inbox = worker.inbox ++ messages) :
    ((workers.set place next).flatMap Worker.inbox).Perm
      (workers.flatMap Worker.inbox ++ messages) := by
  obtain ⟨before, rest, whole, _, written⟩ := Tables.split_set present
  rw [written, whole]
  simp only [List.flatMap_append, List.flatMap_cons, more, List.append_assoc]
  exact (List.perm_append_comm.append_left _).append_left _

/-- The messages of workers when one of them is written again. -/
theorem inboxes_less {workers : List Worker} {place : Nat} {worker next : Worker}
    (present : workers[place]? = some worker) {lost : List Message}
    (less : worker.inbox.Perm (lost ++ next.inbox)) :
    (workers.flatMap Worker.inbox).Perm
      (lost ++ (workers.set place next).flatMap Worker.inbox) := by
  obtain ⟨before, rest, whole, _, written⟩ := Tables.split_set present
  rw [written, whole]
  simp only [List.flatMap_append, List.flatMap_cons]
  calc before.flatMap Worker.inbox ++ (worker.inbox ++ rest.flatMap Worker.inbox)
      |>.Perm (before.flatMap Worker.inbox ++
          (lost ++ next.inbox ++ rest.flatMap Worker.inbox)) :=
        (less.append_right _).append_left _
    _ |>.Perm (lost ++ (before.flatMap Worker.inbox ++
          (next.inbox ++ rest.flatMap Worker.inbox))) := by
        simp only [List.append_assoc]
        exact List.perm_append_comm_assoc _ _ _

variable {maxRetriesBeforeDlq : Nat} {s after : State}

/-- What is handed out to a worker is part of what was handed out. -/
theorem held_more {inboxes after others handedOut messages : List Message}
    (held : (inboxes ++ others).Subperm handedOut) (more : after.Perm (inboxes ++ messages)) :
    (after ++ others).Subperm (handedOut ++ messages) := by
  have moved : (after ++ others).Perm (inboxes ++ others ++ messages) :=
    calc (after ++ others)
        |>.Perm (inboxes ++ messages ++ others) := more.append_right _
      _ |>.Perm (inboxes ++ others ++ messages) := by
        simp only [List.append_assoc]
        exact List.perm_append_comm.append_left _
  exact moved.subperm.trans (held.append (List.Subperm.refl _))

/-- What a worker loses was part of what was handed out, and the rest still is. -/
theorem held_less {inboxes after others handedOut lost : List Message}
    (held : (inboxes ++ others).Subperm handedOut) (less : inboxes.Perm (lost ++ after)) :
    (after ++ others).Subperm handedOut := by
  have part : (after ++ others).Subperm (lost ++ after ++ others) := by
    rw [List.append_assoc]
    exact (List.sublist_append_right _ _).subperm
  exact part.trans ((less.append_right others).symm.subperm.trans held)

/-- What a worker takes up changes its place. -/
theorem held_moved {inboxes after first second handedOut : List Message} {taken : Message}
    (held : (inboxes ++ (first ++ second)).Subperm handedOut)
    (less : inboxes.Perm ([taken] ++ after)) :
    (after ++ (first ++ [taken] ++ second)).Subperm handedOut := by
  have moved : (after ++ (first ++ [taken] ++ second)).Perm (inboxes ++ (first ++ second)) := by
    calc (after ++ (first ++ [taken] ++ second))
        |>.Perm (after ++ ([taken] ++ (first ++ second))) := by
          simp only [List.append_assoc]
          exact (List.perm_append_comm_assoc _ _ _).append_left _
      _ |>.Perm ([taken] ++ after ++ (first ++ second)) := by
          rw [List.append_assoc]
          exact List.perm_append_comm_assoc _ _ _
      _ |>.Perm (inboxes ++ (first ++ second)) := (less.append_right _).symm
  exact moved.subperm.trans held

/-- A message taken out of an inbox leaves the others. -/
theorem inbox_erased {worker : Worker} {place : Nat} {taken : Message}
    (present : worker.inbox[place]? = some taken) :
    worker.inbox.Perm ([taken] ++ worker.inbox.eraseIdx place) := by
  obtain ⟨inside, rfl⟩ := List.getElem?_eq_some_iff.mp present
  exact (List.getElem_cons_eraseIdx_perm inside).symm

/-- Every step whose claims are in time keeps the record. -/
theorem Record.step {action : Action} (record : Record maxRetriesBeforeDlq s)
    (onTime : OnTime s action) (taken : step maxRetriesBeforeDlq s action = some after) :
    Record maxRetriesBeforeDlq after := by
  cases action with
  | tick ms =>
    rw [← Option.some.inj taken]
    exact ⟨record.tally, record.held, record.capped⟩
  | xadd =>
    rw [← Option.some.inj taken]
    exact ⟨record.tally, record.held, record.capped⟩
  | touch id =>
    rw [← Option.some.inj taken]
    exact ⟨record.tally.touch id, record.held, record.capped⟩
  | ack id =>
    rw [← Option.some.inj taken]
    exact ⟨record.tally.ack id, record.held, record.capped⟩
  | read place =>
    simp only [HandOuts.step, HandOuts.read] at taken
    split at taken
    · cases taken
    · rename_i worker present
      split at taken
      · rw [← Option.some.inj taken]
        exact ⟨record.tally.deliver, held_more record.held (inboxes_more present rfl),
          record.capped⟩
      · cases taken
  | list place wanted =>
    simp only [HandOuts.step, HandOuts.list] at taken
    split at taken
    · cases taken
    · rename_i worker present
      rw [← Option.some.inj taken]
      have same : worker.inbox.Perm ([] ++ worker.inbox) := List.Perm.refl _
      exact ⟨record.tally, held_less record.held (inboxes_less present same), record.capped⟩
  | claim place =>
    simp only [HandOuts.step, HandOuts.claimListed] at taken
    split at taken
    · cases taken
    · rename_i worker present
      rw [← Option.some.inj taken]
      exact ⟨record.tally.claimEach (onTime worker present),
        held_more record.held (inboxes_more present rfl), record.capped⟩
  | begin place message =>
    simp only [HandOuts.step, HandOuts.begin] at taken
    split at taken
    · cases taken
    · rename_i worker present
      split at taken
      · cases taken
      · rename_i begun listed
        have less : (s.workers.flatMap Worker.inbox).Perm ([begun] ++ (s.workers.set place
            { worker with inbox := worker.inbox.eraseIdx message }).flatMap Worker.inbox) :=
          inboxes_less present (inbox_erased listed)
        split at taken
        · rw [← Option.some.inj taken]
          have whole : (s.workers.flatMap Worker.inbox ++
              (s.processed ++ s.deadLettered ++ [])).Subperm s.handedOut := by
            simpa using record.held
          have moved := held_moved whole less
          refine ⟨record.tally, ?_, record.capped⟩
          simpa using moved
        · rename_i few
          rw [← Option.some.inj taken]
          exact ⟨record.tally, held_moved record.held less,
            Tables.all_append record.capped (Nat.le_of_not_lt few)⟩
  | drop place message =>
    simp only [HandOuts.step, HandOuts.drop] at taken
    split at taken
    · cases taken
    · rename_i worker present
      rw [← Option.some.inj taken]
      obtain ⟨lost, less⟩ : ∃ lost : List Message,
          worker.inbox.Perm (lost ++ worker.inbox.eraseIdx message) := by
        cases listed : worker.inbox[message]? with
        | none =>
          have outside := List.getElem?_eq_none_iff.mp listed
          rw [List.eraseIdx_of_length_le outside]
          exact ⟨[], List.Perm.refl _⟩
        | some taken => exact ⟨[taken], inbox_erased listed⟩
      exact ⟨record.tally, held_less record.held (inboxes_less present less), record.capped⟩
  | crash place =>
    simp only [HandOuts.step, HandOuts.crash] at taken
    split at taken
    · cases taken
    · rename_i worker present
      rw [← Option.some.inj taken]
      have lost : worker.inbox.Perm (worker.inbox ++ ({} : Worker).inbox) := by simp
      exact ⟨record.tally, held_less record.held (inboxes_less present lost), record.capped⟩

/-- Among messages that number the deliveries of each entry, those of an entry that count no more
than a bound are no more than that. -/
theorem Numbered.few {messages chosen : List Message} (numbered : Numbered messages)
    (part : chosen.Subperm messages) {bound : Nat}
    (capped : ∀ message ∈ chosen, message.deliveryCount ≤ bound) (id : Nat) :
    timesOf chosen id ≤ bound := by
  have ofEntry : ((chosen.filter fun message => message.id = id).map
      Message.deliveryCount).Subperm (List.range' 1 (timesOf messages id)) := by
    rw [← numbered.counts id]
    obtain ⟨same, perm, sub⟩ := part.filter fun message => decide (message.id = id)
    exact ⟨same.map Message.deliveryCount, perm.map _, sub.map _⟩
  have distinct : ((chosen.filter fun message => message.id = id).map
      Message.deliveryCount).Nodup := by
    obtain ⟨same, perm, sub⟩ := ofEntry
    exact perm.nodup_iff.mp (sub.nodup List.nodup_range')
  have inside : ((chosen.filter fun message => message.id = id).map
      Message.deliveryCount) ⊆ List.range' 1 bound := by
    intro count listed
    have positive := (List.mem_range'_1.mp (ofEntry.subset listed)).1
    obtain ⟨message, member, rfl⟩ := List.mem_map.mp listed
    have below := capped message (List.mem_of_mem_filter member)
    exact List.mem_range'_1.mpr ⟨positive, by omega⟩
  have few := (List.subperm_of_subset distinct inside).length_le
  rw [List.length_map, List.length_range'] at few
  rw [timesOf, List.countP_eq_length_filter]
  exact few

/-- In every run whose claims are all in time, no entry is processed more often than the retries
allow, and the count of a message never understates how often its entry was handed out. -/
theorem processed_bounded {maxRetriesBeforeDlq workers : Nat} {s : State}
    (run : Reaches (step maxRetriesBeforeDlq) OnTime (start workers) s) :
    Bounded maxRetriesBeforeDlq s ∧ NeverUnderstates s := by
  have record : Record maxRetriesBeforeDlq s := by
    apply run.invariant
    · exact .start maxRetriesBeforeDlq workers
    · exact fun _ _ _ held onTime taken => held.step onTime taken
  have part : s.processed.Subperm s.handedOut := by
    have inner : s.processed.Sublist
        (s.workers.flatMap Worker.inbox ++ (s.processed ++ s.deadLettered)) :=
      (List.sublist_append_left _ _).trans (List.sublist_append_right _ _)
    exact inner.subperm.trans record.held
  constructor
  · exact fun id => record.tally.numbered.few part record.capped id
  · exact fun place message present => Nat.le_of_eq (record.tally.numbered.upTo present)

/-- Two scanners list an entry, and the second claims it before the entry was idle long enough
again. -/
def claimsInTime : List Action :=
  [.xadd, .read 0, .begin 0 0, .tick 60001, .list 0 1, .list 1 1, .claim 0, .begin 0 0, .claim 1,
    .tick 120001, .list 1 1, .claim 1, .begin 1 0]

/-- There the entry is processed once for each of its deliveries. -/
theorem processed_bounded_in_time :
    Bounded 3 ((perform (step 3) (start 2) claimsInTime).getD (start 2)) ∧
      NeverUnderstates ((perform (step 3) (start 2) claimsInTime).getD (start 2)) :=
  processed_bounded (reaches_performed claimsInTime (by decide) rfl)

end Notifkit.Workers.HandOuts
