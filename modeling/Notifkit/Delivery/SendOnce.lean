import Notifkit.Delivery.Worker

/-!
# At most one send reported successful for a task

While no key expires, the lease admits one call at a time to the providers. A call
whose provider reported success keeps the lease for good, unless it comes into the
`catch` block after all: then the lease is released, the task is retried, and it is
sent again. The tail of effects behind a success can throw, and a push provider that
reports success and an invalid token at once makes it throw by itself. A send that was
given up at its timeout can also report success, while another send is under way.

Where none of the three happens, every task has at most one send reported successful,
in any interleaving of any number of calls.
-/

namespace Notifkit.Delivery

open Runs Tables

variable {IDEMPOTENCY_TTL_SECONDS : Nat} {world after : World}

/-- The provider the call asked last reported success, and the tail is still to run. -/
def Call.succeeded (call : Call) : Bool :=
  match call.phase with
  | .concluding result => result.success
  | _ => false

/-- The provider called the push token invalid. -/
def Call.tokenRejected (call : Call) : Bool :=
  match call.phase with
  | .concluding result => call.isPush && result.invalidToken
  | _ => false

/-- A reported success comes to nothing: an effect behind it throws, the tail throws for
a token that was called invalid beside it, or it is reported of a send given up before. -/
def successLost (world : World) : Action → Bool
  | .effectThrows index => (world.calls[index]?).any Call.succeeded
  | .effectsPass index =>
    (world.calls[index]?).any fun call =>
      call.succeeded && call.tokenRejected && !call.hasFallback
  | .lateReport _ success => success
  | _ => false

/-- How far the clock moves in a step. -/
def Action.elapsed : Action → Nat
  | .tick ms => ms
  | _ => 0

/-- No lease or completion marker of a task expires in the step. -/
def NothingExpires (world : World) (action : Action) : Prop :=
  ∀ call ∈ world.calls, ∀ entry ∈ world.marks.cell call.task, world.now + action.elapsed ≤ entry.2

/-- The steps of a run in which no key expires and no reported success is lost. -/
def KeepsSuccess (world : World) (action : Action) : Prop :=
  NothingExpires world action ∧ successLost world action = false

instance (world : World) (action : Action) : Decidable (NothingExpires world action) :=
  inferInstanceAs (Decidable (∀ _ ∈ _, _))

instance (world : World) (action : Action) : Decidable (KeepsSuccess world action) :=
  inferInstanceAs (Decidable (_ ∧ _))

/-- The call has the lease. -/
def Call.holding (call : Call) : Prop :=
  match call.phase with
  | .rendering | .dispatching .. | .sending _ | .concluding _ | .settling _ | .caught => True
  | _ => False

/-- The call has the lease and will not release it: its provider reported success, or its
effects passed and no retry is to come. -/
def Call.closing (call : Call) : Prop := call.succeeded = true ∨ call.phase = .settling false

/-- One call at a time has a task's lease, and after a success nobody releases it. -/
structure SingleSender (world : World) : Prop where
  live : ∀ id mark last, world.marks.cell id = some (mark, last) →
    world.now ≤ last ∧ ∃ call ∈ world.calls, call.task = id
  held : ∀ call ∈ world.calls, call.holding ∨ call.upgrade = true →
    world.marks.cell call.task ≠ none
  quiet : ∀ call ∈ world.calls, call.holding → call.upgrade = false
  alone : ∀ (index other : Nat) first second, world.calls[index]? = some first →
    world.calls[other]? = some second → first.task = second.task → first.holding →
    second.holding ∨ second.upgrade = true → index = other
  once : ∀ id, world.delivered.count id = 0 ∨ world.delivered.count id = 1 ∧
    world.marks.cell id ≠ none ∧
    ∀ call ∈ world.calls, call.task = id → call.holding → call.closing

/-- A later state of a call that takes no lease and releases none. -/
structure Call.Follows (call later : Call) : Prop where
  task : later.task = call.task
  holding : later.holding → call.holding ∧ later.upgrade = false
  upgrade : later.upgrade = true → call.holding ∨ call.upgrade = true
  closing : call.closing → later.holding → later.closing

/-- A call moves on and no key changes. -/
theorem SingleSender.follow (single : SingleSender world) {index : Nat} {call later : Call}
    (present : world.calls[index]? = some call) (follows : call.Follows later)
    (now : after.now = world.now) (marks : after.marks = world.marks)
    (delivered : after.delivered = world.delivered)
    (calls : after.calls = world.calls.set index later) : SingleSender after := by
  have member := List.mem_of_getElem? present
  have claimed : ∀ (position : Nat) other, after.calls[position]? = some other →
      other.holding ∨ other.upgrade = true → ∃ before, world.calls[position]? = some before ∧
        before.task = other.task ∧ (before.holding ∨ before.upgrade = true) ∧
        (other.holding → before.holding) := by
    intro position other found claims
    rw [calls] at found
    rcases (row_set present).mp found with ⟨rfl, rfl⟩ | ⟨_, was⟩
    · refine ⟨call, present, follows.task.symm, ?_, fun has => (follows.holding has).1⟩
      rcases claims with has | upgrades
      · exact .inl (follows.holding has).1
      · exact follows.upgrade upgrades
    · exact ⟨other, was, rfl, claims, id⟩
  refine ⟨?_, ?_, ?_, ?_, ?_⟩
  · intro id mark last key
    rw [marks] at key
    rw [now, calls]
    obtain ⟨inTime, one⟩ := single.live id mark last key
    exact ⟨inTime, some_set present (fun same => follows.task.trans same) one⟩
  · rw [calls, marks]
    refine all_set single.held fun claims => ?_
    rw [follows.task]
    rcases claims with has | upgrades
    · exact single.held call member (.inl (follows.holding has).1)
    · exact single.held call member (follows.upgrade upgrades)
  · rw [calls]
    exact all_set single.quiet fun has => (follows.holding has).2
  · intro position other first second foundFirst foundSecond same has claims
    obtain ⟨one, wasOne, taskOne, _, hadOne⟩ := claimed position first foundFirst (.inl has)
    obtain ⟨two, wasTwo, taskTwo, claimsTwo, _⟩ := claimed other second foundSecond claims
    exact single.alone position other one two wasOne wasTwo
      (taskOne.trans (same.trans taskTwo.symm)) (hadOne has) claimsTwo
  · intro id
    rw [delivered, marks, calls]
    rcases single.once id with none | ⟨one, key, closing⟩
    · exact .inl none
    · refine .inr ⟨one, key, all_set closing fun same has => ?_⟩
      exact follows.closing
        (closing call member (follows.task.symm.trans same) (follows.holding has).1) has

/-- A call takes the lease of a task nobody has. -/
theorem SingleSender.acquire (single : SingleSender world) {index : Nat} {call : Call}
    {expiry : Nat} (present : world.calls[index]? = some call) (free : world.marks.get world.now call.task = none)
    (later : world.now ≤ expiry) (now : after.now = world.now)
    (marks : after.marks = world.marks.set call.task .lease expiry)
    (delivered : after.delivered = world.delivered)
    (calls : after.calls = world.calls.set index { call with phase := .rendering }) :
    SingleSender after := by
  have member := List.mem_of_getElem? present
  have absent : world.marks.cell call.task = none := by
    cases key : world.marks.cell call.task with
    | none => rfl
    | some entry =>
      have isOver := ExpiringStore.get_eq_none.mp free entry.1 entry.2 key
      have inTime := (single.live call.task entry.1 entry.2 key).1
      omega
  have unclaimed : ∀ other ∈ world.calls, other.task = call.task →
      ¬ (other.holding ∨ other.upgrade = true) :=
    fun other isCall same claims => single.held other isCall claims (same ▸ absent)
  have notUpgrading : call.upgrade = false := by
    cases upgrades : call.upgrade with
    | false => rfl
    | true => exact absurd (.inr upgrades) (unclaimed call member rfl)
  refine ⟨?_, ?_, ?_, ?_, ?_⟩
  · intro id mark last key
    rw [marks, ExpiringStore.set_cell] at key
    rw [now, calls]
    split at key
    next same =>
      obtain ⟨_, rfl⟩ := Prod.mk.inj (Option.some.inj key)
      exact ⟨later, some_set present (fun isTask => isTask) ⟨call, member, same.symm⟩⟩
    next =>
      obtain ⟨inTime, one⟩ := single.live id mark last key
      exact ⟨inTime, some_set present (fun isTask => isTask) one⟩
  · rw [calls, marks]
    refine all_set (fun other isCall claims => ?_) fun _ => by simp
    by_cases same : other.task = call.task
    · simp [same]
    · simpa [same] using single.held other isCall claims
  · rw [calls]
    exact all_set single.quiet fun _ => notUpgrading
  · intro position other first second foundFirst foundSecond same has claims
    rw [calls] at foundFirst foundSecond
    rcases (row_set present).mp foundFirst with ⟨rfl, rfl⟩ | ⟨_, wasFirst⟩
    · rcases (row_set present).mp foundSecond with ⟨rfl, rfl⟩ | ⟨_, wasSecond⟩
      · rfl
      · exact absurd claims (unclaimed second (List.mem_of_getElem? wasSecond) same.symm)
    · rcases (row_set present).mp foundSecond with ⟨rfl, rfl⟩ | ⟨_, wasSecond⟩
      · exact absurd (.inl has) (unclaimed first (List.mem_of_getElem? wasFirst) same)
      · exact single.alone position other first second wasFirst wasSecond same has claims
  · intro id
    rw [delivered, marks, calls]
    rcases single.once id with none | ⟨one, key, closing⟩
    · exact .inl none
    · have apart : id ≠ call.task := fun same => key (same ▸ absent)
      refine .inr ⟨one, by simpa [apart] using key, all_set closing fun same => ?_⟩
      exact absurd same.symm apart

/-- A call that was not reported successful releases the lease. -/
theorem SingleSender.release (single : SingleSender world) {index : Nat} {call later : Call}
    (present : world.calls[index]? = some call)
    (calls : after.calls = world.calls.set index later) (has : call.holding)
    (open' : ¬ call.closing) (ends : ¬ later.holding) (task : later.task = call.task)
    (upgrade : later.upgrade = call.upgrade) (now : after.now = world.now)
    (marks : after.marks = world.marks.del call.task)
    (delivered : after.delivered = world.delivered) : SingleSender after := by
  have member := List.mem_of_getElem? present
  have notUpgrading : later.upgrade ≠ true := by
    rw [upgrade, single.quiet call member has]
    simp
  have others : ∀ (position : Nat) other, after.calls[position]? = some other →
      other.holding ∨ other.upgrade = true →
      world.calls[position]? = some other ∧ other.task ≠ call.task := by
    intro position other found claims
    rw [calls] at found
    rcases (row_set present).mp found with ⟨_, rfl⟩ | ⟨differs, was⟩
    · rcases claims with holds | upgrades
      · exact absurd holds ends
      · exact absurd upgrades notUpgrading
    · refine ⟨was, fun same => differs ?_⟩
      exact (single.alone index position call other present was same.symm has claims).symm
  refine ⟨?_, ?_, ?_, ?_, ?_⟩
  · intro id mark last key
    rw [marks, ExpiringStore.del_cell] at key
    rw [now, calls]
    split at key
    · cases key
    · obtain ⟨inTime, one⟩ := single.live id mark last key
      exact ⟨inTime, some_set present (fun isTask => task.trans isTask) one⟩
  · intro other isCall claims
    obtain ⟨position, found⟩ := List.mem_iff_getElem?.mp isCall
    obtain ⟨was, apart⟩ := others position other found claims
    rw [marks]
    simpa [apart] using single.held other (List.mem_of_getElem? was) claims
  · rw [calls]
    exact all_set single.quiet fun holds => absurd holds ends
  · intro position other first second foundFirst foundSecond same holds claims
    obtain ⟨wasFirst, _⟩ := others position first foundFirst (.inl holds)
    obtain ⟨wasSecond, _⟩ := others other second foundSecond claims
    exact single.alone position other first second wasFirst wasSecond same holds claims
  · intro id
    rw [delivered, marks, calls]
    rcases single.once id with none | ⟨one, key, closing⟩
    · exact .inl none
    · have apart : id ≠ call.task := fun same => open' (closing call member same.symm has)
      exact .inr ⟨one, by simpa [apart] using key, all_set closing fun _ holds => absurd holds ends⟩

/-- The completion marker replaces a key nobody will release. -/
theorem SingleSender.complete (single : SingleSender world) {index : Nat} {call : Call}
    {expiry : Nat} (present : world.calls[index]? = some call) (later : world.now ≤ expiry) (now : after.now = world.now)
    (marks : after.marks = world.marks.set call.task .processed expiry)
    (delivered : after.delivered = world.delivered)
    (calls : after.calls = world.calls.set index { call with upgrade := false }) :
    SingleSender after := by
  have member := List.mem_of_getElem? present
  have follows : call.Follows { call with upgrade := false } :=
    ⟨rfl, fun has => ⟨has, rfl⟩, fun upgraded => (nomatch upgraded), fun closing _ => closing⟩
  -- First the call moves on, then the key is rewritten; neither claims anything new.
  have moved : SingleSender { world with calls := after.calls } :=
    single.follow present follows rfl rfl rfl calls
  refine ⟨?_, ?_, moved.quiet, moved.alone, ?_⟩
  · intro id mark last key
    rw [marks, ExpiringStore.set_cell] at key
    rw [now]
    split at key
    next same =>
      obtain ⟨_, rfl⟩ := Prod.mk.inj (Option.some.inj key)
      refine ⟨later, ?_⟩
      rw [calls]
      exact some_set present (fun isTask => isTask) ⟨call, member, same.symm⟩
    next => exact moved.live id mark last key
  · intro other isCall claims
    rw [marks]
    by_cases same : other.task = call.task
    · simp [same]
    · simpa [same] using moved.held other isCall claims
  · intro id
    rw [delivered, marks]
    rcases moved.once id with none | ⟨one, key, closing⟩
    · exact .inl none
    · refine .inr ⟨one, ?_, closing⟩
      by_cases same : id = call.task
      · simp [same]
      · simpa [same] using key

/-- A provider reports success to the call that has the lease. -/
theorem SingleSender.deliver (single : SingleSender world) {index : Nat} {call : Call}
    {phase : CallPhase} (present : world.calls[index]? = some call) (has : call.holding)
    (open' : ¬ call.closing) (closes : Call.closing { call with phase := phase })
    (now : after.now = world.now) (marks : after.marks = world.marks)
    (delivered : after.delivered = call.task :: world.delivered)
    (calls : after.calls = world.calls.set index { call with phase := phase }) :
    SingleSender after := by
  have member := List.mem_of_getElem? present
  have follows : call.Follows { call with phase := phase } :=
    ⟨rfl, fun _ => ⟨has, single.quiet call member has⟩, fun upgrades => .inr upgrades,
      fun closing _ => absurd closing open'⟩
  have moved : SingleSender { world with calls := after.calls } :=
    single.follow present follows rfl rfl rfl calls
  refine ⟨?_, ?_, moved.quiet, moved.alone, ?_⟩
  · rw [now, marks]
    exact moved.live
  · rw [marks]
    exact moved.held
  · intro id
    rw [delivered, marks, calls]
    by_cases same : call.task = id
    · subst same
      rcases single.once call.task with none | ⟨_, _, closing⟩
      · refine .inr ⟨by rw [List.count_cons_self, none], single.held call member (.inl has), ?_⟩
        intro other isCall isTask holds
        obtain ⟨position, found⟩ := List.mem_iff_getElem?.mp isCall
        rcases (row_set present).mp found with ⟨_, rfl⟩ | ⟨differs, was⟩
        · exact closes
        · exact absurd (single.alone position index other call was present isTask holds (.inl has))
            differs
      · exact absurd (closing call member rfl has) open'
    · rw [List.count_cons_of_ne same]
      have kept := moved.once id
      rw [calls] at kept
      exact kept

/-- A call moves to a phase that takes no lease and gives up no success. -/
theorem SingleSender.move (single : SingleSender world) {index : Nat} {call : Call}
    {phase : CallPhase} (present : world.calls[index]? = some call)
    (holding : Call.holding { call with phase := phase } → call.holding)
    (closing : call.closing → Call.closing { call with phase := phase }) :
    SingleSender (world.moveTo index call phase) := by
  have quiet := single.quiet call (List.mem_of_getElem? present)
  have follows : call.Follows { call with phase := phase } :=
    ⟨rfl, fun has => ⟨holding has, quiet (holding has)⟩, fun upgrades => .inr upgrades,
      fun closes _ => closing closes⟩
  exact single.follow present follows rfl rfl rfl rfl

/-- Whether or not the lease is taken, one call at a time has it. -/
theorem SingleSender.tryLease (single : SingleSender world) {index : Nat} {call : Call}
    {otherwise : CallPhase} (present : world.calls[index]? = some call) (idle : ¬ call.closing)
    (waits : ¬ Call.holding { call with phase := otherwise }) :
    SingleSender (world.tryLease index call otherwise) := by
  unfold World.tryLease
  split
  next marks taken =>
    obtain ⟨free, rfl⟩ := ExpiringStore.setNX_eq_some.mp taken
    exact single.acquire present free (Nat.le_add_right _ _) rfl rfl rfl rfl
  next => exact single.move present (fun has => absurd has waits) fun closes => absurd closes idle

/-- A call that was not reported successful leaves the lease, deleting it or not. -/
theorem SingleSender.leave (single : SingleSender world) {index : Nat} {call : Call}
    {phase : CallPhase} {released : Bool} (present : world.calls[index]? = some call)
    (has : call.holding) (open' : ¬ call.closing)
    (ends : ¬ Call.holding { call with phase := phase }) :
    SingleSender ((world.release call released).moveTo index call phase) := by
  cases released with
  | true => exact single.release present rfl has open' ends rfl rfl rfl rfl rfl
  | false => exact single.move present (fun holds => absurd holds ends) fun closes => absurd closes open'

/-- A call in the provider loop has no success behind it. -/
theorem dispatching_open {call : Call} {next : Nat} {result : Response}
    (phase : call.phase = .dispatching next result) : call.holding ∧ ¬ call.closing := by
  simp [Call.holding, Call.closing, Call.succeeded, phase]

theorem sending_open {call : Call} {provider : Nat} (phase : call.phase = .sending provider) :
    call.holding ∧ ¬ call.closing := by
  simp [Call.holding, Call.closing, Call.succeeded, phase]

/-- What one call does keeps the senders single, as long as no success is lost. -/
theorem callStep_single {index : Nat} {call : Call} {action : Action}
    (single : SingleSender world) (about : action.call = some index)
    (present : world.calls[index]? = some call) (kept : successLost world action = false)
    (taken : callStep IDEMPOTENCY_TTL_SECONDS world index call action = some after) :
    SingleSender after := by
  cases action with
  | tick ms => cases about
  | start => cases about
  | lateReport => cases about
  | gate _ startAt =>
    cases startAt with
    | some startAt =>
      obtain ⟨⟨phase, _⟩, same⟩ := Option.ite_none_right_eq_some.mp taken
      obtain rfl := Option.some.inj same
      have follows : call.Follows { call with phase := .asking, startAt := startAt } :=
        ⟨rfl, fun has => by simp [Call.holding] at has, fun upgrades => .inr upgrades,
          fun _ has => by simp [Call.holding] at has⟩
      exact single.follow present follows rfl rfl rfl rfl
    | none =>
      obtain ⟨phase, same⟩ := Option.ite_none_right_eq_some.mp taken
      obtain rfl := Option.some.inj same
      exact single.move present (by simp [Call.holding])
        (by simp [Call.closing, Call.succeeded, phase])
  | gateThrows =>
    obtain ⟨phase, same⟩ := Option.ite_none_right_eq_some.mp taken
    obtain rfl := Option.some.inj same
    exact single.move present (by simp [Call.holding]) (by simp [Call.closing, Call.succeeded, phase])
  | setLease =>
    obtain ⟨phase, same⟩ := Option.ite_none_right_eq_some.mp taken
    obtain rfl := Option.some.inj same
    exact single.tryLease present (by simp [Call.closing, Call.succeeded, phase])
      (by simp [Call.holding])
  | readLease =>
    obtain ⟨phase, taken⟩ := Option.ite_none_right_eq_some.mp taken
    have idle : ¬ call.closing := by simp [Call.closing, Call.succeeded, phase]
    split at taken <;>
      (obtain rfl := Option.some.inj taken
       exact single.move present (by simp [Call.holding]) fun closes => absurd closes idle)
  | retryLease =>
    obtain ⟨phase, same⟩ := Option.ite_none_right_eq_some.mp taken
    obtain rfl := Option.some.inj same
    exact single.tryLease present (by simp [Call.closing, Call.succeeded, phase])
      (by simp [Call.holding])
  | render _ ok =>
    obtain ⟨phase, same⟩ := Option.ite_none_right_eq_some.mp taken
    obtain rfl := Option.some.inj same
    exact single.move present (fun _ => by simp [Call.holding, phase])
      (by simp [Call.closing, Call.succeeded, phase])
  | gateRefuses =>
    simp only [callStep] at taken
    split at taken
    next next' result phase =>
      obtain ⟨has, open'⟩ := dispatching_open phase
      obtain ⟨_, same⟩ := Option.ite_none_right_eq_some.mp taken
      obtain rfl := Option.some.inj same
      exact single.move present (fun _ => has) fun closes => absurd closes open'
    next => cases taken
  | breakerOpen =>
    simp only [callStep] at taken
    split at taken
    next next' result phase =>
      obtain ⟨has, open'⟩ := dispatching_open phase
      obtain ⟨_, same⟩ := Option.ite_none_right_eq_some.mp taken
      obtain rfl := Option.some.inj same
      exact single.move present (fun _ => has) fun closes => absurd closes open'
    next => cases taken
  | budgetExhausted =>
    simp only [callStep] at taken
    split at taken
    next next' result phase =>
      obtain ⟨has, open'⟩ := dispatching_open phase
      obtain ⟨_, same⟩ := Option.ite_none_right_eq_some.mp taken
      obtain rfl := Option.some.inj same
      exact single.move present (fun _ => has) fun closes => absurd closes open'
    next => cases taken
  | send =>
    simp only [callStep] at taken
    split at taken
    next next' result phase =>
      obtain ⟨has, open'⟩ := dispatching_open phase
      obtain ⟨_, same⟩ := Option.ite_none_right_eq_some.mp taken
      obtain rfl := Option.some.inj same
      exact single.move present (fun _ => has) fun closes => absurd closes open'
    next => cases taken
  | respond _ response =>
    simp only [callStep] at taken
    split at taken
    next provider phase =>
      obtain ⟨has, open'⟩ := sending_open phase
      obtain rfl := Option.some.inj taken
      cases reported : response.success with
      | true =>
        have closes : Call.closing { call with phase := afterResponse call provider response } := by
          simp [Call.closing, Call.succeeded, afterResponse, Response.thrown, Response.final, reported]
        exact single.deliver present has open' closes rfl rfl (by simp) rfl
      | false =>
        have moved : SingleSender (world.moveTo index call (afterResponse call provider response)) :=
          single.move present (fun _ => has) fun closes => absurd closes open'
        exact ⟨moved.live, moved.held, moved.quiet, moved.alone, moved.once⟩
    next => cases taken
  | sendThrows _ retryable =>
    simp only [callStep] at taken
    split at taken
    next provider phase =>
      obtain ⟨has, open'⟩ := sending_open phase
      obtain rfl := Option.some.inj taken
      exact single.move present (fun _ => has) fun closes => absurd closes open'
    next => cases taken
  | timeout =>
    simp only [callStep] at taken
    split at taken
    next provider phase =>
      obtain ⟨has, open'⟩ := sending_open phase
      obtain rfl := Option.some.inj taken
      have moved : SingleSender
          (world.moveTo index call (.dispatching (provider + 1) ⟨false, false, none⟩)) :=
        single.move present (fun _ => has) fun closes => absurd closes open'
      exact ⟨moved.live, moved.held, moved.quiet, moved.alone, moved.once⟩
    next => cases taken
  | loopEnds =>
    simp only [callStep] at taken
    split at taken
    next next' result phase =>
      obtain ⟨has, open'⟩ := dispatching_open phase
      obtain ⟨_, same⟩ := Option.ite_none_right_eq_some.mp taken
      obtain rfl := Option.some.inj same
      exact single.move present (fun _ => has) fun closes => absurd closes open'
    next => cases taken
  | effectsPass position =>
    obtain rfl : position = index := Option.some.inj about
    simp only [callStep] at taken
    split at taken
    next result phase =>
      obtain rfl := Option.some.inj taken
      refine single.move present (fun _ => by simp [Call.holding, phase]) fun closes => ?_
      have succeeded : result.success = true := by
        simpa [Call.closing, Call.succeeded, phase] using closes
      -- Behind a success the only way into the `catch` block is a rejected token.
      right
      simp only [successLost, present, Option.any_some, Call.succeeded, Call.tokenRejected, phase,
        succeeded, Bool.true_and] at kept
      simp only [afterEffects, succeeded, if_true]
      split
      next rejected =>
        simp only [rejected, Bool.true_and, Bool.not_eq_false'] at kept
        simp [kept]
      next => rfl
    next => cases taken
  | effectThrows position =>
    obtain rfl : position = index := Option.some.inj about
    simp only [callStep] at taken
    split at taken
    next result phase =>
      obtain rfl := Option.some.inj taken
      refine single.move present (fun _ => by simp [Call.holding, phase]) fun closes => ?_
      have succeeded : result.success = true := by
        simpa [Call.closing, Call.succeeded, phase] using closes
      simp [successLost, present, Call.succeeded, phase, succeeded] at kept
    next => cases taken
  | settle _ released =>
    simp only [callStep] at taken
    split at taken
    next phase =>
      obtain rfl := Option.some.inj taken
      exact single.leave present (by simp [Call.holding, phase])
        (by simp [Call.closing, Call.succeeded, phase]) (by simp [Call.holding])
    next phase =>
      obtain rfl := Option.some.inj taken
      have has : call.holding := by simp [Call.holding, phase]
      have follows : call.Follows { call with phase := .returned true, upgrade := true } :=
        ⟨rfl, fun has => by simp [Call.holding] at has, fun _ => .inl has,
          fun _ has => by simp [Call.holding] at has⟩
      exact single.follow present follows rfl rfl rfl rfl
    next => cases taken
  | leave _ released =>
    obtain ⟨phase, same⟩ := Option.ite_none_right_eq_some.mp taken
    obtain rfl := Option.some.inj same
    exact single.leave present (by simp [Call.holding, phase])
      (by simp [Call.closing, Call.succeeded, phase]) (by simp [Call.holding])
  | upgrade _ ok =>
    obtain ⟨_, same⟩ := Option.ite_none_right_eq_some.mp taken
    obtain rfl := Option.some.inj same
    cases ok with
    | true => exact single.complete present (Nat.le_add_right _ _) rfl rfl rfl rfl
    | false =>
      have follows : call.Follows { call with upgrade := false } :=
        ⟨rfl, fun has => ⟨has, rfl⟩, (fun upgraded => by cases upgraded), fun closing _ => closing⟩
      exact single.follow present follows rfl rfl rfl rfl

/-- A step that is about a call is a step of that call. -/
theorem step_of_call {action : Action} {index : Nat} (about : action.call = some index)
    (taken : step IDEMPOTENCY_TTL_SECONDS world action = some after) :
    ∃ call, world.calls[index]? = some call ∧
      callStep IDEMPOTENCY_TTL_SECONDS world index call action = some after := by
  have own : ((world.calls[index]?).bind fun call =>
      callStep IDEMPOTENCY_TTL_SECONDS world index call action) = some after := by
    cases action with
    | tick => cases about
    | start => cases about
    | lateReport => cases about
    | _ => obtain rfl := Option.some.inj about; exact taken
  exact Option.bind_eq_some_iff.mp own

/-- While no key expires and no success is lost, senders stay single. -/
theorem single_step {action : Action} (single : SingleSender world)
    (kept : KeepsSuccess world action)
    (taken : step IDEMPOTENCY_TTL_SECONDS world action = some after) : SingleSender after := by
  obtain ⟨unexpired, kept⟩ := kept
  cases about : action.call with
  | some index =>
    obtain ⟨call, present, taken⟩ := step_of_call about taken
    exact callStep_single single about present kept taken
  | none =>
    cases action with
    | tick ms =>
      obtain rfl := Option.some.inj taken
      refine ⟨fun id mark last key => ?_, single.held, single.quiet, single.alone, single.once⟩
      obtain ⟨_, call, member, same⟩ := single.live id mark last key
      exact ⟨unexpired call member (mark, last) (same ▸ key), call, member, same⟩
    | start task isPush attemptNo maxAttempts transports hasFallback =>
      obtain rfl := Option.some.inj taken
      have rows : ∀ {position : Nat} {call : Call}, (world.calls ++ [⟨task, isPush, attemptNo,
          maxAttempts, transports, hasFallback, 0, .gating, false⟩])[position]? = some call →
          call.holding ∨ call.upgrade = true → world.calls[position]? = some call := by
        intro position call found claims
        rcases row_append.mp found with old | ⟨_, rfl⟩
        · exact old
        · simp [Call.holding] at claims
      refine ⟨fun id mark last key => ?_, ?_, ?_, ?_, fun id => ?_⟩
      · obtain ⟨inTime, one⟩ := single.live id mark last key
        exact ⟨inTime, some_append one⟩
      · exact all_append single.held fun claims => by simp [Call.holding] at claims
      · exact all_append single.quiet fun _ => rfl
      · intro index other first second foundFirst foundSecond same has claims
        exact single.alone index other first second (rows foundFirst (.inl has))
          (rows foundSecond claims) same has claims
      · rcases single.once id with none | ⟨one, key, closing⟩
        · exact .inl none
        · exact .inr ⟨one, key, all_append closing fun _ has => by simp [Call.holding] at has⟩
    | lateReport task success =>
      obtain ⟨_, same⟩ := Option.ite_none_right_eq_some.mp taken
      obtain rfl := Option.some.inj same
      obtain rfl : success = false := kept
      exact ⟨single.live, single.held, single.quiet, single.alone, single.once⟩
    | _ => cases about

/-- The first state has no keys and no calls. -/
theorem single_start : SingleSender {} where
  live _ _ _ key := nomatch key
  held _ member := nomatch member
  quiet _ member := nomatch member
  alone _ _ _ _ found := nomatch found
  once _ := .inl rfl

/-- In every run in which no key expires and no reported success is lost, every task has
at most one send reported successful. -/
theorem at_most_one_success (IDEMPOTENCY_TTL_SECONDS : Nat) (world : World)
    (run : Reaches (step IDEMPOTENCY_TTL_SECONDS) KeepsSuccess {} world) (taskId : Text) :
    world.delivered.count taskId ≤ 1 := by
  have single : SingleSender world :=
    run.invariant single_start fun _ _ _ single kept taken => single_step single kept taken
  rcases single.once taskId with none | ⟨one, _⟩
  · omega
  · omega

/-- Two copies of a task meet: the second is told to wait while the first sends, and that
the task is completed afterwards. -/
def twoCopies : List Action :=
  [.start "t".toList false 1 3 1 false, .start "t".toList false 1 3 1 false, .gate 0 (some 0),
    .gate 1 (some 0), .setLease 0, .setLease 1, .readLease 1, .render 0 true, .send 0,
    .respond 0 ⟨true, false, none⟩, .effectsPass 0, .settle 0 true, .upgrade 0 true,
    .start "t".toList false 2 3 1 false, .gate 2 (some 0), .setLease 2, .readLease 2]

theorem at_most_one_success_run : ∃ world, Reaches (step 3600) KeepsSuccess {} world ∧
    world.calls.map Call.phase = [.returned true, .returned false, .returned true] ∧
      world.delivered = ["t".toList] ∧ world.delivered.count "t".toList ≤ 1 := by
  have run : Reaches (step 3600) KeepsSuccess {} _ :=
    reaches_of_perform twoCopies (by decide +kernel) rfl
  exact ⟨_, run, rfl, rfl, at_most_one_success 3600 _ run "t".toList⟩

/-- A listener for the delivered event throws behind a successful send, and the task is
redelivered. -/
def listenerThrows : List Action :=
  [.start "t".toList false 1 3 1 false, .gate 0 (some 0), .setLease 0, .render 0 true, .send 0,
    .respond 0 ⟨true, false, none⟩, .effectThrows 0, .leave 0 true,
    .start "t".toList false 2 3 1 false, .gate 1 (some 0), .setLease 1, .render 1 true, .send 1,
    .respond 1 ⟨true, false, none⟩]

/-- No key expires and no process dies, yet two sends of one task are reported
successful. -/
theorem throwing_listener_sends_twice : ∃ world, Reaches (step 3600) NothingExpires {} world ∧
    ¬ world.delivered.count "t".toList ≤ 1 := by
  have run : Reaches (step 3600) NothingExpires {} _ :=
    reaches_of_perform listenerThrows (by decide +kernel) rfl
  exact ⟨_, run, by decide +kernel⟩

end Notifkit.Delivery
