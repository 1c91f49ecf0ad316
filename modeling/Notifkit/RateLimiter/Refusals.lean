import Notifkit.Foundations.Tables
import Notifkit.RateLimiter.TokenLeases

/-!
# Refused checks

A check without a token waits for the lease of its state, and for the next one as long as others
spend what the lease brought. It is to be refused only where the server said that the window is
spent: some lease call of the instance came back with nothing while the check was under way.

The answers are counted beside the world, for each instance, and each waiting check remembers the
count at which it began. A check that goes on in the bucket it began in is refused only after such an
answer. One that finds its state in another bucket is refused whatever the server said.
-/

namespace Notifkit.RateLimiter

open Runs Tables

variable {options : ApiRateLimiterOptions} {limit : RateLimit}

/-- The leases of a limiter, and the answers that brought nothing. -/
structure Watch where
  world : LeaseWorld := {}
  /-- the instance that made each state -/
  owners : List Nat := []
  /-- the lease calls of each instance that came back with nothing -/
  spent : Nat → Nat := fun _ => 0
  /-- how many there were when each waiting check began -/
  began : List Nat := []
  /-- for each check that was refused: whether one came back with nothing since it began -/
  refusals : List Bool := []

namespace Watch

/-- The answer that arrives brings an instance nothing. -/
def hears (watch : Watch) (position owner : Nat) : Bool :=
  match watch.world.inFlight[position]? with
  | some lease => lease.phase == .answered 0 && watch.owners[lease.state]? == some owner
  | none => false

/-- A lease call of the instance came back with nothing since the waiting check began. -/
def told (watch : Watch) (position : Nat) (waiting : Waiting) : Bool :=
  match watch.began[position]?, watch.owners[waiting.state]? with
  | some count, some owner => count < watch.spent owner
  | _, _ => false

end Watch

/-- A waiting check is gone, and no request of its bucket passed: it returned false. -/
def LeaseWorld.refused (world next : LeaseWorld) (waiting : Waiting) : Bool :=
  next.waiting.length < world.waiting.length &&
    next.passed waiting.bucketIndex == world.passed waiting.bucketIndex

/-- One step. -/
def watchStep (options : ApiRateLimiterOptions) (limit : RateLimit) (watch : Watch)
    (action : LeaseAction) : Option Watch :=
  (leaseStep options limit watch.world action).map fun next =>
    match action with
    | .check owner _ => { watch with
        world := next
        owners := if watch.world.states.length < next.states.length then watch.owners ++ [owner]
          else watch.owners
        began := if watch.world.waiting.length < next.waiting.length
          then watch.began ++ [watch.spent owner] else watch.began }
    | .deliver position => { watch with
        world := next
        spent := fun owner => if watch.hears position owner then watch.spent owner + 1
          else watch.spent owner }
    | .resume position => { watch with
        world := next
        began := if next.waiting.length < watch.world.waiting.length
          then watch.began.eraseIdx position else watch.began
        refusals := match watch.world.waiting[position]? with
          | some waiting =>
            if watch.world.refused next waiting then watch.told position waiting :: watch.refusals
            else watch.refusals
          | none => watch.refusals }
    | _ => { watch with world := next }

/-- Every check that was refused was under way when a lease call came back with nothing. -/
def Watch.Justified (watch : Watch) : Prop := ∀ told ∈ watch.refusals, told = true

/-- A check that goes on, and was told nothing, finds its state in the bucket it began in; the
batches of its limit are not empty. -/
def Steady (options : ApiRateLimiterOptions) (limit : RateLimit) (watch : Watch) :
    LeaseAction → Prop
  | .resume position =>
    ∀ waiting ∈ watch.world.waiting[position]?, ∀ state ∈ watch.world.states[waiting.state]?,
      watch.told position waiting = false → state.bucketIndex = waiting.bucketIndex ∧
        0 < calculateTokenBatchSize limit.rpm options.maxBatchSize
  | _ => True

instance (options : ApiRateLimiterOptions) (limit : RateLimit) (watch : Watch)
    (action : LeaseAction) : Decidable (Steady options limit watch action) :=
  match action with
  | .resume position => by unfold Steady; infer_instance
  | .check .. | .execute _ | .deliver _ | .fail _ | .forget _ | .tick _ => .isTrue trivial

section Leases

variable {batch object : Nat} {leases : List Lease}

/-- A state of a limiter: its batch, and the lease it waits for, which has not come back. -/
structure LeaseState.Sound (batch object : Nat) (leases : List Lease) (state : LeaseState) :
    Prop where
  sized : state.batchSize = batch
  empty : batch = 0 → state.tokens = 0
  flying : ∀ number, state.inFlightLease = some number → ∃ lease, leases[number]? = some lease ∧
    lease.state = object ∧ ∀ granted, lease.phase ≠ .settled granted

/-- A lease asks for a batch, for a state there is, and is answered with no more. -/
structure Lease.Sound (batch states : Nat) (lease : Lease) : Prop where
  sized : lease.requested = batch
  placed : lease.state < states
  answered : ∀ granted, lease.phase = .answered granted → 0 ≤ granted ∧ granted ≤ batch
  settled : ∀ granted, lease.phase = .settled granted → batch = 0 → granted = 0

/-- A state and its leases, the later ones sent for it. -/
structure Leasing.Sound (batch object : Nat) (earlier : List Lease) (leasing : Leasing) : Prop where
  holds : leasing.1.Sound batch object leasing.2
  sent : ∃ sent, leasing.2 = earlier ++ sent ∧
    ∀ lease ∈ sent, lease.phase = .sent ∧ lease.requested = batch ∧ lease.state = object

/-- Further leases change nothing for a state. -/
theorem LeaseState.Sound.append {state : LeaseState} (sound : state.Sound batch object leases)
    (more : List Lease) : state.Sound batch object (leases ++ more) where
  sized := sound.sized
  empty := sound.empty
  flying := fun number flies => by
    obtain ⟨lease, present, mine⟩ := sound.flying number flies
    exact ⟨lease, List.getElem?_append_left (List.getElem?_eq_some_iff.mp present).1 ▸ present, mine⟩

namespace Leasing.Sound

/-- A lease is sent where none is under way. -/
theorem refill {leasing : Leasing} (sound : leasing.Sound batch object leases) (nowMs : Nat)
    (bucket : BucketIndex) : (leasing.refill object nowMs bucket).Sound batch object leases := by
  obtain ⟨state, sent⟩ := leasing
  unfold Leasing.refill
  cases flies : state.inFlightLease with
  | some number => simpa only [flies] using sound
  | none =>
    obtain ⟨more, same, fresh⟩ := sound.sent
    dsimp only at same ⊢
    refine ⟨⟨sound.holds.sized, sound.holds.empty, ?_⟩, ?_⟩
    · intro number here
      obtain rfl := Option.some.inj here
      refine ⟨_, List.getElem?_concat_length, rfl, nofun⟩
    · refine ⟨more ++ [_], by rw [same, List.append_assoc], fun lease member => ?_⟩
      obtain old | new := List.mem_append.mp member
      · exact fresh lease old
      · obtain rfl := List.mem_singleton.mp new
        exact ⟨rfl, sound.holds.sized, rfl⟩

/-- A token less. -/
theorem less {leasing : Leasing} (sound : leasing.Sound batch object leases) :
    Leasing.Sound batch object leases
      ({ leasing.1 with tokens := leasing.1.tokens - 1 }, leasing.2) where
  holds := {
    sized := sound.holds.sized
    empty := fun none => by simp [sound.holds.empty none]
    flying := sound.holds.flying }
  sent := sound.sent

/-- A token is spent, and a lease sent in the background. -/
theorem spend {leasing : Leasing} (sound : leasing.Sound batch object leases) (nowMs : Nat)
    (bucket : BucketIndex) : (leasing.spend object nowMs bucket).Sound batch object leases := by
  unfold Leasing.spend
  dsimp only
  split
  · exact sound.less.refill nowMs bucket
  · exact sound.less

/-- A new window begins without tokens. -/
theorem rollover {leasing : Leasing}
    (sound : leasing.Sound (calculateTokenBatchSize limit.rpm options.maxBatchSize) object leases)
    (nowMs : Nat) (bucket : BucketIndex) :
    Leasing.Sound (calculateTokenBatchSize limit.rpm options.maxBatchSize) object leases
      (LeaseWorld.rollover options limit leasing object nowMs bucket) := by
  unfold LeaseWorld.rollover
  split
  · have emptied : Leasing.Sound (calculateTokenBatchSize limit.rpm options.maxBatchSize) object
        leases (⟨bucket, 0, calculateTokenBatchSize limit.rpm options.maxBatchSize, none⟩,
          leasing.2) :=
      ⟨⟨rfl, fun _ => rfl, nofun⟩, sound.sent⟩
    exact emptied.refill nowMs bucket
  · exact sound

end Leasing.Sound

/-- After a refill a lease is under way. -/
theorem Leasing.refill_flies (leasing : Leasing) (object nowMs : Nat) (bucket : BucketIndex) :
    ∃ number, (leasing.refill object nowMs bucket).1.inFlightLease = some number := by
  unfold Leasing.refill
  cases flies : leasing.1.inFlightLease with
  | some number => exact ⟨number, flies⟩
  | none => exact ⟨_, rfl⟩

/-- The script never answers with more than was asked for. -/
theorem leaseApiRateLimit_le {counters after : Counters} {clock now maxReqs requested : Nat}
    {current previous : BucketIndex} {granted : Int}
    (answered : leaseApiRateLimit counters clock current previous now options.windowMs maxReqs
      requested = (after, granted)) : granted ≤ requested := by
  unfold leaseApiRateLimit at answered
  rw [if_neg options.positive.ne'] at answered
  have asked : (0 : Int) ≤ requested := Int.natCast_nonneg _
  split at answered
  · exact (Prod.mk.inj answered).2 ▸ asked
  · dsimp only at answered
    split at answered
    · exact (Prod.mk.inj answered).2 ▸ asked
    · have same := (Prod.mk.inj answered).2
      omega

/-- A check lets its request pass, or begins to wait for a lease of its state. -/
theorem LeaseWorld.check_cases {world next : LeaseWorld} (positive : 0 < limit.rpm)
    {owner nowMs : Nat} (taken : world.check options limit owner nowMs = some next) :
    ∃ held object state leasing bucket,
      world.held options limit owner bucket = (held, object) ∧
      held.states[object]? = some state ∧
      (Leasing.Sound (calculateTokenBatchSize limit.rpm options.maxBatchSize) object held.inFlight
          (state, held.inFlight) →
        Leasing.Sound (calculateTokenBatchSize limit.rpm options.maxBatchSize) object held.inFlight
          leasing) ∧
      (next = (held.store object leasing).pass bucket ∨
        ∃ number, leasing.1.inFlightLease = some number ∧ next = { held.store object leasing with
          waiting := held.waiting ++ [⟨object, bucket, nowMs, some number⟩] }) := by
  unfold LeaseWorld.check at taken
  rw [if_neg positive.ne'] at taken
  cases has : world.held options limit owner (nowMs / options.windowMs : Nat) with
  | mk held object =>
    dsimp only at taken
    simp only [has] at taken
    obtain ⟨state, present, rfl⟩ := Option.map_eq_some_iff.mp taken
    split
    next =>
      exact ⟨held, object, state, _, _, has, present,
        fun fair => (fair.rollover nowMs _).spend nowMs _, .inl rfl⟩
    next =>
      obtain ⟨number, flies⟩ := Leasing.refill_flies (LeaseWorld.rollover options limit
        (state, held.inFlight) object nowMs (nowMs / options.windowMs : Nat)) object nowMs
        (nowMs / options.windowMs : Nat)
      exact ⟨held, object, state, _, _, has, present,
        fun fair => (fair.rollover nowMs _).refill nowMs _, .inr ⟨number, flies, by rw [flies]⟩⟩

/-- A check that goes on is refused, lets its request pass, or waits for the next lease. -/
theorem LeaseWorld.resume_cases {world next : LeaseWorld} {position : Nat}
    (taken : world.resume position = some next) :
    ∃ waiting granted state, world.waiting[position]? = some waiting ∧
      world.settled waiting = some granted ∧ world.states[waiting.state]? = some state ∧
      ((state.bucketIndex ≠ waiting.bucketIndex ∨ state.tokens = 0 ∧ granted = 0) ∧
          next = { world with waiting := world.waiting.eraseIdx position } ∨
        state.bucketIndex = waiting.bucketIndex ∧ 0 < state.tokens ∧
          next = (LeaseWorld.store { world with waiting := world.waiting.eraseIdx position }
            waiting.state ({ state with tokens := state.tokens - 1 }, world.inFlight)).pass
            waiting.bucketIndex ∨
        state.bucketIndex = waiting.bucketIndex ∧ state.tokens = 0 ∧ granted ≠ 0 ∧
          ∃ number leasing,
            leasing = Leasing.refill (state, world.inFlight) waiting.state waiting.nowMs
              waiting.bucketIndex ∧
            leasing.1.inFlightLease = some number ∧
            next = { world.store waiting.state leasing with
              waiting := world.waiting.set position { waiting with lease := some number } }) := by
  obtain ⟨waiting, present, taken⟩ := Option.bind_eq_some_iff.mp taken
  obtain ⟨granted, settled, taken⟩ := Option.bind_eq_some_iff.mp taken
  obtain ⟨state, held, taken⟩ := Option.bind_eq_some_iff.mp taken
  refine ⟨waiting, granted, state, present, settled, held, ?_⟩
  dsimp only at taken
  split at taken
  next other => exact .inl ⟨.inl other, (Option.some.inj taken).symm⟩
  next same =>
    split at taken
    next token => exact .inr (.inl ⟨not_not.mp same, token, (Option.some.inj taken).symm⟩)
    next none =>
      have empty : state.tokens = 0 := by omega
      split at taken
      next nothing => exact .inl ⟨.inr ⟨empty, nothing⟩, (Option.some.inj taken).symm⟩
      next brought =>
        obtain ⟨number, flies⟩ := Leasing.refill_flies (state, world.inFlight) waiting.state
          waiting.nowMs waiting.bucketIndex
        exact .inr (.inr ⟨not_not.mp same, empty, brought, number, _, rfl, flies,
          by rw [← Option.some.inj taken, flies]⟩)

/-- The states and the leases of a limiter. -/
structure LeaseWorld.Sound (batch : Nat) (world : LeaseWorld) : Prop where
  states : ∀ (object : Nat) (state : LeaseState), world.states[object]? = some state →
    state.Sound batch object world.inFlight
  leases : ∀ lease ∈ world.inFlight, lease.Sound batch world.states.length

namespace LeaseWorld.Sound

variable {world next : LeaseWorld}

/-- A state is put back with the leases that were sent for it. -/
theorem stored (sound : world.Sound batch) {state : LeaseState} {leasing : Leasing}
    (present : world.states[object]? = some state)
    (fair : leasing.Sound batch object world.inFlight)
    (states : next.states = world.states.set object leasing.1)
    (inFlight : next.inFlight = leasing.2) : next.Sound batch := by
  obtain ⟨sent, same, fresh⟩ := fair.sent
  have inside := (List.getElem?_eq_some_iff.mp present).1
  constructor
  · intro other held here
    rw [inFlight]
    rw [states] at here
    obtain ⟨rfl, rfl⟩ | ⟨_, there⟩ := (row_set present).mp here
    · exact fair.holds
    · rw [same]
      exact (sound.states other held there).append sent
  · rw [inFlight, same, states, List.length_set]
    intro lease member
    obtain old | new := List.mem_append.mp member
    · exact sound.leases lease old
    · obtain ⟨under, sized, mine⟩ := fresh lease new
      exact ⟨sized, mine ▸ inside, by simp [under], by simp [under]⟩

/-- A state of an instance, as it is put into its world. -/
theorem leasing (sound : world.Sound batch) {state : LeaseState}
    (present : world.states[object]? = some state) :
    Leasing.Sound batch object world.inFlight (state, world.inFlight) :=
  ⟨sound.states object state present, [], (List.append_nil _).symm, nofun⟩

/-- One lease goes on: it is answered, and its state told. -/
theorem settle (sound : world.Sound batch) {position granted : Nat} {lease : Lease}
    (present : world.inFlight[position]? = some lease)
    (nothing : batch = 0 → granted = 0)
    (taken : world.credit position lease granted = some next) : next.Sound batch := by
  obtain ⟨state, held, same⟩ := Option.bind_eq_some_iff.mp taken
  obtain rfl := Option.some.inj same
  have here := sound.leases lease (List.mem_of_getElem? present)
  have flying : ∀ object state number, world.states[object]? = some state →
      state.inFlightLease = some number → number ≠ position → ∃ after,
      (world.inFlight.set position { lease with phase := .settled granted })[number]? = some after ∧
        after.state = object ∧ ∀ granted, after.phase ≠ .settled granted := by
    intro object state number present' flies other
    obtain ⟨after, found, mine⟩ := (sound.states object state present').flying number flies
    exact ⟨after, by rw [List.getElem?_set_ne (Ne.symm other)]; exact found, mine⟩
  constructor
  · intro object after placed
    obtain ⟨rfl, rfl⟩ | ⟨other, there⟩ := (row_set held).mp placed
    · have before := sound.states _ state held
      refine ⟨before.sized, fun none => ?_, fun number flies => ?_⟩
      · simp [before.empty none, nothing none]
      · dsimp only at flies
        split at flies
        · cases flies
        next goes => exact flying _ state number held flies fun same => goes (same ▸ flies)
    · have before := sound.states object after there
      refine ⟨before.sized, before.empty, fun number flies => ?_⟩
      refine flying object after number there flies fun same => ?_
      -- the lease in flight for another state is not this one
      obtain ⟨found, placed, mine, _⟩ := before.flying number flies
      rw [same, present] at placed
      obtain rfl := Option.some.inj placed
      exact other mine.symm
  · intro other member
    rw [List.length_set]
    obtain old | rfl := List.mem_or_eq_of_mem_set member
    · exact sound.leases other old
    · refine ⟨here.sized, here.placed, nofun, fun amount settled none => ?_⟩
      obtain rfl := LeasePhase.settled.inj settled
      exact nothing none

/-- The server answers a lease with a part of the batch it asked for. -/
theorem execute (sound : world.Sound batch) {position : Nat}
    (taken : world.execute options limit position = some next) : next.Sound batch := by
  obtain ⟨lease, counters, granted, present, sent, answered, rfl⟩ := LeaseWorld.execute_eq taken
  have here := sound.leases lease (List.mem_of_getElem? present)
  constructor
  · intro object state placed
    have before := sound.states object state placed
    refine ⟨before.sized, before.empty, fun number flies => ?_⟩
    obtain ⟨other, found, mine, open'⟩ := before.flying number flies
    by_cases same : number = position
    · subst same
      obtain rfl : lease = other := Option.some.inj (present.symm.trans found)
      exact ⟨_, (row_set present).mpr (.inl ⟨rfl, rfl⟩), mine, nofun⟩
    · exact ⟨other, (row_set present).mpr (.inr ⟨same, found⟩), mine, open'⟩
  · apply all_set sound.leases
    refine ⟨here.sized, here.placed, fun amount same => ?_, nofun⟩
    obtain rfl := LeasePhase.answered.inj same
    exact ⟨leaseApiRateLimit_nonneg answered, here.sized ▸ leaseApiRateLimit_le answered⟩

/-- The state that an instance makes for the project. -/
theorem made (sound : world.Sound (calculateTokenBatchSize limit.rpm options.maxBatchSize))
    (owner : Nat) (bucket : BucketIndex) :
    (world.held options limit owner bucket).1.Sound
      (calculateTokenBatchSize limit.rpm options.maxBatchSize) := by
  unfold LeaseWorld.held
  split
  · exact sound
  · constructor
    · intro object state placed
      obtain old | ⟨rfl, rfl⟩ := row_append.mp placed
      · exact sound.states object state old
      · exact ⟨rfl, fun _ => rfl, nofun⟩
    · intro lease member
      have here := sound.leases lease member
      refine ⟨here.sized, ?_, here.answered, here.settled⟩
      rw [List.length_append]
      exact Nat.lt_add_right _ here.placed

end LeaseWorld.Sound

end Leases

section Watching

variable {batch : Nat} {watch later : Watch} {waiting : Waiting} {count : Nat}

/-- A waiting check shares a lease of its state. Where that brought nothing, it came back so since
the check began. -/
def Watch.Waits (batch : Nat) (watch : Watch) (waiting : Waiting) (count : Nat) : Prop :=
  ∃ number lease owner, waiting.lease = some number ∧
    watch.world.inFlight[number]? = some lease ∧ lease.state = waiting.state ∧
    watch.owners[waiting.state]? = some owner ∧ count ≤ watch.spent owner ∧
    (lease.phase = .settled 0 → count < watch.spent owner ∨ batch = 0)

/-- The watch keeps pace with the limiter, and every waiting check shares a lease. -/
structure Watch.Traced (batch : Nat) (watch : Watch) : Prop where
  sound : watch.world.Sound batch
  owned : watch.owners.length = watch.world.states.length
  ours : ∀ owner object, watch.world.leases owner = some object →
    watch.owners[object]? = some owner
  paired : watch.began.length = watch.world.waiting.length
  waits : ∀ (position : Nat) (waiting : Waiting) (count : Nat),
    watch.world.waiting[position]? = some waiting → watch.began[position]? = some count →
    watch.Waits batch waiting count

/-- What came later: no owner is forgotten, no answer uncounted, and a lease that brought nothing
was counted when it came back. -/
structure Watch.Follows (batch : Nat) (later watch : Watch) : Prop where
  owners : ∀ (object owner : Nat), watch.owners[object]? = some owner →
    later.owners[object]? = some owner
  spent : ∀ owner, watch.spent owner ≤ later.spent owner
  leases : ∀ (number : Nat) (lease : Lease), watch.world.inFlight[number]? = some lease →
    ∃ after, later.world.inFlight[number]? = some after ∧ after.state = lease.state ∧
      (after.phase = .settled 0 → lease.phase = .settled 0 ∨ batch = 0 ∨
        ∀ owner, watch.owners[lease.state]? = some owner → watch.spent owner < later.spent owner)

/-- A check that waits goes on waiting for the same lease. -/
theorem Watch.Waits.still (waits : watch.Waits batch waiting count)
    (follows : later.Follows batch watch) : later.Waits batch waiting count := by
  obtain ⟨number, lease, owner, shared, present, mine, owned, since, counted⟩ := waits
  obtain ⟨after, found, same, ways⟩ := follows.leases number lease present
  have more := follows.spent owner
  refine ⟨number, after, owner, shared, found, same.trans mine, follows.owners _ _ owned, by omega,
    fun nothing => ?_⟩
  obtain old | empty | fresh := ways nothing
  · obtain before | empty := counted old
    · exact .inl (by omega)
    · exact .inr empty
  · exact .inr empty
  · have now := fresh owner (mine ▸ owned)
    exact .inl (by omega)

/-- Leases that were sent afterwards leave the others as they are. -/
theorem Watch.Follows.sent {sent : List Lease}
    (owners : ∀ (object owner : Nat), watch.owners[object]? = some owner →
      later.owners[object]? = some owner)
    (spent : later.spent = watch.spent)
    (leases : later.world.inFlight = watch.world.inFlight ++ sent) :
    later.Follows batch watch where
  owners := owners
  spent := fun owner => by rw [spent]
  leases := fun number lease present => by
    have inside := (List.getElem?_eq_some_iff.mp present).1
    refine ⟨lease, ?_, rfl, .inl⟩
    rw [leases, List.getElem?_append_left inside]
    exact present

/-- No lease was sent. -/
theorem Watch.Follows.same
    (owners : ∀ (object owner : Nat), watch.owners[object]? = some owner →
      later.owners[object]? = some owner)
    (spent : later.spent = watch.spent) (leases : later.world.inFlight = watch.world.inFlight) :
    later.Follows batch watch := by
  apply Watch.Follows.sent owners spent
  rw [leases]
  exact (List.append_nil _).symm

/-- One lease goes on, and is counted where it comes back with nothing. -/
theorem Watch.Follows.moved {position : Nat} {lease after : Lease}
    (present : watch.world.inFlight[position]? = some lease) (owners : later.owners = watch.owners)
    (spent : ∀ owner, watch.spent owner ≤ later.spent owner)
    (leases : later.world.inFlight = watch.world.inFlight.set position after)
    (same : after.state = lease.state)
    (counted : after.phase = .settled 0 → batch = 0 ∨
      ∀ owner, watch.owners[lease.state]? = some owner → watch.spent owner < later.spent owner) :
    later.Follows batch watch where
  owners := fun object owner owned => by rw [owners]; exact owned
  spent := spent
  leases := fun number other found => by
    rw [leases]
    by_cases here : number = position
    · subst here
      obtain rfl : lease = other := Option.some.inj (present.symm.trans found)
      exact ⟨after, (row_set present).mpr (.inl ⟨rfl, rfl⟩), same, fun nothing =>
        .inr (counted nothing)⟩
    · exact ⟨other, (row_set present).mpr (.inr ⟨here, found⟩), rfl, .inl⟩

namespace Watch.Traced

/-- A step that leaves the waiting checks as they are. -/
theorem kept (traced : watch.Traced batch) (follows : later.Follows batch watch)
    (sound : later.world.Sound batch) (owners : later.owners = watch.owners)
    (states : later.world.states.length = watch.world.states.length)
    (leases : ∀ owner object, later.world.leases owner = some object →
      watch.world.leases owner = some object)
    (waiting : later.world.waiting = watch.world.waiting) (began : later.began = watch.began) :
    later.Traced batch where
  sound := sound
  owned := by rw [owners, states, traced.owned]
  ours := fun owner object held => by
    rw [owners]
    exact traced.ours owner object (leases owner object held)
  paired := by rw [waiting, began, traced.paired]
  waits := fun position check count present counted => by
    rw [waiting] at present
    rw [began] at counted
    exact (traced.waits position check count present counted).still follows

/-- A check that begins to wait. -/
theorem joined (traced : watch.Traced batch) (owner : Nat) (waiting : Waiting)
    (waits : watch.Waits batch waiting (watch.spent owner)) :
    Watch.Traced batch { watch with
      world := { watch.world with waiting := watch.world.waiting ++ [waiting] }
      began := watch.began ++ [watch.spent owner] } where
  sound := ⟨traced.sound.states, traced.sound.leases⟩
  owned := traced.owned
  ours := traced.ours
  paired := by simp [traced.paired]
  waits := fun position check count present counted => by
    obtain old | ⟨rfl, rfl⟩ := row_append.mp present
    · have inside := (List.getElem?_eq_some_iff.mp old).1
      have before : watch.began[position]? = some count := by
        rwa [List.getElem?_append_left (by rw [traced.paired]; exact inside)] at counted
      exact traced.waits position check count old before
    · rw [← traced.paired, List.getElem?_concat_length] at counted
      exact Option.some.inj counted ▸ waits

/-- A check that waits no longer. -/
theorem left (traced : watch.Traced batch) (position : Nat) (refusals : List Bool) :
    Watch.Traced batch { watch with
      world := { watch.world with waiting := watch.world.waiting.eraseIdx position }
      began := watch.began.eraseIdx position
      refusals } where
  sound := ⟨traced.sound.states, traced.sound.leases⟩
  owned := traced.owned
  ours := traced.ours
  paired := by simp only [List.length_eraseIdx, traced.paired]
  waits := fun place check count present counted => by
    rw [List.getElem?_eraseIdx] at present counted
    split at present
    next before =>
      rw [if_pos before] at counted
      exact traced.waits _ check count present counted
    next after =>
      rw [if_neg after] at counted
      exact traced.waits _ check count present counted

/-- A state is put back with its leases, whether a request passed or not. -/
theorem stored (traced : watch.Traced batch) {object : Nat} {state : LeaseState} {leasing : Leasing}
    (present : watch.world.states[object]? = some state)
    (fair : leasing.Sound batch object watch.world.inFlight) (passed : BucketIndex → Nat) :
    Watch.Traced batch { watch with
      world := { watch.world.store object leasing with passed := passed } } := by
  obtain ⟨sent, same, _⟩ := fair.sent
  exact traced.kept (.sent (fun _ _ owned => owned) rfl same)
    (traced.sound.stored present fair rfl rfl) rfl (List.length_set ..) (fun _ _ held => held) rfl rfl

/-- The instance has a state for the project, which it made now or before. -/
theorem made {bucket : BucketIndex} {held : LeaseWorld} {owner object : Nat}
    (traced : watch.Traced (calculateTokenBatchSize limit.rpm options.maxBatchSize))
    (has : watch.world.held options limit owner bucket = (held, object)) :
    Watch.Traced (calculateTokenBatchSize limit.rpm options.maxBatchSize) { watch with
      world := held
      owners := if watch.world.states.length < held.states.length then watch.owners ++ [owner]
        else watch.owners } ∧
    (if watch.world.states.length < held.states.length then watch.owners ++ [owner]
      else watch.owners)[object]? = some owner ∧
    held.waiting = watch.world.waiting := by
  have sound : (watch.world.held options limit owner bucket).1.Sound
      (calculateTokenBatchSize limit.rpm options.maxBatchSize) := traced.sound.made owner bucket
  rw [has] at sound
  unfold LeaseWorld.held at has
  cases known : watch.world.leases owner with
  | some before =>
    simp only [known, Prod.mk.injEq] at has
    obtain ⟨rfl, rfl⟩ := has
    simp only [Nat.lt_irrefl, if_false]
    exact ⟨traced, traced.ours owner before known, trivial⟩
  | none =>
    simp only [known, Prod.mk.injEq] at has
    obtain ⟨rfl, rfl⟩ := has
    simp only [List.length_append, List.length_singleton, Nat.lt_add_one, if_true]
    refine ⟨?_, by rw [← traced.owned, List.getElem?_concat_length], trivial⟩
    have grown : ∀ (object owner' : Nat), watch.owners[object]? = some owner' →
        (watch.owners ++ [owner])[object]? = some owner' := fun object owner' owned => by
      rw [List.getElem?_append_left (List.getElem?_eq_some_iff.mp owned).1]
      exact owned
    constructor
    · exact sound
    · simp [traced.owned]
    · intro other object holds
      dsimp only at holds
      split at holds
      next same =>
        obtain rfl := Option.some.inj holds
        rw [← traced.owned, List.getElem?_concat_length, same]
      next => exact grown object other (traced.ours other object holds)
    · exact traced.paired
    · intro position check count present counted
      exact (traced.waits position check count present counted).still
        (.same grown rfl rfl)

/-- A check lets its request pass, or begins to wait for a lease of its state. -/
theorem check (positive : 0 < limit.rpm)
    (traced : watch.Traced (calculateTokenBatchSize limit.rpm options.maxBatchSize))
    {owner nowMs : Nat} (taken : watchStep options limit watch (.check owner nowMs) = some later) :
    later.Traced (calculateTokenBatchSize limit.rpm options.maxBatchSize) ∧
      later.refusals = watch.refusals := by
  obtain ⟨next, checked, rfl⟩ := Option.map_eq_some_iff.mp taken
  refine ⟨?_, rfl⟩
  obtain ⟨held, object, state, leasing, bucket, has, present, fair, ends⟩ :=
    LeaseWorld.check_cases positive checked
  obtain ⟨made, owned, waits⟩ := traced.made has
  have sends := fair (made.sound.leasing present)
  have lengths : (held.store object leasing).states.length = held.states.length := List.length_set
  obtain rfl | ⟨number, flies, rfl⟩ := ends
  · have put := made.stored present sends ((held.store object leasing).pass bucket).passed
    have same : ((held.store object leasing).pass bucket).waiting = watch.world.waiting := waits
    have sizes : ((held.store object leasing).pass bucket).states.length = held.states.length :=
      lengths
    dsimp only
    rw [sizes, same, if_neg (Nat.lt_irrefl watch.world.waiting.length)]
    exact put
  · have put := made.stored present sends held.passed
    obtain ⟨lease, found, mine, under⟩ := sends.holds.flying number flies
    have joins := put.joined owner ⟨object, bucket, nowMs, some number⟩
      ⟨number, lease, owner, rfl, found, mine, owned, Nat.le_refl _, fun nothing =>
        absurd nothing (under 0)⟩
    have grows : watch.world.waiting.length < (held.waiting ++
        [(⟨object, bucket, nowMs, some number⟩ : Waiting)]).length := by simp [waits]
    dsimp only
    rw [lengths, if_pos grows]
    exact joins

/-- A lease comes back. Where it brings nothing, that was counted, or batches are empty. -/
theorem credited (traced : watch.Traced batch) {position granted : Nat} {lease : Lease}
    {next : LeaseWorld} {spent : Nat → Nat}
    (present : watch.world.inFlight[position]? = some lease) (nothing : batch = 0 → granted = 0)
    (more : ∀ owner, watch.spent owner ≤ spent owner)
    (counted : granted = 0 → batch = 0 ∨
      ∀ owner, watch.owners[lease.state]? = some owner → watch.spent owner < spent owner)
    (taken : watch.world.credit position lease granted = some next) :
    Watch.Traced batch { watch with world := next, spent := spent } := by
  have sound := traced.sound.settle present nothing taken
  obtain ⟨state, held, same⟩ := Option.bind_eq_some_iff.mp taken
  obtain rfl := Option.some.inj same
  refine traced.kept ?_ sound rfl (List.length_set ..) (fun _ _ held => held) rfl rfl
  exact .moved present rfl more rfl rfl fun settled => counted (LeasePhase.settled.inj settled)

/-- An answer arrives. -/
theorem deliver (traced : watch.Traced batch) {position : Nat}
    (taken : watchStep options limit watch (.deliver position) = some later) :
    later.Traced batch := by
  obtain ⟨next, delivered, rfl⟩ := Option.map_eq_some_iff.mp taken
  obtain ⟨lease, present, arrived⟩ := Option.bind_eq_some_iff.mp delivered
  cases phase : lease.phase with
  | answered granted =>
    simp only [phase] at arrived
    obtain ⟨nonneg, bound⟩ :=
      (traced.sound.leases lease (List.mem_of_getElem? present)).answered granted phase
    rw [if_neg (Int.not_lt.mpr nonneg)] at arrived
    refine traced.credited present (fun none => by omega) (fun owner => ?_) (fun none => .inr ?_)
      arrived
    · split <;> omega
    · intro owner owned
      have zero : granted = 0 := by omega
      have hears : watch.hears position owner = true := by
        simp [Watch.hears, present, phase, zero, owned]
      simp [hears]
  | sent => simp [phase] at arrived
  | settled granted => simp [phase] at arrived

/-- A lease fails: its batch is credited. -/
theorem fail (traced : watch.Traced batch) {position : Nat}
    (taken : watchStep options limit watch (.fail position) = some later) :
    later.Traced batch := by
  obtain ⟨next, failed, rfl⟩ := Option.map_eq_some_iff.mp taken
  obtain ⟨lease, present, ends⟩ := Option.bind_eq_some_iff.mp failed
  obtain ⟨_, ends⟩ := Option.ite_none_right_eq_some.mp ends
  have sized := (traced.sound.leases lease (List.mem_of_getElem? present)).sized
  exact traced.credited present (fun none => by omega) (fun _ => Nat.le_refl _)
    (fun none => .inl (by omega)) ends

/-- The server runs a lease. -/
theorem execute (traced : watch.Traced batch) {position : Nat}
    (taken : watchStep options limit watch (.execute position) = some later) :
    later.Traced batch := by
  obtain ⟨next, executed, rfl⟩ := Option.map_eq_some_iff.mp taken
  have sound := traced.sound.execute executed
  obtain ⟨lease, counters, granted, present, _, _, rfl⟩ := LeaseWorld.execute_eq executed
  refine traced.kept ?_ sound rfl rfl (fun _ _ held => held) rfl rfl
  exact .moved present rfl (fun _ => Nat.le_refl _) rfl rfl nofun

/-- A check that waits for its next lease. -/
theorem again (traced : watch.Traced batch) {position : Nat} (fresh : Waiting)
    (present : watch.world.waiting[position]? = some waiting)
    (waits : ∀ count, watch.began[position]? = some count → watch.Waits batch fresh count) :
    Watch.Traced batch { watch with
      world := { watch.world with waiting := watch.world.waiting.set position fresh } } where
  sound := ⟨traced.sound.states, traced.sound.leases⟩
  owned := traced.owned
  ours := traced.ours
  paired := by rw [List.length_set, traced.paired]
  waits := fun place check count here counted => by
    obtain ⟨rfl, rfl⟩ | ⟨_, old⟩ := (row_set present).mp here
    · exact waits count counted
    · exact traced.waits place check count old counted

/-- A check that goes on is refused where its state is in another bucket, or has no token and the
lease brought none. -/
theorem resume (traced : watch.Traced batch) {position : Nat}
    (taken : watchStep options limit watch (.resume position) = some later) :
    later.Traced batch ∧ ∃ waiting granted state, watch.world.waiting[position]? = some waiting ∧
      watch.world.settled waiting = some granted ∧
      watch.world.states[waiting.state]? = some state ∧
      ((state.bucketIndex ≠ waiting.bucketIndex ∨ state.tokens = 0 ∧ granted = 0) ∧
          later.refusals = watch.told position waiting :: watch.refusals ∨
        ¬ (state.bucketIndex ≠ waiting.bucketIndex ∨ state.tokens = 0 ∧ granted = 0) ∧
          later.refusals = watch.refusals) := by
  obtain ⟨next, resumed, rfl⟩ := Option.map_eq_some_iff.mp taken
  obtain ⟨waiting, granted, state, present, settled, held, ends⟩ :=
    LeaseWorld.resume_cases resumed
  have inside := (List.getElem?_eq_some_iff.mp present).1
  have shorter : (watch.world.waiting.eraseIdx position).length < watch.world.waiting.length := by
    rw [List.length_eraseIdx_of_lt inside]
    omega
  refine (fun result => ⟨result.1, waiting, granted, state, present, settled, held, result.2⟩)
    (?_ : _ ∧ _)
  obtain ⟨refused, rfl⟩ | ⟨same, token, rfl⟩ | ⟨same, none, brought, number, leasing, fair, flies, rfl⟩ := ends
  · have out : watch.world.refused { watch.world with
        waiting := watch.world.waiting.eraseIdx position } waiting = true := by
      simp [LeaseWorld.refused, shorter]
    simp only [shorter, if_true, present, out]
    exact ⟨traced.left position _, .inl ⟨refused, trivial⟩⟩
  · have gone := traced.left position watch.refusals
    have put := gone.stored held (traced.sound.leasing held).less ((LeaseWorld.store { watch.world
      with waiting := watch.world.waiting.eraseIdx position } waiting.state
        ({ state with tokens := state.tokens - 1 }, watch.world.inFlight)).pass
          waiting.bucketIndex).passed
    have out : watch.world.refused ((LeaseWorld.store { watch.world with
        waiting := watch.world.waiting.eraseIdx position } waiting.state
          ({ state with tokens := state.tokens - 1 }, watch.world.inFlight)).pass
            waiting.bucketIndex) waiting = false := by
      simp [LeaseWorld.refused, LeaseWorld.pass, LeaseWorld.store]
    simp only [present, out]
    refine ⟨?_, .inr ⟨fun refused => ?_, rfl⟩⟩
    · simpa only [LeaseWorld.pass, LeaseWorld.store, shorter, if_true, Bool.false_eq_true, if_false]
        using put
    · obtain other | ⟨empty, _⟩ := refused
      · exact other same
      · omega
  · have sends : leasing.Sound batch waiting.state watch.world.inFlight :=
      fair ▸ (traced.sound.leasing held).refill _ _
    have put := traced.stored held sends watch.world.passed
    obtain ⟨lease, found, mine, under⟩ := sends.holds.flying number flies
    have joins := put.again { waiting with lease := some number } present
      fun count counted => by
        obtain ⟨_, _, owner, _, _, _, owned, since, _⟩ :=
          traced.waits position waiting count present counted
        exact ⟨number, lease, owner, rfl, found, mine, owned, since, fun nothing =>
          absurd nothing (under 0)⟩
    have out : watch.world.refused { watch.world.store waiting.state leasing with
        waiting := watch.world.waiting.set position { waiting with lease := some number } }
        waiting = false := by
      simp [LeaseWorld.refused]
    simp only [present, out]
    refine ⟨?_, .inr ⟨fun refused => ?_, rfl⟩⟩
    · simpa only [LeaseWorld.store, List.length_set, Nat.lt_irrefl, Bool.false_eq_true, if_false]
        using joins
    · obtain other | ⟨_, nothing⟩ := refused
      · exact other same
      · exact brought nothing

/-- An instance forgets its state. -/
theorem forget (traced : watch.Traced batch) {owner : Nat}
    (taken : watchStep options limit watch (.forget owner) = some later) :
    later.Traced batch := by
  obtain rfl := Option.some.inj taken
  refine traced.kept (.same (fun _ _ owned => owned) rfl rfl)
    ⟨traced.sound.states, traced.sound.leases⟩ rfl rfl (fun other object held => ?_) rfl rfl
  dsimp only at held
  split at held
  · cases held
  · exact held

/-- Time passes. -/
theorem tick (traced : watch.Traced batch) {ms : Nat}
    (taken : watchStep options limit watch (.tick ms) = some later) : later.Traced batch := by
  obtain rfl := Option.some.inj taken
  exact traced.kept (.same (fun _ _ owned => owned) rfl rfl)
    ⟨traced.sound.states, traced.sound.leases⟩ rfl rfl (fun _ _ held => held) rfl rfl

/-- Only a check that goes on is refused. -/
theorem refusals_kept {action : LeaseAction} (others : ∀ position, action ≠ .resume position)
    (taken : watchStep options limit watch action = some later) :
    later.refusals = watch.refusals := by
  obtain ⟨next, _, rfl⟩ := Option.map_eq_some_iff.mp taken
  cases action with
  | resume position => exact absurd rfl (others position)
  | check => rfl
  | execute => rfl
  | deliver => rfl
  | fail => rfl
  | forget => rfl
  | tick => rfl

/-- Every step keeps pace. -/
theorem step (positive : 0 < limit.rpm)
    (traced : watch.Traced (calculateTokenBatchSize limit.rpm options.maxBatchSize))
    {action : LeaseAction} (taken : watchStep options limit watch action = some later) :
    later.Traced (calculateTokenBatchSize limit.rpm options.maxBatchSize) := by
  cases action with
  | check owner nowMs => exact (traced.check positive taken).1
  | execute position => exact traced.execute taken
  | deliver position => exact traced.deliver taken
  | resume position => exact (traced.resume taken).1
  | fail position => exact traced.fail taken
  | forget owner => exact traced.forget taken
  | tick ms => exact traced.tick taken

/-- A lease that a waiting check shares, once it came back. -/
theorem shared (traced : watch.Traced batch) {position granted : Nat}
    (present : watch.world.waiting[position]? = some waiting)
    (settled : watch.world.settled waiting = some granted) :
    (batch = 0 → granted = 0) ∧
      (granted = 0 → watch.told position waiting = true ∨ batch = 0) := by
  have inside : position < watch.began.length := by
    rw [traced.paired]
    exact (List.getElem?_eq_some_iff.mp present).1
  have counted := List.getElem?_eq_getElem inside
  obtain ⟨number, lease, owner, shares, found, mine, owned, since, told⟩ :=
    traced.waits position waiting _ present counted
  have phase : lease.phase = .settled granted := by
    simp only [LeaseWorld.settled, shares, found, Option.bind_some] at settled
    split at settled
    next amount same => rw [same, Option.some.inj settled]
    next => cases settled
  constructor
  · exact (traced.sound.leases lease (List.mem_of_getElem? found)).settled granted phase
  · rintro rfl
    obtain more | empty := told phase
    · exact .inl (by simp [Watch.told, counted, owned, more])
    · exact .inr empty

/-- A check that goes on in place is refused only where a lease brought nothing. -/
theorem justified
    (traced : watch.Traced (calculateTokenBatchSize limit.rpm options.maxBatchSize))
    (earlier : watch.Justified) {action : LeaseAction}
    (steady : Steady options limit watch action)
    (taken : watchStep options limit watch action = some later) : later.Justified := by
  by_cases goes : ∃ position, action = .resume position
  · obtain ⟨position, rfl⟩ := goes
    obtain ⟨_, waiting, granted, state, present, settled, held, ends⟩ := traced.resume taken
    obtain ⟨refused, refusals⟩ | ⟨_, refusals⟩ := ends
    · rw [Watch.Justified, refusals]
      have told : watch.told position waiting = true := by
        by_contra silent
        obtain ⟨same, some'⟩ :=
          steady waiting present state held (Bool.not_eq_true _ ▸ silent)
        obtain other | ⟨_, nothing⟩ := refused
        · exact other same
        · obtain told | empty := (traced.shared present settled).2 nothing
          · exact silent told
          · omega
      exact List.forall_mem_cons.mpr ⟨told, earlier⟩
    · rw [Watch.Justified, refusals]
      exact earlier
  · rw [Watch.Justified, refusals_kept (fun position same => goes ⟨position, same⟩) taken]
    exact earlier

/-- A check that goes on elsewhere, or in batches of nothing, is refused all the same. -/
theorem unjustified
    (traced : watch.Traced (calculateTokenBatchSize limit.rpm options.maxBatchSize))
    {action : LeaseAction} (unsteady : ¬ Steady options limit watch action)
    (taken : watchStep options limit watch action = some later) : ¬ later.Justified := by
  obtain ⟨position, rfl⟩ : ∃ position, action = .resume position := by
    cases action with
    | resume position => exact ⟨position, rfl⟩
    | _ => exact absurd trivial unsteady
  unfold Steady at unsteady
  push Not at unsteady
  obtain ⟨waiting, present, state, held, silent, moved⟩ := unsteady
  obtain ⟨_, other, granted, now, present', settled, held', ends⟩ := traced.resume taken
  obtain rfl : waiting = other := Option.some.inj (present.symm.trans present')
  obtain rfl : state = now := Option.some.inj (held.symm.trans held')
  intro justified
  obtain ⟨_, refusals⟩ | ⟨goes, _⟩ := ends
  · have told := justified (watch.told position waiting) (by simp [refusals])
    rw [silent] at told
    cases told
  · apply goes
    by_cases same : state.bucketIndex = waiting.bucketIndex
    · have empty : calculateTokenBatchSize limit.rpm options.maxBatchSize = 0 :=
        Nat.le_zero.mp (moved same)
      exact .inr ⟨(traced.sound.states _ state held).empty empty,
        (traced.shared present settled).1 empty⟩
    · exact .inl same

/-- Nothing was asked yet. -/
theorem start (batch : Nat) : Watch.Traced batch {} where
  sound := ⟨nofun, nofun⟩
  owned := rfl
  ours := nofun
  paired := rfl
  waits := nofun

end Watch.Traced

end Watching

/-- A limiter refuses a check only after a lease call that came back with nothing, as long as every
check that goes on finds its state in the bucket it began in, and batches are not empty. -/
theorem refused_told_iff (options : ApiRateLimiterOptions) (limit : RateLimit)
    (positive : 0 < limit.rpm) :
    (∀ watch, Reaches (watchStep options limit) (Steady options limit) {} watch →
      watch.Justified) ∧
    ∀ watch action next, Reaches (watchStep options limit) anyStep {} watch →
      watchStep options limit watch action = some next → ¬ Steady options limit watch action →
      ¬ next.Justified := by
  have traced : ∀ watch, Reaches (watchStep options limit) anyStep {} watch →
      watch.Traced (calculateTokenBatchSize limit.rpm options.maxBatchSize) := fun watch run =>
    run.invariant (.start _) fun _ _ _ traced _ taken => traced.step positive taken
  constructor
  · intro watch run
    have known : ∀ reached, Reaches (watchStep options limit) (Steady options limit) {} reached →
        reached.Traced (calculateTokenBatchSize limit.rpm options.maxBatchSize) :=
      fun reached earlier => traced reached (earlier.weaken fun _ _ _ => trivial)
    refine run.invariant_given known nofun ?_
    intro before action after known earlier steady taken
    exact known.justified earlier steady taken
  · intro watch action next run taken unsteady
    exact (traced watch run).unjustified unsteady taken

/-- The watch after some steps, under a limit of one request a minute. -/
def watched (actions : List LeaseAction) : Watch :=
  (perform (watchStep {} { rpm := 1 }) {} actions).getD {}

/-- A check waits for its lease, and another one comes in the next bucket before it goes on. -/
def acrossBuckets : List LeaseAction :=
  [.check 0 59_999, .check 0 60_000, .execute 0, .deliver 0, .resume 0]

/-- The first of the two checks is refused, though its lease was granted. -/
theorem refused_untold : ¬ ∀ options limit watch, 0 < limit.rpm →
    Reaches (watchStep options limit) anyStep {} watch → watch.Justified := by
  intro always
  have run : Reaches (watchStep {} { rpm := 1 }) anyStep {} (watched acrossBuckets) :=
    reaches_any_performed acrossBuckets (by decide +kernel)
  have untold : false ∈ (watched acrossBuckets).refusals := by decide +kernel
  exact nomatch always _ _ _ (by decide) run false untold

/-- One request passes, and the next one is refused once the server said that the window is
spent. -/
def withinBucket : List LeaseAction :=
  [.check 0 0, .execute 0, .deliver 0, .resume 0, .check 0 1, .execute 1, .deliver 1, .resume 0]

/-- Within a bucket the refusal is justified; across buckets it is not. -/
theorem refused_told_run :
    (watched withinBucket).refusals = [true] ∧ (watched withinBucket).Justified ∧
      ¬ (watched acrossBuckets).Justified := by
  have within : Reaches (watchStep {} { rpm := 1 }) (Steady {} { rpm := 1 }) {}
      (watched withinBucket) :=
    reaches_performed withinBucket (by decide +kernel) (by decide +kernel)
  have waits : Reaches (watchStep {} { rpm := 1 }) anyStep {} (watched acrossBuckets.dropLast) :=
    reaches_any_performed acrossBuckets.dropLast (by decide +kernel)
  have judged := refused_told_iff {} { rpm := 1 } (by decide)
  refine ⟨by decide +kernel, judged.1 _ within, ?_⟩
  exact judged.2 _ (.resume 0) _ waits rfl (by decide +kernel)

end Notifkit.RateLimiter
