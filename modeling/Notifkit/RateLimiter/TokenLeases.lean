import Mathlib.Algebra.BigOperators.Group.List.Basic
import Notifkit.RateLimiter.ApiRateLimiter

/-!
# No more than the limit

Every token of a bucket is in one place: it was spent on a request of the bucket, it lies in the
state of an instance that is in the bucket, or it is on its way in a lease that was answered. No
step makes one, but the script, and the script grants what the counter leaves. So the requests of a
bucket that are let pass are within the limit, whatever is interleaved.

The weighted share of the bucket before is another matter. The script computes it in rounded
arithmetic, and a product that should be an integer may come out just below it.
-/

namespace Notifkit.RateLimiter

open Double Runs

variable {options : ApiRateLimiterOptions} {limit : RateLimit} {world next : LeaseWorld}

section Sums

variable {α : Type}

/-- The sum of what the elements of a list are worth. -/
def tally (worth : α → Nat) (list : List α) : Nat := (list.map worth).sum

@[simp] theorem tally_append (worth : α → Nat) (one two : List α) :
    tally worth (one ++ two) = tally worth one + tally worth two := by
  simp [tally]

@[simp] theorem tally_singleton (worth : α → Nat) (element : α) :
    tally worth [element] = worth element := by
  simp [tally]

/-- One element gives way to another. -/
theorem tally_set (worth : α → Nat) {list : List α} {position : Nat} {old : α} (new : α)
    (present : list[position]? = some old) :
    tally worth (list.set position new) + worth old = tally worth list + worth new := by
  induction list generalizing position with
  | nil => cases present
  | cons head rest inductionHypothesis =>
    cases position with
    | zero =>
      obtain rfl : head = old := Option.some.inj present
      simp only [tally, List.set_cons_zero, List.map_cons, List.sum_cons]
      omega
    | succ position =>
      have later := inductionHypothesis present
      simp only [tally, List.set_cons_succ, List.map_cons, List.sum_cons] at later ⊢
      omega

end Sums

/-- The tokens of a state for a bucket. -/
def LeaseState.worth (bucket : BucketIndex) (state : LeaseState) : Nat :=
  if state.bucketIndex = bucket then state.tokens else 0

/-- The tokens of a bucket that a lease is bringing. -/
def Lease.worth (bucket : BucketIndex) (lease : Lease) : Nat :=
  match lease.phase with
  | .answered granted => if lease.bucketIndex = bucket then granted.toNat else 0
  | _ => 0

/-- The tokens of a bucket, wherever they are. -/
def LeaseWorld.tokens (world : LeaseWorld) (bucket : BucketIndex) : Nat :=
  world.passed bucket + tally (LeaseState.worth bucket) world.states +
    tally (Lease.worth bucket) world.inFlight

/-- No answer is negative, and no token of a bucket exists that was not granted in it. -/
structure LeaseWorld.Backed (world : LeaseWorld) : Prop where
  answers : ∀ lease ∈ world.inFlight, ∀ granted, lease.phase = .answered granted → 0 ≤ granted
  tokens : ∀ bucket, world.tokens bucket ≤ world.granted bucket

/-- A state with its leases, after some steps of its instance: some tokens were spent, and only
leases that are under way were added. -/
structure Leasing.Follows (leasing before : Leasing) (spent : BucketIndex → Nat) : Prop where
  tokens : ∀ bucket, leasing.1.worth bucket + spent bucket ≤ before.1.worth bucket
  leases : ∃ sent : List Lease, leasing.2 = before.2 ++ sent ∧ ∀ lease ∈ sent, lease.phase = .sent

theorem Leasing.Follows.refl (leasing : Leasing) : leasing.Follows leasing fun _ => 0 :=
  ⟨fun _ => Nat.le_refl _, [], (List.append_nil _).symm, nofun⟩

theorem Leasing.Follows.trans {first second third : Leasing} {early late : BucketIndex → Nat}
    (follows : second.Follows first early) (follows' : third.Follows second late) :
    third.Follows first fun bucket => early bucket + late bucket := by
  obtain ⟨tokens, sent, same, ways⟩ := follows
  obtain ⟨tokens', sent', same', ways'⟩ := follows'
  constructor
  · intro bucket
    have one := tokens bucket
    have two := tokens' bucket
    omega
  · refine ⟨sent ++ sent', by rw [same', same, List.append_assoc], ?_⟩
    intro lease member
    rcases List.mem_append.mp member with old | new
    · exact ways lease old
    · exact ways' lease new

/-- A refill spends nothing. -/
theorem Leasing.refill_follows (leasing : Leasing) (object nowMs : Nat) (bucket : BucketIndex) :
    (leasing.refill object nowMs bucket).Follows leasing fun _ => 0 := by
  unfold refill
  split
  · exact .refl leasing
  · refine ⟨fun _ => Nat.le_refl _, _, rfl, ?_⟩
    simp

/-- A token that is spent is one less for the bucket of the state. -/
theorem Leasing.spend_follows {leasing : Leasing} (some' : 0 < leasing.1.tokens)
    (object nowMs : Nat) (bucket : BucketIndex) :
    (leasing.spend object nowMs bucket).Follows leasing fun other =>
      if other = leasing.1.bucketIndex then 1 else 0 := by
  have taken : Leasing.Follows ({ leasing.1 with tokens := leasing.1.tokens - 1 }, leasing.2)
      leasing fun other => if other = leasing.1.bucketIndex then 1 else 0 := by
    refine ⟨fun other => ?_, [], (List.append_nil _).symm, nofun⟩
    simp only [LeaseState.worth, eq_comm]
    split <;> omega
  unfold spend
  dsimp only
  split
  · have refills := taken.trans (Leasing.refill_follows _ object nowMs bucket)
    simpa using refills
  · exact taken

/-- A new window takes the tokens away. -/
theorem LeaseWorld.rollover_follows (options : ApiRateLimiterOptions) (limit : RateLimit)
    (leasing : Leasing) (object nowMs : Nat) (bucket : BucketIndex) :
    (rollover options limit leasing object nowMs bucket).Follows leasing fun _ => 0 := by
  unfold rollover
  split
  · have emptied : Leasing.Follows (⟨bucket, 0,
        calculateTokenBatchSize limit.rpm options.maxBatchSize, none⟩, leasing.2) leasing
        fun _ => 0 := by
      refine ⟨fun other => ?_, [], (List.append_nil _).symm, nofun⟩
      simp [LeaseState.worth]
    have refills := emptied.trans (Leasing.refill_follows _ object nowMs bucket)
    simpa using refills
  · exact .refl leasing

/-- After a rollover a state is in the bucket of the check. -/
theorem LeaseWorld.rollover_bucket (leasing : Leasing) (object nowMs : Nat)
    (bucket : BucketIndex) :
    (rollover options limit leasing object nowMs bucket).1.bucketIndex = bucket := by
  unfold rollover
  split
  · unfold Leasing.refill
    rfl
  next same => exact not_not.mp same

/-- Leases under way bring nothing yet. -/
theorem tally_sent {sent : List Lease} (under : ∀ lease ∈ sent, lease.phase = .sent)
    (bucket : BucketIndex) : tally (Lease.worth bucket) sent = 0 := by
  have nothing : sent.map (Lease.worth bucket) = sent.map fun _ => 0 := by
    apply List.map_congr_left
    intro lease member
    rw [Lease.worth, under lease member]
  simp [tally, nothing]

/-- The tokens spent on requests of one state are backed. -/
theorem LeaseWorld.Backed.stored (backed : world.Backed) {object : Nat} {state : LeaseState}
    {leasing : Leasing} {spent : BucketIndex → Nat} (present : world.states[object]? = some state)
    (follows : leasing.Follows (state, world.inFlight) spent)
    (inFlight : next.inFlight = leasing.2) (states : next.states = world.states.set object leasing.1)
    (granted : next.granted = world.granted)
    (passed : ∀ bucket, next.passed bucket = world.passed bucket + spent bucket) :
    next.Backed := by
  obtain ⟨fewer, sent, same, ways⟩ := follows
  constructor
  · rw [inFlight, same]
    intro lease member amount answered
    rcases List.mem_append.mp member with old | new
    · exact backed.answers lease old amount answered
    · exact nomatch (ways lease new).symm.trans answered
  · intro bucket
    have old := backed.tokens bucket
    have less := fewer bucket
    have moved := tally_set (LeaseState.worth bucket) leasing.1 present
    rw [LeaseWorld.tokens] at old
    rw [LeaseWorld.tokens, inFlight, states, granted, passed, same, tally_append,
      tally_sent ways]
    dsimp only at less ⊢
    omega

/-- A state that is made for an instance has no tokens. -/
theorem LeaseWorld.held_backed (options : ApiRateLimiterOptions) (limit : RateLimit)
    (backed : world.Backed) (owner : Nat) (bucket : BucketIndex) :
    (world.held options limit owner bucket).1.Backed := by
  unfold held
  split
  · exact backed
  · refine ⟨backed.answers, fun other => ?_⟩
    have old := backed.tokens other
    simp only [LeaseWorld.tokens, tally_append, tally_singleton, LeaseState.worth] at old ⊢
    split <;> omega

/-- A check spends a token that is there, or none. -/
theorem LeaseWorld.check_backed (backed : world.Backed) {owner nowMs : Nat}
    (taken : world.check options limit owner nowMs = some next) : next.Backed := by
  unfold check at taken
  split at taken
  · obtain rfl := Option.some.inj taken
    exact backed
  · dsimp only at taken
    have before := held_backed options limit backed owner (nowMs / options.windowMs : Nat)
    generalize world.held options limit owner (nowMs / options.windowMs : Nat) = made at taken before
    obtain ⟨held, object⟩ := made
    obtain ⟨state, present, rfl⟩ := Option.map_eq_some_iff.mp taken
    have rolls := rollover_follows options limit (state, held.inFlight) object nowMs
      (nowMs / options.windowMs : Nat)
    split
    next some' =>
      refine before.stored present (rolls.trans (Leasing.spend_follows some' _ _ _)) rfl rfl rfl ?_
      intro bucket
      simp only [pass, store, rollover_bucket]
      split
      next same => rw [same, Nat.zero_add]
      next => omega
    next =>
      refine before.stored present (rolls.trans (Leasing.refill_follows _ _ _ _)) rfl rfl rfl ?_
      exact fun _ => rfl

/-- The script never answers with less than nothing. -/
theorem leaseApiRateLimit_nonneg {counters after : Counters} {clock now maxReqs requested : Nat}
    {current previous : BucketIndex} {granted : Int}
    (answered : leaseApiRateLimit counters clock current previous now options.windowMs maxReqs
      requested = (after, granted)) : 0 ≤ granted := by
  unfold leaseApiRateLimit at answered
  rw [if_neg options.positive.ne'] at answered
  split at answered
  · exact (Prod.mk.inj answered).2.le
  · dsimp only at answered
    split at answered
    · exact (Prod.mk.inj answered).2.le
    · exact (Prod.mk.inj answered).2 ▸ Int.natCast_nonneg _

/-- What the server does for a lease. -/
theorem LeaseWorld.execute_eq {position : Nat}
    (taken : world.execute options limit position = some next) :
    ∃ lease counters granted, world.inFlight[position]? = some lease ∧ lease.phase = .sent ∧
      leaseApiRateLimit world.counters world.clock lease.bucketIndex (lease.bucketIndex - 1)
        lease.nowMs options.windowMs limit.rpm lease.requested = (counters, granted) ∧
      next = { world with
        counters := counters
        inFlight := world.inFlight.set position { lease with phase := .answered granted }
        granted := fun other => if other = lease.bucketIndex then
          world.granted lease.bucketIndex + granted.toNat else world.granted other
        log := ⟨lease.nowMs, world.granted (lease.bucketIndex - 1), granted.toNat,
          world.granted lease.bucketIndex + granted.toNat⟩ :: world.log } := by
  obtain ⟨lease, present, taken⟩ := Option.bind_eq_some_iff.mp taken
  obtain ⟨sent, taken⟩ := Option.ite_none_right_eq_some.mp taken
  exact ⟨lease, _, _, present, sent, rfl, (Option.some.inj taken).symm⟩

/-- What the script grants is granted in the bucket of the lease. -/
theorem LeaseWorld.execute_backed (backed : world.Backed) {position : Nat}
    (taken : world.execute options limit position = some next) : next.Backed := by
  obtain ⟨lease, counters, granted, present, sent, answered, rfl⟩ := execute_eq taken
  have nonneg := leaseApiRateLimit_nonneg answered
  constructor
  · intro other member amount answered
    rcases List.mem_or_eq_of_mem_set member with old | rfl
    · exact backed.answers other old amount answered
    · obtain rfl := LeasePhase.answered.inj answered
      exact nonneg
  · intro bucket
    have old := backed.tokens bucket
    have moved := tally_set (Lease.worth bucket) { lease with phase := .answered granted } present
    rw [Lease.worth, Lease.worth, sent] at moved
    simp only [LeaseWorld.tokens] at old moved ⊢
    by_cases same : lease.bucketIndex = bucket
    · subst same
      simp only [if_true] at moved ⊢
      omega
    · rw [if_neg same] at moved
      rw [if_neg (Ne.symm same)]
      omega

/-- A lease that was answered is credited at most what it was granted. -/
theorem LeaseWorld.deliver_backed (backed : world.Backed) {position : Nat}
    (taken : world.deliver position = some next) : next.Backed := by
  obtain ⟨lease, present, taken⟩ := Option.bind_eq_some_iff.mp taken
  split at taken
  next granted answered =>
    have nonneg := backed.answers lease (List.mem_of_getElem? present) granted answered
    rw [if_neg (by omega)] at taken
    obtain ⟨state, held, taken⟩ := Option.bind_eq_some_iff.mp taken
    obtain rfl := Option.some.inj taken
    constructor
    · intro other member amount answered'
      rcases List.mem_or_eq_of_mem_set member with old | rfl
      · exact backed.answers other old amount answered'
      · cases answered'
    · intro bucket
      have old := backed.tokens bucket
      have leases := tally_set (Lease.worth bucket)
        { lease with phase := .settled granted.toNat } present
      have states := tally_set (LeaseState.worth bucket) { state with
        tokens := if state.bucketIndex = lease.bucketIndex then state.tokens + granted.toNat
          else state.tokens
        inFlightLease := if state.inFlightLease = some position then none
          else state.inFlightLease } held
      -- what the state gains is what the lease was bringing
      have brings : Lease.worth bucket lease =
          if lease.bucketIndex = bucket then granted.toNat else 0 := by
        rw [Lease.worth, answered]
      have brought : Lease.worth bucket { lease with phase := .settled granted.toNat } = 0 := rfl
      have gains : (if state.bucketIndex = bucket then
            (if state.bucketIndex = lease.bucketIndex then state.tokens + granted.toNat
              else state.tokens)
          else 0) ≤ LeaseState.worth bucket state + Lease.worth bucket lease := by
        rw [LeaseState.worth, brings]
        split_ifs with here there same same <;> first | omega | exact absurd (there.symm.trans here) same
      rw [brought] at leases
      simp only [LeaseWorld.tokens] at old ⊢
      generalize tally (LeaseState.worth bucket) (world.states.set _ _) = later at states ⊢
      simp only [LeaseState.worth] at states gains
      omega
  next => cases taken

/-- A check that goes on spends a token of its own bucket, or none. -/
theorem LeaseWorld.resume_backed (backed : world.Backed) {position : Nat}
    (taken : world.resume position = some next) : next.Backed := by
  obtain ⟨waiting, _, taken⟩ := Option.bind_eq_some_iff.mp taken
  obtain ⟨granted, _, taken⟩ := Option.bind_eq_some_iff.mp taken
  obtain ⟨state, present, taken⟩ := Option.bind_eq_some_iff.mp taken
  dsimp only at taken
  split at taken
  · obtain rfl := Option.some.inj taken
    exact ⟨backed.answers, backed.tokens⟩
  next same =>
    split at taken
    next some' =>
      obtain rfl := Option.some.inj taken
      have spends : Leasing.Follows ({ state with tokens := state.tokens - 1 }, world.inFlight)
          (state, world.inFlight) fun bucket => if bucket = waiting.bucketIndex then 1 else 0 := by
        refine ⟨fun bucket => ?_, [], (List.append_nil _).symm, nofun⟩
        simp only [LeaseState.worth, not_not.mp same, eq_comm]
        split <;> omega
      refine backed.stored present spends rfl rfl rfl ?_
      · intro bucket
        simp only [pass, store]
        split
        next same => rw [same]
        next => rfl
    next =>
      split at taken
      · obtain rfl := Option.some.inj taken
        exact ⟨backed.answers, backed.tokens⟩
      · obtain rfl := Option.some.inj taken
        exact backed.stored present (Leasing.refill_follows _ _ _ _) rfl rfl rfl fun _ => rfl

/-- The counter of a bucket has not expired. -/
def Counters.alive (counters : Counters) (clock : Nat) (bucket : BucketIndex) : Bool :=
  (counters.cell bucket).all fun cell => clock ≤ cell.2

/-- The server does not fail, and runs a lease while the counters it reads are kept: for two windows
and a minute after their first count. -/
def serverKeeps (world : LeaseWorld) : LeaseAction → Bool
  | .execute position => (world.inFlight[position]?).all fun lease =>
      world.counters.alive world.clock lease.bucketIndex &&
        world.counters.alive world.clock (lease.bucketIndex - 1)
  | .fail _ => false
  | _ => true

/-- At a lease, the estimate in rounded arithmetic is not below the exact one. -/
def estimatesEnough (options : ApiRateLimiterOptions) (world : LeaseWorld) : LeaseAction → Bool
  | .execute position => (world.inFlight[position]?).all fun lease =>
      let currentCount := world.counters.count world.clock lease.bucketIndex
      let prevCount := world.counters.count world.clock (lease.bucketIndex - 1)
      currentCount + ⌊prevCount * weight lease.nowMs options.windowMs⌋ ≤
        estimated prevCount currentCount lease.nowMs options.windowMs
  | _ => true

/-- What was granted in a bucket is in its counter, and within the limit. -/
structure LeaseWorld.Counted (limit : RateLimit) (world : LeaseWorld) : Prop where
  counters : ∀ bucket, ((world.counters.cell bucket).map Prod.fst).getD 0 = world.granted bucket
  bounded : ∀ bucket, world.granted bucket ≤ limit.rpm

/-- A counter that is alive says what was granted. -/
theorem LeaseWorld.Counted.count (counted : world.Counted limit) {bucket : BucketIndex}
    (alive : world.counters.alive world.clock bucket = true) :
    world.counters.count world.clock bucket = world.granted bucket := by
  rw [← counted.counters bucket, Counters.count, ExpiringStore.get]
  unfold Counters.alive at alive
  cases found : world.counters.cell bucket with
  | none => rfl
  | some cell =>
    rw [found] at alive
    have inTime : world.clock ≤ cell.2 := of_decide_eq_true alive
    simp [inTime]

/-- The estimate is at least the count of the bucket. -/
theorem le_estimated {prevCount currentCount now window : Nat} (small : currentCount ≤ 2 ^ 53) :
    (currentCount : Int) ≤ estimated prevCount currentCount now window := by
  have share : 0 ≤ nearest (prevCount * nearest (weight now window)) := by
    have nonneg : 0 ≤ nearest (weight now window) := by
      apply nearest_nonneg
      unfold weight
      positivity
    exact nearest_nonneg (by positivity)
  rw [estimated, Int.le_floor]
  calc ((currentCount : Int) : Rat) = currentCount := Int.cast_natCast currentCount
    _ = nearest currentCount := (nearest_natCast small).symm
    _ ≤ nearest (nearest (prevCount * nearest (weight now window)) + currentCount) :=
      nearest_mono (by positivity) (by linarith)

/-- What the script grants, the estimate leaves; and the counter then says so. -/
theorem leaseApiRateLimit_grants {counters after : Counters}
    {clock now maxReqs requested : Nat} {current previous : BucketIndex} {granted : Int}
    (alive : counters.alive clock current = true)
    (answered : leaseApiRateLimit counters clock current previous now options.windowMs maxReqs
      requested = (after, granted)) :
    (0 < granted → estimated (counters.count clock previous) (counters.count clock current) now
      options.windowMs + granted ≤ maxReqs) ∧
    ∀ bucket, ((after.cell bucket).map Prod.fst).getD 0 =
      ((counters.cell bucket).map Prod.fst).getD 0 +
        if bucket = current then granted.toNat else 0 := by
  unfold leaseApiRateLimit at answered
  rw [if_neg options.positive.ne'] at answered
  have nothing : ∀ bucket, ((counters.cell bucket).map Prod.fst).getD 0 =
      ((counters.cell bucket).map Prod.fst).getD 0 +
        if bucket = current then (0 : Int).toNat else 0 := fun _ => by simp
  split at answered
  · obtain ⟨rfl, rfl⟩ := Prod.mk.inj answered
    exact ⟨fun some' => absurd some' (lt_irrefl 0), nothing⟩
  · dsimp only at answered
    split at answered
    · obtain ⟨rfl, rfl⟩ := Prod.mk.inj answered
      exact ⟨fun some' => absurd some' (lt_irrefl 0), nothing⟩
    · obtain ⟨rfl, rfl⟩ := Prod.mk.inj answered
      refine ⟨fun _ => by omega, fun bucket => ?_⟩
      rw [Int.toNat_natCast]
      unfold Counters.alive at alive
      unfold Counters.incrby
      split
      next count expiry found =>
        rw [found] at alive
        have inTime : clock ≤ expiry := of_decide_eq_true alive
        by_cases same : bucket = current
        · subst same
          simp [inTime, found]
        · simp [inTime, same]
      next found =>
        by_cases same : bucket = current
        · subst same
          simp [found]
        · simp [same]

/-- Nothing but a lease that is run changes the counters and what was granted. -/
theorem leaseStep_frame {action : LeaseAction} (taken : leaseStep options limit world action = some next)
    (other : ∀ position, action ≠ .execute position) :
    next.counters = world.counters ∧ next.granted = world.granted ∧ next.log = world.log := by
  cases action with
  | check owner nowMs =>
    rw [leaseStep] at taken
    unfold LeaseWorld.check at taken
    split at taken
    · obtain rfl := Option.some.inj taken
      exact ⟨rfl, rfl, rfl⟩
    · obtain ⟨state, _, rfl⟩ := Option.map_eq_some_iff.mp taken
      have same : ∀ bucket, (world.held options limit owner bucket).1.counters = world.counters ∧
          (world.held options limit owner bucket).1.granted = world.granted ∧
          (world.held options limit owner bucket).1.log = world.log := by
        intro bucket
        unfold LeaseWorld.held
        split <;> exact ⟨rfl, rfl, rfl⟩
      dsimp only
      split_ifs <;> exact same _
  | execute position => exact absurd rfl (other position)
  | deliver position =>
    obtain ⟨lease, _, taken⟩ := Option.bind_eq_some_iff.mp taken
    split at taken
    · obtain ⟨state, _, taken⟩ := Option.bind_eq_some_iff.mp taken
      obtain rfl := Option.some.inj taken
      exact ⟨rfl, rfl, rfl⟩
    · cases taken
  | resume position =>
    obtain ⟨waiting, _, taken⟩ := Option.bind_eq_some_iff.mp taken
    obtain ⟨granted, _, taken⟩ := Option.bind_eq_some_iff.mp taken
    obtain ⟨state, _, taken⟩ := Option.bind_eq_some_iff.mp taken
    dsimp only at taken
    split_ifs at taken <;> obtain rfl := Option.some.inj taken <;> exact ⟨rfl, rfl, rfl⟩
  | fail position =>
    obtain ⟨lease, _, taken⟩ := Option.bind_eq_some_iff.mp taken
    obtain ⟨_, taken⟩ := Option.ite_none_right_eq_some.mp taken
    obtain ⟨state, _, taken⟩ := Option.bind_eq_some_iff.mp taken
    obtain rfl := Option.some.inj taken
    exact ⟨rfl, rfl, rfl⟩
  | forget owner =>
    obtain rfl := Option.some.inj taken
    exact ⟨rfl, rfl, rfl⟩
  | tick ms =>
    obtain rfl := Option.some.inj taken
    exact ⟨rfl, rfl, rfl⟩

/-- While the server keeps its counters, no step makes a token, and no bucket is granted more than
the limit. -/
theorem counted_step {action : LeaseAction} (backed : world.Backed) (counted : world.Counted limit)
    (keeps : serverKeeps world action = true)
    (taken : leaseStep options limit world action = some next) :
    next.Backed ∧ next.Counted limit := by
  have kept : (∀ position, action ≠ .execute position) → next.Counted limit := by
    intro other
    obtain ⟨counters, granted, _⟩ := leaseStep_frame taken other
    exact ⟨by rw [counters, granted]; exact counted.counters,
      by rw [granted]; exact counted.bounded⟩
  cases action with
  | check => exact ⟨LeaseWorld.check_backed backed taken, kept nofun⟩
  | execute position =>
    refine ⟨LeaseWorld.execute_backed backed taken, ?_⟩
    obtain ⟨lease, counters, granted, present, sent, answered, rfl⟩ := LeaseWorld.execute_eq taken
    simp only [serverKeeps, present, Option.all_some, Bool.and_eq_true] at keeps
    have grants := leaseApiRateLimit_grants keeps.1 answered
    have nonneg := leaseApiRateLimit_nonneg answered
    constructor
    · intro bucket
      have now := grants.2 bucket
      rw [counted.counters] at now
      rw [now]
      by_cases same : bucket = lease.bucketIndex
      · simp [same]
      · simp [same]
    · intro bucket
      dsimp only
      split
      next same =>
        have count := counted.count keeps.1
        have bound := counted.bounded lease.bucketIndex
        rcases nonneg.eq_or_lt with rfl | some'
        · exact bound
        · have leaves := grants.1 some'
          have enough : (world.granted lease.bucketIndex : Int) ≤
              estimated (world.counters.count world.clock (lease.bucketIndex - 1))
                (world.granted lease.bucketIndex) lease.nowMs options.windowMs :=
            le_estimated (bound.trans limit.safe)
          rw [count] at leaves
          omega
      next => exact counted.bounded bucket
  | deliver => exact ⟨LeaseWorld.deliver_backed backed taken, kept nofun⟩
  | resume => exact ⟨LeaseWorld.resume_backed backed taken, kept nofun⟩
  | fail => cases keeps
  | forget =>
    obtain rfl := Option.some.inj taken
    exact ⟨⟨backed.answers, backed.tokens⟩, kept nofun⟩
  | tick =>
    obtain rfl := Option.some.inj taken
    exact ⟨⟨backed.answers, backed.tokens⟩, kept nofun⟩

/-- What was granted in a bucket at a lease, with the weighted bucket before in exact arithmetic,
is within the limit. -/
def LeaseRecord.Within (options : ApiRateLimiterOptions) (limit : RateLimit)
    (record : LeaseRecord) : Prop :=
  0 < record.granted →
    record.total + ⌊record.prevCount * weight record.nowMs options.windowMs⌋ ≤ (limit.rpm : Int)

/-- Where the estimate is not below the exact one, a lease keeps to the exact limit. -/
theorem recorded_step {action : LeaseAction} (counted : world.Counted limit)
    (records : ∀ record ∈ world.log, record.Within options limit)
    (keeps : serverKeeps world action = true)
    (enough : estimatesEnough options world action = true)
    (taken : leaseStep options limit world action = some next) :
    ∀ record ∈ next.log, record.Within options limit := by
  by_cases lease : ∃ position, action = .execute position
  · obtain ⟨position, rfl⟩ := lease
    obtain ⟨lease, counters, granted, present, sent, answered, rfl⟩ := LeaseWorld.execute_eq taken
    simp only [serverKeeps, present, Option.all_some, Bool.and_eq_true] at keeps
    simp only [estimatesEnough, present, Option.all_some, decide_eq_true_eq, counted.count keeps.1,
      counted.count keeps.2] at enough
    have grants := (leaseApiRateLimit_grants keeps.1 answered).1
    rw [counted.count keeps.1, counted.count keeps.2] at grants
    intro record member
    rcases List.mem_cons.mp member with rfl | old
    · intro some'
      have positive : 0 < granted := Int.pos_iff_toNat_pos.mpr some'
      have leaves := grants positive
      dsimp only
      push_cast
      omega
    · exact records record old
  · have frame := leaseStep_frame taken fun position same => lease ⟨position, same⟩
    rw [frame.2.2]
    exact records

/-- No token was granted yet. -/
theorem counted_start (limit : RateLimit) : leaseStart.Backed ∧ leaseStart.Counted limit :=
  ⟨⟨nofun, fun _ => Nat.le_refl _⟩, fun _ => rfl, fun _ => Nat.zero_le _⟩

/-- In every run of any number of instances, in which the server does not fail and keeps its
counters, the requests of a bucket that are let pass are within the limit. Where moreover no
estimate comes out below the exact one, every lease that grants something keeps the bucket with the
weighted bucket before within the limit. -/
theorem api_limit_kept (options : ApiRateLimiterOptions) (limit : RateLimit) (world : LeaseWorld) :
    (Reaches (leaseStep options limit) (fun world action => serverKeeps world action = true)
      leaseStart world → ∀ bucket, world.passed bucket ≤ limit.rpm) ∧
    (Reaches (leaseStep options limit) (fun world action => serverKeeps world action = true ∧
        estimatesEnough options world action = true) leaseStart world →
      (∀ bucket, world.passed bucket ≤ limit.rpm) ∧
        ∀ record ∈ world.log, record.Within options limit) := by
  have passes : Reaches (leaseStep options limit)
      (fun world action => serverKeeps world action = true) leaseStart world →
      ∀ bucket, world.passed bucket ≤ limit.rpm := by
    intro run bucket
    obtain ⟨backed, counted⟩ := run.invariant (counted_start limit)
      fun _ _ _ holds keeps taken => counted_step holds.1 holds.2 keeps taken
    have tokens := backed.tokens bucket
    have bound := counted.bounded bucket
    rw [LeaseWorld.tokens] at tokens
    omega
  refine ⟨passes, fun run => ⟨passes (run.weaken fun _ _ both => both.1), ?_⟩⟩
  have both : (world.Backed ∧ world.Counted limit) ∧
      ∀ record ∈ world.log, record.Within options limit := by
    apply run.invariant (And.intro (counted_start limit) nofun)
    rintro before action after ⟨⟨backed, counted⟩, records⟩ ⟨keeps, enough⟩ taken
    exact ⟨counted_step backed counted keeps taken,
      recorded_step counted records keeps enough taken⟩
  exact both.2

/-- The world after some steps, under a window of 67 seconds and a limit of 67. -/
def afterLeases (actions : List LeaseAction) : LeaseWorld :=
  (perform (leaseStep { windowMs := 67_000 } { rpm := 67 }) leaseStart actions).getD leaseStart

/-- An instance checks a request at an instant, and its lease is run. -/
def leased (owner nowMs : Nat) : List LeaseAction := [.check owner nowMs, .execute owner]

/-- Seven instances lease all of the first bucket. -/
def firstBucket : List LeaseAction :=
  leased 0 0 ++ leased 1 0 ++ leased 2 0 ++ leased 3 0 ++ leased 4 0 ++ leased 5 0 ++ leased 6 0

/-- An instance spends a token it waited for and one that was left; half of the next bucket later
another one leases. -/
def halfway : List LeaseAction :=
  firstBucket ++ [LeaseAction.deliver 0, .resume 0, .check 0 1000] ++ leased 7 100_500

/-- Two requests pass in the first bucket, and the lease halfway through the next finds half of
it. -/
theorem api_limit_kept_run : ∃ world : LeaseWorld,
    Reaches (leaseStep { windowMs := 67_000 } { rpm := 67 })
      (fun world action => serverKeeps world action = true ∧
        estimatesEnough { windowMs := 67_000 } world action = true) leaseStart world ∧
      world.passed 0 = 2 ∧ world.granted 0 = 67 ∧ world.granted 1 = 10 ∧
      (∀ bucket, world.passed bucket ≤ 67) ∧
      ∀ record ∈ world.log, record.Within { windowMs := 67_000 } { rpm := 67 } := by
  have run : Reaches (leaseStep { windowMs := 67_000 } { rpm := 67 })
      (fun world action => serverKeeps world action = true ∧
        estimatesEnough { windowMs := 67_000 } world action = true) leaseStart
      (afterLeases halfway) :=
    reaches_performed halfway (by decide +kernel) (by decide +kernel)
  have kept : Reaches (leaseStep { windowMs := 67_000 } { rpm := 67 })
      (fun world action => serverKeeps world action = true) leaseStart (afterLeases halfway) :=
    run.weaken fun _ _ both => both.1
  exact ⟨_, run, by decide +kernel, by decide +kernel, by decide +kernel,
    (api_limit_kept _ _ _).1 kept, ((api_limit_kept _ _ _).2 run).2⟩

instance (options : ApiRateLimiterOptions) (limit : RateLimit) (record : LeaseRecord) :
    Decidable (record.Within options limit) :=
  inferInstanceAs (Decidable (_ → _))

/-- Nine seconds into the next bucket, 58 of the 67 requests still count. The product of 67 and the
rounded weight 58/67 comes out below 58, and ten tokens are granted where nine are left. -/
theorem estimate_falls_short : ∃ options limit world,
    Reaches (leaseStep options limit) (fun world action => serverKeeps world action = true)
      leaseStart world ∧ ¬ ∀ record ∈ world.log, record.Within options limit := by
  have run : Reaches (leaseStep { windowMs := 67_000 } { rpm := 67 })
      (fun world action => serverKeeps world action = true) leaseStart
      (afterLeases (firstBucket ++ leased 7 76_000)) :=
    reaches_performed (firstBucket ++ leased 7 76_000) (by decide +kernel) (by decide +kernel)
  refine ⟨_, _, _, run, fun within => ?_⟩
  have last : (⟨76_000, 67, 10, 10⟩ : LeaseRecord) ∈
      (afterLeases (firstBucket ++ leased 7 76_000)).log := by decide +kernel
  exact absurd (within _ last) (by decide +kernel)

end Notifkit.RateLimiter
