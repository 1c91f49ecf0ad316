import Mathlib.Data.Rat.Floor
import Notifkit.Foundations.Doubles
import Notifkit.Foundations.ExpiringStore
import Notifkit.Foundations.Runs

/-!
# Tokens leased in batches

The API server takes tokens for the requests of a project from a counter that all its instances
share, a batch at a time, and spends them without asking again. The script that leases them weighs
the counter of the bucket before by how much of that bucket still lies in the sliding window.

An instance is one thread: a check runs until it waits for a lease, a lease that comes back is
credited, and a check that waited goes on, each at one go. Any of these may come between any other
two. The checks here are those of one project; its keys and its lease states are its own.
-/

namespace Notifkit.RateLimiter

open Double

/-- The options of a limiter; the window is never empty. -/
structure ApiRateLimiterOptions where
  windowMs : Nat := 60_000
  maxBatchSize : Nat := 500
  positive : 0 < windowMs := by decide

/-- A limit, which is an integer that a number holds exactly. -/
structure RateLimit where
  rpm : Nat
  safe : rpm ≤ 2 ^ 53 := by decide

/-- About five seconds' worth of the limit. -/
def calculateTokenBatchSize (limitRpm maxBatchSize : Nat) : Nat :=
  if limitRpm = 0 then 0
  else if limitRpm ≤ 10 then 1
  else if limitRpm ≤ 60 then 5
  else
    let perSecond := nearest (limitRpm / 60)
    min (max ⌈nearest (perSecond * 5)⌉₊ 10) maxBatchSize

/-- A bucket: the window an instant lies in. -/
abbrev BucketIndex := Int

/-- The counters of the buckets, with the last instants of their keys. -/
abbrev Counters := ExpiringStore BucketIndex Nat

/-- The count of a bucket, at an instant of the server. -/
def Counters.count (counters : Counters) (clock : Nat) (bucket : BucketIndex) : Nat :=
  (counters.get clock bucket).getD 0

/-- `INCRBY`, and an expiry where the counter is new. -/
def Counters.incrby (counters : Counters) (clock : Nat) (bucket : BucketIndex)
    (toGrant ttl : Nat) : Counters :=
  match counters.cell bucket with
  | some (count, expiry) =>
    if clock ≤ expiry then
      let newCount := count + toGrant
      counters.set bucket newCount (if newCount = toGrant then clock + ttl * 1000 else expiry)
    else counters.set bucket toGrant (clock + ttl * 1000)
  | none => counters.set bucket toGrant (clock + ttl * 1000)

/-- What of the bucket before still lies in the window. -/
def weight (now window : Nat) : Rat := (window - now % window : Nat) / (window : Rat)

/-- The requests of the window, as the script computes them. -/
def estimated (prevCount currentCount now window : Nat) : Int :=
  ⌊nearest (nearest (prevCount * nearest (weight now window)) + currentCount)⌋

/-- The script `LUA_LEASE_API_RATE_LIMIT`, at an instant of the server. -/
def leaseApiRateLimit (counters : Counters) (clock : Nat) (currentKey prevKey : BucketIndex)
    (now window maxReqs requested : Nat) : Counters × Int :=
  let ttl := (window * 2 + 999) / 1000 + 60
  if window = 0 then (counters, -1)
  else if maxReqs = 0 then (counters, 0)
  else
    let currentCount := counters.count clock currentKey
    let prevCount := counters.count clock prevKey
    let available : Int := maxReqs - estimated prevCount currentCount now window
    if available ≤ 0 then (counters, 0)
    else
      let toGrant := min requested available.toNat
      (counters.incrby clock currentKey toGrant ttl, toGrant)

/-- What an instance holds for a project. -/
structure LeaseState where
  bucketIndex : BucketIndex
  tokens : Nat
  batchSize : Nat
  inFlightLease : Option Nat
deriving DecidableEq

/-- Where a lease stands: sent to the server, answered, or credited to its state. -/
inductive LeasePhase where
  | sent
  | answered (granted : Int)
  | settled (granted : Nat)
deriving DecidableEq

/-- A lease, and the state it is for. -/
structure Lease where
  state : Nat
  bucketIndex : BucketIndex
  nowMs : Nat
  requested : Nat
  phase : LeasePhase := .sent
deriving DecidableEq

/-- A check that waits for a lease. -/
structure Waiting where
  state : Nat
  bucketIndex : BucketIndex
  nowMs : Nat
  lease : Option Nat
deriving DecidableEq

/-- What was seen at a lease: the counter of the bucket before, and what had been granted in the
bucket afterwards. -/
structure LeaseRecord where
  nowMs : Nat
  prevCount : Nat
  granted : Nat
  total : Nat
deriving DecidableEq

/-- The shared counters, the states of all instances, the leases and the checks that wait. Beside
them stands what was granted and what was let pass in each bucket. -/
structure LeaseWorld where
  clock : Nat := 0
  counters : Counters := .empty
  states : List LeaseState := []
  /-- the state each instance holds for the project -/
  leases : Nat → Option Nat := fun _ => none
  inFlight : List Lease := []
  waiting : List Waiting := []
  granted : BucketIndex → Nat := fun _ => 0
  passed : BucketIndex → Nat := fun _ => 0
  log : List LeaseRecord := []

/-- A state of an instance with the leases beside it. -/
abbrev Leasing := LeaseState × List Lease

/-- Send a lease for a state that has none in flight. -/
def Leasing.refill (leasing : Leasing) (object nowMs : Nat) (bucketIndex : BucketIndex) : Leasing :=
  match leasing.1.inFlightLease with
  | some _ => leasing
  | none =>
    ({ leasing.1 with inFlightLease := some leasing.2.length },
      leasing.2 ++ [{ state := object, bucketIndex, nowMs, requested := leasing.1.batchSize }])

/-- One token less, and a lease in the background once a quarter of the batch is left. -/
def Leasing.spend (leasing : Leasing) (object nowMs : Nat) (bucketIndex : BucketIndex) : Leasing :=
  let state := { leasing.1 with tokens := leasing.1.tokens - 1 }
  let refillThreshold := max 1 (state.batchSize / 4)
  if state.tokens ≤ refillThreshold then Leasing.refill (state, leasing.2) object nowMs bucketIndex
  else (state, leasing.2)

namespace LeaseWorld

/-- Put a state and the leases back. -/
def store (world : LeaseWorld) (object : Nat) (leasing : Leasing) : LeaseWorld :=
  { world with states := world.states.set object leasing.1, inFlight := leasing.2 }

/-- Let a request of a bucket pass. -/
def pass (world : LeaseWorld) (bucket : BucketIndex) : LeaseWorld :=
  { world with
    passed := fun other => if other = bucket then world.passed bucket + 1 else world.passed other }

/-- The lease state of an instance, which is made where there is none. -/
def held (options : ApiRateLimiterOptions) (limit : RateLimit) (world : LeaseWorld)
    (owner : Nat) (currentBucket : BucketIndex) : LeaseWorld × Nat :=
  match world.leases owner with
  | some object => (world, object)
  | none =>
    ({ world with
        states := world.states ++
          [⟨currentBucket, 0, calculateTokenBatchSize limit.rpm options.maxBatchSize, none⟩]
        leases := fun other => if other = owner then some world.states.length
          else world.leases other },
      world.states.length)

/-- A state in a new window: the tokens are gone, and a lease is sent at once. -/
def rollover (options : ApiRateLimiterOptions) (limit : RateLimit) (leasing : Leasing)
    (object nowMs : Nat) (currentBucket : BucketIndex) : Leasing :=
  if leasing.1.bucketIndex ≠ currentBucket then
    Leasing.refill (⟨currentBucket, 0,
      calculateTokenBatchSize limit.rpm options.maxBatchSize, none⟩, leasing.2)
      object nowMs currentBucket
  else leasing

/-- `check`, up to where it returns or waits for a lease. -/
def check (options : ApiRateLimiterOptions) (limit : RateLimit) (world : LeaseWorld)
    (owner nowMs : Nat) : Option LeaseWorld :=
  if limit.rpm = 0 then some world
  else
    let currentBucket : BucketIndex := (nowMs / options.windowMs : Nat)
    let (world, object) := world.held options limit owner currentBucket
    (world.states[object]?).map fun state =>
      let leasing := rollover options limit (state, world.inFlight) object nowMs currentBucket
      if 0 < leasing.1.tokens then
        (world.store object (leasing.spend object nowMs currentBucket)).pass currentBucket
      else
        let leasing := leasing.refill object nowMs currentBucket
        { world.store object leasing with
          waiting := world.waiting ++ [⟨object, currentBucket, nowMs, leasing.1.inFlightLease⟩] }

/-- The server runs the script of a lease. -/
def execute (options : ApiRateLimiterOptions) (limit : RateLimit) (world : LeaseWorld)
    (position : Nat) : Option LeaseWorld := do
  let lease ← world.inFlight[position]?
  if lease.phase = .sent then
    let bucket := lease.bucketIndex
    let (counters, granted) := leaseApiRateLimit world.counters world.clock bucket (bucket - 1)
      lease.nowMs options.windowMs limit.rpm lease.requested
    some { world with
      counters := counters
      inFlight := world.inFlight.set position { lease with phase := .answered granted }
      granted := fun other =>
        if other = bucket then world.granted bucket + granted.toNat else world.granted other
      log := ⟨lease.nowMs, world.granted (bucket - 1), granted.toNat,
        world.granted bucket + granted.toNat⟩ :: world.log }
  else none

/-- Credit a lease to its state, if that is still in the bucket of the lease; it is no longer in
flight. -/
def credit (world : LeaseWorld) (position : Nat) (lease : Lease) (granted : Nat) :
    Option LeaseWorld := do
  let state ← world.states[lease.state]?
  let tokens :=
    if state.bucketIndex = lease.bucketIndex then state.tokens + granted else state.tokens
  let inFlightLease :=
    if state.inFlightLease = some position then none else state.inFlightLease
  some { world with
    states := world.states.set lease.state { state with tokens, inFlightLease }
    inFlight := world.inFlight.set position { lease with phase := .settled granted } }

/-- The answer of a lease arrives; a negative one lets the whole batch pass. -/
def deliver (world : LeaseWorld) (position : Nat) : Option LeaseWorld := do
  let lease ← world.inFlight[position]?
  match lease.phase with
  | .answered granted =>
    world.credit position lease (if granted < 0 then lease.requested else granted.toNat)
  | _ => none

/-- A lease fails, which lets the whole batch pass. -/
def fail (world : LeaseWorld) (position : Nat) : Option LeaseWorld := do
  let lease ← world.inFlight[position]?
  if lease.phase = .sent then world.credit position lease lease.requested else none

/-- What the lease a check waits for came to. -/
def settled (world : LeaseWorld) (waiting : Waiting) : Option Nat :=
  match waiting.lease with
  | none => some 0
  | some position =>
    (world.inFlight[position]?).bind fun lease =>
      match lease.phase with
      | .settled granted => some granted
      | _ => none

/-- A check goes on after its lease: it is refused where the window or the tokens are over, takes a
token where there is one, and else waits for the next lease. -/
def resume (world : LeaseWorld) (position : Nat) : Option LeaseWorld := do
  let waiting ← world.waiting[position]?
  let granted ← world.settled waiting
  let state ← world.states[waiting.state]?
  let returned := { world with waiting := world.waiting.eraseIdx position }
  if state.bucketIndex ≠ waiting.bucketIndex then some returned
  else if 0 < state.tokens then
    some ((returned.store waiting.state
      ({ state with tokens := state.tokens - 1 }, world.inFlight)).pass waiting.bucketIndex)
  else if granted = 0 then some returned
  else
    let leasing := Leasing.refill (state, world.inFlight) waiting.state waiting.nowMs
      waiting.bucketIndex
    some { world.store waiting.state leasing with
      waiting := world.waiting.set position { waiting with lease := leasing.1.inFlightLease } }

end LeaseWorld

/-- A step of the instances and the server. -/
inductive LeaseAction where
  /-- an instance checks a request, at an instant of its own clock -/
  | check (owner nowMs : Nat)
  | execute (position : Nat)
  | deliver (position : Nat)
  | resume (position : Nat)
  /-- the server fails a lease -/
  | fail (position : Nat)
  /-- an instance forgets its state: it is pruned, cleared or invalidated -/
  | forget (owner : Nat)
  | tick (ms : Nat)

/-- One step. -/
def leaseStep (options : ApiRateLimiterOptions) (limit : RateLimit) (world : LeaseWorld) :
    LeaseAction → Option LeaseWorld
  | .check owner nowMs => world.check options limit owner nowMs
  | .execute position => world.execute options limit position
  | .deliver position => world.deliver position
  | .resume position => world.resume position
  | .fail position => world.fail position
  | .forget owner =>
    some { world with leases := fun other => if other = owner then none else world.leases other }
  | .tick ms => some { world with clock := world.clock + ms }

/-- No request has come yet. -/
def leaseStart : LeaseWorld := {}

end Notifkit.RateLimiter
