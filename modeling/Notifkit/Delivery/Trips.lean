import Notifkit.Delivery.Outcomes

/-!
# The trips of a task

A task is dispatched or scheduled once. From then on it is in one place: parked, waiting as an
entry of the outbound stream, or in the hands of a call, until it has ended. Each time it is parked
again one of its two counters goes up, and no move takes one down. So the passes that come to its
providers, its deferrals and its entries are all bounded.

Nothing of the workers is said here: which place a task is in, and that its moves are these, is
shown of their runs.
-/

namespace Notifkit.Delivery.Log

open Pipeline

/-- What a task is sent with: its `deliveryOptions.maxAttempts`, and the channels it may fall back
on, which are none where it comes without its recipient. -/
structure Sent where
  maxAttempts : { attempts : Nat // 0 < attempts }
  fallbackChain : List NotificationChannel := []

/-- How a task ends. -/
inductive End where
  | delivered | failed
  | handed (nextChannel : NotificationChannel) (remainingChain : List NotificationChannel)
deriving DecidableEq

/-- Hand a task to the first channel of its chain; with none left it has failed. -/
def fallbackToNextChannel : List NotificationChannel → End
  | [] => .failed
  | nextChannel :: remainingChain => .handed nextChannel remainingChain

/-- Where a task is. -/
inductive Stage where
  | unknown
  | parked (payload : Payload)
  | waiting (position : Nat) (payload : Payload)
  | running (index : Nat) (payload : Payload) (dispatchStarted : Bool)
  | ended
deriving DecidableEq

/-- Whether the task is in the stream, as an entry or with a call. -/
def Stage.inStream : Stage → Bool
  | .waiting .. | .running .. => true
  | _ => false

/-- A task under way, with what is counted of it: the passes that came to its providers, the
deferrals for capacity, and the entries it was in the stream with. -/
structure Trip where
  stage : Stage := .unknown
  passes : Nat := 0
  deferrals : Nat := 0
  entries : Nat := 0
  ends : List End := []

/-- A task ends in one of the three ways; handed over, it has a shorter chain. -/
inductive Ends (sent : Sent) : End → Prop where
  | delivered : Ends sent .delivered
  | failed : Ends sent .failed
  | handed {nextChannel : NotificationChannel} {remainingChain : List NotificationChannel}
      (chain : sent.fallbackChain = nextChannel :: remainingChain) :
      Ends sent (.handed nextChannel remainingChain)

/-- The moves of a task. -/
inductive TripMoves (sent : Sent) (trip : Trip) : Trip → Prop where
  | dispatched {payload : Payload} (position : Nat) (stage : trip.stage = .unknown)
      (attempts : payload.deliveryAttemptCount = 0) (throttled : payload.throttleAttemptCount = 0) :
      TripMoves sent trip
        { trip with stage := .waiting position payload, entries := trip.entries + 1 }
  | scheduled {payload : Payload} (stage : trip.stage = .unknown)
      (attempts : payload.deliveryAttemptCount = 0) (throttled : payload.throttleAttemptCount = 0) :
      TripMoves sent trip { trip with stage := .parked payload }
  | released {payload : Payload} (position : Nat) (stage : trip.stage = .parked payload) :
      TripMoves sent trip
        { trip with stage := .waiting position payload, entries := trip.entries + 1 }
  | taken {position : Nat} {payload : Payload} (index : Nat)
      (stage : trip.stage = .waiting position payload) :
      TripMoves sent trip { trip with stage := .running index payload false }
  | givenBack {index : Nat} {payload : Payload} (position : Nat)
      (stage : trip.stage = .running index payload false) :
      TripMoves sent trip { trip with stage := .waiting position payload }
  | started {index : Nat} {payload : Payload} (stage : trip.stage = .running index payload false) :
      TripMoves sent trip
        { trip with stage := .running index payload true, passes := trip.passes + 1 }
  | deferred {index : Nat} {payload : Payload} (stage : trip.stage = .running index payload false)
      (patient : payload.throttleAttemptCount + 1 ≤ MAX_THROTTLE_DEFERRALS) :
      TripMoves sent trip { trip with
        stage := .parked { payload with throttleAttemptCount := payload.throttleAttemptCount + 1 }
        deferrals := trip.deferrals + 1 }
  | retried {index attemptNo : Nat} {payload : Payload} {dispatchStarted : Bool}
      (stage : trip.stage = .running index payload dispatchStarted)
      (counted : payload.deliveryAttemptCount < attemptNo) (left : attemptNo < sent.maxAttempts.1) :
      TripMoves sent trip
        { trip with stage := .parked { payload with deliveryAttemptCount := attemptNo } }
  | ends {how : End} (stage : trip.stage.inStream = true) (way : Ends sent how) :
      TripMoves sent trip { trip with stage := .ended, ends := how :: trip.ends }

/-- The counters a payload carries, beside what is counted of its task; `under` is 1 while a pass
is at its providers. -/
structure Counted (sent : Sent) (trip : Trip) (payload : Payload) (under : Nat) : Prop where
  tries : payload.deliveryAttemptCount < sent.maxAttempts.1
  passes : trip.passes ≤ payload.deliveryAttemptCount + under
  deferrals : trip.deferrals = payload.throttleAttemptCount
  patience : payload.throttleAttemptCount ≤ MAX_THROTTLE_DEFERRALS
  going : trip.ends = []

/-- What holds of a task wherever it is. -/
def Bounded (sent : Sent) (trip : Trip) : Prop :=
  match trip.stage with
  | .unknown => trip.passes = 0 ∧ trip.deferrals = 0 ∧ trip.entries = 0 ∧ trip.ends = []
  | .parked payload => Counted sent trip payload 0 ∧
      trip.entries ≤ payload.deliveryAttemptCount + payload.throttleAttemptCount
  | .waiting _ payload => Counted sent trip payload 0 ∧ 0 < trip.entries ∧
      trip.entries ≤ payload.deliveryAttemptCount + payload.throttleAttemptCount + 1
  | .running _ payload dispatchStarted => Counted sent trip payload dispatchStarted.toNat ∧
      0 < trip.entries ∧
      trip.entries ≤ payload.deliveryAttemptCount + payload.throttleAttemptCount + 1
  | .ended => trip.passes ≤ sent.maxAttempts.1 ∧ trip.deferrals ≤ MAX_THROTTLE_DEFERRALS ∧
      0 < trip.entries ∧ trip.entries ≤ sent.maxAttempts.1 + MAX_THROTTLE_DEFERRALS ∧
      ∃ how, trip.ends = [how] ∧ Ends sent how

variable {sent : Sent} {trip later : Trip}

/-- The bounds that hold at every stage. -/
theorem Bounded.counts (bounded : Bounded sent trip) :
    trip.passes ≤ sent.maxAttempts.1 ∧ trip.deferrals ≤ MAX_THROTTLE_DEFERRALS ∧
      trip.entries ≤ sent.maxAttempts.1 + MAX_THROTTLE_DEFERRALS := by
  unfold Bounded at bounded
  split at bounded
  · omega
  · obtain ⟨⟨tries, passes, deferrals, patience, _⟩, entries⟩ := bounded
    omega
  · obtain ⟨⟨tries, passes, deferrals, patience, _⟩, _, entries⟩ := bounded
    omega
  next dispatchStarted _ =>
    obtain ⟨⟨tries, passes, deferrals, patience, _⟩, _, entries⟩ := bounded
    have under : dispatchStarted.toNat ≤ 1 := Bool.toNat_le dispatchStarted
    omega
  · exact ⟨bounded.1, bounded.2.1, bounded.2.2.2.1⟩

/-- In the stream a task has an entry, and is not counted as ended. -/
theorem Bounded.going (bounded : Bounded sent trip) (stage : trip.stage.inStream = true) :
    0 < trip.entries ∧ trip.ends = [] := by
  unfold Bounded at bounded
  split at bounded
  next unknown => rw [unknown] at stage; cases stage
  next parked => rw [parked] at stage; cases stage
  · exact ⟨bounded.2.1, bounded.1.going⟩
  · exact ⟨bounded.2.1, bounded.1.going⟩
  next ended => rw [ended] at stage; cases stage

/-- Every move keeps the bounds. -/
theorem Bounded.move (bounded : Bounded sent trip) (moves : TripMoves sent trip later) :
    Bounded sent later := by
  have positive : 0 < sent.maxAttempts.1 := sent.maxAttempts.2
  cases moves with
  | dispatched position stage attempts throttled =>
    simp only [Bounded, stage] at bounded
    obtain ⟨passes, deferrals, entries, going⟩ := bounded
    refine ⟨⟨by omega, ?_, ?_, by omega, going⟩, Nat.succ_pos _, ?_⟩
    · exact passes.le.trans (Nat.zero_le _)
    · exact deferrals.trans throttled.symm
    · exact (congrArg (· + 1) entries).le.trans (Nat.le_add_left _ _)
  | scheduled stage attempts throttled =>
    simp only [Bounded, stage] at bounded
    obtain ⟨passes, deferrals, entries, going⟩ := bounded
    refine ⟨⟨by omega, ?_, ?_, by omega, going⟩, ?_⟩
    · exact passes.le.trans (Nat.zero_le _)
    · exact deferrals.trans throttled.symm
    · exact entries.le.trans (Nat.zero_le _)
  | released position stage =>
    simp only [Bounded, stage] at bounded
    obtain ⟨⟨tries, passes, deferrals, patience, going⟩, entries⟩ := bounded
    exact ⟨⟨tries, passes, deferrals, patience, going⟩, Nat.succ_pos _, Nat.succ_le_succ entries⟩
  | taken index stage =>
    simp only [Bounded, stage] at bounded
    obtain ⟨⟨tries, passes, deferrals, patience, going⟩, entries⟩ := bounded
    exact ⟨⟨tries, passes, deferrals, patience, going⟩, entries⟩
  | givenBack position stage =>
    simp only [Bounded, stage] at bounded
    obtain ⟨⟨tries, passes, deferrals, patience, going⟩, entries⟩ := bounded
    exact ⟨⟨tries, passes, deferrals, patience, going⟩, entries⟩
  | started stage =>
    simp only [Bounded, stage] at bounded
    obtain ⟨⟨tries, passes, deferrals, patience, going⟩, entries⟩ := bounded
    exact ⟨⟨tries, Nat.succ_le_succ passes, deferrals, patience, going⟩, entries⟩
  | deferred stage patient =>
    simp only [Bounded, stage] at bounded
    obtain ⟨⟨tries, passes, deferrals, patience, going⟩, _, entries⟩ := bounded
    exact ⟨⟨tries, passes, congrArg (· + 1) deferrals, patient, going⟩, entries⟩
  | @retried index attemptNo payload dispatchStarted stage counted left =>
    simp only [Bounded, stage] at bounded
    obtain ⟨⟨tries, passes, deferrals, patience, going⟩, _, entries⟩ := bounded
    have under : dispatchStarted.toNat ≤ 1 := Bool.toNat_le dispatchStarted
    refine ⟨⟨left, ?_, deferrals, patience, going⟩, ?_⟩ <;> simp only <;> omega
  | ends stage way =>
    obtain ⟨passes, deferrals, entries⟩ := bounded.counts
    obtain ⟨one, going⟩ := bounded.going stage
    exact ⟨passes, deferrals, one, entries, _, congrArg (_ :: ·) going, way⟩

/-- The three ends; the chain that is handed over is shorter. -/
theorem Ends.cases {how : End} (way : Ends sent how) :
    how = .delivered ∨ how = .failed ∨ ∃ nextChannel remainingChain,
      how = .handed nextChannel remainingChain ∧
        sent.fallbackChain = nextChannel :: remainingChain := by
  cases way with
  | delivered => exact .inl rfl
  | failed => exact .inr (.inl rfl)
  | @handed nextChannel remainingChain chain =>
    exact .inr (.inr ⟨nextChannel, remainingChain, rfl, chain⟩)

/-- What falling back comes to is an end. -/
theorem ends_fallback : Ends sent (fallbackToNextChannel sent.fallbackChain) := by
  cases chain : sent.fallbackChain with
  | nil => exact .failed
  | cons nextChannel remainingChain => exact .handed chain

end Notifkit.Delivery.Log
