import Mathlib.Algebra.Order.Floor.Semiring
import Mathlib.Algebra.Order.Archimedean.Basic
import Mathlib.Data.Rat.Floor
import Mathlib.Tactic.Linarith
import Notifkit.Foundations.Runs
import Notifkit.Foundations.SlidingWindows
import Notifkit.Foundations.Text

/-!
# The throttle of a user

The sends of a user are the members of a sorted set, scored by when they go out. A check
counts the members in the window that ends at the send's own time, and adds the send where
there is room. A member that is there already was counted by an earlier attempt at the same
message.

The set forgets in two ways: members older than a window are pruned, and the key as a whole
expires. An expiry is extended where the `TTL` of the key is below the one that is asked for;
but `TTL` tells whole seconds, rounded to the nearest.
-/

namespace Notifkit.RateLimiter

open Runs SlidingWindow

/-- The sorted set of a user, with the last instant of its key, in milliseconds. -/
structure ThrottleKey where
  members : List (Text × Rat) := []
  expiresAt : Option Rat := none
deriving DecidableEq

namespace ThrottleKey

/-- What is under the key at an instant: nothing once it has expired. -/
def at' (key : ThrottleKey) (now : Rat) : ThrottleKey :=
  match key.expiresAt with
  | some expiresAt => if now ≤ expiresAt then key else {}
  | none => key

/-- Remove the members scored up to a bound; a set without members is no key. -/
def zremrangebyscore (key : ThrottleKey) (maxScore : Rat) : ThrottleKey :=
  let members := key.members.filter fun member => maxScore < member.2
  if members = [] then {} else { key with members := members }

/-- The score of a member. -/
def zscore (key : ThrottleKey) (member : Text) : Option Rat :=
  (key.members.find? fun entry => entry.1 = member).map Prod.snd

/-- How many members have a score above one bound and not above another. -/
def zcount (key : ThrottleKey) (above upTo : Rat) : Nat :=
  key.members.countP fun member => above < member.2 ∧ member.2 ≤ upTo

/-- Add a member that is not there. -/
def zadd (key : ThrottleKey) (score : Rat) (member : Text) : ThrottleKey :=
  { key with members := (member, score) :: key.members }

/-- The remaining life in whole seconds, rounded to the nearest; negative without an expiry. -/
def ttl (key : ThrottleKey) (now : Rat) : Int :=
  match key.expiresAt with
  | some expiresAt => ⌊(expiresAt - now + 500) / 1000⌋
  | none => if key.members = [] then -2 else -1

/-- Set the remaining life. -/
def expire (key : ThrottleKey) (now : Rat) (seconds : Int) : ThrottleKey :=
  { key with expiresAt := some (now + seconds * 1000) }

end ThrottleKey

/-- The script `LUA_USER_THROTTLE`, at an instant of the server. -/
def throttleUser (key : ThrottleKey) (now windowStart limit targetTime : Rat) (memberId : Text)
    (ttlSeconds : Int) (pruneBefore : Option Rat) : ThrottleKey × Nat :=
  let key := (key.at' now).zremrangebyscore (pruneBefore.getD windowStart)
  if (key.zscore memberId).isSome then (key, 0)
  else
    let count := key.zcount windowStart targetTime
    if (count : Rat) < limit then
      let key := key.zadd targetTime memberId
      (if key.ttl now < ttlSeconds then key.expire now ttlSeconds else key, count + 1)
    else (key, count + 1)

/-- The defaults of a throttle. -/
structure UserThrottle where
  maxPerHour : Rat := 3
  windowHours : Rat := 1

/-- The overrides of a project, and what is sent. -/
structure ThrottleCheckOptions where
  limit : Option Rat := none
  windowHours : Option Rat := none
  scheduledAt : Option Rat := none
  messageId : Option Text := none

structure ThrottleResult where
  allowed : Bool
  count : Nat
  limit : Rat

/-- A stored value that would make the window meaningless is none. -/
def positiveOrNull (value : Option Rat) : Option Rat := value.filter fun value => 0 < value

/-- A limit of zero is a limit. -/
def nonNegativeOrNull (value : Option Rat) : Option Rat := value.filter fun value => 0 ≤ value

/-- The instants at which a check reads its clock, for the send time, for the life of the key and
for the pruning; and the one at which its script is run. A random id is at hand. -/
structure CheckClock where
  target : Rat
  ttl : Rat
  prune : Rat
  script : Rat
  randomUUID : Text := []

namespace UserThrottle

variable (throttle : UserThrottle) (options : ThrottleCheckOptions)

def limit : Rat := (nonNegativeOrNull options.limit).getD throttle.maxPerHour

def windowMs : Rat := (positiveOrNull options.windowHours).getD throttle.windowHours * 3600000

/-- When a send is to go out. -/
def targetTime (options : ThrottleCheckOptions) (clock : CheckClock) : Rat :=
  options.scheduledAt.getD clock.target

/-- How long the key must outlive the window it is counting. -/
def ttlSeconds (clock : CheckClock) : Int :=
  let windowSeconds := ⌈throttle.windowMs options / 1000⌉
  max windowSeconds (⌈(targetTime options clock - clock.ttl) / 1000⌉ + windowSeconds)

/-- Whether one more send to the user is within the limit. -/
def check (key : ThrottleKey) (priority : Option Text) (clock : CheckClock) :
    ThrottleKey × ThrottleResult :=
  let limit := throttle.limit options
  if priority = some "critical".toList then (key, ⟨true, 0, limit⟩)
  else
    let targetTime := targetTime options clock
    let windowStart := targetTime - throttle.windowMs options
    let (key, count) := throttleUser key clock.script windowStart limit targetTime
      (options.messageId.getD clock.randomUUID) (throttle.ttlSeconds options clock)
      (some (clock.prune - throttle.windowMs options))
    (key, ⟨(count : Rat) ≤ limit, count, limit⟩)

end UserThrottle

/-- One check of the user: what is sent, how urgent, and when. -/
structure ThrottleCheck where
  scheduledAt : Option Rat := none
  messageId : Option Text := none
  priority : Option Text := none
  clock : CheckClock

/-- The key of the user, the instant of the last check, and, newest first, the send times of the
sends that were admitted and counted. -/
structure ThrottleWorld where
  key : ThrottleKey := {}
  now : Rat := 0
  admitted : List Rat := []
deriving DecidableEq

/-- The options of a check, under the overrides of the project. -/
def ThrottleCheck.options (overrides : ThrottleCheckOptions) (check : ThrottleCheck) :
    ThrottleCheckOptions :=
  { overrides with scheduledAt := check.scheduledAt, messageId := check.messageId }

/-- The next check, after the ones before it. A check of a count of zero has counted nothing:
it was critical, or of a message that was counted before. -/
def throttleStep (throttle : UserThrottle) (overrides : ThrottleCheckOptions)
    (world : ThrottleWorld) (check : ThrottleCheck) : Option ThrottleWorld :=
  let clock := check.clock
  if world.now ≤ clock.target ∧ clock.target ≤ clock.ttl ∧ clock.ttl ≤ clock.prune ∧
      clock.prune ≤ clock.script then
    let options := check.options overrides
    let (key, result) := throttle.check options world.key check.priority clock
    some {
      key := key
      now := clock.script
      admitted :=
        if result.allowed ∧ result.count ≠ 0 then
          UserThrottle.targetTime options clock :: world.admitted
        else world.admitted }
  else none

/-- No check of a user yet. -/
def throttleStart : ThrottleWorld := {}

/-- A check for now or for later, that takes no more than `delay`, and that leaves an expiry as it
is only where it falls short by no more than `rounding`, which half a second always is. -/
structure WithinSlack (throttle : UserThrottle) (overrides : ThrottleCheckOptions)
    (delay rounding : Rat) (world : ThrottleWorld) (check : ThrottleCheck) : Prop where
  future : ∀ scheduledAt ∈ check.scheduledAt, check.clock.target ≤ scheduledAt
  prompt : check.clock.script ≤ check.clock.target + delay
  rounds : rounding < 500 → ∀ expiresAt ∈ world.key.expiresAt,
    throttle.ttlSeconds (check.options overrides) check.clock ≤
        ⌊(expiresAt - check.clock.script + 500) / 1000⌋ →
      check.clock.script + throttle.ttlSeconds (check.options overrides) check.clock * 1000 ≤
        expiresAt + rounding

/-- A life rounded to whole seconds is never off by more than half a second. -/
theorem rounds_half {seconds : Int} {now expiresAt : Rat}
    (enough : seconds ≤ ⌊(expiresAt - now + 500) / 1000⌋) :
    now + seconds * 1000 ≤ expiresAt + 500 := by
  have bound := Int.le_floor.mp enough
  rw [le_div_iff₀ (by norm_num)] at bound
  linarith

variable {throttle : UserThrottle} {overrides : ThrottleCheckOptions} {delay rounding : Rat}

/-- How many sends of a key have a time with a property. -/
def ThrottleKey.having (key : ThrottleKey) (holds : Rat → Bool) : Nat :=
  key.members.countP fun member => holds member.2

/-- The sends that were admitted are in the set, as far as they can still matter, and the key
outlives the window of each member, up to what was rounded away. -/
structure ThrottleKey.Keeps (key : ThrottleKey) (windowMs delay rounding now : Rat)
    (admitted : List Rat) : Prop where
  counted : ∀ holds : Rat → Bool,
    (∀ time, holds time = true → now - (windowMs - delay - rounding) < time) →
      admitted.countP holds ≤ key.having holds
  lives : ∀ member ∈ key.members, ∀ expiresAt ∈ key.expiresAt,
    member.2 + windowMs ≤ expiresAt + rounding
  expires : key.members ≠ [] → key.expiresAt ≠ none

/-- The key a script works on, after an expiry and the pruning, has forgotten nothing that counts
for a time that is not much before it. -/
theorem ThrottleKey.Keeps.pruned {key : ThrottleKey} {windowMs now script prune : Rat}
    {admitted : List Rat} (keeps : key.Keeps windowMs delay rounding now admitted)
    (nonneg : 0 ≤ rounding) {reference : Rat} (later : now ≤ reference) (order : prune ≤ script)
    (prompt : script ≤ reference + delay) :
    ((key.at' script).zremrangebyscore (prune - windowMs)).Keeps windowMs delay rounding
      reference admitted := by
  have alive : (key.at' script).Keeps windowMs delay rounding reference admitted := by
    unfold at'
    split
    next expiresAt found =>
      split
      next inTime =>
        exact ⟨fun holds recent => keeps.counted holds fun time held =>
          lt_of_le_of_lt (sub_le_sub_right later _) (recent time held), keeps.lives, keeps.expires⟩
      next isOver =>
        refine ⟨fun holds recent => ?_, nofun, fun some' => absurd rfl some'⟩
        -- every member is out of the window by the time the key has expired
        have none' : key.having holds = 0 := by
          apply List.countP_eq_zero.mpr
          intro member there held
          have life := keeps.lives member there expiresAt found
          have inside := recent member.2 held
          linarith
        have bound := keeps.counted holds fun time held =>
          lt_of_le_of_lt (sub_le_sub_right later _) (recent time held)
        omega
    next =>
      exact ⟨fun holds recent => keeps.counted holds fun time held =>
        lt_of_le_of_lt (sub_le_sub_right later _) (recent time held), keeps.lives, keeps.expires⟩
  have same : ∀ holds : Rat → Bool,
      (∀ time, holds time = true → reference - (windowMs - delay - rounding) < time) →
      ((key.at' script).members.filter fun member => prune - windowMs < member.2).countP
        (fun member => holds member.2) = (key.at' script).having holds := by
    intro holds recent
    rw [List.countP_filter, having]
    apply List.countP_congr
    intro member _
    simp only [Bool.and_eq_true, decide_eq_true_eq, and_iff_left_iff_imp]
    intro held
    have inside := recent member.2 held
    linarith
  simp only [zremrangebyscore]
  split
  next empty =>
    refine ⟨fun holds recent => ?_, nofun, fun some' => absurd rfl some'⟩
    have none' := same holds recent
    rw [empty] at none'
    have bound := alive.counted holds recent
    rw [← none'] at bound
    exact bound
  next full =>
    refine ⟨fun holds recent => ?_, ?_, ?_⟩
    · exact Nat.le_trans (alive.counted holds recent) (Nat.le_of_eq (same holds recent).symm)
    · exact fun member there => alive.lives member (List.mem_of_mem_filter there)
    · exact fun _ => alive.expires fun empty => full (by rw [empty]; rfl)

/-- Pruning leaves the expiry, or the key is gone. -/
theorem ThrottleKey.pruned_expiresAt {key : ThrottleKey} {script bound expiresAt : Rat}
    (held : expiresAt ∈ ((key.at' script).zremrangebyscore bound).expiresAt) :
    expiresAt ∈ key.expiresAt := by
  simp only [zremrangebyscore] at held
  split at held
  next => cases held
  next =>
    unfold at' at held
    split at held
    next found =>
      split at held
      next => exact held
      next => cases held
    next => exact held

/-- A send that is added is counted, and its expiry outlives its window. -/
theorem ThrottleKey.Keeps.added {key : ThrottleKey} {windowMs now script target : Rat}
    {admitted : List Rat} {seconds : Int} {member : Text}
    (keeps : key.Keeps windowMs delay rounding now admitted) (nonneg : 0 ≤ rounding)
    (positive : 0 ≤ seconds) (enough : target + windowMs ≤ script + seconds * 1000)
    (rounds : ∀ expiresAt ∈ key.expiresAt, seconds ≤ ⌊(expiresAt - script + 500) / 1000⌋ →
      script + seconds * 1000 ≤ expiresAt + rounding) (allowed : Bool) :
    (if (key.zadd target member).ttl script < seconds then
        (key.zadd target member).expire script seconds
      else key.zadd target member).Keeps windowMs delay rounding now
      (if allowed then target :: admitted else admitted) := by
  have counted : ∀ holds : Rat → Bool,
      (∀ time, holds time = true → now - (windowMs - delay - rounding) < time) →
        (if allowed then target :: admitted else admitted).countP holds ≤
          (key.zadd target member).having holds := by
    intro holds recent
    have bound := keeps.counted holds recent
    simp only [zadd, having, List.countP_cons] at bound ⊢
    split
    · rw [List.countP_cons]
      omega
    · omega
  split
  next short =>
    refine ⟨counted, ?_, fun _ => Option.some_ne_none _⟩
    rintro entry there expiresAt ⟨⟩
    rcases List.mem_cons.mp there with rfl | old
    · linarith
    · cases found : key.expiresAt with
      | none => exact absurd found (keeps.expires (List.ne_nil_of_mem old))
      | some before =>
        -- the expiry was extended, so the one before it was earlier
        simp only [ttl, zadd, found, Int.floor_lt] at short
        rw [div_lt_iff₀ (by norm_num)] at short
        have life := keeps.lives entry old before found
        linarith
  next long =>
    cases found : key.expiresAt with
    | none =>
      simp only [ttl, zadd, found] at long
      simp at long
      omega
    | some before =>
      simp only [ttl, zadd, found, not_lt] at long
      have falls := rounds before found long
      refine ⟨counted, ?_, fun _ => by simp [zadd, found]⟩
      intro entry there expiresAt held
      obtain rfl : before = expiresAt := Option.some.inj (found.symm.trans held)
      rcases List.mem_cons.mp there with rfl | old
      · linarith
      · exact keeps.lives entry old before found

/-- What the script does: a member is let pass, a send is added where there is room, and is
refused where there is none. -/
theorem throttleUser_cases (key : ThrottleKey) (now windowStart limit targetTime : Rat)
    (memberId : Text) (ttlSeconds : Int) (pruneBefore : Rat) {after : ThrottleKey} {count : Nat}
    (ran : throttleUser key now windowStart limit targetTime memberId ttlSeconds
      (some pruneBefore) = (after, count)) :
    let pruned := (key.at' now).zremrangebyscore pruneBefore
    let added := pruned.zadd targetTime memberId
    after = pruned ∧ (count = 0 ∨ limit < count) ∨
      count = pruned.zcount windowStart targetTime + 1 ∧
        after = if added.ttl now < ttlSeconds then added.expire now ttlSeconds else added := by
  simp only [throttleUser, Option.getD_some] at ran
  split at ran
  next =>
    obtain ⟨rfl, rfl⟩ := ran
    exact .inl ⟨rfl, .inl rfl⟩
  next =>
    split at ran
    next =>
      obtain ⟨rfl, rfl⟩ := ran
      exact .inr ⟨rfl, rfl⟩
    next full =>
      obtain ⟨rfl, rfl⟩ := ran
      refine .inl ⟨rfl, .inr ?_⟩
      push_cast
      linarith

/-- The life a check asks for reaches to the end of the window of its send. -/
theorem UserThrottle.ttlSeconds_enough {options : ThrottleCheckOptions} {clock : CheckClock}
    (order : clock.ttl ≤ clock.script) :
    UserThrottle.targetTime options clock + throttle.windowMs options ≤
      clock.script + throttle.ttlSeconds options clock * 1000 := by
  have window : throttle.windowMs options / 1000 ≤ ⌈throttle.windowMs options / 1000⌉ :=
    Int.le_ceil _
  have until' : (UserThrottle.targetTime options clock - clock.ttl) / 1000 ≤
      ⌈(UserThrottle.targetTime options clock - clock.ttl) / 1000⌉ := Int.le_ceil _
  have longer : (⌈(UserThrottle.targetTime options clock - clock.ttl) / 1000⌉ : Rat) +
      ⌈throttle.windowMs options / 1000⌉ ≤ throttle.ttlSeconds options clock := by
    exact_mod_cast le_max_right _ _
  rw [div_le_iff₀ (by norm_num)] at window until'
  linarith

/-- The life a check asks for is not negative, where the window has a length. -/
theorem UserThrottle.ttlSeconds_nonneg {options : ThrottleCheckOptions} {clock : CheckClock}
    (positive : 0 < throttle.windowMs options) : 0 ≤ throttle.ttlSeconds options clock := by
  have window : 0 ≤ ⌈throttle.windowMs options / 1000⌉ := Int.ceil_nonneg (by positivity)
  exact window.trans (le_max_left _ _)

/-- What holds after every check: the set keeps what was admitted, and what was admitted is
limited. -/
structure Throttled (throttle : UserThrottle) (overrides : ThrottleCheckOptions)
    (delay rounding : Rat) (world : ThrottleWorld) : Prop where
  keeps : 0 < throttle.windowMs overrides →
    world.key.Keeps (throttle.windowMs overrides) delay rounding world.now world.admitted
  limited : Limited (throttle.windowMs overrides - delay - rounding)
    ⌊throttle.limit overrides⌋₊ world.admitted

/-- A send is admitted with fewer than the limit in its window. -/
theorem ThrottleKey.Keeps.within {key : ThrottleKey} {windowMs reference : Rat}
    {admitted : List Rat} (keeps : key.Keeps windowMs delay rounding reference admitted)
    (slack : 0 ≤ delay + rounding) {target : Rat} (later : reference ≤ target) :
    SlidingWindow.within (windowMs - delay - rounding) target admitted ≤
      key.zcount (target - windowMs) target := by
  have recent : ∀ time, inWindow (windowMs - delay - rounding) target time = true →
      reference - (windowMs - delay - rounding) < time := by
    intro time inside
    have after := (inWindow_eq_true.mp inside).1
    linarith
  refine Nat.le_trans (keeps.counted _ recent) (List.countP_mono_left ?_)
  intro member _ inside
  obtain ⟨after, before⟩ := inWindow_eq_true.mp inside
  simp only [decide_eq_true_eq]
  exact ⟨by linarith, before⟩

/-- Nothing lies in a window without a length. -/
theorem within_eq_zero {length last : Rat} (empty : length ≤ 0) (times : List Rat) :
    within length last times = 0 := by
  apply List.countP_eq_zero.mpr
  intro time _ inside
  obtain ⟨after, before⟩ := inWindow_eq_true.mp inside
  linarith

/-- What a check does: nothing for a critical send; else the set is pruned, and at most the send
is added, and admitted if it is within the limit. -/
theorem throttleStep_cases {world next : ThrottleWorld} {check : ThrottleCheck}
    (taken : throttleStep throttle overrides world check = some next) :
    let clock := check.clock
    let target := UserThrottle.targetTime (check.options overrides) clock
    let pruned := (world.key.at' clock.script).zremrangebyscore
      (clock.prune - throttle.windowMs overrides)
    let count := pruned.zcount (target - throttle.windowMs overrides) target
    let added := pruned.zadd target (check.messageId.getD clock.randomUUID)
    let seconds := throttle.ttlSeconds (check.options overrides) clock
    (world.now ≤ clock.target ∧ clock.target ≤ clock.ttl ∧ clock.ttl ≤ clock.prune ∧
      clock.prune ≤ clock.script) ∧ next.now = clock.script ∧
    (next.key = world.key ∧ next.admitted = world.admitted ∨
      next.key = pruned ∧ next.admitted = world.admitted ∨
      next.key = (if added.ttl clock.script < seconds then added.expire clock.script seconds
        else added) ∧
      next.admitted = if decide (((count + 1 : Nat) : Rat) ≤ throttle.limit overrides) then
        target :: world.admitted else world.admitted) := by
  unfold throttleStep at taken
  dsimp only at taken
  obtain ⟨order, taken⟩ := Option.ite_none_right_eq_some.mp taken
  obtain rfl := Option.some.inj taken
  refine ⟨order, rfl, ?_⟩
  by_cases critical : check.priority = some "critical".toList
  · left
    simp [UserThrottle.check, critical]
  · right
    simp only [UserThrottle.check, if_neg critical]
    generalize ran : throttleUser _ _ _ _ _ _ _ _ = result
    obtain ⟨after, count⟩ := result
    rcases throttleUser_cases _ _ _ _ _ _ _ _ ran with ⟨same, none'⟩ | ⟨rfl, added⟩
    · refine .inl ⟨same, ?_⟩
      rcases none' with rfl | isOver
      · simp
      · have refused : ¬ (count : Rat) ≤ throttle.limit (check.options overrides) :=
          not_le.mpr isOver
        simp [refused]
    · refine .inr ⟨added, ?_⟩
      simp only [decide_eq_true_eq, ne_eq, Nat.add_eq_zero_iff, one_ne_zero, and_false,
        not_false_eq_true, and_true]
      rfl

/-- A check within the slack keeps what was admitted limited. -/
theorem throttled_step {world next : ThrottleWorld} {check : ThrottleCheck}
    (nonneg : 0 ≤ rounding) (throttled : Throttled throttle overrides delay rounding world)
    (slack : WithinSlack throttle overrides delay rounding world check)
    (taken : throttleStep throttle overrides world check = some next) :
    Throttled throttle overrides delay rounding next := by
  obtain ⟨⟨later, targetTtl, ttlPrune, pruneScript⟩, now, cases'⟩ := throttleStep_cases taken
  have takes : 0 ≤ delay := by linarith [slack.prompt]
  have future : check.clock.target ≤ UserThrottle.targetTime (check.options overrides) check.clock := by
    unfold UserThrottle.targetTime
    cases scheduled : (check.options overrides).scheduledAt with
    | none => exact le_refl _
    | some scheduledAt => exact slack.future scheduledAt scheduled
  have pruned : 0 < throttle.windowMs overrides → ∀ reference, world.now ≤ reference →
      check.clock.script ≤ reference + delay →
      ((world.key.at' check.clock.script).zremrangebyscore
        (check.clock.prune - throttle.windowMs overrides)).Keeps (throttle.windowMs overrides)
          delay rounding reference world.admitted :=
    fun positive _ after prompt => (throttled.keeps positive).pruned nonneg after pruneScript prompt
  rcases cases' with ⟨key, admitted⟩ | ⟨key, admitted⟩ | ⟨key, admitted⟩
  · refine ⟨fun positive => ?_, by rw [admitted]; exact throttled.limited⟩
    have keeps := throttled.keeps positive
    rw [key, admitted, now]
    exact ⟨fun holds recent => keeps.counted holds fun time held =>
      lt_of_le_of_lt (by linarith) (recent time held), keeps.lives, keeps.expires⟩
  · refine ⟨fun positive => ?_, by rw [admitted]; exact throttled.limited⟩
    rw [key, admitted, now]
    exact pruned positive _ (by linarith) (by linarith)
  · constructor
    · intro positive
      rw [key, admitted, now]
      apply (pruned positive _ (by linarith) (by linarith)).added nonneg
      · exact UserThrottle.ttlSeconds_nonneg positive
      · exact UserThrottle.ttlSeconds_enough (by linarith)
      · intro expiresAt held enough
        by_cases half : rounding < 500
        · exact slack.rounds half expiresAt (ThrottleKey.pruned_expiresAt held) enough
        · linarith [rounds_half enough]
    · rw [admitted]
      split
      next allowed =>
        refine ⟨?_, throttled.limited⟩
        apply Nat.le_floor
        refine le_trans ?_ (of_decide_eq_true allowed)
        gcongr
        by_cases positive : 0 < throttle.windowMs overrides
        · have keeps := pruned positive check.clock.target later slack.prompt
          exact keeps.within (by linarith) future
        · rw [within_eq_zero (by linarith)]
          exact Nat.zero_le _
      next => exact throttled.limited

/-- What was admitted is limited after every run of checks within the slack. -/
theorem throttled_reached {world : ThrottleWorld} (nonneg : 0 ≤ rounding)
    (run : Reaches (throttleStep throttle overrides)
      (WithinSlack throttle overrides delay rounding) throttleStart world) :
    Throttled throttle overrides delay rounding world := by
  refine run.invariant ?_ ?_
  · exact ⟨fun _ => ⟨fun _ _ => Nat.zero_le _, nofun, fun some' => absurd rfl some'⟩, trivial⟩
  · exact fun _ _ _ throttled slack taken => throttled_step nonneg throttled slack taken

/-- After every sequence of checks, for now or for later, in any order, each message counted once:
a window whose sends were admitted in the order of their times holds at most `limit` of them; and
in every window a send was admitted with fewer than `limit` before it that go out no later. The
windows have the length of the throttle, less what a check takes and what was rounded away. -/
theorem admitted_sends_limited (throttle : UserThrottle) (overrides : ThrottleCheckOptions)
    (delay rounding : Rat) (nonneg : 0 ≤ rounding) (world : ThrottleWorld)
    (run : Reaches (throttleStep throttle overrides)
      (WithinSlack throttle overrides delay rounding) throttleStart world) (last : Rat) :
    let length := throttle.windowMs overrides - delay - rounding
    let limit := ⌊throttle.limit overrides⌋₊
    ((world.admitted.filter (inWindow length last)).Pairwise (· ≥ ·) →
      within length last world.admitted ≤ limit) ∧
    ∀ newer time earlier, world.admitted = newer ++ time :: earlier →
      inWindow length last time = true →
        (earlier.countP fun other => inWindow length last other ∧ other ≤ time) + 1 ≤ limit := by
  have limited := (throttled_reached nonneg run).limited
  constructor
  · intro ordered
    exact limited.window ordered
  · intro newer time earlier split' inside
    rw [split'] at limited
    exact limited.behind inside

instance (throttle : UserThrottle) (overrides : ThrottleCheckOptions) (delay rounding : Rat)
    (world : ThrottleWorld) (check : ThrottleCheck) :
    Decidable (WithinSlack throttle overrides delay rounding world check) :=
  decidable_of_iff (_ ∧ _ ∧ _)
    ⟨fun ⟨future, prompt, rounds⟩ => ⟨future, prompt, rounds⟩,
      fun ⟨future, prompt, rounds⟩ => ⟨future, prompt, rounds⟩⟩

/-- A check that takes place at one instant. -/
def checkAt (now : Rat) (messageId : Text) (scheduledAt : Option Rat) : ThrottleCheck :=
  { scheduledAt, messageId := some messageId, clock := ⟨now, now, now, now, []⟩ }

/-- The world after some checks of the default throttle, under a limit of its own. -/
def afterChecks (limit : Rat) (checks : List ThrottleCheck) : ThrottleWorld :=
  (perform (throttleStep {} { limit := some limit }) throttleStart checks).getD throttleStart

/-- Three sends within an hour, one of them checked twice. -/
def thirdRefused : List ThrottleCheck :=
  [checkAt 0 "a".toList none, checkAt 60000 "b".toList none, checkAt 90000 "a".toList none,
    checkAt 120000 "c".toList none]

/-- Of three sends within an hour two are let pass; a message that is checked again is not
counted again. -/
theorem admitted_sends_limited_run : ∃ world,
    Reaches (throttleStep {} { limit := some 2 }) (WithinSlack {} { limit := some 2 } 0 0)
      throttleStart world ∧ world.admitted = [60000, 0] ∧
      within 3600000 60000 world.admitted ≤ 2 := by
  have run : Reaches (throttleStep {} { limit := some 2 })
      (WithinSlack {} { limit := some 2 } 0 0) throttleStart (afterChecks 2 thirdRefused) :=
    reaches_of_perform thirdRefused (by decide +kernel) (by decide +kernel)
  refine ⟨_, run, by decide +kernel, ?_⟩
  have bound := (admitted_sends_limited {} { limit := some 2 } 0 0 le_rfl _ run 60000).1
    (by decide +kernel)
  have length : UserThrottle.windowMs {} { limit := some 2 } - 0 - 0 = 3600000 := by decide +kernel
  have limit : ⌊UserThrottle.limit {} { limit := some 2 }⌋₊ = 2 := by decide +kernel
  rwa [length, limit] at bound

/-- A send for half an hour later, and then one for now. -/
def laterFirst : List ThrottleCheck :=
  [checkAt 0 "a".toList (some 1800000), checkAt 60000 "b".toList none]

/-- A send for now does not see one for half an hour later: both go out within an hour, and the
limit is one. -/
theorem later_send_not_counted : ∃ world,
    Reaches (throttleStep {} { limit := some 1 }) (WithinSlack {} { limit := some 1 } 0 0)
      throttleStart world ∧ ¬ ∀ last, within 3600000 last world.admitted ≤ 1 := by
  have run : Reaches (throttleStep {} { limit := some 1 })
      (WithinSlack {} { limit := some 1 } 0 0) throttleStart (afterChecks 1 laterFirst) :=
    reaches_of_perform laterFirst (by decide +kernel) (by decide +kernel)
  exact ⟨_, run, fun limited => absurd (limited 1800000) (by decide +kernel)⟩

/-- Two sends for now, and an hour after the first two more. -/
def hourApart : List ThrottleCheck :=
  [checkAt 0 "a".toList none, checkAt 400 "b".toList none, checkAt 3600100 "c".toList none,
    checkAt 3600200 "d".toList none]

/-- Sends for now, at most two an hour: the second finds a `TTL` that was rounded up, the key
expires before it is an hour old, and two more are admitted. -/
theorem rounded_expiry_forgets : ∃ world,
    Reaches (throttleStep {} { limit := some 2 }) (WithinSlack {} { limit := some 2 } 0 500)
      throttleStart world ∧ world.admitted = [3600200, 3600100, 400, 0] ∧
      within 3600000 3600200 world.admitted = 3 := by
  have run : Reaches (throttleStep {} { limit := some 2 })
      (WithinSlack {} { limit := some 2 } 0 500) throttleStart (afterChecks 2 hourApart) :=
    reaches_of_perform hourApart (by decide +kernel) (by decide +kernel)
  exact ⟨_, run, by decide +kernel, by decide +kernel⟩

end Notifkit.RateLimiter
