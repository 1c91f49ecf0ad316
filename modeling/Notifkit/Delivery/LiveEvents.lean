import Notifkit.Foundations.Runs
import Notifkit.Foundations.Tables

/-!
# Live delivery outcomes

An API process holds a subscription to the delivery outcomes while it has
listeners, and announces each subscription once it stands. A delivery worker
publishes its outcomes; after a publish that reached nobody it is quiet for a
while, and an announcement ends the quiet.

Announcements reach a worker over a connection of their own, so a reply to one of
its publishes may be handled before or after them. A subscription is told from
the others of its API by a number, which only the bookkeeping reads: it says
which subscriptions a worker has heard of, and whether each of them lasts.
-/

namespace Notifkit.Delivery.LiveEvents

open Runs

universe u

/-- How long a worker is quiet after a publish nobody received. -/
def QUIET_MS : Nat := 5000

/-- One of the subscriptions of an API. -/
structure Subscription where
  api : Nat
  session : Nat
deriving DecidableEq

/-- What an API sends over its subscriber connection. -/
inductive Command where
  | subscribe
  | unsubscribe
deriving DecidableEq

/-- An API process: its listeners, whether it holds a subscription as far as it knows, the commands
not executed yet, what Redis has of it, and the subscriptions it is about to announce. -/
structure Api where
  listeners : Nat := 0
  subscribed : Bool := false
  commands : List Command := []
  live : Bool := false
  session : Nat := 0
  announcing : List Nat := []
deriving DecidableEq

/-- An outcome a worker emitted: whether the worker had heard of a subscription that lasted then,
and whether it published the outcome. -/
structure Emission (M : Type u) where
  outcome : M
  heard : Bool
  published : Bool
deriving DecidableEq

/-- A delivery worker: until when it is quiet, whether announcements reach it, those under way, its
publishes not executed yet, the replies under way, and what it has heard and emitted. -/
structure Worker (M : Type u) where
  quietUntil : Nat := 0
  enrolled : Bool := false
  announcements : List Subscription := []
  sent : List M := []
  replies : List Nat := []
  heard : List Subscription := []
  emitted : List (Emission M) := []
deriving DecidableEq

/-- All processes, and the time. -/
structure State (M : Type u) where
  now : Nat := 0
  apis : List Api
  workers : List (Worker M)
deriving DecidableEq

variable {M : Type u}

/-- Some fresh processes of each kind. -/
def start (apis workers : Nat) : State M where
  apis := List.replicate apis {}
  workers := List.replicate workers {}

/-- The subscription stands in Redis. -/
def lasts (apis : List Api) (subscription : Subscription) : Bool :=
  match apis[subscription.api]? with
  | some api => api.live && api.session == subscription.session
  | none => false

/-- The worker has received the announcement of a subscription that lasts. -/
def Worker.hears (worker : Worker M) (apis : List Api) : Bool := worker.heard.any (lasts apis)

namespace Api

/-- A stream client connects. -/
def listen (api : Api) : Api :=
  if api.subscribed then { api with listeners := api.listeners + 1 }
  else { api with
    listeners := api.listeners + 1
    subscribed := true
    commands := api.commands ++ [.subscribe] }

/-- A stream client leaves; the last one takes the subscription along. -/
def stop (api : Api) : Option Api :=
  if api.listeners = 0 then none
  else if api.listeners = 1 then
    some { api with
      listeners := 0
      subscribed := false
      commands := api.commands ++ [.unsubscribe] }
  else some { api with listeners := api.listeners - 1 }

/-- Redis executes the next command. A subscription that stands already stays the same one. -/
def execute (api : Api) : Option Api :=
  match api.commands with
  | [] => none
  | .subscribe :: rest =>
    let session := if api.live then api.session else api.session + 1
    some { api with
      commands := rest
      live := true
      session := session
      announcing := api.announcing ++ [session] }
  | .unsubscribe :: rest => some { api with commands := rest, live := false }

/-- The next command fails. -/
def lose (api : Api) : Option Api :=
  match api.commands with
  | [] => none
  | .subscribe :: rest => some { api with commands := rest, subscribed := false }
  | .unsubscribe :: rest => some { api with commands := rest }

/-- Announcing fails: the API counts as not subscribed. -/
def unannounced (api : Api) : Option Api :=
  match api.announcing with
  | [] => none
  | _ :: rest => some { api with announcing := rest, subscribed := false }

/-- The API closes its connection. -/
def close (api : Api) : Api :=
  { api with listeners := 0, subscribed := false, commands := [], live := false }

end Api

namespace Worker

/-- An outcome is emitted: it is published unless the worker is quiet. -/
def publish (worker : Worker M) (now : Nat) (apis : List Api) (outcome : M) : Worker M :=
  if now < worker.quietUntil then
    { worker with emitted := worker.emitted ++ [⟨outcome, worker.hears apis, false⟩] }
  else { worker with
    sent := worker.sent ++ [outcome]
    emitted := worker.emitted ++ [⟨outcome, worker.hears apis, true⟩] }

/-- Redis executes the next publish; the reply says how many subscribers received it. -/
def execute (worker : Worker M) (apis : List Api) : Option (Worker M) :=
  match worker.sent with
  | [] => none
  | _ :: rest =>
    some { worker with sent := rest, replies := worker.replies ++ [apis.countP Api.live] }

/-- A reply is handled: after a publish nobody received the worker is quiet. -/
def handle (worker : Worker M) (now : Nat) : Option (Worker M) :=
  match worker.replies with
  | [] => none
  | receivers :: rest =>
    if receivers = 0 then some { worker with replies := rest, quietUntil := now + QUIET_MS }
    else some { worker with replies := rest }

/-- An announcement is received: it ends the quiet. -/
def receive (worker : Worker M) : Option (Worker M) :=
  match worker.announcements with
  | [] => none
  | subscription :: rest =>
    some { worker with
      announcements := rest
      quietUntil := 0
      heard := subscription :: worker.heard }

/-- A publish fails before it is executed, or its reply is lost. -/
def loseSent (worker : Worker M) : Worker M := { worker with sent := worker.sent.tail }

/-- A reply is lost. -/
def loseReply (worker : Worker M) : Worker M := { worker with replies := worker.replies.tail }

/-- An announcement is on its way to the worker, if announcements reach it. -/
def notify (worker : Worker M) (subscription : Subscription) : Worker M :=
  if worker.enrolled then
    { worker with announcements := worker.announcements ++ [subscription] }
  else worker

end Worker

/-- What can happen next. Processes are named by their places. -/
inductive Action (M : Type u) where
  | clock (now : Nat)
  | listen (api : Nat)
  | stop (api : Nat)
  | execute (api : Nat)
  | lose (api : Nat)
  | announce (api : Nat)
  | unannounced (api : Nat)
  | close (api : Nat)
  | enroll (worker : Nat)
  | receive (worker : Nat)
  | emit (worker : Nat) (outcome : M)
  | publish (worker : Nat)
  | handle (worker : Nat)
  | loseSent (worker : Nat)
  | loseReply (worker : Nat)

/-- One API changes. -/
def onApi (s : State M) (place : Nat) (change : Api → Option Api) : Option (State M) :=
  match s.apis[place]? with
  | none => none
  | some api =>
    match change api with
    | none => none
    | some next => some { s with apis := s.apis.set place next }

/-- One worker changes. -/
def onWorker (s : State M) (place : Nat) (change : Worker M → Option (Worker M)) :
    Option (State M) :=
  match s.workers[place]? with
  | none => none
  | some worker =>
    match change worker with
    | none => none
    | some next => some { s with workers := s.workers.set place next }

/-- Redis executes the announcement of an API: it is on its way to every worker enrolled. -/
def announce (s : State M) (place : Nat) : Option (State M) :=
  match s.apis[place]? with
  | none => none
  | some api =>
    match api.announcing with
    | [] => none
    | session :: rest =>
      some { s with
        apis := s.apis.set place { api with announcing := rest }
        workers := s.workers.map fun worker => worker.notify ⟨place, session⟩ }

/-- One step of the whole. -/
def step (s : State M) : Action M → Option (State M)
  | .clock now => some { s with now := now }
  | .listen api => onApi s api fun api => some api.listen
  | .stop api => onApi s api Api.stop
  | .execute api => onApi s api Api.execute
  | .lose api => onApi s api Api.lose
  | .announce api => announce s api
  | .unannounced api => onApi s api Api.unannounced
  | .close api => onApi s api fun api => some api.close
  | .enroll worker => onWorker s worker fun worker => some { worker with enrolled := true }
  | .receive worker => onWorker s worker Worker.receive
  | .emit worker outcome =>
    onWorker s worker fun worker => some (worker.publish s.now s.apis outcome)
  | .publish worker => onWorker s worker fun worker => worker.execute s.apis
  | .handle worker => onWorker s worker fun worker => worker.handle s.now
  | .loseSent worker => onWorker s worker fun worker => some worker.loseSent
  | .loseReply worker => onWorker s worker fun worker => some worker.loseReply

/-- Every outcome emitted by a worker that had heard of a subscription that lasted was published. -/
def AllPublished (s : State M) : Prop :=
  ∀ worker ∈ s.workers, ∀ emission ∈ worker.emitted,
    emission.heard = true → emission.published = true

instance (s : State M) : Decidable (AllPublished s) :=
  inferInstanceAs (Decidable (∀ worker ∈ s.workers, ∀ emission ∈ worker.emitted,
    emission.heard = true → emission.published = true))

/-- The first publish reaches nobody. Its reply is handled after the announcement of a subscription
made meanwhile, and the outcome after it is not published. -/
def overtaken : List (Action Nat) :=
  [.enroll 0, .emit 0 1, .publish 0, .listen 0, .execute 0, .announce 0, .receive 0, .handle 0,
    .emit 0 2]

/-- So not every run publishes what it should. -/
theorem reply_overtaken :
    ¬ ∀ (apis workers : Nat) (s : State Nat), Reaches step anyStep (start apis workers) s →
      AllPublished s := by
  intro claimed
  have run : Reaches step anyStep (start 1 1)
      ((perform step (start 1 1) overtaken).getD (start 1 1)) :=
    reaches_any_performed overtaken rfl
  exact absurd (claimed 1 1 _ run) (by decide)

/-- No announcement overtakes a reply: a worker that receives the announcement of a subscription
that lasts has no reply on its way that says nobody was there. -/
def InOrder (s : State M) : Action M → Prop
  | .receive place => ∀ worker ∈ s.workers[place]?,
      ∀ subscription ∈ worker.announcements.head?,
        lasts s.apis subscription = true → 0 ∉ worker.replies
  | _ => True

instance (s : State M) (action : Action M) : Decidable (InOrder s action) :=
  match action with
  | .receive place => inferInstanceAs (Decidable (∀ worker ∈ s.workers[place]?,
      ∀ subscription ∈ worker.announcements.head?,
        lasts s.apis subscription = true → 0 ∉ worker.replies))
  | .clock _ | .listen _ | .stop _ | .execute _ | .lose _ | .announce _ | .unannounced _
  | .close _ | .enroll _ | .emit _ _ | .publish _ | .handle _ | .loseSent _ | .loseReply _ =>
    .isTrue trivial

/-- A subscription is known where its API has got that far. -/
def Known (apis : List Api) (subscription : Subscription) : Prop :=
  ∃ api, apis[subscription.api]? = some api ∧ subscription.session ≤ api.session

/-- How an API changes: its subscriptions are counted upwards, and one that stands now either stood
before or is a new one. -/
structure Follows (api next : Api) : Prop where
  counted : api.session ≤ next.session
  stood : next.live = true → next.session = api.session → api.live = true
  announcing : ∀ session ∈ next.announcing, session ∈ api.announcing ∨ session = next.session

/-- What holds of a worker: its subscriptions are known, what it emits while it hears one that lasts
is published, and then it is not quiet and no reply is on its way that would make it so. -/
structure Attentive (apis : List Api) (worker : Worker M) : Prop where
  known : ∀ subscription, subscription ∈ worker.heard ∨ subscription ∈ worker.announcements →
    Known apis subscription
  awake : worker.hears apis = true → worker.quietUntil = 0 ∧ 0 ∉ worker.replies
  published : ∀ emission ∈ worker.emitted, emission.heard = true → emission.published = true

/-- The whole system keeps its word. -/
structure Kept (s : State M) : Prop where
  announcing : ∀ (place : Nat) api, s.apis[place]? = some api →
    ∀ session ∈ api.announcing, session ≤ api.session
  workers : ∀ worker ∈ s.workers, Attentive s.apis worker

/-- Fresh processes have said nothing. -/
theorem Kept.start (apis workers : Nat) : Kept (start apis workers : State M) where
  announcing := by
    intro place api present session listed
    obtain rfl := List.eq_of_mem_replicate (List.mem_of_getElem? present)
    cases listed
  workers := by
    intro worker listed
    obtain rfl := List.eq_of_mem_replicate listed
    exact ⟨by simp, by simp [Worker.hears], by simp⟩

/-- A known subscription that lasts after a change of an API lasted before. -/
theorem lasts_before {apis : List Api} {place : Nat} {api next : Api}
    (present : apis[place]? = some api) (follows : Follows api next)
    {subscription : Subscription} (known : Known apis subscription)
    (stands : lasts (apis.set place next) subscription = true) :
    lasts apis subscription = true := by
  obtain ⟨owner, owned, bounded⟩ := known
  obtain ⟨inside, _⟩ := List.getElem?_eq_some_iff.mp present
  by_cases same : place = subscription.api
  · subst same
    obtain rfl : api = owner := Option.some.inj (present.symm.trans owned)
    simp only [lasts, List.getElem?_set_self inside, Bool.and_eq_true, beq_iff_eq] at stands
    obtain ⟨live, session⟩ := stands
    have counted := follows.counted
    have unchanged : next.session = api.session := by omega
    simp only [lasts, present, Bool.and_eq_true, beq_iff_eq]
    exact ⟨follows.stood live unchanged, by omega⟩
  · simpa only [lasts, List.getElem?_set_ne same] using stands

/-- What is known stays known. -/
theorem Known.set {apis : List Api} {place : Nat} {api next : Api}
    (present : apis[place]? = some api) (counted : api.session ≤ next.session)
    {subscription : Subscription} (known : Known apis subscription) :
    Known (apis.set place next) subscription := by
  obtain ⟨owner, owned, bounded⟩ := known
  obtain ⟨inside, _⟩ := List.getElem?_eq_some_iff.mp present
  by_cases same : place = subscription.api
  · subst same
    obtain rfl : api = owner := Option.some.inj (present.symm.trans owned)
    exact ⟨next, List.getElem?_set_self inside, Nat.le_trans bounded counted⟩
  · refine ⟨owner, ?_, bounded⟩
    rw [List.getElem?_set_ne same]
    exact owned

/-- A worker stays attentive when an API changes. -/
theorem Attentive.follow {apis : List Api} {place : Nat} {api next : Api}
    (present : apis[place]? = some api) (follows : Follows api next) {worker : Worker M}
    (attentive : Attentive apis worker) : Attentive (apis.set place next) worker where
  known := fun subscription listed => (attentive.known subscription listed).set present
    follows.counted
  awake := by
    intro hears
    obtain ⟨subscription, listed, stands⟩ := List.any_eq_true.mp hears
    have known := attentive.known subscription (.inl listed)
    apply attentive.awake
    exact List.any_eq_true.mpr ⟨subscription, listed, lasts_before present follows known stands⟩
  published := attentive.published

/-- The change of one API keeps the system's word. -/
theorem Kept.follow {s : State M} (kept : Kept s) {place : Nat} {api next : Api}
    (present : s.apis[place]? = some api) (follows : Follows api next) :
    Kept { s with apis := s.apis.set place next } where
  announcing := by
    intro other known found session listed
    rcases (Tables.row_set present).mp found with ⟨_, rfl⟩ | ⟨_, before⟩
    · rcases follows.announcing session listed with old | current
      · exact Nat.le_trans (kept.announcing place api present session old) follows.counted
      · exact Nat.le_of_eq current
    · exact kept.announcing other known before session listed
  workers := fun worker listed => (kept.workers worker listed).follow present follows

/-- An API whose subscription and announcements are as before. -/
theorem Follows.same {api next : Api} (session : next.session = api.session)
    (live : next.live = true → api.live = true)
    (announcing : next.announcing ⊆ api.announcing) : Follows api next where
  counted := Nat.le_of_eq session.symm
  stood := fun stands _ => live stands
  announcing := fun _ listed => .inl (announcing listed)

/-- A client that connects changes no subscription. -/
theorem follows_listen (api : Api) : Follows api api.listen := by
  unfold Api.listen
  split
  · exact .same rfl id (List.Subset.refl _)
  · exact .same rfl id (List.Subset.refl _)

/-- Nor does one that leaves. -/
theorem follows_stop {api next : Api} (taken : api.stop = some next) : Follows api next := by
  unfold Api.stop at taken
  split at taken
  · cases taken
  · split at taken
    · rw [← Option.some.inj taken]
      exact .same rfl id (List.Subset.refl _)
    · rw [← Option.some.inj taken]
      exact .same rfl id (List.Subset.refl _)

/-- An executed command ends the subscription, keeps it, or makes a new one. -/
theorem follows_execute {api next : Api} (taken : api.execute = some next) :
    Follows api next := by
  unfold Api.execute at taken
  split at taken
  · cases taken
  · rw [← Option.some.inj taken]
    cases live : api.live with
    | true =>
      constructor
      · simp
      · exact fun _ _ => live
      · intro session listed
        simpa using listed
    | false =>
      constructor
      · simp
      · intro _ same
        simp at same
      · intro session listed
        simpa using listed
  · rw [← Option.some.inj taken]
    exact .same rfl (fun stands => absurd stands Bool.false_ne_true) (List.Subset.refl _)

/-- A failed command changes no subscription. -/
theorem follows_lose {api next : Api} (taken : api.lose = some next) : Follows api next := by
  unfold Api.lose at taken
  split at taken
  · cases taken
  · rw [← Option.some.inj taken]
    exact .same rfl id (List.Subset.refl _)
  · rw [← Option.some.inj taken]
    exact .same rfl id (List.Subset.refl _)

/-- Nor does a failed announcement. -/
theorem follows_unannounced {api next : Api} (taken : api.unannounced = some next) :
    Follows api next := by
  unfold Api.unannounced at taken
  split at taken
  · cases taken
  · rename_i first rest listed
    rw [← Option.some.inj taken]
    refine .same rfl id ?_
    rw [listed]
    exact List.subset_cons_self _ _

/-- A closed connection ends the subscription. -/
theorem follows_close (api : Api) : Follows api api.close :=
  .same rfl (fun stands => absurd stands Bool.false_ne_true) (List.Subset.refl _)

/-- A step of one API takes it from where it is to what it changes to. -/
theorem onApi_cases {s after : State M} {place : Nat} {change : Api → Option Api}
    (taken : onApi s place change = some after) :
    ∃ api next, s.apis[place]? = some api ∧ change api = some next ∧
      after = { s with apis := s.apis.set place next } := by
  unfold onApi at taken
  cases present : s.apis[place]? with
  | none => simp [present] at taken
  | some api =>
    cases changed : change api with
    | none => simp [present, changed] at taken
    | some next =>
      simp only [present, changed, Option.some.injEq] at taken
      exact ⟨api, next, rfl, changed, taken.symm⟩

/-- A step of one worker takes it from where it is to what it changes to. -/
theorem onWorker_cases {s after : State M} {place : Nat}
    {change : Worker M → Option (Worker M)} (taken : onWorker s place change = some after) :
    ∃ worker next, s.workers[place]? = some worker ∧ change worker = some next ∧
      after = { s with workers := s.workers.set place next } := by
  unfold onWorker at taken
  cases present : s.workers[place]? with
  | none => simp [present] at taken
  | some worker =>
    cases changed : change worker with
    | none => simp [present, changed] at taken
    | some next =>
      simp only [present, changed, Option.some.injEq] at taken
      exact ⟨worker, next, rfl, changed, taken.symm⟩

/-- Changes of single APIs keep the system's word. -/
theorem Kept.onApi {s after : State M} (kept : Kept s) {place : Nat} {change : Api → Option Api}
    (follows : ∀ api next, change api = some next → Follows api next)
    (taken : onApi s place change = some after) : Kept after := by
  obtain ⟨api, next, present, changed, rfl⟩ := onApi_cases taken
  exact kept.follow present (follows api next changed)

/-- So do changes of single workers that leave them attentive. -/
theorem Kept.onWorker {s after : State M} (kept : Kept s) {place : Nat}
    {change : Worker M → Option (Worker M)}
    (attentive : ∀ worker next, s.workers[place]? = some worker → change worker = some next →
      Attentive s.apis worker → Attentive s.apis next)
    (taken : onWorker s place change = some after) : Kept after := by
  obtain ⟨worker, next, present, changed, rfl⟩ := onWorker_cases taken
  refine ⟨kept.announcing, Tables.all_set kept.workers ?_⟩
  exact attentive worker next present changed (kept.workers worker (List.mem_of_getElem? present))

variable {apis : List Api} {worker next : Worker M}

/-- An outcome emitted while a subscription is heard finds the worker awake. -/
theorem Attentive.publish (attentive : Attentive apis worker) (now : Nat) (outcome : M) :
    Attentive apis (worker.publish now apis outcome) := by
  unfold Worker.publish
  split
  · rename_i quiet
    refine ⟨attentive.known, attentive.awake, Tables.all_append attentive.published ?_⟩
    intro hears
    have awake := (attentive.awake hears).1
    rw [awake] at quiet
    exact absurd quiet (Nat.not_lt_zero _)
  · exact ⟨attentive.known, attentive.awake,
      Tables.all_append attentive.published fun _ => rfl⟩

/-- A publish executed while a subscription lasts is received by somebody. -/
theorem Attentive.execute (attentive : Attentive apis worker)
    (taken : worker.execute apis = some next) : Attentive apis next := by
  unfold Worker.execute at taken
  split at taken
  · cases taken
  · rw [← Option.some.inj taken]
    refine ⟨attentive.known, ?_, attentive.published⟩
    intro hears
    obtain ⟨awake, heard⟩ := attentive.awake hears
    refine ⟨awake, ?_⟩
    obtain ⟨subscription, _, stands⟩ := List.any_eq_true.mp hears
    have received : 0 < apis.countP Api.live := by
      unfold lasts at stands
      split at stands
      · rename_i api present
        have live : api.live = true := (Bool.and_eq_true _ _ ▸ stands).1
        exact List.countP_pos_iff.mpr ⟨api, List.mem_of_getElem? present, live⟩
      · cases stands
    intro listed
    rcases List.mem_append.mp listed with old | new
    · exact heard old
    · have none_there := List.mem_singleton.mp new
      omega

/-- A reply handled while a subscription is heard does not make the worker quiet. -/
theorem Attentive.handle (attentive : Attentive apis worker) {now : Nat}
    (taken : worker.handle now = some next) : Attentive apis next := by
  unfold Worker.handle at taken
  split at taken
  · cases taken
  · rename_i receivers rest listed
    split at taken
    · rename_i nobody
      rw [← Option.some.inj taken]
      refine ⟨attentive.known, ?_, attentive.published⟩
      intro hears
      have heard := (attentive.awake hears).2
      rw [listed, nobody] at heard
      exact absurd List.mem_cons_self heard
    · rw [← Option.some.inj taken]
      refine ⟨attentive.known, ?_, attentive.published⟩
      intro hears
      obtain ⟨awake, heard⟩ := attentive.awake hears
      rw [listed] at heard
      exact ⟨awake, fun member => heard (List.mem_cons_of_mem _ member)⟩

/-- A received announcement leaves the worker awake; no reply it has overtaken would make it quiet
again. -/
theorem Attentive.receive (attentive : Attentive apis worker)
    (ordered : ∀ subscription, worker.announcements.head? = some subscription →
      lasts apis subscription = true → 0 ∉ worker.replies)
    (taken : worker.receive = some next) : Attentive apis next := by
  unfold Worker.receive at taken
  split at taken
  · cases taken
  · rename_i subscription rest listed
    rw [← Option.some.inj taken]
    refine ⟨?_, ?_, attentive.published⟩
    · intro other among
      apply attentive.known
      rw [listed]
      rcases among with heard | waiting
      · rcases List.mem_cons.mp heard with rfl | before
        · exact .inr List.mem_cons_self
        · exact .inl before
      · exact .inr (List.mem_cons_of_mem _ waiting)
    · intro hears
      refine ⟨rfl, ?_⟩
      rcases (Bool.or_eq_true _ _ ▸ hears : _ ∨ _) with first | before
      · exact ordered subscription (by rw [listed]; rfl) first
      · exact (attentive.awake before).2

/-- An announcement under way is of a known subscription. -/
theorem Attentive.notify (attentive : Attentive apis worker) {subscription : Subscription}
    (known : Known apis subscription) : Attentive apis (worker.notify subscription) := by
  unfold Worker.notify
  split
  · refine ⟨?_, attentive.awake, attentive.published⟩
    intro other among
    rcases among with heard | waiting
    · exact attentive.known other (.inl heard)
    · rcases List.mem_append.mp waiting with before | new
      · exact attentive.known other (.inr before)
      · rw [List.mem_singleton.mp new]
        exact known
  · exact attentive

/-- An executed announcement keeps the system's word. -/
theorem Kept.announce {s after : State M} (kept : Kept s) {place : Nat}
    (taken : announce s place = some after) : Kept after := by
  unfold LiveEvents.announce at taken
  cases present : s.apis[place]? with
  | none => simp [present] at taken
  | some api =>
    cases listed : api.announcing with
    | nil => simp [present, listed] at taken
    | cons session rest =>
      simp only [present, listed, Option.some.injEq] at taken
      subst taken
      have fewer : Follows api { api with announcing := rest } := by
        refine .same rfl id ?_
        rw [listed]
        exact List.subset_cons_self _ _
      have without := kept.follow present fewer
      have bounded : session ≤ api.session := by
        apply kept.announcing place api present
        rw [listed]
        exact List.mem_cons_self
      have known : Known (s.apis.set place { api with announcing := rest }) ⟨place, session⟩ := by
        obtain ⟨inside, _⟩ := List.getElem?_eq_some_iff.mp present
        exact ⟨_, List.getElem?_set_self inside, bounded⟩
      refine ⟨without.announcing, ?_⟩
      intro worker member
      obtain ⟨before, among, rfl⟩ := List.mem_map.mp member
      exact (without.workers before among).notify known

/-- Every step in which no announcement overtakes a reply keeps the system's word. -/
theorem Kept.step {s after : State M} {action : Action M} (kept : Kept s)
    (ordered : InOrder s action) (taken : step s action = some after) : Kept after := by
  cases action with
  | clock now =>
    rw [← Option.some.inj taken]
    exact ⟨kept.announcing, kept.workers⟩
  | listen place =>
    have changes : LiveEvents.onApi s place (fun api => some api.listen) = some after := taken
    apply kept.onApi _ changes
    intro api next changed
    rw [← Option.some.inj changed]
    exact follows_listen api
  | stop api => exact kept.onApi (fun _ _ changed => follows_stop changed) taken
  | execute api => exact kept.onApi (fun _ _ changed => follows_execute changed) taken
  | lose api => exact kept.onApi (fun _ _ changed => follows_lose changed) taken
  | announce api => exact kept.announce taken
  | unannounced api => exact kept.onApi (fun _ _ changed => follows_unannounced changed) taken
  | close place =>
    have changes : LiveEvents.onApi s place (fun api => some api.close) = some after := taken
    apply kept.onApi _ changes
    intro api next changed
    rw [← Option.some.inj changed]
    exact follows_close api
  | enroll place =>
    have changes : LiveEvents.onWorker s place (fun worker =>
        some { worker with enrolled := true }) = some after := taken
    apply kept.onWorker _ changes
    intro worker next _ changed attentive
    rw [← Option.some.inj changed]
    exact ⟨attentive.known, attentive.awake, attentive.published⟩
  | receive place =>
    have changes : LiveEvents.onWorker s place Worker.receive = some after := taken
    apply kept.onWorker _ changes
    intro worker next present changed attentive
    exact attentive.receive (ordered worker present) changed
  | emit place outcome =>
    have changes : LiveEvents.onWorker s place (fun worker =>
        some (worker.publish s.now s.apis outcome)) = some after := taken
    apply kept.onWorker _ changes
    intro worker next _ changed attentive
    rw [← Option.some.inj changed]
    exact attentive.publish s.now outcome
  | publish worker => exact kept.onWorker (fun _ _ _ changed held => held.execute changed) taken
  | handle worker => exact kept.onWorker (fun _ _ _ changed held => held.handle changed) taken
  | loseSent place =>
    have changes : LiveEvents.onWorker s place (fun worker => some worker.loseSent) =
        some after := taken
    apply kept.onWorker _ changes
    intro worker next _ changed attentive
    rw [← Option.some.inj changed]
    exact ⟨attentive.known, attentive.awake, attentive.published⟩
  | loseReply place =>
    have changes : LiveEvents.onWorker s place (fun worker => some worker.loseReply) =
        some after := taken
    apply kept.onWorker _ changes
    intro worker next _ changed attentive
    rw [← Option.some.inj changed]
    refine ⟨attentive.known, ?_, attentive.published⟩
    intro hears
    obtain ⟨awake, heard⟩ := attentive.awake hears
    exact ⟨awake, fun listed => heard (List.mem_of_mem_tail listed)⟩

/-- In every run in which no announcement of a lasting subscription overtakes a reply that says
nobody was there, an outcome is published whenever its worker has heard of a subscription that
lasts. -/
theorem outcomes_published {apis workers : Nat} {s : State M}
    (run : Reaches step InOrder (start apis workers) s) : AllPublished s := by
  have kept : Kept s := by
    apply run.invariant
    · exact .start apis workers
    · exact fun _ _ _ held ordered taken => held.step ordered taken
  intro worker listed
  exact (kept.workers worker listed).published

/-- The replies of the first publish come in before the announcement. -/
def heardInOrder : List (Action Nat) :=
  [.enroll 0, .emit 0 1, .publish 0, .listen 0, .execute 0, .handle 0, .announce 0, .receive 0,
    .emit 0 2]

/-- There the second outcome is published. -/
theorem outcomes_published_in_order :
    AllPublished ((perform step (start 1 1) heardInOrder).getD (start 1 1)) :=
  outcomes_published (reaches_performed heardInOrder (by decide) rfl)

end Notifkit.Delivery.LiveEvents
