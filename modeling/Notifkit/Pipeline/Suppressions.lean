import Notifkit.Foundations.Runs
import Notifkit.Foundations.Tables
import Notifkit.Scheduler.SendGate

/-!
# Suppressed addresses on every way to a provider

A task comes to a provider on many ways: from a request through the enricher and the engine, on a
further channel, from the AI worker, out of the schedule, or as a replayed dead letter. The engine
asks for suppressions in sets that it keeps for ten seconds, the scheduler asks the table at release.
The AI worker and the replay ask nobody.

`barred` are the suppressions a task cannot miss: when it entered, they were stored, and no set from
before was still in use. Streams deliver any entry any number of times, so nothing is ever taken out
of them here. Which addresses, topics and other rows there are is up to the environment.
-/

namespace Notifkit.Pipeline.Suppressions

open Runs Tables Scheduler.SendGate

/-- What is said of lower-casing: done twice it changes nothing, and it makes or takes away no at
sign and no space at an end. -/
structure LowerCasing (toLowerCase : Text → Text) : Prop where
  idempotent : ∀ text, toLowerCase (toLowerCase text) = toLowerCase text
  atSign : ∀ text, '@' ∈ toLowerCase text ↔ '@' ∈ text
  trimmed : ∀ text : Text, text.trim = text → (toLowerCase text).trim = toLowerCase text

/-- A set of suppressions the engine read for a project and channel, as they were in the table. It
is kept until it expires; while it has no expiry it is only in use. -/
structure Load where
  projectId : Text
  channel : NotificationChannel
  snapshot : Snapshot
  expiresAt : Option Nat := none

/-- An event for the engine. -/
structure EventToken where
  event : NotificationEnriched
  barred : List SuppressionRow

/-- A task on its way. -/
structure TaskToken where
  task : ParkedTask
  barred : List SuppressionRow

/-- A message that went to the dead letters. Its place is the stream it came from. -/
inductive DeadLetter where
  | inbound
  | enriched (event : NotificationEnriched)
  | aiPending (task : ParkedTask)
  | scheduled (task : ParkedTask)
  | outbound (task : ParkedTask)

structure World where
  now : Nat := 0
  snapshot : Snapshot := {}
  loads : List Load := []
  inbound : List (List SuppressionRow) := []
  enriched : List EventToken := []
  /-- events the engine has a set for -/
  judged : List (EventToken × Snapshot) := []
  aiPending : List TaskToken := []
  scheduled : List TaskToken := []
  claimed : List TaskToken := []
  outbound : List TaskToken := []
  deadLetters : List DeadLetter := []
  /-- ghost: the tasks providers were called for -/
  sends : List TaskToken := []

/-- Where the engine sends a task. -/
inductive Way where
  | outbound | scheduled | aiPending
deriving DecidableEq

inductive Action where
  | tick (ms : Nat)
  /-- any change of the tables but to suppressions -/
  | write (snapshot : Snapshot)
  | suppress (projectId : Text) (channel : NotificationChannel) (target : Text)
  | fetch (projectId : Text) (channel : NotificationChannel)
  | keep (load : Nat)
  | request
  | enrich (inbound : Nat) (event : NotificationEnriched)
  | judge (event load : Nat)
  | engine (judged : Nat) (contact : UserContact) (topics : List Text) (way : Way)
  | generate (task : Nat) (way : Way)
  | claim (task : Nat)
  | release (task : Nat) (others : List ParkedTask)
  | send (task : Nat)
  /-- a retry or a throttle deferral -/
  | reschedule (task : Nat)
  | fallback (task : Nat) (event : NotificationEnriched)
  | deadLetter (letter : DeadLetter)
  | replay (letter : Nat)

/-- The lifetime of a set, in milliseconds. -/
def SUPPRESSIONS_TTL_MS : Nat := 10000

/-- A set may still be used. -/
def Load.usable (load : Load) (now : Nat) : Prop := ∀ expiry ∈ load.expiresAt, now ≤ expiry

instance (load : Load) (now : Nat) : Decidable (load.usable now) :=
  inferInstanceAs (Decidable (∀ _ ∈ _, _))

/-- No set from before the suppression is in use. -/
def World.settled (world : World) (row : SuppressionRow) : Prop :=
  ∀ load ∈ world.loads, load.projectId = row.projectId → load.channel = row.channel →
    row ∈ load.snapshot.suppressions ∨ ¬ load.usable world.now

instance (world : World) (row : SuppressionRow) : Decidable (world.settled row) :=
  inferInstanceAs (Decidable (∀ _ ∈ _, _))

/-- The suppressions a task that enters now cannot miss. -/
def World.barring (world : World) : List SuppressionRow :=
  world.snapshot.suppressions.filter fun row => world.settled row

/-- The task the engine makes of an event for an address. -/
def taskOf (event : NotificationEnriched) (contact : UserContact) : ParkedTask where
  taskId := event.rawEventId ++ ":".toList ++ contact.id
  projectId := event.projectId
  recipientId := event.recipientId
  channel := event.channel
  templateId := event.templateId
  destination := some contact.target

/-- A payload that the schemas of the streams accept. -/
def ParkedTask.valid (task : ParkedTask) : Prop := task.projectId ≠ [] ∧ task.recipientId ≠ []

def NotificationEnriched.valid (event : NotificationEnriched) : Prop :=
  event.projectId ≠ [] ∧ event.recipientId ≠ []

instance (task : ParkedTask) : Decidable (ParkedTask.valid task) :=
  inferInstanceAs (Decidable (_ ∧ _))

instance (event : NotificationEnriched) : Decidable (NotificationEnriched.valid event) :=
  inferInstanceAs (Decidable (_ ∧ _))

/-- A letter that is in the dead letters by right. -/
def DeadLetter.valid : DeadLetter → Prop
  | .inbound => True
  | .enriched event => NotificationEnriched.valid event
  | .aiPending task | .scheduled task | .outbound task => ParkedTask.valid task

instance : (letter : DeadLetter) → Decidable letter.valid
  | .inbound => inferInstanceAs (Decidable True)
  | .enriched event => inferInstanceAs (Decidable (NotificationEnriched.valid event))
  | .aiPending task | .scheduled task | .outbound task =>
    inferInstanceAs (Decidable (ParkedTask.valid task))

/-- The tables with one more suppression. -/
def suppressed (snapshot : Snapshot) (row : SuppressionRow) : Snapshot :=
  { snapshot with suppressions := snapshot.suppressions ++ [row] }

/-- Put a task where it goes next. -/
def World.put (world : World) (way : Way) (token : TaskToken) : World :=
  match way with
  | .outbound => { world with outbound := world.outbound ++ [token] }
  | .scheduled => { world with scheduled := world.scheduled ++ [token] }
  | .aiPending => { world with aiPending := world.aiPending ++ [token] }

section Step

variable (toLowerCase : Text → Text)

/-- One step of the services. -/
def step (world : World) (action : Action) : Option World :=
  match action with
  | .tick ms => some { world with now := world.now + ms }
  | .write snapshot =>
    if snapshot.suppressions = world.snapshot.suppressions then
      some { world with snapshot := snapshot }
    else none
  | .suppress projectId channel target =>
    let row : SuppressionRow := ⟨projectId, channel, normaliseTarget toLowerCase target⟩
    some { world with snapshot := suppressed world.snapshot row }
  | .fetch projectId channel =>
    some { world with loads := world.loads ++
      [{ projectId := projectId, channel := channel, snapshot := world.snapshot }] }
  | .keep position => do
    let load ← world.loads[position]?
    if load.expiresAt = none then
      let kept : Load := { load with expiresAt := some (world.now + SUPPRESSIONS_TTL_MS) }
      some { world with loads := world.loads.set position kept }
    else none
  | .request => some { world with inbound := world.inbound ++ [world.barring] }
  | .enrich position event => do
    let barred ← world.inbound[position]?
    if NotificationEnriched.valid event then
      some { world with enriched := world.enriched ++ [⟨event, barred⟩] }
    else none
  | .judge position other => do
    let token ← world.enriched[position]?
    let load ← world.loads[other]?
    if load.projectId = token.event.projectId ∧ load.channel = token.event.channel ∧
        load.usable world.now then
      some { world with judged := world.judged ++ [(token, load.snapshot)] }
    else none
  | .engine position contact topics way => do
    let (token, snapshot) ← world.judged[position]?
    if Engine.sendable toLowerCase snapshot token.event topics contact = true then
      some (world.put way ⟨taskOf token.event contact, token.barred⟩)
    else none
  | .generate position way => do
    let token ← world.aiPending[position]?
    if way ≠ .aiPending then some (world.put way ⟨token.task, world.barring⟩) else none
  | .claim position => do
    let token ← world.scheduled[position]?
    some { world with claimed := world.claimed ++ [⟨token.task, world.barring⟩] }
  | .release position others => do
    let token ← world.claimed[position]?
    if token.task.taskId ∉
        (findBlockedAtRelease toLowerCase world.snapshot (token.task :: others)).map Prod.fst then
      some (world.put .outbound token)
    else none
  | .send position => do
    let token ← world.outbound[position]?
    some { world with sends := world.sends ++ [token] }
  | .reschedule position => do
    let token ← world.outbound[position]?
    some (world.put .scheduled ⟨token.task, world.barring⟩)
  | .fallback position event => do
    let token ← world.outbound[position]?
    if NotificationEnriched.valid event ∧ event.projectId = token.task.projectId then
      some { world with enriched := world.enriched ++ [⟨event, world.barring⟩] }
    else none
  | .deadLetter letter =>
    if letter.valid then some { world with deadLetters := world.deadLetters ++ [letter] } else none
  | .replay position => do
    let letter ← world.deadLetters[position]?
    match letter with
    | .inbound => some { world with inbound := world.inbound ++ [world.barring] }
    | .enriched event => some { world with enriched := world.enriched ++ [⟨event, world.barring⟩] }
    | .aiPending task => some (world.put .aiPending ⟨task, world.barring⟩)
    | .scheduled task => some (world.put .scheduled ⟨task, world.barring⟩)
    | .outbound task => some (world.put .outbound ⟨task, world.barring⟩)

/-- A suppression is for the task's address. -/
def Hits (row : SuppressionRow) (task : ParkedTask) : Prop :=
  row.projectId = task.projectId ∧ row.channel = task.channel ∧
    ∃ destination ∈ truthy task.destination, normaliseTarget toLowerCase destination = row.target

instance (row : SuppressionRow) (task : ParkedTask) : Decidable (Hits toLowerCase row task) :=
  inferInstanceAs (Decidable (_ ∧ _ ∧ ∃ _ ∈ _, _))

end Step

/-- The task of a letter that goes back to delivery. -/
def DeadLetter.outbound? : DeadLetter → Option ParkedTask
  | .outbound task => some task
  | _ => none

/-- No step lets a task pass unasked to an address whose suppression it cannot miss, and none is
released to a blank one. -/
def Asked (toLowerCase : Text → Text) (world : World) : Action → Prop
  | .generate position .outbound => ∀ token ∈ world.aiPending[position]?, ∀ row ∈ world.barring,
      ¬ Hits toLowerCase row token.task
  | .replay position => ∀ letter ∈ world.deadLetters[position]?, ∀ task ∈ letter.outbound?,
      ∀ row ∈ world.barring, ¬ Hits toLowerCase row task
  | .release position _ => ∀ token ∈ world.claimed[position]?, ∀ row ∈ token.barred,
      row.target = [] → ¬ Hits toLowerCase row token.task
  | _ => True

instance (toLowerCase : Text → Text) (world : World) (action : Action) :
    Decidable (Asked toLowerCase world action) := by
  unfold Asked
  split <;> infer_instance

section Normalising

variable {toLowerCase : Text → Text}

/-- A normalised address is its own normal form. -/
theorem normaliseTarget_normaliseTarget (lower : LowerCasing toLowerCase) (text : Text) :
    normaliseTarget toLowerCase (normaliseTarget toLowerCase text) =
      normaliseTarget toLowerCase text := by
  simp only [normaliseTarget]
  by_cases address : '@' ∈ text.trim
  · simp only [address, if_true]
    rw [lower.trimmed _ (Text.trim_trim text), if_pos ((lower.atSign _).mpr address), lower.idempotent]
  · simp only [address, if_false, Text.trim_trim]

end Normalising

/-- What holds of every place while no step passes a task unasked. -/
structure Guarded (toLowerCase : Text → Text) (world : World) : Prop where
  normalised : ∀ row ∈ world.snapshot.suppressions,
    normaliseTarget toLowerCase row.target = row.target
  inbound : ∀ barred ∈ world.inbound, ∀ row ∈ barred, row ∈ world.barring
  enriched : ∀ token ∈ world.enriched, NotificationEnriched.valid token.event ∧
    ∀ row ∈ token.barred, row ∈ world.barring
  judged : ∀ entry ∈ world.judged, NotificationEnriched.valid entry.1.event ∧
    ∀ row ∈ entry.1.barred, row ∈ world.barring ∧
      (row.projectId = entry.1.event.projectId → row.channel = entry.1.event.channel →
        row ∈ entry.2.suppressions)
  aiPending : ∀ token ∈ world.aiPending, ParkedTask.valid token.task
  scheduled : ∀ token ∈ world.scheduled, ParkedTask.valid token.task
  claimed : ∀ token ∈ world.claimed, ParkedTask.valid token.task ∧
    ∀ row ∈ token.barred, row ∈ world.barring
  outbound : ∀ token ∈ world.outbound, ParkedTask.valid token.task ∧
    ∀ row ∈ token.barred, ¬ Hits toLowerCase row token.task
  deadLetters : ∀ letter ∈ world.deadLetters, letter.valid
  sends : ∀ token ∈ world.sends, ∀ row ∈ token.barred, ¬ Hits toLowerCase row token.task

section Guarded

variable {toLowerCase : Text → Text} {world after : World}

/-- What a task cannot miss stays so: later sets are read from a table that has it. -/
theorem barring_mono
    (stays : ∀ row ∈ world.snapshot.suppressions, row ∈ after.snapshot.suppressions)
    (loads : ∀ load ∈ after.loads, (∃ old ∈ world.loads, old.projectId = load.projectId ∧
        old.channel = load.channel ∧ old.snapshot = load.snapshot ∧
        (load.usable after.now → old.usable world.now)) ∨
      ∀ row ∈ world.snapshot.suppressions, row ∈ load.snapshot.suppressions) :
    ∀ row ∈ world.barring, row ∈ after.barring := by
  intro row barred
  obtain ⟨stored, settled⟩ := List.mem_filter.mp barred
  refine List.mem_filter.mpr ⟨stays row stored, decide_eq_true ?_⟩
  intro load has sameProject sameChannel
  rcases loads load has with ⟨old, was, project, channel, snapshot, usable⟩ | fresh
  · rcases of_decide_eq_true settled old was (project.trans sameProject)
      (channel.trans sameChannel) with has | lapsed
    · exact .inl (snapshot ▸ has)
    · exact .inr fun use => lapsed (usable use)
  · exact .inl (fresh row stored)

/-- The facts survive a change of the clock, the tables or the sets. -/
theorem Guarded.change (guarded : Guarded toLowerCase world)
    (normalised : ∀ row ∈ after.snapshot.suppressions,
      normaliseTarget toLowerCase row.target = row.target)
    (grows : ∀ row ∈ world.barring, row ∈ after.barring)
    (inbound : after.inbound = world.inbound) (enriched : after.enriched = world.enriched)
    (judged : after.judged = world.judged) (aiPending : after.aiPending = world.aiPending)
    (scheduled : after.scheduled = world.scheduled) (claimed : after.claimed = world.claimed)
    (outbound : after.outbound = world.outbound) (letters : after.deadLetters = world.deadLetters)
    (sends : after.sends = world.sends) : Guarded toLowerCase after where
  normalised := normalised
  inbound := by
    rw [inbound]
    exact fun barred has row listed => grows row (guarded.inbound barred has row listed)
  enriched := by
    rw [enriched]
    exact fun token has => ⟨(guarded.enriched token has).1,
      fun row listed => grows row ((guarded.enriched token has).2 row listed)⟩
  judged := by
    rw [judged]
    exact fun entry has => ⟨(guarded.judged entry has).1, fun row listed =>
      ⟨grows row ((guarded.judged entry has).2 row listed).1,
        ((guarded.judged entry has).2 row listed).2⟩⟩
  aiPending := aiPending ▸ guarded.aiPending
  scheduled := scheduled ▸ guarded.scheduled
  claimed := by
    rw [claimed]
    exact fun token has => ⟨(guarded.claimed token has).1,
      fun row listed => grows row ((guarded.claimed token has).2 row listed)⟩
  outbound := outbound ▸ guarded.outbound
  deadLetters := letters ▸ guarded.deadLetters
  sends := sends ▸ guarded.sends

/-- A task is put where it goes next; to a provider only where it hits nothing it cannot miss. -/
theorem Guarded.put (guarded : Guarded toLowerCase world) {way : Way} {token : TaskToken}
    (valid : ParkedTask.valid token.task)
    (asked : way = .outbound → ∀ row ∈ token.barred, ¬ Hits toLowerCase row token.task) :
    Guarded toLowerCase (world.put way token) := by
  obtain ⟨normalised, inbound, enriched, judged, aiPending, scheduled, claimed, outbound, letters,
    sends⟩ := guarded
  cases way with
  | outbound => exact ⟨normalised, inbound, enriched, judged, aiPending, scheduled, claimed,
      all_append outbound ⟨valid, asked rfl⟩, letters, sends⟩
  | scheduled => exact ⟨normalised, inbound, enriched, judged, aiPending,
      all_append scheduled valid, claimed, outbound, letters, sends⟩
  | aiPending => exact ⟨normalised, inbound, enriched, judged, all_append aiPending valid,
      scheduled, claimed, outbound, letters, sends⟩

/-- The engine passes over an address whose suppression is in the set it has. -/
theorem sendable_misses {snapshot : Snapshot} {event : NotificationEnriched}
    {contact : UserContact} {topics : List Text} {row : SuppressionRow}
    (normalised : normaliseTarget toLowerCase row.target = row.target)
    (stored : row.projectId = event.projectId → row.channel = event.channel →
      row ∈ snapshot.suppressions)
    (sent : Engine.sendable toLowerCase snapshot event topics contact = true) :
    ¬ Hits toLowerCase row (taskOf event contact) := by
  rintro ⟨sameProject, sameChannel, destination, named, same⟩
  obtain ⟨isTarget, text⟩ := mem_truthy.mp named
  obtain rfl : contact.target = destination := Option.some.inj isTarget
  refine (sendable_iff.mp sent).2 text (mem_suppressedTargets.mpr ?_)
  exact ⟨row, stored sameProject sameChannel, sameProject, sameChannel, normalised.trans same.symm⟩

/-- The gate at release blocks a task whose suppression is stored, unless its address is blank. -/
theorem released_misses {task : ParkedTask} {others : List ParkedTask} {row : SuppressionRow}
    (normalised : ∀ row ∈ world.snapshot.suppressions,
      normaliseTarget toLowerCase row.target = row.target)
    (valid : ParkedTask.valid task) (stored : row ∈ world.snapshot.suppressions)
    (blank : row.target = [] → ¬ Hits toLowerCase row task)
    (passed : task.taskId ∉
      (findBlockedAtRelease toLowerCase world.snapshot (task :: others)).map Prod.fst) :
    ¬ Hits toLowerCase row task := by
  intro hits
  have hit := hits
  obtain ⟨sameProject, sameChannel, destination, named, same⟩ := hit
  obtain ⟨group, member, free⟩ :=
    decided_of_passed List.mem_cons_self valid.1 valid.2 passed
  have isBlank := ((reasonOf_eq_none normalised member named).mp free).2
    ⟨row, stored, sameProject, sameChannel, (normalised row stored).trans same.symm⟩
  exact blank (same ▸ isBlank) hits

/-- Every step that asks where it must keeps the facts. -/
theorem guarded_step (lower : LowerCasing toLowerCase) {action : Action}
    (guarded : Guarded toLowerCase world) (asked : Asked toLowerCase world action)
    (taken : step toLowerCase world action = some after) : Guarded toLowerCase after := by
  cases action with
  | tick ms =>
    obtain rfl := Option.some.inj taken
    refine guarded.change guarded.normalised ?_ rfl rfl rfl rfl rfl rfl rfl rfl rfl
    refine barring_mono (fun _ stored => stored) fun load has => .inl ?_
    exact ⟨load, has, rfl, rfl, rfl, fun usable expiry isExpiry =>
      Nat.le_trans (Nat.le_add_right _ _) (usable expiry isExpiry)⟩
  | write snapshot =>
    obtain ⟨same, taken⟩ := Option.ite_none_right_eq_some.mp taken
    obtain rfl := Option.some.inj taken
    refine guarded.change (fun row stored => guarded.normalised row (same ▸ stored)) ?_
      rfl rfl rfl rfl rfl rfl rfl rfl rfl
    exact barring_mono (fun row stored => same.symm ▸ stored)
      fun load has => .inl ⟨load, has, rfl, rfl, rfl, id⟩
  | suppress projectId channel target =>
    obtain rfl := Option.some.inj taken
    refine guarded.change
      (all_append guarded.normalised (normaliseTarget_normaliseTarget lower target)) ?_
      rfl rfl rfl rfl rfl rfl rfl rfl rfl
    exact barring_mono (fun row stored => List.mem_append_left _ stored)
      fun load has => .inl ⟨load, has, rfl, rfl, rfl, id⟩
  | fetch projectId channel =>
    obtain rfl := Option.some.inj taken
    refine guarded.change guarded.normalised ?_ rfl rfl rfl rfl rfl rfl rfl rfl rfl
    refine barring_mono (fun row stored => stored) ?_
    exact all_append (fun load has => .inl ⟨load, has, rfl, rfl, rfl, id⟩)
      (.inr fun row stored => stored)
  | keep position =>
    obtain ⟨load, present, taken⟩ := Option.bind_eq_some_iff.mp taken
    obtain ⟨inUse, taken⟩ := Option.ite_none_right_eq_some.mp taken
    obtain rfl := Option.some.inj taken
    refine guarded.change guarded.normalised ?_ rfl rfl rfl rfl rfl rfl rfl rfl rfl
    refine barring_mono (fun row stored => stored) ?_
    refine all_set (fun load has => .inl ⟨load, has, rfl, rfl, rfl, id⟩) (.inl ?_)
    refine ⟨load, List.mem_of_getElem? present, rfl, rfl, rfl, fun _ expiry isExpiry => ?_⟩
    exact absurd (inUse.symm.trans isExpiry) nofun
  | request =>
    obtain rfl := Option.some.inj taken
    exact { guarded with inbound := all_append guarded.inbound fun _ barred => barred }
  | enrich position event =>
    obtain ⟨barred, present, taken⟩ := Option.bind_eq_some_iff.mp taken
    obtain ⟨valid, taken⟩ := Option.ite_none_right_eq_some.mp taken
    obtain rfl := Option.some.inj taken
    have grown : ∀ token ∈ world.enriched ++ [(⟨event, barred⟩ : EventToken)], _ :=
      all_append guarded.enriched ⟨valid, guarded.inbound barred (List.mem_of_getElem? present)⟩
    exact { guarded with enriched := grown }
  | judge position other =>
    obtain ⟨token, present, taken⟩ := Option.bind_eq_some_iff.mp taken
    obtain ⟨load, found, taken⟩ := Option.bind_eq_some_iff.mp taken
    obtain ⟨⟨sameProject, sameChannel, usable⟩, taken⟩ := Option.ite_none_right_eq_some.mp taken
    obtain rfl := Option.some.inj taken
    obtain ⟨valid, barring⟩ := guarded.enriched token (List.mem_of_getElem? present)
    refine { guarded with judged := all_append guarded.judged ⟨valid, fun row barred => ?_⟩ }
    refine ⟨barring row barred, fun project channel => ?_⟩
    obtain ⟨_, settled⟩ := List.mem_filter.mp (barring row barred)
    rcases of_decide_eq_true settled load (List.mem_of_getElem? found)
      (sameProject.trans project.symm) (sameChannel.trans channel.symm) with has | lapsed
    · exact has
    · exact absurd usable lapsed
  | engine position contact topics way =>
    obtain ⟨⟨token, snapshot⟩, present, taken⟩ := Option.bind_eq_some_iff.mp taken
    obtain ⟨sent, taken⟩ := Option.ite_none_right_eq_some.mp taken
    obtain rfl := Option.some.inj taken
    obtain ⟨valid, barring⟩ := guarded.judged _ (List.mem_of_getElem? present)
    refine guarded.put valid fun _ row barred => ?_
    obtain ⟨inBarring, stored⟩ := barring row barred
    exact sendable_misses (guarded.normalised row (List.mem_filter.mp inBarring).1) stored sent
  | generate position way =>
    obtain ⟨token, present, taken⟩ := Option.bind_eq_some_iff.mp taken
    obtain ⟨_, taken⟩ := Option.ite_none_right_eq_some.mp taken
    obtain rfl := Option.some.inj taken
    refine guarded.put (guarded.aiPending token (List.mem_of_getElem? present)) ?_
    rintro rfl
    exact asked token present
  | claim position =>
    obtain ⟨token, present, taken⟩ := Option.bind_eq_some_iff.mp taken
    obtain rfl := Option.some.inj taken
    have valid := guarded.scheduled token (List.mem_of_getElem? present)
    have grown : ∀ other ∈ world.claimed ++ [(⟨token.task, world.barring⟩ : TaskToken)], _ :=
      all_append guarded.claimed ⟨valid, fun _ barred => barred⟩
    exact { guarded with claimed := grown }
  | release position others =>
    obtain ⟨token, present, taken⟩ := Option.bind_eq_some_iff.mp taken
    obtain ⟨passed, taken⟩ := Option.ite_none_right_eq_some.mp taken
    obtain rfl := Option.some.inj taken
    obtain ⟨valid, barring⟩ := guarded.claimed token (List.mem_of_getElem? present)
    refine guarded.put valid fun _ row barred => ?_
    exact released_misses guarded.normalised valid (List.mem_filter.mp (barring row barred)).1
      (asked token present row barred) passed
  | send position =>
    obtain ⟨token, present, taken⟩ := Option.bind_eq_some_iff.mp taken
    obtain rfl := Option.some.inj taken
    have grown := all_append guarded.sends
      (guarded.outbound token (List.mem_of_getElem? present)).2
    exact { guarded with sends := grown }
  | reschedule position =>
    obtain ⟨token, present, taken⟩ := Option.bind_eq_some_iff.mp taken
    obtain rfl := Option.some.inj taken
    exact guarded.put (guarded.outbound token (List.mem_of_getElem? present)).1 nofun
  | fallback position event =>
    obtain ⟨token, present, taken⟩ := Option.bind_eq_some_iff.mp taken
    obtain ⟨⟨valid, _⟩, taken⟩ := Option.ite_none_right_eq_some.mp taken
    obtain rfl := Option.some.inj taken
    exact { guarded with enriched := all_append guarded.enriched ⟨valid, fun _ barred => barred⟩ }
  | deadLetter letter =>
    obtain ⟨valid, taken⟩ := Option.ite_none_right_eq_some.mp taken
    obtain rfl := Option.some.inj taken
    exact { guarded with deadLetters := all_append guarded.deadLetters valid }
  | replay position =>
    obtain ⟨letter, present, taken⟩ := Option.bind_eq_some_iff.mp taken
    have valid := guarded.deadLetters letter (List.mem_of_getElem? present)
    have unasked := asked letter present
    cases letter with
    | inbound =>
      obtain rfl := Option.some.inj taken
      exact { guarded with inbound := all_append guarded.inbound fun _ barred => barred }
    | enriched event =>
      obtain rfl := Option.some.inj taken
      exact { guarded with enriched := all_append guarded.enriched ⟨valid, fun _ barred => barred⟩ }
    | aiPending task =>
      obtain rfl := Option.some.inj taken
      exact guarded.put valid nofun
    | scheduled task =>
      obtain rfl := Option.some.inj taken
      exact guarded.put valid nofun
    | outbound task =>
      obtain rfl := Option.some.inj taken
      exact guarded.put valid fun _ => unasked task rfl

theorem guarded_start : Guarded toLowerCase {} where
  normalised _ member := nomatch member
  inbound _ member := nomatch member
  enriched _ member := nomatch member
  judged _ member := nomatch member
  aiPending _ member := nomatch member
  scheduled _ member := nomatch member
  claimed _ member := nomatch member
  outbound _ member := nomatch member
  deadLetters _ member := nomatch member
  sends _ member := nomatch member

end Guarded

/-- In every run whose steps ask where they must, no provider is called for an address with a
suppression that the task could not miss: one that was stored, with no set from before it in use,
when the task last entered. -/
theorem suppression_is_hard_stop (toLowerCase : Text → Text) (lower : LowerCasing toLowerCase)
    (world : World) (run : Reaches (step toLowerCase) (Asked toLowerCase) {} world) :
    ∀ token ∈ world.sends, ∀ row ∈ token.barred, ¬ Hits toLowerCase row token.task := by
  have guarded : Guarded toLowerCase world := run.invariant guarded_start
    fun _ _ _ guarded asked taken => guarded_step lower guarded asked taken
  exact guarded.sends

/-- An event for a mail. -/
def mail : NotificationEnriched where
  projectId := "p".toList
  rawEventId := "e".toList
  recipientId := "u".toList
  channel := .email
  priority := .normal
  templateId := none
  aiPrompts := []
  recipient := ⟨"UTC".toList, false, [], []⟩
  scheduledAt := none
  fallbackChain := []
  contactId := none
  destination := none

/-- An address. -/
def address (target : Text) : UserContact := ⟨"c".toList, .email, target, [], true⟩

/-- A request comes to the engine, which reads the suppressions and sends the task to the AI worker.
While that is at work the address is suppressed, and the set from before expires. -/
def suppressedMeanwhile : List Action :=
  [.request, .enrich 0 mail, .fetch "p".toList .email, .keep 0, .judge 0 0,
    .engine 0 (address "a@x".toList) [] .aiPending, .suppress "p".toList .email "A@x".toList,
    .tick 10001]

theorem suppression_is_hard_stop_run : ∃ world, Reaches (step id) (Asked id) {} world ∧
    world.sends.length = 1 ∧ (world.outbound.map TaskToken.barred).length = 1 ∧
    ∀ token ∈ world.sends, ∀ row ∈ token.barred, ¬ Hits id row token.task := by
  have lower : LowerCasing id := ⟨fun _ => rfl, fun _ => Iff.rfl, fun _ trimmed => trimmed⟩
  -- The set that was read anew stops the suppressed address and lets another one pass.
  have run : Reaches (step id) (Asked id) {} _ := reaches_of_perform
    (suppressedMeanwhile ++ [Action.request, .enrich 1 mail, .fetch "p".toList .email, .judge 1 1,
      .engine 1 (address "b@x".toList) [] .outbound, .send 0]) (by decide +kernel) rfl
  exact ⟨_, run, rfl, rfl, suppression_is_hard_stop id lower _ run⟩

/-- The AI worker sends the task on without asking. -/
theorem generated_task_reaches_suppressed : ∃ world,
    Reaches (step Text.toLowerCase) anyStep {} world ∧ ∃ token ∈ world.sends,
      ∃ row ∈ token.barred, Hits Text.toLowerCase row token.task := by
  have run : Reaches (step Text.toLowerCase) anyStep {} _ :=
    reaches_any (suppressedMeanwhile ++ [Action.generate 0 .outbound, .send 0]) rfl
  exact ⟨_, run, by decide⟩

end Notifkit.Pipeline.Suppressions
