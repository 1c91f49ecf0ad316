import Notifkit.Foundations.Runs
import Notifkit.Foundations.Tables
import Notifkit.Queue.DeadLetters

/-!
# Replays and deletions of dead letters side by side

Requests to replay or to delete a dead letter come at any time, several for one entry, of one project
or another. Each looks for its entry first and then issues its commands one after the other. A command
that fails ends its request with 500, and may have taken effect.

What was ever dead-lettered, what the replays wrote and the entry each request found are kept for the
record; no step looks at them.
-/

namespace Notifkit.Queue

open Runs Tables

/-- An entry as Redis has it. -/
abbrev RawEntry := Text × List Text

/-- `deleteDLQMessage`: the commands that are issued. -/
def deleteDLQMessage (texts : JsonText) (request : ReplayRequest) : List Command :=
  if request.messageId = [] then []
  else match findDlqEntry texts request with
    | none => []
    | some _ => [.xdel .deadLetter request.messageId]

inductive DlqVerb where
  | replay | delete
deriving DecidableEq

/-- What a request waits for: its entry, or its next command. -/
inductive DlqPhase where
  | asked
  | issuing (rest : List Command)
  | answered (success : Bool)
deriving DecidableEq

structure DlqRequest where
  verb : DlqVerb
  messageId : Text
  projectId : Option Text
  phase : DlqPhase := .asked
  found : Option RawEntry := none
deriving DecidableEq

/-- The dead-letter stream and the requests for it, which are named by their places. -/
structure DlqWorld where
  deadLetters : List RawEntry := []
  requests : List DlqRequest := []
  /-- what was ever dead-lettered -/
  history : List RawEntry := []
  /-- what was written by requests -/
  written : List (Nat × Command) := []

inductive DlqAction where
  /-- a worker gives an event up -/
  | append (entry : RawEntry)
  | ask (verb : DlqVerb) (messageId : Text) (projectId : Option Text)
  | find (place : Nat)
  /-- the next command; one that is answered has taken effect, one that fails may have -/
  | command (place : Nat) (landed answered : Bool)
deriving DecidableEq

/-- The commands of a request, as the stream is. -/
def DlqRequest.commands (texts : JsonText) (deadLetters : List RawEntry) (request : DlqRequest) :
    List Command :=
  let asked : ReplayRequest :=
    { messageId := request.messageId, projectId := request.projectId, deadLetters := deadLetters,
      answered := fun _ => true }
  match request.verb with
  | .replay => (replayDLQMessage texts asked).1
  | .delete => deleteDLQMessage texts asked

/-- A command of a request takes effect. -/
def DlqWorld.apply (world : DlqWorld) (place : Nat) : Command → DlqWorld
  | .xadd stream fields =>
    { world with written := world.written ++ [(place, .xadd stream fields)] }
  | .xdel _ id =>
    { world with deadLetters := world.deadLetters.filter fun entry => entry.1 ≠ id }

def DlqWorld.put (world : DlqWorld) (place : Nat) (request : DlqRequest) : DlqWorld :=
  { world with requests := world.requests.set place request }

def dlqStep (texts : JsonText) (world : DlqWorld) : DlqAction → Option DlqWorld
  | .append entry =>
    if entry.1 ∈ world.history.map Prod.fst then none
    else some { world with
      deadLetters := world.deadLetters ++ [entry]
      history := world.history ++ [entry] }
  | .ask verb messageId projectId =>
    some { world with requests := world.requests ++ [{ verb, messageId, projectId }] }
  | .find place => do
    let request ← world.requests[place]?
    if request.phase = .asked then
      match request.commands texts world.deadLetters with
      | [] => some (world.put place { request with phase := .answered false })
      | first :: rest => some (world.put place { request with
          phase := .issuing (first :: rest)
          found := world.deadLetters.find? fun entry => entry.1 = request.messageId })
    else none
  | .command place landed answered => do
    let request ← world.requests[place]?
    match request.phase with
    | .issuing (first :: rest) =>
      if answered = true ∧ landed = false then none
      else
        let world := if landed then world.apply place first else world
        let phase : DlqPhase :=
          if answered then if rest = [] then .answered true else .issuing rest
          else .answered false
        some (world.put place { request with phase := phase })
    | _ => none

section Commands

variable (texts : JsonText)

/-- The request may touch the entry: it is an administrator's, or names the entry's project. -/
def Entitled (projectId : Option Text) (entry : RawEntry) : Prop :=
  ∀ project ∈ projectId, project ≠ [] →
    (parseDlqEntry texts entry.1 entry.2).projectId = some (.str project)

/-- What a replay of the entry writes. -/
def replayed (entry : RawEntry) : Command :=
  let parsed := parseDlqEntry texts entry.1 entry.2
  .xadd (targetStream parsed) (match parsed.event with
    | some event => ["data".toList, texts.stringify (.obj event)]
    | none => parsed.fields.flatMap fun field => [field.1, field.2])

/-- A request finds the first entry of its id, if it may touch it. -/
theorem findDlqEntry_some {request : ReplayRequest} {parsed : DlqEntry}
    (found : findDlqEntry texts request = some parsed) :
    ∃ entry, request.deadLetters.find? (fun entry => entry.1 = request.messageId) = some entry ∧
      Entitled texts request.projectId entry ∧ parsed = parseDlqEntry texts entry.1 entry.2 := by
  unfold findDlqEntry at found
  split at found
  · obtain ⟨entry, there, found⟩ := Option.bind_eq_some_iff.mp found
    dsimp only at found
    cases asked : request.projectId with
    | none =>
      rw [asked] at found
      exact ⟨entry, there, fun _ none => (by cases none), (Option.some.inj found).symm⟩
    | some project =>
      rw [asked] at found
      obtain ⟨may, found⟩ := Option.ite_none_left_eq_some.mp found
      refine ⟨entry, there, fun other same some => ?_, (Option.some.inj found).symm⟩
      obtain rfl := Option.some.inj same
      by_contra differ
      exact may ⟨some, differ⟩
  · cases found

/-- A request issues no command, or those of its verb for the entry it finds. -/
theorem DlqRequest.commands_cases (deadLetters : List RawEntry) (request : DlqRequest) :
    request.commands texts deadLetters = [] ∨
      ∃ entry, deadLetters.find? (fun entry => entry.1 = request.messageId) = some entry ∧
        Entitled texts request.projectId entry ∧
        request.commands texts deadLetters = match request.verb with
          | .replay => [replayed texts entry, .xdel .deadLetter request.messageId]
          | .delete => [.xdel .deadLetter request.messageId] := by
  unfold DlqRequest.commands
  cases request.verb with
  | replay =>
    dsimp only
    unfold replayDLQMessage
    split
    · exact .inl rfl
    · split
      · exact .inl rfl
      next parsed found =>
        obtain ⟨entry, there, may, rfl⟩ := findDlqEntry_some texts found
        exact .inr ⟨entry, there, may, rfl⟩
  | delete =>
    dsimp only
    unfold deleteDLQMessage
    split
    · exact .inl rfl
    · split
      · exact .inl rfl
      next parsed found =>
        obtain ⟨entry, there, may, rfl⟩ := findDlqEntry_some texts found
        exact .inr ⟨entry, there, may, rfl⟩

/-- A replay puts no entry back among the dead letters. -/
theorem targetStream_replayable (entry : DlqEntry) :
    targetStream entry ∈ StreamName.replayable := by
  unfold targetStream
  dsimp only
  cases found : StreamName.replayable.find? fun stream =>
      entry.originalStream = some (.str stream.text) with
  | some stream => exact List.mem_of_find?_eq_some found
  | none =>
    generalize getPriorityBucket _ = bucket
    cases bucket <;> decide

end Commands

/-- The request found the entry, and may touch it. -/
structure Holds (texts : JsonText) (history : List RawEntry) (request : DlqRequest)
    (entry : RawEntry) : Prop where
  found : request.found = some entry
  known : entry ∈ history
  named : entry.1 = request.messageId
  entitled : Entitled texts request.projectId entry

/-- A replay of the entry wrote it, or a deletion took it. -/
def Taken (texts : JsonText) (world : DlqWorld) (place : Nat) (request : DlqRequest)
    (entry : RawEntry) : Prop :=
  Holds texts world.history request entry ∧ (request.verb = .delete ∨
    request.verb = .replay ∧ (place, replayed texts entry) ∈ world.written)

/-- What holds of a request with its place, in its phase. -/
def PhaseSound (texts : JsonText) (world : DlqWorld) (place : Nat) (request : DlqRequest) : Prop :=
  match request.phase with
  | .asked => place ∉ world.written.map Prod.fst
  | .issuing rest => ∃ entry,
      request.verb = .replay ∧ Holds texts world.history request entry ∧
        rest = [replayed texts entry, .xdel .deadLetter request.messageId] ∧
        place ∉ world.written.map Prod.fst ∨
      Taken texts world place request entry ∧ rest = [.xdel .deadLetter request.messageId]
  | .answered success => success = true → ∃ entry, Taken texts world place request entry ∧
      entry ∉ world.deadLetters

/-- What holds in every state of every run. -/
structure DlqSound (texts : JsonText) (world : DlqWorld) : Prop where
  fresh : (world.history.map Prod.fst).Nodup
  known : ∀ entry ∈ world.deadLetters, entry ∈ world.history
  phases : ∀ (place : Nat) request, world.requests[place]? = some request →
    PhaseSound texts world place request
  written : ∀ place command, (place, command) ∈ world.written → ∃ request entry,
    world.requests[place]? = some request ∧ request.verb = .replay ∧
      Holds texts world.history request entry ∧ command = replayed texts entry
  once : (world.written.map Prod.fst).Nodup
  kept : ∀ entry ∈ world.history, entry ∈ world.deadLetters ∨ ∃ (place : Nat) (request : _),
    world.requests[place]? = some request ∧ Taken texts world place request entry

section Steps

variable {texts : JsonText} {world after : DlqWorld} {place : Nat} {request : DlqRequest}
  {entry : RawEntry}

/-- An entry is known by its id. -/
theorem DlqSound.same (sound : DlqSound texts world) {other : RawEntry} (one : entry ∈ world.history)
    (two : other ∈ world.history) (same : entry.1 = other.1) : entry = other :=
  List.inj_on_of_nodup_map sound.fresh one two same

/-- What holds of a request stays as more is known, and as dead letters go. -/
theorem PhaseSound.mono {later : DlqWorld} (phase : PhaseSound texts world place request)
    (history : ∀ entry ∈ world.history, entry ∈ later.history)
    (written : ∀ write ∈ world.written, write ∈ later.written)
    (own : ∀ command, (place, command) ∈ later.written → (place, command) ∈ world.written)
    (gone : ∀ entry ∈ world.history, entry ∈ later.deadLetters → entry ∈ world.deadLetters) :
    PhaseSound texts later place request := by
  have holds : ∀ {entry}, Holds texts world.history request entry →
      Holds texts later.history request entry :=
    fun held => ⟨held.found, history _ held.known, held.named, held.entitled⟩
  have taken : ∀ {entry}, Taken texts world place request entry →
      Taken texts later place request entry :=
    fun took => ⟨holds took.1, took.2.imp_right fun ⟨verb, wrote⟩ => ⟨verb, written _ wrote⟩⟩
  have unwritten : place ∉ world.written.map Prod.fst → place ∉ later.written.map Prod.fst := by
    intro none member
    obtain ⟨⟨_, command⟩, wrote, rfl⟩ := List.mem_map.mp member
    exact none (List.mem_map.mpr ⟨_, own command wrote, rfl⟩)
  unfold PhaseSound at phase ⊢
  cases now : request.phase with
  | asked =>
    rw [now] at phase
    exact unwritten phase
  | issuing rest =>
    rw [now] at phase
    obtain ⟨entry, ⟨verb, held, commands, none⟩ | ⟨took, commands⟩⟩ := phase
    · exact ⟨entry, .inl ⟨verb, holds held, commands, unwritten none⟩⟩
    · exact ⟨entry, .inr ⟨taken took, commands⟩⟩
  | answered success =>
    rw [now] at phase
    intro done
    obtain ⟨entry, took, absent⟩ := phase done
    exact ⟨entry, taken took, fun there => absent (gone entry took.1.known there)⟩

/-- A request goes on, with nothing written and nothing taken out. -/
theorem DlqSound.goOn (sound : DlqSound texts world) (present : world.requests[place]? = some request)
    {next : DlqRequest} (verb : next.verb = request.verb)
    (found : ∀ entry, Holds texts world.history request entry → Holds texts world.history next entry)
    (phase : PhaseSound texts world place next) : DlqSound texts (world.put place next) where
  fresh := sound.fresh
  known := sound.known
  phases asked row there := by
    rcases (row_set present).mp there with ⟨rfl, rfl⟩ | ⟨_, there⟩
    · exact phase
    · exact sound.phases asked row there
  written asked command wrote := by
    obtain ⟨row, entry, there, replays, held, same⟩ := sound.written asked command wrote
    by_cases here : asked = place
    · subst here
      obtain rfl := Option.some.inj (present.symm.trans there)
      exact ⟨next, entry, (row_set present).mpr (.inl ⟨rfl, rfl⟩), verb.trans replays,
        found entry held, same⟩
    · exact ⟨row, entry, (row_set present).mpr (.inr ⟨here, there⟩), replays, held, same⟩
  once := sound.once
  kept entry member := by
    refine (sound.kept entry member).imp_right fun ⟨asked, row, there, held, how⟩ => ?_
    by_cases here : asked = place
    · subst here
      obtain rfl := Option.some.inj (present.symm.trans there)
      refine ⟨asked, next, (row_set present).mpr (.inl ⟨rfl, rfl⟩), found entry held, ?_⟩
      rw [verb]
      exact how
    · exact ⟨asked, row, (row_set present).mpr (.inr ⟨here, there⟩), held, how⟩

/-- A worker gives an event up. -/
theorem DlqSound.append (sound : DlqSound texts world)
    (taken : dlqStep texts world (.append entry) = some after) : DlqSound texts after := by
  obtain ⟨unused, same⟩ := Option.ite_none_left_eq_some.mp taken
  obtain rfl := Option.some.inj same
  have grows : ∀ {request other}, Holds texts world.history request other →
      Holds texts (world.history ++ [entry]) request other :=
    fun held => ⟨held.found, List.mem_append_left _ held.known, held.named, held.entitled⟩
  exact {
    fresh := by
      rw [List.map_append, List.nodup_append]
      refine ⟨sound.fresh, List.nodup_singleton _, fun id member other new => ?_⟩
      obtain rfl := List.mem_singleton.mp new
      rintro rfl
      exact unused member
    known := fun other member => by
      rcases List.mem_append.mp member with old | new
      · exact List.mem_append_left _ (sound.known other old)
      · exact List.mem_append_right _ new
    phases := fun place request there => (sound.phases place request there).mono
      (fun other member => List.mem_append_left _ member) (fun _ wrote => wrote)
      (fun _ wrote => wrote) fun other before member => by
        rcases List.mem_append.mp member with old | new
        · exact old
        · obtain rfl := List.mem_singleton.mp new
          exact absurd (List.mem_map_of_mem before) unused
    written := fun place command wrote => by
      obtain ⟨request, other, there, replays, held, same⟩ := sound.written place command wrote
      exact ⟨request, other, there, replays, grows held, same⟩
    once := sound.once
    kept := fun other member => by
      rcases List.mem_append.mp member with old | new
      · refine (sound.kept other old).imp (List.mem_append_left _) ?_
        rintro ⟨place, request, there, held, how⟩
        exact ⟨place, request, there, grows held, how⟩
      · exact .inl (List.mem_append_right _ new) }

/-- A request arrives. -/
theorem DlqSound.ask (sound : DlqSound texts world) (verb : DlqVerb) (messageId : Text)
    (projectId : Option Text) : DlqSound texts
      { world with requests := world.requests ++ [{ verb, messageId, projectId }] } where
  fresh := sound.fresh
  known := sound.known
  phases place request there := by
    rcases row_append.mp there with there | ⟨rfl, rfl⟩
    · exact sound.phases place request there
    · intro member
      obtain ⟨⟨place, command⟩, wrote, same⟩ := List.mem_map.mp member
      obtain ⟨row, _, there, _⟩ := sound.written place command wrote
      have inside := (List.getElem?_eq_some_iff.mp there).1
      exact absurd same (Nat.ne_of_lt inside)
  written place command wrote := by
    obtain ⟨request, entry, there, rest⟩ := sound.written place command wrote
    exact ⟨request, entry, row_append.mpr (.inl there), rest⟩
  once := sound.once
  kept entry member := by
    refine (sound.kept entry member).imp_right fun ⟨place, request, there, took⟩ => ?_
    exact ⟨place, request, row_append.mpr (.inl there), took⟩

/-- A request looks for its entry. -/
theorem DlqSound.find (sound : DlqSound texts world)
    (taken : dlqStep texts world (.find place) = some after) : DlqSound texts after := by
  obtain ⟨request, present, taken⟩ := Option.bind_eq_some_iff.mp taken
  obtain ⟨asked, taken⟩ := Option.ite_none_right_eq_some.mp taken
  have unwritten : place ∉ world.written.map Prod.fst := by
    have phase := sound.phases place request present
    unfold PhaseSound at phase
    rw [asked] at phase
    exact phase
  rcases request.commands_cases texts world.deadLetters with none | ⟨entry, there, may, commands⟩
  · rw [none] at taken
    obtain rfl := Option.some.inj taken
    exact sound.goOn present rfl (fun _ held => ⟨held.found, held.known, held.named, held.entitled⟩)
      (fun impossible => by cases impossible)
  · obtain ⟨first, rest, whole⟩ : ∃ first rest,
        request.commands texts world.deadLetters = first :: rest := by
      rw [commands]
      cases request.verb with
      | replay => exact ⟨_, _, rfl⟩
      | delete => exact ⟨_, _, rfl⟩
    rw [whole] at taken
    obtain rfl := Option.some.inj taken
    have known := sound.known entry (List.mem_of_find?_eq_some there)
    have test := List.find?_some there
    have named : entry.1 = request.messageId := of_decide_eq_true test
    have held : Holds texts world.history { request with
        phase := .issuing (first :: rest)
        found := world.deadLetters.find? fun entry => entry.1 = request.messageId } entry :=
      ⟨there, known, named, may⟩
    refine sound.goOn present rfl (fun other before => ?_) ⟨entry, ?_⟩
    · obtain rfl := sound.same known before.known (named.trans before.named.symm)
      exact held
    · have either : request.verb = .replay ∨ request.verb = .delete := by
        cases request.verb
        · exact .inl rfl
        · exact .inr rfl
      rcases either with replays | deletes
      · rw [replays] at commands
        exact .inl ⟨replays, held, whole.symm.trans commands, unwritten⟩
      · rw [deletes] at commands
        exact .inr ⟨⟨held, .inl deletes⟩, whole.symm.trans commands⟩

/-- A replay that has ended writes its entry. -/
theorem DlqSound.write (sound : DlqSound texts world) (present : world.requests[place]? = some request)
    (idle : request.phase = .answered false) (replays : request.verb = .replay)
    (held : Holds texts world.history request entry)
    (unwritten : place ∉ world.written.map Prod.fst) :
    DlqSound texts { world with written := world.written ++ [(place, replayed texts entry)] } where
  fresh := sound.fresh
  known := sound.known
  phases asked row there := by
    by_cases here : asked = place
    · subst here
      obtain rfl := Option.some.inj (present.symm.trans there)
      unfold PhaseSound
      rw [idle]
      intro impossible
      cases impossible
    · refine (sound.phases asked row there).mono (fun _ member => member)
        (fun _ wrote => List.mem_append_left _ wrote) (fun command wrote => ?_)
        fun _ _ member => member
      rcases List.mem_append.mp wrote with old | new
      · exact old
      · exact absurd (Prod.mk.inj (List.mem_singleton.mp new)).1 here
  written asked command wrote := by
    rcases List.mem_append.mp wrote with old | new
    · exact sound.written asked command old
    · obtain ⟨rfl, rfl⟩ := Prod.mk.inj (List.mem_singleton.mp new)
      exact ⟨request, entry, present, replays, held, rfl⟩
  once := by
    rw [List.map_append, List.nodup_append]
    refine ⟨sound.once, List.nodup_singleton _, fun asked member other new => ?_⟩
    obtain rfl := List.mem_singleton.mp new
    rintro rfl
    exact unwritten member
  kept other member := by
    refine (sound.kept other member).imp_right ?_
    rintro ⟨asked, row, there, found, how⟩
    exact ⟨asked, row, there, found, how.imp_right fun ⟨verb, wrote⟩ =>
      ⟨verb, List.mem_append_left _ wrote⟩⟩

/-- A request that may takes its entry out. -/
theorem DlqSound.remove (sound : DlqSound texts world)
    (present : world.requests[place]? = some request) (took : Taken texts world place request entry) :
    DlqSound texts { world with
      deadLetters := world.deadLetters.filter fun other => other.1 ≠ entry.1 } where
  fresh := sound.fresh
  known other member := sound.known other (List.mem_filter.mp member).1
  phases asked row there := (sound.phases asked row there).mono (fun _ member => member)
    (fun _ wrote => wrote) (fun _ wrote => wrote) fun _ _ member => (List.mem_filter.mp member).1
  written := sound.written
  once := sound.once
  kept other member := by
    rcases sound.kept other member with there | lost
    · by_cases same : other.1 = entry.1
      · obtain rfl := sound.same member took.1.known same
        exact .inr ⟨place, request, present, took⟩
      · exact .inl (List.mem_filter.mpr ⟨there, decide_eq_true same⟩)
    · exact .inr lost

/-- The entry is not among the dead letters once it was taken out. -/
theorem notMem_removed (deadLetters : List RawEntry) (entry : RawEntry) :
    entry ∉ deadLetters.filter fun other => other.1 ≠ entry.1 := by
  intro member
  have differs := (List.mem_filter.mp member).2
  exact of_decide_eq_true differs rfl

/-- A request ends without more. -/
theorem DlqSound.fail (sound : DlqSound texts world)
    (present : world.requests[place]? = some request) :
    DlqSound texts (world.put place { request with phase := .answered false }) :=
  sound.goOn present rfl (fun _ held => ⟨held.found, held.known, held.named, held.entitled⟩)
    (fun impossible => by cases impossible)

/-- A request goes on to its next phase, keeping what it found. -/
theorem DlqSound.phase (sound : DlqSound texts world)
    (present : world.requests[place]? = some request) (phase : DlqPhase)
    (next : PhaseSound texts world place { request with phase := phase }) :
    DlqSound texts (world.put place { request with phase := phase }) :=
  sound.goOn present rfl (fun _ held => ⟨held.found, held.known, held.named, held.entitled⟩) next

/-- A replay's write is issued. -/
theorem DlqSound.writes (sound : DlqSound texts world)
    (present : world.requests[place]? = some request) (replays : request.verb = .replay)
    (held : Holds texts world.history request entry)
    (unwritten : place ∉ world.written.map Prod.fst) {phase : DlqPhase}
    (next : phase = .issuing [.xdel .deadLetter request.messageId] ∨ phase = .answered false) :
    DlqSound texts ((world.apply place (replayed texts entry)).put place
      { request with phase := phase }) := by
  have ended := sound.fail present
  have there : (world.put place { request with phase := .answered false }).requests[place]? =
      some { request with phase := .answered false } := (row_set present).mpr (.inl ⟨rfl, rfl⟩)
  have wrote := ended.write there rfl replays
    ⟨held.found, held.known, held.named, held.entitled⟩ unwritten
  have again := wrote.phase there phase (by
    rcases next with rfl | rfl
    · refine ⟨entry, .inr ⟨⟨⟨held.found, held.known, held.named, held.entitled⟩, .inr ⟨replays, ?_⟩⟩, rfl⟩⟩
      exact List.mem_append_right _ (List.mem_singleton.mpr rfl)
    · intro impossible
      cases impossible)
  unfold DlqWorld.put at again ⊢
  dsimp only at again ⊢
  rw [List.set_set] at again
  exact again

/-- A removal is issued. -/
theorem DlqSound.removes (sound : DlqSound texts world)
    (present : world.requests[place]? = some request) (took : Taken texts world place request entry)
    (success : Bool) :
    DlqSound texts ((world.apply place (.xdel .deadLetter request.messageId)).put place
      { request with phase := .answered success }) := by
  have removed := sound.remove present took
  rw [took.1.named] at removed
  refine removed.phase present _ fun _ => ⟨entry, ⟨⟨took.1.found, took.1.known, took.1.named,
    took.1.entitled⟩, took.2⟩, ?_⟩
  rw [← took.1.named]
  exact notMem_removed _ entry

/-- A command of a request. -/
theorem DlqSound.command (sound : DlqSound texts world) {landed answered : Bool}
    (taken : dlqStep texts world (.command place landed answered) = some after) :
    DlqSound texts after := by
  obtain ⟨request, present, taken⟩ := Option.bind_eq_some_iff.mp taken
  have phase := sound.phases place request present
  unfold PhaseSound at phase
  cases now : request.phase with
  | asked =>
    rw [now] at taken
    cases taken
  | answered success =>
    rw [now] at taken
    cases taken
  | issuing commands =>
    rw [now] at taken phase
    obtain ⟨entry, ⟨replays, held, rfl, unwritten⟩ | ⟨took, rfl⟩⟩ := phase
    · dsimp only at taken
      obtain ⟨_, same⟩ := Option.ite_none_left_eq_some.mp taken
      obtain rfl := Option.some.inj same
      cases landed with
      | true =>
        refine sound.writes present replays held unwritten ?_
        cases answered with
        | true => exact .inl rfl
        | false => exact .inr rfl
      | false =>
        cases answered with
        | true => simp at taken
        | false => exact sound.fail present
    · dsimp only at taken
      obtain ⟨_, same⟩ := Option.ite_none_left_eq_some.mp taken
      obtain rfl := Option.some.inj same
      cases landed with
      | true =>
        cases answered with
        | true => exact sound.removes present took true
        | false => exact sound.removes present took false
      | false =>
        cases answered with
        | true => simp at taken
        | false => exact sound.fail present

/-- Every step keeps what holds. -/
theorem DlqSound.step (sound : DlqSound texts world) {action : DlqAction}
    (taken : dlqStep texts world action = some after) : DlqSound texts after := by
  cases action with
  | append entry => exact sound.append taken
  | ask verb messageId projectId =>
    obtain rfl := Option.some.inj taken
    exact sound.ask verb messageId projectId
  | find place => exact sound.find taken
  | command place landed answered => exact sound.command taken

/-- Before anything is dead-lettered. -/
theorem dlqSound_start : DlqSound texts {} where
  fresh := List.nodup_nil
  known _ none := by cases none
  phases _ _ none := by cases none
  written _ _ none := by cases none
  once := List.nodup_nil
  kept _ none := by cases none

end Steps

/-- Whatever requests to replay and to delete dead letters come, of whomever, interleaved in any way
and with any of their commands failing: each dead letter is still there, or a replay of it by someone
entitled to it has written it, or someone entitled to it has deleted it. A request writes once at most,
and only what a replay of the entry it found writes, never among the dead letters. What a request that
succeeded found is no longer a dead letter. -/
theorem dead_letters_kept (texts : JsonText) (world : DlqWorld)
    (run : Reaches (dlqStep texts) anyStep {} world) :
    (∀ entry ∈ world.history, entry ∈ world.deadLetters ∨ ∃ (place : Nat) (request : DlqRequest),
      world.requests[place]? = some request ∧ request.messageId = entry.1 ∧
        Entitled texts request.projectId entry ∧ (request.verb = .delete ∨
          request.verb = .replay ∧ (place, replayed texts entry) ∈ world.written)) ∧
    (world.written.map Prod.fst).Nodup ∧
    (∀ place command, (place, command) ∈ world.written → ∃ request entry stream fields,
      world.requests[place]? = some request ∧ request.verb = .replay ∧ entry ∈ world.history ∧
        request.messageId = entry.1 ∧ Entitled texts request.projectId entry ∧
        command = replayed texts entry ∧ command = .xadd stream fields ∧
        stream ∈ StreamName.replayable) ∧
    ∀ request ∈ world.requests, request.phase = .answered true → ∃ entry ∈ world.history,
      request.messageId = entry.1 ∧ Entitled texts request.projectId entry ∧
        entry ∉ world.deadLetters := by
  have sound : DlqSound texts world :=
    run.invariant dlqSound_start fun _ _ _ before _ taken => before.step taken
  refine ⟨fun entry member => ?_, sound.once, fun place command wrote => ?_,
    fun request member success => ?_⟩
  · refine (sound.kept entry member).imp_right ?_
    rintro ⟨place, request, there, held, how⟩
    exact ⟨place, request, there, held.named.symm, held.entitled, how⟩
  · obtain ⟨request, entry, there, replays, held, rfl⟩ := sound.written place command wrote
    exact ⟨request, entry, _, _, there, replays, held.known, held.named.symm, held.entitled, rfl, rfl,
      targetStream_replayable _⟩
  · obtain ⟨place, there⟩ := List.mem_iff_getElem?.mp member
    have phase := sound.phases place request there
    unfold PhaseSound at phase
    rw [success] at phase
    obtain ⟨entry, took, absent⟩ := phase rfl
    exact ⟨entry, took.1.known, took.1.named.symm, took.1.entitled, absent⟩

/-- No text is one of JSON. -/
def noTexts : JsonText := ⟨fun _ => [], fun _ => none⟩

def plainLetter : RawEntry := ("1-0".toList, ["projectId".toList, "p".toList])

/-- Another project asks to delete the entry in vain; a replay writes it and is not told so; the next
one writes it again and takes it out. -/
def replaysAgain : List DlqAction :=
  [.append plainLetter, .ask .delete "1-0".toList (some "q".toList),
    .ask .replay "1-0".toList (some "p".toList), .ask .replay "1-0".toList (some "p".toList),
    .find 0, .find 1, .find 2, .command 1 true false, .command 2 true true, .command 2 true true]

/-- The entry is gone, and a replay of it has written it. -/
theorem replayed_again :
    let world := (perform (dlqStep noTexts) {} replaysAgain).getD {}
    world.deadLetters = [] ∧ plainLetter ∈ world.history ∧
      ∃ place request, world.requests[place]? = some request ∧ (request.verb = .delete ∨
        request.verb = .replay ∧ (place, replayed noTexts plainLetter) ∈ world.written) := by
  have run : Reaches (dlqStep noTexts) anyStep {}
      ((perform (dlqStep noTexts) {} replaysAgain).getD {}) :=
    reaches_any_performed replaysAgain (by decide)
  have member : plainLetter ∈ ((perform (dlqStep noTexts) {} replaysAgain).getD {}).history := by
    decide
  refine ⟨by decide, member, ?_⟩
  rcases (dead_letters_kept noTexts _ run).1 plainLetter member with there |
    ⟨place, request, present, _, _, how⟩
  · exact absurd there (by decide)
  · exact ⟨place, request, present, how⟩

end Notifkit.Queue
