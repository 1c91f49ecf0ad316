import Notifkit.Delivery.Trips

/-!
# Where a task is

Of one task there is to be seen: the calls that have taken entries of it, the entries, and what is
parked. A call carries the task from when it takes the entry until it gives the entry back, has
parked the task again, or has come to its end. An entry waits as long as everybody who took it has
given it back.

A board is sound at a stage when the task is there and nowhere else. The turns below keep it so.
-/

namespace Notifkit.Delivery.Log

/-- What a call makes of the task it serves. -/
inductive Hold where
  | carries | gaveBack | ended
deriving DecidableEq

/-- A call carries its task until it gives its entry back, or has parked the task or come to its
end. -/
def hold (phase : CallPhase) (nonRetryable : Bool) : Hold :=
  match phase with
  | .settling _ | .returned true => .ended
  | .returned false => .gaveBack
  | .caught => if nonRetryable then .ended else .carries
  | .threw => if nonRetryable then .ended else .gaveBack
  | _ => .carries

/-- Whether a call has come to its providers. -/
def started : CallPhase → Bool
  | .dispatching .. | .sending _ | .concluding _ => true
  | _ => false

/-- What is to be seen of one task. -/
structure Board where
  calls : Nat → Option (Call × Pass)
  entries : Nat → Option Entry
  parked : List Payload

namespace Board

variable (board : Board)

/-- Whoever took the entry has given it back. -/
def Idle (position : Nat) : Prop :=
  ∀ index call pass, board.calls index = some (call, pass) → pass.entry = position →
    hold call.phase pass.nonRetryable = .gaveBack

/-- The task waits as an entry. -/
def Waits (position : Nat) (payload : Payload) : Prop :=
  ∃ entry, board.entries position = some entry ∧ entry.live = true ∧ entry.payload = payload ∧
    board.Idle position

/-- A call carries the task. -/
def Runs (index : Nat) (payload : Payload) (dispatchStarted : Bool) : Prop :=
  ∃ call pass, board.calls index = some (call, pass) ∧
    hold call.phase pass.nonRetryable = .carries ∧ pass.payload = payload ∧
    pass.dispatchStarted = dispatchStarted

end Board

/-- What a call has from its entry. -/
structure Carried (entries : Nat → Option Entry) (call : Call) (pass : Pass) : Prop where
  entry : ∃ entry, entries pass.entry = some entry ∧ entry.payload = pass.payload
  counted : pass.payload.deliveryAttemptCount < call.attemptNo
  maxAttempts : call.maxAttempts = pass.payload.maxAttempts
  hasFallback : call.hasFallback = pass.payload.hasFallback
  started : hold call.phase pass.nonRetryable = .carries → pass.dispatchStarted = started call.phase

/-- The payload parked at a stage. -/
def Stage.parkedPayloads : Stage → List Payload
  | .parked payload => [payload]
  | _ => []

/-- A payload is as its task was sent. -/
structure Payload.Of (sent : Sent) (payload : Payload) : Prop where
  maxAttempts : payload.maxAttempts = sent.maxAttempts.1
  hasFallback : payload.hasFallback = !sent.fallbackChain.isEmpty

/-- The task is where its stage is, and nowhere else. -/
structure Sound (sent : Sent) (board : Board) (stage : Stage) : Prop where
  parked : board.parked = stage.parkedPayloads
  waits : ∀ position payload, board.Waits position payload ↔ stage = .waiting position payload
  runs : ∀ index payload dispatchStarted, board.Runs index payload dispatchStarted ↔
    stage = .running index payload dispatchStarted
  carried : ∀ index call pass, board.calls index = some (call, pass) → Carried board.entries call pass
  live : ∀ index call pass, board.calls index = some (call, pass) →
    hold call.phase pass.nonRetryable = .carries →
    ∃ entry, board.entries pass.entry = some entry ∧ entry.live = true
  alone : ∀ index call pass, board.calls index = some (call, pass) →
    hold call.phase pass.nonRetryable = .carries → ∀ other, other ≠ index →
    ∀ call' pass', board.calls other = some (call', pass') → pass'.entry = pass.entry →
      hold call'.phase pass'.nonRetryable = .gaveBack
  sentParked : ∀ payload ∈ board.parked, payload.Of sent
  sentEntries : ∀ position entry, board.entries position = some entry → entry.payload.Of sent
  fresh : stage = .unknown → ∀ position, board.entries position = none
  closing : ∀ index call pass, board.calls index = some (call, pass) →
    call.upgrade = true ∨ call.phase = .settling false → stage = .ended

variable {sent : Sent} {board : Board} {stage : Stage} {index : Nat} {call later : Call}
  {pass next : Pass}

/-- A call turns to another phase, and the task may come to be parked. -/
def Board.turn (board : Board) (index : Nat) (later : Call) (next : Pass) (parked : List Payload) :
    Board :=
  { board with calls := Function.update board.calls index (some (later, next)), parked := parked }

/-- What stays of a call and its pass. -/
structure Keeps (call later : Call) (pass next : Pass) : Prop where
  attemptNo : later.attemptNo = call.attemptNo
  maxAttempts : later.maxAttempts = call.maxAttempts
  hasFallback : later.hasFallback = call.hasFallback
  entry : next.entry = pass.entry
  payload : next.payload = pass.payload

/-- The calls of a board on which one has turned. -/
theorem Board.turn_calls {parked : List Payload} {other : Nat} {both : Call × Pass} :
    (board.turn index later next parked).calls other = some both ↔
      other = index ∧ both = (later, next) ∨ other ≠ index ∧ board.calls other = some both := by
  by_cases same : other = index
  · subst same
    simp [Board.turn, eq_comm]
  · simp [Board.turn, same]

/-- Everybody but one call has given the entry back. -/
def Board.IdleBut (board : Board) (index position : Nat) : Prop :=
  ∀ other call pass, other ≠ index → board.calls other = some (call, pass) →
    pass.entry = position → hold call.phase pass.nonRetryable = .gaveBack

theorem Board.idle_iff {position : Nat} (found : board.calls index = some (call, pass)) :
    board.Idle position ↔ board.IdleBut index position ∧
      (pass.entry = position → hold call.phase pass.nonRetryable = .gaveBack) := by
  constructor
  · exact fun idle => ⟨fun other call pass _ => idle other call pass, idle index call pass found⟩
  · rintro ⟨others, own⟩ other call' pass' there
    by_cases same : other = index
    · subst same
      obtain ⟨rfl, rfl⟩ := Prod.mk.inj (Option.some.inj (found.symm.trans there))
      exact own
    · exact others other call' pass' same there

theorem Board.idle_turn {parked : List Payload} {position : Nat} (entry : next.entry = pass.entry) :
    (board.turn index later next parked).Idle position ↔ board.IdleBut index position ∧
      (pass.entry = position → hold later.phase next.nonRetryable = .gaveBack) := by
  rw [Board.idle_iff (Board.turn_calls.mpr (.inl ⟨rfl, rfl⟩)), entry]
  refine and_congr_left' ⟨fun others other call pass apart there => ?_,
    fun others other call pass apart there => ?_⟩
  · exact others other call pass apart (Board.turn_calls.mpr (.inr ⟨apart, there⟩))
  · rcases Board.turn_calls.mp there with ⟨same, _⟩ | ⟨_, there⟩
    · exact absurd same apart
    · exact others other call pass apart there

/-- The board of a task nothing has happened to. -/
def Board.empty : Board := ⟨fun _ => none, fun _ => none, []⟩

theorem sound_start : Sound sent .empty .unknown where
  parked := rfl
  waits := by simp [Board.Waits, Board.empty]
  runs := by simp [Board.Runs, Board.empty]
  carried := by simp [Board.empty]
  live := by simp [Board.empty]
  alone := by simp [Board.empty]
  sentParked := by simp [Board.empty]
  sentEntries := by simp [Board.empty]
  fresh _ _ := rfl
  closing := by simp [Board.empty]

/-- The stage of a task one of whose calls carries it. -/
theorem Sound.running (sound : Sound sent board stage)
    (found : board.calls index = some (call, pass))
    (carries : hold call.phase pass.nonRetryable = .carries) :
    stage = .running index pass.payload pass.dispatchStarted :=
  (sound.runs _ _ _).mp ⟨call, pass, found, carries, rfl, rfl⟩

/-- Nobody but a call that carries the task has it. -/
theorem Sound.only (sound : Sound sent board stage)
    (found : board.calls index = some (call, pass))
    (carries : hold call.phase pass.nonRetryable = .carries) {other : Nat} {call' : Call}
    {pass' : Pass} (there : board.calls other = some (call', pass'))
    (also : hold call'.phase pass'.nonRetryable = .carries) : other = index := by
  have here := sound.running found carries
  rw [sound.running there also] at here
  exact (Stage.running.inj here).1

/-- What a turn comes to at each stage. -/
structure Turned (sent : Sent) (index : Nat) (pass : Pass) (later : Call) (next : Pass)
    (stage : Stage) : Prop where
  waits : ∀ position payload, stage = .waiting position payload ↔
    hold later.phase next.nonRetryable = .gaveBack ∧ position = pass.entry ∧ payload = pass.payload
  runs : ∀ other payload dispatchStarted, stage = .running other payload dispatchStarted ↔
    hold later.phase next.nonRetryable = .carries ∧ other = index ∧ payload = pass.payload ∧
      dispatchStarted = next.dispatchStarted
  known : stage ≠ .unknown
  sent : ∀ payload ∈ stage.parkedPayloads, payload.Of sent
  providers : hold later.phase next.nonRetryable = .carries →
    next.dispatchStarted = started later.phase
  closing : later.upgrade = true ∨ later.phase = .settling false → stage = .ended

/-- It goes on with the task. -/
theorem Turned.carries (carries : hold later.phase next.nonRetryable = .carries)
    (providers : next.dispatchStarted = started later.phase)
    (closing : ¬ (later.upgrade = true ∨ later.phase = .settling false)) :
    Turned sent index pass later next (.running index pass.payload next.dispatchStarted) where
  waits := by simp [carries]
  runs := by simp [carries, eq_comm]
  known := nofun
  sent := nofun
  providers _ := providers
  closing closes := absurd closes closing

/-- It gives the entry back. -/
theorem Turned.givesBack (gaveBack : hold later.phase next.nonRetryable = .gaveBack)
    (closing : ¬ (later.upgrade = true ∨ later.phase = .settling false)) :
    Turned sent index pass later next (.waiting pass.entry pass.payload) where
  waits := by simp [gaveBack, eq_comm]
  runs := by simp [gaveBack]
  known := nofun
  sent := nofun
  providers carries := absurd (gaveBack.symm.trans carries) nofun
  closing closes := absurd closes closing

/-- It has parked the task. -/
theorem Turned.parks {payload : Payload} (isOver : hold later.phase next.nonRetryable = .ended)
    (sentAs : payload.Of sent)
    (closing : ¬ (later.upgrade = true ∨ later.phase = .settling false)) :
    Turned sent index pass later next (.parked payload) where
  waits := by simp [isOver]
  runs := by simp [isOver]
  known := nofun
  sent one listed := List.mem_singleton.mp listed ▸ sentAs
  providers carries := absurd (isOver.symm.trans carries) nofun
  closing closes := absurd closes closing

/-- It has come to the task's end. -/
theorem Turned.ends (isOver : hold later.phase next.nonRetryable = .ended) :
    Turned sent index pass later next .ended where
  waits := by simp [isOver]
  runs := by simp [isOver]
  known := nofun
  sent := nofun
  providers carries := absurd (isOver.symm.trans carries) nofun
  closing _ := rfl

/-- A call that carries the task turns. -/
theorem Sound.turn {after : Stage} (sound : Sound sent board stage)
    (found : board.calls index = some (call, pass))
    (carries : hold call.phase pass.nonRetryable = .carries) (keeps : Keeps call later pass next)
    (turned : Turned sent index pass later next after) :
    Sound sent (board.turn index later next after.parkedPayloads) after := by
  have running := sound.running found carries
  have nowhere : ∀ position payload, ¬ board.Waits position payload := by
    intro position payload waits
    cases running.symm.trans ((sound.waits position payload).mp waits)
  obtain ⟨entry, present, live⟩ := sound.live index call pass found carries
  obtain ⟨⟨entry', present', same⟩, counted, maxAttempts, hasFallback, _⟩ :=
    sound.carried index call pass found
  obtain rfl := Option.some.inj (present.symm.trans present')
  refine ⟨rfl, fun position payload => ?_, fun other payload dispatchStarted => ?_,
    fun other call' pass' there => ?_, fun other call' pass' there also => ?_,
    fun other call' pass' there also another apart call'' pass'' there' entries => ?_,
    turned.sent, sound.sentEntries, fun unknown => absurd unknown turned.known,
    fun other call' pass' there closes => ?_⟩
  · rw [turned.waits]
    constructor
    · rintro ⟨entry', present', live', payloads, idle⟩
      obtain ⟨others, own⟩ := (Board.idle_turn keeps.entry).mp idle
      by_cases here : pass.entry = position
      · subst here
        obtain rfl := Option.some.inj (present.symm.trans present')
        exact ⟨own rfl, rfl, payloads.symm.trans same⟩
      · exact absurd ⟨entry', present', live', payloads,
          (Board.idle_iff found).mpr ⟨others, fun here' => absurd here' here⟩⟩ (nowhere _ _)
    · rintro ⟨gaveBack, rfl, rfl⟩
      refine ⟨entry, present, live, same, (Board.idle_turn keeps.entry).mpr
        ⟨fun other call' pass' apart there entries => ?_, fun _ => gaveBack⟩⟩
      exact sound.alone index call pass found carries other apart call' pass' there entries
  · rw [turned.runs]
    constructor
    · rintro ⟨call', pass', there, also, rfl, rfl⟩
      rcases Board.turn_calls.mp there with ⟨rfl, both⟩ | ⟨apart, there⟩
      · obtain ⟨rfl, rfl⟩ := Prod.mk.inj both
        exact ⟨also, rfl, keeps.payload, rfl⟩
      · exact absurd (sound.only found carries there also) apart
    · rintro ⟨also, rfl, rfl, rfl⟩
      exact ⟨later, next, Board.turn_calls.mpr (.inl ⟨rfl, rfl⟩), also, keeps.payload, rfl⟩
  · rcases Board.turn_calls.mp there with ⟨rfl, both⟩ | ⟨_, there⟩
    · obtain ⟨rfl, rfl⟩ := Prod.mk.inj both
      refine ⟨⟨entry, ?_, ?_⟩, ?_, ?_, ?_, turned.providers⟩
      · rw [keeps.entry]
        exact present
      · rw [keeps.payload]
        exact same
      · rw [keeps.payload, keeps.attemptNo]
        exact counted
      · rw [keeps.payload, keeps.maxAttempts]
        exact maxAttempts
      · rw [keeps.payload, keeps.hasFallback]
        exact hasFallback
    · exact sound.carried other call' pass' there
  · rcases Board.turn_calls.mp there with ⟨rfl, both⟩ | ⟨_, there⟩
    · obtain ⟨rfl, rfl⟩ := Prod.mk.inj both
      exact ⟨entry, keeps.entry ▸ present, live⟩
    · exact sound.live other call' pass' there also
  · rcases Board.turn_calls.mp there with ⟨rfl, both⟩ | ⟨here, there⟩
    · obtain ⟨rfl, rfl⟩ := Prod.mk.inj both
      rcases Board.turn_calls.mp there' with ⟨same, _⟩ | ⟨_, there'⟩
      · exact absurd same apart
      · exact sound.alone other call pass found carries another apart call'' pass'' there'
          (entries.trans keeps.entry)
    · exact absurd (sound.only found carries there also) here
  · rcases Board.turn_calls.mp there with ⟨rfl, both⟩ | ⟨_, there⟩
    · obtain ⟨rfl, rfl⟩ := Prod.mk.inj both
      exact turned.closing closes
    · cases running.symm.trans (sound.closing other call' pass' there closes)

/-- A call that does not carry the task turns, and has it no more than before. -/
theorem Sound.rests (sound : Sound sent board stage)
    (found : board.calls index = some (call, pass)) (keeps : Keeps call later pass next)
    (same : hold later.phase next.nonRetryable = hold call.phase pass.nonRetryable)
    (rests : hold call.phase pass.nonRetryable ≠ .carries)
    (closing : later.upgrade = true ∨ later.phase = .settling false → stage = .ended) :
    Sound sent (board.turn index later next board.parked) stage := by
  obtain ⟨⟨entry, present, payload⟩, counted, maxAttempts, hasFallback, _⟩ :=
    sound.carried index call pass found
  have still : hold later.phase next.nonRetryable ≠ .carries := same ▸ rests
  refine ⟨sound.parked, fun position payload => ?_, fun other payload dispatchStarted => ?_,
    fun other call' pass' there => ?_, fun other call' pass' there also => ?_,
    fun other call' pass' there also another apart call'' pass'' there' entries => ?_,
    sound.sentParked, sound.sentEntries, sound.fresh, fun other call' pass' there closes => ?_⟩
  · rw [← sound.waits position payload]
    unfold Board.Waits
    rw [Board.idle_turn keeps.entry, Board.idle_iff found, same]
    rfl
  · rw [← sound.runs other payload dispatchStarted]
    constructor
    · rintro ⟨call', pass', there, also, facts⟩
      rcases Board.turn_calls.mp there with ⟨rfl, both⟩ | ⟨_, there⟩
      · obtain ⟨rfl, rfl⟩ := Prod.mk.inj both
        exact absurd also still
      · exact ⟨call', pass', there, also, facts⟩
    · rintro ⟨call', pass', there, also, facts⟩
      refine ⟨call', pass', Board.turn_calls.mpr (.inr ⟨?_, there⟩), also, facts⟩
      rintro rfl
      obtain ⟨rfl, rfl⟩ := Prod.mk.inj (Option.some.inj (found.symm.trans there))
      exact rests also
  · rcases Board.turn_calls.mp there with ⟨rfl, both⟩ | ⟨_, there⟩
    · obtain ⟨rfl, rfl⟩ := Prod.mk.inj both
      refine ⟨⟨entry, ?_, ?_⟩, ?_, ?_, ?_, fun also => absurd also still⟩
      · rw [keeps.entry]
        exact present
      · rw [keeps.payload]
        exact payload
      · rw [keeps.payload, keeps.attemptNo]
        exact counted
      · rw [keeps.payload, keeps.maxAttempts]
        exact maxAttempts
      · rw [keeps.payload, keeps.hasFallback]
        exact hasFallback
    · exact sound.carried other call' pass' there
  · rcases Board.turn_calls.mp there with ⟨rfl, both⟩ | ⟨_, there⟩
    · obtain ⟨rfl, rfl⟩ := Prod.mk.inj both
      exact absurd also still
    · exact sound.live other call' pass' there also
  · rcases Board.turn_calls.mp there with ⟨rfl, both⟩ | ⟨_, was⟩
    · obtain ⟨rfl, rfl⟩ := Prod.mk.inj both
      exact absurd also still
    · rcases Board.turn_calls.mp there' with ⟨rfl, both⟩ | ⟨_, was'⟩
      · obtain ⟨rfl, rfl⟩ := Prod.mk.inj both
        rw [same]
        exact sound.alone other call' pass' was also another apart call pass found
          (keeps.entry.symm.trans entries)
      · exact sound.alone other call' pass' was also another apart call'' pass'' was' entries
  · rcases Board.turn_calls.mp there with ⟨rfl, both⟩ | ⟨_, there⟩
    · obtain ⟨rfl, rfl⟩ := Prod.mk.inj both
      exact closing closes
    · exact sound.closing other call' pass' there closes

/-- An entry is written, and the task may come to be parked or leave its parking. -/
def Board.post (board : Board) (position : Nat) (entry : Entry) (parked : List Payload) : Board :=
  { board with entries := Function.update board.entries position (some entry), parked := parked }

/-- The entries of a board to which one was written. -/
theorem Board.post_entries {parked : List Payload} {position other : Nat} {entry found : Entry} :
    (board.post position entry parked).entries other = some found ↔
      other = position ∧ found = entry ∨ other ≠ position ∧ board.entries other = some found := by
  by_cases same : other = position
  · subst same
    simp [Board.post, eq_comm]
  · simp [Board.post, same]

/-- An entry leaves the stream that no call carries. -/
theorem Sound.drops {after : Stage} {position : Nat} {entry : Entry}
    (sound : Sound sent board stage) (present : board.entries position = some entry)
    (nobody : ∀ index call pass, board.calls index = some (call, pass) → pass.entry = position →
      hold call.phase pass.nonRetryable ≠ .carries)
    (parked : after.parkedPayloads = stage.parkedPayloads)
    (waits : ∀ other payload, after = .waiting other payload ↔
      stage = .waiting other payload ∧ other ≠ position)
    (runs : ∀ index payload dispatchStarted, after = .running index payload dispatchStarted ↔
      stage = .running index payload dispatchStarted)
    (known : after ≠ .unknown) (ended : stage = .ended → after = .ended) :
    Sound sent (board.post position { entry with live := false } board.parked) after := by
  have entries : ∀ other found,
      (board.post position { entry with live := false } board.parked).entries other = some found →
      ∃ old, board.entries other = some old ∧ old.payload = found.payload := by
    intro other found there
    rcases Board.post_entries.mp there with ⟨rfl, rfl⟩ | ⟨_, there⟩
    · exact ⟨entry, present, rfl⟩
    · exact ⟨found, there, rfl⟩
  refine ⟨parked ▸ sound.parked, fun other payload => ?_, fun index payload dispatchStarted => ?_,
    fun index call pass there => ?_, fun index call pass there carries => ?_, sound.alone,
    sound.sentParked, fun other found there => ?_, fun unknown => absurd unknown known,
    fun index call pass there closes => ended (sound.closing index call pass there closes)⟩
  · rw [waits, ← sound.waits other payload]
    constructor
    · rintro ⟨found, there, live, payloads, idle⟩
      rcases Board.post_entries.mp there with ⟨rfl, rfl⟩ | ⟨apart, there⟩
      · cases live
      · exact ⟨⟨found, there, live, payloads, idle⟩, apart⟩
    · rintro ⟨⟨found, there, live, payloads, idle⟩, apart⟩
      exact ⟨found, Board.post_entries.mpr (.inr ⟨apart, there⟩), live, payloads, idle⟩
  · rw [runs, ← sound.runs index payload dispatchStarted]
    rfl
  · obtain ⟨⟨found, was, payload⟩, counted, maxAttempts, hasFallback, started⟩ :=
      sound.carried index call pass there
    refine ⟨?_, counted, maxAttempts, hasFallback, started⟩
    by_cases here : pass.entry = position
    · obtain rfl := Option.some.inj (present.symm.trans (here ▸ was))
      exact ⟨_, Board.post_entries.mpr (.inl ⟨here, rfl⟩), payload⟩
    · exact ⟨found, Board.post_entries.mpr (.inr ⟨here, was⟩), payload⟩
  · obtain ⟨found, was, live⟩ := sound.live index call pass there carries
    have apart : pass.entry ≠ position := fun here => nobody index call pass there here carries
    exact ⟨found, Board.post_entries.mpr (.inr ⟨apart, was⟩), live⟩
  · obtain ⟨old, was, payload⟩ := entries other found there
    exact payload ▸ sound.sentEntries other old was

/-- The task enters the stream, where it is not under way. -/
theorem Sound.enters {position : Nat} {payload : Payload} (sound : Sound sent board stage)
    (absent : board.entries position = none)
    (still : stage = .unknown ∨ ∃ parked, stage = .parked parked) (sentAs : payload.Of sent) :
    Sound sent (board.post position { payload := payload } []) (.waiting position payload) := by
  have nowhere : (∀ other payload, ¬ board.Waits other payload) ∧
      (∀ index payload dispatchStarted, ¬ board.Runs index payload dispatchStarted) ∧
      stage ≠ .ended := by
    refine ⟨fun other payload waits => ?_, fun index payload dispatchStarted runs => ?_, ?_⟩
    · have waiting := (sound.waits other payload).mp waits
      rcases still with rfl | ⟨parked, rfl⟩ <;> cases waiting
    · have running := (sound.runs index payload dispatchStarted).mp runs
      rcases still with rfl | ⟨parked, rfl⟩ <;> cases running
    · rcases still with rfl | ⟨parked, rfl⟩ <;> nofun
  have apart : ∀ {index : Nat} {call : Call} {pass : Pass},
      board.calls index = some (call, pass) → pass.entry ≠ position := by
    intro index call pass there here
    obtain ⟨⟨found, was, _⟩, _⟩ := sound.carried index call pass there
    cases absent.symm.trans (here ▸ was)
  obtain ⟨noWaits, noRuns, open'⟩ := nowhere
  refine ⟨rfl, fun other payload' => ?_, fun index payload' dispatchStarted => ?_,
    fun index call pass there => ?_, fun index call pass there carries => ?_, sound.alone, nofun,
    fun other found there => ?_, nofun, fun index call pass there closes => ?_⟩
  · constructor
    · rintro ⟨found, there, live, rfl, idle⟩
      rcases Board.post_entries.mp there with ⟨rfl, rfl⟩ | ⟨_, there⟩
      · rfl
      · exact absurd ⟨found, there, live, rfl, idle⟩ (noWaits other found.payload)
    · intro same
      obtain ⟨rfl, rfl⟩ := Stage.waiting.inj same
      refine ⟨_, Board.post_entries.mpr (.inl ⟨rfl, rfl⟩), rfl, rfl, fun index call pass there here => ?_⟩
      exact absurd here (apart there)
  · exact ⟨fun runs => absurd runs (noRuns index payload' dispatchStarted), nofun⟩
  · obtain ⟨⟨found, was, payload⟩, counted, maxAttempts, hasFallback, started⟩ :=
      sound.carried index call pass there
    exact ⟨⟨found, Board.post_entries.mpr (.inr ⟨apart there, was⟩), payload⟩, counted, maxAttempts,
      hasFallback, started⟩
  · obtain ⟨found, was, live⟩ := sound.live index call pass there carries
    exact ⟨found, Board.post_entries.mpr (.inr ⟨apart there, was⟩), live⟩
  · rcases Board.post_entries.mp there with ⟨rfl, rfl⟩ | ⟨_, there⟩
    · exact sentAs
    · exact sound.sentEntries other found there
  · exact absurd (sound.closing index call pass there closes) open'

/-- A call takes the entry the task waits as. -/
theorem Sound.takes {position deliveryCount : Nat} {entry : Entry}
    (sound : Sound sent board (.waiting position entry.payload))
    (present : board.entries position = some entry) (absent : board.calls index = none)
    (carried : Carried board.entries call pass) (own : pass.entry = position)
    (carries : hold call.phase pass.nonRetryable = .carries) (begins : pass.dispatchStarted = false)
    (closing : ¬ (call.upgrade = true ∨ call.phase = .settling false)) :
    Sound sent ((board.turn index call pass []).post position
      { entry with deliveryCount := deliveryCount } []) (.running index entry.payload false) := by
  obtain ⟨found, was, live, _, idle⟩ := (sound.waits position entry.payload).mpr rfl
  obtain rfl := Option.some.inj (present.symm.trans was)
  have noRuns : ∀ {other : Nat} {call' : Call} {pass' : Pass},
      board.calls other = some (call', pass') → hold call'.phase pass'.nonRetryable ≠ .carries := by
    intro other call' pass' there also
    cases (sound.runs _ _ _).mp ⟨call', pass', there, also, rfl, rfl⟩
  have payload : pass.payload = entry.payload := by
    obtain ⟨⟨found, was, same⟩, _⟩ := carried
    obtain rfl := Option.some.inj (present.symm.trans (own ▸ was))
    exact same.symm
  have rows : ∀ {other : Nat} {both : Call × Pass}, ((board.turn index call pass []).post position
      { entry with deliveryCount := deliveryCount } []).calls other = some both ↔
      other = index ∧ both = (call, pass) ∨ other ≠ index ∧ board.calls other = some both :=
    fun {other both} => @Board.turn_calls board index call pass [] other both
  have kept : ∀ {call' : Call} {pass' : Pass}, Carried board.entries call' pass' →
      Carried ((board.turn index call pass []).post position
        { entry with deliveryCount := deliveryCount } []).entries call' pass' := by
    rintro call' pass' ⟨⟨found, was, same⟩, counted, maxAttempts, hasFallback, started⟩
    refine ⟨?_, counted, maxAttempts, hasFallback, started⟩
    by_cases here : pass'.entry = position
    · obtain rfl := Option.some.inj (present.symm.trans (here ▸ was))
      exact ⟨_, Board.post_entries.mpr (.inl ⟨here, rfl⟩), same⟩
    · exact ⟨found, Board.post_entries.mpr (.inr ⟨here, was⟩), same⟩
  refine ⟨rfl, fun other payload' => ⟨?_, nofun⟩, fun other payload' dispatchStarted => ?_,
    fun other call' pass' there => ?_, fun other call' pass' there also => ?_,
    fun other call' pass' there also another apart call'' pass'' there' entries => ?_,
    nofun, fun other found there => ?_, nofun, fun other call' pass' there closes => ?_⟩
  · rintro ⟨found, there, live', payloads, idle'⟩
    have own' := idle' index call pass (rows.mpr (.inl ⟨rfl, rfl⟩))
    rcases Board.post_entries.mp there with ⟨rfl, rfl⟩ | ⟨apart, there⟩
    · cases carries.symm.trans (own' own)
    · have waits : board.Waits other payload' := by
        refine ⟨found, there, live', payloads, fun another call' pass' there' here => ?_⟩
        refine idle' another call' pass' (rows.mpr (.inr ⟨?_, there'⟩)) here
        rintro rfl
        cases absent.symm.trans there'
      exact absurd (Stage.waiting.inj ((sound.waits other payload').mp waits)).1.symm apart
  · constructor
    · rintro ⟨call', pass', there, also, rfl, rfl⟩
      rcases rows.mp there with ⟨rfl, both⟩ | ⟨_, there⟩
      · obtain ⟨rfl, rfl⟩ := Prod.mk.inj both
        rw [payload, begins]
      · exact absurd also (noRuns there)
    · intro same
      obtain ⟨rfl, rfl, rfl⟩ := Stage.running.inj same
      exact ⟨call, pass, rows.mpr (.inl ⟨rfl, rfl⟩), carries, payload, begins⟩
  · rcases rows.mp there with ⟨rfl, both⟩ | ⟨_, there⟩
    · obtain ⟨rfl, rfl⟩ := Prod.mk.inj both
      exact kept carried
    · exact kept (sound.carried other call' pass' there)
  · rcases rows.mp there with ⟨rfl, both⟩ | ⟨_, there⟩
    · obtain ⟨rfl, rfl⟩ := Prod.mk.inj both
      exact ⟨_, Board.post_entries.mpr (.inl ⟨own, rfl⟩), live⟩
    · exact absurd also (noRuns there)
  · rcases rows.mp there with ⟨rfl, both⟩ | ⟨_, was⟩
    · obtain ⟨rfl, rfl⟩ := Prod.mk.inj both
      rcases rows.mp there' with ⟨same, _⟩ | ⟨_, was'⟩
      · exact absurd same apart
      · exact idle another call'' pass'' was' (entries.trans own)
    · exact absurd also (noRuns was)
  · rcases Board.post_entries.mp there with ⟨rfl, rfl⟩ | ⟨_, there⟩
    · exact sound.sentEntries other entry present
    · exact sound.sentEntries other found there
  · rcases rows.mp there with ⟨rfl, both⟩ | ⟨_, there⟩
    · obtain ⟨rfl, rfl⟩ := Prod.mk.inj both
      exact absurd closes closing
    · cases sound.closing other call' pass' there closes

/-- The task is parked before it was ever sent. -/
theorem Sound.parks {payload : Payload} (sound : Sound sent board .unknown)
    (sentAs : payload.Of sent) :
    Sound sent { board with parked := [payload] } (.parked payload) := by
  have noWaits : ∀ position payload, ¬ board.Waits position payload :=
    fun position payload waits => nomatch (sound.waits position payload).mp waits
  have noRuns : ∀ index payload dispatchStarted, ¬ board.Runs index payload dispatchStarted :=
    fun index payload dispatchStarted runs =>
      nomatch (sound.runs index payload dispatchStarted).mp runs
  refine ⟨rfl, fun position payload => ⟨fun waits => absurd waits (noWaits position payload), nofun⟩,
    fun index payload dispatchStarted => ⟨fun runs => absurd runs (noRuns _ _ _), nofun⟩,
    sound.carried, sound.live, sound.alone, ?_, sound.sentEntries, nofun,
    fun index call pass there closes => nomatch sound.closing index call pass there closes⟩
  intro one listed
  exact List.mem_singleton.mp listed ▸ sentAs

end Notifkit.Delivery.Log
