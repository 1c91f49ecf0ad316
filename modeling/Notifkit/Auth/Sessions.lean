import Notifkit.Api.HandleRequest
import Notifkit.Foundations.ExpiringStore
import Notifkit.Foundations.HexTexts
import Notifkit.Foundations.Runs
import Notifkit.Foundations.Tables

/-!
# Administrators and their sessions

An administrator logs in with an e-mail address or a user name and a password, and gets a token that
stands for a session in Redis. The session ends after seven days, or when it is logged out.

Logins run side by side. Each waits for the user's row, for the password to be derived and for Redis;
a command that fails may still have taken effect. Tokens are random, and none is made twice. The rows
of users change at any time.
-/

namespace Notifkit.Auth

open Runs Tables HexTexts

/-- `DEFAULT_SESSION_TTL_SECONDS`, seven days -/
def DEFAULT_SESSION_TTL_SECONDS : Nat := 7 * 24 * 60 * 60

def SESSION_PREFIX : Text := "notif:session:".toList

/-- A key derivation gives as many octets as it is asked for. What lower case is is up to the
language. -/
structure Crypto where
  scrypt : Text → Text → Nat → Octets
  scryptLength : ∀ password salt length, (scrypt password salt length).length = length
  toLowerCase : Text → Text

/-- A row of `admin_users`. -/
structure AdminUser where
  id : Text
  email : Text
  username : Option Text := none
  passwordHash : Text
  role : Text
deriving DecidableEq

structure Session where
  token : Text
  adminId : Text
  email : Text
  username : Option Text
  role : Text
  createdAt : Nat
  expiresAt : Nat
deriving DecidableEq

section Passwords

variable (crypto : Crypto)

/-- `hashPassword`, with the salt it chose -/
def hashPassword (salt : Octets) (password : Text) : Text :=
  toHex salt ++ ':' :: toHex (crypto.scrypt password (toHex salt) 64)

def verifyPassword (password storedHash : Text) : Bool :=
  match storedHash.splitOn ':' with
  | salt :: key :: _ =>
    if salt = [] ∨ key = [] then false
    else
      let keyBuffer := fromHex key
      let derivedKey := crypto.scrypt password salt keyBuffer.length
      if derivedKey.length ≠ keyBuffer.length then false else derivedKey = keyBuffer
  | _ => false

/-- What a login takes for the user's password: it, or it without the spaces at its ends. -/
def isValid (password storedHash : Text) : Bool :=
  verifyPassword crypto password storedHash ||
    password.trim ≠ password && password.trim ≠ [] &&
      verifyPassword crypto password.trim storedHash

/-- The row is one that `findByEmailOrUsername` may answer. -/
def AdminUser.goesBy (user : AdminUser) (identifier : Text) : Prop :=
  user.email = crypto.toLowerCase identifier.trim ∨ user.username = some identifier.trim

instance (user : AdminUser) (identifier : Text) : Decidable (user.goesBy crypto identifier) :=
  inferInstanceAs (Decidable (_ ∨ _))

end Passwords

/-- The session `createAdminSession` makes for a user. -/
def AdminUser.session (user : AdminUser) (token : Text) (now : Nat) : Session where
  token := token
  adminId := user.id
  email := user.email
  username := user.username
  role := user.role
  createdAt := now
  expiresAt := now + DEFAULT_SESSION_TTL_SECONDS * 1000

abbrev Sessions := ExpiringStore Text Session

def sessionKey (token : Text) : Text := SESSION_PREFIX ++ token

/-- The session of a token, and what is left of it in Redis. -/
def getAdminSession (sessions : Sessions) (now : Nat) (token : Text) : Option Session × Sessions :=
  if token = [] ∨ Api.isSessionToken token = false then (none, sessions)
  else
    match sessions.get now (sessionKey token) with
    | none => (none, sessions)
    | some session =>
      if session.expiresAt ≤ now then (none, sessions.del (sessionKey token))
      else (some session, sessions)

/-- What a login is answered with. -/
inductive LoginResponse where
  | ok (session : Session)
  | unauthorized
  | failed
deriving DecidableEq

/-- What a login waits for. -/
inductive Phase where
  /-- the user's row -/
  | asked
  /-- the derivation of the password -/
  | checking
  /-- the password is right, the session is to be made -/
  | valid
  /-- Redis -/
  | setting
  | answered (response : LoginResponse)
deriving DecidableEq

/-- A login that is under way or over. -/
structure Login where
  identifier : Text
  password : Text
  phase : Phase := .asked
  found : Option AdminUser := none
  session : Option Session := none
  /-- the session was written to Redis -/
  landed : Bool := false
  /-- it was logged out after that -/
  revoked : Bool := false
deriving DecidableEq

/-- A user was found, and the password is the user's. -/
def Login.isRight (crypto : Crypto) (login : Login) : Bool :=
  match login.found with
  | some user => isValid crypto login.password user.passwordHash
  | none => false

structure World where
  now : Nat := 0
  users : List AdminUser := []
  sessions : Sessions := .empty
  logins : List Login := []

/-- What happens. Logins are named by their places. -/
inductive Action where
  | tick (ms : Nat)
  | write (users : List AdminUser)
  | login (identifier password : Text)
  /-- the row that was found, of those that match -/
  | find (place : Nat) (found : Option AdminUser)
  | check (place : Nat)
  | create (place : Nat) (token : Text)
  | set (place : Nat)
  | setFails (place : Nat) (landed : Bool)
  /-- a logout's command takes effect -/
  | logout (token : Text)
  /-- a request presents a token -/
  | present (token : Text)

/-- What `findByEmailOrUsername` may answer: a row that matches, or none where none does. -/
def World.mayFind (crypto : Crypto) (world : World) (identifier : Text) : Option AdminUser → Prop
  | some user => user ∈ world.users ∧ user.goesBy crypto identifier
  | none => ∀ user ∈ world.users, ¬ user.goesBy crypto identifier

instance (crypto : Crypto) (world : World) (identifier : Text) :
    (found : Option AdminUser) → Decidable (world.mayFind crypto identifier found)
  | some _ => inferInstanceAs (Decidable (_ ∧ _))
  | none => inferInstanceAs (Decidable (∀ _ ∈ _, _))

/-- No session was made for the token. -/
def World.unused (world : World) (token : Text) : Prop :=
  ∀ login ∈ world.logins, ∀ session ∈ login.session, session.token ≠ token

instance (world : World) (token : Text) : Decidable (world.unused token) :=
  inferInstanceAs (Decidable (∀ _ ∈ _, ∀ _ ∈ _, _))

/-- A login goes on. -/
def World.put (world : World) (place : Nat) (login : Login) : World :=
  { world with logins := world.logins.set place login }

/-- The session is written. -/
def World.store (world : World) (session : Session) : World := { world with
  sessions := world.sessions.set (sessionKey session.token) session
    (world.now + DEFAULT_SESSION_TTL_SECONDS * 1000) }

/-- A login whose session has the token is logged out. -/
def Login.logOut (token : Text) (login : Login) : Login :=
  if login.landed = true ∧ login.session.map Session.token = some token then
    { login with revoked := true }
  else login

def step (crypto : Crypto) (world : World) : Action → Option World
  | .tick ms => some { world with now := world.now + ms }
  | .write users => some { world with users := users }
  | .login identifier password =>
    if identifier = [] ∨ password = [] then none
    else some { world with logins := world.logins ++ [{ identifier, password }] }
  | .find place found => do
    let login ← world.logins[place]?
    if login.phase = .asked ∧ world.mayFind crypto login.identifier found then
      some (world.put place { login with phase := .checking, found := found })
    else none
  | .check place => do
    let login ← world.logins[place]?
    if login.phase = .checking then
      some (world.put place { login with
        phase := if login.isRight crypto then .valid else .answered .unauthorized })
    else none
  | .create place token => do
    let login ← world.logins[place]?
    let user ← login.found
    if login.phase = .valid ∧ Api.isSessionToken token = true ∧ world.unused token then
      some (world.put place
        { login with phase := .setting, session := some (user.session token world.now) })
    else none
  | .set place => do
    let login ← world.logins[place]?
    let session ← login.session
    if login.phase = .setting then
      some ((world.store session).put place
        { login with phase := .answered (.ok session), landed := true })
    else none
  | .setFails place landed => do
    let login ← world.logins[place]?
    let session ← login.session
    if login.phase = .setting then
      some ((if landed then world.store session else world).put place
        { login with phase := .answered .failed, landed := landed })
    else none
  | .logout token =>
    if token = [] then none
    else some { world with
      sessions := world.sessions.del (sessionKey token)
      logins := world.logins.map (Login.logOut token) }
  | .present token => some { world with
      sessions := (getAdminSession world.sessions world.now token).2 }

section Passwords

variable {crypto : Crypto}

/-- A hash that was made of a password takes another one exactly where both derive the same key. -/
theorem verify_hash (salt : Octets) (some_salt : salt ≠ []) (secret password : Text) :
    verifyPassword crypto password (hashPassword crypto salt secret) = true ↔
      crypto.scrypt password (toHex salt) 64 = crypto.scrypt secret (toHex salt) 64 := by
  have long : (crypto.scrypt secret (toHex salt) 64).length = 64 := crypto.scryptLength ..
  have key : crypto.scrypt secret (toHex salt) 64 ≠ [] := by
    intro none
    rw [none] at long
    cases long
  have parts : (hashPassword crypto salt secret).splitOn ':' =
      [toHex salt, toHex (crypto.scrypt secret (toHex salt) 64)] := by
    unfold hashPassword
    rw [List.splitOn_append_cons_self, List.splitOn_eq_singleton (colon_notMem_toHex _),
      List.splitOn_eq_singleton (colon_notMem_toHex _)]
    rfl
  unfold verifyPassword
  rw [parts]
  dsimp only
  rw [if_neg (by simp [toHex_ne_nil some_salt, toHex_ne_nil key]), fromHex_toHex, long,
    if_neg (by simp [crypto.scryptLength]), decide_eq_true_iff]

end Passwords

/-- What is known of a login by itself. -/
structure Login.Sound (crypto : Crypto) (now : Nat) (login : Login) : Prop where
  found : ∀ user ∈ login.found, user.goesBy crypto login.identifier
  valid : login.phase = .valid ∨ login.phase = .setting ∨ login.session.isSome = true →
    ∃ user, login.found = some user ∧ isValid crypto login.password user.passwordHash = true
  session : ∀ session ∈ login.session, Api.isSessionToken session.token = true ∧
    session.createdAt ≤ now ∧ ∃ user, login.found = some user ∧
      session = user.session session.token session.createdAt
  late : login.session.isSome = true → login.phase ≠ .asked ∧ login.phase ≠ .checking ∧
    login.phase ≠ .valid
  early : login.phase = .setting → login.landed = false
  answered : ∀ session, login.phase = .answered (.ok session) → login.session = some session ∧
    login.landed = true
  landed : login.landed = true → login.session.isSome = true
  revoked : login.revoked = true → login.landed = true

/-- A session stands for a login: it was made by it, was written and not logged out. -/
def Login.Stands (session : Session) (login : Login) : Prop :=
  login.session = some session ∧ login.landed = true ∧ login.revoked = false

instance (session : Session) (login : Login) : Decidable (login.Stands session) :=
  inferInstanceAs (Decidable (_ ∧ _ ∧ _))

/-- What holds in every state of every run. -/
structure Sound (crypto : Crypto) (world : World) : Prop where
  logins : ∀ login ∈ world.logins, login.Sound crypto world.now
  single : ∀ (one two : Nat) login other session session', world.logins[one]? = some login →
    world.logins[two]? = some other → login.session = some session →
    other.session = some session' → session.token = session'.token → one = two
  stored : ∀ key session last, world.sessions.cell key = some (session, last) →
    key = sessionKey session.token ∧ ∃ login ∈ world.logins, login.Stands session
  kept : ∀ login ∈ world.logins, ∀ session, login.Stands session → world.now < session.expiresAt →
    ∃ last, world.sessions.cell (sessionKey session.token) = some (session, last) ∧
      session.expiresAt ≤ last

section Steps

variable {crypto : Crypto} {world after : World} {place : Nat} {login next : Login} {token : Text}
  {session : Session}

theorem sessionKey_inj {other : Text} : sessionKey token = sessionKey other ↔ token = other :=
  List.append_cancel_left_eq .. |>.to_iff

/-- A login that is neither written nor logged out stands for nothing. -/
theorem Login.Sound.nothing (sound : login.Sound crypto world.now)
    (early : login.phase = .asked ∨ login.phase = .checking ∨ login.phase = .valid ∨
      login.phase = .setting) (session : Session) : ¬ login.Stands session := by
  rintro ⟨made, landed, _⟩
  have late := sound.late (by rw [made]; rfl)
  rcases early with asked | checking | valid | setting
  · exact late.1 asked
  · exact late.2.1 checking
  · exact late.2.2 valid
  · rw [sound.early setting] at landed
    cases landed

/-- A login is new or goes on, before and after that standing for nothing. -/
theorem Sound.quiet (sound : Sound crypto world) (place : Nat) {logins : List Login}
    (rows : ∀ (at' : Nat) row, logins[at']? = some row →
      at' = place ∧ row = next ∨ at' ≠ place ∧ world.logins[at']? = some row)
    (others : ∀ row ∈ world.logins, ∀ session, row.Stands session → row ∈ logins)
    (known : next.Sound crypto world.now) (nothing : ∀ session, ¬ next.Stands session)
    (unused : ∀ session ∈ next.session, ∀ (at' : Nat) other session', at' ≠ place →
      world.logins[at']? = some other → other.session = some session' →
      session.token ≠ session'.token) :
    Sound crypto { world with logins := logins } where
  logins row member := by
    obtain ⟨at', found⟩ := List.mem_iff_getElem?.mp member
    rcases rows at' row found with ⟨_, rfl⟩ | ⟨_, before⟩
    · exact known
    · exact sound.logins row (List.mem_of_getElem? before)
  single one two row other session session' foundRow foundOther made madeOther same := by
    rcases rows one row foundRow with ⟨rfl, rfl⟩ | ⟨differ, before⟩
    · rcases rows two other foundOther with ⟨rfl, _⟩ | ⟨differ, before⟩
      · rfl
      · exact absurd same (unused session made two other session' differ before madeOther)
    · rcases rows two other foundOther with ⟨rfl, rfl⟩ | ⟨_, beforeOther⟩
      · exact absurd same.symm (unused session' madeOther one row session differ before made)
      · exact sound.single one two row other session session' before beforeOther made madeOther same
  stored key session last there := by
    obtain ⟨named, row, member, stands⟩ := sound.stored key session last there
    exact ⟨named, row, others row member session stands, stands⟩
  kept row member session stands inTime := by
    obtain ⟨at', found⟩ := List.mem_iff_getElem?.mp member
    rcases rows at' row found with ⟨_, rfl⟩ | ⟨_, before⟩
    · exact absurd stands (nothing session)
    · exact sound.kept row (List.mem_of_getElem? before) session stands inTime

/-- A login goes on and stands for nothing before and after. -/
theorem Sound.goOn (sound : Sound crypto world) (present : world.logins[place]? = some login)
    (early : ∀ session, ¬ login.Stands session) (known : next.Sound crypto world.now)
    (nothing : ∀ session, ¬ next.Stands session)
    (unused : ∀ session ∈ next.session, ∀ (at' : Nat) other session', at' ≠ place →
      world.logins[at']? = some other → other.session = some session' →
      session.token ≠ session'.token) : Sound crypto (world.put place next) := by
  refine sound.quiet place (fun at' row found => (row_set present).mp found) ?_ known nothing unused
  intro row member session stands
  obtain ⟨at', found⟩ := List.mem_iff_getElem?.mp member
  refine List.mem_of_getElem? ((row_set present).mpr (.inr ⟨?_, found⟩))
  rintro rfl
  obtain rfl : login = row := Option.some.inj (present.symm.trans found)
  exact early session stands

/-- A login that has no session yet, or gets none. -/
theorem Login.Sound.plain {now : Nat} (none : next.session = none)
    (found : ∀ user ∈ next.found, user.goesBy crypto next.identifier)
    (valid : next.phase = .valid → ∃ user, next.found = some user ∧
      isValid crypto next.password user.passwordHash = true)
    (phase : next.phase ≠ .setting ∧ ∀ session, next.phase ≠ .answered (.ok session))
    (landed : next.landed = false) (revoked : next.revoked = false) : next.Sound crypto now where
  found := found
  valid := fun late => by
    rcases late with right | setting | made
    · exact valid right
    · exact absurd setting phase.1
    · rw [none] at made
      cases made
  session := fun session made => by
    rw [Option.mem_def, none] at made
    cases made
  late := fun made => by
    rw [none] at made
    cases made
  early := fun _ => landed
  answered := fun session answered => absurd answered (phase.2 session)
  landed := fun written => by
    rw [landed] at written
    cases written
  revoked := fun out => by
    rw [revoked] at out
    cases out

/-- What is known of a login that has no session. -/
theorem Login.Sound.blank {now : Nat} (sound : login.Sound crypto now)
    (early : login.phase = .asked ∨ login.phase = .checking ∨ login.phase = .valid) :
    login.session = none ∧ login.landed = false ∧ login.revoked = false := by
  have none : login.session = none := by
    by_contra made
    have late := sound.late (Option.isSome_iff_ne_none.mpr made)
    rcases early with asked | checking | valid
    · exact late.1 asked
    · exact late.2.1 checking
    · exact late.2.2 valid
  have landed : login.landed = false := Bool.eq_false_iff.mpr fun written => by
    have made := sound.landed written
    rw [none] at made
    cases made
  refine ⟨none, landed, Bool.eq_false_iff.mpr fun out => ?_⟩
  have written := sound.revoked out
  rw [landed] at written
  cases written

/-- Without a session a login stands for nothing. -/
theorem Login.standsNot (none : login.session = none) (session : Session) :
    ¬ login.Stands session := by
  rintro ⟨made, _⟩
  rw [none] at made
  cases made

/-- A login arrives. -/
theorem Sound.arrive (sound : Sound crypto world) (identifier password : Text) :
    Sound crypto { world with logins := world.logins ++ [{ identifier, password }] } := by
  have known : ({ identifier, password } : Login).Sound crypto world.now :=
    .plain rfl (fun user found => by cases found) (fun valid => by cases valid) (by simp) rfl rfl
  refine sound.quiet world.logins.length (fun at' row found => ?_)
    (fun row member _ _ => List.mem_append_left _ member) known (Login.standsNot rfl)
    (fun session made => by cases made)
  rcases row_append.mp found with before | last
  · exact .inr ⟨Nat.ne_of_lt (List.getElem?_eq_some_iff.mp before).1, before⟩
  · exact .inl last

/-- The user's row is answered. -/
theorem Sound.find (sound : Sound crypto world) {found : Option AdminUser}
    (taken : step crypto world (.find place found) = some after) : Sound crypto after := by
  obtain ⟨login, present, taken⟩ := Option.bind_eq_some_iff.mp taken
  obtain ⟨⟨asked, may⟩, same⟩ := Option.ite_none_right_eq_some.mp taken
  obtain rfl := Option.some.inj same
  have known := sound.logins login (List.mem_of_getElem? present)
  obtain ⟨none, landed, revoked⟩ := known.blank (.inl asked)
  refine sound.goOn present (Login.standsNot none) (.plain none (fun user given => ?_)
    (fun valid => by cases valid) (by simp) landed revoked) (Login.standsNot none)
    (fun session made => ?_)
  · obtain rfl : found = some user := given
    exact may.2
  · rw [Option.mem_def, none] at made
    cases made

/-- The password was derived. -/
theorem Sound.check (sound : Sound crypto world)
    (taken : step crypto world (.check place) = some after) : Sound crypto after := by
  obtain ⟨login, present, taken⟩ := Option.bind_eq_some_iff.mp taken
  obtain ⟨checking, same⟩ := Option.ite_none_right_eq_some.mp taken
  obtain rfl := Option.some.inj same
  have known := sound.logins login (List.mem_of_getElem? present)
  obtain ⟨none, landed, revoked⟩ := known.blank (.inr (.inl checking))
  have phase : (if login.isRight crypto then Phase.valid else .answered .unauthorized) ≠ .setting ∧
      ∀ session, (if login.isRight crypto then Phase.valid else .answered .unauthorized) ≠
        .answered (.ok session) := by
    cases login.isRight crypto <;> simp
  refine sound.goOn present (Login.standsNot none) (.plain none known.found (fun valid => ?_) phase
    landed revoked) (Login.standsNot none) (fun session made => ?_)
  · have right : login.isRight crypto = true := by
      cases right : login.isRight crypto with
      | true => rfl
      | false =>
        rw [right] at valid
        cases valid
    unfold Login.isRight at right
    cases found : login.found with
    | none =>
      rw [found] at right
      cases right
    | some user =>
      rw [found] at right
      exact ⟨user, rfl, right⟩
  · rw [Option.mem_def, none] at made
    cases made

/-- The session is made. -/
theorem Sound.create (sound : Sound crypto world)
    (taken : step crypto world (.create place token) = some after) : Sound crypto after := by
  obtain ⟨login, present, taken⟩ := Option.bind_eq_some_iff.mp taken
  obtain ⟨user, found, taken⟩ := Option.bind_eq_some_iff.mp taken
  obtain ⟨⟨valid, marked, unused⟩, same⟩ := Option.ite_none_right_eq_some.mp taken
  obtain rfl := Option.some.inj same
  have known := sound.logins login (List.mem_of_getElem? present)
  obtain ⟨none, landed, revoked⟩ := known.blank (.inr (.inr valid))
  refine sound.goOn present (Login.standsNot none) ?_ ?_ ?_
  · exact {
      found := known.found
      valid := fun _ => known.valid (.inl valid)
      session := fun session made => by
        obtain rfl : user.session token world.now = session := Option.some.inj made
        exact ⟨marked, Nat.le_refl _, user, found, rfl⟩
      late := fun _ => by simp
      early := fun _ => landed
      answered := fun session answered => by cases answered
      landed := fun _ => rfl
      revoked := known.revoked }
  · rintro session ⟨_, written, _⟩
    have written : login.landed = true := written
    rw [landed] at written
    cases written
  · intro session made at' other session' _ there madeOther
    obtain rfl : user.session token world.now = session := Option.some.inj made
    exact (unused other (List.mem_of_getElem? there) session' madeOther).symm

/-- A session is written, whether or not its login is told so. -/
theorem Sound.write (sound : Sound crypto world) (present : world.logins[place]? = some login)
    (made : login.session = some session) (setting : login.phase = .setting)
    {response : LoginResponse} (answer : ∀ given, response = .ok given → given = session) :
    Sound crypto ((world.store session).put place
      { login with phase := .answered response, landed := true }) := by
  have known := sound.logins login (List.mem_of_getElem? present)
  have notYet := known.nothing (.inr (.inr (.inr setting)))
  obtain ⟨_, past, user, _, whole⟩ := known.session session made
  have notOut : login.revoked = false := Bool.eq_false_iff.mpr fun out => by
    have written := known.revoked out
    rw [known.early setting] at written
    cases written
  have within : session.expiresAt ≤ world.now + DEFAULT_SESSION_TTL_SECONDS * 1000 := by
    rw [whole]
    exact Nat.add_le_add_right past _
  have apart : ∀ (at' : Nat) other session', at' ≠ place → world.logins[at']? = some other →
      other.session = some session' → session'.token ≠ session.token := by
    intro at' other session' differ there madeOther same
    exact differ (sound.single at' place other login session' session there present madeOther made same)
  exact {
    logins := all_set sound.logins {
      found := known.found
      valid := fun _ => known.valid (.inr (.inl setting))
      session := known.session
      late := fun _ => by simp
      early := fun setting => by cases setting
      answered := fun given answered => by
        rw [answer given (Phase.answered.inj answered)]
        exact ⟨made, rfl⟩
      landed := fun _ => by
        dsimp only
        rw [made]
        rfl
      revoked := fun _ => rfl }
    single := fun one two row other one' two' foundRow foundOther madeRow madeOther same => by
      have before : ∀ {at' : Nat} {row : Login} {session' : Session},
          (world.logins.set place { login with phase := .answered response, landed := true })[at']? =
            some row → row.session = some session' → ∃ row', world.logins[at']? = some row' ∧
              row'.session = some session' := by
        intro at' row session' there madeRow
        rcases (row_set present).mp there with ⟨rfl, rfl⟩ | ⟨_, old⟩
        · exact ⟨login, present, madeRow⟩
        · exact ⟨row, old, madeRow⟩
      obtain ⟨row', old, oldMade⟩ := before foundRow madeRow
      obtain ⟨other', oldOther, oldOtherMade⟩ := before foundOther madeOther
      exact sound.single one two row' other' one' two' old oldOther oldMade oldOtherMade same
    stored := fun key kept last there => by
      change (world.sessions.set (sessionKey session.token) session _).cell key = _ at there
      rw [ExpiringStore.set_cell] at there
      split at there
      next same =>
        obtain ⟨rfl, _⟩ := Prod.mk.inj (Option.some.inj there)
        exact ⟨same, _, List.mem_of_getElem? ((row_set present).mpr (.inl ⟨rfl, rfl⟩)), made, rfl,
          notOut⟩
      next =>
        obtain ⟨named, row, member, stands⟩ := sound.stored key kept last there
        obtain ⟨at', found⟩ := List.mem_iff_getElem?.mp member
        refine ⟨named, row, List.mem_of_getElem? ((row_set present).mpr (.inr ⟨?_, found⟩)), stands⟩
        rintro rfl
        obtain rfl : login = row := Option.some.inj (present.symm.trans found)
        exact notYet kept stands
    kept := fun row member kept stands inTime => by
      obtain ⟨at', found⟩ := List.mem_iff_getElem?.mp member
      change ∃ last, (world.sessions.set (sessionKey session.token) session _).cell _ = _ ∧ _
      rcases (row_set present).mp found with ⟨rfl, rfl⟩ | ⟨differ, old⟩
      · obtain rfl : session = kept := Option.some.inj (made.symm.trans stands.1)
        exact ⟨_, if_pos rfl, within⟩
      · obtain ⟨last, there, late⟩ := sound.kept row (List.mem_of_getElem? old) kept stands inTime
        refine ⟨last, ?_, late⟩
        rw [ExpiringStore.set_cell, if_neg fun same =>
          apart at' row kept differ old stands.1 (sessionKey_inj.mp same)]
        exact there }

/-- A session's command fails, having taken effect or not. -/
theorem Sound.setFails (sound : Sound crypto world) {landed : Bool}
    (taken : step crypto world (.setFails place landed) = some after) : Sound crypto after := by
  obtain ⟨login, present, taken⟩ := Option.bind_eq_some_iff.mp taken
  obtain ⟨session, made, taken⟩ := Option.bind_eq_some_iff.mp taken
  obtain ⟨setting, same⟩ := Option.ite_none_right_eq_some.mp taken
  obtain rfl := Option.some.inj same
  have known := sound.logins login (List.mem_of_getElem? present)
  cases landed with
  | true => exact sound.write present made setting (fun given impossible => by cases impossible)
  | false =>
    refine sound.goOn present (known.nothing (.inr (.inr (.inr setting)))) ?_ ?_ ?_
    · exact {
        found := known.found
        valid := fun _ => known.valid (.inr (.inl setting))
        session := known.session
        late := fun _ => by simp
        early := fun setting => by cases setting
        answered := fun given answered => by cases answered
        landed := fun written => by cases written
        revoked := fun out => by
          have written := known.revoked out
          rw [known.early setting] at written
          cases written }
    · rintro kept ⟨_, written, _⟩
      cases written
    · intro kept madeKept at' other session' differ there madeOther same
      obtain rfl : session = kept := Option.some.inj (made.symm.trans madeKept)
      exact differ (sound.single at' place other login session' session there present madeOther made
        same.symm)

/-- A logout changes nothing of a login but that it is logged out. -/
theorem Login.logOut_session (token : Text) (login : Login) :
    (login.logOut token).session = login.session := by
  unfold Login.logOut
  split <;> rfl

/-- A session stands after a logout where it did before and has another token. -/
theorem Login.stands_logOut : (login.logOut token).Stands session ↔
    login.Stands session ∧ session.token ≠ token := by
  unfold Login.logOut Login.Stands
  split
  next out =>
    constructor
    · rintro ⟨_, _, impossible⟩
      cases impossible
    · rintro ⟨⟨made, _, _⟩, other⟩
      rw [made] at out
      exact absurd (Option.some.inj out.2) other
  next stays =>
    constructor
    · rintro ⟨made, landed, notOut⟩
      refine ⟨⟨made, landed, notOut⟩, fun same => stays ⟨landed, ?_⟩⟩
      rw [made, ← same]
      rfl
    · rintro ⟨stands, _⟩
      exact stands

/-- A login that is logged out stays sound. -/
theorem Login.Sound.logOut {now : Nat} (sound : login.Sound crypto now) :
    (login.logOut token).Sound crypto now := by
  unfold Login.logOut
  split
  next out => exact { sound with revoked := fun _ => out.1 }
  next => exact sound

/-- A session is logged out. -/
theorem Sound.logout (sound : Sound crypto world)
    (taken : step crypto world (.logout token) = some after) : Sound crypto after := by
  obtain ⟨_, same⟩ := Option.ite_none_left_eq_some.mp taken
  obtain rfl := Option.some.inj same
  exact {
    logins := fun row member => by
      obtain ⟨old, there, rfl⟩ := List.mem_map.mp member
      exact (sound.logins old there).logOut
    single := fun one two row other session session' foundRow foundOther made madeOther same => by
      rw [List.getElem?_map] at foundRow foundOther
      obtain ⟨row, there, rfl⟩ := Option.map_eq_some_iff.mp foundRow
      obtain ⟨other, thereOther, rfl⟩ := Option.map_eq_some_iff.mp foundOther
      rw [Login.logOut_session] at made madeOther
      exact sound.single one two row other session session' there thereOther made madeOther same
    stored := fun key session last there => by
      change (world.sessions.del (sessionKey token)).cell key = _ at there
      rw [ExpiringStore.del_cell] at there
      obtain ⟨differ, there⟩ := Option.ite_none_left_eq_some.mp there
      obtain ⟨named, row, member, stands⟩ := sound.stored key session last there
      refine ⟨named, row.logOut token, List.mem_map_of_mem member,
        Login.stands_logOut.mpr ⟨stands, fun same => differ ?_⟩⟩
      rw [named, same]
    kept := fun row member session stands inTime => by
      obtain ⟨old, there, rfl⟩ := List.mem_map.mp member
      obtain ⟨stood, other⟩ := Login.stands_logOut.mp stands
      obtain ⟨last, held, late⟩ := sound.kept old there session stood inTime
      refine ⟨last, ?_, late⟩
      change (world.sessions.del (sessionKey token)).cell _ = _
      rw [ExpiringStore.del_cell, if_neg fun same => other (sessionKey_inj.mp same)]
      exact held }

/-- What a presented token leaves of the sessions: all of them, or all but its own, which is over. -/
theorem getAdminSession_left (sessions : Sessions) (now : Nat) (token : Text) :
    (getAdminSession sessions now token).2 = sessions ∨
      (getAdminSession sessions now token).2 = sessions.del (sessionKey token) ∧
        ∃ session last, sessions.cell (sessionKey token) = some (session, last) ∧
          session.expiresAt ≤ now := by
  unfold getAdminSession
  split
  · exact .inl rfl
  · cases held : sessions.get now (sessionKey token) with
    | none => exact .inl rfl
    | some session =>
      obtain ⟨last, there, _⟩ := ExpiringStore.get_eq_some.mp held
      dsimp only
      split
      next isOver => exact .inr ⟨rfl, session, last, there, isOver⟩
      next => exact .inl rfl

/-- A token is presented. -/
theorem Sound.present (sound : Sound crypto world) (token : Text) : Sound crypto
    { world with sessions := (getAdminSession world.sessions world.now token).2 } := by
  rcases getAdminSession_left world.sessions world.now token with same | ⟨less, gone, last, held, isOver⟩
  · rw [same]
    exact sound
  · rw [less]
    have named : sessionKey token = sessionKey gone.token := (sound.stored _ gone last held).1
    exact {
      logins := sound.logins
      single := sound.single
      stored := fun key session last there => by
        rw [ExpiringStore.del_cell] at there
        exact sound.stored key session last (Option.ite_none_left_eq_some.mp there).2
      kept := fun row member session stands inTime => by
        obtain ⟨last', there, late⟩ := sound.kept row member session stands inTime
        refine ⟨last', ?_, late⟩
        rw [ExpiringStore.del_cell, if_neg]
        · exact there
        · intro same
          rw [same, held] at there
          obtain ⟨rfl, _⟩ := Prod.mk.inj (Option.some.inj there)
          exact absurd inTime (Nat.not_lt.mpr isOver) }

/-- A login's facts last. -/
theorem Login.Sound.later {now then' : Nat} (sound : login.Sound crypto now) (later : now ≤ then') :
    login.Sound crypto then' :=
  { sound with session := fun session made =>
      have ⟨marked, past, whole⟩ := sound.session session made
      ⟨marked, past.trans later, whole⟩ }

/-- Every step keeps what holds. -/
theorem Sound.step (sound : Sound crypto world) {action : Action}
    (taken : step crypto world action = some after) : Sound crypto after := by
  cases action with
  | tick ms =>
    obtain rfl := Option.some.inj taken
    exact {
      logins := fun row member => (sound.logins row member).later (Nat.le_add_right ..)
      single := sound.single
      stored := sound.stored
      kept := fun row member session stands inTime =>
        sound.kept row member session stands (Nat.lt_of_le_of_lt (Nat.le_add_right ..) inTime) }
  | write users =>
    obtain rfl := Option.some.inj taken
    exact { sound with }
  | login identifier password =>
    obtain ⟨_, same⟩ := Option.ite_none_left_eq_some.mp taken
    obtain rfl := Option.some.inj same
    exact sound.arrive identifier password
  | find place found => exact sound.find taken
  | check place => exact sound.check taken
  | create place token => exact sound.create taken
  | set place =>
    obtain ⟨login, present, taken⟩ := Option.bind_eq_some_iff.mp taken
    obtain ⟨session, made, taken⟩ := Option.bind_eq_some_iff.mp taken
    obtain ⟨setting, same⟩ := Option.ite_none_right_eq_some.mp taken
    obtain rfl := Option.some.inj same
    exact sound.write present made setting fun given same => (LoginResponse.ok.inj same).symm
  | setFails place landed => exact sound.setFails taken
  | logout token => exact sound.logout taken
  | present token =>
    obtain rfl := Option.some.inj taken
    exact sound.present token

/-- Before the first login there are no sessions. -/
theorem sound_start (now : Nat) (users : List AdminUser) : Sound crypto { now, users } where
  logins login none := by cases none
  single _ _ _ _ _ _ none := by cases none
  stored _ _ _ none := by cases none
  kept login none := by cases none

/-- What a presented token is good for: the session it was made for, until it is over. -/
theorem Sound.shown (sound : Sound crypto world) :
    (getAdminSession world.sessions world.now token).1 = some session ↔
      ∃ login ∈ world.logins, login.Stands session ∧ session.token = token ∧
        world.now < session.expiresAt := by
  constructor
  · intro shown
    unfold getAdminSession at shown
    split at shown
    · cases shown
    · cases held : world.sessions.get world.now (sessionKey token) with
      | none =>
        rw [held] at shown
        cases shown
      | some kept =>
        rw [held] at shown
        dsimp only at shown
        split at shown
        · cases shown
        next inTime =>
          obtain rfl : kept = session := Option.some.inj shown
          obtain ⟨last, there, _⟩ := ExpiringStore.get_eq_some.mp held
          obtain ⟨named, login, member, stands⟩ := sound.stored _ kept last there
          exact ⟨login, member, stands, (sessionKey_inj.mp named).symm, Nat.lt_of_not_le inTime⟩
  · rintro ⟨login, member, stands, rfl, inTime⟩
    obtain ⟨last, there, late⟩ := sound.kept login member session stands inTime
    have marked := ((sound.logins login member).session session stands.1).1
    have some_token : session.token ≠ [] := by
      intro none
      rw [none] at marked
      cases marked
    have held : world.sessions.get world.now (sessionKey session.token) = some session :=
      ExpiringStore.get_eq_some.mpr ⟨last, there, (Nat.le_of_lt inTime).trans late⟩
    unfold getAdminSession
    rw [if_neg (by simp [some_token, marked]), held]
    dsimp only
    rw [if_neg (Nat.not_le.mpr inTime)]

/-- Only a password of the user's is taken: where the hash was made of one, it derives the same key. -/
theorem isValid_hash {salt : Octets} (some_salt : salt ≠ []) {secret password : Text}
    (valid : isValid crypto password (hashPassword crypto salt secret) = true) :
    ∃ typed, (typed = password ∨ typed = password.trim) ∧
      crypto.scrypt typed (toHex salt) 64 = crypto.scrypt secret (toHex salt) 64 := by
  unfold isValid at valid
  rcases Bool.or_eq_true_iff.mp valid with plain | trimmed
  · exact ⟨password, .inl rfl, (verify_hash salt some_salt secret password).mp plain⟩
  · have trimmed := (Bool.and_eq_true_iff.mp trimmed).2
    exact ⟨password.trim, .inr rfl, (verify_hash salt some_salt secret password.trim).mp trimmed⟩

end Steps

/-- In every run a token shows a session exactly while one stands for it: a login made and wrote it,
it was not logged out, and its seven days are not over. A login has a session only of a user that
goes by its identifier and whose hash takes its password, and it has that user's fields. Where the
hash was made of a password, what was typed derives the same key, as it is or without the spaces at
its ends. A login that is told of a session has written it. -/
theorem sessions_exact (crypto : Crypto) (now : Nat) (users : List AdminUser) (world : World)
    (run : Reaches (step crypto) anyStep { now, users } world) :
    (∀ token session, (getAdminSession world.sessions world.now token).1 = some session ↔
      ∃ login ∈ world.logins, login.Stands session ∧ session.token = token ∧
        world.now < session.expiresAt) ∧
    (∀ login ∈ world.logins, ∀ session ∈ login.session, ∃ user ∈ login.found,
      user.goesBy crypto login.identifier ∧
      isValid crypto login.password user.passwordHash = true ∧
      session = user.session session.token session.createdAt ∧
      ∀ salt secret, salt ≠ [] → user.passwordHash = hashPassword crypto salt secret →
        ∃ typed, (typed = login.password ∨ typed = login.password.trim) ∧
          crypto.scrypt typed (toHex salt) 64 = crypto.scrypt secret (toHex salt) 64) ∧
    ∀ login ∈ world.logins, ∀ session, login.phase = .answered (.ok session) →
      login.session = some session ∧ login.landed = true := by
  have sound : Sound crypto world :=
    run.invariant (sound_start now users) fun _ _ _ before _ taken => before.step taken
  refine ⟨fun token session => sound.shown, fun login member session made => ?_,
    fun login member => (sound.logins login member).answered⟩
  have known := sound.logins login member
  obtain ⟨user, found, valid⟩ := known.valid (.inr (.inr (by rw [made]; rfl)))
  obtain ⟨_, _, user', found', whole⟩ := known.session session made
  obtain rfl : user = user' := Option.some.inj (found.symm.trans found')
  refine ⟨user, found, known.found user found, valid, whole, fun salt secret some_salt hashed => ?_⟩
  rw [hashed] at valid
  exact isValid_hash some_salt valid

/-- How much was typed, as an octet. -/
def typedOctet (password salt : Text) : Fin 256 :=
  ⟨(password.length + salt.length) % 256, Nat.mod_lt _ (by decide)⟩

theorem lengths_length (password salt : Text) (length : Nat) :
    (List.replicate length (typedOctet password salt)).length = length :=
  List.length_replicate

/-- A derivation that only tells how much was typed. -/
def lengths : Crypto where
  scrypt password salt length := List.replicate length (typedOctet password salt)
  scryptLength := lengths_length
  toLowerCase := id

def ann : AdminUser where
  id := "a".toList
  email := "ann@example.org".toList
  passwordHash := hashPassword lengths [⟨7, by decide⟩] "horse".toList
  role := "admin".toList

def annsToken : Text := "nk_sess_1".toList

/-- Ann logs in, with a space after her password, and a second login is made and logged out. -/
def annsLogins : List Action :=
  [.login "ann@example.org".toList "horse ".toList, .find 0 (some ann), .check 0,
    .create 0 annsToken, .login ann.email "horse".toList, .set 0, .tick 5, .find 1 (some ann),
    .check 1, .create 1 "nk_sess_2".toList, .set 1, .logout "nk_sess_2".toList]

/-- Ann's first session is shown and her second is not. -/
theorem anns_sessions :
    let world := (perform (step lengths) { users := [ann] } annsLogins).getD {}
    (getAdminSession world.sessions world.now annsToken).1 = some (ann.session annsToken 0) ∧
      (getAdminSession world.sessions world.now "nk_sess_2".toList).1 = none := by
  have run : Reaches (step lengths) anyStep { users := [ann] }
      ((perform (step lengths) { users := [ann] } annsLogins).getD {}) :=
    reaches_any_performed annsLogins (by decide)
  have exact := sessions_exact lengths 0 [ann] _ run
  refine ⟨(exact.1 _ _).mpr ?_, ?_⟩
  · decide
  · decide

end Notifkit.Auth
