import Mathlib.Tactic.ByContra
import Notifkit.Foundations.Outcome
import Notifkit.Api.HandleRequest

/-!
# Whether the guards and the router read a path alike

The guards test the raw path by equality and by how it begins; the router
compares segments and ignores empty ones. Where both readings name the same
route, a reached handler under `/v1` carries the credential or the cap its route
asks for. The two readings differ on paths with an extra slash, and there a
handler is reached without what its route asks for.

The statements quantify over the services, the headers and any webhooks mounted
besides the route table; the method and the raw URL decide.
-/

namespace Notifkit.Api

open Outcome

/-- What a route under `/v1` asks of a request before its handler runs. -/
inductive Duty where
  | login | unsubscribe | project | other
deriving DecidableEq

/-- The first segments of the project-management routes. -/
def projectSegments : List Text := ["v1".toList, "projects".toList]

/-- The login and unsubscribe handlers are capped, the project-management routes
are for admins, every other route asks for some credential. -/
def Route.duty (route : Route) : Duty :=
  match route.handler with
  | .login => .login
  | .unsubscribePage | .unsubscribe => .unsubscribe
  | _ => if route.segments.take 2 = projectSegments then .project else .other

/-- The route's pattern lies under `/v1`. -/
def Route.underV1 (route : Route) : Prop := route.segments.head? = some "v1".toList

/-- A reached handler has what its route asks for. -/
structure Protected (reached : Reached) : Prop where
  verified : reached.route.duty = .other → ∃ credential, reached.guarded.credential = some credential
  admin : reached.route.duty = .project →
    ∃ credential, reached.guarded.credential = some credential ∧ credential.isAdmin = true
  writer : ∀ credential, reached.guarded.credential = some credential →
    credential.role = .read_only → reached.route.method = "GET" ∨ reached.route.handler = .logout
  loginCapped : reached.route.duty = .login → Cap.auth ∈ reached.guarded.caps
  unsubscribeCapped : reached.route.duty = .unsubscribe → Cap.unsub ∈ reached.guarded.caps

/-- The guard that stands for a route's duty also holds of the raw path. -/
def GuardFires (pathname : Text) : Duty → Prop
  | .login => isPublicAuth pathname = true
  | .unsubscribe => isPublicUnsubscribe pathname = true
  | .project => isProjectManagement pathname = true
  | .other => isVersioned pathname = true ∧ isPublicUnsubscribe pathname = false ∧
      isPublicAuth pathname = false

/-- The router and the guards read the path alike: where the router finds a route
under `/v1`, the guard for that route fires. -/
def GuardsAgree (router : Router) (method : String) (pathname : Text) : Prop :=
  ∀ route params, router.matchPath method pathname = some (route, params) → route.underV1 →
    GuardFires pathname route.duty

/-! ## The guards, one by one -/

/-- The project paths lie under `/v1/`, apart from the public paths. -/
theorem management_versioned {pathname : Text} (managed : isProjectManagement pathname = true) :
    isVersioned pathname = true ∧ isPublicUnsubscribe pathname = false ∧
      isPublicAuth pathname = false := by
  simp only [isProjectManagement, Bool.or_eq_true, decide_eq_true_eq] at managed
  rcases managed with same | below
  · subst same
    decide
  · obtain ⟨rest, rfl⟩ := List.isPrefixOf_iff_prefix.mp below
    refine ⟨?_, ?_, ?_⟩
    · exact List.isPrefixOf_iff_prefix.mpr ⟨"projects/".toList ++ rest, rfl⟩
    · simp [isPublicUnsubscribe]
    · simp [isPublicAuth]

/-- A resolved credential of a management request is an admin's. -/
theorem adminCredential_admin {services : Services} {token : Text} {credential : Credential}
    (resolved : adminCredential services token = .ok (some credential)) :
    credential.isAdmin = true := by
  unfold adminCredential at resolved
  split at resolved
  · obtain ⟨session, asked, named⟩ := bind_ok.mp resolved
    cases session with
    | none => cases pure_ok.mp named
    | some role =>
      obtain rfl := Option.some.inj (pure_ok.mp named)
      rfl
  · split at resolved
    · obtain rfl := Option.some.inj (Except.ok.inj resolved)
      rfl
    · cases Except.ok.inj resolved

/-- What authentication of a project-scoped request establishes: a credential,
and a read-only one only for reading or at the logout path. -/
theorem authenticateProject_ok {services : Services} {req : Request} {pathname : Text}
    {guarded : Guarded} (passed : authenticateProject services req pathname = .ok guarded) :
    ∃ credential, guarded.credential = some credential ∧
      (credential.role = .read_only → pathname = "/v1/auth/logout".toList ∨
        req.method = "GET" ∨ req.method = "OPTIONS") := by
  obtain ⟨presented, _, passed⟩ := bind_ok.mp passed
  cases presented with
  | none => cases passed
  | some token =>
    obtain ⟨⟨credential, projectId, rateLimitRpm⟩, _, passed⟩ := bind_ok.mp passed
    obtain ⟨writer, passed⟩ := refuse_ok.mp passed
    obtain ⟨within, _, passed⟩ := bind_ok.mp passed
    obtain ⟨_, passed⟩ := demand_ok.mp passed
    obtain rfl := pure_ok.mp passed
    refine ⟨credential, rfl, fun readOnly => ?_⟩
    by_contra outside
    simp only [not_or] at outside
    exact writer ⟨readOnly, outside⟩

/-- What authentication of a management request establishes: an admin's
credential, and a read-only one only for reading. -/
theorem authenticateManagement_ok {services : Services} {req : Request} {guarded : Guarded}
    (passed : authenticateManagement services req = .ok guarded) :
    ∃ credential, guarded.credential = some credential ∧ credential.isAdmin = true ∧
      (credential.role = .read_only → req.method = "GET") := by
  unfold authenticateManagement at passed
  split at passed
  · cases passed
  · obtain ⟨resolved, asked, passed⟩ := bind_ok.mp passed
    cases resolved with
    | none => cases passed
    | some credential =>
      obtain ⟨writer, passed⟩ := refuse_ok.mp passed
      obtain rfl := pure_ok.mp passed
      refine ⟨credential, rfl, adminCredential_admin asked, fun readOnly => ?_⟩
      by_contra outside
      exact writer ⟨readOnly, outside⟩

/-- The authentication step as a whole, by the guards that fire on the path. -/
theorem authenticate_ok {services : Services} {req : Request} {pathname : Text}
    {guarded : Guarded} (passed : authenticate services req pathname = .ok guarded) :
    (GuardFires pathname .other → ∃ credential, guarded.credential = some credential) ∧
    (GuardFires pathname .project → ∃ credential, guarded.credential = some credential ∧
      credential.isAdmin = true) ∧
    ∀ credential, guarded.credential = some credential → credential.role = .read_only →
      pathname = "/v1/auth/logout".toList ∨ req.method = "GET" ∨ req.method = "OPTIONS" := by
  unfold authenticate at passed
  split at passed
  next projectScoped =>
    obtain ⟨credential, verified, writer⟩ := authenticateProject_ok passed
    refine ⟨fun _ => ⟨credential, verified⟩, fun managed => ?_, fun shown same => ?_⟩
    · simp only [GuardFires] at managed
      simp [managed] at projectScoped
    · rw [verified] at same
      exact Option.some.inj same ▸ writer
  next unscoped =>
    split at passed
    next managed =>
      obtain ⟨credential, verified, admin, writer⟩ := authenticateManagement_ok passed
      refine ⟨fun _ => ⟨credential, verified⟩, fun _ => ⟨credential, verified, admin⟩, ?_⟩
      intro shown same readOnly
      rw [verified] at same
      exact .inr (.inl (writer (Option.some.inj same ▸ readOnly)))
    next unmanaged =>
      obtain rfl := Except.ok.inj passed
      refine ⟨fun fires => ?_, fun managed => absurd managed unmanaged, fun _ same => by cases same⟩
      exact absurd (by simpa [unmanaged, GuardFires, and_assoc] using fires) unscoped

/-- One counter: a request let through has the cap recorded, nothing else changed. -/
theorem capClient_ok {services : Services} {req : Request} {cap : Cap} {keyPart : String}
    {limit : Nat} {message : String} {before guarded : Guarded}
    (passed : capClient services req cap keyPart limit message before = .ok guarded) :
    guarded = { before with caps := cap :: before.caps } := by
  unfold capClient at passed
  dsimp only at passed
  split at passed
  · exact (Except.ok.inj (refuse_ok.mp passed).2).symm
  · exact (Except.ok.inj passed).symm

/-- The caps leave the credential alone, and record the cap of a public path. -/
theorem capPublic_ok {services : Services} {req : Request} {pathname : Text}
    {before guarded : Guarded} (passed : capPublic services req pathname before = .ok guarded) :
    guarded.credential = before.credential ∧
    (isPublicAuth pathname = true → Cap.auth ∈ guarded.caps) ∧
    (isPublicUnsubscribe pathname = true → Cap.unsub ∈ guarded.caps) := by
  obtain ⟨middle, first, second⟩ := bind_ok.mp passed
  have unsubscribed : middle.credential = before.credential ∧
      (isPublicUnsubscribe pathname = true → Cap.unsub ∈ middle.caps) := by
    unfold capUnsubscribe at first
    split at first
    · obtain rfl := capClient_ok first
      exact ⟨rfl, fun _ => List.mem_cons_self⟩
    · next other =>
      obtain rfl := Except.ok.inj first
      exact ⟨rfl, fun fires => absurd fires other⟩
  unfold capLogin at second
  split at second
  · obtain rfl := capClient_ok second
    exact ⟨unsubscribed.1, fun _ => List.mem_cons_self,
      fun fires => List.mem_cons_of_mem _ (unsubscribed.2 fires)⟩
  · next other =>
    obtain rfl := Except.ok.inj second
    exact ⟨unsubscribed.1, fun fires => absurd fires other, unsubscribed.2⟩

/-- What reaching a handler establishes about the stages before it. -/
theorem handleRequest_ok {services : Services} {router : Router} {req : Request}
    {reached : Reached} (passed : handleRequest services router req = .ok reached) :
    req.method ≠ "OPTIONS" ∧
    (∃ authenticated, authenticate services req (pathnameOf req.url) = .ok authenticated ∧
      capPublic services req (pathnameOf req.url) authenticated = .ok reached.guarded) ∧
    router.matchPath req.method (pathnameOf req.url) = some (reached.route, reached.params) := by
  unfold handleRequest at passed
  obtain ⟨notPreflight, passed⟩ := refuse_ok.mp passed
  obtain ⟨_, _, passed⟩ := bind_ok.mp passed
  obtain ⟨authenticated, verified, passed⟩ := bind_ok.mp passed
  obtain ⟨guarded, capped, passed⟩ := bind_ok.mp passed
  refine ⟨notPreflight, ?_⟩
  split at passed
  · cases passed
  · next route params found =>
    obtain ⟨_, _, passed⟩ := bind_ok.mp passed
    obtain rfl := pure_ok.mp passed
    exact ⟨⟨authenticated, verified, capped⟩, found⟩

/-! ## The routes the server registers -/

/-- The route table's entries as routes. -/
def tableRoutes : List Route :=
  routeTable.map fun (method, pattern, handler) => ⟨method, split pattern.toList, handler⟩

/-- A filed route stands under its own method; it is a table entry or a webhook's. -/
def Registered (key : String × Nat) (route : Route) : Prop :=
  route.method = key.1 ∧ route.segments.length = key.2 ∧
    (route ∈ tableRoutes ∨ route.method = "GET" ∨ route.method = "POST")

/-- A path and method the table serves are served alike with any webhooks mounted. -/
theorem apiRouter_keeps_match {method : String} {pathname : Text} {hit : Route × Params}
    (webhooks : List WebhookMount) (found : tableRouter.matchPath method pathname = some hit) :
    (apiRouter webhooks).matchPath method pathname = some hit := by
  unfold apiRouter
  generalize tableRouter = router at found
  induction webhooks generalizing router with
  | nil => exact found
  | cons mount rest inductionHypothesis =>
    apply inductionHypothesis
    unfold mountWebhook
    dsimp only
    have verified := add_keeps_match "GET" mount.webhookPath (.webhook mount.webhookPath) found
    split <;> split
    · exact add_keeps_match _ _ _ verified
    · exact add_keeps_match _ _ _ found
    · exact verified
    · exact found

/-- Registering the table's entries one after the other files each of them. -/
theorem table_registered (entries : List (String × String × Handler)) (router : Router)
    (member : ∀ entry ∈ entries, entry ∈ routeTable) (filed : router.Filed Registered) :
    (entries.foldl (fun router (method, pattern, handler) =>
      router.add method pattern.toList handler) router).Filed Registered := by
  induction entries generalizing router with
  | nil => exact filed
  | cons entry rest inductionHypothesis =>
    obtain ⟨method, pattern, handler⟩ := entry
    apply inductionHypothesis
    · exact fun later inRest => member later (List.mem_cons_of_mem _ inRest)
    · have listed : (⟨method, split pattern.toList, handler⟩ : Route) ∈ tableRoutes :=
        List.mem_map.mpr ⟨_, member _ List.mem_cons_self, rfl⟩
      exact add_filed filed ⟨rfl, rfl, .inl listed⟩

/-- Mounting a webhook files a `GET`, a `POST`, both or nothing. -/
theorem mountWebhook_registered {router : Router} (filed : router.Filed Registered)
    (mount : WebhookMount) : (mountWebhook router mount).Filed Registered := by
  unfold mountWebhook
  have verified : (router.add "GET" mount.webhookPath (.webhook mount.webhookPath)).Filed
      Registered := add_filed filed ⟨rfl, rfl, .inr (.inl rfl)⟩
  dsimp only
  split <;> split
  · exact add_filed verified ⟨rfl, rfl, .inr (.inr rfl)⟩
  · exact add_filed filed ⟨rfl, rfl, .inr (.inr rfl)⟩
  · exact verified
  · exact filed

/-- Every route the server serves is a table entry or a provider's webhook. -/
theorem apiRouter_registered (webhooks : List WebhookMount) :
    (apiRouter webhooks).Filed Registered := by
  have table : tableRouter.Filed Registered :=
    table_registered routeTable {} (fun _ member => member) (fun _ _ found => by cases found)
  unfold apiRouter
  generalize tableRouter = router at table
  induction webhooks generalizing router with
  | nil => exact table
  | cons mount rest inductionHypothesis =>
    exact inductionHypothesis _ (mountWebhook_registered table mount)

/-- Of the table's entries only logging out is served at the logout path. -/
theorem logout_only : ∀ route ∈ tableRoutes,
    (capture route.segments (split "/v1/auth/logout".toList)).isSome →
      route.handler = .logout := by
  decide +kernel

/-- Whatever is mounted besides the table, the logout path serves nothing that
writes apart from logging out. -/
theorem logout_path {webhooks : List WebhookMount} {method : String} {route : Route}
    {params : Params}
    (found : (apiRouter webhooks).matchPath method "/v1/auth/logout".toList = some (route, params)) :
    route.method = "GET" ∨ route.handler = .logout := by
  obtain ⟨⟨sameMethod, _, origin⟩, captured⟩ :=
    matchPath_filed (apiRouter_registered webhooks) found
  rcases origin with table | verification | posted
  · right
    exact logout_only route table (by rw [captured]; rfl)
  · exact .inl verification
  · right
    -- The table's own route is asked before any webhook mounted at the same path.
    have served : (tableRouter.matchPath "POST" "/v1/auth/logout".toList).map
        (·.1.handler) = some .logout := by decide +kernel
    cases first : tableRouter.matchPath "POST" "/v1/auth/logout".toList with
    | none => rw [first] at served; cases served
    | some hit =>
      have kept := apiRouter_keeps_match webhooks first
      have isPost : method = "POST" := sameMethod.symm.trans posted
      rw [isPost, kept] at found
      obtain rfl := Option.some.inj found
      rw [first] at served
      exact Option.some.inj served

/-- No route is filed for preflight requests. -/
theorem no_preflight_route {webhooks : List WebhookMount} {pathname : Text} {route : Route}
    {params : Params}
    (found : (apiRouter webhooks).matchPath "OPTIONS" pathname = some (route, params)) : False := by
  obtain ⟨⟨sameMethod, _, origin⟩, _⟩ := matchPath_filed (apiRouter_registered webhooks) found
  have tableMethods : ∀ route ∈ tableRoutes, route.method ≠ "OPTIONS" := by decide
  rcases origin with table | verification | posted
  · exact tableMethods route table sameMethod
  · exact absurd (verification.symm.trans sameMethod) (by simp)
  · exact absurd (posted.symm.trans sameMethod) (by simp)

/-! ## Where the two readings agree -/

/-- A reached handler is protected when the guard of its route's duty fires. -/
theorem protected_of_fires {webhooks : List WebhookMount} {services : Services} {req : Request}
    {reached : Reached} (passed : handleRequest services (apiRouter webhooks) req = .ok reached)
    (fires : GuardFires (pathnameOf req.url) reached.route.duty) : Protected reached := by
  obtain ⟨_, ⟨authenticated, verified, capped⟩, found⟩ := handleRequest_ok passed
  obtain ⟨someCredential, adminCredential, readOnly⟩ := authenticate_ok verified
  obtain ⟨sameCredential, loginCap, unsubscribeCap⟩ := capPublic_ok capped
  have sameMethod := (matchPath_filed (apiRouter_registered webhooks) found).1.1
  refine ⟨?_, ?_, ?_, ?_, ?_⟩
  · intro other
    rw [other] at fires
    rw [sameCredential]
    exact someCredential fires
  · intro project
    rw [project] at fires
    rw [sameCredential]
    exact adminCredential fires
  · intro credential shown onlyReads
    rw [sameCredential] at shown
    rcases readOnly credential shown onlyReads with logout | reads | preflight
    · rw [logout] at found
      exact logout_path found
    · exact .inl (sameMethod.trans reads)
    · exact absurd (preflight ▸ found) fun found => no_preflight_route found
  · intro login
    rw [login] at fires
    exact loginCap fires
  · intro unsubscribe
    rw [unsubscribe] at fires
    exact unsubscribeCap fires

/-! ## Where they differ -/

/-- Services under which every stage lets a request pass that shows a credential:
either an admin key is configured, or the token is some project's key. -/
def openServices (adminKey : Option Text) : Services where
  ADMIN_API_KEY := adminKey
  TRUST_PROXY := 0
  getAdminSession _ := some none
  findProjectKey _ := some (some ⟨"p".toList, none, .admin⟩)
  check _ _ := some true
  countRequest _ := some 0
  handleAdminRequest := some false

/-- A request that shows one token and names a project. -/
def bearer (method : String) (url : Text) : Request where
  method := method
  url := url
  authorization := some "Bearer k".toList
  projectIdHeader := some "p".toList

/-- An admin's request passes authentication; where no guard for credentials
fires, it passes without having shown one. -/
theorem authenticate_admin_open (method : String) (url pathname : Text) :
    ∃ before, authenticate (openServices (some "k".toList)) (bearer method url) pathname =
        .ok before ∧ before.caps = [] ∧
      (¬ GuardFires pathname .other → before.credential = none) := by
  unfold authenticate
  split
  next projectScoped =>
    refine ⟨_, rfl, rfl, fun silent => absurd ?_ silent⟩
    simp only [Bool.and_eq_true, Bool.not_eq_true'] at projectScoped
    exact ⟨projectScoped.1.1.1, projectScoped.1.2, projectScoped.2⟩
  next =>
    split
    next managed =>
      exact ⟨_, rfl, rfl, fun silent => absurd (management_versioned managed) silent⟩
    next => exact ⟨_, rfl, rfl, fun _ => rfl⟩

/-- Away from the management paths a project's key passes, and no admin is shown. -/
theorem authenticate_project_open (method : String) (url pathname : Text)
    (unmanaged : ¬ isProjectManagement pathname = true) :
    ∃ before, authenticate (openServices none) (bearer method url) pathname = .ok before ∧
      ∀ credential, before.credential = some credential → credential.isAdmin = false := by
  unfold authenticate
  split
  · refine ⟨_, rfl, fun credential shown => ?_⟩
    obtain rfl := Option.some.inj shown
    rfl
  · exact ⟨_, rfl, fun _ shown => by cases shown⟩

/-- With counters at zero the caps let a request pass and record exactly the
public path it is on. -/
theorem capPublic_open (adminKey : Option Text) (req : Request) (pathname : Text)
    (before : Guarded) :
    ∃ guarded, capPublic (openServices adminKey) req pathname before = .ok guarded ∧
      guarded.credential = before.credential ∧
      (before.caps = [] → (Cap.auth ∈ guarded.caps → isPublicAuth pathname = true) ∧
        (Cap.unsub ∈ guarded.caps → isPublicUnsubscribe pathname = true)) := by
  unfold capPublic capUnsubscribe capLogin
  by_cases unsubscribes : isPublicUnsubscribe pathname = true
  · have apart : isPublicAuth pathname ≠ true := by
      have same : pathname = "/v1/unsubscribe".toList := by
        simpa only [isPublicUnsubscribe, decide_eq_true_eq] using unsubscribes
      rw [same]
      decide
    simp only [unsubscribes, apart, if_true]
    exact ⟨_, rfl, rfl, fun none => by simp [none]⟩
  · by_cases logsIn : isPublicAuth pathname = true
    · simp only [unsubscribes, logsIn, if_true]
      exact ⟨_, rfl, rfl, fun none => by simp [none]⟩
    · simp only [unsubscribes, logsIn]
      exact ⟨_, rfl, rfl, fun none => by simp [none]⟩

/-- A request that passed authentication under the open services reaches the
handler the router finds. -/
theorem open_reaches {router : Router} {adminKey : Option Text} {method : String} {url : Text}
    {route : Route} {params : Params} {before : Guarded}
    (served : method ≠ "OPTIONS")
    (found : router.matchPath method (pathnameOf url) = some (route, params))
    (verified : authenticate (openServices adminKey) (bearer method url) (pathnameOf url) =
      .ok before) :
    ∃ guarded, handleRequest (openServices adminKey) router (bearer method url) =
        .ok ⟨route, params, guarded⟩ ∧ guarded.credential = before.credential ∧
      (before.caps = [] → (Cap.auth ∈ guarded.caps → isPublicAuth (pathnameOf url) = true) ∧
        (Cap.unsub ∈ guarded.caps → isPublicUnsubscribe (pathnameOf url) = true)) := by
  obtain ⟨guarded, capped, rest⟩ :=
    capPublic_open adminKey (bearer method url) (pathnameOf url) before
  refine ⟨guarded, ?_, rest⟩
  have notServedHere : serveAdminPage (openServices adminKey) (pathnameOf url) = .ok () := by
    unfold serveAdminPage
    split <;> rfl
  refine refuse_ok.mpr ⟨served, bind_ok.mpr ⟨(), notServedHere, ?_⟩⟩
  refine bind_ok.mpr ⟨before, verified, bind_ok.mpr ⟨guarded, capped, ?_⟩⟩
  have sameRoute : router.matchPath (bearer method url).method (pathnameOf (bearer method url).url) =
      some (route, params) := found
  rw [sameRoute]
  rfl

/-- Where the guard of a route's duty stays silent, the route is reached without
what it asks for. -/
theorem unprotected_of_silent {router : Router} {method : String} {url : Text} {route : Route}
    {params : Params} (served : method ≠ "OPTIONS")
    (found : router.matchPath method (pathnameOf url) = some (route, params))
    (silent : ¬ GuardFires (pathnameOf url) route.duty) :
    ∃ services req, req.method = method ∧ req.url = url ∧ ∃ reached,
      handleRequest services router req = .ok reached ∧ reached.route = route ∧
        ¬ Protected reached := by
  cases duty : route.duty with
  | project =>
    rw [duty] at silent
    obtain ⟨before, verified, noAdmin⟩ := authenticate_project_open method url _ silent
    obtain ⟨guarded, passed, sameCredential, _⟩ := open_reaches served found verified
    refine ⟨_, _, rfl, rfl, _, passed, rfl, fun kept => ?_⟩
    obtain ⟨credential, shown, admin⟩ := kept.admin duty
    have projectKey := noAdmin credential (sameCredential ▸ shown)
    rw [projectKey] at admin
    cases admin
  | other =>
    rw [duty] at silent
    obtain ⟨before, verified, _, unverified⟩ := authenticate_admin_open method url (pathnameOf url)
    obtain ⟨guarded, passed, sameCredential, _⟩ := open_reaches served found verified
    refine ⟨_, _, rfl, rfl, _, passed, rfl, fun kept => ?_⟩
    obtain ⟨credential, shown⟩ := kept.verified duty
    have nothing : guarded.credential = none := sameCredential.trans (unverified silent)
    exact absurd (nothing.symm.trans shown) (by simp)
  | login =>
    rw [duty] at silent
    obtain ⟨before, verified, uncapped, _⟩ := authenticate_admin_open method url (pathnameOf url)
    obtain ⟨guarded, passed, _, caps⟩ := open_reaches served found verified
    exact ⟨_, _, rfl, rfl, _, passed, rfl, fun kept =>
      silent ((caps uncapped).1 (kept.loginCapped duty))⟩
  | unsubscribe =>
    rw [duty] at silent
    obtain ⟨before, verified, uncapped, _⟩ := authenticate_admin_open method url (pathnameOf url)
    obtain ⟨guarded, passed, _, caps⟩ := open_reaches served found verified
    exact ⟨_, _, rfl, rfl, _, passed, rfl, fun kept =>
      silent ((caps uncapped).2 (kept.unsubscribeCapped duty))⟩

/-- For every method and raw URL, whatever webhooks are mounted: each request the
router leads to a handler under `/v1` has what that route asks for, if and only if
the guards and the router read its path alike. -/
theorem protected_iff_guards_agree (webhooks : List WebhookMount) (method : String) (url : Text) :
    (∀ services req reached, req.method = method → req.url = url →
      handleRequest services (apiRouter webhooks) req = .ok reached → reached.route.underV1 →
        Protected reached) ↔
    GuardsAgree (apiRouter webhooks) method (pathnameOf url) := by
  constructor
  · intro always route params found versioned
    by_contra silent
    have served : method ≠ "OPTIONS" := fun preflight => no_preflight_route (preflight ▸ found)
    obtain ⟨services, req, sameMethod, sameUrl, reached, passed, same, unprotected⟩ :=
      unprotected_of_silent served found silent
    exact unprotected (always services req reached sameMethod sameUrl passed (same ▸ versioned))
  · rintro agree services req reached rfl rfl passed versioned
    obtain ⟨_, _, found⟩ := handleRequest_ok passed
    exact protected_of_fires passed (agree _ _ found versioned)

/-- The guards do not cover every raw path. Without any credential, `GET //v1/users`
lists a project's users; with a mere project key, `POST /v1//projects/p/keys`
reaches the handler that mints keys; and `POST /v1/auth/login/` reaches the login
handler past the cap. -/
theorem guards_miss_extra_slashes :
    (∃ reached, handleRequest (openServices none) (apiRouter [])
        { method := "GET", url := "//v1/users".toList } = .ok reached ∧
      reached.route.handler = .listUsers ∧ reached.guarded.credential = none ∧
      reached.route.underV1 ∧ ¬ Protected reached) ∧
    (∃ reached, handleRequest (openServices none) (apiRouter [])
        (bearer "POST" "/v1//projects/p/keys".toList) = .ok reached ∧
      reached.route.handler = .createProjectKey ∧
      reached.guarded.credential = some (.projectKey .admin) ∧
      reached.route.underV1 ∧ ¬ Protected reached) ∧
    (∃ reached, handleRequest (openServices none) (apiRouter [])
        (bearer "POST" "/v1/auth/login/".toList) = .ok reached ∧
      reached.route.handler = .login ∧ reached.guarded.caps = [] ∧
      reached.route.underV1 ∧ ¬ Protected reached) := by
  refine ⟨⟨_, rfl, rfl, rfl, rfl, fun kept => ?_⟩, ⟨_, rfl, rfl, rfl, rfl, fun kept => ?_⟩,
    ⟨_, rfl, rfl, rfl, rfl, fun kept => ?_⟩⟩
  · obtain ⟨_, shown⟩ := kept.verified rfl
    cases shown
  · obtain ⟨_, shown, admin⟩ := kept.admin rfl
    obtain rfl := Option.some.inj shown
    cases admin
  · cases kept.loginCapped rfl

end Notifkit.Api
