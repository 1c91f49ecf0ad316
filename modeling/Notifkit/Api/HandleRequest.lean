import Notifkit.Api.Router

/-!
# The API's request path up to the handler

`handleRequest` decides from the raw path which credential a request must show,
puts the public routes through a cap per client address, and then lets the
router choose the handler from the segments of the same path. The two readings
of the path are independent of each other in the source and are kept so here.

What the step asks of Redis, Postgres and the rate limiter is answered by a
`Services` value; an answer that throws ends the request with the generic error.
A reached handler carries, besides its context, the credential that was verified
for it and the caps it was put through. Response headers are left out.
-/

namespace Notifkit.Api

/-- The rights of a credential. -/
inductive KeyRole where
  | admin | read_only
deriving DecidableEq

/-- What the authentication step verified. -/
inductive Credential where
  | adminKey
  | session (role : KeyRole)
  | projectKey (role : KeyRole)
deriving DecidableEq

/-- The rights that come with a credential; the configured admin key has all. -/
def Credential.role : Credential → KeyRole
  | .adminKey => .admin
  | .session role => role
  | .projectKey role => role

/-- An admin key or admin session, as opposed to a key of one project. -/
def Credential.isAdmin : Credential → Bool
  | .adminKey | .session _ => true
  | .projectKey _ => false

/-- A counter kept per client address. -/
inductive Cap where
  | unsub | auth
deriving DecidableEq

/-- A request as the server hands it over. `searchParams` is what parsing the raw
URL's query yields, absent where that throws. -/
structure Request where
  method : String
  url : Text
  authorization : Option Text := none
  apiKey : Option Text := none
  projectIdHeader : Option Text := none
  forwardedFor : Option Text := none
  remoteAddress : Option Text := none
  searchParams : Option (List (Text × Text)) := some []

/-- The row a project key's hash finds. -/
structure ProjectKey where
  projectId : Text
  rateLimitRpm : Option Nat
  role : KeyRole

/-- Configuration, and the answers of the services asked on the way. The outer
`Option` is absent where the call throws. -/
structure Services where
  ADMIN_API_KEY : Option Text
  TRUST_PROXY : Nat
  getAdminSession : Text → Option (Option Text)
  findProjectKey : Text → Option (Option ProjectKey)
  check : Text → Nat → Option Bool
  countRequest : Text → Option Nat
  handleAdminRequest : Option Bool

/-- A response sent before any handler: status and error text. -/
structure Refusal where
  status : Nat
  error : String
  message : String := ""
deriving DecidableEq

/-- The generic answer to an exception nothing else caught. -/
def internalError : Refusal := ⟨500, "internal_error", ""⟩

/-- What the guards established about a request. -/
structure Guarded where
  projectId : Option Text := none
  role : KeyRole := .admin
  isAdmin : Bool := false
  credential : Option Credential := none
  caps : List Cap := []
deriving DecidableEq

/-- A request that reached a handler. -/
structure Reached where
  route : Route
  params : Params
  guarded : Guarded

/-- The answer of a service, or the generic error where the call threw. -/
def orThrow {α : Type} : Option α → Except Refusal α
  | some answer => .ok answer
  | none => .error internalError

/-- The raw URL up to the first question mark. -/
def pathnameOf (rawUrl : Text) : Text := rawUrl.takeWhile (· ≠ '?')

/-- The value under a name in the query, first occurrence. -/
def queryGet (params : List (Text × Text)) (name : String) : Option Text :=
  (params.find? fun entry => entry.1 = name.toList).map Prod.snd

/-- An empty text counts as absent. -/
def nonEmpty : Option Text → Option Text
  | some [] => none
  | other => other

/-- `Authorization: Bearer` first, then `x-api-key`. -/
def extractAuthToken (req : Request) : Option Text :=
  match req.authorization with
  | some header =>
    if Text.startsWith (Text.toLowerCase header) "bearer ".toList then some (Text.trim (header.drop 7))
    else req.apiKey.map Text.trim
  | none => req.apiKey.map Text.trim

/-- The configured admin key, if there is one and it is this token. -/
def isAdminApiKey (services : Services) (token : Text) : Bool :=
  match nonEmpty services.ADMIN_API_KEY with
  | none => false
  | some expected => expected = token

/-- `admin_users.role` is free text; anything but a known writer role is read-only. -/
def sessionKeyRole (role : Text) : KeyRole :=
  if role = "superadmin".toList ∨ role = "admin".toList then .admin else .read_only

/-- A session token is told by how it begins. -/
def isSessionToken (token : Text) : Bool := Text.startsWith token "nk_sess_".toList

/-- The client is `trustedHops` back from the peer in the forwarding chain. -/
def getClientIp (req : Request) (trustedHops : Nat) : Text :=
  let peer := (nonEmpty req.remoteAddress).getD "unknown".toList
  match req.forwardedFor with
  | none => peer
  | some forwarded =>
    if trustedHops = 0 then peer
    else
      let chain := ((forwarded.splitOn ',').map Text.trim).filter (· ≠ []) ++ [peer]
      chain.getD (chain.length - 1 - trustedHops) peer

/-- Guard: the path is the project list or lies below it. -/
def isProjectManagement (pathname : Text) : Bool :=
  pathname = "/v1/projects".toList || Text.startsWith pathname "/v1/projects/".toList

/-- Guard: exactly the unsubscribe path. -/
def isPublicUnsubscribe (pathname : Text) : Bool := pathname = "/v1/unsubscribe".toList

/-- Guard: exactly the login path. -/
def isPublicAuth (pathname : Text) : Bool := pathname = "/v1/auth/login".toList

/-- Guard: the path text begins under `/v1/`. -/
def isVersioned (pathname : Text) : Bool := Text.startsWith pathname "/v1/".toList

/-- Paths an admin token may use without naming a project. -/
def isProjectAgnostic (pathname : Text) : Bool :=
  Text.startsWith pathname "/v1/auth/".toList || Text.startsWith pathname "/v1/system/".toList ||
    Text.startsWith pathname "/v1/dlq".toList

/-- The token of a project-scoped request: a header, else the query. -/
def presentedToken (req : Request) : Except Refusal (Option Text) :=
  match nonEmpty (extractAuthToken req) with
  | some token => .ok (some token)
  | none => do
    let params ← orThrow req.searchParams
    pure (nonEmpty (queryGet params "token"))

/-- Whether a token is an admin's, and with which role. A session token that
names no live session falls through to the project keys. -/
def adminCredential (services : Services) (token : Text) : Except Refusal (Option Credential) :=
  if isSessionToken token then do
    let session ← orThrow (services.getAdminSession token)
    pure (session.map fun role => .session (sessionKeyRole role))
  else if isAdminApiKey services token then .ok (some .adminKey)
  else .ok none

/-- An admin names the project in a header or the query, unless the path needs none. -/
def adminProject (req : Request) (pathname : Text) : Except Refusal (Option Text) := do
  let headerProjectId ← match nonEmpty req.projectIdHeader with
    | some id => pure (some id)
    | none => do
      let params ← orThrow req.searchParams
      pure (nonEmpty (queryGet params "projectId"))
  if headerProjectId.isNone && !isProjectAgnostic pathname then
    .error ⟨400, "bad_request",
      "x-project-id header or projectId query param required when using admin token"⟩
  else pure headerProjectId

/-- A credential, the project it acts for and the project's rate limit. -/
def resolveCredential (services : Services) (req : Request) (pathname token : Text) :
    Except Refusal (Credential × Option Text × Nat) := do
  match ← adminCredential services token with
  | some credential => do
    let projectId ← adminProject req pathname
    pure (credential, projectId, 6000)
  | none =>
    match ← orThrow (services.findProjectKey token) with
    | none => .error ⟨401, "unauthorized", "Invalid or missing API key"⟩
    | some key => pure (.projectKey key.role, some key.projectId, key.rateLimitRpm.getD 600)

/-- Authentication of everything under `/v1/` that is neither public nor project
management. -/
def authenticateProject (services : Services) (req : Request) (pathname : Text) :
    Except Refusal Guarded := do
  match ← presentedToken req with
  | none => .error ⟨401, "unauthorized", "Invalid or missing API key"⟩
  | some token => do
    let (credential, projectId, rateLimitRpm) ← resolveCredential services req pathname token
    if credential.role = .read_only ∧ pathname ≠ "/v1/auth/logout".toList ∧
        req.method ≠ "GET" ∧ req.method ≠ "OPTIONS" then
      .error ⟨403, "forbidden", "API key is read-only"⟩
    else if ← orThrow (services.check ((nonEmpty projectId).getD "global".toList) rateLimitRpm) then
      pure { projectId := projectId, role := credential.role, isAdmin := credential.isAdmin,
             credential := some credential }
    else .error ⟨429, "too_many_requests",
      "Project rate limit exceeded (max " ++ toString rateLimitRpm ++ " req/min)"⟩

/-- Authentication of project management: admins only, by header only. -/
def authenticateManagement (services : Services) (req : Request) : Except Refusal Guarded :=
  match nonEmpty (extractAuthToken req) with
  | none => .error ⟨401, "unauthorized", "Missing admin token"⟩
  | some token => do
    match ← adminCredential services token with
    | none => .error ⟨401, "unauthorized", "Invalid admin token"⟩
    | some credential =>
      if credential.role = .read_only ∧ req.method ≠ "GET" then
        .error ⟨403, "forbidden", "Session is read-only"⟩
      else pure { isAdmin := true, credential := some credential }

/-- The authentication step: which of the guards applies is read off the path. -/
def authenticate (services : Services) (req : Request) (pathname : Text) :
    Except Refusal Guarded :=
  if isVersioned pathname && !isProjectManagement pathname && !isPublicUnsubscribe pathname &&
      !isPublicAuth pathname then authenticateProject services req pathname
  else if isProjectManagement pathname then authenticateManagement services req
  else .ok {}

/-- One per-address counter. A counter that cannot be read lets the request pass. -/
def capClient (services : Services) (req : Request) (cap : Cap) (keyPart : String)
    (limit : Nat) (message : String) (guarded : Guarded) : Except Refusal Guarded :=
  let key := "rate-limit:api:".toList ++ keyPart.toList ++ ":".toList ++
    getClientIp req services.TRUST_PROXY
  match services.countRequest key with
  | some count =>
    if limit < count then .error ⟨429, "too_many_requests", message⟩
    else .ok { guarded with caps := cap :: guarded.caps }
  | none => .ok { guarded with caps := cap :: guarded.caps }

/-- The unsubscribe path is capped; every other path passes unchanged. -/
def capUnsubscribe (services : Services) (req : Request) (pathname : Text) (guarded : Guarded) :
    Except Refusal Guarded :=
  if isPublicUnsubscribe pathname then capClient services req .unsub "unsub" 60 "" guarded
  else .ok guarded

/-- The login path is capped; every other path passes unchanged. -/
def capLogin (services : Services) (req : Request) (pathname : Text) (guarded : Guarded) :
    Except Refusal Guarded :=
  if isPublicAuth pathname then
    capClient services req .auth "auth" 10
      "Too many login attempts. Please try again later." guarded
  else .ok guarded

/-- The caps on the two public paths, one after the other. -/
def capPublic (services : Services) (req : Request) (pathname : Text) (guarded : Guarded) :
    Except Refusal Guarded :=
  capUnsubscribe services req pathname guarded >>= capLogin services req pathname

/-- The dashboard's paths. -/
def isAdminPage (pathname : Text) : Bool :=
  pathname = "/admin".toList || Text.startsWith pathname "/admin/".toList

/-- A dashboard path may be served on the spot. -/
def serveAdminPage (services : Services) (pathname : Text) : Except Refusal Unit :=
  if isAdminPage pathname then do
    let handled ← orThrow services.handleAdminRequest
    if handled then .error ⟨200, "", ""⟩ else pure ()
  else pure ()

/-- A request's way to a handler, or the response it gets instead. -/
def handleRequest (services : Services) (router : Router) (req : Request) :
    Except Refusal Reached :=
  let pathname := pathnameOf req.url
  if req.method = "OPTIONS" then .error ⟨204, "", ""⟩
  else do
    serveAdminPage services pathname
    let authenticated ← authenticate services req pathname
    let guarded ← capPublic services req pathname authenticated
    match router.matchPath req.method pathname with
    | none => .error ⟨404, "not_found", ""⟩
    | some (route, params) => do
      let _query ← orThrow req.searchParams
      pure ⟨route, params, guarded⟩

/-- The routes of the table in `startApiServer`, in order. -/
def routeTable : List (String × String × Handler) := [
  ("POST", "/v1/auth/login", .login),
  ("POST", "/v1/auth/logout", .logout),
  ("GET", "/v1/auth/me", .getMe),
  ("PUT", "/v1/templates", .syncTemplates),
  ("GET", "/v1/templates", .listTemplates),
  ("GET", "/v1/templates/:id", .getTemplate),
  ("DELETE", "/v1/templates/:id", .deleteTemplate),
  ("POST", "/v1/users", .addUser),
  ("GET", "/v1/users", .listUsers),
  ("GET", "/v1/users/:id", .getUser),
  ("GET", "/v1/users/:id/details", .getUserDetails),
  ("PATCH", "/v1/users/:id", .updateUser),
  ("DELETE", "/v1/users/:id", .deleteUser),
  ("POST", "/v1/users/:id/contacts", .addContact),
  ("GET", "/v1/users/:id/contacts", .getUserContacts),
  ("DELETE", "/v1/users/:id/contacts/:channel/:target", .deleteContact),
  ("GET", "/v1/users/:id/preferences", .getUserPreferences),
  ("PATCH", "/v1/users/:id/preferences", .updateUserPreferences),
  ("POST", "/v1/notify", .notify),
  ("GET", "/v1/notifications/scheduled", .getScheduledMessages),
  ("GET", "/v1/notifications/logs", .getNotificationLogs),
  ("GET", "/v1/notifications/:taskId", .getNotificationStatus),
  ("DELETE", "/v1/notifications/:taskId", .cancelNotification),
  ("GET", "/v1/unsubscribe", .unsubscribePage),
  ("POST", "/v1/unsubscribe", .unsubscribe),
  ("GET", "/v1/campaigns", .listCampaigns),
  ("GET", "/v1/campaigns/:campaign/stats", .getCampaignStats),
  ("GET", "/v1/suppressions", .listSuppressions),
  ("POST", "/v1/suppressions", .createSuppression),
  ("DELETE", "/v1/suppressions/:channel/:target", .deleteSuppression),
  ("GET", "/v1/system/health", .getSystemHealth),
  ("GET", "/v1/system/metrics", .getSystemMetrics),
  ("GET", "/v1/dlq", .getDLQMessages),
  ("POST", "/v1/dlq/replay", .replayDLQMessage),
  ("DELETE", "/v1/dlq/:id", .deleteDLQMessage),
  ("POST", "/v1/workflows", .createWorkflow),
  ("GET", "/v1/workflows", .listWorkflows),
  ("GET", "/v1/workflows/instances/:id", .getWorkflow),
  ("DELETE", "/v1/workflows/instances/:id", .cancelWorkflow),
  ("POST", "/v1/workflows/trigger", .triggerWorkflow),
  ("GET", "/v1/segments", .listSegments),
  ("POST", "/v1/events", .ingestEvent),
  ("GET", "/v1/events/stream", .getEventsStream),
  ("GET", "/v1/projects", .listProjects),
  ("POST", "/v1/projects", .handleCreateProject),
  ("DELETE", "/v1/projects/:id", .deleteProject),
  ("PATCH", "/v1/projects/:id", .updateProject),
  ("POST", "/v1/projects/:id/keys", .createProjectKey),
  ("GET", "/v1/projects/:id/keys", .listProjectKeys),
  ("DELETE", "/v1/projects/:id/keys/:keyId", .deleteProjectKey),
  ("GET", "/health", .handleHealth),
  ("GET", "/metrics", .handleMetrics),
  ("GET", "/live", .handleLive),
  ("GET", "/ready", .handleReady)]

/-- The routes providers mount after the table: a verification `GET`, a `POST`, or both. -/
structure WebhookMount where
  webhookPath : Text
  verifyWebhookChallenge : Bool
  parseWebhook : Bool

/-- Mount one provider's webhook. -/
def mountWebhook (router : Router) (mount : WebhookMount) : Router :=
  let verified := if mount.verifyWebhookChallenge then
      router.add "GET" mount.webhookPath (.webhook mount.webhookPath)
    else router
  if mount.parseWebhook then
    verified.add "POST" mount.webhookPath (.webhook mount.webhookPath)
  else verified

/-- The router after the route table alone. -/
def tableRouter : Router :=
  routeTable.foldl (fun router (method, pattern, handler) =>
    router.add method pattern.toList handler) {}

/-- The router the server serves with. -/
def apiRouter (webhooks : List WebhookMount) : Router := webhooks.foldl mountWebhook tableRouter

end Notifkit.Api
