import Notifkit.Foundations.Text

/-!
# The API's path router

Patterns and request paths are split at slashes and empty segments are dropped,
so `/v1/users`, `//v1/users` and `/v1//users/` are one path to the router.
Routes are filed under their method and their number of segments; within a
bucket they stand in the order of registration and the first match wins.
-/

namespace Notifkit.Api

/-- What serves a route, under the name the route table gives it. A webhook is
named by the path a provider mounted it at. -/
inductive Handler where
  | login | logout | getMe
  | syncTemplates | listTemplates | getTemplate | deleteTemplate
  | addUser | listUsers | getUser | getUserDetails | updateUser | deleteUser
  | addContact | getUserContacts | deleteContact
  | getUserPreferences | updateUserPreferences
  | notify | getScheduledMessages | getNotificationLogs | getNotificationStatus
  | cancelNotification
  | unsubscribePage | unsubscribe
  | listCampaigns | getCampaignStats
  | listSuppressions | createSuppression | deleteSuppression
  | getSystemHealth | getSystemMetrics
  | getDLQMessages | replayDLQMessage | deleteDLQMessage
  | createWorkflow | listWorkflows | getWorkflow | cancelWorkflow | triggerWorkflow
  | listSegments | ingestEvent | getEventsStream
  | listProjects | handleCreateProject | deleteProject | updateProject
  | createProjectKey | listProjectKeys | deleteProjectKey
  | handleHealth | handleMetrics | handleLive | handleReady
  | webhook (mount : Text)
deriving DecidableEq

/-- A registered route: its method, the segments of its pattern, its handler. -/
structure Route where
  method : String
  segments : List Text
  handler : Handler
deriving DecidableEq

/-- Captured path parameters, by name. -/
abbrev Params := List (Text × Text)

/-- The segments of a path: what stands between slashes, empty pieces dropped. -/
def split (path : Text) : List Text := (path.splitOn '/').filter fun s => 0 < s.length

/-- Routes filed under method and segment count, in order of first use. -/
structure Router where
  index : List ((String × Nat) × List Route) := []

/-- Append a route to the bucket of its key, opening the bucket if need be. -/
def pushRoute (key : String × Nat) (route : Route) :
    List ((String × Nat) × List Route) → List ((String × Nat) × List Route)
  | [] => [(key, [route])]
  | (other, bucket) :: rest =>
    if other = key then (other, bucket ++ [route]) :: rest
    else (other, bucket) :: pushRoute key route rest

/-- Register a handler for a method and a pattern. -/
def Router.add (router : Router) (method : String) (pattern : Text) (handler : Handler) : Router :=
  let route : Route := ⟨method, split pattern, handler⟩
  ⟨pushRoute (method, route.segments.length) route router.index⟩

/-- Compare a pattern with as many path segments. A segment that starts with a
colon captures the decoded part under its name; any other must be equal. -/
def capture : List Text → List Text → Option Params
  | [], _ => some []
  | _ :: _, [] => none
  | seg :: segs, part :: parts =>
    if Text.startsWith seg [':'] then do
      let value ← Text.decodeURIComponent part
      (capture segs parts).map ((seg.drop 1, value) :: ·)
    else if seg = part then capture segs parts
    else none

/-- The first candidate the parts match, with what it captured. -/
def firstMatch (parts : List Text) : List Route → Option (Route × Params)
  | [] => none
  | route :: rest =>
    match capture route.segments parts with
    | some params => some (route, params)
    | none => firstMatch parts rest

/-- The bucket filed under a key. -/
def lookupBucket (key : String × Nat) :
    List ((String × Nat) × List Route) → Option (List Route)
  | [] => none
  | (other, bucket) :: rest => if other = key then some bucket else lookupBucket key rest

/-- The route a method and path lead to, and the captured parameters. -/
def Router.matchPath (router : Router) (method : String) (pathname : Text) :
    Option (Route × Params) :=
  let parts := split pathname
  match lookupBucket (method, parts.length) router.index with
  | none => none
  | some candidates => firstMatch parts candidates

/-- Filing adds the route at the end of its own bucket and leaves the others. -/
theorem lookup_push (key asked : String × Nat) (route : Route)
    (index : List ((String × Nat) × List Route)) :
    lookupBucket asked (pushRoute key route index) =
      if asked = key then some ((lookupBucket asked index).getD [] ++ [route])
      else lookupBucket asked index := by
  induction index with
  | nil =>
    by_cases same : asked = key
    · simp [pushRoute, lookupBucket, same]
    · simp [pushRoute, lookupBucket, same, Ne.symm same]
  | cons entry rest inductionHypothesis =>
    obtain ⟨other, bucket⟩ := entry
    by_cases filed : other = key
    · subst filed
      by_cases same : asked = other
      · simp [pushRoute, lookupBucket, same]
      · simp [pushRoute, lookupBucket, same, Ne.symm same]
    · by_cases here : other = asked
      · subst here
        simp [pushRoute, lookupBucket, filed]
      · simp [pushRoute, lookupBucket, filed, here, inductionHypothesis]

/-- Every filed route meets a condition on its key and itself. -/
def Router.Filed (router : Router) (condition : String × Nat → Route → Prop) : Prop :=
  ∀ key bucket, lookupBucket key router.index = some bucket →
    ∀ route ∈ bucket, condition key route

/-- Registration keeps the condition when the new route meets it under its key. -/
theorem add_filed {condition : String × Nat → Route → Prop} {router : Router} {method : String}
    {pattern : Text} {handler : Handler} (filed : router.Filed condition)
    (own : condition (method, (split pattern).length) ⟨method, split pattern, handler⟩) :
    (router.add method pattern handler).Filed condition := by
  intro key bucket found route member
  simp only [Router.add, lookup_push] at found
  split at found
  next same =>
    obtain rfl : (lookupBucket key router.index).getD [] ++
        [⟨method, split pattern, handler⟩] = bucket := Option.some.inj found
    rcases List.mem_append.mp member with earlier | last
    · cases present : lookupBucket key router.index with
      | none => simp [present] at earlier
      | some old => exact filed key old present route (by simpa [present] using earlier)
    · obtain rfl := List.mem_singleton.mp last
      exact same ▸ own
  next => exact filed key bucket found route member

/-- What the scan returns is one of the candidates, and it matched. -/
theorem firstMatch_mem {parts : List Text} {candidates : List Route} {route : Route}
    {params : Params} (found : firstMatch parts candidates = some (route, params)) :
    route ∈ candidates ∧ capture route.segments parts = some params := by
  induction candidates with
  | nil => simp [firstMatch] at found
  | cons first rest inductionHypothesis =>
    cases matched : capture first.segments parts with
    | some captured =>
      obtain ⟨rfl, rfl⟩ : first = route ∧ captured = params := by
        simpa [firstMatch, matched] using found
      exact ⟨List.mem_cons_self, matched⟩
    | none =>
      obtain ⟨member, captured⟩ := inductionHypothesis (by simpa [firstMatch, matched] using found)
      exact ⟨List.mem_cons_of_mem _ member, captured⟩

/-- Routes registered later are only asked when no earlier one matches. -/
theorem firstMatch_append {parts : List Text} {candidates : List Route} {hit : Route × Params}
    (later : List Route) (found : firstMatch parts candidates = some hit) :
    firstMatch parts (candidates ++ later) = some hit := by
  induction candidates with
  | nil => simp [firstMatch] at found
  | cons first rest inductionHypothesis =>
    cases matched : capture first.segments parts with
    | some captured => simpa [firstMatch, matched] using found
    | none =>
      have inRest : firstMatch parts rest = some hit := by simpa [firstMatch, matched] using found
      simpa [firstMatch, matched] using inductionHypothesis inRest

/-- A route a path leads to meets what is known of the filed routes, and its
pattern matched the path's segments. -/
theorem matchPath_filed {condition : String × Nat → Route → Prop} {router : Router}
    (filed : router.Filed condition) {method : String} {pathname : Text} {route : Route}
    {params : Params} (found : router.matchPath method pathname = some (route, params)) :
    condition (method, (split pathname).length) route ∧
      capture route.segments (split pathname) = some params := by
  unfold Router.matchPath at found
  dsimp only at found
  cases looked : lookupBucket (method, (split pathname).length) router.index with
  | none => simp [looked] at found
  | some candidates =>
    obtain ⟨member, captured⟩ := firstMatch_mem (by simpa [looked] using found)
    exact ⟨filed _ candidates looked route member, captured⟩

/-- A further registration does not change where a matched path leads. -/
theorem add_keeps_match {router : Router} {method : String} {pathname : Text}
    {hit : Route × Params} (added : String) (pattern : Text) (handler : Handler)
    (found : router.matchPath method pathname = some hit) :
    (router.add added pattern handler).matchPath method pathname = some hit := by
  unfold Router.matchPath at found ⊢
  dsimp only at found ⊢
  cases looked : lookupBucket (method, (split pathname).length) router.index with
  | none => simp [looked] at found
  | some candidates =>
    have inBucket : firstMatch (split pathname) candidates = some hit := by
      simpa [looked] using found
    simp only [Router.add, lookup_push]
    by_cases same : (method, (split pathname).length) = (added, (split pattern).length)
    · rw [if_pos same, looked]
      exact firstMatch_append _ inBucket
    · rw [if_neg same, looked]
      exact inBucket

end Notifkit.Api
