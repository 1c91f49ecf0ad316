import Notifkit.Api.HandleRequest

/-!
# The address a client is counted under

A forwarding header reaches the server with whatever the client wrote first and
the trusted proxies' entries last, each appended after a comma. The server
counts from the right, so the address it picks is the first appended entry,
whatever stands before it.

The client's text is arbitrary: it may hold commas, blanks and empty elements of
its own, and it may be missing altogether.
-/

namespace Notifkit.Api

/-- The header's texts joined the way proxies append: the client's, if it wrote
any, and then every entry after a comma. -/
def forwardedText (client : Option Text) (entries : List Text) : Text :=
  [','].intercalate (client.toList ++ entries)

/-- The header ends with entries that name these addresses, one each. An entry may
have blanks around its address, and it holds no comma. -/
structure EndsWith (header : Text) (addresses : List Text) : Prop where
  appended : ∃ client entries, header = forwardedText client entries ∧
    entries.map Text.trim = addresses ∧ ∀ entry ∈ entries, ',' ∉ entry

/-- The elements of a header that count: trimmed, the empty ones dropped. -/
def elementsOf (header : Text) : List Text :=
  ((header.splitOn ',').map Text.trim).filter (· ≠ [])

/-- Splitting after the client's text leaves the entries as they were appended. -/
theorem splitOn_forwardedText (client : Option Text) (entries : List Text)
    (some_entry : entries ≠ []) (plain : ∀ entry ∈ entries, ',' ∉ entry) :
    (forwardedText client entries).splitOn ',' =
      (client.toList.flatMap fun text => text.splitOn ',') ++ entries := by
  have tail : ([','].intercalate entries).splitOn ',' = entries :=
    List.splitOn_intercalate ',' plain some_entry
  cases client with
  | none => simpa [forwardedText] using tail
  | some text =>
    have joined : forwardedText (some text) entries =
        text ++ ',' :: [','].intercalate entries := by
      cases entries with
      | nil => exact absurd rfl some_entry
      | cons entry rest => simp [forwardedText, List.intercalate]
    rw [joined, List.splitOn_append_cons_self, tail]
    simp

/-- What counts in a header that ends with the addresses: some elements the client
chose, and then the addresses. -/
theorem EndsWith.elements {header : Text} {addresses : List Text}
    (ends : EndsWith header addresses) (some_address : addresses ≠ [])
    (filled : ∀ address ∈ addresses, address ≠ []) :
    ∃ written, elementsOf header = written ++ addresses := by
  obtain ⟨client, entries, rfl, trimmed, plain⟩ := ends.appended
  have some_entry : entries ≠ [] := by
    intro none_left
    subst none_left
    exact some_address trimmed.symm
  have kept : addresses.filter (· ≠ []) = addresses := by
    apply List.filter_eq_self.mpr
    intro address present
    simpa using filled address present
  unfold elementsOf
  rw [splitOn_forwardedText client entries some_entry plain, List.map_append,
    List.filter_append, trimmed, kept]
  exact ⟨_, rfl⟩

/-- Counting back from the peer lands on the first of the last `trustedHops`
elements, however many stand before them. -/
theorem getClientIp_of_elements (req : Request) {header : Text}
    (present : req.forwardedFor = some header) {written rest : List Text} {address : Text}
    (elements : elementsOf header = written ++ address :: rest) :
    getClientIp req (rest.length + 1) = address := by
  have index : (written ++ address :: rest ++ [(nonEmpty req.remoteAddress).getD
      "unknown".toList]).length - 1 - (rest.length + 1) = written.length := by
    simp only [List.length_append, List.length_cons, List.length_nil]
    omega
  unfold elementsOf at elements
  simp only [getClientIp, present, Nat.succ_ne_zero, ↓reduceIte, elements, index]
  simp [List.getD]

/-- Behind `n` trusted proxies the address is the entry the first of them appended. -/
theorem getClientIp_eq_first (req : Request) {header : Text}
    (present : req.forwardedFor = some header) {address : Text} {rest : List Text}
    (ends : EndsWith header (address :: rest))
    (filled : ∀ entry ∈ address :: rest, entry ≠ []) :
    getClientIp req (rest.length + 1) = address := by
  obtain ⟨written, elements⟩ := ends.elements (List.cons_ne_nil address rest) filled
  exact getClientIp_of_elements req present elements

/-- The counter of a cap is asked for by the client's address only. -/
theorem capClient_congr {services : Services} {req other : Request}
    (same : getClientIp req services.TRUST_PROXY = getClientIp other services.TRUST_PROXY)
    (cap : Cap) (keyPart : String) (limit : Nat) (message : String) (guarded : Guarded) :
    capClient services req cap keyPart limit message guarded =
      capClient services other cap keyPart limit message guarded := by
  unfold capClient
  rw [same]

/-- Requests counted under one address pass or fail the public paths' caps together. -/
theorem capPublic_congr {services : Services} {req other : Request}
    (same : getClientIp req services.TRUST_PROXY = getClientIp other services.TRUST_PROXY)
    (pathname : Text) (guarded : Guarded) :
    capPublic services req pathname guarded = capPublic services other pathname guarded := by
  have login : capLogin services req pathname = capLogin services other pathname := by
    funext guarded
    unfold capLogin
    rw [capClient_congr same]
  unfold capPublic capUnsubscribe
  rw [login, capClient_congr same]

/-- Two requests whose forwarding headers end with the same `n` entries of the
trusted proxies are counted under one address, whatever their clients wrote before
those entries and whatever their peers: the caps on the public paths answer both alike. -/
theorem client_address_fixed {trustedHops : Nat} (trusted : 0 < trustedHops)
    {req other : Request} {header header' : Text}
    (present : req.forwardedFor = some header) (present' : other.forwardedFor = some header')
    {addresses : List Text} (count : addresses.length = trustedHops)
    (filled : ∀ address ∈ addresses, address ≠ [])
    (ends : EndsWith header addresses) (ends' : EndsWith header' addresses) :
    getClientIp req trustedHops = getClientIp other trustedHops ∧
      ∀ services : Services, services.TRUST_PROXY = trustedHops → ∀ pathname guarded,
        capPublic services req pathname guarded = capPublic services other pathname guarded := by
  have same : getClientIp req trustedHops = getClientIp other trustedHops := by
    cases addresses with
    | nil => exact absurd count (Nat.ne_of_lt trusted)
    | cons address rest =>
      subst count
      calc getClientIp req (rest.length + 1) = address :=
            getClientIp_eq_first req present ends filled
        _ = getClientIp other (rest.length + 1) :=
            (getClientIp_eq_first other present' ends' filled).symm
  constructor
  · exact same
  · intro services hops pathname guarded
    subst hops
    exact capPublic_congr same pathname guarded

/-- A header of two proxies' entries behind what the client wrote. -/
def behindTwo (client : Option Text) : Text :=
  forwardedText client ["198.51.100.7".toList, " 10.0.0.2".toList]

/-- Its last two entries name the two addresses. -/
theorem behindTwo_ends (client : Option Text) :
    EndsWith (behindTwo client) ["198.51.100.7".toList, "10.0.0.2".toList] := by
  have trimmed : ["198.51.100.7".toList, " 10.0.0.2".toList].map Text.trim =
      ["198.51.100.7".toList, "10.0.0.2".toList] := by decide
  have plain : ∀ entry ∈ ["198.51.100.7".toList, " 10.0.0.2".toList], ',' ∉ entry := by decide
  exact ⟨client, _, rfl, trimmed, plain⟩

/-- A request through two proxies, with this text written by its client. -/
def throughTwo (client : Option Text) : Request where
  method := "POST"
  url := "/v1/auth/login".toList
  forwardedFor := some (behindTwo client)
  remoteAddress := some "10.0.0.3".toList

/-- A forged chain of three elements, one of them empty, changes nothing. -/
theorem client_address_fixed_forged :
    getClientIp (throughTwo none) 2 =
      getClientIp (throughTwo (some "1.1.1.1, , 2.2.2.2".toList)) 2 :=
  (client_address_fixed (by decide) rfl rfl rfl (by decide) (behindTwo_ends none)
    (behindTwo_ends (some "1.1.1.1, , 2.2.2.2".toList))).1

end Notifkit.Api
