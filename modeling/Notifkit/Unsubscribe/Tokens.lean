import Notifkit.Foundations.Base64url
import Notifkit.Foundations.JsonTexts

/-!
# Signed unsubscribe tokens

A token is an encoded claim, a dot and the encoded MAC of exactly that encoded claim. It is not
stored anywhere: who holds the secret can tell a claim that was signed from any other text.

The MAC is a function of the secret and the text alone. Writing and reading JSON and reading bytes
as text belong to the language; a claim's own text has to be read back as it was written.
-/

namespace Notifkit.Unsubscribe

/-- What a link in an email lets its holder do. -/
structure UnsubscribeClaim where
  /-- Project the send belonged to. -/
  projectId : Text
  /-- The user's external id, as supplied by the caller. -/
  userId : Text
  channel : Text
  /-- The address itself, used when there is no topic to opt out of. -/
  target : Text
  /-- Topics the template belonged to. -/
  topics : List Text
deriving DecidableEq

/-- The language's own readers and writers, and the MAC, which has thirty-two bytes. -/
structure Codec extends JsonText where
  /-- `buffer.toString("utf8")` -/
  fromUtf8 : List UInt8 → Text
  /-- `createHmac("sha256", secret).update(payload).digest()` -/
  hmac : Text → Text → Vector UInt8 32

/-- A claim under the short names it travels with. -/
def wireClaim (claim : UnsubscribeClaim) : Json :=
  .obj [("p".toList, .str claim.projectId), ("u".toList, .str claim.userId),
    ("c".toList, .str claim.channel), ("t".toList, .str claim.target),
    ("k".toList, .arr (claim.topics.map .str))]

/-- The text of a string value. -/
def stringOf : Json → Option Text
  | .str text => some text
  | _ => none

/-- The claim of a parsed value; topics that are no strings are passed over. -/
def claimOf (wire : Json) : Option UnsubscribeClaim :=
  match wire.property "p".toList, wire.property "u".toList, wire.property "c".toList,
    wire.property "t".toList, wire.property "k".toList with
  | some (.str projectId), some (.str userId), some (.str channel), some (.str target),
    some (.arr topics) =>
    some { projectId, userId, channel, target, topics := topics.filterMap stringOf }
  | _, _, _, _, _ => none

namespace Codec

variable (codec : Codec)

/-- The encoded claim. -/
def payload (claim : UnsubscribeClaim) : Text :=
  Base64url.encode (utf8 (codec.stringify (wireClaim claim)))

/-- `signUnsubscribeToken` -/
def signUnsubscribeToken (claim : UnsubscribeClaim) (secret : Text) : Text :=
  let payload := codec.payload claim
  let mac := Base64url.encode (codec.hmac secret payload).toList
  payload ++ '.' :: mac

/-- What an encoded claim says. -/
def decodePayload (payload : Text) : Option UnsubscribeClaim :=
  (codec.parse (codec.fromUtf8 (Base64url.decode payload))).bind claimOf

/-- `verifyUnsubscribeToken` -/
def verifyUnsubscribeToken (token secret : Text) : Option UnsubscribeClaim :=
  match token.findIdx? (· = '.') with
  | none => none
  | some dot =>
    if dot = 0 ∨ dot = token.length - 1 then none
    else
      let payload := token.take dot
      let provided := Base64url.decode (token.drop (dot + 1))
      let expected := (codec.hmac secret payload).toList
      if provided.length ≠ expected.length then none
      else if provided ≠ expected then none
      else codec.decodePayload payload

end Codec

/-- The text before the first dot is found by looking for it. -/
theorem findIdx_dot {before after : Text} (plain : '.' ∉ before) :
    (before ++ '.' :: after).findIdx? (· = '.') = some before.length := by
  induction before with
  | nil => rfl
  | cons char rest inductionHypothesis =>
    rw [List.mem_cons, not_or] at plain
    rw [List.cons_append, List.findIdx?_cons, inductionHypothesis plain.2]
    have other : ¬char = '.' := fun same => plain.1 same.symm
    simp [other]

/-- Where a first dot is found, the text falls in two around it. -/
theorem split_dot {token : Text} {dot : Nat} (found : token.findIdx? (· = '.') = some dot) :
    token = token.take dot ++ '.' :: token.drop (dot + 1) ∧ '.' ∉ token.take dot := by
  induction token generalizing dot with
  | nil => cases found
  | cons char rest inductionHypothesis =>
    rw [List.findIdx?_cons] at found
    by_cases here : char = '.'
    · rw [if_pos (by simpa using here), Option.some.injEq] at found
      subst found here
      exact ⟨rfl, List.not_mem_nil⟩
    · rw [if_neg (by simpa using here)] at found
      cases later : rest.findIdx? (· = '.') with
      | none => rw [later] at found; cases found
      | some place =>
        rw [later, Option.map_some, Option.some.injEq] at found
        subst found
        obtain ⟨split, plain⟩ := inductionHypothesis later
        rw [List.take_succ_cons, List.drop_succ_cons, List.cons_append, ← split]
        refine ⟨rfl, ?_⟩
        rw [List.mem_cons, not_or]
        exact ⟨fun same => here same.symm, plain⟩

/-- An encoded text has no dot. -/
theorem encode_plain (bytes : List UInt8) : '.' ∉ Base64url.encode bytes := by
  intro member
  have none : '.' ∉ Base64url.alphabet := by decide
  exact none (Base64url.encode_alphabet bytes '.' member)

/-- Nothing but the empty text has no bytes. -/
theorem utf8_ne_nil {text : Text} (letters : text ≠ []) : utf8 text ≠ [] := by
  cases text with
  | nil => exact absurd rfl letters
  | cons char rest =>
    intro empty
    rw [utf8, List.flatMap_cons, List.append_eq_nil_iff] at empty
    exact String.utf8EncodeChar_ne_nil empty.1

/-- The claim read from its own wire form is the claim. -/
theorem claimOf_wireClaim (claim : UnsubscribeClaim) : claimOf (wireClaim claim) = some claim := by
  have topics : (claim.topics.map Json.str).filterMap stringOf = claim.topics := by
    rw [List.filterMap_map]
    exact List.filterMap_some
  obtain ⟨projectId, userId, channel, target, names⟩ := claim
  change some (UnsubscribeClaim.mk projectId userId channel target
    ((names.map Json.str).filterMap stringOf)) = _
  rw [topics]

variable (codec : Codec)

/-- What stands before the first dot and what stands behind it. -/
theorem verify_dot {before after secret : Text} (plain : '.' ∉ before) :
    codec.verifyUnsubscribeToken (before ++ '.' :: after) secret =
      if before = [] ∨ after = [] then none
      else if Base64url.decode after ≠ (codec.hmac secret before).toList then none
      else codec.decodePayload before := by
  have ends : before.length = 0 ∨ before.length = (before ++ '.' :: after).length - 1 ↔
      before = [] ∨ after = [] := by
    rw [List.length_append, List.length_cons, ← List.length_eq_zero_iff (l := before),
      ← List.length_eq_zero_iff (l := after)]
    omega
  unfold Codec.verifyUnsubscribeToken
  rw [findIdx_dot plain]
  by_cases bare : before = [] ∨ after = []
  · rw [if_pos bare]
    exact if_pos (ends.mpr bare)
  · rw [if_neg bare]
    refine (if_neg fun short => bare (ends.mp short)).trans ?_
    rw [List.take_left, List.drop_length_add_append, List.drop_one, List.tail_cons]
    by_cases same : Base64url.decode after = (codec.hmac secret before).toList
    · exact if_neg (not_not_intro (congrArg List.length same))
    · rw [if_pos same]
      exact (congrArg _ (if_pos same)).trans (ite_self none)

/-- A token is accepted just when the text before its first dot is signed by what follows. -/
theorem verifyUnsubscribeToken_eq_some {token secret : Text} {claim : UnsubscribeClaim} :
    codec.verifyUnsubscribeToken token secret = some claim ↔
      ∃ payload mac, token = payload ++ '.' :: mac ∧ '.' ∉ payload ∧ payload ≠ [] ∧ mac ≠ [] ∧
        Base64url.decode mac = (codec.hmac secret payload).toList ∧
        codec.decodePayload payload = some claim := by
  constructor
  · intro accepted
    cases found : token.findIdx? (· = '.') with
    | none =>
      unfold Codec.verifyUnsubscribeToken at accepted
      rw [found] at accepted
      cases accepted
    | some dot =>
      obtain ⟨split, plain⟩ := split_dot found
      refine ⟨token.take dot, token.drop (dot + 1), split, plain, ?_⟩
      rw [split, verify_dot codec plain] at accepted
      by_cases bare : token.take dot = [] ∨ token.drop (dot + 1) = []
      · rw [if_pos bare] at accepted
        cases accepted
      · rw [if_neg bare] at accepted
        rw [not_or] at bare
        by_cases same : Base64url.decode (token.drop (dot + 1)) =
            (codec.hmac secret (token.take dot)).toList
        · rw [if_neg (not_not_intro same)] at accepted
          exact ⟨bare.1, bare.2, same, accepted⟩
        · rw [if_pos same] at accepted
          cases accepted
  · rintro ⟨payload, mac, rfl, plain, text, mark, signed, claimed⟩
    rw [verify_dot codec plain, if_neg (not_or.mpr ⟨text, mark⟩), if_neg (not_not_intro signed),
      claimed]

/-- The payload of a claim whose text is read as it was written says the claim. -/
theorem decodePayload_payload {claim : UnsubscribeClaim}
    (parsed : codec.Reads (wireClaim claim))
    (read : codec.fromUtf8 (utf8 (codec.stringify (wireClaim claim))) =
      codec.stringify (wireClaim claim)) :
    codec.decodePayload (codec.payload claim) = some claim := by
  unfold Codec.decodePayload Codec.payload
  rw [Base64url.decode_encode, read, show codec.parse _ = _ from parsed]
  exact claimOf_wireClaim claim

/-- A signed claim is read back. -/
theorem verify_signed {claim : UnsubscribeClaim} (secret : Text)
    (nothing : codec.parse [] = none)
    (parsed : codec.Reads (wireClaim claim))
    (read : codec.fromUtf8 (utf8 (codec.stringify (wireClaim claim))) =
      codec.stringify (wireClaim claim)) :
    codec.verifyUnsubscribeToken (codec.signUnsubscribeToken claim secret) secret =
      some claim := by
  rw [verifyUnsubscribeToken_eq_some]
  refine ⟨codec.payload claim, Base64url.encode (codec.hmac secret (codec.payload claim)).toList,
    rfl, encode_plain _, ?_, ?_, Base64url.decode_encode _, ?_⟩
  · intro empty
    exact utf8_ne_nil (parsed.letters nothing) (Base64url.encode_eq_nil.mp empty)
  · intro empty
    have short := congrArg List.length (Base64url.encode_eq_nil.mp empty)
    rw [Vector.length_toList] at short
    cases short
  · exact decodePayload_payload codec parsed read

/-- A claim of one topic. -/
def newsClaim : UnsubscribeClaim where
  projectId := "p1".toList
  userId := "u1".toList
  channel := "email".toList
  target := "a@b.c".toList
  topics := ["news".toList]

/-- The text of that claim. -/
def newsText : Text :=
  "\x7b\"p\":\"p1\",\"u\":\"u1\",\"c\":\"email\",\"t\":\"a@b.c\",\"k\":[\"news\"]\x7d".toList

/-- How the language writes and reads it; the MAC is all zeros. -/
def newsCodec : Codec where
  toJsonText := .one (wireClaim newsClaim) newsText
  fromUtf8 bytes := if bytes = utf8 newsText then newsText else []
  hmac _ _ := Vector.replicate 32 0

theorem newsText_read : newsCodec.fromUtf8 (utf8 newsText) = newsText := by
  change (if utf8 newsText = utf8 newsText then newsText else []) = newsText
  exact if_pos rfl

end Notifkit.Unsubscribe
