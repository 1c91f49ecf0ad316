import Notifkit.Foundations.Json
import Notifkit.Foundations.Placeholders

/-!
# Rendering of templates

A leaf is searched twice: for words in three braces, whose values are put in as they are, and then
for words in two braces, whose values are escaped for the field. The second search reads the values
the first one put in.

What it finds beyond the template's own placeholders is told by the text with the raw values in
place: a placeholder there that is not made of one stretch of the template's text.
-/

namespace Notifkit.Templates

open Placeholders

/-- A value a placeholder may have; what is neither absent nor a text is put in as JSON. -/
inductive Variable where
  | undefined
  | null
  | text (text : Text)
  | other (json : Text)
deriving DecidableEq

abbrev Variables := Text → Variable

/-- Each occurrence of a character replaced by a text. -/
def replaceChar (char : Char) (by_ : Text) (text : Text) : Text :=
  text.flatMap fun one => if one = char then by_ else [one]

/-- `escapeHtml` -/
def escapeHtml (unsafeText : Text) : Text :=
  replaceChar '\'' "&#039;".toList <| replaceChar '"' "&quot;".toList <|
    replaceChar '>' "&gt;".toList <| replaceChar '<' "&lt;".toList <|
      replaceChar '&' "&amp;".toList unsafeText

/-- `.replace(/[\r\n]+/g, " ")`; the first argument tells that a run of line ends goes on. -/
def collapseLines : Bool → Text → Text
  | _, [] => []
  | inRun, char :: rest =>
    if char = '\r' ∨ char = '\n' then
      if inRun then collapseLines true rest else ' ' :: collapseLines true rest
    else char :: collapseLines false rest

/-- `escapeHeader` -/
def escapeHeader (unsafeText : Text) : Text := (collapseLines false unsafeText).trim

/-- How an interpolated value must be escaped. -/
inductive EscapeMode where
  | html | header | text
deriving DecidableEq

/-- `HTML_FIELDS` -/
def htmlFields : List Text :=
  ["html".toList, "htmlbody".toList, "bodyhtml".toList, "htmlcontent".toList]

/-- `HEADER_FIELDS` -/
def headerFields : List Text :=
  ["subject".toList, "title".toList, "from".toList, "replyto".toList, "cc".toList, "bcc".toList,
    "preheader".toList, "preview".toList]

/-- `escapeModeFor` -/
def escapeModeFor (toLowerCase : Text → Text) (key : Text) (inherited : EscapeMode) : EscapeMode :=
  let k := (toLowerCase key).filter fun char => char ≠ '-' ∧ char ≠ '_'
  if k ∈ htmlFields then .html
  else if k ∈ headerFields then .header
  else inherited

/-- `applyEscape` -/
def applyEscape (value : Text) : EscapeMode → Text
  | .html => escapeHtml value
  | .header => escapeHeader value
  | .text => value

namespace Variable

/-- What three braces put in. -/
def raw : Variable → Text
  | undefined | null => []
  | text value => value
  | other json => json

/-- What two braces put in. -/
def escaped (mode : EscapeMode) : Variable → Text
  | undefined | null => []
  | text value => applyEscape value mode
  | other json => applyEscape json mode

end Variable

/-- The raw values in place: `tmpl.replace(/\{\{\{(\w+)\}\}\}/g, …)`. -/
def rawPass (tmpl : Text) (vars : Variables) : Text :=
  replace 3 (fun key => (vars key).raw) tmpl

/-- `interpolateLeaf` -/
def interpolateLeaf (tmpl : Text) (vars : Variables) (mode : EscapeMode) : Text :=
  replace 2 (fun key => (vars key).escaped mode) (rawPass tmpl vars)

/-- The property that is no property of its own when it is assigned to. -/
def prototypeKey : Text := "__proto__".toList

mutual

/-- `renderNode` -/
def renderNode (toLowerCase : Text → Text) (vars : Variables) : EscapeMode → Json → Json
  | mode, .str tmpl => .str (interpolateLeaf tmpl vars mode)
  | mode, .arr items => .arr (renderItems toLowerCase vars mode items)
  | mode, .obj fields => .obj (renderFields toLowerCase vars mode fields)
  | _, .null => .null
  | _, .bool value => .bool value
  | _, .num value => .num value

def renderItems (toLowerCase : Text → Text) (vars : Variables) :
    EscapeMode → List Json → List Json
  | _, [] => []
  | mode, item :: rest =>
    renderNode toLowerCase vars mode item :: renderItems toLowerCase vars mode rest

/-- Keys are distinct, so that each assignment adds a property; one to `__proto__` sets the
prototype and adds none. -/
def renderFields (toLowerCase : Text → Text) (vars : Variables) :
    EscapeMode → List (Text × Json) → List (Text × Json)
  | _, [] => []
  | mode, (key, value) :: rest =>
    if key = prototypeKey then renderFields toLowerCase vars mode rest
    else (key, renderNode toLowerCase vars (escapeModeFor toLowerCase key mode) value) ::
      renderFields toLowerCase vars mode rest

end

/-- What a template says: characters, words in three braces and words in two. -/
inductive Piece where
  | char (char : Char)
  | raw (key : Text)
  | escaped (key : Text)
deriving DecidableEq

/-- A template read once. The first number counts the characters that belong to a placeholder that
was found. -/
def reading : Nat → Text → List Piece
  | _, [] => []
  | skip + 1, _ :: rest => reading skip rest
  | 0, char :: rest =>
    match placeholder 3 (char :: rest) with
    | some key => .raw key :: reading ((written 3 key).length - 1) rest
    | none =>
      match placeholder 2 (char :: rest) with
      | some key => .escaped key :: reading ((written 2 key).length - 1) rest
      | none => .char char :: reading 0 rest

/-- What stands for a piece. -/
def Piece.value (vars : Variables) (mode : EscapeMode) : Piece → Text
  | .char one => [one]
  | .raw key => (vars key).raw
  | .escaped key => (vars key).escaped mode

/-- The template with the value of each of its placeholders in place. -/
def singlePass (tmpl : Text) (vars : Variables) (mode : EscapeMode) : Text :=
  (reading 0 tmpl).flatMap (Piece.value vars mode)

/-- The word of a piece in two braces. -/
def Piece.escapedKey : Piece → Option Text
  | .escaped key => some key
  | _ => none

/-- The words the template has in two braces. -/
def escapedKeys (tmpl : Text) : List Text := (reading 0 tmpl).filterMap Piece.escapedKey

/-- Interpolation is a single pass: each of the template's placeholders is replaced, and nothing
else is taken for one. -/
def IsSinglePass (tmpl : Text) (vars : Variables) (mode : EscapeMode) : Prop :=
  interpolateLeaf tmpl vars mode = singlePass tmpl vars mode ∧
    keys 2 (rawPass tmpl vars) = escapedKeys tmpl

/-- A character of the template's own text, with the number of raw placeholders before it, or one of
a value. -/
abbrev Marked := Char × Option Nat

/-- The raw values in place, each character with its mark. -/
def markedFrom (vars : Variables) : Nat → List (Char ⊕ Text) → List Marked
  | _, [] => []
  | stretch, .inl char :: rest => (char, some stretch) :: markedFrom vars stretch rest
  | stretch, .inr key :: rest =>
    (vars key).raw.map (fun char => (char, none)) ++ markedFrom vars (stretch + 1) rest

/-- The characters are the template's own, and of one stretch. -/
def isOwn : List Marked → Bool
  | (_, some stretch) :: rest => rest.all fun one => one.2 = some stretch
  | _ => false

/-- Each placeholder in two braces is made of one stretch of the template's own text. -/
def OwnPlaceholders (text : List Marked) : Prop :=
  ∀ place key, placeholder 2 ((text.drop place).map Prod.fst) = some key →
    isOwn ((text.drop place).take (written 2 key).length) = true

variable {vars : Variables} {mode : EscapeMode} {text rest tmpl : Text} {key : Text} {char : Char}
  {marked : List Marked} {stretch : Nat}

section Reading

/-- What is counted belongs to a placeholder that was found. -/
theorem reading_skip (skip : Nat) (text : Text) : reading skip text = reading 0 (text.drop skip) := by
  induction text generalizing skip with
  | nil =>
    rw [List.drop_nil]
    cases skip with
    | zero => rfl
    | succ skip => rfl
  | cons char rest inductionHypothesis =>
    cases skip with
    | zero => rfl
    | succ skip => exact inductionHypothesis skip

theorem reading_cons : reading 0 (char :: rest) =
    match placeholder 3 (char :: rest) with
    | some key => .raw key :: reading ((written 3 key).length - 1) rest
    | none =>
      match placeholder 2 (char :: rest) with
      | some key => .escaped key :: reading ((written 2 key).length - 1) rest
      | none => .char char :: reading 0 rest := rfl

/-- Behind a placeholder at the front the reading goes on at its end. -/
theorem reading_behind {n : Nat} (braces : 0 < n) :
    reading ((written n key).length - 1) rest =
      reading 0 ((char :: rest).drop (written n key).length) := by
  obtain ⟨count, same⟩ := length_written_eq braces key
  rw [reading_skip, same, Nat.add_sub_cancel, List.drop_succ_cons]

theorem reading_raw (found : placeholder 3 text = some key) :
    reading 0 text = .raw key :: reading 0 (text.drop (written 3 key).length) := by
  cases text with
  | nil => cases found
  | cons char rest =>
    rw [reading_cons, found]
    exact congrArg _ (reading_behind (by decide))

theorem reading_escaped (missing : placeholder 3 text = none) (found : placeholder 2 text = some key) :
    reading 0 text = .escaped key :: reading 0 (text.drop (written 2 key).length) := by
  cases text with
  | nil => cases found
  | cons char rest =>
    rw [reading_cons, missing, found]
    exact congrArg _ (reading_behind (by decide))

theorem reading_char (missing : placeholder 3 (char :: rest) = none)
    (missing' : placeholder 2 (char :: rest) = none) :
    reading 0 (char :: rest) = .char char :: reading 0 rest := by
  rw [reading_cons, missing, missing']

/-- What is shown of a template behind its first placeholder of either kind, or behind its first
character where it has none there, is shown of every template. -/
theorem induction_of_passes {P : Text → Prop} (nil : P [])
    (raw : ∀ text key, placeholder 3 text = some key →
      P (text.drop (written 3 key).length) → P text)
    (escaped : ∀ text key, placeholder 3 text = none → placeholder 2 text = some key →
      P (text.drop (written 2 key).length) → P text)
    (step : ∀ char rest, placeholder 3 (char :: rest) = none →
      placeholder 2 (char :: rest) = none → P rest → P (char :: rest)) :
    ∀ text, P text := by
  intro text
  induction size : text.length using Nat.strong_induction_on generalizing text with
  | _ bound inductionHypothesis =>
    subst size
    cases found : placeholder 3 text with
    | some key =>
      exact raw text key found (inductionHypothesis _ (length_behind (by decide) found) _ rfl)
    | none =>
      cases found' : placeholder 2 text with
      | some key =>
        exact escaped text key found found'
          (inductionHypothesis _ (length_behind (by decide) found') _ rfl)
      | none =>
        cases text with
        | nil => exact nil
        | cons char rest =>
          exact step char rest found found'
            (inductionHypothesis rest.length (Nat.lt_succ_self _) rest rfl)

end Reading

/-- The template with the raw values in place, marked. -/
def markedText (vars : Variables) (stretch : Nat) (tmpl : Text) : List Marked :=
  markedFrom vars stretch (pieces 3 0 tmpl)

/-- The marks are put on what the first search leaves. -/
theorem markedText_text (vars : Variables) (stretch : Nat) (tmpl : Text) :
    (markedText vars stretch tmpl).map Prod.fst = rawPass tmpl vars := by
  unfold markedText rawPass replace
  induction pieces 3 0 tmpl generalizing stretch with
  | nil => rfl
  | cons piece rest inductionHypothesis =>
    cases piece with
    | inl char =>
      rw [markedFrom, List.map_cons, inductionHypothesis]
      rfl
    | inr key =>
      rw [markedFrom, List.map_append, inductionHypothesis, List.flatMap_cons, List.map_map]
      congr 1
      exact List.map_id _

/-- Stretches are counted up. -/
theorem stretch_le_of_mem {pieces : List (Char ⊕ Text)} {one : Marked} {later : Nat}
    (listed : one ∈ markedFrom vars stretch pieces) (own : one.2 = some later) :
    stretch ≤ later := by
  induction pieces generalizing stretch with
  | nil => cases listed
  | cons piece rest inductionHypothesis =>
    cases piece with
    | inl char =>
      rcases List.mem_cons.mp listed with rfl | listed
      · exact (Option.some.inj own).le
      · exact inductionHypothesis listed
    | inr key =>
      rcases List.mem_append.mp listed with value | listed
      · obtain ⟨char, _, rfl⟩ := List.mem_map.mp value
        cases own
      · exact Nat.le_of_succ_le (inductionHypothesis listed)

/-- A raw value and what is behind it. -/
theorem markedText_raw (found : placeholder 3 text = some key) : markedText vars stretch text =
    (vars key).raw.map (fun char => (char, none)) ++
      markedText vars (stretch + 1) (text.drop (written 3 key).length) := by
  unfold markedText
  rw [pieces_found (by decide) found]
  rfl

theorem markedText_char (missing : placeholder 3 (char :: rest) = none) :
    markedText vars stretch (char :: rest) =
      (char, some stretch) :: markedText vars stretch rest := by
  unfold markedText
  rw [pieces_char missing]
  rfl

/-- Behind a raw placeholder no character is of the stretch before it. -/
theorem not_stretch_of_raw {one : Marked}
    (listed : one ∈ (vars key).raw.map (fun char => (char, none)) ++
      markedText vars (stretch + 1) rest) : one.2 ≠ some stretch := by
  intro own
  rcases List.mem_append.mp listed with value | listed
  · obtain ⟨char, _, rfl⟩ := List.mem_map.mp value
    cases own
  · exact absurd (stretch_le_of_mem listed own) (Nat.not_succ_le_self stretch)

/-- Characters of the first stretch are the template's first. -/
theorem take_own {count : Nat} (room : count ≤ (markedText vars stretch tmpl).length)
    (own : ∀ one ∈ (markedText vars stretch tmpl).take count, one.2 = some stretch) :
    ((markedText vars stretch tmpl).take count).map Prod.fst = tmpl.take count := by
  induction tmpl using induction_of_reading (n := 3) (by decide) generalizing count with
  | nil =>
    have empty : markedText vars stretch [] = [] := rfl
    rw [empty, List.take_nil, List.take_nil]
    rfl
  | hole text key found _ =>
    rw [markedText_raw found] at own room ⊢
    cases count with
    | zero => rfl
    | succ count =>
      generalize same : (vars key).raw.map (fun char => (char, none)) ++
        markedText vars (stretch + 1) (text.drop (written 3 key).length) = all at own room
      cases all with
      | nil => cases room
      | cons one more =>
        have mark := own one List.mem_cons_self
        have listed : one ∈ (vars key).raw.map (fun char => (char, none)) ++
            markedText vars (stretch + 1) (text.drop (written 3 key).length) := by
          rw [same]
          exact List.mem_cons_self
        exact absurd mark (not_stretch_of_raw listed)
  | step char rest missing inductionHypothesis =>
    rw [markedText_char missing] at own room ⊢
    cases count with
    | zero => rfl
    | succ count =>
      rw [List.take_succ_cons, List.map_cons, List.take_succ_cons, inductionHypothesis
        (Nat.le_of_succ_le_succ room) fun one listed => own one (List.mem_cons_of_mem _ listed)]

/-- A placeholder of the template's own text, at its front, is one of the template. -/
theorem placeholder_of_own (found : placeholder 2 ((markedText vars stretch tmpl).map Prod.fst) =
      some key)
    (own : ∀ one ∈ (markedText vars stretch tmpl).take (written 2 key).length,
      one.2 = some stretch) : placeholder 2 tmpl = some key := by
  obtain ⟨letters, words, rest, split⟩ := (placeholder_eq_some (by decide)).mp found
  have room : (written 2 key).length ≤ (markedText vars stretch tmpl).length := by
    have length := congrArg List.length split
    rw [List.length_map, List.length_append] at length
    omega
  have front := take_own room own
  rw [List.map_take, split, List.take_left] at front
  refine (placeholder_eq_some (by decide)).mpr ⟨letters, words, tmpl.drop (written 2 key).length, ?_⟩
  exact (List.take_append_drop (written 2 key).length tmpl).symm.trans (congrArg (· ++ _) front.symm)

theorem markedFrom_chars (chars : Text) (more : List (Char ⊕ Text)) :
    markedFrom vars stretch (chars.map .inl ++ more) =
      chars.map (fun char => (char, some stretch)) ++ markedFrom vars stretch more := by
  induction chars with
  | nil => rfl
  | cons char rest inductionHypothesis => exact congrArg _ inductionHypothesis

/-- A template's own placeholder stands where it stood. -/
theorem markedText_escaped (missing : placeholder 3 tmpl = none)
    (found : placeholder 2 tmpl = some key) : markedText vars stretch tmpl =
      (written 2 key).map (fun char => (char, some stretch)) ++
        markedText vars stretch (tmpl.drop (written 2 key).length) := by
  have quiet : ∀ place < (written 2 key).length, placeholder 3 (tmpl.drop place) = none := by
    intro place inside
    cases place with
    | zero => exact missing
    | succ place => exact placeholder_inside (by decide) (by decide) found (by omega) inside
  obtain ⟨_, _, rest, split⟩ := (placeholder_eq_some (by decide)).mp found
  have room : (written 2 key).length ≤ tmpl.length := by
    rw [split, List.length_append]
    omega
  unfold markedText
  rw [pieces_quiet room quiet, markedFrom_chars]
  congr 2
  rw [split, List.take_left]

/-- The word in two braces at the front, where it is made of one stretch of the template's text. -/
def ownKeysAt (marked : List Marked) : List Text :=
  match placeholder 2 (marked.map Prod.fst) with
  | some key => if isOwn (marked.take (written 2 key).length) then [key] else []
  | none => []

/-- The words in two braces that are made of one stretch of the template's own text. -/
def ownKeys : List Marked → List Text
  | [] => []
  | one :: rest => ownKeysAt (one :: rest) ++ ownKeys rest

theorem ownKeysAt_none (missing : placeholder 2 (marked.map Prod.fst) = none) :
    ownKeysAt marked = [] := by
  unfold ownKeysAt
  rw [missing]

theorem ownKeysAt_own (found : placeholder 2 (marked.map Prod.fst) = some key)
    (own : isOwn (marked.take (written 2 key).length) = true) : ownKeysAt marked = [key] := by
  unfold ownKeysAt
  rw [found]
  exact if_pos own

/-- Where what can be read is not the template's own, there is none. -/
theorem ownKeysAt_other (other : ∀ key, placeholder 2 (marked.map Prod.fst) = some key →
    isOwn (marked.take (written 2 key).length) = false) : ownKeysAt marked = [] := by
  cases found : placeholder 2 (marked.map Prod.fst) with
  | none => exact ownKeysAt_none found
  | some key =>
    unfold ownKeysAt
    rw [found]
    exact if_neg (by rw [other key found]; decide)

theorem ownKeys_sublist (marked : List Marked) :
    (ownKeys marked).Sublist (occurrences 2 (marked.map Prod.fst)) := by
  induction marked with
  | nil => exact List.Sublist.slnil
  | cons one rest inductionHypothesis =>
    rw [ownKeys, List.map_cons, occurrences]
    apply List.Sublist.append _ inductionHypothesis
    cases found : placeholder 2 ((one :: rest).map Prod.fst) with
    | none =>
      rw [ownKeysAt_none found]
      exact List.nil_sublist _
    | some key =>
      rw [show placeholder 2 (one.1 :: rest.map Prod.fst) = _ from found]
      by_cases own : isOwn ((one :: rest).take (written 2 key).length) = true
      · rw [ownKeysAt_own found own]
        exact List.Sublist.refl _
      · rw [ownKeysAt_other fun key' found' => by
          rw [← Option.some.inj (found.symm.trans found')]
          exact Bool.eq_false_iff.mpr own]
        exact List.nil_sublist _

theorem ownPlaceholders_cons {one : Marked} {marked : List Marked} :
    OwnPlaceholders (one :: marked) ↔
      (∀ key, placeholder 2 ((one :: marked).map Prod.fst) = some key →
        isOwn ((one :: marked).take (written 2 key).length) = true) ∧ OwnPlaceholders marked := by
  constructor
  · intro own
    exact ⟨own 0, fun place => own (place + 1)⟩
  · rintro ⟨first, others⟩ place
    cases place with
    | zero => exact first
    | succ place => exact others place

/-- Placeholders behind some characters are placeholders. -/
theorem OwnPlaceholders.behind {before more : List Marked} (own : OwnPlaceholders (before ++ more)) :
    OwnPlaceholders more := by
  intro place key
  have shifted := own (before.length + place) key
  rwa [List.drop_length_add_append] at shifted

/-- Every placeholder is the template's own just when the template's own are all that can be
read. -/
theorem ownPlaceholders_iff (marked : List Marked) : OwnPlaceholders marked ↔
    occurrences 2 (marked.map Prod.fst) = ownKeys marked := by
  induction marked with
  | nil =>
    refine iff_of_true ?_ rfl
    intro place key found
    rw [List.drop_nil] at found
    cases found
  | cons one rest inductionHypothesis =>
    rw [ownPlaceholders_cons, inductionHypothesis, ownKeys, List.map_cons, occurrences]
    cases found : placeholder 2 ((one :: rest).map Prod.fst) with
    | none =>
      rw [ownKeysAt_none found, show placeholder 2 (one.1 :: rest.map Prod.fst) = _ from found]
      constructor
      · exact And.right
      · exact fun same => ⟨fun key read => (by cases read), same⟩
    | some key =>
      rw [show placeholder 2 (one.1 :: rest.map Prod.fst) = _ from found]
      by_cases own : isOwn ((one :: rest).take (written 2 key).length) = true
      · rw [ownKeysAt_own found own]
        constructor
        · exact fun both => congrArg _ both.2
        · intro same
          refine ⟨fun other read => ?_, List.tail_eq_of_cons_eq same⟩
          rwa [← Option.some.inj read]
      · have shorter := (ownKeys_sublist rest).length_le
        constructor
        · exact fun both => absurd (both.1 key rfl) own
        · intro same
          rw [ownKeysAt_other fun key' found' => by
            rw [← Option.some.inj (found.symm.trans found')]
            exact Bool.eq_false_iff.mpr own] at same
          have length := congrArg List.length same
          rw [Option.toList_some, List.length_append, List.length_singleton,
            List.nil_append] at length
          omega

/-- Where a value begins, nothing is the template's own. -/
theorem isOwn_value {char : Char} {more : List Marked} :
    isOwn (((char, none) :: more).take (written 2 key).length) = false := by
  obtain ⟨count, size⟩ := length_written_eq (by decide : 0 < 2) key
  rw [size, List.take_succ_cons]
  rfl

/-- What is the template's own from a character on is of the character's stretch. -/
theorem isOwn_char {char : Char} {more : List Marked} :
    isOwn (((char, some stretch) :: more).take (written 2 key).length) = true ↔
      ∀ one ∈ ((char, some stretch) :: more).take (written 2 key).length,
        one.2 = some stretch := by
  obtain ⟨count, size⟩ := length_written_eq (by decide : 0 < 2) key
  rw [size, List.take_succ_cons, List.forall_mem_cons]
  unfold isOwn
  rw [List.all_eq_true]
  simp

theorem ownKeys_values (chars : Text) (more : List Marked) :
    ownKeys (chars.map (fun char => (char, none)) ++ more) = ownKeys more := by
  induction chars with
  | nil => rfl
  | cons char rest inductionHypothesis =>
    rw [List.map_cons, List.cons_append, ownKeys, ownKeysAt_other fun _ _ => isOwn_value,
      List.nil_append, inductionHypothesis]

/-- The template's own placeholder at the front, and those behind it. -/
theorem ownKeys_found (found : placeholder 2 (marked.map Prod.fst) = some key)
    (own : isOwn (marked.take (written 2 key).length) = true) :
    ownKeys marked = key :: ownKeys (marked.drop (written 2 key).length) := by
  have quiet : ∀ (count : Nat) (marked : List Marked),
      (∀ place < count, placeholder 2 ((marked.map Prod.fst).drop place) = none) →
        ownKeys marked = ownKeys (marked.drop count) := by
    intro count
    induction count with
    | zero => exact fun _ _ => rfl
    | succ count inductionHypothesis =>
      intro marked none
      cases marked with
      | nil => rfl
      | cons one rest =>
        have first := none 0 (Nat.succ_pos count)
        rw [List.drop_zero] at first
        rw [List.drop_succ_cons, ← inductionHypothesis rest fun place below =>
          none (place + 1) (Nat.succ_lt_succ below), ownKeys, ownKeysAt_none first,
          List.nil_append]
  cases marked with
  | nil => cases found
  | cons one rest =>
    obtain ⟨count, size⟩ := length_written_eq (by decide : 0 < 2) key
    rw [ownKeys, ownKeysAt_own found own, size, List.drop_succ_cons, ← quiet count rest
      fun place below =>
        placeholder_inside (by decide) le_rfl found (Nat.succ_pos place) (by omega)]
    rfl

/-- A template that has no placeholder at its front has none of its own there with the values in
place. -/
theorem not_own_of_char (missing : placeholder 2 (char :: rest) = none)
    (missing' : placeholder 3 (char :: rest) = none)
    (found : placeholder 2 ((markedText vars stretch (char :: rest)).map Prod.fst) = some key) :
    isOwn ((markedText vars stretch (char :: rest)).take (written 2 key).length) = false := by
  rw [Bool.eq_false_iff]
  intro own
  rw [markedText_char missing', isOwn_char, ← markedText_char missing'] at own
  rw [placeholder_of_own found own] at missing
  cases missing

/-- A template's own placeholder can be read with the values in place. -/
theorem own_of_escaped (vars : Variables) (stretch : Nat) (missing : placeholder 3 tmpl = none)
    (found : placeholder 2 tmpl = some key) :
    placeholder 2 ((markedText vars stretch tmpl).map Prod.fst) = some key ∧
      isOwn ((markedText vars stretch tmpl).take (written 2 key).length) = true ∧
      (markedText vars stretch tmpl).drop (written 2 key).length =
        markedText vars stretch (tmpl.drop (written 2 key).length) := by
  have front : ((written 2 key).map fun char => (char, some stretch)).length =
      (written 2 key).length := List.length_map _
  rw [markedText_escaped missing found]
  refine ⟨?_, ?_, ?_⟩
  · obtain ⟨letters, words, _⟩ := (placeholder_eq_some (by decide)).mp found
    refine (placeholder_eq_some (by decide)).mpr ⟨letters, words,
      (markedText vars stretch (tmpl.drop (written 2 key).length)).map Prod.fst, ?_⟩
    rw [List.map_append, List.map_map]
    exact congrArg (· ++ _) (List.map_id _)
  · rw [← front, List.take_left, written, List.map_append]
    change (((List.replicate 1 '{' ++ (key ++ List.replicate 2 '}')).map
      fun char => (char, some stretch)).all fun one => one.2 = some stretch) = true
    rw [List.all_eq_true]
    intro one listed
    obtain ⟨_, _, rfl⟩ := List.mem_map.mp listed
    exact decide_eq_true rfl
  · rw [← front, List.drop_left]

/-- The template's own placeholders are those a single reading finds. -/
theorem ownKeys_markedText (vars : Variables) (stretch : Nat) (tmpl : Text) :
    ownKeys (markedText vars stretch tmpl) = escapedKeys tmpl := by
  induction tmpl using induction_of_passes generalizing stretch with
  | nil => rfl
  | raw text key found inductionHypothesis =>
    unfold escapedKeys
    rw [markedText_raw found, ownKeys_values, inductionHypothesis, reading_raw found]
    rfl
  | escaped text key missing found inductionHypothesis =>
    obtain ⟨read, own, behind⟩ := own_of_escaped vars stretch missing found
    unfold escapedKeys
    rw [ownKeys_found read own, behind, inductionHypothesis, reading_escaped missing found]
    rfl
  | step char rest missing missing' inductionHypothesis =>
    unfold escapedKeys
    rw [markedText_char missing, ownKeys, reading_char missing missing', inductionHypothesis,
      ← markedText_char missing, ownKeysAt_other fun _ => not_own_of_char missing' missing]
    rfl

/-- Where every placeholder is the template's own, the second search does what a single reading
does. -/
theorem replace_markedText (own : OwnPlaceholders (markedText vars stretch tmpl)) :
    replace 2 (fun key => (vars key).escaped mode) ((markedText vars stretch tmpl).map Prod.fst) =
      singlePass tmpl vars mode := by
  unfold replace singlePass
  induction tmpl using induction_of_passes generalizing stretch with
  | nil => rfl
  | raw text key found inductionHypothesis =>
    rw [markedText_raw found] at own ⊢
    have chars : ((vars key).raw.map fun char => ((char, none) : Marked)).map Prod.fst =
        (vars key).raw := by
      rw [List.map_map]
      exact List.map_id _
    have quiet : ∀ place < (vars key).raw.length, placeholder 2 (((vars key).raw ++
        (markedText vars (stretch + 1) (text.drop (written 3 key).length)).map Prod.fst).drop place) =
          none := by
      intro place inside
      rw [Option.eq_none_iff_forall_not_mem]
      intro other read
      have mine := own place other
      rw [List.map_drop, List.map_append, chars] at mine
      have mine := mine read
      rw [List.drop_append_of_le_length (by simpa using inside.le), ← List.map_drop,
        List.drop_eq_getElem_cons inside, List.map_cons, List.cons_append, isOwn_value] at mine
      cases mine
    rw [List.map_append, chars, reading_raw found, List.flatMap_cons,
      ← inductionHypothesis own.behind, pieces_quiet (by simp) quiet, List.take_left,
      List.drop_left, List.flatMap_append]
    congr 1
    rw [List.flatMap_map]
    exact List.flatMap_singleton' _
  | escaped text key missing found inductionHypothesis =>
    obtain ⟨read, _, behind⟩ := own_of_escaped vars stretch missing found
    have later : OwnPlaceholders (markedText vars stretch (text.drop (written 2 key).length)) := by
      rw [← behind]
      rw [← List.take_append_drop (written 2 key).length (markedText vars stretch text)] at own
      exact own.behind
    rw [pieces_found (by decide) read, ← List.map_drop, behind, List.flatMap_cons,
      inductionHypothesis later, reading_escaped missing found]
    rfl
  | step char rest missing missing' inductionHypothesis =>
    have none : placeholder 2 ((markedText vars stretch (char :: rest)).map Prod.fst) = none := by
      rw [Option.eq_none_iff_forall_not_mem]
      intro key found
      have mine := own 0 key found
      rw [List.drop_zero, not_own_of_char missing' missing found] at mine
      cases mine
    rw [markedText_char missing] at own none ⊢
    rw [List.map_cons] at none ⊢
    rw [pieces_char none, List.flatMap_cons,
      inductionHypothesis (ownPlaceholders_cons.mp own).2, reading_char missing missing']
    rfl

/-- Interpolation is a single pass just when, with the raw values in place, every placeholder in two
braces is made of one stretch of the template's own text. -/
theorem single_pass_iff (tmpl : Text) (vars : Variables) (mode : EscapeMode) :
    IsSinglePass tmpl vars mode ↔ OwnPlaceholders (markedText vars 0 tmpl) := by
  unfold IsSinglePass interpolateLeaf
  rw [← markedText_text vars 0 tmpl, keys_eq (by decide), ← ownKeys_markedText vars 0 tmpl,
    ← ownPlaceholders_iff]
  constructor
  · exact And.right
  · exact fun own => ⟨replace_markedText own, own⟩

/-- A value that says `b` in two braces, and one that says `b`. -/
def nested : Variables := fun key =>
  if key = "a".toList then .text "\x7b\x7bb\x7d\x7d".toList
  else if key = "c".toList then .text "b".toList
  else .text "x".toList

/-- Words in braces that a value brings, or that it ends in the braces around it, are taken for
placeholders. -/
theorem values_interpreted :
    interpolateLeaf "\x7b\x7b\x7ba\x7d\x7d\x7d".toList nested .text = "x".toList ∧
      ¬IsSinglePass "\x7b\x7b\x7ba\x7d\x7d\x7d".toList nested .text ∧
      ¬IsSinglePass "\x7b\x7b\x7b\x7b\x7bc\x7d\x7d\x7d\x7d\x7d".toList nested .text := by
  refine ⟨by decide, ?_, ?_⟩
  · rintro ⟨same, _⟩
    exact absurd same (by decide)
  · rintro ⟨same, _⟩
    exact absurd same (by decide)

end Notifkit.Templates
