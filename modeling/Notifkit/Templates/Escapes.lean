import Notifkit.Templates.Render

/-!
# What rendering keeps and what it escapes

Rendering goes down the tree with the mode of the nearest field that has one. Objects, lists and
values that are no strings come out as they went in, and what two braces put into a string is
escaped for the nearest field: entities stand for the marks of markup, and a header has no line ends.

A property named `__proto__` is lost, and with it the shape.
-/

namespace Notifkit.Templates

open Placeholders

/-- A step down a tree. -/
inductive Step where
  | key (key : Text)
  | index (index : Nat)
deriving DecidableEq

/-- The value at the end of a path. -/
def valueAt : List Step → Json → Option Json
  | [], node => some node
  | .key key :: rest, .obj fields =>
    (fields.find? fun field => field.1 = key).bind fun field => valueAt rest field.2
  | .index index :: rest, .arr items => items[index]?.bind (valueAt rest)
  | _ :: _, _ => none

/-- The mode a field has by its name. -/
def fieldMode (toLowerCase : Text → Text) : Step → Option EscapeMode
  | .key key =>
    let k := (toLowerCase key).filter fun char => char ≠ '-' ∧ char ≠ '_'
    if k ∈ htmlFields then some .html
    else if k ∈ headerFields then some .header
    else none
  | .index _ => none

/-- The mode of the nearest field above the end of a path that has one. -/
def nearestField (toLowerCase : Text → Text) (path : List Step) : Option EscapeMode :=
  (path.filterMap (fieldMode toLowerCase)).getLast?

mutual

/-- A tree without the texts of its strings. -/
def skeleton : Json → Json
  | .str _ => .str []
  | .arr items => .arr (skeletonItems items)
  | .obj fields => .obj (skeletonFields fields)
  | .null => .null
  | .bool value => .bool value
  | .num value => .num value

def skeletonItems : List Json → List Json
  | [] => []
  | item :: rest => skeleton item :: skeletonItems rest

def skeletonFields : List (Text × Json) → List (Text × Json)
  | [] => []
  | (key, value) :: rest => (key, skeleton value) :: skeletonFields rest

end

mutual

/-- No object of a tree has a property named `__proto__`. -/
def isPlain : Json → Bool
  | .arr items => isPlainItems items
  | .obj fields => isPlainFields fields
  | _ => true

def isPlainItems : List Json → Bool
  | [] => true
  | item :: rest => isPlain item && isPlainItems rest

def isPlainFields : List (Text × Json) → Bool
  | [] => true
  | (key, value) :: rest => key ≠ prototypeKey && (isPlain value && isPlainFields rest)

end

/-- The escapes of `escapeHtml`. -/
def entities : List Text :=
  ["&amp;".toList, "&lt;".toList, "&gt;".toList, "&quot;".toList, "&#039;".toList]

/-- The characters that are markup. -/
def markup : List Char := ['<', '>', '"', '\'']

/-- No markup, and no ampersand but those of the escapes. -/
structure HtmlSafe (text : Text) : Prop where
  markup : ∀ char ∈ markup, char ∉ text
  ampersands : ∃ units : List Text, text = units.flatten ∧
    ∀ unit ∈ units, unit ∈ entities ∨ '&' ∉ unit

/-- No line ends. -/
def HeaderSafe (text : Text) : Prop := '\r' ∉ text ∧ '\n' ∉ text

/-- A leaf with what two braces put in: characters, and the texts that were put in. -/
def substituted (vars : Variables) (mode : EscapeMode) (tmpl : Text) : List (Char ⊕ Text) :=
  (pieces 2 0 (rawPass tmpl vars)).map (Sum.map id fun key => (vars key).escaped mode)

/-- The text of such a leaf. -/
def joined (parts : List (Char ⊕ Text)) : Text := parts.flatMap (Sum.elim (fun char => [char]) id)

/-- A string of the tree comes out at its place, and what two braces put in is safe there. -/
def SafeLeaves (toLowerCase : Text → Text) (vars : Variables) (mode : EscapeMode) (tree : Json) :
    Prop :=
  ∀ path tmpl, valueAt path tree = some (.str tmpl) →
    let parts := substituted vars ((nearestField toLowerCase path).getD mode) tmpl
    valueAt path (renderNode toLowerCase vars mode tree) = some (.str (joined parts)) ∧
      ∀ text, .inr text ∈ parts →
        (nearestField toLowerCase path = some .html → HtmlSafe text) ∧
        (nearestField toLowerCase path = some .header → HeaderSafe text)

/-- Rendering keeps the shape, and puts in what is safe. -/
def SafeRendering (toLowerCase : Text → Text) (vars : Variables) (mode : EscapeMode)
    (tree : Json) : Prop :=
  skeleton (renderNode toLowerCase vars mode tree) = skeleton tree ∧
    SafeLeaves toLowerCase vars mode tree

variable {toLowerCase : Text → Text} {vars : Variables} {mode : EscapeMode} {tree : Json}
  {text tmpl : Text} {fields : List (Text × Json)} {items : List Json}

section Escaping

theorem replaceChar_append (char : Char) (by_ first second : Text) :
    replaceChar char by_ (first ++ second) =
      replaceChar char by_ first ++ replaceChar char by_ second := List.flatMap_append

theorem replaceChar_other {char other : Char} (by_ : Text) (differ : other ≠ char) :
    replaceChar char by_ [other] = [other] := by
  unfold replaceChar
  rw [List.flatMap_singleton, if_neg differ]

theorem escapeHtml_append (first second : Text) :
    escapeHtml (first ++ second) = escapeHtml first ++ escapeHtml second := by
  unfold escapeHtml
  simp only [replaceChar_append]

/-- A character by itself becomes one of the escapes or is no special one. -/
theorem escapeHtml_char (char : Char) :
    escapeHtml [char] ∈ entities ∨
      (escapeHtml [char] = [char] ∧ '&' ≠ char ∧ ∀ mark ∈ markup, mark ≠ char) := by
  by_cases special : char ∈ ['&', '<', '>', '"', '\'']
  · left
    simp only [List.mem_cons, List.not_mem_nil, or_false] at special
    rcases special with rfl | rfl | rfl | rfl | rfl <;> decide
  · right
    simp only [List.mem_cons, List.not_mem_nil, or_false, not_or] at special
    obtain ⟨amp, lt, gt, quot, apos⟩ := special
    refine ⟨?_, fun same => amp same.symm, ?_⟩
    · unfold escapeHtml
      rw [replaceChar_other _ amp, replaceChar_other _ lt, replaceChar_other _ gt,
        replaceChar_other _ quot, replaceChar_other _ apos]
    · intro mark listed same
      subst same
      simp only [markup, List.mem_cons, List.not_mem_nil, or_false] at listed
      rcases listed with same | same | same | same
      · exact lt same
      · exact gt same
      · exact quot same
      · exact apos same

theorem escapeHtml_flatten (text : Text) :
    escapeHtml text = (text.map fun char => escapeHtml [char]).flatten := by
  induction text with
  | nil => rfl
  | cons char rest inductionHypothesis =>
    rw [List.map_cons, List.flatten_cons, ← inductionHypothesis, ← escapeHtml_append]
    rfl

/-- No entity has a mark of markup in it. -/
theorem entities_unmarked : ∀ unit ∈ entities, ∀ mark ∈ markup, mark ∉ unit := by
  intro unit listed mark marks
  have checked : (entities.all fun unit => markup.all fun mark => !unit.contains mark) = true := rfl
  have apart := List.all_eq_true.mp (List.all_eq_true.mp checked unit listed) mark marks
  simpa using apart

/-- What is escaped for markup is safe there. -/
theorem escapeHtml_safe (text : Text) : HtmlSafe (escapeHtml text) where
  markup := by
    intro mark listed member
    rw [escapeHtml_flatten, List.mem_flatten] at member
    obtain ⟨unit, here, member⟩ := member
    obtain ⟨char, _, rfl⟩ := List.mem_map.mp here
    rcases escapeHtml_char char with entity | ⟨same, _, plain⟩
    · exact entities_unmarked _ entity mark listed member
    · rw [same, List.mem_singleton] at member
      exact plain mark listed member
  ampersands := by
    refine ⟨_, escapeHtml_flatten text, ?_⟩
    intro unit here
    obtain ⟨char, _, rfl⟩ := List.mem_map.mp here
    refine (escapeHtml_char char).imp_right ?_
    rintro ⟨same, other, _⟩ member
    rw [same, List.mem_singleton] at member
    exact other member

/-- Behind runs of line ends there are none. -/
theorem collapseLines_safe (inRun : Bool) (text : Text) : HeaderSafe (collapseLines inRun text) := by
  induction text generalizing inRun with
  | nil => exact ⟨List.not_mem_nil, List.not_mem_nil⟩
  | cons char rest inductionHypothesis =>
    unfold collapseLines
    split
    next lineEnd =>
      cases inRun with
      | true => exact inductionHypothesis true
      | false =>
        obtain ⟨cr, lf⟩ := inductionHypothesis true
        simp [HeaderSafe, cr, lf]
    next plain =>
      obtain ⟨cr, lf⟩ := inductionHypothesis false
      rw [not_or] at plain
      exact ⟨List.not_mem_cons_of_ne_of_not_mem (fun same => plain.1 same.symm) cr,
        List.not_mem_cons_of_ne_of_not_mem (fun same => plain.2 same.symm) lf⟩

/-- Trimming only takes away. -/
theorem mem_of_mem_trim {char : Char} (member : char ∈ text.trim) : char ∈ text := by
  unfold Text.trim at member
  rw [List.mem_reverse] at member
  have behind := (List.dropWhile_sublist _).mem member
  rw [List.mem_reverse] at behind
  exact (List.dropWhile_sublist _).mem behind

/-- What is escaped for a header has no line ends. -/
theorem escapeHeader_safe (text : Text) : HeaderSafe (escapeHeader text) := by
  obtain ⟨cr, lf⟩ := collapseLines_safe false text
  exact ⟨fun member => cr (mem_of_mem_trim member), fun member => lf (mem_of_mem_trim member)⟩

end Escaping

section Shape

theorem length_renderFields_le (fields : List (Text × Json)) :
    (renderFields toLowerCase vars mode fields).length ≤ fields.length := by
  induction fields with
  | nil => exact le_rfl
  | cons field rest inductionHypothesis =>
    rw [renderFields]
    split
    · exact Nat.le_succ_of_le inductionHypothesis
    · exact Nat.succ_le_succ inductionHypothesis

theorem length_skeletonFields (fields : List (Text × Json)) :
    (skeletonFields fields).length = fields.length := by
  induction fields with
  | nil => rfl
  | cons field rest inductionHypothesis => exact congrArg (· + 1) inductionHypothesis

mutual

/-- The shape is kept just where nothing is lost. -/
theorem skeleton_render_iff (mode : EscapeMode) : (tree : Json) →
    (skeleton (renderNode toLowerCase vars mode tree) = skeleton tree ↔ isPlain tree = true)
  | .null => iff_of_true rfl rfl
  | .bool _ => iff_of_true rfl rfl
  | .num _ => iff_of_true rfl rfl
  | .str _ => iff_of_true rfl rfl
  | .arr items => by
    rw [renderNode, skeleton, skeleton, Json.arr.injEq, isPlain]
    exact skeletonItems_render_iff mode items
  | .obj fields => by
    rw [renderNode, skeleton, skeleton, Json.obj.injEq, isPlain]
    exact skeletonFields_render_iff mode fields

theorem skeletonItems_render_iff (mode : EscapeMode) : (items : List Json) →
    (skeletonItems (renderItems toLowerCase vars mode items) = skeletonItems items ↔
      isPlainItems items = true)
  | [] => iff_of_true rfl rfl
  | item :: rest => by
    rw [renderItems, skeletonItems, skeletonItems, List.cons.injEq, isPlainItems,
      Bool.and_eq_true, skeleton_render_iff mode item, skeletonItems_render_iff mode rest]

theorem skeletonFields_render_iff (mode : EscapeMode) : (fields : List (Text × Json)) →
    (skeletonFields (renderFields toLowerCase vars mode fields) = skeletonFields fields ↔
      isPlainFields fields = true)
  | [] => iff_of_true rfl rfl
  | (key, value) :: rest => by
    rw [renderFields, isPlainFields]
    by_cases lost : key = prototypeKey
    · have shorter : (renderFields toLowerCase vars mode rest).length ≤ rest.length :=
        length_renderFields_le rest
      rw [if_pos lost]
      refine iff_of_false ?_ ?_
      · intro same
        have length := congrArg List.length same
        rw [length_skeletonFields, length_skeletonFields, List.length_cons] at length
        omega
      · simp [lost]
    · rw [if_neg lost, skeletonFields, skeletonFields, List.cons.injEq, Prod.mk.injEq,
        skeleton_render_iff _ value, skeletonFields_render_iff mode rest]
      simp [lost]

end

end Shape

/-- The mode with which rendering comes to the end of a path. -/
def modeAt (toLowerCase : Text → Text) : List Step → EscapeMode → EscapeMode
  | [], mode => mode
  | .key key :: rest, mode => modeAt toLowerCase rest (escapeModeFor toLowerCase key mode)
  | .index _ :: rest, mode => modeAt toLowerCase rest mode

/-- A field gives its own mode, or hands down the one above it. -/
theorem escapeModeFor_eq (key : Text) (mode : EscapeMode) :
    escapeModeFor toLowerCase key mode = (fieldMode toLowerCase (.key key)).getD mode := by
  unfold escapeModeFor fieldMode
  dsimp only
  by_cases html : (toLowerCase key).filter (fun char => char ≠ '-' ∧ char ≠ '_') ∈ htmlFields
  · rw [if_pos html, if_pos html]
    rfl
  · rw [if_neg html, if_neg html]
    by_cases header :
        (toLowerCase key).filter (fun char => char ≠ '-' ∧ char ≠ '_') ∈ headerFields
    · rw [if_pos header, if_pos header]
      rfl
    · rw [if_neg header, if_neg header]
      rfl

/-- It is the mode of the nearest field that has one. -/
theorem modeAt_eq (path : List Step) (mode : EscapeMode) :
    modeAt toLowerCase path mode = (nearestField toLowerCase path).getD mode := by
  unfold nearestField
  induction path generalizing mode with
  | nil => rfl
  | cons step rest inductionHypothesis =>
    have behind : ∀ own : Option EscapeMode, fieldMode toLowerCase step = own →
        modeAt toLowerCase (step :: rest) mode = modeAt toLowerCase rest (own.getD mode) →
        modeAt toLowerCase (step :: rest) mode =
          ((step :: rest).filterMap (fieldMode toLowerCase)).getLast?.getD mode := by
      intro own named goes
      rw [goes, inductionHypothesis]
      cases own with
      | none => rw [List.filterMap_cons_none named]; rfl
      | some one =>
        rw [List.filterMap_cons_some named, List.getLast?_cons]
        cases (rest.filterMap (fieldMode toLowerCase)).getLast? with
        | none => rfl
        | some last => rfl
    cases step with
    | index index => exact behind none rfl rfl
    | key key =>
      apply behind _ rfl
      rw [modeAt, escapeModeFor_eq]

/-- A property of a plain object comes out at its key. -/
theorem find_renderFields {key : Text} (plain : isPlainFields fields = true) :
    (renderFields toLowerCase vars mode fields).find? (fun field => field.1 = key) =
      (fields.find? fun field => field.1 = key).map fun field =>
        (field.1, renderNode toLowerCase vars (escapeModeFor toLowerCase field.1 mode) field.2) := by
  induction fields with
  | nil => rfl
  | cons field rest inductionHypothesis =>
    rw [isPlainFields, Bool.and_eq_true, Bool.and_eq_true, decide_eq_true_iff] at plain
    rw [renderFields, if_neg plain.1]
    by_cases here : field.1 = key
    · rw [List.find?_cons_of_pos (by simpa using here), List.find?_cons_of_pos (by simpa using here)]
      rfl
    · rw [List.find?_cons_of_neg (by simpa using here), List.find?_cons_of_neg (by simpa using here),
        inductionHypothesis plain.2.2]

theorem renderItems_eq (items : List Json) :
    renderItems toLowerCase vars mode items = items.map (renderNode toLowerCase vars mode) := by
  induction items with
  | nil => rfl
  | cons item rest inductionHypothesis => exact congrArg _ inductionHypothesis

theorem isPlain_of_mem (plain : isPlainItems items = true) {item : Json} (listed : item ∈ items) :
    isPlain item = true := by
  induction items with
  | nil => cases listed
  | cons first rest inductionHypothesis =>
    rw [isPlainItems, Bool.and_eq_true] at plain
    rcases List.mem_cons.mp listed with rfl | listed
    · exact plain.1
    · exact inductionHypothesis plain.2 listed

theorem isPlain_of_mem_fields (plain : isPlainFields fields = true) {field : Text × Json}
    (listed : field ∈ fields) : isPlain field.2 = true := by
  induction fields with
  | nil => cases listed
  | cons first rest inductionHypothesis =>
    rw [isPlainFields, Bool.and_eq_true, Bool.and_eq_true] at plain
    rcases List.mem_cons.mp listed with rfl | listed
    · exact plain.2.1
    · exact inductionHypothesis plain.2.2 listed

/-- What stands at the end of a path of a plain tree comes out there, rendered with the mode the path
leads to. -/
theorem valueAt_render (plain : isPlain tree = true) (path : List Step) (mode : EscapeMode) :
    valueAt path (renderNode toLowerCase vars mode tree) =
      (valueAt path tree).map (renderNode toLowerCase vars (modeAt toLowerCase path mode)) := by
  induction path generalizing tree mode with
  | nil => rfl
  | cons step rest inductionHypothesis =>
    cases step with
    | key key =>
      cases tree with
      | obj fields =>
        rw [isPlain] at plain
        rw [renderNode, valueAt, valueAt, find_renderFields plain]
        cases found : fields.find? fun field => field.1 = key with
        | none => rfl
        | some field =>
          have same := List.find?_some found
          rw [decide_eq_true_iff] at same
          have inside := isPlain_of_mem_fields plain (List.mem_of_find?_eq_some found)
          rw [Option.map_some, Option.bind_some, Option.bind_some, inductionHypothesis inside, same]
          rfl
      | _ => rfl
    | index index =>
      cases tree with
      | arr items =>
        rw [isPlain] at plain
        rw [renderNode, valueAt, valueAt, renderItems_eq, List.getElem?_map]
        cases found : items[index]? with
        | none => rfl
        | some item =>
          have inside := isPlain_of_mem plain (List.mem_of_getElem? found)
          rw [Option.map_some, Option.bind_some, Option.bind_some, inductionHypothesis inside]
          rfl
      | _ => rfl

/-- The text of a leaf is what a second search leaves. -/
theorem joined_substituted (vars : Variables) (mode : EscapeMode) (tmpl : Text) :
    joined (substituted vars mode tmpl) = interpolateLeaf tmpl vars mode := by
  unfold joined substituted interpolateLeaf replace
  rw [List.flatMap_map]
  congr 1
  funext part
  cases part with
  | inl char => rfl
  | inr key => rfl

/-- What is put in is escaped for the mode. -/
theorem escaped_safe (value : Variable) :
    HtmlSafe (value.escaped .html) ∧ HeaderSafe (value.escaped .header) := by
  have nothing : HtmlSafe ([] : Text) := escapeHtml_safe []
  cases value with
  | undefined => exact ⟨nothing, List.not_mem_nil, List.not_mem_nil⟩
  | null => exact ⟨nothing, List.not_mem_nil, List.not_mem_nil⟩
  | text value => exact ⟨escapeHtml_safe value, escapeHeader_safe value⟩
  | other json => exact ⟨escapeHtml_safe json, escapeHeader_safe json⟩

/-- A text that is put in stands for a variable. -/
theorem substituted_escaped (put : .inr text ∈ substituted vars mode tmpl) :
    ∃ value : Variable, text = value.escaped mode := by
  obtain ⟨part, _, same⟩ := List.mem_map.mp put
  cases part with
  | inl char => cases same
  | inr key => exact ⟨vars key, (Sum.inr.inj same).symm⟩

/-- The leaves of a plain tree are safe. -/
theorem safeLeaves (plain : isPlain tree = true) : SafeLeaves toLowerCase vars mode tree := by
  intro path tmpl found parts
  constructor
  · rw [valueAt_render plain, found, joined_substituted, modeAt_eq]
    rfl
  · intro text put
    obtain ⟨value, rfl⟩ := substituted_escaped put
    constructor
    · intro html
      rw [html]
      exact (escaped_safe value).1
    · intro header
      rw [header]
      exact (escaped_safe value).2

/-- Rendering keeps the shape and puts in what is safe just where no object has a property named
`__proto__`. -/
theorem safe_rendering_iff (toLowerCase : Text → Text) (vars : Variables) (mode : EscapeMode)
    (tree : Json) : SafeRendering toLowerCase vars mode tree ↔ isPlain tree = true := by
  constructor
  · exact fun safe => (skeleton_render_iff mode tree).mp safe.1
  · exact fun plain => ⟨(skeleton_render_iff mode tree).mpr plain, safeLeaves plain⟩

/-- A block of a template with a property named `__proto__` loses it. -/
theorem prototype_lost :
    renderNode Text.toLowerCase nested .text (.obj [(prototypeKey, .str "x".toList)]) = .obj [] ∧
      ¬SafeRendering Text.toLowerCase nested .text (.obj [(prototypeKey, .str "x".toList)]) := by
  refine ⟨by decide, ?_⟩
  rintro ⟨same, _⟩
  exact absurd same (by decide)

end Notifkit.Templates
