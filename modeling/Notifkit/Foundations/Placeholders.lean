import Notifkit.Foundations.Text

/-!
# Placeholders in a text

A placeholder is a word between as many opening and closing braces. A search reads a text from the
left, takes the first placeholder it comes to and goes on behind it.

No placeholder begins inside another of no more braces: where one can be read, it is read, wherever
the search began. So the placeholders of a text are those of its ends, each by itself.
-/

namespace Notifkit.Placeholders

/-- `\w` -/
def isWord (char : Char) : Bool := char.isAlphanum || char = '_'

/-- Some braces, a word, and as many braces. -/
def written (n : Nat) (key : Text) : Text :=
  List.replicate n '{' ++ (key ++ List.replicate n '}')

/-- The word of the placeholder at the front of a text. -/
def placeholder (n : Nat) (text : Text) : Option Text :=
  let key := (text.drop n).takeWhile isWord
  if key ≠ [] ∧ written n key <+: text then some key else none

/-- What a search finds: characters, and words of placeholders. The first number counts the
characters that belong to a placeholder that was found. -/
def pieces (n : Nat) : Nat → Text → List (Char ⊕ Text)
  | _, [] => []
  | skip + 1, _ :: rest => pieces n skip rest
  | 0, char :: rest =>
    match placeholder n (char :: rest) with
    | some key => .inr key :: pieces n ((written n key).length - 1) rest
    | none => .inl char :: pieces n 0 rest

/-- `text.replace(/…/g, replacement)` -/
def replace (n : Nat) (replacement : Text → Text) (text : Text) : Text :=
  (pieces n 0 text).flatMap (Sum.elim (fun char => [char]) replacement)

/-- The words of the placeholders that a search finds. -/
def keys (n : Nat) (text : Text) : List Text := (pieces n 0 text).filterMap Sum.getRight?

/-- The words that can be read at each place of a text. -/
def occurrences (n : Nat) : Text → List Text
  | [] => []
  | char :: rest => (placeholder n (char :: rest)).toList ++ occurrences n rest

variable {n m : Nat} {key text rest : Text} {char : Char}

theorem length_written : (written n key).length = n + (key.length + n) := by
  unfold written
  rw [List.length_append, List.length_append, List.length_replicate, List.length_replicate]

/-- A placeholder is read where it is written. -/
theorem placeholder_eq_some (braces : 0 < n) : placeholder n text = some key ↔
    key ≠ [] ∧ (∀ char ∈ key, isWord char = true) ∧ ∃ rest, text = written n key ++ rest := by
  constructor
  · intro found
    have both := Option.ite_none_right_eq_some.mp found
    obtain ⟨⟨letters, rest, split⟩, same⟩ := both
    obtain rfl := Option.some.inj same
    exact ⟨letters, fun char listed => List.mem_takeWhile_imp listed, rest, split.symm⟩
  · rintro ⟨letters, words, rest, rfl⟩
    have word : ((written n key ++ rest).drop n).takeWhile isWord = key := by
      unfold written
      rw [List.append_assoc, List.drop_left' List.length_replicate, List.append_assoc,
        List.takeWhile_append_of_pos words]
      cases n with
      | zero => cases braces
      | succ n =>
        rw [List.replicate_succ, List.cons_append, List.takeWhile_cons_of_neg (by decide),
          List.append_nil]
    unfold placeholder
    rw [word]
    exact if_pos ⟨letters, List.prefix_append _ _⟩

/-- The opening braces. -/
theorem getElem?_open {place : Nat} (inside : place < n) :
    (written n key ++ rest)[place]? = some '{' := by
  unfold written
  rw [List.append_assoc, List.getElem?_append_left (by simpa using inside),
    List.getElem?_replicate_of_lt inside]

/-- Behind its opening braces a placeholder has none. -/
theorem getElem?_inside (words : ∀ char ∈ key, isWord char = true) {place : Nat}
    (behind : n ≤ place) (inside : place < (written n key).length) :
    ∃ char, (written n key ++ rest)[place]? = some char ∧ char ≠ '{' := by
  have found : (written n key ++ rest)[place]? =
      (key ++ List.replicate n '}')[place - n]? := by
    rw [List.getElem?_append_left inside]
    unfold written
    rw [List.getElem?_append_right (by simpa using behind), List.length_replicate]
  have bound : place - n < (key ++ List.replicate n '}').length := by
    rw [length_written] at inside
    rw [List.length_append, List.length_replicate]
    omega
  refine ⟨_, found.trans (List.getElem?_eq_getElem bound), ?_⟩
  intro brace
  rcases List.mem_append.mp (List.getElem_mem bound) with letter | closing
  · have word := words _ letter
    rw [brace] at word
    cases word
  · have same := List.eq_of_mem_replicate closing
    rw [brace] at same
    cases same

/-- Behind its first character no placeholder begins inside another of no more braces. -/
theorem placeholder_inside (braces : 0 < n) (wide : n ≤ m) (found : placeholder n text = some key)
    {place : Nat} (behind : 0 < place) (inside : place < (written n key).length) :
    placeholder m (text.drop place) = none := by
  rw [Option.eq_none_iff_forall_not_mem]
  intro other found'
  obtain ⟨_, words, rest, rfl⟩ := (placeholder_eq_some braces).mp found
  obtain ⟨_, _, rest', split⟩ := (placeholder_eq_some (Nat.lt_of_lt_of_le braces wide)).mp found'
  -- The first place at or behind this one that is behind the opening braces.
  have reached : max n place < (written n key).length := by
    rw [length_written] at *
    omega
  obtain ⟨char, at_, other⟩ : ∃ char, (written n key ++ rest)[max n place]? = some char ∧
      char ≠ '{' := getElem?_inside words (le_max_left n place) reached
  have opening : (written n key ++ rest)[max n place]? = some '{' := by
    have shifted : max n place = place + (max n place - place) := by omega
    rw [shifted, ← List.getElem?_drop, split]
    exact getElem?_open (by omega)
  rw [opening] at at_
  exact other (Option.some.inj at_).symm

theorem written_ne_nil (braces : 0 < n) : written n key ≠ [] := by
  intro empty
  have length := congrArg List.length empty
  rw [length_written, List.length_nil] at length
  omega

/-- How far behind its first character a placeholder ends. -/
theorem length_written_eq (braces : 0 < n) (key : Text) :
    ∃ count, (written n key).length = count + 1 := by
  obtain ⟨count, size⟩ :=
    Nat.exists_eq_add_of_lt (List.length_pos_iff.mpr (written_ne_nil (n := n) braces))
  exact ⟨count, size.trans (congrArg (· + 1) (Nat.zero_add count))⟩

/-- What is counted belongs to a placeholder that was found. -/
theorem pieces_skip (skip : Nat) (text : Text) :
    pieces n skip text = pieces n 0 (text.drop skip) := by
  induction text generalizing skip with
  | nil =>
    rw [List.drop_nil]
    cases skip with
    | zero => rfl
    | succ skip => rfl
  | cons char rest inductionHypothesis =>
    cases skip with
    | zero => rfl
    | succ skip => exact inductionHypothesis skip

theorem pieces_cons : pieces n 0 (char :: rest) =
    match placeholder n (char :: rest) with
    | some key => .inr key :: pieces n ((written n key).length - 1) rest
    | none => .inl char :: pieces n 0 rest := rfl

/-- A search finds the placeholder it comes to. -/
theorem pieces_found (braces : 0 < n) (found : placeholder n text = some key) :
    pieces n 0 text = .inr key :: pieces n 0 (text.drop (written n key).length) := by
  cases text with
  | nil =>
    obtain ⟨_, _, rest, split⟩ := (placeholder_eq_some braces).mp found
    exact absurd (List.append_eq_nil_iff.mp split.symm).1 (written_ne_nil braces)
  | cons char rest =>
    obtain ⟨count, size⟩ := length_written_eq braces key
    rw [pieces_cons, found]
    change .inr key :: pieces n ((written n key).length - 1) rest = _
    rw [pieces_skip, size, Nat.add_sub_cancel, List.drop_succ_cons]

/-- Where no placeholder can be read, a search goes on with the next character. -/
theorem pieces_char (missing : placeholder n (char :: rest) = none) :
    pieces n 0 (char :: rest) = .inl char :: pieces n 0 rest := by
  rw [pieces_cons, missing]

/-- Places where no placeholder can be read are passed over character by character. -/
theorem pieces_quiet {count : Nat} (room : count ≤ text.length)
    (quiet : ∀ place < count, placeholder n (text.drop place) = none) :
    pieces n 0 text = (text.take count).map .inl ++ pieces n 0 (text.drop count) := by
  induction count generalizing text with
  | zero => rfl
  | succ count inductionHypothesis =>
    cases text with
    | nil => cases room
    | cons char rest =>
      have first := quiet 0 (Nat.succ_pos count)
      rw [List.drop_zero] at first
      rw [pieces_char first, inductionHypothesis (Nat.le_of_succ_le_succ room) fun place below =>
        quiet (place + 1) (Nat.succ_lt_succ below)]
      rfl

/-- Behind a placeholder there is less text. -/
theorem length_behind (braces : 0 < n) (found : placeholder n text = some key) :
    (text.drop (written n key).length).length < text.length := by
  obtain ⟨count, size⟩ := length_written_eq braces key
  obtain ⟨_, _, rest, split⟩ := (placeholder_eq_some braces).mp found
  have longer := congrArg List.length split
  rw [List.length_append] at longer
  rw [List.length_drop]
  omega

/-- What is shown of a text behind its first placeholder, or behind its first character where it
has none there, is shown of every text. -/
theorem induction_of_reading {P : Text → Prop} (braces : 0 < n) (nil : P [])
    (hole : ∀ text key, placeholder n text = some key →
      P (text.drop (written n key).length) → P text)
    (step : ∀ char rest, placeholder n (char :: rest) = none → P rest → P (char :: rest)) :
    ∀ text, P text := by
  intro text
  induction size : text.length using Nat.strong_induction_on generalizing text with
  | _ bound inductionHypothesis =>
    subst size
    cases found : placeholder n text with
    | some key =>
      exact hole text key found (inductionHypothesis _ (length_behind braces found) _ rfl)
    | none =>
      cases text with
      | nil => exact nil
      | cons char rest =>
        exact step char rest found (inductionHypothesis rest.length (Nat.lt_succ_self _) rest rfl)

/-- Places where no placeholder can be read add none. -/
theorem occurrences_quiet {count : Nat}
    (quiet : ∀ place < count, placeholder n (text.drop place) = none) :
    occurrences n text = occurrences n (text.drop count) := by
  induction count generalizing text with
  | zero => rfl
  | succ count inductionHypothesis =>
    cases text with
    | nil => rfl
    | cons char rest =>
      have first := quiet 0 (Nat.succ_pos count)
      rw [List.drop_zero] at first
      rw [List.drop_succ_cons, ← inductionHypothesis fun place below =>
        quiet (place + 1) (Nat.succ_lt_succ below)]
      conv_lhs => unfold occurrences
      rw [first]
      rfl

/-- Behind the placeholder at the front, the next that can be read begins behind its end. -/
theorem occurrences_found (braces : 0 < n) (found : placeholder n text = some key) :
    occurrences n text = key :: occurrences n (text.drop (written n key).length) := by
  cases text with
  | nil =>
    obtain ⟨_, _, rest, split⟩ := (placeholder_eq_some braces).mp found
    exact absurd (List.append_eq_nil_iff.mp split.symm).1 (written_ne_nil braces)
  | cons char rest =>
    obtain ⟨count, same⟩ := length_written_eq braces key
    have quiet : ∀ place < count, placeholder n (rest.drop place) = none := by
      intro place below
      exact placeholder_inside braces le_rfl found (Nat.succ_pos place) (by omega)
    conv_lhs => unfold occurrences
    rw [found, same, List.drop_succ_cons, ← occurrences_quiet quiet]
    rfl

/-- A search finds the placeholders that can be read. -/
theorem keys_eq (braces : 0 < n) (text : Text) : keys n text = occurrences n text := by
  induction text using induction_of_reading (n := n) braces with
  | nil => rfl
  | hole text key found inductionHypothesis =>
    unfold keys
    rw [pieces_found braces found, occurrences_found braces found, List.filterMap_cons,
      ← inductionHypothesis]
    rfl
  | step char rest missing inductionHypothesis =>
    unfold keys occurrences
    rw [pieces_char missing, missing, List.filterMap_cons, ← inductionHypothesis]
    rfl

end Notifkit.Placeholders
