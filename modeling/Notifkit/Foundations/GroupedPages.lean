import Mathlib.Data.List.Nodup

/-!
# Groups listed page by page

The rows of a list belong to groups, and a group is listed where its first row stands. A page takes
so many groups that were not listed before and ends at the first row of the next one. It looks at
some rows only: a group that begins behind them is not found.

With the rows numbered, it can be told from the first rows of the groups alone whether the pages
find every group.
-/

namespace Notifkit.GroupedPages

universe u v
variable {ρ : Type u} {τ : Type v} [DecidableEq τ] (group : ρ → τ)

/-- The first rows of groups that were not seen before. -/
def newcomers : List τ → List ρ → List ρ
  | _, [] => []
  | seen, row :: rest =>
    if group row ∈ seen then newcomers seen rest else row :: newcomers (group row :: seen) rest

/-- A page: the groups it lists, behind those it has, and the row it ends at. -/
def fill (limit : Nat) (seen : List τ) : List τ → List ρ → List τ × Option ρ
  | order, [] => (order, none)
  | order, row :: rest =>
    if group row ∈ seen ∨ group row ∈ order then fill limit seen order rest
    else if order.length = limit then (order, some row)
    else fill limit seen (order ++ [group row]) rest

/-- Where these rows stand, counted from a number on. -/
def starts (seen : List τ) (place : Nat) (rows : List ρ) : List Nat :=
  (newcomers (fun entry : ρ × Nat => group entry.1) seen (rows.zipIdx place)).map Prod.snd

/-- The pages of a listing, each with the groups it lists. A page looks at so many rows, and the
next one goes on at the row it ends at. -/
inductive Pages (limit window : Nat) : List τ → List ρ → List (List τ) → Prop
  | last {seen : List τ} {rows : List ρ} {order : List τ}
      (page : fill group limit seen [] (rows.take window) = (order, none)) :
      Pages limit window seen rows [order]
  | next {seen : List τ} {before rest : List ρ} {row : ρ} {order : List τ} {pages : List (List τ)}
      (page : fill group limit seen [] ((before ++ row :: rest).take window) = (order, some row))
      (apart : group row ∉ before.map group)
      (more : Pages limit window (seen ++ before.map group) (row :: rest) pages) :
      Pages limit window seen (before ++ row :: rest) (order :: pages)

variable {group} {seen seen' order : List τ} {rows rest : List ρ} {row : ρ} {limit : Nat}

theorem newcomers_known (known : group row ∈ seen) :
    newcomers group seen (row :: rest) = newcomers group seen rest := if_pos known

theorem newcomers_fresh (fresh : group row ∉ seen) :
    newcomers group seen (row :: rest) = row :: newcomers group (group row :: seen) rest :=
  if_neg fresh

theorem fill_known (known : group row ∈ seen ∨ group row ∈ order) :
    fill group limit seen order (row :: rest) = fill group limit seen order rest := if_pos known

theorem fill_fresh (fresh : ¬(group row ∈ seen ∨ group row ∈ order)) :
    fill group limit seen order (row :: rest) =
      if order.length = limit then (order, some row)
      else fill group limit seen (order ++ [group row]) rest := if_neg fresh

/-- Only which groups were seen counts. -/
theorem newcomers_congr (same : ∀ one, one ∈ seen ↔ one ∈ seen') :
    newcomers group seen rows = newcomers group seen' rows := by
  induction rows generalizing seen seen' with
  | nil => rfl
  | cons row rest inductionHypothesis =>
    by_cases known : group row ∈ seen
    · rw [newcomers_known known, newcomers_known ((same _).mp known)]
      exact inductionHypothesis same
    · rw [newcomers_fresh known, newcomers_fresh fun other => known ((same _).mpr other)]
      congr 1
      refine inductionHypothesis fun one => ?_
      rw [List.mem_cons, List.mem_cons, same]

/-- Behind some rows those are first that are of none of their groups. -/
theorem newcomers_append (seen : List τ) (rows more : List ρ) :
    newcomers group seen (rows ++ more) =
      newcomers group seen rows ++ newcomers group (seen ++ rows.map group) more := by
  induction rows generalizing seen with
  | nil => rw [List.map_nil, List.append_nil]; rfl
  | cons row rest inductionHypothesis =>
    rw [List.cons_append, List.map_cons]
    by_cases known : group row ∈ seen
    · rw [newcomers_known known, newcomers_known known, inductionHypothesis]
      congr 1
      refine newcomers_congr fun one => ?_
      rw [List.mem_append, List.mem_append, List.mem_cons]
      constructor
      · rintro (old | new)
        · exact .inl old
        · exact .inr (.inr new)
      · rintro (old | rfl | new)
        · exact .inl old
        · exact .inl known
        · exact .inr new
    · rw [newcomers_fresh known, newcomers_fresh known, inductionHypothesis, List.cons_append]
      congr 2
      refine newcomers_congr fun one => ?_
      rw [List.mem_append, List.mem_cons, List.mem_append, List.mem_cons]
      exact or_left_comm

theorem newcomers_sublist (seen : List τ) (rows : List ρ) :
    (newcomers group seen rows).Sublist rows := by
  induction rows generalizing seen with
  | nil => exact List.Sublist.slnil
  | cons row rest inductionHypothesis =>
    unfold newcomers
    split
    · exact (inductionHypothesis seen).cons row
    · exact (inductionHypothesis _).cons_cons row

/-- The groups that are found are those of the rows that were not seen before. -/
theorem mem_newcomers_groups {one : τ} :
    one ∈ (newcomers group seen rows).map group ↔ one ∈ rows.map group ∧ one ∉ seen := by
  induction rows generalizing seen with
  | nil => simp [newcomers]
  | cons row rest inductionHypothesis =>
    by_cases known : group row ∈ seen
    · rw [newcomers_known known, inductionHypothesis, List.map_cons, List.mem_cons]
      constructor
      · exact fun both => ⟨.inr both.1, both.2⟩
      · rintro ⟨rfl | later, fresh⟩
        · exact absurd known fresh
        · exact ⟨later, fresh⟩
    · rw [newcomers_fresh known, List.map_cons, List.mem_cons, inductionHypothesis, List.map_cons,
        List.mem_cons, List.mem_cons]
      constructor
      · rintro (rfl | ⟨later, fresh⟩)
        · exact ⟨.inl rfl, known⟩
        · exact ⟨.inr later, fun old => fresh (.inr old)⟩
      · rintro ⟨same, fresh⟩
        by_cases own : one = group row
        · exact .inl own
        · exact .inr ⟨same.resolve_left own, fun either => either.elim own fresh⟩

/-- Each group is found once. -/
theorem newcomers_distinct (seen : List τ) (rows : List ρ) :
    ((newcomers group seen rows).map group).Nodup := by
  induction rows generalizing seen with
  | nil => exact List.nodup_nil
  | cons row rest inductionHypothesis =>
    unfold newcomers
    split
    · exact inductionHypothesis seen
    · rw [List.map_cons, List.nodup_cons]
      refine ⟨fun again => ?_, inductionHypothesis _⟩
      exact (mem_newcomers_groups.mp again).2 List.mem_cons_self

/-- A group is found at the first of its rows. -/
theorem newcomers_first {first : ρ} (found : first ∈ newcomers group seen rows) :
    ∃ before rest, rows = before ++ first :: rest ∧ ∀ row ∈ before, group row ≠ group first := by
  induction rows generalizing seen with
  | nil => cases found
  | cons row rest inductionHypothesis =>
    have later : ∀ {known : List τ}, group row ∈ known → first ∈ newcomers group known rest →
        ∃ before behind, row :: rest = before ++ first :: behind ∧
          ∀ row ∈ before, group row ≠ group first := by
      intro known own found
      have fresh := (mem_newcomers_groups.mp (List.mem_map_of_mem found)).2
      obtain ⟨before, behind, split, others⟩ := inductionHypothesis found
      refine ⟨row :: before, behind, by rw [split, List.cons_append], ?_⟩
      intro other member same
      rcases List.mem_cons.mp member with rfl | inside
      · rw [same] at own
        exact fresh own
      · exact others other inside same
    by_cases known : group row ∈ seen
    · rw [newcomers_known known] at found
      exact later known found
    · rw [newcomers_fresh known] at found
      rcases List.mem_cons.mp found with rfl | found
      · exact ⟨[], rest, rfl, List.forall_mem_nil _⟩
      · exact later List.mem_cons_self found

theorem newcomers_map {σ : Type*} {label : σ → ρ} {sources : List σ} :
    (newcomers (fun source => group (label source)) seen sources).map label =
      newcomers group seen (sources.map label) := by
  induction sources generalizing seen with
  | nil => rfl
  | cons source rest inductionHypothesis =>
    rw [List.map_cons, newcomers, newcomers]
    by_cases known : group (label source) ∈ seen
    · rw [if_pos known, if_pos known, inductionHypothesis]
    · rw [if_neg known, if_neg known, List.map_cons, inductionHypothesis]

/-- What is found somewhere divides the rows. -/
theorem newcomers_split {index : Nat} (found : (newcomers group seen rows)[index]? = some row) :
    ∃ before rest, rows = before ++ row :: rest ∧ group row ∉ seen ∧
      group row ∉ before.map group ∧ (newcomers group seen before).length = index := by
  have member := List.mem_of_getElem? found
  have fresh := (mem_newcomers_groups.mp (List.mem_map_of_mem member)).2
  obtain ⟨before, rest, split, others⟩ := newcomers_first member
  have apart : group row ∉ before.map group := by
    intro listed
    obtain ⟨other, inside, same⟩ := List.mem_map.mp listed
    exact others other inside same
  refine ⟨before, rest, split, fresh, apart, ?_⟩
  have both : group row ∉ seen ++ before.map group := by
    rw [List.mem_append]
    exact fun either => either.elim fresh apart
  have here : (newcomers group seen rows)[(newcomers group seen before).length]? = some row := by
    rw [split, newcomers_append, newcomers_fresh both]
    rw [List.getElem?_append_right (Nat.le_refl _), Nat.sub_self]
    rfl
  have inside : index < (newcomers group seen rows).length := by
    by_contra outside
    rw [List.getElem?_eq_none (by omega)] at found
    cases found
  have distinct : (newcomers group seen rows).Nodup :=
    List.Nodup.of_map group (newcomers_distinct seen rows)
  exact ((List.getElem?_inj inside distinct).mp (found.trans here.symm)).symm

theorem starts_append (seen : List τ) (place : Nat) (rows more : List ρ) :
    starts group seen place (rows ++ more) =
      starts group seen place rows ++
        starts group (seen ++ rows.map group) (place + rows.length) more := by
  have groups : (rows.zipIdx place).map (fun entry => group entry.1) = rows.map group := by
    have same := congrArg (List.map group) (List.zipIdx_map_fst place rows)
    rwa [List.map_map] at same
  rw [starts, starts, starts, List.zipIdx_append, newcomers_append, List.map_append, groups]

theorem starts_fresh {place : Nat} (fresh : group row ∉ seen) :
    starts group seen place (row :: rest) =
      place :: starts group (group row :: seen) (place + 1) rest := by
  rw [starts, List.zipIdx_cons, newcomers_fresh (by exact fresh)]
  rfl

theorem length_starts {place : Nat} :
    (starts group seen place rows).length = (newcomers group seen rows).length := by
  have same : (newcomers (fun entry : ρ × Nat => group entry.1) seen (rows.zipIdx place)).map
      Prod.fst = newcomers group seen rows := by
    rw [newcomers_map, List.zipIdx_map_fst]
  rw [starts, ← same, List.length_map, List.length_map]

/-- No group begins where all were seen. -/
theorem starts_known {place : Nat} (known : ∀ row ∈ rows, group row ∈ seen) :
    starts group seen place rows = [] := by
  rw [← List.length_eq_zero_iff, length_starts, List.length_eq_zero_iff,
    ← List.map_eq_nil_iff (f := group), List.eq_nil_iff_forall_not_mem]
  intro one member
  obtain ⟨inside, fresh⟩ := mem_newcomers_groups.mp member
  obtain ⟨row, listed, rfl⟩ := List.mem_map.mp inside
  exact fresh (known row listed)

/-- Rows of groups of their own stand one behind the other. -/
theorem starts_distinct {place : Nat} (fresh : ∀ row ∈ rows, group row ∉ seen)
    (distinct : (rows.map group).Nodup) :
    starts group seen place rows = List.range' place rows.length := by
  induction rows generalizing seen place with
  | nil => rfl
  | cons row rest inductionHypothesis =>
    obtain ⟨apart, distinct⟩ := List.nodup_cons.mp distinct
    rw [starts_fresh (fresh row List.mem_cons_self), List.length_cons, List.range'_succ]
    congr 1
    apply inductionHypothesis _ distinct
    intro other later listed
    rcases List.mem_cons.mp listed with same | old
    · exact apart (same ▸ List.mem_map_of_mem later)
    · exact fresh other (List.mem_cons_of_mem _ later) old

/-- The rows stand one behind the other. -/
theorem mem_starts {place start : Nat} (found : start ∈ starts group seen place rows) :
    place ≤ start ∧ start < place + rows.length := by
  obtain ⟨entry, member, rfl⟩ := List.mem_map.mp found
  have inside := (newcomers_sublist _ _).subset member
  exact ⟨List.le_snd_of_mem_zipIdx inside, List.snd_lt_add_of_mem_zipIdx inside⟩

/-- A page lists the first of the groups that were not seen, and ends at the first row of the group
behind them. -/
theorem fill_eq (room : order.length ≤ limit) :
    fill group limit seen order rows =
      (order ++ ((newcomers group (seen ++ order) rows).take (limit - order.length)).map group,
        (newcomers group (seen ++ order) rows)[limit - order.length]?) := by
  induction rows generalizing order with
  | nil => simp [fill, newcomers]
  | cons row rest inductionHypothesis =>
    by_cases known : group row ∈ seen ∨ group row ∈ order
    · rw [fill_known known, newcomers_known (List.mem_append.mpr known), inductionHypothesis room]
    · rw [fill_fresh known, newcomers_fresh fun listed => known (List.mem_append.mp listed)]
      by_cases full : order.length = limit
      · rw [if_pos full, full, Nat.sub_self, List.take_zero, List.map_nil, List.append_nil]
        rfl
      · have longer : (order ++ [group row]).length = order.length + 1 := by
          rw [List.length_append, List.length_singleton]
        have left : limit - order.length = (limit - (order ++ [group row]).length) + 1 := by
          omega
        have same : newcomers group (group row :: (seen ++ order)) rest =
            newcomers group (seen ++ (order ++ [group row])) rest := by
          refine newcomers_congr fun one => ?_
          rw [← List.append_assoc, List.mem_cons, List.mem_append (t := [group row]),
            List.mem_singleton]
          exact or_comm
        rw [if_neg full, inductionHypothesis (by omega), left, List.take_succ_cons, List.map_cons,
          List.getElem?_cons_succ, same, List.append_assoc, List.singleton_append]

/-- A page keeps to its limit. -/
theorem fill_room (room : order.length ≤ limit) :
    (fill group limit seen order rows).1.length ≤ limit := by
  rw [fill_eq room, List.length_append, List.length_map, List.length_take]
  omega

/-- A page lists nothing that was seen. -/
theorem fill_unseen (fresh : ∀ one ∈ order, one ∉ seen) (room : order.length ≤ limit) :
    ∀ one ∈ (fill group limit seen order rows).1, one ∉ seen := by
  rw [fill_eq room]
  intro one member known
  rcases List.mem_append.mp member with old | new
  · exact fresh one old known
  · obtain ⟨row, taken, rfl⟩ := List.mem_map.mp new
    have found := mem_newcomers_groups.mp (List.mem_map_of_mem (List.mem_of_mem_take taken))
    exact found.2 (List.mem_append_left _ known)

/-- A page found in parts: where the first rows do not end it the others go on. -/
theorem fill_append (limit : Nat) (seen order : List τ) (rows more : List ρ) :
    fill group limit seen order (rows ++ more) =
      if (fill group limit seen order rows).2.isSome = true then
        fill group limit seen order rows
      else fill group limit seen (fill group limit seen order rows).1 more := by
  induction rows generalizing order with
  | nil => rfl
  | cons row rest inductionHypothesis =>
    rw [List.cons_append]
    by_cases known : group row ∈ seen ∨ group row ∈ order
    · rw [fill_known known, fill_known known]
      exact inductionHypothesis order
    · rw [fill_fresh known, fill_fresh known]
      by_cases full : order.length = limit
      · rw [if_pos full, if_pos full]
        rfl
      · rw [if_neg full, if_neg full]
        exact inductionHypothesis _

section Pages

variable {window : Nat} {pages : List (List τ)}

/-- What a page lists: the first of what begins in its window. -/
theorem fill_window (limit : Nat) (seen : List τ) (rows : List ρ) :
    fill group limit seen [] rows =
      (((newcomers group seen rows).take limit).map group, (newcomers group seen rows)[limit]?) := by
  have filled : fill group limit seen [] rows = _ := fill_eq (Nat.zero_le limit)
  rwa [List.nil_append, List.append_nil, List.length_nil, Nat.sub_zero] at filled

/-- A group has one first row. -/
theorem before_unique {before before' more : List ρ} (apart : group row ∉ before.map group)
    (apart' : group row ∉ before'.map group)
    (same : before ++ row :: rest = before' ++ row :: more) : before = before' := by
  have front : ∀ rows behind : List ρ, group row ∉ rows.map group →
      (rows ++ row :: behind).takeWhile (fun other => group other ≠ group row) = rows := by
    intro rows behind apart
    rw [List.takeWhile_append_of_pos, List.takeWhile_cons_of_neg (by simp), List.append_nil]
    intro other inside
    apply decide_eq_true
    intro own
    exact apart (own ▸ List.mem_map_of_mem inside)
  rw [← front before rest apart, same, front before' more apart']

/-- Where a page ends the rows of all its groups, and no others, have begun. -/
theorem newcomers_next {before : List ρ} {order : List τ}
    (page : fill group limit seen [] ((before ++ row :: rest).take window) = (order, some row))
    (apart : group row ∉ before.map group) :
    (newcomers group seen before).length = limit ∧ group row ∉ seen ++ before.map group ∧
      before.length < window := by
  rw [fill_window, Prod.mk.injEq] at page
  obtain ⟨before', rest', split, fresh, apart', begun⟩ := newcomers_split page.2
  have whole := List.take_append_drop window (before ++ row :: rest)
  rw [split, List.append_assoc, List.cons_append] at whole
  have same : before' = before := before_unique apart' apart whole
  subst same
  refine ⟨begun, ?_, ?_⟩
  · rw [List.mem_append]
    exact fun either => either.elim fresh apart
  · have long := congrArg List.length split
    simp only [List.length_take, List.length_append, List.length_cons] at long
    omega

/-- A page that is followed by another lists all groups that begin before that one. -/
theorem fill_listed {before : List ρ} {order : List τ}
    (page : fill group limit seen [] ((before ++ row :: rest).take window) = (order, some row))
    (apart : group row ∉ before.map group) :
    order = (newcomers group seen before).map group := by
  obtain ⟨begun, _, near⟩ := newcomers_next page apart
  have start : (before ++ row :: rest).take window =
      before ++ (row :: rest).take (window - before.length) := by
    rw [List.take_append, List.take_of_length_le (Nat.le_of_lt near)]
  rw [fill_window, Prod.mk.injEq] at page
  rw [← page.1, start, newcomers_append, List.take_append, begun, Nat.sub_self, List.take_zero,
    List.append_nil, List.take_of_length_le (Nat.le_of_eq begun)]

/-- A listing comes to its end. -/
theorem Pages.exists_pages (positive : 0 < limit) (window : Nat) (seen : List τ) (rows : List ρ) :
    ∃ pages, Pages group limit window seen rows pages := by
  induction size : rows.length using Nat.strongRecOn generalizing seen rows with
  | ind size inductionHypothesis =>
    cases page : fill group limit seen [] (rows.take window) with
    | mk order ending =>
      cases ending with
      | none => exact ⟨[order], .last page⟩
      | some row =>
        have found := page
        rw [fill_window, Prod.mk.injEq] at found
        obtain ⟨before, rest, split, _, apart, begun⟩ := newcomers_split found.2
        have whole := List.take_append_drop window rows
        rw [split, List.append_assoc, List.cons_append] at whole
        have some' : 0 < before.length := by
          have fewer : (newcomers group seen before).length ≤ _ :=
            (newcomers_sublist seen before).length_le
          omega
        rw [← whole] at page size
        rw [List.length_append] at size
        obtain ⟨pages, more⟩ := inductionHypothesis _ (by omega) (seen ++ before.map group)
          (row :: (rest ++ rows.drop window)) rfl
        rw [← whole]
        exact ⟨order :: pages, .next page apart more⟩

/-- The pages list the groups in order, each once. -/
theorem Pages.prefix_newcomers (listing : Pages group limit window seen rows pages) :
    pages.flatten <+: (newcomers group seen rows).map group := by
  induction listing with
  | @last seen rows order page =>
    rw [fill_window, Prod.mk.injEq] at page
    have whole : newcomers group seen (rows.take window ++ rows.drop window) = _ :=
      newcomers_append seen (rows.take window) (rows.drop window)
    rw [List.take_append_drop] at whole
    rw [List.flatten_singleton, ← page.1, whole]
    exact ((List.take_prefix _ _).trans (List.prefix_append _ _)).map group
  | @next seen before rest row order pages page apart _ inductionHypothesis =>
    rw [List.flatten_cons, newcomers_append, List.map_append, fill_listed page apart]
    exact (List.prefix_append_right_inj _).mpr inductionHypothesis

/-- Each page's next group begins in the window of the page. -/
def InReach (limit window : Nat) (places : List Nat) : Prop :=
  ∀ index first next, places[limit * (index / limit)]? = some first →
    places[index + 1]? = some next → next < first + window

/-- A full page whose next group begins near it leaves the question to the pages behind it. -/
theorem inReach_append {front back : List Nat} (positive : 0 < limit)
    (full : front.length = limit)
    (near : ∀ first ∈ front ++ back, ∀ next, next ∈ front ∨ back[0]? = some next →
      next < first + window) :
    InReach limit window (front ++ back) ↔ InReach limit window back := by
  have behind : ∀ index, (front ++ back)[index + limit]? = back[index]? := by
    intro index
    rw [List.getElem?_append_right (by omega), full, Nat.add_sub_cancel]
  have shifted : ∀ index, limit * ((index + limit) / limit) = limit * (index / limit) + limit := by
    intro index
    rw [Nat.add_div_right index positive, Nat.mul_succ]
  constructor
  · intro all index first next here there
    apply all (index + limit) first next
    · rw [shifted, behind, here]
    · rw [Nat.add_right_comm, behind, there]
  · intro all index first next here there
    by_cases early : index < limit
    · apply near first (List.mem_of_getElem? here)
      by_cases last : index + 1 < limit
      · rw [List.getElem?_append_left (by omega)] at there
        exact .inl (List.mem_of_getElem? there)
      · have end' : index + 1 = 0 + limit := by omega
        rw [end', behind] at there
        exact .inr there
    · obtain ⟨rest, rfl⟩ := Nat.exists_eq_add_of_le' (Nat.le_of_not_lt early)
      rw [shifted, behind] at here
      rw [Nat.add_right_comm, behind] at there
      exact all rest first next here there

/-- A last page lists every group exactly when none begins behind its window. -/
theorem last_complete {place : Nat} {order : List τ} (wide : 0 < window)
    (page : fill group limit seen [] (rows.take window) = (order, none))
    (opens : ∀ row ∈ rows.head?, group row ∉ seen) :
    order = (newcomers group seen rows).map group ↔
      InReach limit window (starts group seen place rows) := by
  have whole : newcomers group seen (rows.take window ++ rows.drop window) = _ :=
    newcomers_append seen (rows.take window) (rows.drop window)
  have places : starts group seen place (rows.take window ++ rows.drop window) = _ :=
    starts_append seen place (rows.take window) (rows.drop window)
  rw [List.take_append_drop] at whole places
  rw [fill_window, Prod.mk.injEq, List.getElem?_eq_none_iff] at page
  obtain ⟨listed, short⟩ := page
  rw [List.take_of_length_le short] at listed
  have far : (rows.take window).length ≤ window := List.length_take_le _ _
  constructor
  · intro same index first next here there
    have none : starts group (seen ++ (rows.take window).map group)
        (place + (rows.take window).length) (rows.drop window) = [] := by
      rw [← listed, whole, List.map_append] at same
      rw [← List.length_eq_zero_iff, length_starts]
      simpa using same
    rw [none, List.append_nil] at places
    have low := (mem_starts (List.mem_of_getElem? here)).1
    rw [places] at there
    have high := (mem_starts (List.mem_of_getElem? there)).2
    omega
  · intro all
    rw [← listed, whole, List.map_append, List.self_eq_append_right, List.map_eq_nil_iff]
    by_contra more
    have begins : 0 < (starts group (seen ++ (rows.take window).map group)
        (place + (rows.take window).length) (rows.drop window)).length := by
      rw [length_starts]
      exact List.length_pos_iff.mpr more
    obtain ⟨next, there⟩ : ∃ next, (starts group (seen ++ (rows.take window).map group)
        (place + (rows.take window).length) (rows.drop window))[0]? = some next :=
      ⟨_, List.getElem?_eq_getElem begins⟩
    have outside := mem_starts (List.mem_of_getElem? there)
    rw [List.length_take, List.length_drop] at outside
    cases rows with
    | nil =>
      rw [List.length_nil] at outside
      omega
    | cons row rest =>
      have first : (starts group seen place ((row :: rest).take window))[0]? = some place := by
        obtain ⟨size, rfl⟩ := Nat.exists_eq_succ_of_ne_zero (Nat.ne_of_gt wide)
        rw [List.take_succ_cons, starts_fresh (opens row rfl)]
        rfl
      have some' := (List.getElem?_eq_some_iff.mp first).1
      have room : (starts group seen place ((row :: rest).take window)).length ≤ limit := by
        rw [length_starts]
        exact short
      have reached := all ((starts group seen place ((row :: rest).take window)).length - 1) place
        next
      rw [Nat.div_eq_of_lt (by omega), Nat.mul_zero, Nat.sub_add_cancel some', places,
        List.getElem?_append_left some', List.getElem?_append_right (Nat.le_refl _),
        Nat.sub_self] at reached
      have inside := reached first there
      omega

/-- The pages list every group exactly when each page's next group begins in its window. -/
theorem Pages.complete {place : Nat} (positive : 0 < limit) (wide : 0 < window)
    (listing : Pages group limit window seen rows pages)
    (opens : ∀ row ∈ rows.head?, group row ∉ seen) :
    pages.flatten = (newcomers group seen rows).map group ↔
      InReach limit window (starts group seen place rows) := by
  induction listing generalizing place with
  | @last seen rows order page =>
    rw [List.flatten_singleton]
    exact last_complete wide page opens
  | @next seen before rest row order pages page apart more inductionHypothesis =>
    obtain ⟨begun, fresh, near⟩ := newcomers_next page apart
    have listed := fill_listed page apart
    have split : starts group seen place (before ++ row :: rest) = _ :=
      starts_append seen place before (row :: rest)
    rw [List.flatten_cons, newcomers_append, List.map_append, listed, List.append_cancel_left_eq,
      split]
    have full : (starts group seen place before).length = limit := length_starts.trans begun
    rw [inReach_append positive full]
    · apply inductionHypothesis
      intro head is
      cases is
      exact fresh
    · intro first here next there
      rw [← split] at here
      have low := (mem_starts here).1
      rcases there with early | last
      · have high := (mem_starts early).2
        omega
      · rw [starts_fresh fresh] at last
        cases last
        omega

end Pages

end Notifkit.GroupedPages
