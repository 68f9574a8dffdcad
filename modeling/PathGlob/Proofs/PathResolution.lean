import PathGlob.Path.Normal

/-! # Resolving the segments of a path

What one more segment can do to the stack of a path, and what all stacks have in common: no segment
that says nothing, and `..` only at the bottom of a path that may leave its root. Such a stack
comes out unchanged when its segments are resolved again.
-/

namespace PathGlob.Path

variable {aboveRoot : Bool} {stack : List (List Char)} {segment : List Char}

/-- A stack of resolved segments, the last segment first. -/
def IsResolved (aboveRoot : Bool) : List (List Char) → Prop
  | [] => True
  | top :: below =>
    top ≠ [] ∧ top ≠ dot ∧ (top = dotDot → aboveRoot = true ∧ ∀ segment ∈ below, segment = dotDot) ∧
      IsResolved aboveRoot below

/-- A segment is skipped, takes the last name away, stays as a `..` or is dropped as one, or goes on
top as a name. -/
theorem descend_cases (aboveRoot : Bool) (stack : List (List Char)) (segment : List Char) :
    ((segment = [] ∨ segment = dot) ∧ descend aboveRoot stack segment = stack) ∨
    (segment = dotDot ∧ ∃ last others, stack = last :: others ∧ last ≠ dotDot ∧
      descend aboveRoot stack segment = others) ∨
    (segment = dotDot ∧ (∀ last, stack.head? = some last → last = dotDot) ∧
      descend aboveRoot stack segment = if aboveRoot then dotDot :: stack else stack) ∨
    (segment ≠ [] ∧ segment ≠ dot ∧ segment ≠ dotDot ∧
      descend aboveRoot stack segment = segment :: stack) := by
  unfold descend
  by_cases skipped : segment = [] ∨ segment = dot
  · exact .inl ⟨skipped, if_pos skipped⟩
  · rw [if_neg skipped]
    obtain ⟨nonempty, notDot⟩ := not_or.mp skipped
    by_cases parent : segment = dotDot
    · rw [if_pos parent]
      cases stack with
      | nil => exact .inr (.inr (.inl ⟨parent, by simp, rfl⟩))
      | cons last others =>
        by_cases named : last = dotDot
        · refine .inr (.inr (.inl ⟨parent, by simp [named], ?_⟩))
          simp [named]
        · exact .inr (.inl ⟨parent, last, others, rfl, named, if_pos named⟩)
    · exact .inr (.inr (.inr ⟨nonempty, notDot, parent, if_neg parent⟩))

theorem descend_of_skipped (skipped : segment = [] ∨ segment = dot) :
    descend aboveRoot stack segment = stack :=
  if_pos skipped

theorem descend_of_name (nonempty : segment ≠ []) (notDot : segment ≠ dot)
    (notParent : segment ≠ dotDot) : descend aboveRoot stack segment = segment :: stack := by
  unfold descend
  rw [if_neg (not_or.mpr ⟨nonempty, notDot⟩), if_neg notParent]

theorem descend_dotDot_of_name {last : List Char} (named : last ≠ dotDot) :
    descend aboveRoot (last :: stack) dotDot = stack :=
  if_pos named

private theorem descend_dotDot_of_parents (parents : ∀ segment ∈ stack, segment = dotDot) :
    descend true stack dotDot = dotDot :: stack := by
  cases stack with
  | nil => rfl
  | cons last others =>
    obtain rfl := parents last List.mem_cons_self
    rfl

/-- One more segment leaves a resolved stack. -/
theorem IsResolved.descend (resolved : IsResolved aboveRoot stack) (segment : List Char) :
    IsResolved aboveRoot (descend aboveRoot stack segment) := by
  rcases descend_cases aboveRoot stack segment with
    ⟨_, same⟩ | ⟨_, last, others, rfl, _, same⟩ | ⟨_, parents, same⟩ | ⟨nonempty, notDot, named, same⟩
  · rwa [same]
  · rw [same]
    exact resolved.2.2.2
  · rw [same]
    cases aboveRoot with
    | false => exact resolved
    | true =>
      refine ⟨by decide, by decide, fun _ => ⟨rfl, ?_⟩, resolved⟩
      cases stack with
      | nil => simp
      | cons last others =>
        obtain rfl := parents last rfl
        exact List.forall_mem_cons.mpr ⟨rfl, (resolved.2.2.1 rfl).2⟩
  · rw [same]
    exact ⟨nonempty, notDot, fun parent => (named parent).elim, resolved⟩

theorem IsResolved.foldl (resolved : IsResolved aboveRoot stack) (segments : List (List Char)) :
    IsResolved aboveRoot (segments.foldl (Path.descend aboveRoot) stack) := by
  induction segments generalizing stack with
  | nil => exact resolved
  | cons segment segments ih => exact ih (resolved.descend segment)

theorem IsResolved.of_append {above : List (List Char)}
    (resolved : IsResolved aboveRoot (above ++ stack)) :
    IsResolved aboveRoot stack := by
  induction above with
  | nil => exact resolved
  | cons top above ih => exact ih resolved.2.2.2

/-- Names can go on top of any resolved stack. -/
theorem IsResolved.append_of_names {above : List (List Char)} (resolved : IsResolved aboveRoot stack)
    (names : ∀ segment ∈ above, segment ≠ [] ∧ segment ≠ dot ∧ segment ≠ dotDot) :
    IsResolved aboveRoot (above ++ stack) := by
  induction above with
  | nil => exact resolved
  | cons top above ih =>
    obtain ⟨⟨nonempty, notDot, named⟩, others⟩ := List.forall_mem_cons.mp names
    exact ⟨nonempty, notDot, fun parent => (named parent).elim, ih others⟩

/-- Above a name there are only names. -/
theorem IsResolved.names_of_append {above : List (List Char)}
    (resolved : IsResolved aboveRoot (above ++ segment :: stack)) (named : segment ≠ dotDot) :
    ∀ other ∈ above, other ≠ [] ∧ other ≠ dot ∧ other ≠ dotDot := by
  induction above with
  | nil => simp
  | cons top above ih =>
    obtain ⟨nonempty, notDot, parents, others⟩ := resolved
    refine List.forall_mem_cons.mpr ⟨⟨nonempty, notDot, fun parent => ?_⟩, ih others⟩
    exact named ((parents parent).2 segment (by simp))

/-- Resolved segments are names behind `..` segments, of which there are none where nothing is above
the root. -/
theorem IsResolved.exists_parents {segments : List (List Char)}
    (resolved : IsResolved aboveRoot segments.reverse) :
    ∃ count names, segments = List.replicate count dotDot ++ names ∧
      (∀ name ∈ names, name ≠ [] ∧ name ≠ dot ∧ name ≠ dotDot) ∧ (aboveRoot = false → count = 0) := by
  suffices onStack : ∀ stack, IsResolved aboveRoot stack →
      ∃ names count, stack = names ++ List.replicate count dotDot ∧
        (∀ name ∈ names, name ≠ [] ∧ name ≠ dot ∧ name ≠ dotDot) ∧ (aboveRoot = false → count = 0) by
    obtain ⟨names, count, same, each, atRoot⟩ := onStack _ resolved
    refine ⟨count, names.reverse, ?_, by simpa using each, atRoot⟩
    rw [← List.reverse_reverse segments, same, List.reverse_append, List.reverse_replicate]
  intro stack settled
  induction stack with
  | nil => exact ⟨[], 0, rfl, by simp, fun _ => rfl⟩
  | cons top below ih =>
    obtain ⟨nonempty, notDot, parents, settledBelow⟩ := settled
    by_cases parent : top = dotDot
    · subst parent
      obtain ⟨rfl, allParents⟩ := parents rfl
      refine ⟨[], below.length + 1, ?_, by simp, by simp⟩
      rw [List.nil_append, List.replicate_succ, ← List.eq_replicate_of_mem allParents]
    · obtain ⟨names, count, rfl, each, atRoot⟩ := ih settledBelow
      refine ⟨top :: names, count, rfl, ?_, atRoot⟩
      exact List.forall_mem_cons.mpr ⟨⟨nonempty, notDot, parent⟩, each⟩

/-- On a stack that it keeps resolved, a segment is put on top. -/
theorem IsResolved.descend_eq_cons (resolved : IsResolved aboveRoot (segment :: stack)) :
    Path.descend aboveRoot stack segment = segment :: stack := by
  obtain ⟨nonempty, notDot, parents, _⟩ := resolved
  by_cases parent : segment = dotDot
  · subst parent
    obtain ⟨rfl, below⟩ := parents rfl
    exact descend_dotDot_of_parents below
  · exact descend_of_name nonempty notDot parent

/-- Segments that keep a stack resolved are put on top one by one. -/
theorem IsResolved.foldl_eq_reverse_append {segments : List (List Char)}
    (resolved : IsResolved aboveRoot (segments.reverse ++ stack)) :
    segments.foldl (Path.descend aboveRoot) stack = segments.reverse ++ stack := by
  induction segments generalizing stack with
  | nil => rfl
  | cons segment segments ih =>
    rw [List.reverse_cons, List.append_assoc, List.singleton_append] at resolved
    rw [List.foldl_cons, resolved.of_append.descend_eq_cons, ih resolved, List.reverse_cons,
      List.append_assoc, List.singleton_append]

/-- What is resolved is a stack of resolved segments. -/
theorem isResolved_resolve (aboveRoot : Bool) (segments : List (List Char)) :
    IsResolved aboveRoot (resolve aboveRoot segments).reverse := by
  have empty : IsResolved aboveRoot [] := trivial
  rw [resolve, List.reverse_reverse]
  exact empty.foldl segments

/-- Resolved segments are not changed. -/
theorem resolve_of_isResolved {segments : List (List Char)}
    (resolved : IsResolved aboveRoot segments.reverse) : resolve aboveRoot segments = segments := by
  rw [← List.append_nil segments.reverse] at resolved
  have kept := resolved.foldl_eq_reverse_append
  rw [resolve, kept, List.append_nil, List.reverse_reverse]

/-- Segments that would be skipped can be left out. -/
theorem resolve_filter {keep : List Char → Bool}
    (skipped : ∀ segment, keep segment = false → segment = [] ∨ segment = dot) (aboveRoot : Bool)
    (segments : List (List Char)) :
    resolve aboveRoot (segments.filter keep) = resolve aboveRoot segments := by
  have skips : ∀ stack : List (List Char), (segments.filter keep).foldl (descend aboveRoot) stack =
      segments.foldl (descend aboveRoot) stack := by
    induction segments with
    | nil => exact fun _ => rfl
    | cons segment segments ih =>
      intro stack
      cases kept : keep segment with
      | false =>
        rw [List.filter_cons_of_neg (by simp [kept]), List.foldl_cons,
          descend_of_skipped (skipped segment kept)]
        exact ih stack
      | true => rw [List.filter_cons_of_pos kept, List.foldl_cons, List.foldl_cons, ih]
  rw [resolve, resolve, skips]

/-- Empty segments say nothing. -/
theorem resolve_filter_ne_nil (aboveRoot : Bool) (segments : List (List Char)) :
    resolve aboveRoot (segments.filter (· ≠ [])) = resolve aboveRoot segments :=
  resolve_filter (fun _ empty => .inl (by simpa using empty)) aboveRoot segments

theorem resolve_append_nil (aboveRoot : Bool) (segments : List (List Char)) :
    resolve aboveRoot (segments ++ [[]]) = resolve aboveRoot segments := by
  rw [← resolve_filter_ne_nil, List.filter_append, ← resolve_filter_ne_nil aboveRoot segments]
  simp

/-- Of segments that are all names or empty, the names are left. -/
theorem resolve_of_names {segments : List (List Char)}
    (plain : ∀ segment ∈ segments, segment ≠ dot ∧ segment ≠ dotDot) :
    resolve aboveRoot segments = segments.filter (· ≠ []) := by
  have empty : IsResolved aboveRoot [] := trivial
  have names : IsResolved aboveRoot ((segments.filter (· ≠ [])).reverse ++ []) := by
    refine empty.append_of_names fun segment isName => ?_
    obtain ⟨isSegment, nonempty⟩ := List.mem_filter.mp (List.mem_reverse.mp isName)
    exact ⟨by simpa using nonempty, plain segment isSegment⟩
  rw [List.append_nil] at names
  rw [← resolve_filter_ne_nil, resolve_of_isResolved names]

private theorem mem_of_mem_descend {other : List Char}
    (isLeft : other ∈ descend aboveRoot stack segment) :
    other ∈ stack ∨ other = segment := by
  rcases descend_cases aboveRoot stack segment with
    ⟨_, same⟩ | ⟨_, last, others, rfl, _, same⟩ | ⟨rfl, _, same⟩ | ⟨_, _, _, same⟩
  · exact .inl (same ▸ isLeft)
  · rw [same] at isLeft
    exact .inl (List.mem_cons_of_mem _ isLeft)
  · rw [same] at isLeft
    cases aboveRoot with
    | false => exact .inl isLeft
    | true => exact (List.mem_cons.mp isLeft).symm
  · rw [same] at isLeft
    exact (List.mem_cons.mp isLeft).symm

/-- Resolving makes up no segment. -/
theorem mem_of_mem_resolve {segments : List (List Char)}
    (isLeft : segment ∈ resolve aboveRoot segments) : segment ∈ segments := by
  have within : ∀ stack : List (List Char), segment ∈ segments.foldl (descend aboveRoot) stack →
      segment ∈ stack ∨ segment ∈ segments := by
    clear isLeft
    induction segments with
    | nil => exact fun _ isLeft => .inl isLeft
    | cons first segments ih =>
      intro stack isLeft
      rcases ih _ isLeft with onStack | later
      · rcases mem_of_mem_descend onStack with before | rfl
        · exact .inl before
        · exact .inr List.mem_cons_self
      · exact .inr (List.mem_cons_of_mem _ later)
  rw [resolve, List.mem_reverse] at isLeft
  exact (within [] isLeft).resolve_left (List.not_mem_nil)

theorem IsResolved.ne_nil (resolved : IsResolved aboveRoot stack) (onStack : segment ∈ stack) :
    segment ≠ [] := by
  induction stack with
  | nil => cases onStack
  | cons top below ih =>
    rcases List.mem_cons.mp onStack with rfl | onStack
    · exact resolved.1
    · exact ih resolved.2.2.2 onStack

theorem ne_nil_of_mem_resolve {segments : List (List Char)}
    (isLeft : segment ∈ resolve aboveRoot segments) : segment ≠ [] :=
  (isResolved_resolve aboveRoot segments).ne_nil (List.mem_reverse.mpr isLeft)

end PathGlob.Path
