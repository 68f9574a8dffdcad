import PathGlob.Proofs.KeptParents
import PathGlob.Proofs.StackHeights

/-! # Dots between the segments of a glob

A `.` says nothing about where a path leads, and normalizing drops it. Shielding still looks at it:
where it stands between a `**` and a `..`, the `..` does not come right after the `**`, is not
shielded, and takes the `**` away.
-/

namespace PathGlob.Glob

open PathGlob.Path (dot dotDot)

variable {aboveRoot : Bool} {front back segments : List (List Char)} {name next : List Char}
  {glob other : List Char}

/-- Two names of a glob, with others in front and behind, are a `**` and a `..` that is not shielded
any more if a `.` comes between them, and this shows: something is above the root, or no part of the
glob that goes on from the two leaves nothing but the root when it is resolved. -/
def ExposesParent (absolute : Bool) (front : List (List Char)) (name next : List Char)
    (back : List (List Char)) : Prop :=
  name = doubleStar ∧ next = dotDot ∧
    (absolute = true → ∀ middle, middle <+: next :: back →
      Path.resolve false (shieldSegments [] (front ++ name :: middle)) ≠ [])

section Shielding

/-- The last segment with something in it, of some segments behind another one. -/
def lastNamed (previous : List Char) (segments : List (List Char)) : List Char :=
  segments.foldl (fun previous segment => if segment = [] then previous else segment) previous

theorem shieldSegments_append (previous : List Char) (front back : List (List Char)) :
    shieldSegments previous (front ++ back) =
      shieldSegments previous front ++ shieldSegments (lastNamed previous front) back := by
  induction front generalizing previous with
  | nil => rfl
  | cons segment front ih =>
    rw [List.cons_append, shieldSegments, shieldSegments, ih, List.cons_append]
    rfl

private theorem take_shieldSegments (previous : List Char) (segments : List (List Char)) (count : ℕ) :
    (shieldSegments previous segments).take count = shieldSegments previous (segments.take count) := by
  induction segments generalizing previous count with
  | nil =>
    rw [List.take_nil]
    exact List.take_nil
  | cons segment segments ih =>
    cases count with
    | zero => rfl
    | succ count => rw [shieldSegments, List.take_succ_cons, ih, List.take_succ_cons, shieldSegments]

private theorem shieldSegments_dot_cons (previous : List Char) (segments : List (List Char)) :
    shieldSegments previous (dot :: segments) = dot :: shieldSegments dot segments := by
  have notParent : dot ≠ dotDot := by decide
  rw [shieldSegments_cons previous (by decide), if_neg fun both => notParent both.1]

private theorem shieldSegments_doubleStar_cons (previous : List Char) (segments : List (List Char)) :
    shieldSegments previous (doubleStar :: segments) =
      doubleStar :: shieldSegments doubleStar segments := by
  have notParent : doubleStar ≠ dotDot := by decide
  rw [shieldSegments_cons previous (by decide), if_neg fun both => notParent both.1]

end Shielding

section Resolving

private theorem resolve_append_dot_cons (aboveRoot : Bool) (front back : List (List Char)) :
    Path.resolve aboveRoot (front ++ dot :: back) = Path.resolve aboveRoot (front ++ back) := by
  rw [Path.resolve, Path.resolve, List.foldl_append, List.foldl_append, List.foldl_cons,
    Path.descend_of_skipped (.inr rfl)]

/-- Anywhere but between a `**` and a `..`, a `.` does not change what is left. -/
theorem resolve_insert_dot (named : name ≠ []) (nextNamed : next ≠ [])
    (kept : ¬(name = doubleStar ∧ next = dotDot)) :
    Path.resolve aboveRoot (shieldSegments [] (front ++ name :: dot :: next :: back)) =
      Path.resolve aboveRoot (shieldSegments [] (front ++ name :: next :: back)) := by
  have afterDot : shieldSegments dot (next :: back) = next :: shieldSegments next back := by
    have notStar : dot ≠ doubleStar := by decide
    rw [shieldSegments_cons dot nextNamed, if_neg fun both => notStar both.2]
  have afterName : shieldSegments name (next :: back) = next :: shieldSegments next back := by
    rw [shieldSegments_cons name nextNamed, if_neg fun both => kept both.symm]
  rw [shieldSegments_append, shieldSegments_append, shieldSegments_cons _ named,
    shieldSegments_cons _ named, shieldSegments_dot_cons, afterDot, afterName, List.append_cons,
    resolve_append_dot_cons, ← List.append_cons]

/-- A `**` goes on top of the stack. -/
theorem foldl_descend_doubleStar (aboveRoot : Bool) (front back : List (List Char)) :
    (shieldSegments [] (front ++ doubleStar :: back)).foldl (Path.descend aboveRoot) [] =
      (shieldSegments doubleStar back).foldl (Path.descend aboveRoot)
        (doubleStar :: (shieldSegments [] front).foldl (Path.descend aboveRoot) []) := by
  rw [shieldSegments_append, List.foldl_append, shieldSegments_doubleStar_cons]
  rfl

/-- Right after it, a `..` goes on top as well. -/
private theorem foldl_descend_shielded (aboveRoot : Bool) (front back : List (List Char)) :
    (shieldSegments [] (front ++ doubleStar :: dotDot :: back)).foldl (Path.descend aboveRoot) [] =
      (shieldSegments dotDot back).foldl (Path.descend aboveRoot)
        (shieldedParent :: doubleStar ::
          (shieldSegments [] front).foldl (Path.descend aboveRoot) []) := by
  rw [foldl_descend_doubleStar]
  rfl

/-- Behind a `.`, it takes the `**` away. -/
private theorem foldl_descend_exposed (aboveRoot : Bool) (front back : List (List Char)) :
    (shieldSegments [] (front ++ doubleStar :: dot :: dotDot :: back)).foldl
        (Path.descend aboveRoot) [] =
      (shieldSegments dotDot back).foldl (Path.descend aboveRoot)
        ((shieldSegments [] front).foldl (Path.descend aboveRoot) []) := by
  rw [foldl_descend_doubleStar, shieldSegments_dot_cons]
  rfl

/-- What the `..` leaves behind a `.` is what it leaves right after `**` only if nothing is above the
root and all of it is taken away again. -/
theorem resolve_exposed_iff (aboveRoot : Bool) (front back : List (List Char)) :
    Path.resolve aboveRoot (shieldSegments [] (front ++ doubleStar :: dot :: dotDot :: back)) =
        Path.resolve aboveRoot (shieldSegments [] (front ++ doubleStar :: dotDot :: back)) ↔
      aboveRoot = false ∧ ∃ middle, middle <+: dotDot :: back ∧
        Path.resolve false (shieldSegments [] (front ++ doubleStar :: middle)) = [] := by
  have empty : Path.IsResolved aboveRoot [] := trivial
  have settled := empty.foldl (shieldSegments [] front)
  have settledHigh : Path.IsResolved aboveRoot
      (shieldedParent :: doubleStar ::
        (shieldSegments [] front).foldl (Path.descend aboveRoot) []) :=
    ⟨by decide, by decide, fun parent => absurd parent (by decide),
      by decide, by decide, fun parent => absurd parent (by decide), settled⟩
  rw [Path.resolve, Path.resolve, List.reverse_inj, foldl_descend_exposed, foldl_descend_shielded]
  cases aboveRoot with
  | true =>
    refine iff_of_false (Path.foldl_descend_ne_of_height_ne ?_ _) (by simp)
    rw [Path.height_cons_of_name (by decide), Path.height_cons_of_name (by decide)]
    omega
  | false =>
    have lower : ((shieldSegments [] front).foldl (Path.descend false) []).length <
        (shieldedParent :: doubleStar ::
          (shieldSegments [] front).foldl (Path.descend false) []).length :=
      Nat.lt_add_right 1 (Nat.lt_succ_self _)
    rw [and_iff_right rfl, Path.foldl_descend_eq_iff_emptied settled settledHigh lower]
    simp only [take_shieldSegments, ← foldl_descend_shielded]
    constructor
    · rintro ⟨count, emptied⟩
      refine ⟨dotDot :: back.take count, List.cons_prefix_cons.mpr ⟨rfl, List.take_prefix count back⟩, ?_⟩
      rw [Path.resolve, emptied, List.reverse_nil]
    · rintro ⟨middle, within, emptied⟩
      rw [Path.resolve, List.reverse_eq_nil_iff] at emptied
      rcases List.prefix_cons_iff.mp within with rfl | ⟨rest, rfl, inBack⟩
      · rw [foldl_descend_doubleStar] at emptied
        exact absurd emptied (List.cons_ne_nil _ _)
      · refine ⟨rest.length, ?_⟩
        rwa [← List.prefix_iff_eq_take.mp inBack]

end Resolving

section Normal

/-- What is left of the shielded names of a glob is left of those of its normal form. -/
theorem resolve_shieldSegments_normalForm (unmarked : shieldMark ∉ glob) :
    let aboveRoot := !glob.head?.any Platform.posix.isSeparator
    Path.resolve aboveRoot (shieldSegments [] (Path.names .posix (normalForm .posix true glob))) =
      Path.resolve aboveRoot (shieldSegments [] (Path.names .posix glob)) := by
  dsimp only
  rw [(names_normalForm_posix glob).1]
  have shielded := isShielded_resolve_shieldSegments unmarked
  have settled := Path.isResolved_resolve (!glob.head?.any Platform.posix.isSeparator)
    (shieldSegments [] (Path.names .posix glob))
  specialize shielded (!glob.head?.any Platform.posix.isSeparator)
  generalize Path.resolve (!glob.head?.any Platform.posix.isSeparator)
    (shieldSegments [] (Path.names .posix glob)) = left at shielded settled
  split_ifs with nothing
  · rw [List.map_eq_nil_iff.mp nothing.1]
    rfl
  · have again : shieldSegments [] (left.map unshield) = left := shieldSegments_map_unshield shielded
    rw [again, Path.resolve_of_isResolved settled]

/-- Globs with the same separators at the ends have the same normal form exactly if the same is left of
their shielded names. -/
theorem normalForm_eq_iff_resolve_eq (unmarked : shieldMark ∉ glob) (unmarkedOther : shieldMark ∉ other)
    (sameStart : other.head?.any Platform.posix.isSeparator = glob.head?.any Platform.posix.isSeparator)
    (sameEnd : other.getLast?.any Platform.posix.isSeparator =
      glob.getLast?.any Platform.posix.isSeparator) :
    normalForm .posix true other = normalForm .posix true glob ↔
      Path.resolve (!glob.head?.any Platform.posix.isSeparator)
          (shieldSegments [] (Path.names .posix other)) =
        Path.resolve (!glob.head?.any Platform.posix.isSeparator)
          (shieldSegments [] (Path.names .posix glob)) := by
  constructor
  · intro same
    have left := resolve_shieldSegments_normalForm unmarkedOther
    rw [sameStart] at left
    rw [← left, same]
    exact resolve_shieldSegments_normalForm unmarked
  · intro same
    rw [normalForm_eq_posixText, normalForm_eq_posixText, sameStart, sameEnd, same]

/-- A `.` more holds no mark. -/
theorem shieldMark_not_mem_of_names (unmarked : shieldMark ∉ glob)
    (names : ∀ segment ∈ Path.names .posix other, segment = dot ∨ segment ∈ Path.names .posix glob) :
    shieldMark ∉ other := by
  intro marked
  have isKept : shieldMark ∈ (Path.names .posix other).flatten := by
    rw [Path.flatten_names]
    exact List.mem_filter.mpr ⟨marked, rfl⟩
  obtain ⟨segment, isName, inName⟩ := List.mem_flatten.mp isKept
  rcases names segment isName with rfl | isName
  · exact absurd inName (by decide)
  · exact shieldMark_not_mem_names unmarked segment isName inName

end Normal

/-- A `.` between two names of a POSIX glob is neutral unless globstars are on and it exposes a `..` to
the `**` before it. -/
theorem normalize_insert_dot_iff {globstar : Bool} {glob other : String}
    (unmarked : shieldMark ∉ glob.toList)
    (cut : Path.names .posix glob.toList = front ++ name :: next :: back)
    (inserted : Path.names .posix other.toList = front ++ name :: dot :: next :: back)
    (sameStart : other.toList.head?.any Platform.posix.isSeparator =
      glob.toList.head?.any Platform.posix.isSeparator)
    (sameEnd : other.toList.getLast?.any Platform.posix.isSeparator =
      glob.toList.getLast?.any Platform.posix.isSeparator) :
    ∃ result changed, normalize .posix globstar glob = .ok result ∧
      normalize .posix globstar other = .ok changed ∧
      (changed = result ↔ ¬(globstar = true ∧
        ExposesParent (glob.toList.head?.any Platform.posix.isSeparator) front name next back)) := by
  have unmarkedOther : shieldMark ∉ other.toList := by
    refine shieldMark_not_mem_of_names unmarked fun segment isName => ?_
    rw [inserted] at isName
    rw [cut]
    simp only [List.mem_append, List.mem_cons] at isName ⊢
    tauto
  refine ⟨_, _, normalize_eq_ok_iff.mpr ⟨unmarked, rfl⟩, normalize_eq_ok_iff.mpr ⟨unmarkedOther, rfl⟩, ?_⟩
  rw [String.ofList_inj]
  cases globstar with
  | false =>
    refine iff_of_true ?_ (by simp)
    rw [normalForm, normalForm, if_neg Bool.false_ne_true, if_neg Bool.false_ne_true,
      Path.normalForm_posix_eq, Path.normalForm_posix_eq, sameStart, sameEnd, inserted, cut,
      List.append_cons, resolve_append_dot_cons, ← List.append_cons]
  | true =>
    rw [normalForm_eq_iff_resolve_eq unmarked unmarkedOther sameStart sameEnd, inserted, cut]
    by_cases exposed : name = doubleStar ∧ next = dotDot
    · obtain ⟨rfl, rfl⟩ := exposed
      rw [resolve_exposed_iff]
      simp [ExposesParent]
    · have named : name ≠ [] := Path.ne_nil_of_mem_names (by rw [cut]; simp)
      have nextNamed : next ≠ [] := Path.ne_nil_of_mem_names (by rw [cut]; simp)
      refine iff_of_true (resolve_insert_dot named nextNamed exposed) ?_
      exact fun both => exposed ⟨both.2.1, both.2.2.1⟩

/-- The `**` is lost here as well, but nothing would be left of it anyway. -/
theorem normalize_insert_dot_takenAway :
    Path.names .posix "/**//../../..".toList = [] ++ doubleStar :: dotDot :: [dotDot, dotDot] ∧
      Path.names .posix "/**/.//../../..".toList =
        [] ++ doubleStar :: dot :: dotDot :: [dotDot, dotDot] ∧
      normalize .posix true "/**//../../.." = .ok "/" ∧
      normalize .posix true "/**/.//../../.." = .ok "/" ∧
      ¬ExposesParent true [] doubleStar dotDot [dotDot, dotDot] := by
  have cut : Path.names .posix "/**//../../..".toList =
      [] ++ doubleStar :: dotDot :: [dotDot, dotDot] := by decide
  have inserted : Path.names .posix "/**/.//../../..".toList =
      [] ++ doubleStar :: dot :: dotDot :: [dotDot, dotDot] := by decide
  have normal : normalize .posix true "/**//../../.." = .ok "/" := by decide
  have normalOther : normalize .posix true "/**/.//../../.." = .ok "/" := by decide
  obtain ⟨result, changed, found, foundOther, same⟩ :=
    normalize_insert_dot_iff (by decide) cut inserted (by decide) (by decide)
  obtain rfl : "/" = result := Except.ok.inj (normal.symm.trans found)
  obtain rfl : "/" = changed := Except.ok.inj (normalOther.symm.trans foundOther)
  exact ⟨cut, inserted, normal, normalOther, fun exposes => same.mp rfl ⟨rfl, exposes⟩⟩

/-- The `.` keeps the `..` from coming right after `**`, and the `**` is lost. -/
theorem normalize_insert_dot_exposed :
    normalize .posix true "**/.." = .ok "**/.." ∧ normalize .posix true "**/./.." = .ok "." := by
  decide

end PathGlob.Glob
