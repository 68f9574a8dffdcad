import PathGlob.Proofs.NormalPath

/-! # Where a path leads

A POSIX path can be walked segment by segment from any directory, where `..` stays at the root. This
never looks back at earlier segments, as resolving does when it takes a name away. Still a path and
its normal form lead to the same place: a name that goes with a `..` led down and up again.
-/

namespace PathGlob.Path

variable {aboveRoot : Bool} {segment path : List Char} {root : Root}
  {place stack rest here : List (List Char)}

def walkStep (place : List (List Char)) (segment : List Char) : List (List Char) :=
  if segment = [] ∨ segment = dot then place
  else if segment = dotDot then place.dropLast
  else place ++ [segment]

def walkAlong (place : List (List Char)) (segments : List (List Char)) : List (List Char) :=
  segments.foldl walkStep place

/-- Where a POSIX path leads from a directory. A separator in front leads to the root. -/
def walk (here : List (List Char)) (path : List Char) : List (List Char) :=
  walkAlong (if path.head?.any Platform.posix.isSeparator then [] else here) (segments .posix path)

/-- What a canonical path has between the separators at its ends: names if it is absolute; else any
number of `..` with names after them, or a `.` alone. -/
inductive IsCanonicalBody : Bool → List (List Char) → Prop
  | absolute {names : List (List Char)}
      (each : ∀ name ∈ names, name ≠ [] ∧ name ≠ dot ∧ name ≠ dotDot) : IsCanonicalBody true names
  | relative {count : ℕ} {names : List (List Char)}
      (each : ∀ name ∈ names, name ≠ [] ∧ name ≠ dot ∧ name ≠ dotDot)
      (something : List.replicate count dotDot ++ names ≠ []) :
      IsCanonicalBody false (List.replicate count dotDot ++ names)
  | nothing : IsCanonicalBody false [dot]

/-- A POSIX path has no empty segment apart from its ends, no `.` unless this is all there is of a
relative path, and `..` only in front of all names of a relative path. -/
def IsCanonical (path : List Char) : Prop :=
  let absolute := path.head?.any Platform.posix.isSeparator
  ∃ body, IsCanonicalBody absolute body ∧
    segments .posix path =
      ending absolute ++ body ++ ending (path.getLast?.any Platform.posix.isSeparator)

section Walk

private theorem walkStep_of_skipped (skipped : segment = [] ∨ segment = dot) :
    walkStep place segment = place :=
  if_pos skipped

private theorem walkStep_dotDot : walkStep place dotDot = place.dropLast := rfl

private theorem walkStep_of_name (nonempty : segment ≠ []) (notDot : segment ≠ dot)
    (named : segment ≠ dotDot) : walkStep place segment = place ++ [segment] := by
  unfold walkStep
  rw [if_neg (not_or.mpr ⟨nonempty, notDot⟩), if_neg named]

theorem walkAlong_append (front back : List (List Char)) :
    walkAlong place (front ++ back) = walkAlong (walkAlong place front) back :=
  List.foldl_append

private theorem walkAlong_ending (closed : Bool) : walkAlong place (ending closed) = place := by
  cases closed <;> rfl

/-- Whether a segment is put on a stack or not, the stack leads to where the segment leads. A `..` that
is dropped would stay at the root. -/
private theorem walkAlong_descend (settled : IsResolved aboveRoot stack)
    (atRoot : aboveRoot = false → place = []) :
    walkAlong place (descend aboveRoot stack segment).reverse =
      walkStep (walkAlong place stack.reverse) segment := by
  rcases descend_cases aboveRoot stack segment with
    ⟨skipped, same⟩ | ⟨rfl, last, below, rfl, named, same⟩ | ⟨rfl, parents, same⟩ | ⟨_, _, _, same⟩
  · rw [same, walkStep_of_skipped skipped]
  · obtain ⟨nonempty, notDot, _⟩ := settled
    rw [same, List.reverse_cons, walkAlong_append]
    change _ = walkStep (walkStep _ last) dotDot
    rw [walkStep_of_name nonempty notDot named, walkStep_dotDot, List.dropLast_concat]
  · rw [same]
    cases aboveRoot with
    | true =>
      rw [if_pos rfl, List.reverse_cons, walkAlong_append]
      rfl
    | false =>
      have empty : stack = [] := by
        cases stack with
        | nil => rfl
        | cons last below => exact absurd (settled.2.2.1 (parents last rfl)).1 Bool.false_ne_true
      rw [atRoot rfl, empty]
      rfl
  · rw [same, List.reverse_cons, walkAlong_append]
    rfl

private theorem walkAlong_foldl_descend (settled : IsResolved aboveRoot stack)
    (atRoot : aboveRoot = false → place = []) (segments : List (List Char)) :
    walkAlong place (segments.foldl (descend aboveRoot) stack).reverse =
      walkAlong (walkAlong place stack.reverse) segments := by
  induction segments generalizing stack with
  | nil => rfl
  | cons segment segments ih =>
    rw [List.foldl_cons, ih (settled.descend segment), walkAlong_descend settled atRoot]
    rfl

/-- Segments lead where they are resolved to. -/
theorem walkAlong_resolve (atRoot : aboveRoot = false → place = []) (segments : List (List Char)) :
    walkAlong place (resolve aboveRoot segments) = walkAlong place segments := by
  have empty : IsResolved aboveRoot [] := trivial
  exact walkAlong_foldl_descend empty atRoot segments

private theorem walkAlong_body (root : Root) (resolved : List (List Char)) (closed : Bool) :
    walkAlong place (root.body resolved closed) = walkAlong place resolved := by
  unfold Root.body
  split
  · next bare =>
    rw [bare.1]
    rfl
  · rw [walkAlong_append, walkAlong_ending]
    split
    · next nothing =>
      rw [nothing]
      rfl
    · rfl

end Walk

section Reading

/-- A POSIX path is read from the root if it starts with a separator, else from the directory that it
is walked from. -/
theorem posix_cases (path : List Char) :
    (path.head?.any Platform.posix.isSeparator = true ∧ ∃ rest,
      segments .posix path = [] :: rest ∧ Root.ofSegments .posix (segments .posix path) = (.top, rest)) ∨
    (path.head?.any Platform.posix.isSeparator = false ∧
      Root.ofSegments .posix (segments .posix path) = (.here, segments .posix path)) := by
  cases starts : path.head?.any Platform.posix.isSeparator with
  | true =>
    obtain ⟨next, others, cut⟩ := head?_any_isSeparator_iff.mp starts
    rw [cut]
    exact .inl ⟨rfl, next :: others, rfl, rfl⟩
  | false =>
    refine .inr ⟨rfl, ?_⟩
    rw [Root.ofSegments]
    unfold Root.ofSegmentsPosix
    split
    · next next others cut =>
      rw [head?_any_isSeparator_iff.mpr ⟨next, others, cut⟩] at starts
      cases starts
    · rfl

private theorem eq_here_or_eq_top
    (read : Root.ofSegments .posix (segments .posix path) = (root, rest)) :
    root = .here ∨ root = .top := by
  rcases posix_cases path with ⟨_, _, _, read'⟩ | ⟨_, read'⟩
  · cases read.symm.trans read'
    exact .inr rfl
  · cases read.symm.trans read'
    exact .inl rfl

private theorem isAbsolute_of_read
    (read : Root.ofSegments .posix (segments .posix path) = (root, rest)) :
    root.isAbsolute = path.head?.any Platform.posix.isSeparator := by
  rcases posix_cases path with ⟨starts, _, _, read'⟩ | ⟨starts, read'⟩
  · cases read.symm.trans read'
    exact starts.symm
  · cases read.symm.trans read'
    exact starts.symm

theorem walk_eq_walkAlong (read : Root.ofSegments .posix (segments .posix path) = (root, rest)) :
    walk here path = walkAlong (if root.isAbsolute then [] else here) rest := by
  unfold walk
  rw [← isAbsolute_of_read read]
  rcases posix_cases path with ⟨_, _, cut, read'⟩ | ⟨_, read'⟩
  · cases read.symm.trans read'
    rw [cut]
    rfl
  · cases read.symm.trans read'
    rfl

end Reading

section Normal

private theorem ofSegments_normalForm_posix
    (read : Root.ofSegments .posix (segments .posix path) = (root, rest)) :
    Root.ofSegments .posix (segments .posix (normalForm .posix path)) =
      (root, root.body (resolve (!root.isAbsolute) rest)
        (path.getLast?.any Platform.posix.isSeparator)) :=
  ofSegments_segments_normalForm read fun isWindows => nomatch isWindows

/-- A path and its normal form lead to the same place. -/
theorem walk_normalForm (here : List (List Char)) (path : List Char) :
    walk here (normalForm .posix path) = walk here path := by
  obtain ⟨root, rest, read⟩ := exists_read .posix path
  rw [walk_eq_walkAlong read, walk_eq_walkAlong (ofSegments_normalForm_posix read), walkAlong_body]
  apply walkAlong_resolve
  intro absolute
  rw [Bool.not_eq_false'] at absolute
  exact if_pos absolute

theorem head?_normalForm (path : List Char) :
    (normalForm .posix path).head?.any Platform.posix.isSeparator =
      path.head?.any Platform.posix.isSeparator := by
  obtain ⟨root, rest, read⟩ := exists_read .posix path
  rw [← isAbsolute_of_read read, isAbsolute_of_read (ofSegments_normalForm_posix read)]

private theorem getLast?_normalForm_of_read
    (read : Root.ofSegments .posix (segments .posix path) = (root, rest)) :
    (normalForm .posix path).getLast?.any Platform.posix.isSeparator =
      (path.getLast?.any Platform.posix.isSeparator ||
        decide (resolve (!root.isAbsolute) rest = [] ∧ root.isAbsolute = true)) := by
  rw [← isClosed_segments, segments_normalForm_of_read read,
    root.isClosed_withSegments_body fun segment => ne_nil_of_mem_resolve]

/-- A normal form ends with a separator if the path does, or if it has nothing after the root. -/
theorem getLast?_normalForm (path : List Char) :
    (normalForm .posix path).getLast?.any Platform.posix.isSeparator = true ↔
      path.getLast?.any Platform.posix.isSeparator = true ∨ normalForm .posix path = ['/'] := by
  obtain ⟨root, rest, read⟩ := exists_read .posix path
  have ends := getLast?_normalForm_of_read read
  constructor
  · intro closedEnd
    rw [ends, Bool.or_eq_true, decide_eq_true_iff] at closedEnd
    refine closedEnd.imp_right fun bare => ?_
    have isTop : root = .top := by
      rcases eq_here_or_eq_top read with rfl | rfl
      · cases bare.2
      · rfl
    rw [normalForm_eq, ← segments_normalForm, segments_normalForm_of_read read, Root.body,
      if_pos bare, isTop]
    rfl
  · rintro (closedEnd | same)
    · rw [ends, closedEnd, Bool.true_or]
    · rw [same]
      rfl

/-- What is written of a POSIX path: its ends and what is between them. -/
theorem withSegments_body_posix (isRoot : root = .here ∨ root = .top) (resolved : List (List Char))
    (closed : Bool) :
    root.withSegments (root.body resolved closed) =
      ending root.isAbsolute ++
        (if resolved = [] ∧ root.isAbsolute = false then [dot] else resolved) ++
        ending (closed || decide (resolved = [] ∧ root.isAbsolute = true)) := by
  rcases isRoot with rfl | rfl <;> rcases resolved with _ | ⟨first, others⟩
  · cases closed <;> rfl
  · cases closed <;> rfl
  · cases closed <;> rfl
  · cases closed <;> rfl

/-- What is resolved can stand in a canonical path, or a `.` if nothing is left of a relative one. -/
theorem isCanonicalBody_resolve (absolute : Bool) (rest : List (List Char)) :
    IsCanonicalBody absolute
      (if resolve (!absolute) rest = [] ∧ absolute = false then [dot]
        else resolve (!absolute) rest) := by
  obtain ⟨count, names, split, each, atRoot⟩ := (isResolved_resolve (!absolute) rest).exists_parents
  cases absolute with
  | true =>
    rw [if_neg (by simp), split, atRoot rfl]
    exact .absolute each
  | false =>
    split_ifs with nothing
    · exact .nothing
    · rw [split] at nothing ⊢
      exact .relative each fun empty => nothing ⟨empty, rfl⟩

private theorem isCanonical_normalForm (path : List Char) : IsCanonical (normalForm .posix path) := by
  obtain ⟨root, rest, read⟩ := exists_read .posix path
  unfold IsCanonical
  dsimp only
  rw [head?_normalForm, ← isAbsolute_of_read read, getLast?_normalForm_of_read read,
    segments_normalForm_of_read read]
  exact ⟨_, isCanonicalBody_resolve root.isAbsolute rest,
    withSegments_body_posix (eq_here_or_eq_top read) _ _⟩

end Normal

/-- The normal form of a POSIX path is canonical, starts with a separator if the path does, ends with
one if the path does or if it has nothing else, and leads to the same place from any directory. -/
theorem normalize_posix_canonical (path : String) :
    let result := normalize .posix path
    (result.toList.head?.any Platform.posix.isSeparator =
        path.toList.head?.any Platform.posix.isSeparator) ∧
      IsCanonical result.toList ∧
      (result.toList.getLast?.any Platform.posix.isSeparator = true ↔
        path.toList.getLast?.any Platform.posix.isSeparator = true ∨ result = "/") ∧
      ∀ here, walk here result.toList = walk here path.toList := by
  dsimp only
  have written : (normalize .posix path).toList = normalForm .posix path.toList :=
    String.toList_ofList
  rw [written]
  refine ⟨head?_normalForm _, isCanonical_normalForm _, ?_, fun here => walk_normalForm here _⟩
  rw [getLast?_normalForm, ← written, ← String.toList_inj]
  rfl

end PathGlob.Path
