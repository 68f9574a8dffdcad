import PathGlob.Proofs.TextPieces

/-! # Paths up to how separators are written

Which separators part the names of a path, how many of them, and whether one stands at the end may
not count. `Path.canonical` settles all this, and comes to the names of a path and whether a
separator stands in front of them (`Path.canonical_eq_canonical_iff`).
-/

namespace PathGlob

theorem GlobMeaning.segments_ne_nil (platform : Platform) (text : List Char) :
    segments platform text ≠ [] := by
  induction text with
  | nil => simp [segments]
  | cons c rest ih =>
    obtain ⟨first, others, cut⟩ := List.exists_cons_of_ne_nil ih
    rw [segments, cut]
    split
    · split
      · exact List.cons_ne_nil _ _
      · exact List.cons_ne_nil _ _
    · exact List.cons_ne_nil _ _

namespace Path

variable {platform : Platform} {c : Char} {path : List Char}

/-- A path with all separators written alike. -/
def unify (platform : Platform) (path : List Char) : List Char :=
  path.map fun c => if platform.isSeparator c then platform.separator else c

/-- A path with a single separator for every run of them. -/
def collapse (platform : Platform) : List Char → List Char
  | [] => []
  | c :: rest =>
    if platform.isSeparator c && rest.head?.any platform.isSeparator then collapse platform rest
    else c :: collapse platform rest

/-- A path without a separator at its end, unless this is all there is. -/
def dropEnd (platform : Platform) (path : List Char) : List Char :=
  if path.getLast?.any platform.isSeparator && decide (1 < path.length) then path.dropLast else path

/-- A path with single separators that are all written alike, and none at its end. -/
def canonical (platform : Platform) (path : List Char) : List Char :=
  dropEnd platform (collapse platform (unify platform path))

section Collapse

private theorem head?_unify_any_isSeparator (platform : Platform) (path : List Char) :
    (unify platform path).head?.any platform.isSeparator = path.head?.any platform.isSeparator := by
  cases path with
  | nil => rfl
  | cons c rest =>
    cases separates : platform.isSeparator c with
    | true => simp [unify, separates, platform.isSeparator_separator]
    | false => simp [unify, separates]

private theorem collapse_unify_cons (platform : Platform) (c : Char) (rest : List Char) :
    collapse platform (unify platform (c :: rest)) =
      if platform.isSeparator c then
        if rest.head?.any platform.isSeparator then collapse platform (unify platform rest)
        else platform.separator :: collapse platform (unify platform rest)
      else c :: collapse platform (unify platform rest) := by
  have next := head?_unify_any_isSeparator platform rest
  rw [unify, List.map_cons, collapse, ← unify, next]
  cases separates : platform.isSeparator c with
  | true => simp [platform.isSeparator_separator]
  | false => simp [separates]

/-- Collapsing goes along with putting texts together, unless a run of separators is torn apart. -/
theorem collapse_unify_append {front back : List Char}
    (apart : front.getLast?.any platform.isSeparator = true →
      back.head?.any platform.isSeparator = false) :
    collapse platform (unify platform (front ++ back)) =
      collapse platform (unify platform front) ++ collapse platform (unify platform back) := by
  induction front with
  | nil => rfl
  | cons c front ih =>
    rw [List.cons_append, collapse_unify_cons, collapse_unify_cons]
    cases front with
    | nil =>
      cases separates : platform.isSeparator c with
      | true => simp [apart separates, unify, collapse]
      | false => simp [unify, collapse]
    | cons d front =>
      rw [List.getLast?_cons_cons] at apart
      rw [ih apart, List.cons_append, List.head?_cons, List.head?_cons]
      split
      · split
        · rfl
        · rfl
      · rfl

private theorem collapse_unify_run {run : List Char} (some : run ≠ [])
    (separate : ∀ c ∈ run, platform.isSeparator c = true) :
    collapse platform (unify platform run) = [platform.separator] := by
  induction run with
  | nil => exact absurd rfl some
  | cons c run ih =>
    obtain ⟨first, others⟩ := List.forall_mem_cons.mp separate
    rw [collapse_unify_cons, if_pos first]
    cases run with
    | nil => rfl
    | cons d run =>
      rw [List.head?_cons, Option.any_some, if_pos (others d List.mem_cons_self)]
      exact ih (List.cons_ne_nil d run) others

/-- Collapsing writes down the segments that a text is cut into as a glob. -/
theorem collapse_unify_eq_ofSegments (platform : Platform) (path : List Char) :
    collapse platform (unify platform path) =
      ofSegments platform (GlobMeaning.segments platform path) := by
  induction path with
  | nil => rfl
  | cons c rest ih =>
    obtain ⟨first, others, cut⟩ :=
      List.exists_cons_of_ne_nil (GlobMeaning.segments_ne_nil platform rest)
    rw [collapse_unify_cons, GlobMeaning.segments, ih, cut]
    split
    · split
      · rfl
      · rfl
    · cases others with
      | nil => rfl
      | cons next others => rfl

private theorem dropEnd_concat_of_not_separator (path : List Char)
    (separates : platform.isSeparator c = false) :
    dropEnd platform (path ++ [c]) = path ++ [c] := by
  simp [dropEnd, separates]

private theorem dropEnd_concat_separator (nonempty : path ≠ [])
    (separates : platform.isSeparator c = true) :
    dropEnd platform (path ++ [c]) = path := by
  have long : 0 < path.length := List.length_pos_of_ne_nil nonempty
  simp [dropEnd, separates, long]

/-- What remains of a text without the separators at its end is collapsed to its names. -/
theorem collapse_unify_of_ends (nonempty : path ≠ [])
    (ends : ∀ c, path.getLast? = some c → platform.isSeparator c = false) :
    collapse platform (unify platform path) =
      (if path.head?.any platform.isSeparator then [platform.separator] else []) ++
        ofSegments platform (names platform path) := by
  have isLast := List.getLast?_eq_some_getLast nonempty
  have named : names platform path ≠ [] :=
    names_ne_nil_of_mem (List.mem_of_getLast? isLast) (ends _ isLast)
  rw [collapse_unify_eq_ofSegments, GlobMeaning.segments_eq_names nonempty ends]
  split
  · rw [ofSegments_cons platform [] named]
    rfl
  · rfl

/-- Separators at the end do not count, once they are no more than one. -/
theorem canonical_append_separators {run : List Char} (nonempty : path ≠ [])
    (ends : ∀ c, path.getLast? = some c → platform.isSeparator c = false)
    (separate : ∀ c ∈ run, platform.isSeparator c = true) :
    canonical platform (path ++ run) = collapse platform (unify platform path) := by
  obtain ⟨front, last, rfl⟩ := (List.eq_nil_or_concat' path).resolve_left nonempty
  have separates := ends last List.getLast?_concat
  have kept : collapse platform (unify platform (front ++ [last])) =
      collapse platform (unify platform front) ++ [last] := by
    rw [collapse_unify_append (by simp [separates]), collapse_unify_cons, separates]
    rfl
  rw [canonical]
  by_cases none : run = []
  · rw [none, List.append_nil, kept, dropEnd_concat_of_not_separator _ separates]
  · rw [collapse_unify_append (by simp [separates]), collapse_unify_run none separate,
      dropEnd_concat_separator (by simp [kept]) platform.isSeparator_separator]

/-- The canonical form is written from the names of a path and whether a separator stands in front of
them. -/
theorem canonical_eq (platform : Platform) (path : List Char) :
    canonical platform path =
      (if path.head?.any platform.isSeparator then [platform.separator] else []) ++
        ofSegments platform (names platform path) := by
  rcases path with _ | ⟨c, rest⟩
  · rfl
  obtain ⟨sameNames, sameHead⟩ := GlobMeaning.withoutTrailing_spec platform (c :: rest)
  have split : GlobMeaning.withoutTrailing platform (c :: rest) ++
      rest.rtakeWhile platform.isSeparator = c :: rest := by
    rw [GlobMeaning.withoutTrailing, List.cons_append, List.rdropWhile_append_rtakeWhile]
  have separate : ∀ d ∈ rest.rtakeWhile platform.isSeparator, platform.isSeparator d = true :=
    fun d isDropped => List.mem_rtakeWhile_imp isDropped
  rcases GlobMeaning.withoutTrailing_cases platform c rest with ⟨alone, separates⟩ | ends
  · rw [alone] at split sameNames
    have run := collapse_unify_run (List.cons_ne_nil c _)
      (List.forall_mem_cons.mpr ⟨separates, separate⟩)
    rw [← sameNames, names_cons_separator separates, List.head?_cons, Option.any_some, separates,
      ← split, canonical, List.singleton_append, run]
    simp [dropEnd, names_nil, ofSegments]
  · have nonempty : GlobMeaning.withoutTrailing platform (c :: rest) ≠ [] := List.cons_ne_nil _ _
    rw [← sameNames, ← sameHead, ← collapse_unify_of_ends nonempty ends,
      ← canonical_append_separators nonempty ends separate, split]

end Collapse

/-- Names come back from the text that they are written as. -/
theorem names_ofSegments {texts : List (List Char)} (nonempty : ∀ text ∈ texts, text ≠ [])
    (whole : ∀ text ∈ texts, ∀ c ∈ text, platform.isSeparator c = false) :
    names platform (ofSegments platform texts) = texts := by
  by_cases none : texts = []
  · rw [none]
    rfl
  · rw [names, segments_ofSegments none whole]
    exact List.filter_eq_self.mpr (by simpa using nonempty)

private theorem head?_ofSegments_names (platform : Platform) (path : List Char) :
    (ofSegments platform (names platform path)).head?.any platform.isSeparator = false := by
  cases cut : names platform path with
  | nil => rfl
  | cons first others =>
    have isName : first ∈ names platform path := cut ▸ List.mem_cons_self
    obtain ⟨c, rest, rfl⟩ := List.exists_cons_of_ne_nil (ne_nil_of_mem_names isName)
    have separates := isSeparator_of_mem_names isName List.mem_cons_self
    cases others with
    | nil => exact separates
    | cons next others => exact separates

/-- Paths have the same canonical form if they have the same names, and a separator in front if the
other has one. -/
theorem canonical_eq_canonical_iff {other : List Char} :
    canonical platform path = canonical platform other ↔
      names platform path = names platform other ∧
        path.head?.any platform.isSeparator = other.head?.any platform.isSeparator := by
  have spec (path : List Char) : names platform (canonical platform path) = names platform path ∧
      (canonical platform path).head?.any platform.isSeparator =
        path.head?.any platform.isSeparator := by
    have back : names platform (ofSegments platform (names platform path)) = names platform path :=
      names_ofSegments (fun _ => ne_nil_of_mem_names) fun _ isName _ => isSeparator_of_mem_names isName
    rw [canonical_eq]
    cases path.head?.any platform.isSeparator with
    | true =>
      rw [if_pos rfl, List.singleton_append, names_cons_separator platform.isSeparator_separator]
      exact ⟨back, platform.isSeparator_separator⟩
    | false => exact ⟨back, head?_ofSegments_names platform path⟩
  constructor
  · intro same
    rw [← (spec path).1, ← (spec path).2, same, (spec other).1, (spec other).2]
    exact ⟨rfl, rfl⟩
  · rintro ⟨sameNames, sameStart⟩
    rw [canonical_eq, canonical_eq, sameNames, sameStart]

/-- A name is parted from further names by separators, if there are any. -/
theorem names_append_run {first separators rest : List Char} (nonempty : first ≠ [])
    (whole : ∀ c ∈ first, platform.isSeparator c = false)
    (separate : ∀ c ∈ separators, platform.isSeparator c = true)
    (parted : separators = [] → rest = []) :
    names platform (first ++ (separators ++ rest)) = first :: names platform rest := by
  have alone := names_of_no_separator nonempty whole
  cases separators with
  | nil => rw [parted rfl, List.append_nil, List.append_nil, alone, names_nil]
  | cons s separators =>
    obtain ⟨separates, others⟩ := List.forall_mem_cons.mp separate
    rw [List.cons_append, names_append_separator first separates, names_separators_append others, alone]
    rfl

/-- Every text is a piece without separators, separators, and a rest with none in front. -/
theorem exists_first_run (platform : Platform) (path : List Char) :
    ∃ name separators rest, path = name ++ (separators ++ rest) ∧
      (∀ c ∈ name, platform.isSeparator c = false) ∧
      (∀ c ∈ separators, platform.isSeparator c = true) ∧ (separators = [] → rest = []) ∧
      rest.head?.any platform.isSeparator = false := by
  induction path with
  | nil => exact ⟨[], [], [], rfl, by simp, by simp, fun _ => rfl, rfl⟩
  | cons c path ih =>
    obtain ⟨name, separators, rest, rfl, whole, separate, parted, start⟩ := ih
    cases separates : platform.isSeparator c with
    | false =>
      have longer : ∀ d ∈ c :: name, platform.isSeparator d = false :=
        List.forall_mem_cons.mpr ⟨separates, whole⟩
      exact ⟨c :: name, separators, rest, rfl, longer, separate, parted, start⟩
    | true =>
      cases name with
      | nil =>
        have longer : ∀ d ∈ c :: separators, platform.isSeparator d = true :=
          List.forall_mem_cons.mpr ⟨separates, separate⟩
        exact ⟨[], c :: separators, rest, rfl, by simp, longer, by simp, start⟩
      | cons d name =>
        exact ⟨[], [c], d :: name ++ (separators ++ rest), rfl, by simp, by simpa using separates,
          by simp, whole d List.mem_cons_self⟩

/-- A path that starts with a name is this name, separators, and further names. -/
theorem exists_of_names_eq_cons {first : List Char} {others : List (List Char)}
    (cut : names platform path = first :: others)
    (unrooted : path.head?.any platform.isSeparator = false) :
    ∃ separators rest, path = first ++ (separators ++ rest) ∧
      (∀ c ∈ separators, platform.isSeparator c = true) ∧ (separators = [] → rest = []) ∧
      names platform rest = others ∧ rest.head?.any platform.isSeparator = false := by
  obtain ⟨name, separators, rest, rfl, whole, separate, parted, start⟩ :=
    exists_first_run platform path
  have nonempty : name ≠ [] := by
    rintro rfl
    cases separators with
    | nil =>
      rw [parted rfl] at cut
      cases cut
    | cons s separators =>
      have separates : platform.isSeparator s = false := unrooted
      rw [separate s List.mem_cons_self] at separates
      cases separates
  rw [names_append_run nonempty whole separate parted] at cut
  obtain ⟨rfl, rfl⟩ := List.cons.inj cut
  exact ⟨separators, rest, rfl, separate, parted, rfl, start⟩

/-- A path with a separator in front is separators and further names. -/
theorem exists_separators_iff {found : List (List Char)} :
    (∃ separators rest, path = separators ++ rest ∧ separators ≠ [] ∧
        (∀ c ∈ separators, platform.isSeparator c = true) ∧
        names platform rest = found ∧ rest.head?.any platform.isSeparator = false) ↔
      names platform path = found ∧ path.head?.any platform.isSeparator = true := by
  constructor
  · rintro ⟨separators, rest, rfl, some, separate, rfl, _⟩
    obtain ⟨s, separators, rfl⟩ := List.exists_cons_of_ne_nil some
    exact ⟨names_separators_append separate rest, separate s List.mem_cons_self⟩
  · rintro ⟨rfl, rooted⟩
    obtain ⟨name, separators, rest, rfl, whole, separate, parted, start⟩ :=
      exists_first_run platform path
    rcases name with _ | ⟨c, name⟩
    · refine ⟨separators, rest, rfl, ?_, separate, (names_separators_append separate rest).symm, start⟩
      rintro rfl
      rw [parted rfl] at rooted
      cases rooted
    · have notRooted : platform.isSeparator c = true := rooted
      rw [whole c List.mem_cons_self] at notRooted
      cases notRooted

end Path

end PathGlob
