import PathGlob.Proofs.CanonicalPath
import PathGlob.Proofs.PathWalk

/-! # POSIX paths written from their names

The normal form of a POSIX path is made from three things: whether a separator stands in front,
whether one stands at the end, and what is left when the names are resolved. What is left of a front
of the path comes back from the normal form of this front, so fragments can be joined one after the
other (`join_posix_append`).
-/

namespace PathGlob.Path

variable {aboveRoot absolute closed : Bool} {path front back : List Char}
  {left : List (List Char)}

/-- A POSIX path as it is written: a separator if it starts from the root, what is left of its names,
or a `.` if nothing is left and nothing stands in front, and a separator at the end. -/
def posixText (absolute closed : Bool) (left : List (List Char)) : List Char :=
  let shown := if left = [] ∧ absolute = false then [dot] else left
  (if absolute then [Platform.posix.separator] else []) ++ ofSegments .posix shown ++
    if shown ≠ [] ∧ closed then [Platform.posix.separator] else []

section Names

/-- A POSIX path starts from the root if a separator stands in front, and all its names come after. -/
theorem split_posix_spec (path : List Char) :
    (Root.split .posix path).1 =
        (if path.head?.any Platform.posix.isSeparator then .top else .here) ∧
      names .posix (Root.split .posix path).2 = names .posix path := by
  rcases path with _ | ⟨c, path⟩
  · exact ⟨rfl, rfl⟩
  · cases separates : Platform.posix.isSeparator c with
    | true =>
      obtain rfl : c = '/' := by simpa [Platform.isSeparator, Platform.separators] using separates
      exact ⟨rfl, (names_cons_separator separates path).symm⟩
    | false =>
      have other : c ≠ '/' := by
        rintro rfl
        cases separates
      have found : Root.split .posix (c :: path) = (.here, c :: path) := by
        rw [Root.split]
        unfold Root.splitPosix
        split
        · next same => exact absurd (List.cons.inj same).1 other
        · rfl
      rw [found, List.head?_cons, Option.any_some, separates]
      exact ⟨rfl, rfl⟩

/-- The normal form of a POSIX path is written from its names. -/
theorem normalForm_posix_eq (path : List Char) :
    normalForm .posix path =
      posixText (path.head?.any Platform.posix.isSeparator)
        (path.getLast?.any Platform.posix.isSeparator)
        (resolve (!path.head?.any Platform.posix.isSeparator) (names .posix path)) := by
  obtain ⟨isRoot, sameNames⟩ := split_posix_spec path
  obtain ⟨root, rest, found⟩ : ∃ root rest, Root.split .posix path = (root, rest) := ⟨_, _, rfl⟩
  rw [found] at isRoot sameNames
  dsimp only at isRoot sameNames
  rw [normalForm_of_split found, isRoot, ← sameNames, names, resolve_filter_ne_nil]
  cases path.head?.any Platform.posix.isSeparator <;> rfl

/-- What is written has the names that are left, or a `.` in their place. -/
theorem names_posixText (nonempty : ∀ segment ∈ left, segment ≠ [])
    (whole : ∀ segment ∈ left, ∀ c ∈ segment, Platform.posix.isSeparator c = false) :
    names .posix (posixText absolute closed left) =
      if left = [] ∧ absolute = false then [dot] else left := by
  have back : names .posix (ofSegments .posix (if left = [] ∧ absolute = false then [dot] else left)) =
      if left = [] ∧ absolute = false then [dot] else left := by
    split_ifs
    · rfl
    · exact names_ofSegments nonempty whole
  have start (text : List Char) :
      names .posix ((if absolute then [Platform.posix.separator] else []) ++ text) =
        names .posix text := by
    cases absolute with
    | true => exact names_cons_separator rfl text
    | false => rfl
  have ends (text : List Char) (shown : Prop) [Decidable shown] :
      names .posix (text ++ if shown then [Platform.posix.separator] else []) = names .posix text := by
    split_ifs
    · rw [names_append_separator text rfl, names_nil, List.append_nil]
    · rw [List.append_nil]
  unfold posixText
  dsimp only
  rw [ends, start, back]

/-- A separator stands in front of what is written if it is to stand there. -/
theorem head?_posixText (nonempty : ∀ segment ∈ left, segment ≠ [])
    (whole : ∀ segment ∈ left, ∀ c ∈ segment, Platform.posix.isSeparator c = false) :
    (posixText absolute closed left).head?.any Platform.posix.isSeparator = absolute := by
  cases absolute with
  | true => rfl
  | false =>
    rcases left with _ | ⟨_ | ⟨c, first⟩, others⟩
    · cases closed <;> rfl
    · exact absurd rfl (nonempty [] List.mem_cons_self)
    · have separates := whole (c :: first) List.mem_cons_self c List.mem_cons_self
      cases others <;> exact separates

private theorem isSeparator_of_mem_resolve_names {segment : List Char} {c : Char}
    (isLeft : segment ∈ resolve aboveRoot (names .posix path)) (inSegment : c ∈ segment) :
    Platform.posix.isSeparator c = false :=
  isSeparator_of_mem_names (mem_of_mem_resolve isLeft) inSegment

/-- What is left of the names of a path is left of the names of its normal form. -/
theorem resolve_names_normalForm (path : List Char) :
    let aboveRoot := !path.head?.any Platform.posix.isSeparator
    resolve aboveRoot (names .posix (normalForm .posix path)) =
      resolve aboveRoot (names .posix path) := by
  dsimp only
  rw [normalForm_posix_eq, names_posixText (fun _ => ne_nil_of_mem_resolve)
    fun _ isLeft _ => isSeparator_of_mem_resolve_names isLeft]
  split_ifs with nothing
  · rw [nothing.1]
    rfl
  · exact resolve_of_isResolved (isResolved_resolve _ _)

end Names

section Joining

/-- Names that leave the same leave the same with any names behind them. -/
theorem resolve_append_congr {segments others : List (List Char)}
    (same : resolve aboveRoot segments = resolve aboveRoot others) (more : List (List Char)) :
    resolve aboveRoot (segments ++ more) = resolve aboveRoot (others ++ more) := by
  have sameStack : segments.foldl (descend aboveRoot) [] = others.foldl (descend aboveRoot) [] :=
    List.reverse_injective same
  rw [resolve, resolve, List.foldl_append, List.foldl_append, sameStack]

private theorem posixText_ne_nil (nonempty : ∀ segment ∈ left, segment ≠ []) :
    posixText absolute closed left ≠ [] := by
  have shown : ofSegments .posix (if left = [] then [dot] else left) ≠ [] := by
    split_ifs with nothing
    · exact List.cons_ne_nil _ _
    · exact ofSegments_ne_nil nothing nonempty
  cases absolute with
  | true => exact List.cons_ne_nil _ _
  | false =>
    apply List.append_ne_nil_of_left_ne_nil
    simpa using shown

private theorem normalForm_posix_ne_nil (path : List Char) : normalForm .posix path ≠ [] := by
  rw [normalForm_posix_eq]
  exact posixText_ne_nil fun _ => ne_nil_of_mem_resolve

/-- A normal form is its own normal form. -/
theorem normalForm_normalForm_posix (path : List Char) :
    normalForm .posix (normalForm .posix path) = normalForm .posix path := by
  obtain ⟨root, rest, read⟩ := exists_read .posix path
  have again := normalSegments_normalSegments read fun isWindows => nomatch isWindows
  rw [normalForm_eq, segments_normalForm, again, normalForm_eq]

/-- The front of a path can be normalized first. -/
theorem normalForm_append_separator (some : front ≠ []) (more : back ≠ []) :
    normalForm .posix (normalForm .posix front ++ Platform.posix.separator :: back) =
      normalForm .posix (front ++ Platform.posix.separator :: back) := by
  have parted : Platform.posix.isSeparator Platform.posix.separator = true := rfl
  have start (text : List Char) (some : text ≠ []) :
      (text ++ Platform.posix.separator :: back).head? = text.head? :=
    List.head?_append_of_ne_nil _ some
  have ends (text : List Char) :
      (text ++ Platform.posix.separator :: back).getLast? = back.getLast? := by
    rw [List.getLast?_append_of_ne_nil _ (List.cons_ne_nil _ _), List.getLast?_cons_of_ne_nil more]
  rw [normalForm_posix_eq, normalForm_posix_eq (front ++ _), start _ (normalForm_posix_ne_nil front),
    start front some, ends, ends, head?_normalForm, names_append_separator _ parted,
    names_append_separator _ parted, resolve_append_congr (resolve_names_normalForm front)]

/-- Fragments are put together and normalized, if there is something in one of them. -/
theorem joinForm_posix_eq {parts : List (List Char)} (some : parts.filter (· ≠ []) ≠ []) :
    joinForm .posix parts = normalForm .posix (ofSegments .posix (parts.filter (· ≠ []))) := by
  unfold joinForm
  obtain ⟨first, others, kept⟩ := List.exists_cons_of_ne_nil some
  rw [kept]

private theorem joinForm_posix_append {parts : List (List Char)} (some : parts.filter (· ≠ []) ≠ [])
    (more : List (List Char)) :
    joinForm .posix (parts ++ more) = joinForm .posix (joinForm .posix parts :: more) := by
  have kept : (joinForm .posix parts :: more).filter (· ≠ []) =
      joinForm .posix parts :: more.filter (· ≠ []) := by
    refine List.filter_cons_of_pos (decide_eq_true ?_)
    rw [joinForm_posix_eq some]
    exact normalForm_posix_ne_nil _
  have someAll : (parts ++ more).filter (· ≠ []) ≠ [] := by
    rw [List.filter_append]
    exact List.append_ne_nil_of_left_ne_nil some _
  have someKept : (joinForm .posix parts :: more).filter (· ≠ []) ≠ [] := by
    rw [kept]
    exact List.cons_ne_nil _ _
  rw [joinForm_posix_eq someAll, joinForm_posix_eq someKept, kept, joinForm_posix_eq some,
    List.filter_append]
  have nonempty : ∀ part ∈ more.filter (· ≠ []), part ≠ [] :=
    fun part isKept => by simpa using List.of_mem_filter isKept
  have someText : ofSegments .posix (parts.filter (· ≠ [])) ≠ [] :=
    ofSegments_ne_nil some fun part isKept => by simpa using List.of_mem_filter isKept
  by_cases alone : more.filter (· ≠ []) = []
  · rw [alone, List.append_nil]
    exact (normalForm_normalForm_posix _).symm
  · rw [ofSegments_append .posix some alone, ofSegments_cons .posix _ alone,
      normalForm_append_separator someText (ofSegments_ne_nil alone nonempty)]

end Joining

/-- Fragments that are joined already can be joined to others, and it makes no difference. -/
theorem join_posix_append {fragments : List String} (some : ∃ fragment ∈ fragments, fragment ≠ "")
    (more : List String) :
    join .posix (fragments ++ more) = join .posix ([join .posix fragments] ++ more) := by
  have kept : (fragments.map String.toList).filter (· ≠ []) ≠ [] := by
    obtain ⟨fragment, isFragment, something⟩ := some
    apply List.ne_nil_of_mem (a := fragment.toList)
    exact List.mem_filter.mpr ⟨List.mem_map_of_mem isFragment, by simpa using something⟩
  rw [join, List.map_append, joinForm_posix_append kept, join, List.singleton_append, List.map_cons,
    join, String.toList_ofList]

/-- The first fragments leave a `..` and a separator, and the others meet them. -/
theorem join_posix_append_parents :
    (∃ fragment ∈ ["", "a/../..", "b/"], fragment ≠ "") ∧
      join .posix ["", "a/../..", "b/"] = "../b/" ∧
      join .posix (["", "a/../..", "b/"] ++ ["", "../", "/c"]) =
        join .posix (["../b/"] ++ ["", "../", "/c"]) := by
  have some : ∃ fragment ∈ ["", "a/../..", "b/"], fragment ≠ "" := ⟨"b/", by decide⟩
  have first : join .posix ["", "a/../..", "b/"] = "../b/" := by decide
  refine ⟨some, first, ?_⟩
  rw [← first]
  exact join_posix_append some ["", "../", "/c"]

end PathGlob.Path
