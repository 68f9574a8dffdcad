import PathGlob.Proofs.GlobPlaces
import PathGlob.Proofs.PosixForm

/-! # Parents that count as names

Normalizing a glob as a path knows nothing of what is shielded in it: a mark takes the place of a
`..` in the text, and `..` is put back in the end. What this comes to is a stack with two kinds of
`..` on it. One leads up, and the other, right after `**`, is a name like any other.
-/

namespace PathGlob.Glob

open PathGlob.Path (dot dotDot)

variable {aboveRoot : Bool} {previous segment : List Char} {segments : List (List Char)}

/-- What a segment is kept as: a way up, or a name. A `..` can be either. -/
inductive Kept where
  | parent
  | name (text : List Char)
  deriving DecidableEq, Repr

namespace Kept

def text : Kept → List Char
  | parent => dotDot
  | name text => text

/-- What a kept segment is while the glob is normalized as a path. -/
def shielded : Kept → List Char
  | parent => dotDot
  | name text => if text = dotDot then shieldedParent else text

end Kept

variable {stack : List Kept} {kept : Kept}

/-- Goes on to one more segment, the last one on top of the stack. A `..` right after `**` is a name.
Any other takes the name on top away, and if there is none it stays where something is above the
root. -/
def keep (aboveRoot : Bool) (previous : List Char) (stack : List Kept) (segment : List Char) :
    List Kept :=
  if segment = dot then stack
  else if segment = dotDot ∧ previous ≠ doubleStar then
    match stack with
    | .name _ :: below => below
    | _ => if aboveRoot then .parent :: stack else stack
  else .name segment :: stack

def keepAll (aboveRoot : Bool) (previous : List Char) (stack : List Kept) :
    List (List Char) → List Kept
  | [] => stack
  | segment :: rest => keepAll aboveRoot segment (keep aboveRoot previous stack segment) rest

/-- The text of a POSIX glob whose names are kept one after the other. -/
def keptText (glob : List Char) : List Char :=
  let absolute := glob.head?.any Platform.posix.isSeparator
  let kept := keepAll (!absolute) [] [] (Path.names .posix glob)
  Path.posixText absolute (glob.getLast?.any Platform.posix.isSeparator)
    (kept.reverse.map Kept.text)

section Stack

/-- A segment is skipped, takes the last name away, stays as a parent or is dropped as one, or goes on
top as a name. -/
theorem keep_cases (aboveRoot : Bool) (previous : List Char) (stack : List Kept)
    (segment : List Char) :
    (segment = dot ∧ keep aboveRoot previous stack segment = stack) ∨
    (segment = dotDot ∧ previous ≠ doubleStar ∧ ∃ text below, stack = .name text :: below ∧
      keep aboveRoot previous stack segment = below) ∨
    (segment = dotDot ∧ previous ≠ doubleStar ∧ (∀ text, stack.head? ≠ some (.name text)) ∧
      keep aboveRoot previous stack segment = if aboveRoot then .parent :: stack else stack) ∨
    (segment ≠ dot ∧ (segment = dotDot → previous = doubleStar) ∧
      keep aboveRoot previous stack segment = .name segment :: stack) := by
  unfold keep
  by_cases isDot : segment = dot
  · exact .inl ⟨isDot, if_pos isDot⟩
  · rw [if_neg isDot]
    by_cases leadsUp : segment = dotDot ∧ previous ≠ doubleStar
    · rw [if_pos leadsUp]
      rcases stack with _ | ⟨_ | text, below⟩
      · exact .inr (.inr (.inl ⟨leadsUp.1, leadsUp.2, by simp, rfl⟩))
      · exact .inr (.inr (.inl ⟨leadsUp.1, leadsUp.2, by simp, rfl⟩))
      · exact .inr (.inl ⟨leadsUp.1, leadsUp.2, text, below, rfl, rfl⟩)
    · exact .inr (.inr (.inr ⟨isDot, by simpa using leadsUp, if_neg leadsUp⟩))

private theorem mem_of_mem_keep (isKept : kept ∈ keep aboveRoot previous stack segment) :
    kept ∈ stack ∨ kept = .parent ∨ kept = .name segment := by
  rcases keep_cases aboveRoot previous stack segment with
    ⟨_, same⟩ | ⟨_, _, text, below, rfl, same⟩ | ⟨_, _, _, same⟩ | ⟨_, _, same⟩
  · exact .inl (same ▸ isKept)
  · exact .inl (List.mem_cons_of_mem _ (same ▸ isKept))
  · rw [same] at isKept
    split_ifs at isKept
    · exact (List.mem_cons.mp isKept).symm.imp_right .inl
    · exact .inl isKept
  · rw [same] at isKept
    exact (List.mem_cons.mp isKept).symm.imp_right .inr

/-- Nothing is kept but parents and segments. -/
theorem mem_of_mem_keepAll (isKept : kept ∈ keepAll aboveRoot previous stack segments) :
    kept ∈ stack ∨ kept = .parent ∨ ∃ segment ∈ segments, kept = .name segment := by
  induction segments generalizing previous stack with
  | nil => exact .inl isKept
  | cons segment rest ih =>
    rcases ih isKept with onStack | isParent | ⟨later, isLater, isName⟩
    · rcases mem_of_mem_keep onStack with before | isParent | isName
      · exact .inl before
      · exact .inr (.inl isParent)
      · exact .inr (.inr ⟨segment, List.mem_cons_self, isName⟩)
    · exact .inr (.inl isParent)
    · exact .inr (.inr ⟨later, List.mem_cons_of_mem _ isLater, isName⟩)

private theorem Kept.shielded_name (text : List Char) :
    (Kept.name text).shielded = if text = dotDot then shieldedParent else text := rfl

private theorem Kept.shielded_name_ne_dotDot (text : List Char) :
    (Kept.name text).shielded ≠ dotDot := by
  rw [shielded_name]
  split_ifs with parent
  · decide
  · exact parent

/-- One more segment, shielded or not, does to the path what it does to what is kept. -/
theorem descend_map_shielded (nonempty : segment ≠ []) :
    Path.descend aboveRoot (stack.map Kept.shielded)
        (if segment = dotDot ∧ previous = doubleStar then shieldedParent else segment) =
      (keep aboveRoot previous stack segment).map Kept.shielded := by
  rcases keep_cases aboveRoot previous stack segment with
    ⟨rfl, same⟩ | ⟨rfl, notStar, text, below, rfl, same⟩ | ⟨rfl, notStar, noName, same⟩ |
      ⟨notDot, isStar, same⟩
  · have notParent : dot ≠ dotDot := by decide
    rw [same, if_neg fun both => notParent both.1]
    exact Path.descend_of_skipped (.inr rfl)
  · rw [same, if_neg fun both => notStar both.2]
    exact Path.descend_dotDot_of_name (Kept.shielded_name_ne_dotDot text)
  · rw [same, if_neg fun both => notStar both.2]
    rcases stack with _ | ⟨_ | text, below⟩
    · cases aboveRoot <;> rfl
    · cases aboveRoot <;> rfl
    · exact absurd rfl (noName text)
  · rw [same, List.map_cons, Kept.shielded_name]
    by_cases isParent : segment = dotDot
    · rw [if_pos ⟨isParent, isStar isParent⟩, if_pos isParent]
      exact Path.descend_of_name (by decide) (by decide) (by decide)
    · rw [if_neg fun both => isParent both.1, if_neg isParent]
      exact Path.descend_of_name nonempty notDot isParent

/-- A run over shielded segments does to the path what the segments do to what is kept. -/
theorem foldl_descend_shieldSegments (stack : List Kept)
    (nonempty : ∀ segment ∈ segments, segment ≠ []) :
    (shieldSegments previous segments).foldl (Path.descend aboveRoot) (stack.map Kept.shielded) =
      (keepAll aboveRoot previous stack segments).map Kept.shielded := by
  induction segments generalizing previous stack with
  | nil => rfl
  | cons segment rest ih =>
    obtain ⟨something, others⟩ := List.forall_mem_cons.mp nonempty
    rw [shieldSegments_cons previous something, List.foldl_cons, descend_map_shielded something,
      ih _ others]
    rfl

private theorem Kept.unshield_shielded (unmarked : shieldMark ∉ kept.text) :
    unshield kept.shielded = kept.text := by
  cases kept with
  | parent => rfl
  | name text =>
    rw [shielded_name]
    split_ifs with parent
    · rw [parent]
      rfl
    · exact unshield_of_not_mem unmarked

/-- Once `..` is put back, resolving shielded segments leaves the texts of what is kept. -/
theorem map_unshield_resolve (nonempty : ∀ segment ∈ segments, segment ≠ [])
    (unmarked : ∀ segment ∈ segments, shieldMark ∉ segment) :
    (Path.resolve aboveRoot (shieldSegments previous segments)).map unshield =
      (keepAll aboveRoot previous [] segments).reverse.map Kept.text := by
  have run : (shieldSegments previous segments).foldl (Path.descend aboveRoot) [] =
      (keepAll aboveRoot previous [] segments).map Kept.shielded :=
    foldl_descend_shieldSegments [] nonempty
  rw [Path.resolve, run, ← List.map_reverse, List.map_map]
  refine List.map_congr_left fun kept isKept => Kept.unshield_shielded ?_
  rcases mem_of_mem_keepAll (List.mem_reverse.mp isKept) with onStack | rfl | ⟨segment, isSegment, rfl⟩
  · cases onStack
  · decide
  · exact unmarked segment isSegment

end Stack

section Text

/-- Shielding replaces segments with something in them only. -/
theorem map_isEmpty_shieldSegments (previous : List Char) (segments : List (List Char)) :
    (shieldSegments previous segments).map List.isEmpty = segments.map List.isEmpty := by
  induction segments generalizing previous with
  | nil => rfl
  | cons segment rest ih =>
    rw [shieldSegments, List.map_cons, List.map_cons, ih]
    split_ifs with parent
    · rw [parent.1]
      rfl
    · rfl

/-- Empty segments are not looked at for shielding. -/
theorem filter_shieldSegments (previous : List Char) (segments : List (List Char)) :
    (shieldSegments previous segments).filter (· ≠ []) =
      shieldSegments previous (segments.filter (· ≠ [])) := by
  induction segments generalizing previous with
  | nil => rfl
  | cons segment rest ih =>
    by_cases empty : segment = []
    · subst empty
      exact ih previous
    · have something : (if segment = dotDot ∧ previous = ['*', '*'] then [shieldMark] else segment) ≠
          [] := by
        split_ifs
        · exact List.cons_ne_nil _ _
        · exact empty
      rw [shieldSegments, List.filter_cons_of_pos (by simpa using something),
        List.filter_cons_of_pos (by simpa using empty), shieldSegments, ih, if_neg empty]

private theorem names_shield (platform : Platform) (glob : List Char) :
    Path.names platform (shield platform glob) = shieldSegments [] (Path.names platform glob) := by
  rw [Path.names, segments_shield, filter_shieldSegments, Path.names]

/-- Which segments are empty tells whether a separator stands in front of a text. -/
theorem head?_any_isSeparator_eq (platform : Platform) (text : List Char) :
    text.head?.any platform.isSeparator = true ↔
      ∃ next others, (Path.segments platform text).map List.isEmpty = true :: next :: others := by
  rw [Path.head?_any_isSeparator_iff]
  rcases Path.segments platform text with _ | ⟨_ | ⟨c, first⟩, _ | ⟨next, others⟩⟩ <;> simp

/-- Which segments are empty tells whether a separator stands at the end of a text. -/
theorem getLast?_any_isSeparator_eq (platform : Platform) (text : List Char) :
    text.getLast?.any platform.isSeparator = true ↔
      ((Path.segments platform text).map List.isEmpty).getLast? = some true ∧
        (Path.segments platform text).map List.isEmpty ≠ [true] := by
  rw [← Path.isClosed_segments, Path.isClosed, decide_eq_true_iff]
  simp

/-- A shielded glob has separators at the ends that the glob has there. -/
theorem ends_shield (platform : Platform) (glob : List Char) :
    (shield platform glob).head?.any platform.isSeparator = glob.head?.any platform.isSeparator ∧
      (shield platform glob).getLast?.any platform.isSeparator =
        glob.getLast?.any platform.isSeparator := by
  have same := map_isEmpty_shieldSegments [] (Path.segments platform glob)
  rw [← segments_shield] at same
  constructor
  · rw [Bool.eq_iff_iff, head?_any_isSeparator_eq, head?_any_isSeparator_eq, same]
  · rw [Bool.eq_iff_iff, getLast?_any_isSeparator_eq, getLast?_any_isSeparator_eq, same]

private theorem unshield_posixText (absolute closed : Bool) (left : List (List Char)) :
    unshield (Path.posixText absolute closed left) =
      Path.posixText absolute closed (left.map unshield) := by
  cases left with
  | nil => cases absolute <;> cases closed <;> decide
  | cons first others =>
    simp only [Path.posixText, List.map_cons, List.cons_ne_nil, false_and, if_false,
      unshield_append, unshield_ofSegments]
    cases absolute <;> cases closed <;> rfl

/-- The normal form of a POSIX glob is written from what is left of its shielded names. -/
theorem normalForm_eq_posixText (glob : List Char) :
    normalForm .posix true glob =
      Path.posixText (glob.head?.any Platform.posix.isSeparator)
        (glob.getLast?.any Platform.posix.isSeparator)
        ((Path.resolve (!glob.head?.any Platform.posix.isSeparator)
          (shieldSegments [] (Path.names .posix glob))).map unshield) := by
  obtain ⟨sameStart, sameEnd⟩ := ends_shield .posix glob
  rw [normalForm, if_pos rfl, Path.normalForm_posix_eq, sameStart, sameEnd, names_shield,
    unshield_posixText]

end Text

section Parents

variable {glob : List Char}

theorem shieldMark_not_mem_names (unmarked : shieldMark ∉ glob) :
    ∀ name ∈ Path.names .posix glob, shieldMark ∉ name :=
  fun name isName => shieldMark_not_mem_segments unmarked name (List.mem_of_mem_filter isName)

/-- What is left of shielded names is shielded as it was. -/
theorem isShielded_resolve_shieldSegments (unmarked : shieldMark ∉ glob) (aboveRoot : Bool) :
    IsShielded false (Path.resolve aboveRoot (shieldSegments [] (Path.names .posix glob))) :=
  isShielded_resolve (fun _ => rfl)
    (isShielded_shieldSegments [] (shieldMark_not_mem_names unmarked))

/-- The normal form of a POSIX glob is the text of what is kept of it. -/
theorem normalForm_eq_keptText (unmarked : shieldMark ∉ glob) :
    normalForm .posix true glob = keptText glob := by
  rw [normalForm_eq_posixText, map_unshield_resolve (fun _ => Path.ne_nil_of_mem_names)
    (shieldMark_not_mem_names unmarked)]
  rfl

/-- What is left of shielded names can be written between separators. -/
theorem isName_of_mem_resolve_shieldSegments
    (isLeft : segment ∈ (Path.resolve aboveRoot
      (shieldSegments [] (Path.names .posix glob))).map unshield) :
    segment ≠ [] ∧ ∀ c ∈ segment, Platform.posix.isSeparator c = false := by
  obtain ⟨marked, isMarked, rfl⟩ := List.mem_map.mp isLeft
  refine ⟨unshield_ne_nil (Path.ne_nil_of_mem_resolve isMarked), fun c inSegment => ?_⟩
  rcases mem_of_mem_unshield inSegment with ⟨inMarked, _⟩ | rfl
  · exact isSeparator_of_mem_shieldSegments
      (fun name isName _ inName => Path.isSeparator_of_mem_names isName inName)
      (Path.mem_of_mem_resolve isMarked) inMarked
  · rfl

/-- The names of a normal POSIX glob are what is left of the shielded names, and a separator stands in
front if one stands in front of the glob. -/
theorem names_normalForm_posix (glob : List Char) :
    let absolute := glob.head?.any Platform.posix.isSeparator
    let left := (Path.resolve (!absolute) (shieldSegments [] (Path.names .posix glob))).map unshield
    Path.names .posix (normalForm .posix true glob) =
        (if left = [] ∧ absolute = false then [dot] else left) ∧
      (normalForm .posix true glob).head?.any Platform.posix.isSeparator = absolute := by
  dsimp only
  rw [normalForm_eq_posixText]
  exact ⟨Path.names_posixText (fun _ isLeft => (isName_of_mem_resolve_shieldSegments isLeft).1)
      (fun _ isLeft => (isName_of_mem_resolve_shieldSegments isLeft).2),
    Path.head?_posixText (fun _ isLeft => (isName_of_mem_resolve_shieldSegments isLeft).1)
      (fun _ isLeft => (isName_of_mem_resolve_shieldSegments isLeft).2)⟩

/-- A `..` among what is left of a glob leads up from the start, or was shielded. -/
theorem parent_cases {left front back : List (List Char)} (shielded : IsShielded false left)
    (settled : Path.IsResolved aboveRoot left.reverse)
    (split : left.map unshield = front ++ dotDot :: back) :
    (aboveRoot = true ∧ ∀ segment ∈ front, segment = dotDot) ∨ front.getLast? = some doubleStar := by
  obtain ⟨before, after, rfl, rfl, found⟩ := List.map_eq_append_iff.mp split
  obtain ⟨parent, after, rfl, isParent, rfl⟩ := List.map_eq_cons_iff.mp found
  rw [List.reverse_append, List.reverse_cons, List.append_assoc] at settled
  obtain ⟨_, _, parents, settledBefore⟩ := settled.of_append
  by_cases marked : shieldMark ∈ parent
  · right
    obtain ⟨shieldedBefore, placed, _⟩ := (isShielded_append before _).mp shielded
    obtain ⟨rfl, _⟩ := placed.2 marked
    have alone : IsShielded false (shieldedParent :: before.reverse).reverse := by
      rw [List.reverse_cons, List.reverse_reverse, isShielded_append]
      exact ⟨shieldedBefore, placed, trivial⟩
    obtain ⟨under, below⟩ := exists_doubleStar_below alone settledBefore
    rw [← List.reverse_reverse before, below, List.reverse_cons, List.map_append]
    exact List.getLast?_concat
  · left
    rw [unshield_of_not_mem marked] at isParent
    obtain ⟨above, allParents⟩ := parents isParent
    refine ⟨above, List.forall_mem_map.mpr fun segment isBefore => ?_⟩
    rw [allParents segment (List.mem_reverse.mpr isBefore)]
    rfl

end Parents

/-- A POSIX glob with globstars is normalized to the text of what is kept of its names. There is no mark
in it, and any `..` in it is one of those that lead up from the start, or comes right after `**`. -/
theorem normalize_eq_keptText {glob : String} (unmarked : shieldMark ∉ glob.toList) :
    ∃ result, normalize .posix true glob = .ok result ∧
      result.toList = keptText glob.toList ∧ shieldMark ∉ result.toList ∧
      ∀ front back, Path.names .posix result.toList = front ++ dotDot :: back →
        (result.toList.head?.any Platform.posix.isSeparator = false ∧
            ∀ segment ∈ front, segment = dotDot) ∨
          front.getLast? = some doubleStar := by
  refine ⟨_, normalize_eq_ok_iff.mpr ⟨unmarked, rfl⟩, ?_⟩
  rw [String.toList_ofList]
  refine ⟨normalForm_eq_keptText unmarked, shieldMark_not_mem_normalForm unmarked, ?_⟩
  intro front back split
  obtain ⟨sameNames, sameStart⟩ := names_normalForm_posix glob.toList
  rw [sameNames] at split
  rw [sameStart]
  split_ifs at split with nothing
  · have isDot : dotDot ∈ [dot] := by rw [split]; simp
    exact absurd isDot (by decide)
  · have found := parent_cases (isShielded_resolve_shieldSegments unmarked _)
      (Path.isResolved_resolve _ _) split
    rwa [Bool.not_eq_true'] at found

/-- The first `..` after `**` is kept and the second takes it away; the `..` in front leads up. -/
theorem normalize_eq_keptText_parents :
    shieldMark ∉ "x/../..//**/../../../**//.././y/".toList ∧
      normalize .posix true "x/../..//**/../../../**//.././y/" = .ok "../**/../y/" ∧
      "../**/../y/".toList = keptText "x/../..//**/../../../**//.././y/".toList := by
  have unmarked : shieldMark ∉ "x/../..//**/../../../**//.././y/".toList := by decide
  have normal : normalize .posix true "x/../..//**/../../../**//.././y/" = .ok "../**/../y/" := by
    decide
  obtain ⟨result, found, text, _⟩ := normalize_eq_keptText unmarked
  obtain rfl : "../**/../y/" = result := Except.ok.inj (normal.symm.trans found)
  exact ⟨unmarked, normal, text⟩

end PathGlob.Glob
