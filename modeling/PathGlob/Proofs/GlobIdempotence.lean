import PathGlob.Proofs.GlobShield

/-! # Normalizing a glob again

A normal form is its own normal form unless something in it is read as part of a drive that was not
part of one before. That happens on Windows only, where dropping `.` brings a segment to the front
of the glob or to the colon of a drive.
-/

namespace PathGlob.Glob

open PathGlob.Path (Root dotDot)

variable {platform : Platform} {globstar closed : Bool} {segments rest resolved : List (List Char)}
  {root : Root} {glob : List Char}

def guarded (globstar : Bool) (segments : List (List Char)) : List (List Char) :=
  if globstar then shieldSegments [] segments else segments

/-- The segments of a normal glob, made from the segments of a glob. -/
def normalSegments (platform : Platform) (globstar : Bool) (segments : List (List Char)) :
    List (List Char) :=
  (Path.normalSegments platform (guarded globstar segments)).map unshield

section Texts

theorem shieldMark_not_mem_segments (unmarked : shieldMark ∉ glob) :
    ∀ segment ∈ Path.segments platform glob, shieldMark ∉ segment :=
  fun _ isSegment marked => unmarked (Text.mem_of_mem_pieces isSegment marked)

theorem map_unshield_of_not_mem (unmarked : ∀ segment ∈ segments, shieldMark ∉ segment) :
    segments.map unshield = segments := by
  have same : ∀ segment ∈ segments, unshield segment = segment :=
    fun segment isSegment => unshield_of_not_mem (unmarked segment isSegment)
  rw [List.map_congr_left same, List.map_id']

theorem shieldMark_not_mem_pathSegments (unmarked : ∀ segment ∈ segments, shieldMark ∉ segment) :
    ∀ segment ∈ Path.normalSegments platform segments, shieldMark ∉ segment := by
  intro segment isLeft marked
  have other : ∀ c ∈ segment, c ≠ shieldMark := by
    refine Path.forall_mem_normalSegments (by decide) ?_ segment isLeft
    rintro segment isSegment c inSegment rfl
    exact unmarked segment isSegment inSegment
  exact other shieldMark marked rfl

/-- The normal form of a glob is written from the segments made of its segments. -/
theorem normalForm_eq (unmarked : shieldMark ∉ glob) :
    normalForm platform globstar glob =
      Path.ofSegments platform (normalSegments platform globstar (Path.segments platform glob)) := by
  unfold normalForm normalSegments guarded
  cases globstar with
  | true =>
    rw [if_pos rfl, if_pos rfl, Path.normalForm_eq, segments_shield, unshield_ofSegments]
  | false =>
    have inNormal : ∀ segment ∈ Path.normalSegments platform (Path.segments platform glob),
        shieldMark ∉ segment :=
      shieldMark_not_mem_pathSegments (shieldMark_not_mem_segments unmarked)
    rw [if_neg Bool.false_ne_true, if_neg Bool.false_ne_true, Path.normalForm_eq,
      map_unshield_of_not_mem inNormal]

theorem shieldMark_not_mem_normalForm (unmarked : shieldMark ∉ glob) :
    shieldMark ∉ normalForm platform globstar glob := by
  rw [normalForm_eq unmarked, normalSegments, ← unshield_ofSegments]
  exact shieldMark_not_mem_unshield _

theorem segments_normalForm (unmarked : shieldMark ∉ glob) :
    Path.segments platform (normalForm platform globstar glob) =
      normalSegments platform globstar (Path.segments platform glob) := by
  rw [normalForm_eq unmarked]
  apply Path.segments_ofSegments
  · exact mt List.map_eq_nil_iff.mp (Path.normalSegments_ne_nil platform _)
  · have dots : platform.isSeparator '.' = false := by cases platform <;> rfl
    have inSegments : ∀ segment ∈ Path.segments platform glob, ∀ c ∈ segment,
        platform.isSeparator c = false :=
      fun segment isSegment c => Path.isSeparator_of_mem_segments isSegment
    have whole : ∀ segment ∈ guarded globstar (Path.segments platform glob), ∀ c ∈ segment,
        platform.isSeparator c = false := by
      cases globstar with
      | true => exact fun segment isLeft c => isSeparator_of_mem_shieldSegments inSegments isLeft
      | false => exact inSegments
    intro segment isLeft c inSegment
    obtain ⟨marked, isNormal, rfl⟩ := List.mem_map.mp isLeft
    rcases mem_of_mem_unshield inSegment with ⟨inMarked, _⟩ | rfl
    · exact Path.forall_mem_normalSegments dots whole marked isNormal c inMarked
    · exact dots

/-- A normal form is a normal form of itself exactly if its segments are. -/
theorem normalForm_normalForm_iff (unmarked : shieldMark ∉ glob) :
    normalForm platform globstar (normalForm platform globstar glob) =
        normalForm platform globstar glob ↔
      normalSegments platform globstar
          (normalSegments platform globstar (Path.segments platform glob)) =
        normalSegments platform globstar (Path.segments platform glob) := by
  have unmarkedForm : shieldMark ∉ normalForm platform globstar glob :=
    shieldMark_not_mem_normalForm unmarked
  constructor
  · intro same
    rw [← segments_normalForm unmarked, ← segments_normalForm unmarkedForm, same]
  · intro same
    rw [normalForm_eq unmarkedForm, segments_normalForm unmarked, same, normalForm_eq unmarked]

end Texts

section Segments

/-- A glob that does not join a `**` before a shielded `..` to a drive is shielded again as it was. -/
theorem guarded_normalSegments (unmarked : ∀ segment ∈ segments, shieldMark ∉ segment)
    (read : Root.ofSegments platform (guarded globstar segments) = (root, rest))
    (apart : globstar = true → ∀ letter, root = .drive letter → ∀ others,
      Path.resolve true rest ≠ doubleStar :: shieldedParent :: others) :
    guarded globstar (normalSegments platform globstar segments) =
      Path.normalSegments platform (guarded globstar segments) := by
  cases globstar with
  | true =>
    have shielded := isShielded_normalSegments read (isShielded_shieldSegments [] unmarked) (apart rfl)
    exact shieldSegments_map_unshield shielded
  | false => exact map_unshield_of_not_mem (shieldMark_not_mem_pathSegments unmarked)

private theorem length_unshield_append_dot (text : List Char) :
    (unshield (text ++ ['.'])).length = (unshield text).length + 1 := by
  simp [unshield, shieldMark]

/-- Normalizing what becomes a drive again makes another glob. -/
theorem normalSegments_ne_of_becomesDrive {parts : List (List Char)}
    (read : Root.ofSegments .windows parts = (.here, rest))
    (becomes : Path.BecomesDrive (Path.isClosed parts) (Path.resolve true rest)) :
    (Path.normalSegments .windows (Path.normalSegments .windows parts)).map unshield ≠
      (Path.normalSegments .windows parts).map unshield := by
  have written : Path.normalSegments .windows parts =
      Root.here.body (Path.resolve true rest) (Path.isClosed parts) := by
    rw [Path.normalSegments, read]
    rfl
  rw [written]
  rcases becomes.normalSegments_body (Path.isResolved_resolve true rest) with
    ⟨letter, _, before, again⟩ | shorter
  · rw [again, before]
    intro same
    have length := length_unshield_append_dot [letter, ':']
    rw [List.map_singleton, List.map_singleton] at same
    rw [← (List.cons.inj same).1] at length
    exact absurd length (by simp)
  · intro same
    have length := congrArg List.length same
    rw [List.length_map, List.length_map] at length
    exact absurd length shorter.ne

/-- A `**` that is joined to a drive shields nothing. -/
theorem shieldSegments_joined {letter : Char} (unmarked : letter ≠ shieldMark)
    (shielded : IsShielded false segments) :
    shieldSegments [] (((letter :: ':' :: doubleStar) :: shieldedParent :: segments).map unshield) =
      (letter :: ':' :: doubleStar) :: dotDot :: segments := by
  have kept : unshield (letter :: ':' :: doubleStar) = letter :: ':' :: doubleStar := by
    apply unshield_of_not_mem
    intro marked
    rcases List.mem_cons.mp marked with same | marked
    · exact unmarked same.symm
    · exact absurd marked (by decide)
  have put : unshield shieldedParent = dotDot := rfl
  have others : shieldSegments dotDot (segments.map unshield) = segments :=
    shieldSegments_map_unshield shielded
  rw [List.map_cons, List.map_cons, kept, put]
  simp [shieldSegments, dotDot] at others ⊢
  exact others

/-- Normalizing a `**` again that was joined to a drive drops it with the `..` that is not shielded
by it any more. -/
theorem normalSegments_ne_of_joined {letter : Char} {others : List (List Char)}
    (unmarked : ∀ segment ∈ segments, shieldMark ∉ segment)
    (read : Root.ofSegments .windows (guarded true segments) = (.drive letter, rest))
    (joined : Path.resolve true rest = doubleStar :: shieldedParent :: others) :
    normalSegments .windows true (normalSegments .windows true segments) ≠
      normalSegments .windows true segments := by
  have reads := Root.reads_ofSegments .windows (guarded true segments)
  rw [read] at reads
  have isLetter := reads.isAlpha_drive
  have shielded := isShielded_resolve_of_reads reads (isShielded_shieldSegments [] unmarked)
  have settled := Path.isResolved_resolve true rest
  obtain ⟨closed, isClosed⟩ : ∃ closed, Path.isClosed (guarded true segments) = closed := ⟨_, rfl⟩
  have relative : (!(Root.drive letter).isAbsolute) = true := rfl
  rw [relative, joined] at shielded
  rw [joined] at settled
  have form : Path.normalSegments .windows (guarded true segments) =
      (letter :: ':' :: doubleStar) :: shieldedParent :: (others ++ Path.ending closed) := by
    rw [Path.normalSegments, read]
    dsimp only
    rw [relative, joined, isClosed, Root.body_cons]
    rfl
  have again : guarded true (normalSegments .windows true segments) =
      (letter :: ':' :: doubleStar) :: dotDot :: (others ++ Path.ending closed) := by
    unfold guarded normalSegments
    rw [if_pos rfl, form]
    refine shieldSegments_joined ?_ (shielded.2.2.append_end closed)
    rintro rfl
    cases isLetter
  have names : Path.IsResolved true others.reverse := by
    have after : Path.IsResolved true (shieldedParent :: others).reverse :=
      Path.isResolved_of_name settled (by decide)
    exact Path.isResolved_of_name after (by decide)
  have result : Path.normalSegments .windows
      ((letter :: ':' :: doubleStar) :: dotDot :: (others ++ Path.ending closed)) =
        (Root.drive letter).withSegments ((Root.drive letter).body others closed) :=
    Path.normalSegments_drive_dotDot isLetter (by decide) (by decide) (by decide) names closed
  have fewer : ((Root.drive letter).body others closed).length ≤
      1 + (others ++ Path.ending closed).length := by
    cases others with
    | nil =>
      rw [Root.body_nil_of_relative rfl, List.length_cons, List.nil_append]
      omega
    | cons next others =>
      rw [Root.body_cons]
      omega
  intro same
  have length := congrArg List.length same
  rw [normalSegments, again, normalSegments, form, result, List.length_map, List.length_map,
    Root.length_withSegments_drive letter (Root.body_ne_nil _ _ _), List.length_cons,
    List.length_cons] at length
  omega

/-- Globs without a misread drive, and only they, have normal forms that are their own. -/
theorem normalSegments_normalSegments_iff (unmarked : ∀ segment ∈ segments, shieldMark ∉ segment)
    (read : Root.ofSegments platform (guarded globstar segments) = (root, rest)) :
    normalSegments platform globstar (normalSegments platform globstar segments) =
        normalSegments platform globstar segments ↔
      ¬(platform = .windows ∧
        (root = .here ∧
            Path.BecomesDrive (Path.isClosed (guarded globstar segments)) (Path.resolve true rest) ∨
          globstar = true ∧ (∃ letter, root = .drive letter) ∧
            ∃ others, Path.resolve true rest = doubleStar :: shieldedParent :: others)) := by
  by_cases joins : globstar = true ∧ (∃ letter, root = .drive letter) ∧
      ∃ others, Path.resolve true rest = doubleStar :: shieldedParent :: others
  · obtain ⟨rfl, ⟨letter, rfl⟩, others, joined⟩ := joins
    cases platform with
    | windows =>
      refine iff_of_false (normalSegments_ne_of_joined unmarked read joined) (not_not.mpr ⟨rfl, ?_⟩)
      exact .inr ⟨rfl, ⟨letter, rfl⟩, others, joined⟩
    | posix =>
      have isRoot := Root.ofSegmentsPosix_eq (guarded true segments)
      rw [Root.ofSegments] at read
      rw [read] at isRoot
      exact absurd isRoot (by simp)
  · have apart : globstar = true → ∀ letter, root = .drive letter → ∀ others,
        Path.resolve true rest ≠ doubleStar :: shieldedParent :: others :=
      fun isOn letter isDrive others joined => joins ⟨isOn, ⟨letter, isDrive⟩, others, joined⟩
    rw [or_iff_left joins]
    have again := guarded_normalSegments unmarked read apart
    constructor
    · rintro same ⟨rfl, rfl, becomes⟩
      rw [normalSegments, again] at same
      exact normalSegments_ne_of_becomesDrive read becomes same
    · intro kept
      have same := Path.normalSegments_normalSegments read fun isWindows isHere becomes =>
        kept ⟨isWindows, isHere, becomes⟩
      rw [normalSegments, again, same]
      rfl

end Segments

section Globs

/-- Something in a Windows glob is read as part of a drive only once the glob is normal: a segment
comes to the front, or a `**` to the colon of a drive. -/
def MeetsDrive (platform : Platform) (globstar : Bool) (glob : List Char) : Prop :=
  let path := if globstar then shield platform glob else glob
  let (root, rest) := Root.split platform path
  let resolved := Path.resolve (!root.isAbsolute) (Path.segments platform rest)
  platform = .windows ∧
    (root = .here ∧ Path.BecomesDrive (path.getLast?.any platform.isSeparator) resolved ∨
      globstar = true ∧ (∃ letter, root = .drive letter) ∧
        ∃ others, resolved = doubleStar :: shieldedParent :: others)

private theorem segments_guarded (platform : Platform) (globstar : Bool) (glob : List Char) :
    Path.segments platform (if globstar then shield platform glob else glob) =
      guarded globstar (Path.segments platform glob) := by
  cases globstar with
  | true => exact segments_shield platform glob
  | false => rfl

private theorem normalForm_normalForm_iff_not_meetsDrive (unmarked : shieldMark ∉ glob) :
    normalForm platform globstar (normalForm platform globstar glob) =
        normalForm platform globstar glob ↔ ¬MeetsDrive platform globstar glob := by
  obtain ⟨⟨root, rest⟩, read⟩ : ∃ reading,
      Root.ofSegments platform (guarded globstar (Path.segments platform glob)) = reading := ⟨_, rfl⟩
  rw [normalForm_normalForm_iff unmarked,
    normalSegments_normalSegments_iff (shieldMark_not_mem_segments unmarked) read]
  unfold MeetsDrive
  dsimp only
  have cut := segments_guarded platform globstar glob
  generalize (if globstar then shield platform glob else glob) = path at cut
  obtain ⟨sameRoot, sameNames⟩ := Root.split_spec platform path
  rw [← Path.resolve_filter_ne_nil _ (Path.segments platform (Root.split platform path).2),
    ← Path.names, sameNames, Path.resolve_filter_ne_nil, sameRoot, ← Path.isClosed_segments, cut, read]
  -- Either root is relative, so `..` is kept there.
  refine not_congr (and_congr_right fun _ => or_congr (and_congr_right ?_)
    (and_congr_right fun _ => and_congr_right ?_))
  · rintro rfl
    rfl
  · rintro ⟨letter, rfl⟩
    rfl

theorem normalize_eq_ok_iff {glob result : String} :
    normalize platform globstar glob = .ok result ↔
      shieldMark ∉ glob.toList ∧ String.ofList (normalForm platform globstar glob.toList) = result := by
  unfold normalize
  by_cases marked : shieldMark ∈ glob.toList
  · simp [marked]
  · simp [marked]

/-- Normalizing is done in one step, but for globs that meet a drive. -/
theorem normalize_result_iff {glob result : String}
    (normal : normalize platform globstar glob = .ok result) :
    normalize platform globstar result = .ok result ↔ ¬MeetsDrive platform globstar glob.toList := by
  obtain ⟨unmarked, rfl⟩ := normalize_eq_ok_iff.mp normal
  rw [← normalForm_normalForm_iff_not_meetsDrive unmarked, normalize_eq_ok_iff, String.toList_ofList,
    String.ofList_inj]
  exact and_iff_right (shieldMark_not_mem_normalForm unmarked)

/-- Here a `..` that stands after `**` is taken for one again. -/
theorem normalize_result_shielded :
    normalize .windows true "./a//**/.." = .ok "a\\**\\.." ∧
      normalize .windows true "a\\**\\.." = .ok "a\\**\\.." := by
  have normal : normalize .windows true "./a//**/.." = .ok "a\\**\\.." := by decide
  refine ⟨normal, (normalize_result_iff normal).mpr ?_⟩
  rintro ⟨_, ⟨_, becomes⟩ | ⟨_, ⟨letter, isDrive⟩, _⟩⟩
  · have left : Path.resolve true (Path.segments .windows (shield .windows "./a//**/..".toList)) =
        [['a'], doubleStar, shieldedParent] := by decide
    change Path.BecomesDrive _ (Path.resolve true (Path.segments .windows (shield .windows _))) at becomes
    rw [left] at becomes
    cases becomes
  · have isHere : (Root.split .windows (shield .windows "./a//**/..".toList)).1 = .here := by decide
    exact absurd (isHere.symm.trans isDrive) (by simp)

/-- A `.` kept the last segment from being a drive. -/
theorem normalize_exposed_drive :
    normalize .windows false "./C:" = .ok "C:" ∧ normalize .windows false "C:" = .ok "C:." := by
  decide

end Globs

end PathGlob.Glob
