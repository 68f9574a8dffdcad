import PathGlob.Proofs.PathResolution
import PathGlob.Proofs.TextPieces

/-! # Reading a path by its segments

The root of a path is found on its text. Here it is found on the list of its segments instead, and
the normal form of a path becomes a function from segments to segments (`normalSegments`) between
cutting a text and writing it. What holds of normal forms can then be shown of lists of segments,
without a look at separators.
-/

namespace PathGlob.Path

/-- What is written behind the last segment where there is a separator: an empty segment. -/
def ending (closed : Bool) : List (List Char) :=
  if closed then [[]] else []

@[simp]
theorem ending_true : ending true = [[]] := rfl

@[simp]
theorem ending_false : ending false = [] := rfl

theorem eq_nil_of_mem_ending {closed : Bool} {segment : List Char} (isEnd : segment ∈ ending closed) :
    segment = [] := by
  cases closed with
  | true => exact List.mem_singleton.mp isEnd
  | false => cases isEnd

namespace Root

/-- The share named by two segments, where there may be empty ones between them, with the segments
after it. -/
def shareOfSegments? (server : List Char) (more : List (List Char)) :
    Option (Root × List (List Char)) :=
  match server, more.dropWhile List.isEmpty with
  | _ :: _, name :: others => some (share server name, others)
  | _, _ => none

/-- Whether a segment starts like a drive. -/
def namesDrive : List Char → Bool
  | letter :: ':' :: _ => letter.isAlpha
  | _ => false

theorem exists_of_namesDrive {segment : List Char} (isDrive : namesDrive segment = true) :
    ∃ letter name, segment = letter :: ':' :: name ∧ letter.isAlpha = true := by
  unfold namesDrive at isDrive
  split at isDrive
  · next letter name => exact ⟨letter, name, rfl, isDrive⟩
  · cases isDrive

def ofSegmentsWindows : List (List Char) → Root × List (List Char)
  | [] :: [] :: server :: more => (shareOfSegments? server more).getD (top, [] :: server :: more)
  | [] :: next :: others => (top, next :: others)
  | [letter, ':'] :: next :: others =>
    if letter.isAlpha then (driveTop letter, next :: others) else (here, [letter, ':'] :: next :: others)
  | (letter :: ':' :: name) :: others =>
    if letter.isAlpha then (drive letter, name :: others) else (here, (letter :: ':' :: name) :: others)
  | segments => (here, segments)

def ofSegmentsPosix : List (List Char) → Root × List (List Char)
  | [] :: next :: others => (top, next :: others)
  | segments => (here, segments)

def ofSegments : Platform → List (List Char) → Root × List (List Char)
  | .windows => ofSegmentsWindows
  | .posix => ofSegmentsPosix

/-- A root and the segments after it stand in the segments of a path. -/
inductive Reads : List (List Char) → Root → List (List Char) → Prop
  | here (segments : List (List Char)) : Reads segments here segments
  | top {rest : List (List Char)} (more : rest ≠ []) : Reads ([] :: rest) top rest
  | drive {letter : Char} (isLetter : letter.isAlpha = true) (first : List Char)
      (others : List (List Char)) :
      Reads ((letter :: ':' :: first) :: others) (drive letter) (first :: others)
  | driveTop {letter : Char} (isLetter : letter.isAlpha = true) {rest : List (List Char)}
      (more : rest ≠ []) : Reads ([letter, ':'] :: rest) (driveTop letter) rest
  | share {server name : List Char} (onServer : server ≠ []) (named : name ≠ [])
      {gap : List (List Char)} (empty : ∀ segment ∈ gap, segment = []) (rest : List (List Char)) :
      Reads ([] :: [] :: server :: (gap ++ name :: rest)) (share server name) rest

theorem Reads.isAlpha_drive {segments rest : List (List Char)} {letter : Char}
    (reads : Reads segments (.drive letter) rest) : letter.isAlpha = true := by
  cases reads with
  | drive isLetter => exact isLetter

theorem Reads.eq_of_here {segments rest : List (List Char)} (reads : Reads segments .here rest) :
    rest = segments := by
  cases reads with
  | here => rfl

def withSegments : Root → List (List Char) → List (List Char)
  | here, body => body
  | top, body => [] :: body
  | drive letter, [] => [[letter, ':']]
  | drive letter, first :: others => (letter :: ':' :: first) :: others
  | driveTop letter, body => [letter, ':'] :: body
  | share server name, body => [] :: [] :: server :: name :: body

/-- What is written after a root: the segments that are left, or a `.` if there are none and the root
is not a place of its own, and a separator at the end of a path that had one. -/
def body (root : Root) (resolved : List (List Char)) (closed : Bool) : List (List Char) :=
  if resolved = [] ∧ root.isAbsolute = true then [[]]
  else (if resolved = [] then [dot] else resolved) ++ ending closed

/-- A first segment with something in it that is no drive belongs to a path from the current
directory. -/
theorem ofSegments_of_not_namesDrive {platform : Platform} {first : List Char}
    (others : List (List Char)) (nonempty : first ≠ [])
    (noDrive : platform = .windows → namesDrive first = false) :
    ofSegments platform (first :: others) = (here, first :: others) := by
  cases platform with
  | posix =>
    cases first with
    | nil => exact absurd rfl nonempty
    | cons c name => rfl
  | windows =>
    rw [ofSegments]
    unfold ofSegmentsWindows
    split
    · next same => exact absurd (List.cons.inj same).1 nonempty
    · next same => exact absurd (List.cons.inj same).1 nonempty
    · next same =>
      obtain ⟨rfl, rfl⟩ := List.cons.inj same
      exact if_neg (Bool.eq_false_iff.mp (noDrive rfl))
    · next same =>
      obtain ⟨rfl, rfl⟩ := List.cons.inj same
      exact if_neg (Bool.eq_false_iff.mp (noDrive rfl))
    · rfl

/-- A first segment that starts like a drive is read as one. -/
theorem ofSegments_of_namesDrive {first : List Char} (isDrive : namesDrive first = true)
    (others : List (List Char)) :
    ∃ letter, letter.isAlpha = true ∧ ((ofSegments .windows (first :: others)).1 = drive letter ∨
      (ofSegments .windows (first :: others)).1 = driveTop letter) := by
  obtain ⟨letter, name, rfl, isLetter⟩ := exists_of_namesDrive isDrive
  refine ⟨letter, isLetter, ?_⟩
  rcases name with _ | ⟨c, name⟩
  · cases others with
    | nil => exact .inl (congrArg Prod.fst (if_pos isLetter))
    | cons next others => exact .inr (congrArg Prod.fst (if_pos isLetter))
  · exact .inl (congrArg Prod.fst (if_pos isLetter))

private theorem reads_ofSegmentsWindows (segments : List (List Char)) :
    Reads segments (ofSegmentsWindows segments).1 (ofSegmentsWindows segments).2 := by
  unfold ofSegmentsWindows
  split
  · next server more =>
    unfold shareOfSegments?
    split
    · next c server name others skipped =>
      have split := List.takeWhile_append_dropWhile (p := List.isEmpty) (l := more)
      have named : name ≠ [] := by
        have := List.head?_dropWhile_not List.isEmpty more
        rw [skipped] at this
        simpa using this
      have empty : ∀ segment ∈ more.takeWhile List.isEmpty, segment = [] := by
        intro segment isTaken
        simpa using List.mem_takeWhile_imp isTaken
      rw [skipped] at split
      rw [← split]
      exact .share (List.cons_ne_nil c server) named empty others
    · exact .top (List.cons_ne_nil _ _)
  · exact .top (List.cons_ne_nil _ _)
  · next letter next others =>
    cases isLetter : letter.isAlpha with
    | true => exact .driveTop isLetter (List.cons_ne_nil next others)
    | false => exact .here _
  · next letter name others _ =>
    cases isLetter : letter.isAlpha with
    | true => exact .drive isLetter name others
    | false => exact .here _
  · exact .here _

private theorem reads_ofSegmentsPosix (segments : List (List Char)) :
    Reads segments (ofSegmentsPosix segments).1 (ofSegmentsPosix segments).2 := by
  unfold ofSegmentsPosix
  split
  · exact .top (List.cons_ne_nil _ _)
  · exact .here _

theorem reads_ofSegments (platform : Platform) (segments : List (List Char)) :
    Reads segments (ofSegments platform segments).1 (ofSegments platform segments).2 := by
  cases platform with
  | windows => exact reads_ofSegmentsWindows segments
  | posix => exact reads_ofSegmentsPosix segments

theorem body_cons (root : Root) (first : List Char) (others : List (List Char)) (closed : Bool) :
    root.body (first :: others) closed = first :: others ++ ending closed := by
  simp [body]

theorem body_nil_of_relative {root : Root} (relative : root.isAbsolute = false) (closed : Bool) :
    root.body [] closed = dot :: ending closed := by
  simp [body, relative]

theorem body_ne_nil (root : Root) (resolved : List (List Char)) (closed : Bool) :
    root.body resolved closed ≠ [] := by
  unfold body
  split
  · exact List.cons_ne_nil _ _
  · apply List.append_ne_nil_of_left_ne_nil
    split
    · exact List.cons_ne_nil _ _
    · assumption

/-- The text of a root is what its segments are written as. -/
theorem ofSegments_withSegments (platform : Platform) (root : Root) {body : List (List Char)}
    (nonempty : body ≠ []) :
    Path.ofSegments platform (root.withSegments body) =
      root.text platform ++ Path.ofSegments platform body := by
  obtain ⟨first, others, rfl⟩ := List.exists_cons_of_ne_nil nonempty
  cases root with
  | here => rfl
  | top => rfl
  | drive letter =>
    cases others with
    | nil => rfl
    | cons next others => rfl
  | driveTop letter => rfl
  | share server name =>
    simp only [withSegments, text, Path.ofSegments]
    simp

section Split

variable {text server : List Char} {more : List (List Char)}

/-- The first segment goes up to the first separator. -/
theorem segments_eq_takeWhile (platform : Platform) (text : List Char) :
    segments platform text = text.takeWhile (!platform.isSeparator ·) ::
      match text.dropWhile (!platform.isSeparator ·) with
      | [] => []
      | _ :: rest => segments platform rest := by
  induction text with
  | nil => rfl
  | cons c text ih =>
    cases separates : platform.isSeparator c with
    | true =>
      rw [segments_cons_separator separates]
      simp [separates]
    | false =>
      obtain ⟨first, others, cut, cutAll⟩ := exists_segments_cons separates text
      rw [cut] at ih
      obtain ⟨rfl, rfl⟩ := List.cons.inj ih
      rw [cutAll]
      simp [separates]

/-- Empty segments in front come from separators in front. -/
theorem dropWhile_isEmpty_segments (platform : Platform) (text : List Char) :
    (segments platform text).dropWhile List.isEmpty =
      if text.dropWhile platform.isSeparator = [] then []
      else segments platform (text.dropWhile platform.isSeparator) := by
  induction text with
  | nil => rfl
  | cons c text ih =>
    cases separates : platform.isSeparator c with
    | true => simp [segments_cons_separator separates, separates, ih]
    | false =>
      obtain ⟨first, others, _, cut⟩ := exists_segments_cons separates text
      simp [cut, separates]

/-- A share is named in a text exactly if it is named in its segments, and what comes after it has
the same names. -/
theorem share?_spec (cut : segments .windows text = server :: more) :
    (share? text = none ∧ shareOfSegments? server more = none) ∨
      ∃ root rest others, share? text = some (root, rest) ∧
        shareOfSegments? server more = some (root, others) ∧
        names .windows rest = others.filter (· ≠ []) := by
  rw [segments_eq_takeWhile] at cut
  obtain ⟨rfl, rfl⟩ := List.cons.inj cut
  unfold share? shareOfSegments?
  dsimp only
  generalize text.takeWhile (!Platform.windows.isSeparator ·) = server
  cases server with
  | nil => exact .inl ⟨by simp, rfl⟩
  | cons c server =>
    have parts := List.head?_dropWhile_not (!Platform.windows.isSeparator ·) text
    generalize text.dropWhile (!Platform.windows.isSeparator ·) = behind at parts ⊢
    rcases behind with _ | ⟨s, behind⟩
    · exact .inl ⟨by simp, rfl⟩
    · have separates : Platform.windows.isSeparator s = true := by simpa using parts
      dsimp only
      rw [List.dropWhile_cons_of_pos separates, dropWhile_isEmpty_segments]
      have starts := List.head?_dropWhile_not Platform.windows.isSeparator behind
      generalize behind.dropWhile Platform.windows.isSeparator = behind at starts ⊢
      rcases behind with _ | ⟨d, name⟩
      · exact .inl ⟨by simp, rfl⟩
      · have joined : Platform.windows.isSeparator d = false := starts
        rw [if_neg (List.cons_ne_nil d name), segments_eq_takeWhile]
        have named : (d :: name).takeWhile (!Platform.windows.isSeparator ·) ≠ [] := by
          simp [joined]
        refine .inr ⟨_, _, _, if_pos ⟨List.cons_ne_nil c server, named⟩, rfl, ?_⟩
        have ends := List.head?_dropWhile_not (!Platform.windows.isSeparator ·) (d :: name)
        generalize (d :: name).dropWhile (!Platform.windows.isSeparator ·) = behind at ends ⊢
        rcases behind with _ | ⟨t, rest⟩
        · rfl
        · exact names_cons_separator (by simpa using ends) rest

theorem splitWindows_cons_cons_of_separator {c : Char}
    (separates : Platform.windows.isSeparator c = true)
    (d : Char) (rest : List Char) :
    splitWindows (c :: d :: rest) =
      (if Platform.windows.isSeparator d then share? rest else none).getD (top, d :: rest) :=
  if_pos separates

theorem splitWindows_of_drive {letter : Char} (isLetter : letter.isAlpha = true)
    (separates : Platform.windows.isSeparator letter = false) (rest : List Char) :
    splitWindows (letter :: ':' :: rest) =
      if rest.head?.any Platform.windows.isSeparator then (driveTop letter, rest.tail)
      else (drive letter, rest) := by
  simp [splitWindows, separates, isLetter]

theorem splitWindows_of_here {c : Char} (separates : Platform.windows.isSeparator c = false)
    {rest : List Char} (noDrive : ¬(c.isAlpha = true ∧ rest.head? = some ':')) :
    splitWindows (c :: rest) = (here, c :: rest) := by
  rcases rest with _ | ⟨d, rest⟩
  · simp [splitWindows, separates]
  · have : ¬(c.isAlpha = true ∧ d = ':') := by simpa using noDrive
    simp [splitWindows, separates, this]

/-- A path that starts with a separator names a share or starts from the top. -/
theorem splitWindows_spec_of_separator {c : Char} (separates : Platform.windows.isSeparator c = true)
    (rest : List Char) :
    (splitWindows (c :: rest)).1 = (ofSegmentsWindows ([] :: segments .windows rest)).1 ∧
      names .windows (splitWindows (c :: rest)).2 =
        (ofSegmentsWindows ([] :: segments .windows rest)).2.filter (· ≠ []) := by
  rcases rest with _ | ⟨d, rest⟩
  · have top : splitWindows [c] = (top, []) := if_pos separates
    rw [top]
    exact ⟨rfl, rfl⟩
  · rw [splitWindows_cons_cons_of_separator separates]
    cases joined : Platform.windows.isSeparator d with
    | true =>
      obtain ⟨server, more, cut⟩ := List.exists_cons_of_ne_nil (segments_ne_nil .windows rest)
      rw [segments_cons_separator joined, cut, ofSegmentsWindows, if_pos rfl]
      rcases share?_spec cut with ⟨unread, unnamed⟩ | ⟨root, left, others, read, named, same⟩
      · rw [unread, unnamed, Option.getD_none, Option.getD_none, ← cut,
          names_cons_separator joined, List.filter_cons_of_neg (by simp)]
        exact ⟨rfl, rfl⟩
      · rw [read, named]
        exact ⟨rfl, same⟩
    | false =>
      obtain ⟨first, others, _, cut⟩ := exists_segments_cons joined rest
      rw [if_neg Bool.false_ne_true, Option.getD_none, names, cut]
      exact ⟨rfl, rfl⟩

private theorem notSeparator_colon : Platform.windows.isSeparator ':' = false := rfl

/-- A path that starts with a letter and a colon starts from a drive. -/
theorem splitWindows_spec_of_drive {letter : Char} (isLetter : letter.isAlpha = true)
    (separates : Platform.windows.isSeparator letter = false) (rest : List Char) :
    (splitWindows (letter :: ':' :: rest)).1 =
        (ofSegmentsWindows (segments .windows (letter :: ':' :: rest))).1 ∧
      names .windows (splitWindows (letter :: ':' :: rest)).2 =
        (ofSegmentsWindows (segments .windows (letter :: ':' :: rest))).2.filter (· ≠ []) := by
  obtain ⟨first, others, cut, cutColon⟩ := exists_segments_cons notSeparator_colon rest
  obtain ⟨_, _, cutColon', cutLetter⟩ := exists_segments_cons separates (':' :: rest)
  obtain ⟨rfl, rfl⟩ := List.cons.inj (cutColon'.symm.trans cutColon)
  rw [splitWindows_of_drive isLetter separates, cutLetter]
  rcases rest with _ | ⟨s, rest⟩
  · obtain ⟨rfl, rfl⟩ := List.cons.inj cut
    simp [ofSegmentsWindows, isLetter, names_nil]
  · rw [List.head?_cons, Option.any_some]
    cases parts : Platform.windows.isSeparator s with
    | true =>
      rw [segments_cons_separator parts] at cut
      obtain ⟨rfl, rfl⟩ := List.cons.inj cut
      obtain ⟨next, more, cutRest⟩ := List.exists_cons_of_ne_nil (segments_ne_nil .windows rest)
      rw [if_pos rfl, List.tail_cons, names, cutRest]
      simp [ofSegmentsWindows, isLetter]
    | false =>
      obtain ⟨name, more, _, cut'⟩ := exists_segments_cons parts rest
      obtain ⟨rfl, rfl⟩ := List.cons.inj (cut'.symm.trans cut)
      rw [if_neg Bool.false_ne_true, names, cut']
      simp [ofSegmentsWindows, isLetter]

/-- Any other path starts from the current directory. -/
theorem splitWindows_spec_of_here {c : Char} (separates : Platform.windows.isSeparator c = false)
    {rest : List Char} (noDrive : ¬(c.isAlpha = true ∧ rest.head? = some ':')) :
    (splitWindows (c :: rest)).1 = (ofSegmentsWindows (segments .windows (c :: rest))).1 ∧
      names .windows (splitWindows (c :: rest)).2 =
        (ofSegmentsWindows (segments .windows (c :: rest))).2.filter (· ≠ []) := by
  obtain ⟨first, others, cut, cutAll⟩ := exists_segments_cons separates rest
  have notDrive : namesDrive (c :: first) = false := by
    unfold namesDrive
    split
    · next letter name same =>
      obtain ⟨rfl, rfl⟩ := List.cons.inj same
      have colon := head?_of_segments_eq_cons cut
      exact Bool.eq_false_iff.mpr fun isLetter => noDrive ⟨isLetter, colon⟩
    · rfl
  have same : ofSegments .windows ((c :: first) :: others) = (here, (c :: first) :: others) :=
    ofSegments_of_not_namesDrive others (List.cons_ne_nil c first) fun _ => notDrive
  rw [ofSegments] at same
  rw [splitWindows_of_here separates noDrive, cutAll, same, names, cutAll]
  exact ⟨rfl, rfl⟩

private theorem splitWindows_spec (path : List Char) :
    (splitWindows path).1 = (ofSegmentsWindows (segments .windows path)).1 ∧
      names .windows (splitWindows path).2 =
        (ofSegmentsWindows (segments .windows path)).2.filter (· ≠ []) := by
  rcases path with _ | ⟨c, rest⟩
  · exact ⟨rfl, rfl⟩
  · cases separates : Platform.windows.isSeparator c with
    | true =>
      rw [segments_cons_separator separates]
      exact splitWindows_spec_of_separator separates rest
    | false =>
      by_cases isDrive : c.isAlpha = true ∧ rest.head? = some ':'
      · obtain ⟨isLetter, colon⟩ := isDrive
        obtain ⟨rest, rfl⟩ := List.head?_eq_some_iff.mp colon
        exact splitWindows_spec_of_drive isLetter separates rest
      · exact splitWindows_spec_of_here separates isDrive

private theorem splitPosix_spec (path : List Char) :
    (splitPosix path).1 = (ofSegmentsPosix (segments .posix path)).1 ∧
      names .posix (splitPosix path).2 =
        (ofSegmentsPosix (segments .posix path)).2.filter (· ≠ []) := by
  rcases path with _ | ⟨c, rest⟩
  · exact ⟨rfl, rfl⟩
  · cases separates : Platform.posix.isSeparator c with
    | true =>
      obtain rfl : c = '/' := by simpa [Platform.isSeparator, Platform.separators] using separates
      obtain ⟨next, more, cut⟩ := List.exists_cons_of_ne_nil (segments_ne_nil .posix rest)
      rw [segments_cons_separator separates, cut, splitPosix, names, cut]
      exact ⟨rfl, rfl⟩
    | false =>
      obtain ⟨first, others, _, cut⟩ := exists_segments_cons separates rest
      have split : splitPosix (c :: rest) = (here, c :: rest) := by
        unfold splitPosix
        split
        · next same =>
          obtain ⟨rfl, _⟩ := List.cons.inj same
          exact absurd separates (by decide)
        · rfl
      rw [split, names, cut]
      exact ⟨rfl, rfl⟩

/-- The root of a path is the root of its segments, and what comes after it has the same names. -/
theorem split_spec (platform : Platform) (path : List Char) :
    (split platform path).1 = (ofSegments platform (segments platform path)).1 ∧
      names platform (split platform path).2 =
        (ofSegments platform (segments platform path)).2.filter (· ≠ []) := by
  cases platform with
  | windows => exact splitWindows_spec path
  | posix => exact splitPosix_spec path

end Split

end Root

/-- Whether the last of some segments is empty, as after a separator. -/
def isClosed (segments : List (List Char)) : Bool :=
  segments.getLast? = some [] ∧ segments ≠ [[]]

/-- The segments of a normal form, made from the segments of a path. -/
def normalSegments (platform : Platform) (segments : List (List Char)) : List (List Char) :=
  let (root, rest) := Root.ofSegments platform segments
  root.withSegments (root.body (resolve (!root.isAbsolute) rest) (isClosed segments))

variable {platform : Platform}

/-- The segments of a path tell whether the path ends with a separator. -/
theorem isClosed_segments (platform : Platform) (path : List Char) :
    isClosed (segments platform path) = path.getLast?.any platform.isSeparator := by
  rw [Bool.eq_iff_iff, isClosed, decide_eq_true_iff, getLast?_segments_eq_nil_iff, ne_eq,
    segments_eq_singleton_nil_iff]
  constructor
  · rintro ⟨empty | last, nonempty⟩
    · exact absurd empty nonempty
    · exact last
  · intro last
    refine ⟨.inr last, ?_⟩
    rintro rfl
    cases last

/-- What is written after a root, as a text. -/
theorem ofSegments_body (platform : Platform) (root : Root) {resolved : List (List Char)}
    (nonempty : ∀ segment ∈ resolved, segment ≠ []) (closed : Bool) :
    ofSegments platform (root.body resolved closed) =
      let tail := if ofSegments platform resolved = [] ∧ root.isAbsolute = false then dot
        else ofSegments platform resolved
      tail ++ if tail ≠ [] ∧ closed = true then [platform.separator] else [] := by
  unfold Root.body
  by_cases nothing : resolved = []
  · subst nothing
    cases absolute : root.isAbsolute with
    | true => simp [ofSegments]
    | false => cases closed <;> simp [ofSegments, dot]
  · have something : ofSegments platform resolved ≠ [] := ofSegments_ne_nil nothing nonempty
    have tail : (if ofSegments platform resolved = [] ∧ root.isAbsolute = false then dot
        else ofSegments platform resolved) = ofSegments platform resolved :=
      if_neg fun both => something both.1
    rw [if_neg (fun both => nothing both.1), if_neg nothing, tail]
    cases closed with
    | true => simp [ofSegments_append platform nothing (List.cons_ne_nil [] []), something, ofSegments]
    | false => simp

/-- The normal form of a path is written from the segments made of its segments. -/
theorem normalForm_eq (platform : Platform) (path : List Char) :
    normalForm platform path = ofSegments platform (normalSegments platform (segments platform path)) := by
  obtain ⟨sameRoot, sameNames⟩ := Root.split_spec platform path
  unfold normalForm normalSegments
  dsimp only
  rw [← resolve_filter_ne_nil _ (segments platform (Root.split platform path).2), ← names, sameNames,
    resolve_filter_ne_nil, ← sameRoot, Root.ofSegments_withSegments platform _ (Root.body_ne_nil _ _ _),
    ofSegments_body platform _ (fun segment => ne_nil_of_mem_resolve), isClosed_segments,
    List.append_assoc]

/-- A normal form is written with the root and the segments that are left. -/
theorem normalForm_of_split {path rest : List Char} {root : Root}
    (found : Root.split platform path = (root, rest)) :
    let left := resolve (!root.isAbsolute) (segments platform rest)
    let shown := if left = [] ∧ root.isAbsolute = false then [dot] else left
    normalForm platform path = root.text platform ++ ofSegments platform shown ++
      if shown ≠ [] ∧ path.getLast?.any platform.isSeparator then [platform.separator] else [] := by
  dsimp only
  unfold normalForm
  rw [found]
  dsimp only
  have nonempty : ∀ segment ∈ resolve (!root.isAbsolute) (segments platform rest), segment ≠ [] :=
    fun segment => ne_nil_of_mem_resolve
  generalize resolve (!root.isAbsolute) (segments platform rest) = left at nonempty ⊢
  by_cases nothing : left = []
  · subst nothing
    cases root.isAbsolute with
    | true => simp [ofSegments]
    | false => simp [ofSegments, dot]
  · simp [nothing, ofSegments_ne_nil nothing nonempty]

end PathGlob.Path
