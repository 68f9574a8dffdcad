import PathGlob.Proofs.CancelledSegments
import PathGlob.Proofs.NormalPath

/-! # What a Windows path is made of

The root of a Windows path is found by going along its characters. Here it is given by a grammar: a
share with its server, a separator, a drive with or without a separator, or nothing. The normal form
of a path is its root and what is left when the segments after the root have cancelled.

Read again, a normal form has the same root, but for one thing: segments that say nothing or cancel
may be all that keeps a name from being read as a drive.
-/

namespace PathGlob.Path

variable {path rest text front back server name : List Char} {root : Root}

/-- A name in a Windows path. -/
def IsName (text : List Char) : Prop :=
  text ≠ [] ∧ ∀ c ∈ text, Platform.windows.isSeparator c = false

/-- One or more separators in a Windows path. -/
def AreSeparators (text : List Char) : Prop :=
  text ≠ [] ∧ ∀ c ∈ text, Platform.windows.isSeparator c = true

/-- A text goes on with a server, separators and a share, whose name ends where the text does or at
the next separator. -/
inductive GoesOnWithShare : List Char → List Char → List Char → List Char → Prop
  | intro {server gap name rest : List Char} (onServer : IsName server) (apart : AreSeparators gap)
      (named : IsName name) (ends : rest.head?.all Platform.windows.isSeparator = true) :
      GoesOnWithShare (server ++ (gap ++ (name ++ rest))) server name rest

/-- What a Windows path starts from, and the text after it. -/
inductive StartsFrom : List Char → Root → List Char → Prop
  | share {c d : Char} {text server name rest : List Char}
      (first : Platform.windows.isSeparator c = true) (second : Platform.windows.isSeparator d = true)
      (shared : GoesOnWithShare text server name rest) :
      StartsFrom (c :: d :: text) (.share server name) rest
  | top {c : Char} {rest : List Char} (first : Platform.windows.isSeparator c = true)
      (unshared : ∀ d text, rest = d :: text → Platform.windows.isSeparator d = true →
        ∀ server name left, ¬GoesOnWithShare text server name left) :
      StartsFrom (c :: rest) .top rest
  | driveTop {letter c : Char} (isLetter : letter.isAlpha = true)
      (separates : Platform.windows.isSeparator c = true) (rest : List Char) :
      StartsFrom (letter :: ':' :: c :: rest) (.driveTop letter) rest
  | drive {letter : Char} {rest : List Char} (isLetter : letter.isAlpha = true)
      (apart : rest.head?.any Platform.windows.isSeparator = false) :
      StartsFrom (letter :: ':' :: rest) (.drive letter) rest
  | here {path : List Char} (apart : path.head?.any Platform.windows.isSeparator = false)
      (noDrive : ∀ letter rest, path = letter :: ':' :: rest → letter.isAlpha = false) :
      StartsFrom path .here path

/-- What a Windows path is normalized to: its root, what is left of the segments after it, or a `.` if
nothing is left and the root is not a place of its own, and a separator behind these if the path ends
with one. -/
def NormalizesTo (path result : List Char) : Prop :=
  ∃ root rest left, StartsFrom path root rest ∧
    Resolves (!root.isAbsolute) (segments .windows rest) left ∧
    let shown := if left = [] ∧ root.isAbsolute = false then [dot] else left
    result = root.text .windows ++ ofSegments .windows shown ++
      if shown ≠ [] ∧ path.getLast?.any Platform.windows.isSeparator then [Platform.windows.separator]
      else []

section Shares

private theorem takeWhile_append_of_ends {p : Char → Bool} (each : ∀ c ∈ front, p c = true)
    (ends : back.head?.any p = false) :
    (front ++ back).takeWhile p = front ∧ (front ++ back).dropWhile p = back := by
  rw [List.takeWhile_append_of_pos each, List.dropWhile_append_of_pos each]
  cases back with
  | nil => simp
  | cons c back =>
    have stops : p c = false := ends
    simp [stops]

private theorem isName_takeWhile (nonempty : text.takeWhile (!Platform.windows.isSeparator ·) ≠ []) :
    IsName (text.takeWhile (!Platform.windows.isSeparator ·)) :=
  ⟨nonempty, fun c inName => by simpa using List.mem_takeWhile_imp inName⟩

private theorem head?_dropWhile_isName (text : List Char) :
    (text.dropWhile (!Platform.windows.isSeparator ·)).head?.all Platform.windows.isSeparator =
      true := by
  have stops := List.head?_dropWhile_not (!Platform.windows.isSeparator ·) text
  cases behind : (text.dropWhile (!Platform.windows.isSeparator ·)).head? with
  | none => rfl
  | some c =>
    rw [behind] at stops
    simpa using stops

/-- Where something follows a name, it starts with separators. -/
theorem areSeparators_takeWhile (ends : rest.head?.all Platform.windows.isSeparator = true)
    (more : rest ≠ []) : AreSeparators (rest.takeWhile Platform.windows.isSeparator) := by
  obtain ⟨c, rest, rfl⟩ := List.exists_cons_of_ne_nil more
  have separates : Platform.windows.isSeparator c = true := ends
  refine ⟨?_, fun d isTaken => List.mem_takeWhile_imp isTaken⟩
  rw [List.takeWhile_cons_of_pos separates]
  exact List.cons_ne_nil _ _

private theorem GoesOnWithShare.share?_eq (shared : GoesOnWithShare text server name rest) :
    Root.share? text = some (.share server name, rest) := by
  obtain @⟨server, gap, name, rest, onServer, apart, named, ends⟩ := shared
  have serverPart : (server ++ (gap ++ (name ++ rest))).takeWhile (!Platform.windows.isSeparator ·) =
        server ∧
      (server ++ (gap ++ (name ++ rest))).dropWhile (!Platform.windows.isSeparator ·) =
        gap ++ (name ++ rest) := by
    refine takeWhile_append_of_ends (by simpa using onServer.2) ?_
    obtain ⟨c, gap, rfl⟩ := List.exists_cons_of_ne_nil apart.1
    simpa using apart.2 c List.mem_cons_self
  have gapPart : (gap ++ (name ++ rest)).dropWhile Platform.windows.isSeparator = name ++ rest := by
    refine (takeWhile_append_of_ends apart.2 ?_).2
    obtain ⟨c, name, rfl⟩ := List.exists_cons_of_ne_nil named.1
    exact named.2 c List.mem_cons_self
  have namePart : (name ++ rest).takeWhile (!Platform.windows.isSeparator ·) = name ∧
      (name ++ rest).dropWhile (!Platform.windows.isSeparator ·) = rest := by
    refine takeWhile_append_of_ends (by simpa using named.2) ?_
    cases rest with
    | nil => rfl
    | cons c rest => simpa using ends
  unfold Root.share?
  dsimp only
  rw [serverPart.1, serverPart.2, gapPart, namePart.1, namePart.2, if_pos ⟨onServer.1, named.1⟩]

/-- A share is found only where the text goes on with one. -/
theorem exists_goesOnWithShare (found : Root.share? text = some (root, rest)) :
    ∃ server name, root = .share server name ∧ GoesOnWithShare text server name rest := by
  unfold Root.share? at found
  dsimp only at found
  split_ifs at found with both
  obtain ⟨onServer, named⟩ := both
  cases found
  refine ⟨_, _, rfl, ?_⟩
  have more : text.dropWhile (!Platform.windows.isSeparator ·) ≠ [] := by
    intro nothing
    rw [nothing] at named
    exact named rfl
  have written := GoesOnWithShare.intro (isName_takeWhile onServer)
    (areSeparators_takeWhile (head?_dropWhile_isName text) more) (isName_takeWhile named)
    (head?_dropWhile_isName ((text.dropWhile (!Platform.windows.isSeparator ·)).dropWhile
      Platform.windows.isSeparator))
  rwa [List.takeWhile_append_dropWhile, List.takeWhile_append_dropWhile,
    List.takeWhile_append_dropWhile] at written

end Shares

section Roots

private theorem isSeparator_of_isAlpha {letter : Char} (isLetter : letter.isAlpha = true) :
    Platform.windows.isSeparator letter = false := by
  cases separates : Platform.windows.isSeparator letter with
  | false => rfl
  | true =>
    have : letter = '\\' ∨ letter = '/' := by
      simpa [Platform.isSeparator, Platform.separators] using separates
    rcases this with rfl | rfl <;> cases isLetter

/-- What a path starts from is found by going along it. -/
theorem StartsFrom.split_eq (starts : StartsFrom path root rest) :
    Root.split .windows path = (root, rest) := by
  rw [Root.split]
  cases starts with
  | share first second shared =>
    rw [Root.splitWindows_cons_cons_of_separator first, if_pos second, shared.share?_eq,
      Option.getD_some]
  | top first unshared =>
    rcases rest with _ | ⟨d, text⟩
    · exact if_pos first
    · rw [Root.splitWindows_cons_cons_of_separator first]
      split_ifs with second
      · have notFound : Root.share? text = none := by
          refine Option.eq_none_iff_forall_ne_some.mpr fun ⟨root, left⟩ found => ?_
          obtain ⟨server, name, _, shared⟩ := exists_goesOnWithShare found
          exact unshared d text rfl second server name left shared
        rw [notFound, Option.getD_none]
      · rfl
  | driveTop isLetter separates rest =>
    rw [Root.splitWindows_of_drive isLetter (isSeparator_of_isAlpha isLetter)]
    exact if_pos separates
  | drive isLetter apart =>
    rw [Root.splitWindows_of_drive isLetter (isSeparator_of_isAlpha isLetter), apart]
    rfl
  | here apart noDrive =>
    rcases path with _ | ⟨c, path⟩
    · rfl
    · refine Root.splitWindows_of_here apart ?_
      rintro ⟨isLetter, colon⟩
      obtain ⟨name, rfl⟩ := List.head?_eq_some_iff.mp colon
      exact absurd (noDrive c name rfl) (by simp [isLetter])

/-- What is found by going along a path is what it starts from. -/
theorem startsFrom_split (path : List Char) :
    StartsFrom path (Root.split .windows path).1 (Root.split .windows path).2 := by
  rw [Root.split]
  rcases path with _ | ⟨c, path⟩
  · exact .here rfl (by simp)
  · cases first : Platform.windows.isSeparator c with
    | true =>
      rcases path with _ | ⟨d, text⟩
      · have alone : Root.splitWindows [c] = (.top, []) := if_pos first
        rw [alone]
        exact .top first (by simp)
      · rw [Root.splitWindows_cons_cons_of_separator first]
        cases found : if Platform.windows.isSeparator d then Root.share? text else none with
        | none =>
          refine .top first fun d' text' same second server name left shared => ?_
          obtain ⟨rfl, rfl⟩ := List.cons.inj same
          rw [if_pos second, shared.share?_eq] at found
          cases found
        | some reading =>
          obtain ⟨root, rest⟩ := reading
          obtain ⟨second, found⟩ : Platform.windows.isSeparator d = true ∧
              Root.share? text = some (root, rest) := by simpa using found
          obtain ⟨server, name, rfl, shared⟩ := exists_goesOnWithShare found
          exact .share first second shared
    | false =>
      by_cases isDrive : c.isAlpha = true ∧ path.head? = some ':'
      · obtain ⟨isLetter, colon⟩ := isDrive
        obtain ⟨rest, rfl⟩ := List.head?_eq_some_iff.mp colon
        rw [Root.splitWindows_of_drive isLetter first]
        split_ifs with separates
        · rcases rest with _ | ⟨s, rest⟩
          · cases separates
          · exact .driveTop isLetter separates rest
        · exact .drive isLetter (Bool.eq_false_iff.mpr separates)
      · rw [Root.splitWindows_of_here first isDrive]
        refine .here first fun letter rest same => ?_
        obtain ⟨rfl, rfl⟩ := List.cons.inj same
        exact Bool.eq_false_iff.mpr fun isLetter => isDrive ⟨isLetter, rfl⟩

/-- The grammar tells exactly the root that is found on a path, and the text after it. -/
theorem startsFrom_iff : StartsFrom path root rest ↔ Root.split .windows path = (root, rest) := by
  refine ⟨StartsFrom.split_eq, fun found => ?_⟩
  have starts := startsFrom_split path
  rwa [found] at starts

end Roots

section Normal

variable {platform : Platform}

theorem normalizesTo_iff {result : List Char} :
    NormalizesTo path result ↔ normalForm .windows path = result := by
  constructor
  · rintro ⟨root, rest, left, starts, resolves, rfl⟩
    rw [resolves_iff] at resolves
    rw [normalForm_of_split (startsFrom_iff.mp starts), resolves]
  · rintro rfl
    refine ⟨_, _, _, startsFrom_iff.mpr rfl, resolves_iff.mpr rfl, ?_⟩
    exact normalForm_of_split rfl

/-- All separators of a normal form are the one that normal paths are written with. -/
theorem eq_separator_of_mem_normalForm {c : Char} (isWritten : c ∈ normalForm platform path)
    (separates : platform.isSeparator c = true) : c = platform.separator := by
  rw [normalForm_eq] at isWritten
  rcases mem_of_mem_ofSegments isWritten with same | ⟨segment, isSegment, inSegment⟩
  · exact same
  · have dots : platform.isSeparator '.' = false := by cases platform <;> rfl
    have inside : platform.isSeparator c = false :=
      forall_mem_normalSegments dots
        (fun segment isSegment c inSegment => isSeparator_of_mem_segments isSegment inSegment)
        segment isSegment c inSegment
    rw [separates] at inside
    cases inside

end Normal

/-- A Windows path is normalized to its root and what is left of the segments after it, and to
nothing else. No slash is left. -/
theorem normalize_windows_iff (path : String) :
    (∀ result : String,
        normalize .windows path = result ↔ NormalizesTo path.toList result.toList) ∧
      '/' ∉ (normalize .windows path).toList := by
  have written : (normalize .windows path).toList = normalForm .windows path.toList :=
    String.toList_ofList
  constructor
  · intro result
    rw [normalizesTo_iff, ← written, String.toList_inj]
  · rw [written]
    intro isWritten
    exact absurd (eq_separator_of_mem_normalForm isWritten rfl) (by decide)

-- With a second name there is a share, and nothing is above it; with one name there is none.
example : normalize .windows "\\\\host//disk/../x\\" = "\\\\host\\disk\\x\\" ∧
    normalize .windows "\\\\host//" = "\\host\\" := by
  decide

section KeptRoots

/-- A path from the current directory comes to start like a drive once its segments are resolved. -/
def GainsDrive (path : List Char) : Prop :=
  (Root.split .windows path).1 = .here ∧
    ∃ first, (resolve true (segments .windows path)).head? = some first ∧ Root.namesDrive first = true

private theorem ofSegments_eq_of_here (isHere : (Root.split .windows path).1 = .here) :
    Root.ofSegments .windows (segments .windows path) = (.here, segments .windows path) := by
  have reads := Root.reads_ofSegments .windows (segments .windows path)
  rw [(Root.split_spec .windows path).1] at isHere
  rw [isHere] at reads
  exact Prod.ext isHere reads.eq_of_here

/-- What comes to start like a drive is read with that drive. -/
theorem GainsDrive.split_normalForm (gains : GainsDrive path) :
    ∃ letter, letter.isAlpha = true ∧
      ((Root.split .windows (normalForm .windows path)).1 = .drive letter ∨
        (Root.split .windows (normalForm .windows path)).1 = .driveTop letter) := by
  obtain ⟨isHere, first, isFirst, isDrive⟩ := gains
  obtain ⟨more, split⟩ := List.head?_eq_some_iff.mp isFirst
  have left : resolve (!Root.here.isAbsolute) (segments .windows path) = first :: more := split
  rw [(Root.split_spec .windows _).1, segments_normalForm_of_read (ofSegments_eq_of_here isHere), left,
    Root.body_cons]
  exact Root.ofSegments_of_namesDrive isDrive _

/-- A path that does not come to start like a drive keeps its root. -/
theorem split_normalForm_of_not_gainsDrive (kept : ¬GainsDrive path) :
    (Root.split .windows (normalForm .windows path)).1 = (Root.split .windows path).1 := by
  obtain ⟨root, rest, read⟩ := exists_read .windows path
  have known : (Root.split .windows path).1 = root := by rw [(Root.split_spec .windows path).1, read]
  rw [(Root.split_spec .windows _).1, ofSegments_segments_normalForm read, known]
  rintro - rfl first isFirst
  cases read.symm.trans (ofSegments_eq_of_here known)
  exact Bool.eq_false_iff.mpr fun isDrive => kept ⟨known, first, isFirst, isDrive⟩

end KeptRoots

/-- A Windows path and its normal form have the same root, with the same drive or the same server and
share, exactly if the path does not come to start like a drive. Then it is a path from the current
directory, and its normal form is one on that drive. -/
theorem split_normalize_windows_iff (path : String) :
    ((Root.split .windows (normalize .windows path).toList).1 = (Root.split .windows path.toList).1 ↔
        ¬GainsDrive path.toList) ∧
      (GainsDrive path.toList → ∃ letter, letter.isAlpha = true ∧
        ((Root.split .windows (normalize .windows path).toList).1 = .drive letter ∨
          (Root.split .windows (normalize .windows path).toList).1 = .driveTop letter)) := by
  have written : (normalize .windows path).toList = normalForm .windows path.toList :=
    String.toList_ofList
  rw [written]
  refine ⟨⟨?_, split_normalForm_of_not_gainsDrive⟩, GainsDrive.split_normalForm⟩
  intro same gains
  obtain ⟨letter, _, onDrive⟩ := gains.split_normalForm
  rw [same, gains.1] at onDrive
  rcases onDrive with impossible | impossible <;> cases impossible

/-- Without the `.` in front, what follows is read as a drive. -/
theorem normalize_gains_drive :
    (Root.split .windows ".\\C:\\x".toList).1 = .here ∧
      normalize .windows ".\\C:\\x" = "C:\\x" ∧
      (Root.split .windows "C:\\x".toList).1 = .driveTop 'C' := by
  decide

end PathGlob.Path
