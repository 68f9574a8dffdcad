import PathGlob.Proofs.PathReading

/-! # Normal forms of paths, read again

A normal form is mostly read as it was written: with the same root and the same segments after it.
The exception is a path from the current directory whose first segment starts like a drive; it comes
to the front of the path only when the segments before it are resolved.
-/

namespace PathGlob.Path

variable {platform : Platform} {parts rest resolved body : List (List Char)} {root : Root}
  {closed : Bool}

section Characters

variable {holds : Char → Prop}

theorem Root.Reads.forall_mem_rest (reads : Root.Reads parts root rest)
    (each : ∀ segment ∈ parts, ∀ c ∈ segment, holds c) :
    ∀ segment ∈ rest, ∀ c ∈ segment, holds c := by
  cases reads with
  | here => exact each
  | top | driveTop => exact (List.forall_mem_cons.mp each).2
  | drive _ first others =>
    obtain ⟨inFirst, inOthers⟩ := List.forall_mem_cons.mp each
    refine List.forall_mem_cons.mpr ⟨?_, inOthers⟩
    exact fun c inName => inFirst c (List.mem_cons_of_mem _ (List.mem_cons_of_mem _ inName))
  | share _ _ _ rest =>
    exact fun segment isAfter => each segment (by simp [isAfter])

private theorem Root.Reads.forall_mem_withSegments (reads : Root.Reads parts root rest)
    (each : ∀ segment ∈ parts, ∀ c ∈ segment, holds c)
    (inBody : ∀ segment ∈ body, ∀ c ∈ segment, holds c) :
    ∀ segment ∈ root.withSegments body, ∀ c ∈ segment, holds c := by
  cases reads with
  | here => exact inBody
  | top => exact List.forall_mem_cons.mpr ⟨by simp, inBody⟩
  | @drive letter _ first others =>
    have inFirst : ∀ c ∈ [letter, ':'] ++ first, holds c := (List.forall_mem_cons.mp each).1
    have inLetter := (List.forall_mem_append.mp inFirst).1
    cases body with
    | nil => exact List.forall_mem_singleton.mpr inLetter
    | cons name body =>
      obtain ⟨inName, inBody⟩ := List.forall_mem_cons.mp inBody
      refine List.forall_mem_cons.mpr ⟨?_, inBody⟩
      exact List.forall_mem_append.mpr ⟨inLetter, inName⟩
  | driveTop => exact List.forall_mem_cons.mpr ⟨(List.forall_mem_cons.mp each).1, inBody⟩
  | share =>
    refine List.forall_mem_cons.mpr ⟨by simp, List.forall_mem_cons.mpr ⟨by simp, ?_⟩⟩
    refine List.forall_mem_cons.mpr ⟨each _ (by simp), List.forall_mem_cons.mpr ⟨?_, inBody⟩⟩
    exact each _ (by simp)

private theorem Root.forall_mem_body (dots : holds '.')
    (each : ∀ segment ∈ resolved, ∀ c ∈ segment, holds c) :
    ∀ segment ∈ root.body resolved closed, ∀ c ∈ segment, holds c := by
  unfold body
  split
  · simp
  · refine List.forall_mem_append.mpr ⟨?_, ?_⟩
    · split
      · simpa [dot] using dots
      · exact each
    · intro segment isEnd c inSegment
      rw [eq_nil_of_mem_ending isEnd] at inSegment
      cases inSegment

/-- All characters of a normal form but dots come from the path. -/
theorem forall_mem_normalSegments (dots : holds '.')
    (each : ∀ segment ∈ parts, ∀ c ∈ segment, holds c) :
    ∀ segment ∈ normalSegments platform parts, ∀ c ∈ segment, holds c := by
  have reads := Root.reads_ofSegments platform parts
  apply reads.forall_mem_withSegments each
  apply Root.forall_mem_body dots
  exact fun segment isLeft => reads.forall_mem_rest each segment (mem_of_mem_resolve isLeft)

theorem normalSegments_ne_nil (platform : Platform) (parts : List (List Char)) :
    normalSegments platform parts ≠ [] := by
  unfold normalSegments
  generalize Root.ofSegments platform parts = reading
  obtain ⟨root, rest⟩ := reading
  obtain ⟨first, others, written⟩ := List.exists_cons_of_ne_nil
    (root.body_ne_nil (resolve (!root.isAbsolute) rest) (isClosed parts))
  dsimp only
  rw [written]
  cases root <;> exact List.cons_ne_nil _ _

/-- The segments of a normal form are the ones that it is written from. -/
theorem segments_normalForm (platform : Platform) (path : List Char) :
    segments platform (normalForm platform path) = normalSegments platform (segments platform path) := by
  rw [normalForm_eq]
  apply segments_ofSegments (normalSegments_ne_nil platform _)
  apply forall_mem_normalSegments
  · cases platform <;> rfl
  · exact fun segment isSegment c inSegment => isSeparator_of_mem_segments isSegment inSegment

end Characters

section Rereading

private theorem Root.withSegments_append (root : Root) (nonempty : body ≠ [])
    (more : List (List Char)) :
    root.withSegments (body ++ more) = root.withSegments body ++ more := by
  obtain ⟨first, body, rfl⟩ := List.exists_cons_of_ne_nil nonempty
  cases root <;> rfl

private theorem Root.withSegments_ne_nil (root : Root) (nonempty : body ≠ []) :
    root.withSegments body ≠ [] := by
  obtain ⟨first, body, rfl⟩ := List.exists_cons_of_ne_nil nonempty
  cases root <;> exact List.cons_ne_nil _ _

/-- A root does not change whether the last segment after it is empty. -/
theorem Root.getLast?_withSegments_ne (root : Root) (written : body ≠ [])
    (nonempty : ∀ segment ∈ body, segment ≠ []) :
    (root.withSegments body).getLast? ≠ some [] := by
  have last : body.getLast? ≠ some [] := fun last => nonempty [] (List.mem_of_getLast? last) rfl
  cases root with
  | here => exact last
  | top | driveTop =>
    rw [← List.getLast?_cons_of_ne_nil written] at last
    exact last
  | drive letter =>
    obtain ⟨first, body, rfl⟩ := List.exists_cons_of_ne_nil written
    cases body with
    | nil => simp [withSegments]
    | cons next body => simpa [withSegments] using last
  | share => simpa [withSegments, List.getLast?_cons_of_ne_nil written] using last

/-- Where a body can be closed or not, its path is closed if it is. -/
theorem isClosed_withSegments_append (root : Root) (written : body ≠ [])
    (nonempty : ∀ segment ∈ body, segment ≠ []) (closed : Bool) :
    isClosed (root.withSegments (body ++ ending closed)) = closed := by
  rw [root.withSegments_append written]
  cases closed with
  | true => simp [isClosed, root.withSegments_ne_nil written]
  | false =>
    have last := root.getLast?_withSegments_ne written nonempty
    simp [isClosed, last]

/-- A path ends with a separator if it is told to, or if there is nothing after a root that is a place
of its own. -/
theorem Root.isClosed_withSegments_body (root : Root) (nonempty : ∀ segment ∈ resolved, segment ≠ [])
    (closed : Bool) :
    isClosed (root.withSegments (root.body resolved closed)) =
      (closed || decide (resolved = [] ∧ root.isAbsolute = true)) := by
  by_cases bare : resolved = [] ∧ root.isAbsolute = true
  · rw [decide_eq_true bare, Bool.or_true, body, if_pos bare]
    cases root with
    | here | drive => cases bare.2
    | top | driveTop | share => rfl
  · have written : (if resolved = [] then [dot] else resolved) ≠ [] ∧
        ∀ segment ∈ (if resolved = [] then [dot] else resolved), segment ≠ [] := by
      split
      · simp [dot]
      · next something => exact ⟨something, nonempty⟩
    rw [decide_eq_false bare, Bool.or_false, body, if_neg bare,
      isClosed_withSegments_append root written.1 written.2]

/-- What is written after a root is written again if the path is read with the same end. -/
theorem Root.body_isClosed (root : Root) (nonempty : ∀ segment ∈ resolved, segment ≠ [])
    (closed : Bool) :
    root.body resolved (isClosed (root.withSegments (root.body resolved closed))) =
      root.body resolved closed := by
  by_cases bare : resolved = [] ∧ root.isAbsolute = true
  · rw [body, body, if_pos bare, if_pos bare]
  · rw [root.isClosed_withSegments_body nonempty, decide_eq_false bare, Bool.or_false]

/-- A separator at the end does not count. -/
theorem resolve_append_end (aboveRoot : Bool) (parts : List (List Char)) (closed : Bool) :
    resolve aboveRoot (parts ++ ending closed) = resolve aboveRoot parts := by
  cases closed with
  | true => exact resolve_append_nil aboveRoot parts
  | false => rw [ending_false, List.append_nil]

private theorem Root.resolve_body (root : Root) (aboveRoot : Bool) (resolved : List (List Char))
    (closed : Bool) : resolve aboveRoot (root.body resolved closed) = resolve aboveRoot resolved := by
  unfold body
  split
  · next bare =>
    rw [bare.1]
    rfl
  · rw [resolve_append_end]
    split
    · next nothing =>
      rw [nothing]
      rfl
    · rfl

/-- What is written after a root is empty only behind a root that is a place of its own. -/
theorem Root.body_cases (root : Root) (nonempty : ∀ segment ∈ resolved, segment ≠ []) (closed : Bool) :
    (root.body resolved closed = [[]] ∧ root.isAbsolute = true) ∨
      ∃ first others, root.body resolved closed = first :: others ∧ first ≠ [] ∧
        (first = dot ∨ resolved.head? = some first) := by
  unfold body
  split
  · next bare => exact .inl ⟨rfl, bare.2⟩
  · split
    · exact .inr ⟨dot, _, rfl, by decide, .inl rfl⟩
    · next something =>
      obtain ⟨first, others, rfl⟩ := List.exists_cons_of_ne_nil something
      exact .inr ⟨first, _, rfl, nonempty first List.mem_cons_self, .inr rfl⟩

theorem Root.ofSegmentsPosix_eq (parts : List (List Char)) :
    (ofSegmentsPosix parts).1 = here ∨ (ofSegmentsPosix parts).1 = top := by
  unfold ofSegmentsPosix
  split
  · exact .inr rfl
  · exact .inl rfl

/-- A normal form is read with its root and what is written after it, unless it starts from the
current directory and comes to start like a drive. -/
theorem Root.ofSegments_withSegments_body (known : (ofSegments platform parts).1 = root)
    (nonempty : ∀ segment ∈ resolved, segment ≠ [])
    (noDrive : platform = .windows → root = here → ∀ first, resolved.head? = some first →
      namesDrive first = false) (closed : Bool) :
    ofSegments platform (root.withSegments (root.body resolved closed)) =
      (root, root.body resolved closed) := by
  have written := root.body_cases nonempty closed
  generalize root.body resolved closed = body at written ⊢
  cases platform with
  | posix =>
    have isRoot := ofSegmentsPosix_eq parts
    rw [ofSegments] at known
    rw [known] at isRoot
    rcases isRoot with rfl | rfl
    · rcases written with ⟨_, absolute⟩ | ⟨first, others, rfl, something, _⟩
      · cases absolute
      · exact ofSegments_of_not_namesDrive others something (by simp)
    · rcases written with ⟨rfl, _⟩ | ⟨first, others, rfl, _⟩
      · rfl
      · rfl
  | windows =>
    have reads := reads_ofSegments .windows parts
    rw [known] at reads
    generalize (ofSegments .windows parts).2 = rest at reads
    cases reads with
    | here =>
      rcases written with ⟨_, absolute⟩ | ⟨first, others, rfl, something, rfl | isFirst⟩
      · cases absolute
      · rfl
      · exact ofSegments_of_not_namesDrive others something fun _ => noDrive rfl rfl first isFirst
    | top =>
      rcases written with ⟨rfl, _⟩ | ⟨first, others, rfl, something, _⟩
      · rfl
      · obtain ⟨c, name, rfl⟩ := List.exists_cons_of_ne_nil something
        rfl
    | drive isLetter =>
      rcases written with ⟨_, absolute⟩ | ⟨first, others, rfl, something, _⟩
      · cases absolute
      · obtain ⟨c, name, rfl⟩ := List.exists_cons_of_ne_nil something
        exact if_pos isLetter
    | driveTop isLetter =>
      obtain ⟨next, others, rfl⟩ : ∃ next others, body = next :: others := by
        rcases written with ⟨rfl, _⟩ | ⟨first, others, rfl, _⟩
        · exact ⟨[], [], rfl⟩
        · exact ⟨first, others, rfl⟩
      exact if_pos isLetter
    | share onServer named =>
      obtain ⟨c, server, rfl⟩ := List.exists_cons_of_ne_nil onServer
      obtain ⟨d, name, rfl⟩ := List.exists_cons_of_ne_nil named
      rfl

/-- Any path is read with some root. -/
theorem exists_read (platform : Platform) (path : List Char) :
    ∃ root rest, Root.ofSegments platform (segments platform path) = (root, rest) :=
  ⟨_, _, rfl⟩

theorem segments_normalForm_of_read {path : List Char}
    (read : Root.ofSegments platform (segments platform path) = (root, rest)) :
    segments platform (normalForm platform path) =
      root.withSegments (root.body (resolve (!root.isAbsolute) rest)
        (path.getLast?.any platform.isSeparator)) := by
  rw [segments_normalForm, normalSegments, read, isClosed_segments]

/-- The normal form of a path has the root of the path, unless it comes to start like a drive. -/
theorem ofSegments_segments_normalForm {path : List Char}
    (read : Root.ofSegments platform (segments platform path) = (root, rest))
    (noDrive : platform = .windows → root = .here → ∀ first, (resolve true rest).head? = some first →
      Root.namesDrive first = false) :
    Root.ofSegments platform (segments platform (normalForm platform path)) =
      (root, root.body (resolve (!root.isAbsolute) rest) (path.getLast?.any platform.isSeparator)) := by
  rw [segments_normalForm_of_read read]
  refine Root.ofSegments_withSegments_body (congrArg Prod.fst read)
    (fun segment => ne_nil_of_mem_resolve) ?_ _
  rintro isWindows rfl
  exact noDrive isWindows rfl

/-- A normal form that is read with its root is a normal form of itself. -/
theorem normalSegments_withSegments_body
    (reread : Root.ofSegments platform (root.withSegments (root.body resolved closed)) =
      (root, root.body resolved closed))
    (settled : IsResolved (!root.isAbsolute) resolved.reverse) :
    normalSegments platform (root.withSegments (root.body resolved closed)) =
      root.withSegments (root.body resolved closed) := by
  have nonempty : ∀ segment ∈ resolved, segment ≠ [] :=
    fun segment isLeft => settled.ne_nil (List.mem_reverse.mpr isLeft)
  unfold normalSegments
  rw [reread]
  dsimp only
  rw [root.resolve_body, resolve_of_isResolved settled, root.body_isClosed nonempty]

end Rereading

section Drives

/-- The resolved segments of a Windows path from the current directory are read as if they started
with a drive, and come out differently: the drive has no segment after it, not even an empty one, or
the `.` that was joined to it does not count any more. -/
inductive BecomesDrive (closed : Bool) : List (List Char) → Prop
  | alone {letter : Char} (isLetter : letter.isAlpha = true) (unclosed : closed = false) :
      BecomesDrive closed [[letter, ':']]
  | dotted {letter : Char} (isLetter : letter.isAlpha = true) (next : List Char)
      (others : List (List Char)) : BecomesDrive closed ([letter, ':', '.'] :: next :: others)

variable {first : List Char} {more : List (List Char)} {letter : Char}

private theorem names_of_isResolved_of_name (settled : IsResolved true (first :: more).reverse)
    (named : first ≠ dotDot) :
    ∀ segment ∈ more.reverse, segment ≠ [] ∧ segment ≠ dot ∧ segment ≠ dotDot := by
  rw [List.reverse_cons] at settled
  exact settled.names_of_append named

/-- What comes after a name is resolved on its own, at any root. -/
theorem isResolved_of_name {aboveRoot : Bool} (settled : IsResolved true (first :: more).reverse)
    (named : first ≠ dotDot) : IsResolved aboveRoot more.reverse := by
  have empty : IsResolved aboveRoot [] := trivial
  have names := empty.append_of_names (names_of_isResolved_of_name settled named)
  rwa [List.append_nil] at names

/-- A normal form with a drive is a normal form of itself. -/
theorem normalSegments_drive (isLetter : letter.isAlpha = true)
    (settled : IsResolved true resolved.reverse) :
    normalSegments .windows ((Root.drive letter).withSegments ((Root.drive letter).body resolved closed)) =
      (Root.drive letter).withSegments ((Root.drive letter).body resolved closed) := by
  have known : (Root.ofSegments .windows [[letter, ':']]).1 = .drive letter :=
    congrArg Prod.fst (if_pos isLetter)
  refine normalSegments_withSegments_body (Root.ofSegments_withSegments_body known ?_ ?_ closed) settled
  · exact fun segment isLeft => settled.ne_nil (List.mem_reverse.mpr isLeft)
  · rintro _ ⟨⟩

private theorem normalSegments_driveTop (isLetter : letter.isAlpha = true)
    (settled : IsResolved false resolved.reverse) :
    normalSegments .windows
        ((Root.driveTop letter).withSegments ((Root.driveTop letter).body resolved closed)) =
      (Root.driveTop letter).withSegments ((Root.driveTop letter).body resolved closed) := by
  have known : (Root.ofSegments .windows [[letter, ':'], []]).1 = .driveTop letter :=
    congrArg Prod.fst (if_pos isLetter)
  refine normalSegments_withSegments_body (Root.ofSegments_withSegments_body known ?_ ?_ closed) settled
  · exact fun segment isLeft => settled.ne_nil (List.mem_reverse.mpr isLeft)
  · rintro _ ⟨⟩

/-- What starts with a drive only when it is resolved is not changed by normalizing again. -/
theorem normalSegments_of_namesDrive (settled : IsResolved true (first :: more).reverse)
    (isDrive : Root.namesDrive first = true) (kept : ¬BecomesDrive closed (first :: more)) :
    normalSegments .windows (Root.here.body (first :: more) closed) =
      Root.here.body (first :: more) closed := by
  obtain ⟨letter, name, rfl, isLetter⟩ := Root.exists_of_namesDrive isDrive
  have named : letter :: ':' :: name ≠ dotDot := by simp [dotDot]
  have written : Root.here.body ((letter :: ':' :: name) :: more) closed =
      (letter :: ':' :: name) :: (more ++ ending closed) :=
    Root.here.body_cons _ _ closed
  by_cases bare : name = []
  · subst bare
    have top : Root.here.body ([letter, ':'] :: more) closed =
        (Root.driveTop letter).withSegments ((Root.driveTop letter).body more closed) := by
      rw [written, Root.withSegments, Root.body]
      by_cases alone : more = []
      · subst alone
        cases closed with
        | true => rfl
        | false => exact (kept (.alone isLetter rfl)).elim
      · have written : ¬(more = [] ∧ (Root.driveTop letter).isAbsolute = true) :=
          fun both => alone both.1
        rw [if_neg written, if_neg alone]
    rw [top]
    exact normalSegments_driveTop isLetter (isResolved_of_name settled named)
  · by_cases dotted : name = dot
    · subst dotted
      have alone : more = [] := by
        rcases more with _ | ⟨next, others⟩
        · rfl
        · exact (kept (.dotted isLetter next others)).elim
      subst alone
      have empty : IsResolved true [].reverse := trivial
      exact normalSegments_drive isLetter empty
    · have beside : Root.here.body ((letter :: ':' :: name) :: more) closed =
          (Root.drive letter).withSegments ((Root.drive letter).body (name :: more) closed) := by
        rw [written]
        simp [Root.body, Root.withSegments]
      rw [beside]
      apply normalSegments_drive isLetter
      rw [List.reverse_cons]
      apply IsResolved.append_of_names _ (names_of_isResolved_of_name settled named)
      exact ⟨bare, dotted, fun _ => ⟨rfl, by simp⟩, trivial⟩

/-- A normal form is a normal form of itself, but for what becomes a drive. -/
theorem normalSegments_normalSegments (read : Root.ofSegments platform parts = (root, rest))
    (kept : platform = .windows → root = .here → ¬BecomesDrive (isClosed parts) (resolve true rest)) :
    normalSegments platform (normalSegments platform parts) = normalSegments platform parts := by
  have settled := isResolved_resolve (!root.isAbsolute) rest
  have written : normalSegments platform parts =
      root.withSegments (root.body (resolve (!root.isAbsolute) rest) (isClosed parts)) := by
    rw [normalSegments, read]
  rw [written]
  by_cases isDrive : platform = .windows ∧ root = .here ∧
      ∃ first, (resolve (!root.isAbsolute) rest).head? = some first ∧ Root.namesDrive first = true
  · obtain ⟨rfl, rfl, first, isFirst, isDrive⟩ := isDrive
    obtain ⟨more, split⟩ := List.head?_eq_some_iff.mp isFirst
    rw [split] at settled ⊢
    refine normalSegments_of_namesDrive settled isDrive ?_
    rw [← split]
    exact kept rfl rfl
  · have known : (Root.ofSegments platform parts).1 = root := congrArg Prod.fst read
    refine normalSegments_withSegments_body (Root.ofSegments_withSegments_body known ?_ ?_ _) settled
    · exact fun segment => ne_nil_of_mem_resolve
    · intro isWindows isHere first isFirst
      exact Bool.eq_false_iff.mpr fun named => isDrive ⟨isWindows, isHere, first, isFirst, named⟩

theorem Root.length_withSegments_drive (letter : Char) (written : body ≠ []) :
    ((Root.drive letter).withSegments body).length = body.length := by
  obtain ⟨first, body, rfl⟩ := List.exists_cons_of_ne_nil written
  rfl

/-- What becomes a drive is changed by normalizing again: a `.` is put after the drive, or there is
one segment less. -/
theorem BecomesDrive.normalSegments_body (becomes : BecomesDrive closed resolved)
    (settled : IsResolved true resolved.reverse) :
    (∃ letter, letter.isAlpha = true ∧ Root.here.body resolved closed = [[letter, ':']] ∧
        normalSegments .windows (Root.here.body resolved closed) = [[letter, ':', '.']]) ∨
      (normalSegments .windows (Root.here.body resolved closed)).length <
        (Root.here.body resolved closed).length := by
  cases becomes with
  | @alone letter isLetter unclosed =>
    subst unclosed
    refine .inl ⟨letter, isLetter, rfl, ?_⟩
    have read : Root.ofSegments .windows [[letter, ':']] = (.drive letter, [[]]) := if_pos isLetter
    have written : Root.here.body [[letter, ':']] false = [[letter, ':']] := rfl
    rw [written, normalSegments, read]
    rfl
  | @dotted letter isLetter next others =>
    right
    have names : IsResolved true (next :: others).reverse :=
      isResolved_of_name settled (by simp [dotDot])
    have read : Root.ofSegments .windows (Root.here.body ([letter, ':', '.'] :: next :: others) closed) =
        (.drive letter, dot :: (Root.drive letter).body (next :: others) closed) := by
      rw [Root.body_cons, Root.body_cons]
      exact if_pos isLetter
    have skipped : resolve true (dot :: (Root.drive letter).body (next :: others) closed) =
        next :: others :=
      ((Root.drive letter).resolve_body true (next :: others) closed).trans
        (resolve_of_isResolved names)
    have sameEnd : isClosed (Root.here.body ([letter, ':', '.'] :: next :: others) closed) = closed := by
      rw [Root.body_cons]
      refine isClosed_withSegments_append .here (List.cons_ne_nil _ _) ?_ closed
      exact fun segment isLeft => settled.ne_nil (List.mem_reverse.mpr isLeft)
    have result : normalSegments .windows
        (Root.here.body ([letter, ':', '.'] :: next :: others) closed) =
          (Root.drive letter).withSegments ((Root.drive letter).body (next :: others) closed) := by
      unfold normalSegments
      rw [read, sameEnd]
      exact congrArg (fun left => (Root.drive letter).withSegments ((Root.drive letter).body left closed))
        skipped
    rw [result, Root.length_withSegments_drive letter (Root.body_ne_nil _ _ _), Root.body_cons,
      Root.body_cons]
    exact Nat.lt_succ_self _

/-- A name that is joined to a drive goes with a `..` after it. -/
theorem normalSegments_drive_dotDot (isLetter : letter.isAlpha = true) (nonempty : first ≠ [])
    (notDot : first ≠ dot) (named : first ≠ dotDot) (settled : IsResolved true resolved.reverse)
    (closed : Bool) :
    normalSegments .windows
        ((letter :: ':' :: first) :: dotDot :: (resolved ++ ending closed)) =
      (Root.drive letter).withSegments ((Root.drive letter).body resolved closed) := by
  have read : Root.ofSegments .windows
      ((letter :: ':' :: first) :: dotDot :: (resolved ++ ending closed)) =
        (.drive letter, first :: dotDot :: (resolved ++ ending closed)) := by
    obtain ⟨c, name, rfl⟩ := List.exists_cons_of_ne_nil nonempty
    exact if_pos isLetter
  have left : resolve true (first :: dotDot :: (resolved ++ ending closed)) = resolved := by
    rw [resolve, List.foldl_cons, List.foldl_cons, descend_of_name nonempty notDot named,
      descend_dotDot_of_name named]
    exact (resolve_append_end true resolved closed).trans (resolve_of_isResolved settled)
  have sameEnd : isClosed
      ((letter :: ':' :: first) :: dotDot :: (resolved ++ ending closed)) = closed := by
    refine isClosed_withSegments_append (.drive letter) (List.cons_ne_nil first (dotDot :: resolved)) ?_
      closed
    refine List.forall_mem_cons.mpr ⟨nonempty, List.forall_mem_cons.mpr ⟨by decide, ?_⟩⟩
    exact fun segment isLeft => settled.ne_nil (List.mem_reverse.mpr isLeft)
  unfold normalSegments
  rw [read, sameEnd]
  exact congrArg (fun left => (Root.drive letter).withSegments ((Root.drive letter).body left closed))
    left

end Drives

end PathGlob.Path
