import PathGlob.Proofs.GlobIdempotence

/-! # Joining globs and joining paths

Globs without `**` are joined to what paths are joined to, but for one case. A first fragment that
is a single Windows separator puts two separators in front of the others, and where these can be read
as a share, only the joined path is kept from being read so.
-/

namespace PathGlob.Path

variable {platform : Platform} {path other : List Char}

/-- The normal form of a path is made from its root, its names and its end. -/
theorem normalForm_congr (sameRoot : (Root.split platform path).1 = (Root.split platform other).1)
    (sameNames : names platform (Root.split platform path).2 = names platform (Root.split platform other).2)
    (sameEnd : path.getLast?.any platform.isSeparator = other.getLast?.any platform.isSeparator) :
    normalForm platform path = normalForm platform other := by
  unfold normalForm
  dsimp only
  rw [← resolve_filter_ne_nil _ (segments platform (Root.split platform path).2), ← names, sameNames,
    sameRoot, sameEnd, names, resolve_filter_ne_nil]

/-- A path from the top and one from a share have different normal forms. -/
theorem normalForm_ne_of_share {server name : List Char}
    (fromTop : (Root.split platform path).1 = .top)
    (fromShare : (Root.split platform other).1 = .share server name) :
    normalForm platform path ≠ normalForm platform other := by
  intro same
  have sameSegments := congrArg (segments platform) same
  rw [segments_normalForm, segments_normalForm, normalSegments, normalSegments] at sameSegments
  rw [(Root.split_spec platform path).1] at fromTop
  rw [(Root.split_spec platform other).1] at fromShare
  dsimp only at sameSegments
  rw [fromTop, fromShare] at sameSegments
  -- Behind the top there is a segment with something in it, or one empty segment alone.
  have behind := (List.cons.inj sameSegments).2
  have nonempty : ∀ segment ∈ resolve (!Root.top.isAbsolute)
      (Root.ofSegments platform (segments platform path)).2, segment ≠ [] :=
    fun segment => ne_nil_of_mem_resolve
  rcases Root.top.body_cases nonempty (isClosed (segments platform path)) with
    ⟨written, _⟩ | ⟨first, others, written, something, _⟩
  · rw [written] at behind
    cases behind
  · rw [written] at behind
    exact something (List.cons.inj behind).1

section Gaps

variable {c d : Char} {rest text first : List Char} {others : List (List Char)}

private theorem share?_of_separator (separates : Platform.windows.isSeparator c = true)
    (text : List Char) :
    Root.share? (c :: text) = none := by
  simp [Root.share?, separates]

private theorem splitWindows_of_separators (first : Platform.windows.isSeparator c = true)
    (second : Platform.windows.isSeparator d = true) (rest : List Char) :
    Root.split .windows (c :: d :: rest) = (Root.share? rest).getD (.top, d :: rest) := by
  rw [Root.split, Root.splitWindows_cons_cons_of_separator first, if_pos second]

/-- After a single separator, a path starts from the top. -/
theorem splitWindows_of_separator (separates : Platform.windows.isSeparator c = true)
    (single : ∀ d, rest.head? = some d → Platform.windows.isSeparator d = false) :
    Root.split .windows (c :: rest) = (.top, rest) := by
  cases rest with
  | nil => simp [Root.split, Root.splitWindows, separates]
  | cons d rest => simp [Root.split, Root.splitWindows, separates, single d rfl]

/-- What a path from a share is read as. -/
theorem exists_share_of_share? {root : Root} {left : List Char}
    (read : Root.share? text = some (root, left)) : ∃ server name, root = .share server name := by
  unfold Root.share? at read
  dsimp only at read
  split at read
  · exact ⟨_, _, (congrArg Prod.fst (Option.some.inj read)).symm⟩
  · cases read

/-- A run of separators counts as one, but for two that are read as the start of a share. -/
theorem normalForm_dropWhile_separators (first : Platform.windows.isSeparator c = true)
    (second : Platform.windows.isSeparator d = true) :
    normalForm .windows
        (Platform.windows.separator :: rest.dropWhile Platform.windows.isSeparator) =
      normalForm .windows (c :: d :: rest) ↔ Root.share? rest = none := by
  have single := List.head?_dropWhile_not Platform.windows.isSeparator rest
  have closed : Root.split .windows
      (Platform.windows.separator :: rest.dropWhile Platform.windows.isSeparator) =
        (.top, rest.dropWhile Platform.windows.isSeparator) := by
    refine splitWindows_of_separator rfl fun e isNext => ?_
    rw [isNext] at single
    exact single
  have opened := splitWindows_of_separators first second rest
  cases read : Root.share? rest with
  | none =>
    rw [read, Option.getD_none] at opened
    refine iff_of_true (normalForm_congr ?_ ?_ ?_) rfl
    · rw [closed, opened]
    · rw [closed, opened, names_dropWhile_separators, names_cons_separator second]
    · rw [getLast?_dropWhile_separators Platform.windows.isSeparator_separator second,
        List.getLast?_cons_cons]
  | some reading =>
    obtain ⟨root, left⟩ := reading
    obtain ⟨server, name, rfl⟩ := exists_share_of_share? read
    rw [read, Option.getD_some] at opened
    have fromTop := congrArg Prod.fst closed
    exact iff_of_false (normalForm_ne_of_share fromTop (congrArg Prod.fst opened))
      (Option.some_ne_none _)

/-- Two or more separators in front are closed to one, unless the first fragment starts with two. -/
theorem closeGap_of_separators (start : List Char) (first : Platform.windows.isSeparator c = true)
    (second : Platform.windows.isSeparator d = true) (rest : List Char) :
    closeGap start (c :: d :: rest) =
      if ((start.take 3).takeWhile Platform.windows.isSeparator).length = 2 ∧ start.length > 2 then
        c :: d :: rest
      else Platform.windows.separator :: rest.dropWhile Platform.windows.isSeparator := by
  have run : (c :: d :: rest).takeWhile Platform.windows.isSeparator =
      c :: d :: rest.takeWhile Platform.windows.isSeparator := by
    rw [List.takeWhile_cons_of_pos first, List.takeWhile_cons_of_pos second]
  have behind : rest.drop (rest.takeWhile Platform.windows.isSeparator).length =
      rest.dropWhile Platform.windows.isSeparator := by
    have parts := List.takeWhile_append_dropWhile (p := Platform.windows.isSeparator) (l := rest)
    have dropped : (rest.takeWhile Platform.windows.isSeparator ++
        rest.dropWhile Platform.windows.isSeparator).drop
          (rest.takeWhile Platform.windows.isSeparator).length =
            rest.dropWhile Platform.windows.isSeparator := List.drop_left
    rwa [parts] at dropped
  have long : ¬(c :: d :: rest.takeWhile Platform.windows.isSeparator).length < 2 := by simp
  unfold closeGap
  simp only [run, or_iff_left long]
  rw [List.length_cons, List.length_cons, List.drop_succ_cons, List.drop_succ_cons, behind]

/-- Fewer than two separators in front are left. -/
theorem closeGap_of_short {joined : List Char} (start : List Char)
    (short : (joined.takeWhile Platform.windows.isSeparator).length < 2) :
    closeGap start joined = joined :=
  if_pos (.inr short)

theorem ofSegments_cons_cons (platform : Platform) (c : Char) (text : List Char)
    (others : List (List Char)) :
    ofSegments platform ((c :: text) :: others) = c :: ofSegments platform (text :: others) := by
  cases others <;> rfl

theorem length_takeWhile_lt_two (apart : ¬(Platform.windows.isSeparator c = true ∧
    Platform.windows.isSeparator d = true)) :
    ((c :: d :: rest).takeWhile Platform.windows.isSeparator).length < 2 := by
  rw [List.takeWhile_cons]
  split
  · next first =>
    rw [List.takeWhile_cons_of_neg fun second => apart ⟨first, second⟩]
    exact Nat.one_lt_two
  · decide

/-- Closing the gap after a fragment of one character matters where it is a separator and the others
name a share. -/
theorem normalForm_closeGap_singleton_iff (s : Char) (others : List (List Char)) :
    normalForm .windows (closeGap [s] (ofSegments .windows ([s] :: others))) =
        normalForm .windows (ofSegments .windows ([s] :: others)) ↔
      ¬(Platform.windows.isSeparator s = true ∧
        (Root.share? (ofSegments .windows others)).isSome = true) := by
  by_cases alone : others = []
  · subst alone
    have short : ([s].takeWhile Platform.windows.isSeparator).length < 2 :=
      Nat.lt_succ_of_le (List.takeWhile_sublist Platform.windows.isSeparator).length_le
    refine iff_of_true ?_ ?_
    · rw [ofSegments, closeGap_of_short [s] short]
    · simp [ofSegments, Root.share?]
  · rw [ofSegments_cons .windows [s] alone, List.singleton_append]
    by_cases separates : Platform.windows.isSeparator s = true
    · have apart : ¬((([s].take 3).takeWhile Platform.windows.isSeparator).length = 2 ∧
          [s].length > 2) := by simp
      rw [closeGap_of_separators [s] separates Platform.windows.isSeparator_separator, if_neg apart,
        normalForm_dropWhile_separators separates Platform.windows.isSeparator_separator]
      simp [separates]
    · rw [closeGap_of_short [s] (length_takeWhile_lt_two fun both => separates both.1)]
      simp [separates]

/-- After a longer fragment the gap does not matter. -/
theorem normalForm_closeGap_cons_cons (x y : Char) (more : List Char) (others : List (List Char)) :
    normalForm .windows (closeGap (x :: y :: more) (ofSegments .windows ((x :: y :: more) :: others))) =
      normalForm .windows (ofSegments .windows ((x :: y :: more) :: others)) := by
  rw [ofSegments_cons_cons, ofSegments_cons_cons]
  by_cases both : Platform.windows.isSeparator x = true ∧ Platform.windows.isSeparator y = true
  · rw [closeGap_of_separators _ both.1 both.2]
    split
    · rfl
    · next longer =>
      -- The fragment ends or goes on with a separator, so no server can be named after the two.
      apply (normalForm_dropWhile_separators both.1 both.2).mpr
      rcases more with _ | ⟨z, more⟩
      · by_cases alone : others = []
        · subst alone
          rfl
        · rw [ofSegments_cons .windows [] alone]
          exact share?_of_separator Platform.windows.isSeparator_separator _
      · rw [ofSegments_cons_cons]
        by_cases separates : Platform.windows.isSeparator z = true
        · exact share?_of_separator separates _
        · exact absurd longer (by simp [both.1, both.2, separates])
  · rw [closeGap_of_short _ (length_takeWhile_lt_two both)]

end Gaps

end PathGlob.Path

namespace PathGlob.Glob

open PathGlob.Path (Root)

variable {platform : Platform} {segments : List (List Char)} {glob : List Char}
  {fragments : List String}

/-- Without `**` there is nothing to shield. -/
theorem shieldSegments_of_not_mem {previous : List Char} (before : previous ≠ doubleStar)
    (plain : doubleStar ∉ segments) : shieldSegments previous segments = segments := by
  induction segments generalizing previous with
  | nil => rfl
  | cons segment rest ih =>
    obtain ⟨other, plain⟩ := not_or.mp (mt List.mem_cons.mpr plain)
    rw [shieldSegments, if_neg (fun both => before both.2)]
    split
    · rw [ih before plain]
    · rw [ih (Ne.symm other) plain]

/-- A glob without `**` is normalized like a path. -/
theorem normalForm_of_not_mem (unmarked : shieldMark ∉ glob)
    (plain : doubleStar ∉ Path.segments platform glob) :
    normalForm platform true glob = Path.normalForm platform glob := by
  rw [normalForm_eq unmarked, normalSegments, guarded, if_pos rfl,
    shieldSegments_of_not_mem (by decide) plain,
    map_unshield_of_not_mem (shieldMark_not_mem_pathSegments (shieldMark_not_mem_segments unmarked)),
    ← Path.normalForm_eq]

/-- The first fragment is a single Windows separator, and the ones after it name a share. -/
def OpensShare (platform : Platform) (fragments : List String) : Prop :=
  platform = .windows ∧ ∃ s others, (fragments.map String.toList).filter (· ≠ []) = [s] :: others ∧
    platform.isSeparator s = true ∧ (Root.share? (Path.ofSegments platform others)).isSome = true

/-- Fragments put together are normalized to the joined path, unless they open a share. -/
theorem normalForm_eq_joinForm_iff (parts : List (List Char)) :
    Path.normalForm platform (Path.ofSegments platform (parts.filter (· ≠ []))) =
        Path.joinForm platform parts ↔
      ¬(platform = .windows ∧ ∃ s others, parts.filter (· ≠ []) = [s] :: others ∧
        platform.isSeparator s = true ∧ (Root.share? (Path.ofSegments platform others)).isSome = true) := by
  have nonempty : ∀ part ∈ parts.filter (· ≠ []), part ≠ [] :=
    fun part isLeft => by simpa using List.of_mem_filter isLeft
  unfold Path.joinForm
  generalize parts.filter (· ≠ []) = kept at nonempty ⊢
  rcases kept with _ | ⟨first, others⟩
  · refine iff_of_true ?_ (by simp)
    cases platform <;> rfl
  · cases platform with
    | posix => exact iff_of_true rfl (by simp)
    | windows =>
      rcases first with _ | ⟨x, _ | ⟨y, more⟩⟩
      · exact absurd rfl (nonempty [] List.mem_cons_self)
      · rw [eq_comm]
        refine (Path.normalForm_closeGap_singleton_iff x others).trans (not_congr ?_)
        simp
      · rw [eq_comm]
        exact iff_of_true (Path.normalForm_closeGap_cons_cons x y more others) (by simp)

/-- The segments of fragments are the segments of the glob that they are put together to. -/
theorem not_mem_segments_ofSegments {parts : List (List Char)}
    (plain : ∀ part ∈ parts, doubleStar ∉ Path.segments platform part) :
    doubleStar ∉ Path.segments platform (Path.ofSegments platform parts) := by
  by_cases nothing : parts = []
  · subst nothing
    cases platform <;> decide
  · rw [Path.segments_ofSegments_eq_flatMap nothing]
    intro isSegment
    obtain ⟨part, isPart, inPart⟩ := List.mem_flatMap.mp isSegment
    exact plain part isPart inPart

/-- Without `**`, joined globs are a joined path, unless they open a share. -/
theorem join_eq_join_iff (unmarked : ∀ fragment ∈ fragments, shieldMark ∉ fragment.toList)
    (plain : ∀ fragment ∈ fragments, doubleStar ∉ Path.segments platform fragment.toList) :
    join platform false fragments = .ok (Path.join platform fragments) ∧
      (join platform true fragments = join platform false fragments ↔
        ¬OpensShare platform fragments) := by
  refine ⟨rfl, ?_⟩
  have inParts : ∀ part ∈ (fragments.map String.toList).filter (· ≠ []),
      ∃ fragment ∈ fragments, part = fragment.toList := by
    intro part isPart
    obtain ⟨fragment, isFragment, rfl⟩ := List.mem_map.mp (List.mem_of_mem_filter isPart)
    exact ⟨fragment, isFragment, rfl⟩
  have plainWhole : doubleStar ∉ Path.segments platform
      (Path.ofSegments platform ((fragments.map String.toList).filter (· ≠ []))) := by
    refine not_mem_segments_ofSegments fun part isPart => ?_
    obtain ⟨fragment, isFragment, rfl⟩ := inParts part isPart
    exact plain fragment isFragment
  have unmarkedWhole : shieldMark ∉
      Path.ofSegments platform ((fragments.map String.toList).filter (· ≠ [])) := by
    intro marked
    rcases Path.mem_of_mem_ofSegments marked with separator | ⟨part, isPart, inPart⟩
    · cases platform <;> exact absurd separator (by decide)
    · obtain ⟨fragment, isFragment, rfl⟩ := inParts part isPart
      exact unmarked fragment isFragment inPart
  have asPath : join platform true fragments = join platform false fragments ↔
      Path.normalForm platform
          (Path.ofSegments platform ((fragments.map String.toList).filter (· ≠ []))) =
        Path.joinForm platform (fragments.map String.toList) := by
    rw [join, join, if_pos rfl, if_neg Bool.false_ne_true, normalize_eq_ok_iff, String.toList_ofList,
      and_iff_right unmarkedWhole, normalForm_of_not_mem unmarkedWhole plainWhole, Path.join,
      String.ofList_inj]
  exact asPath.trans (normalForm_eq_joinForm_iff _)

/-- Two fragments that start with separators are one path from the top. -/
theorem join_eq_join_roots :
    join .windows true ["\\a", "", "\\b"] = join .windows false ["\\a", "", "\\b"] := by
  refine (join_eq_join_iff (by decide) (by decide)).2.mpr ?_
  rintro ⟨_, s, others, written, _⟩
  have first : some ['\\', 'a'] = some [s] := congrArg List.head? written
  cases first

/-- The separators of the first two fragments come to be read as the start of a share. -/
theorem join_opens_share :
    join .windows true ["/", "a", "b"] = .ok "\\\\a\\b\\" ∧
      join .windows false ["/", "a", "b"] = .ok "\\a\\b" := by
  decide

end PathGlob.Glob
