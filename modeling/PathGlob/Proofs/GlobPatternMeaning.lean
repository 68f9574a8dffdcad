import PathGlob.Proofs.GlobReading
import PathGlob.Proofs.ItemPattern
import PathGlob.Proofs.SegmentNames

/-! # The expression of a glob means what the glob means

From the items of a segment to whole globs: the expression of a glob takes a whole path exactly if
the glob matches the path by its text (`takesText_globPattern_iff`).
-/

namespace PathGlob

open Relation GlobMeaning

variable {caseInsensitive : Bool} {text rest : List Char}

namespace Platform

/-- One segment with separators after it. -/
theorem takesText_directory (platform : Platform) :
    (Regex.group (.seq platform.runPattern platform.partingPattern)).TakesText caseInsensitive
        text rest ↔
      ∃ name separators, text = name ++ (separators ++ rest) ∧
        (∀ c ∈ name, platform.isSeparator c = false) ∧ separators ≠ [] ∧
        ∀ c ∈ separators, platform.isSeparator c = true := by
  simp only [Regex.takesText_group, Regex.takesText_seq, takesText_runPattern,
    takesText_partingPattern, TakesRun]
  constructor
  · rintro ⟨_, ⟨name, rfl, isName⟩, separators, nonempty, rfl, separate⟩
    exact ⟨name, separators, rfl, isName, nonempty, separate⟩
  · rintro ⟨name, separators, rfl, isName, nonempty, separate⟩
    exact ⟨_, ⟨name, rfl, isName⟩, separators, nonempty, rfl, separate⟩

/-- What ends with a separator is made up of segments with separators after each. -/
theorem transGen_directory (platform : Platform) {directories : List Char}
    (nonempty : directories ≠ []) (whole : AreDirectories platform directories) (rest : List Char) :
    TransGen ((Regex.group (.seq platform.runPattern platform.partingPattern)).TakesText
      caseInsensitive) (directories ++ rest) rest := by
  induction directories with
  | nil => exact absurd rfl nonempty
  | cons c others ih =>
    cases separates : platform.isSeparator c with
    | true =>
      have first : (Regex.group (.seq platform.runPattern platform.partingPattern)).TakesText
          caseInsensitive (c :: others ++ rest) (others ++ rest) :=
        platform.takesText_directory.mpr ⟨[], [c], rfl, by simp, by simp, by simpa using separates⟩
      cases others with
      | nil => exact .single first
      | cons d others => exact .head first (ih (by simp) fun e last => whole e (by simpa using last))
    | false =>
      cases others with
      | nil => exact absurd (whole c rfl) (by simp [separates])
      | cons d others =>
        have later := ih (by simp) fun e last => whole e (by simpa using last)
        obtain ⟨middle, first, following⟩ := TransGen.head'_iff.mp later
        obtain ⟨name, separators, split, isName, parted, separate⟩ :=
          platform.takesText_directory.mp first
        refine TransGen.head'_iff.mpr ⟨middle, ?_, following⟩
        refine platform.takesText_directory.mpr ⟨c :: name, separators, ?_, ?_, parted, separate⟩
        · rw [List.cons_append, split, List.cons_append]
        · simpa [separates] using isName

private theorem takesText_globstarPattern (platform : Platform) :
    platform.globstarPattern.TakesText caseInsensitive text rest ↔
      ∃ directories, text = directories ++ rest ∧ AreDirectories platform directories := by
  rw [globstarPattern, Regex.takesText_zeroOrMore]
  constructor
  · intro taken
    induction taken using ReflTransGen.head_induction_on with
    | refl => exact ⟨[], rfl, by simp [AreDirectories]⟩
    | head first _ later =>
      obtain ⟨name, separators, rfl, _, nonempty, separate⟩ := platform.takesText_directory.mp first
      obtain ⟨directories, rfl, whole⟩ := later
      refine ⟨name ++ (separators ++ directories), by simp, ?_⟩
      intro c last
      cases directories with
      | nil =>
        rw [List.append_nil, List.getLast?_append_of_ne_nil _ nonempty] at last
        exact separate c (List.mem_of_getLast? last)
      | cons d directories =>
        rw [← List.append_assoc, List.getLast?_append_of_ne_nil _ (List.cons_ne_nil _ _)] at last
        exact whole c last
  · rintro ⟨directories, rfl, whole⟩
    by_cases empty : directories = []
    · rw [empty]
      exact .refl
    · exact (platform.transGen_directory empty whole rest).to_reflTransGen

end Platform

variable {options : Options}

/-- The expression of a segment of complete syntax takes what its items take. -/
theorem GlobGrammar.IsSegment.takesText_iff {segment text rest : List Char} {items : List GlobItem}
    (isSegment : GlobGrammar.IsSegment options segment items) :
    ((Shape.ofSegment options segment).pattern options.platform).TakesText options.caseInsensitive
        text rest ↔ GlobItem.BranchTakes options items text rest := by
  rw [isSegment.pattern_ofSegment]
  exact GlobItem.takesText_branchPattern fun item _ => item.takesText_pattern

/-- The expression of a segment takes what the segment takes by its text. -/
theorem takesText_ofSegment_iff (segment text rest : List Char) :
    ((Shape.ofSegment options segment).pattern options.platform).TakesText options.caseInsensitive
        text rest ↔ SegmentTakes options segment text rest := by
  unfold SegmentTakes
  by_cases complete : ∃ items, GlobGrammar.IsSegment options segment items
  · obtain ⟨own, isSegment⟩ := complete
    constructor
    · intro takes
      exact .inl ⟨own, isSegment, isSegment.takesText_iff.mp takes⟩
    · rintro (⟨items, isSegment, takes⟩ | ⟨incomplete, _⟩)
      · exact isSegment.takesText_iff.mpr takes
      · exact (incomplete own isSegment).elim
  · have incomplete := not_exists.mp complete
    rw [GlobGrammar.pattern_ofSegment_of_incomplete incomplete,
      GlobItem.takesText_branchPattern fun item _ => item.takesText_pattern]
    constructor
    · intro takes
      exact .inr ⟨incomplete, takes⟩
    · rintro (⟨items, isSegment, _⟩ | ⟨_, takes⟩)
      · exact (incomplete items isSegment).elim
      · exact takes

/-- A segment of complete syntax takes what its items take. -/
theorem GlobGrammar.IsSegment.segmentTakes_iff {segment text rest : List Char}
    {items : List GlobItem} (isSegment : GlobGrammar.IsSegment options segment items) :
    SegmentTakes options segment text rest ↔ GlobItem.BranchTakes options items text rest :=
  (takesText_ofSegment_iff segment text rest).symm.trans isSegment.takesText_iff

theorem ofText_of_isGlobstar {segment : List Char} (isGlobstar : IsGlobstar options segment) :
    GlobSegment.ofText options segment = .globstar := by
  exact if_pos isGlobstar

theorem ofText_of_not_isGlobstar {segment : List Char} (isShape : ¬IsGlobstar options segment) :
    GlobSegment.ofText options segment = .shape (Shape.ofSegment options segment) := by
  exact if_neg isShape

/-- The expression of segments takes a whole path exactly if the segments match it. -/
theorem takesText_segmentsPattern_iff (names : List (List Char)) (path : List Char) :
    (Glob.segmentsPattern options.platform (names.map (GlobSegment.ofText options))).TakesText
        options.caseInsensitive path [] ↔ SegmentsMatch options names path := by
  induction names generalizing path with
  | nil => simp [Glob.segmentsPattern, SegmentsMatch, eq_comm]
  | cons segment others ih =>
    cases others with
    | nil =>
      by_cases isGlobstar : IsGlobstar options segment
      · simp only [List.map_cons, List.map_nil, ofText_of_isGlobstar isGlobstar,
          Glob.segmentsPattern, Regex.takesText_seq, Platform.takesText_globstarPattern,
          Platform.takesText_runPattern, Platform.TakesRun, List.append_nil, SegmentsMatch,
          isGlobstar, true_and, not_true_eq_false, false_and, or_false]
        constructor
        · rintro ⟨name, ⟨directories, rfl, whole⟩, _, rfl, isName⟩
          exact ⟨directories, name, rfl, whole, isName⟩
        · rintro ⟨directories, name, rfl, whole, isName⟩
          exact ⟨name, ⟨directories, rfl, whole⟩, name, rfl, isName⟩
      · simp only [List.map_cons, List.map_nil, ofText_of_not_isGlobstar isGlobstar,
          Glob.segmentsPattern, Regex.takesText_seq, takesText_ofSegment_iff,
          Platform.takesText_trailingPattern, List.append_nil, SegmentsMatch, isGlobstar,
          false_and, not_false_eq_true, true_and, false_or]
        constructor
        · rintro ⟨trailing, taken, _, rfl, separate⟩
          exact ⟨trailing, taken, separate⟩
        · rintro ⟨trailing, taken, separate⟩
          exact ⟨trailing, taken, trailing, rfl, separate⟩
    | cons next others =>
      by_cases isGlobstar : IsGlobstar options segment
      · have unfolded : Glob.segmentsPattern options.platform
            ((segment :: next :: others).map (GlobSegment.ofText options)) =
              .seq options.platform.globstarPattern (Glob.segmentsPattern options.platform
                ((next :: others).map (GlobSegment.ofText options))) := by
          rw [List.map_cons, ofText_of_isGlobstar isGlobstar]
          rfl
        simp only [unfolded, Regex.takesText_seq, Platform.takesText_globstarPattern, ih,
          SegmentsMatch, isGlobstar, true_and, not_true_eq_false, false_and, or_false]
        constructor
        · rintro ⟨rest, ⟨directories, rfl, whole⟩, following⟩
          exact ⟨directories, rest, rfl, whole, following⟩
        · rintro ⟨directories, rest, rfl, whole, following⟩
          exact ⟨rest, ⟨directories, rfl, whole⟩, following⟩
      · have unfolded : Glob.segmentsPattern options.platform
            ((segment :: next :: others).map (GlobSegment.ofText options)) =
              .seq ((Shape.ofSegment options segment).pattern options.platform)
                (.seq options.platform.partingPattern (Glob.segmentsPattern options.platform
                  ((next :: others).map (GlobSegment.ofText options)))) := by
          rw [List.map_cons, ofText_of_not_isGlobstar isGlobstar]
          rfl
        simp only [unfolded, Regex.takesText_seq, takesText_ofSegment_iff,
          Platform.takesText_partingPattern, ih, SegmentsMatch, isGlobstar, false_and,
          not_false_eq_true, true_and, false_or]
        constructor
        · rintro ⟨_, taken, rest, ⟨separators, parted, rfl, separate⟩, following⟩
          exact ⟨separators, rest, taken, parted, separate, following⟩
        · rintro ⟨separators, rest, taken, parted, separate, following⟩
          exact ⟨_, taken, rest, ⟨separators, parted, rfl, separate⟩, following⟩

/-- An empty segment takes nothing. -/
theorem segmentTakes_nil : SegmentTakes options [] text rest ↔ rest = text := by
  have isSegment : GlobGrammar.IsSegment options [] [] := .finish
  exact isSegment.segmentTakes_iff

theorem not_isGlobstar_nil : ¬IsGlobstar options [] := by
  simp [IsGlobstar]

/-- An empty segment in front means that the path starts with separators. -/
theorem segmentsMatch_nil_cons {next : List Char} {others : List (List Char)} {path : List Char} :
    SegmentsMatch options ([] :: next :: others) path ↔
      ∃ separators rest, path = separators ++ rest ∧ separators ≠ [] ∧
        (∀ c ∈ separators, options.platform.isSeparator c = true) ∧
        SegmentsMatch options (next :: others) rest := by
  simp only [SegmentsMatch, not_isGlobstar_nil, segmentTakes_nil, false_and, not_false_eq_true,
    true_and, false_or]
  constructor
  · rintro ⟨separators, rest, rfl, separates⟩
    exact ⟨separators, rest, rfl, separates⟩
  · rintro ⟨separators, rest, rfl, separates⟩
    exact ⟨separators, rest, rfl, separates⟩

private theorem segmentsMatch_nil {path : List Char} :
    SegmentsMatch options [[]] path ↔ ∀ c ∈ path, options.platform.isSeparator c = true := by
  simp only [SegmentsMatch, not_isGlobstar_nil, segmentTakes_nil, false_and, not_false_eq_true,
    true_and, false_or]
  constructor
  · rintro ⟨_, rfl, separate⟩
    exact separate
  · intro separate
    exact ⟨path, rfl, separate⟩

/-- The expression of a glob with a separator in front. -/
theorem takesText_rooted_iff (names : List (List Char)) (path : List Char) :
    (Glob.pattern options.platform ⟨true, names.map (GlobSegment.ofText options)⟩).TakesText
        options.caseInsensitive path [] ↔
      ∃ separators rest, path = separators ++ rest ∧ separators ≠ [] ∧
        (∀ c ∈ separators, options.platform.isSeparator c = true) ∧
        SegmentsMatch options names rest := by
  simp only [Glob.pattern, Regex.takesText_seq, Platform.takesText_partingPattern,
    takesText_segmentsPattern_iff]
  constructor
  · rintro ⟨rest, ⟨separators, parted, rfl, separate⟩, following⟩
    exact ⟨separators, rest, rfl, parted, separate, following⟩
  · rintro ⟨separators, rest, rfl, parted, separate, following⟩
    exact ⟨rest, ⟨separators, parted, rfl, separate⟩, following⟩

/-- The expression of a glob takes a whole path exactly if the glob matches the path. -/
theorem takesText_globPattern_iff (glob : String) (path : List Char) :
    (globPattern options glob).TakesText options.caseInsensitive path [] ↔
      Matches options glob.toList path := by
  obtain ⟨sameNames, sameHead⟩ := withoutTrailing_spec options.platform glob.toList
  rw [Matches, globPattern, Glob.ofText_eq]
  rw [← sameHead, ← sameNames]
  generalize glob.toList = text
  cases text with
  | nil => simp [withoutTrailing, Path.names_nil, Glob.pattern]
  | cons c rest =>
    have head : (withoutTrailing options.platform (c :: rest)).head? = some c := rfl
    rw [head, Option.any_some]
    simp only [ne_eq, reduceCtorEq, not_false_eq_true, true_and]
    rcases withoutTrailing_cases options.platform c rest with ⟨alone, separates⟩ | ends
    · rw [alone, separates, Path.names_cons_separator separates, Path.names_nil,
        takesText_rooted_iff, segments_separator separates, segmentsMatch_nil_cons]
      simp only [segmentsMatch_nil]
      constructor
      · rintro ⟨separators, rest, rfl, parted, separate, nothing⟩
        obtain rfl : rest = [] := nothing
        exact ⟨separators, [], rfl, parted, separate, by simp⟩
      · rintro ⟨separators, rest, rfl, parted, separate, others⟩
        refine ⟨separators ++ rest, [], by simp, by simp [parted], ?_, rfl⟩
        exact List.forall_mem_append.mpr ⟨separate, others⟩
    · have nonempty : withoutTrailing options.platform (c :: rest) ≠ [] := List.cons_ne_nil _ _
      have isLast := List.getLast?_eq_some_getLast nonempty
      have named := Path.names_ne_nil_of_mem (List.mem_of_getLast? isLast) (ends _ isLast)
      rw [segments_eq_names nonempty ends, head, Option.any_some]
      obtain ⟨first, others, names⟩ := List.exists_cons_of_ne_nil named
      rw [names]
      cases rooted : options.platform.isSeparator c with
      | true => rw [takesText_rooted_iff, if_pos rfl, segmentsMatch_nil_cons]
      | false =>
        rw [if_neg Bool.false_ne_true]
        exact takesText_segmentsPattern_iff (first :: others) path

end PathGlob
