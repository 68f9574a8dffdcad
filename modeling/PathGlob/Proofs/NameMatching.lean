import PathGlob.Proofs.StayingInside

/-! # Matching a path piece by piece

Where no segment of a glob reaches beyond a name, a path can be cut at every single separator before
it is matched: a segment takes one piece, empty pieces lie between the separators of a run, and a
globstar skips any pieces. `GlobMeaning.NamesMatch` says this, and no separator occurs in it.
-/

namespace PathGlob

namespace Path

variable {platform : Platform} {path name : List Char} {behind : List (List Char)}

theorem segments_append_separator (front : List Char) {s : Char}
    (separates : platform.isSeparator s = true) (back : List Char) :
    segments platform (front ++ s :: back) = segments platform front ++ segments platform back :=
  Text.pieces_append_cut front separates back

theorem segments_of_no_separator (whole : ∀ c ∈ name, platform.isSeparator c = false) :
    segments platform name = [name] :=
  Text.pieces_of_no_cut whole

private theorem segments_name_append (whole : ∀ c ∈ name, platform.isSeparator c = false) {s : Char}
    (separates : platform.isSeparator s = true) (rest : List Char) :
    segments platform (name ++ s :: rest) = name :: segments platform rest := by
  rw [segments_append_separator name separates, segments_of_no_separator whole]
  rfl

/-- The first piece of a path is what stands before the first separator, if there is one. -/
theorem segments_eq_cons_iff :
    segments platform path = name :: behind ↔
      (∀ c ∈ name, platform.isSeparator c = false) ∧
        (path = name ∧ behind = [] ∨
          ∃ s rest, path = name ++ s :: rest ∧ platform.isSeparator s = true ∧
            behind = segments platform rest) := by
  constructor
  · intro cut
    refine ⟨fun c => isSeparator_of_mem_segments (cut ▸ List.mem_cons_self), ?_⟩
    induction path generalizing name with
    | nil =>
      obtain ⟨rfl, rfl⟩ := List.cons.inj cut
      exact .inl ⟨rfl, rfl⟩
    | cons c path ih =>
      cases separates : platform.isSeparator c with
      | true =>
        rw [segments_cons_separator separates] at cut
        obtain ⟨rfl, rfl⟩ := List.cons.inj cut
        exact .inr ⟨c, path, rfl, separates, rfl⟩
      | false =>
        obtain ⟨first, others, cutRest, cutAll⟩ := exists_segments_cons separates path
        obtain ⟨rfl, rfl⟩ := List.cons.inj (cutAll.symm.trans cut)
        obtain ⟨rfl, alone⟩ | ⟨s, rest, rfl, parts, following⟩ := ih cutRest
        · exact .inl ⟨rfl, alone⟩
        · exact .inr ⟨s, rest, rfl, parts, following⟩
  · rintro ⟨whole, ⟨rfl, rfl⟩ | ⟨s, rest, rfl, separates, rfl⟩⟩
    · exact segments_of_no_separator whole
    · exact segments_name_append whole separates rest

/-- A path is a piece without separators and an end that starts with one, if it is not empty. -/
theorem exists_first_piece (platform : Platform) (path : List Char) :
    ∃ name tail, path = name ++ tail ∧ (∀ c ∈ name, platform.isSeparator c = false) ∧
      platform.EndsName tail := by
  obtain ⟨name, behind, cut⟩ := List.exists_cons_of_ne_nil (segments_ne_nil platform path)
  obtain ⟨whole, ⟨rfl, _⟩ | ⟨s, rest, rfl, separates, _⟩⟩ := segments_eq_cons_iff.mp cut
  · exact ⟨path, [], by rw [List.append_nil], whole, by simp [Platform.EndsName]⟩
  · exact ⟨name, s :: rest, rfl, whole, by simpa [Platform.EndsName] using separates⟩

/-- All pieces of a text are empty if it is made of separators. -/
theorem segments_empty_iff :
    (∀ piece ∈ segments platform path, piece = []) ↔ ∀ c ∈ path, platform.isSeparator c = true := by
  induction path with
  | nil => simp [segments, Text.pieces]
  | cons c path ih =>
    rw [List.forall_mem_cons]
    cases separates : platform.isSeparator c with
    | true =>
      rw [segments_cons_separator separates, List.forall_mem_cons, ih]
      exact and_congr_left' (iff_of_true rfl rfl)
    | false =>
      obtain ⟨first, others, _, cut⟩ := exists_segments_cons separates path
      rw [cut, List.forall_mem_cons]
      exact iff_of_false (by simp) (by simp)

end Path

namespace GlobMeaning

/-- Some pieces of a kind are left out in front, and what is left has a property. -/
def After (fits : List Char → Prop) (holds : List (List Char) → Prop)
    (pieces : List (List Char)) : Prop :=
  ∃ front left, pieces = front ++ left ∧ (∀ piece ∈ front, fits piece) ∧ holds left

/-- The segments of a glob match the pieces of a path. A segment takes one piece and leaves out
empty ones behind it, a globstar leaves out any pieces; at the end there may be empty pieces, or any
pieces for a globstar. -/
def NamesMatch (options : Options) : List (List Char) → List (List Char) → Prop
  | [] => fun pieces => pieces = [[]]
  | [segment] => fun pieces =>
    (IsGlobstar options segment ∧ pieces ≠ []) ∨
    (¬IsGlobstar options segment ∧ ∃ name behind, pieces = name :: behind ∧
      SegmentTakes options segment name [] ∧ ∀ piece ∈ behind, piece = [])
  | segment :: next :: others => fun pieces =>
    (IsGlobstar options segment ∧ After (fun _ => True) (NamesMatch options (next :: others)) pieces) ∨
    (¬IsGlobstar options segment ∧ ∃ name behind, pieces = name :: behind ∧
      SegmentTakes options segment name [] ∧ After (· = []) (NamesMatch options (next :: others)) behind)

variable {options : Options} {segments pieces : List (List Char)} {path : List Char}

/-- Something is left for segments to match, even if it is only an empty piece. -/
theorem NamesMatch.ne_nil (matched : NamesMatch options segments pieces) : pieces ≠ [] := by
  rintro rfl
  induction segments with
  | nil => cases matched
  | cons segment others ih =>
    cases others with
    | nil =>
      obtain ⟨_, something⟩ | ⟨_, name, behind, cut, _⟩ := matched
      · exact something rfl
      · cases cut
    | cons next others =>
      obtain ⟨_, front, left, cut, _, matched⟩ | ⟨_, name, behind, cut, _⟩ := matched
      · obtain ⟨rfl, rfl⟩ := List.nil_eq_append_iff.mp cut
        exact ih matched
      · cases cut

section After

variable {platform : Platform} {holds : List (List Char) → Prop}

/-- Leaving out pieces of a path is leaving out what ends with a separator, and leaving out empty
pieces is leaving out separators. -/
theorem exists_of_segments_eq_append {front left : List (List Char)} (something : left ≠ [])
    (cut : Path.segments platform path = front ++ left) :
    ∃ directories rest, path = directories ++ rest ∧ AreDirectories platform directories ∧
      Path.segments platform rest = left ∧
      ((∀ piece ∈ front, piece = []) → ∀ c ∈ directories, platform.isSeparator c = true) := by
  induction front generalizing path with
  | nil => exact ⟨[], path, rfl, by simp [AreDirectories], cut, by simp⟩
  | cons piece front ih =>
    obtain ⟨_, ⟨_, alone⟩ | ⟨s, later, rfl, separates, cutLater⟩⟩ := Path.segments_eq_cons_iff.mp cut
    · exact absurd (List.append_eq_nil_iff.mp alone).2 something
    · obtain ⟨directories, rest, rfl, whole, cutRest, separate⟩ := ih cutLater.symm
      refine ⟨piece ++ s :: directories, rest, by simp, ?_, cutRest, ?_⟩
      · intro c isLast
        rw [List.getLast?_append_of_ne_nil _ (List.cons_ne_nil s directories)] at isLast
        cases directories with
        | nil => exact Option.some.inj isLast ▸ separates
        | cons d directories => exact whole c isLast
      · intro empty
        obtain ⟨rfl, others⟩ := List.forall_mem_cons.mp empty
        exact List.forall_mem_cons.mpr ⟨separates, separate others⟩

/-- What ends with a separator adds pieces in front of a path, empty ones if it is made of
separators. -/
theorem exists_segments_append {directories : List Char} (whole : AreDirectories platform directories)
    (rest : List Char) :
    ∃ front, Path.segments platform (directories ++ rest) = front ++ Path.segments platform rest ∧
      ((∀ c ∈ directories, platform.isSeparator c = true) → ∀ piece ∈ front, piece = []) := by
  rcases List.eq_nil_or_concat' directories with rfl | ⟨inner, s, rfl⟩
  · exact ⟨[], rfl, by simp⟩
  · have separates := whole s (by simp)
    refine ⟨Path.segments platform inner, ?_, fun separate => ?_⟩
    · rw [List.append_assoc, List.singleton_append, Path.segments_append_separator inner separates]
    · exact Path.segments_empty_iff.mpr fun c inInner => separate c (List.mem_append_left [s] inInner)

private theorem after_segments_iff_directories (something : ∀ pieces, holds pieces → pieces ≠ []) :
    After (fun _ => True) holds (Path.segments platform path) ↔
      ∃ directories rest, path = directories ++ rest ∧ AreDirectories platform directories ∧
        holds (Path.segments platform rest) := by
  constructor
  · rintro ⟨front, left, cut, _, holding⟩
    obtain ⟨directories, rest, rfl, whole, rfl, _⟩ :=
      exists_of_segments_eq_append (something left holding) cut
    exact ⟨directories, rest, rfl, whole, holding⟩
  · rintro ⟨directories, rest, rfl, whole, holding⟩
    obtain ⟨front, cut, _⟩ := exists_segments_append whole rest
    exact ⟨front, _, cut, by simp, holding⟩

private theorem after_segments_iff_separators (something : ∀ pieces, holds pieces → pieces ≠ []) :
    After (· = []) holds (Path.segments platform path) ↔
      ∃ separators rest, path = separators ++ rest ∧
        (∀ c ∈ separators, platform.isSeparator c = true) ∧
        holds (Path.segments platform rest) := by
  constructor
  · rintro ⟨front, left, cut, empty, holding⟩
    obtain ⟨separators, rest, rfl, _, rfl, separate⟩ :=
      exists_of_segments_eq_append (something left holding) cut
    exact ⟨separators, rest, rfl, separate empty, holding⟩
  · rintro ⟨separators, rest, rfl, separate, holding⟩
    obtain ⟨front, cut, empty⟩ :=
      exists_segments_append (fun c isLast => separate c (List.mem_of_getLast? isLast)) rest
    exact ⟨front, _, cut, empty separate, holding⟩

end After

theorem exists_directories (platform : Platform) (path : List Char) :
    ∃ directories name, path = directories ++ name ∧ AreDirectories platform directories ∧
      ∀ c ∈ name, platform.isSeparator c = false := by
  refine ⟨path.rdropWhile (!platform.isSeparator ·), path.rtakeWhile (!platform.isSeparator ·),
    List.rdropWhile_append_rtakeWhile.symm, ?_, ?_⟩
  · intro c isLast
    have nonempty := List.ne_nil_of_mem (List.mem_of_getLast? isLast)
    have ends := List.rdropWhile_last_not _ _ nonempty
    rw [List.getLast?_eq_some_getLast nonempty] at isLast
    simpa [Option.some.inj isLast] using ends
  · intro c inName
    simpa using List.mem_rtakeWhile_imp inName

section Segment

variable {segment : List Char}
  (named : ∀ c ∈ segment, options.platform.isSeparator c = false)
  (inside : (Shape.ofSegment options segment).meetsSeparator options = false)

include named inside

/-- What ends a name is left over by a segment if the segment takes the whole name. -/
theorem segmentTakes_iff_of_endsName {rest : List Char} (ends : options.platform.EndsName rest) :
    SegmentTakes options segment path rest ↔
      ∃ name, path = name ++ rest ∧ (∀ c ∈ name, options.platform.isSeparator c = false) ∧
        SegmentTakes options segment name [] := by
  constructor
  · intro taken
    obtain ⟨name, tail, rfl, whole, endsTail⟩ := Path.exists_first_piece options.platform path
    obtain ⟨left, rfl, within⟩ := (segmentTakes_append_iff named inside whole endsTail).mp taken
    cases left with
    | nil => exact ⟨name, rfl, whole, within⟩
    | cons c left =>
      have inName := whole c (within.suffix.subset List.mem_cons_self)
      rw [ends c rfl] at inName
      cases inName
  · rintro ⟨name, rfl, whole, taken⟩
    exact (segmentTakes_append_iff named inside whole ends).mpr ⟨[], rfl, taken⟩

/-- Separators at the end of a path are empty pieces behind what the last segment takes. -/
theorem exists_segmentTakes_trailing_iff :
    (∃ trailing, SegmentTakes options segment path trailing ∧
        ∀ c ∈ trailing, options.platform.isSeparator c = true) ↔
      ∃ name behind, Path.segments options.platform path = name :: behind ∧
        SegmentTakes options segment name [] ∧ ∀ piece ∈ behind, piece = [] := by
  constructor
  · rintro ⟨trailing, taken, separate⟩
    have ends : options.platform.EndsName trailing :=
      fun c isHead => separate c (List.mem_of_mem_head? isHead)
    obtain ⟨name, rfl, whole, within⟩ := (segmentTakes_iff_of_endsName named inside ends).mp taken
    cases trailing with
    | nil =>
      rw [List.append_nil]
      exact ⟨name, [], Path.segments_of_no_separator whole, within, by simp⟩
    | cons s rest =>
      obtain ⟨separates, others⟩ := List.forall_mem_cons.mp separate
      exact ⟨name, _, Path.segments_name_append whole separates rest, within,
        Path.segments_empty_iff.mpr others⟩
  · rintro ⟨name, behind, cut, taken, empty⟩
    obtain ⟨whole, ⟨rfl, _⟩ | ⟨s, rest, rfl, separates, rfl⟩⟩ := Path.segments_eq_cons_iff.mp cut
    · exact ⟨[], taken, by simp⟩
    · have ends : options.platform.EndsName (s :: rest) := by
        simpa [Platform.EndsName] using separates
      exact ⟨s :: rest,
        (segmentTakes_iff_of_endsName named inside ends).mpr ⟨name, rfl, whole, taken⟩,
        List.forall_mem_cons.mpr ⟨separates, Path.segments_empty_iff.mp empty⟩⟩

/-- Separators between two segments are one cut and empty pieces behind it. -/
theorem exists_segmentTakes_parting_iff {holds : List (List Char) → Prop}
    (something : ∀ pieces, holds pieces → pieces ≠ []) :
    (∃ separators rest, SegmentTakes options segment path (separators ++ rest) ∧ separators ≠ [] ∧
        (∀ c ∈ separators, options.platform.isSeparator c = true) ∧
        holds (Path.segments options.platform rest)) ↔
      ∃ name behind, Path.segments options.platform path = name :: behind ∧
        SegmentTakes options segment name [] ∧ After (· = []) holds behind := by
  constructor
  · rintro ⟨separators, rest, taken, parted, separate, holding⟩
    obtain ⟨s, separators, rfl⟩ := List.exists_cons_of_ne_nil parted
    obtain ⟨separates, others⟩ := List.forall_mem_cons.mp separate
    have ends : options.platform.EndsName (s :: separators ++ rest) := by
      simpa [Platform.EndsName] using separates
    obtain ⟨name, rfl, whole, within⟩ := (segmentTakes_iff_of_endsName named inside ends).mp taken
    exact ⟨name, _, Path.segments_name_append whole separates (separators ++ rest), within,
      (after_segments_iff_separators something).mpr ⟨separators, rest, rfl, others, holding⟩⟩
  · rintro ⟨name, behind, cut, taken, after⟩
    obtain ⟨whole, ⟨rfl, rfl⟩ | ⟨s, rest, rfl, separates, rfl⟩⟩ := Path.segments_eq_cons_iff.mp cut
    · obtain ⟨front, left, nothing, _, holding⟩ := after
      exact absurd (List.append_eq_nil_iff.mp nothing.symm).2 (something left holding)
    · obtain ⟨separators, rest, rfl, separate, holding⟩ :=
        (after_segments_iff_separators something).mp after
      have ends : options.platform.EndsName (s :: separators ++ rest) := by
        simpa [Platform.EndsName] using separates
      exact ⟨s :: separators, rest,
        (segmentTakes_iff_of_endsName named inside ends).mpr ⟨name, rfl, whole, taken⟩,
        List.cons_ne_nil _ _, List.forall_mem_cons.mpr ⟨separates, separate⟩, holding⟩

end Segment

/-- Segments that meet no separator match a path if they match its pieces. -/
theorem segmentsMatch_iff_namesMatch
    (named : ∀ segment ∈ segments, ∀ c ∈ segment, options.platform.isSeparator c = false)
    (inside : ∀ segment ∈ segments, (Shape.ofSegment options segment).meetsSeparator options = false) :
    SegmentsMatch options segments path ↔
      NamesMatch options segments (Path.segments options.platform path) := by
  induction segments generalizing path with
  | nil => exact Path.segments_eq_singleton_nil_iff.symm
  | cons segment others ih =>
    obtain ⟨firstNamed, othersNamed⟩ := List.forall_mem_cons.mp named
    obtain ⟨firstInside, othersInside⟩ := List.forall_mem_cons.mp inside
    cases others with
    | nil =>
      apply or_congr
      · refine and_congr_right fun _ => iff_of_true ?_ (Path.segments_ne_nil _ _)
        exact exists_directories options.platform path
      · exact and_congr_right fun _ => exists_segmentTakes_trailing_iff firstNamed firstInside
    | cons next others =>
      have something := fun pieces (matched : NamesMatch options (next :: others) pieces) =>
        matched.ne_nil
      have following := fun path => @ih path othersNamed othersInside
      simp only [SegmentsMatch, NamesMatch, following, after_segments_iff_directories something,
        exists_segmentTakes_parting_iff firstNamed firstInside something]

end GlobMeaning

end PathGlob
