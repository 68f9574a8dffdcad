import PathGlob.Proofs.CanonicalPath
import PathGlob.Proofs.EmptyPieces

/-! # Runs of separators in paths

A path is collapsed if every run of separators is replaced by one of them. This comes down to merging
two separators at a time, and in the pieces of the path to leaving out an empty piece between two
others. So it changes nothing for a glob that only meets separators with separators and takes no
empty name between two of them.
-/

namespace PathGlob

open Relation

namespace Path

variable {platform : Platform} {path collapsed : List Char} {c : Char}

/-- Two separators side by side become one. -/
inductive MergesSeparators (platform : Platform) : List Char → List Char → Prop
  | merge (front back : List Char) {c d s : Char} (first : platform.isSeparator c = true)
      (second : platform.isSeparator d = true) (merged : platform.isSeparator s = true) :
      MergesSeparators platform (front ++ c :: d :: back) (front ++ s :: back)

/-- Every run of separators is replaced by one of its separators. -/
inductive Collapses (platform : Platform) : List Char → List Char → Prop
  | nil : Collapses platform [] []
  | char {c : Char} {path collapsed : List Char} (isName : platform.isSeparator c = false)
      (others : Collapses platform path collapsed) : Collapses platform (c :: path) (c :: collapsed)
  | run {s : Char} {run path collapsed : List Char}
      (separate : ∀ c ∈ run, platform.isSeparator c = true) (kept : s ∈ run)
      (complete : path.head?.any platform.isSeparator = false)
      (others : Collapses platform path collapsed) : Collapses platform (run ++ path) (s :: collapsed)

/-- A separator in front of a run is collapsed with the run. -/
theorem Collapses.cons_separator (collapses : Collapses platform path collapsed)
    (separates : platform.isSeparator c = true) (more : path.head?.any platform.isSeparator = true) :
    Collapses platform (c :: path) collapsed := by
  cases collapses with
  | nil => cases more
  | char isName =>
    have separates : platform.isSeparator _ = true := more
    rw [isName] at separates
    cases separates
  | run separate kept complete others =>
    exact .run (List.forall_mem_cons.mpr ⟨separates, separate⟩) (List.mem_cons_of_mem c kept) complete
      others

/-- Every path can be collapsed, to the last separator of every run. -/
theorem collapses_collapse (platform : Platform) (path : List Char) :
    Collapses platform path (collapse platform path) := by
  induction path with
  | nil => exact .nil
  | cons c path ih =>
    rw [collapse]
    cases separates : platform.isSeparator c with
    | false => exact .char separates ih
    | true =>
      cases more : path.head?.any platform.isSeparator with
      | false => exact .run (List.forall_mem_singleton.mpr separates) List.mem_cons_self more ih
      | true => exact ih.cons_separator separates more

theorem MergesSeparators.append_left {merged : List Char} (start : List Char)
    (merges : MergesSeparators platform path merged) :
    MergesSeparators platform (start ++ path) (start ++ merged) := by
  obtain ⟨front, back, first, second, merged⟩ := merges
  rw [← List.append_assoc, ← List.append_assoc]
  exact .merge (start ++ front) back first second merged

/-- A separator swallows those behind it, one after the other. -/
theorem reflTransGen_merges_run {s : Char} {run : List Char}
    (separates : platform.isSeparator s = true)
    (separate : ∀ c ∈ run, platform.isSeparator c = true) (rest : List Char) :
    ReflTransGen (MergesSeparators platform) (s :: (run ++ rest)) (s :: rest) := by
  induction run with
  | nil => exact .refl
  | cons c run ih =>
    obtain ⟨first, others⟩ := List.forall_mem_cons.mp separate
    exact .head (.merge [] (run ++ rest) separates first separates) (ih others)

/-- A run is collapsed by merging two separators at a time. -/
theorem Collapses.reflTransGen_merges (collapses : Collapses platform path collapsed) :
    ReflTransGen (MergesSeparators platform) path collapsed := by
  induction collapses with
  | nil => exact .refl
  | char _ _ ih => exact ih.lift (_ :: ·) fun _ _ merges => merges.append_left [_]
  | @run s run path collapsed separate kept _ _ ih =>
    have behind : ReflTransGen (MergesSeparators platform) (run ++ path) (run ++ collapsed) :=
      ih.lift (run ++ ·) fun _ _ merges => merges.append_left run
    refine behind.trans ?_
    obtain ⟨first, run, rfl⟩ := List.exists_cons_of_ne_nil (List.ne_nil_of_mem kept)
    obtain ⟨separates, others⟩ := List.forall_mem_cons.mp separate
    rcases run with _ | ⟨second, run⟩
    · obtain rfl := List.mem_singleton.mp kept
      exact .refl
    · obtain ⟨second, others⟩ := List.forall_mem_cons.mp others
      exact .head (.merge [] (run ++ collapsed) separates second (separate s kept))
        (reflTransGen_merges_run (separate s kept) others collapsed)

end Path

namespace GlobMeaning

variable {options : Options} {segments : List (List Char)} {path : List Char}

section Segments

variable (named : ∀ segment ∈ segments, ∀ c ∈ segment, options.platform.isSeparator c = false)
  (inside : ∀ segment ∈ segments, (Shape.ofSegment options segment).meetsSeparator options = false)

include named inside

/-- Merging two separators leaves out an empty piece. -/
theorem segmentsMatch_merges {merged : List Char}
    (merges : Path.MergesSeparators options.platform path merged) :
    (SegmentsMatch options segments merged → SegmentsMatch options segments path) ∧
      (HasFirmNames options segments → SegmentsMatch options segments path →
        SegmentsMatch options segments merged) := by
  obtain ⟨front, back, first, second, merged⟩ := merges
  have before := Path.segments_ne_nil options.platform front
  have after := Path.segments_ne_nil options.platform back
  rw [segmentsMatch_iff_namesMatch named inside, segmentsMatch_iff_namesMatch named inside,
    Path.segments_append_separator front first, Path.segments_append_separator front merged,
    Path.segments_cons_separator second]
  exact ⟨.insert before after, fun firm matched =>
    matched.remove_of_firm firm before after fun _ isPiece _ => Path.isSeparator_of_mem_segments isPiece⟩

/-- What merging separators does not change, collapsing runs of them does not change either. -/
theorem segmentsMatch_collapses {collapsed : List Char}
    (collapses : Path.Collapses options.platform path collapsed) :
    (SegmentsMatch options segments collapsed → SegmentsMatch options segments path) ∧
      (HasFirmNames options segments → SegmentsMatch options segments path →
        SegmentsMatch options segments collapsed) := by
  have merges := collapses.reflTransGen_merges
  clear collapses
  induction merges with
  | refl => exact ⟨id, fun _ => id⟩
  | tail _ merges ih =>
    obtain ⟨back, forth⟩ := segmentsMatch_merges named inside merges
    exact ⟨fun matched => ih.1 (back matched), fun firm matched => forth firm (ih.2 firm matched)⟩

end Segments

/-- The segments of a glob are its names, apart from empty ones. -/
theorem eq_nil_or_mem_names {platform : Platform} {glob segment : List Char}
    (isSegment : segment ∈ GlobMeaning.segments platform (withoutTrailing platform glob)) :
    segment = [] ∨ segment ∈ Path.names platform glob := by
  rcases glob with _ | ⟨c, rest⟩
  · exact .inl (List.mem_singleton.mp isSegment)
  · rcases withoutTrailing_cases platform c rest with ⟨alone, separates⟩ | ends
    · rw [alone, segments_separator separates] at isSegment
      exact .inl (by simpa using isSegment)
    · have nonempty : withoutTrailing platform (c :: rest) ≠ [] := List.cons_ne_nil _ _
      rw [segments_eq_names nonempty ends, (withoutTrailing_spec platform (c :: rest)).1] at isSegment
      split at isSegment
      · exact List.mem_cons.mp isSegment
      · exact .inr isSegment

end GlobMeaning

namespace Matcher

open GlobMeaning

variable {options : Options} {glob path collapsed : String} {matcher : Matcher}

/-- Runs of separators in paths do not matter, as long as only separators of a glob meet those of a
path: what is matched with single separators is matched with runs of them. The other way round, none
of the segments between two others may take an empty name between two separators, except that a
segment may if it takes every other name as well and has only globstars in front of it. Either way an
engine may give up on the second path. -/
theorem isMatch_collapses (compiled : compile options glob = .ok matcher)
    (inside : ∀ name ∈ Path.names options.platform glob.toList,
      (Shape.ofSegment options name).meetsSeparator options = false)
    (collapses : Path.Collapses options.platform path.toList collapsed.toList) (engine : Engine) :
    (matcher.isMatch collapsed engine = true → matcher.MayMatch path engine) ∧
      (HasFirmNames options (segments options.platform (withoutTrailing options.platform glob.toList)) →
        matcher.isMatch path engine = true → matcher.MayMatch collapsed engine) := by
  have segmentNamed : ∀ segment ∈
      segments options.platform (withoutTrailing options.platform glob.toList),
      ∀ c ∈ segment, options.platform.isSeparator c = false := by
    intro segment isSegment
    rcases eq_nil_or_mem_names isSegment with rfl | isName
    · simp
    · exact fun c => Path.isSeparator_of_mem_names isName
  have segmentInside : ∀ segment ∈
      segments options.platform (withoutTrailing options.platform glob.toList),
      (Shape.ofSegment options segment).meetsSeparator options = false := by
    intro segment isSegment
    rcases eq_nil_or_mem_names isSegment with rfl | isName
    · rfl
    · exact inside segment isName
  obtain ⟨back, forth⟩ := segmentsMatch_collapses segmentNamed segmentInside collapses
  constructor
  · intro matched
    obtain ⟨_, nonempty, matched⟩ := (isMatch_iff_matches compiled).mp matched
    exact mayMatch_of_matches compiled ⟨nonempty, back matched⟩ engine
  · intro firm matched
    obtain ⟨_, nonempty, matched⟩ := (isMatch_iff_matches compiled).mp matched
    exact mayMatch_of_matches compiled ⟨nonempty, forth firm matched⟩ engine

/-- A star behind a globstar takes every name, and the segment after it takes no empty one. -/
theorem isMatch_collapses_globstar :
    ∃ matcher, compile {} "**/*/a*(b)/*" = .ok matcher ∧
      HasFirmNames {} (segments .posix (withoutTrailing .posix "**/*/a*(b)/*".toList)) ∧
      Path.collapse .posix "x//y///abb//".toList = "x/y/abb/".toList ∧
      matcher.isMatch "x//y///abb//" .standard = true ∧
      matcher.isMatch "x/y/abb/" .standard = true := by
  have compiled : compile {} "**/*/a*(b)/*" = .ok ⟨{}, globPattern {} "**/*/a*(b)/*", rfl⟩ := rfl
  have inside : ∀ name ∈ Path.names .posix "**/*/a*(b)/*".toList,
      (Shape.ofSegment {} name).meetsSeparator {} = false := by decide
  have collapses := Path.collapses_collapse .posix "x//y///abb//".toList
  have notEmpty : ¬SegmentTakes {} "a*(b)".toList [] [] := by
    rw [← takesText_ofSegment_iff, ← Regex.isMatch_letters_iff]
    decide +kernel
  have star : TakesNames {} ['*'] := by
    intro name whole
    have isSegment : GlobGrammar.IsSegment {} ['*'] [.anyRun] :=
      .single (.anyRun 0 [] (by simp) (by rintro kind body ⟨_, _, _, ⟨⟩⟩)) .finish
    exact .inl ⟨_, isSegment, [], ⟨name, by simp, whole⟩, rfl⟩
  have firm : HasFirmNames {} [['*', '*'], ['*'], "a*(b)".toList, ['*']] := by
    intro before segment after split some more
    rcases before with _ | ⟨first, _ | ⟨second, _ | ⟨third, before⟩⟩⟩
    · exact absurd rfl some
    · obtain ⟨rfl, rfl, _⟩ : ['*', '*'] = first ∧ ['*'] = segment ∧ _ := by simpa using split
      exact .inr ⟨List.forall_mem_singleton.mpr ⟨rfl, rfl⟩, star⟩
    · obtain ⟨_, _, rfl, _⟩ : _ ∧ _ ∧ "a*(b)".toList = segment ∧ _ := by simpa using split
      exact .inl (.inr notEmpty)
    · simp [List.cons_eq_append_iff, more] at split
  have plain : (globPattern {} "**/*/a*(b)/*").looksAhead = false := by decide
  have matched : Matcher.isMatch ⟨{}, globPattern {} "**/*/a*(b)/*", rfl⟩ "x//y///abb//" .standard =
      true := by
    decide +kernel
  have answered := givesUp_eq_false compiled plain "x/y/abb/" .standard
  have collapsed : Matcher.MayMatch _ "x/y/abb/" .standard :=
    (isMatch_collapses compiled inside collapses .standard).2 firm matched
  exact ⟨_, compiled, firm, rfl, matched, collapsed.resolve_right (Bool.eq_false_iff.mp answered)⟩

/-- A star takes the empty name between two separators, and a question mark takes a separator. -/
theorem isMatch_collapsed_ne :
    Path.Collapses .posix "a//b".toList "a/b".toList ∧
      (∃ matcher, compile {} "a/*/b" = .ok matcher ∧
        matcher.isMatch "a//b" .standard = true ∧ matcher.isMatch "a/b" .standard = false) ∧
      ∃ matcher, compile {} "a?b" = .ok matcher ∧
        matcher.isMatch "a//b" .standard = false ∧ matcher.isMatch "a/b" .standard = true := by
  have collapses := Path.collapses_collapse .posix "a//b".toList
  exact ⟨collapses, ⟨_, rfl, by decide +kernel, by decide +kernel⟩, _, rfl, by decide +kernel,
    by decide +kernel⟩

end Matcher

end PathGlob
