import PathGlob.Proofs.NamesAround
import PathGlob.Proofs.SearchTallies

/-! # Globstars next to each other

A globstar takes any number of whole segments, and so do two of them in a row. Of globstars that
follow one another, all but one can be left out: in front of a glob, at its end, or in between
(`Matcher.isMatch_globstar_repeated`).
-/

namespace PathGlob

namespace GlobMeaning

variable {options : Options} {front back : List (List Char)} {path : List Char}

/-- In front of other segments, a globstar takes whole segments off the front of a path. -/
theorem segmentsMatch_globstar_cons_iff {segment : List Char} (isGlobstar : IsGlobstar options segment)
    (more : back ≠ []) :
    SegmentsMatch options (segment :: back) path ↔ ∃ directories rest, path = directories ++ rest ∧
      AreDirectories options.platform directories ∧ SegmentsMatch options back rest := by
  obtain ⟨next, others, rfl⟩ := List.exists_cons_of_ne_nil more
  rw [SegmentsMatch]
  exact (or_iff_left fun isShape => isShape.1 isGlobstar).trans (and_iff_right isGlobstar)

/-- A globstar in front of a globstar takes nothing that the other one could not take. -/
theorem segmentsMatch_globstar_globstar_iff {segment : List Char}
    (isGlobstar : IsGlobstar options segment) :
    SegmentsMatch options (segment :: segment :: back) path ↔
      SegmentsMatch options (segment :: back) path := by
  by_cases more : back = []
  · subst more
    refine iff_of_true ?_ (segmentsMatch_globstar_alone isGlobstar path)
    exact (segmentsMatch_globstar_cons_iff isGlobstar (List.cons_ne_nil _ _)).mpr
      ⟨[], path, rfl, by simp [AreDirectories], segmentsMatch_globstar_alone isGlobstar path⟩
  · rw [segmentsMatch_globstar_cons_iff isGlobstar (List.cons_ne_nil _ _)]
    simp only [segmentsMatch_globstar_cons_iff isGlobstar more]
    constructor
    · rintro ⟨directories, _, rfl, whole, others, rest, rfl, wholeOthers, matched⟩
      exact ⟨directories ++ others, rest, by rw [List.append_assoc], whole.append wholeOthers, matched⟩
    · rintro ⟨directories, rest, rfl, whole, matched⟩
      exact ⟨[], _, rfl, by simp [AreDirectories], directories, rest, rfl, whole, matched⟩

private theorem segmentsMatch_globstar_repeated_iff (globstar : options.globstar = true) :
    SegmentsMatch options (front ++ ['*', '*'] :: ['*', '*'] :: back) path ↔
      SegmentsMatch options (front ++ ['*', '*'] :: back) path := by
  rw [segmentsMatch_append_iff (List.cons_ne_nil _ _), segmentsMatch_append_iff (List.cons_ne_nil _ _)]
  simp only [segmentsMatch_globstar_globstar_iff ⟨globstar, rfl⟩]

section Names

variable {platform : Platform} {front run back : List Char}
  (starts : AreDirectories platform front) (ends : platform.EndsName back)

include starts ends

/-- A globstar that stands between separators, or at an end of a glob, is a name of its own. -/
theorem names_globstar :
    Path.names platform (front ++ ('*' :: '*' :: back)) =
      Path.names platform front ++ ['*', '*'] :: Path.names platform back := by
  have split : '*' :: '*' :: back = ['*', '*'] ++ back := rfl
  rw [Path.names_append_of_areDirectories starts, split, Path.names_append_of_endsName _ ends,
    names_stars, List.singleton_append]

private theorem names_globstar_repeated (parted : run ≠ [])
    (separate : ∀ c ∈ run, platform.isSeparator c = true) :
    Path.names platform (front ++ ('*' :: '*' :: (run ++ '*' :: '*' :: back))) =
      Path.names platform front ++ ['*', '*'] :: ['*', '*'] :: Path.names platform back := by
  have parts : platform.EndsName (run ++ '*' :: '*' :: back) := by
    obtain ⟨s, run, rfl⟩ := List.exists_cons_of_ne_nil parted
    rintro c isFirst
    obtain rfl := Option.some.inj isFirst
    exact separate s List.mem_cons_self
  have behind := names_globstar (show AreDirectories platform [] by simp [AreDirectories]) ends
  rw [List.nil_append, Path.names_nil, List.nil_append] at behind
  rw [names_globstar starts parts, Path.names_separators_append separate, behind]

end Names

end GlobMeaning

namespace Matcher

open GlobMeaning

/-- Of two globstars with nothing but separators between them one can be left out: the glob that is
left compiles as well and matches the same paths, as far as the engine does not give up. Where the
globstars stand does not matter, as long as they are segments: what is written before them is nothing
or ends with a separator, and what is written behind them is nothing or starts with one. -/
theorem isMatch_globstar_repeated (options : Options) (globstar : options.globstar = true)
    {front run back : String} (starts : AreDirectories options.platform front.toList)
    (parted : run ≠ "") (separate : ∀ c ∈ run.toList, options.platform.isSeparator c = true)
    (ends : options.platform.EndsName back.toList) {twice : Matcher}
    (compiled : compile options (front ++ "**" ++ run ++ "**" ++ back) = .ok twice) :
    ∃ once, compile options (front ++ "**" ++ back) = .ok once ∧
      ∀ (path : String) (engine : Engine),
        (once.isMatch path engine = true → twice.MayMatch path engine) ∧
          (twice.isMatch path engine = true → once.MayMatch path engine) := by
  have writtenOnce : (front ++ "**" ++ back).toList = front.toList ++ ('*' :: '*' :: back.toList) := by
    simp [String.toList_append]
  have writtenTwice : (front ++ "**" ++ run ++ "**" ++ back).toList =
      front.toList ++ ('*' :: '*' :: (run.toList ++ '*' :: '*' :: back.toList)) := by
    simp [String.toList_append]
  have namesOnce := names_globstar starts ends
  have namesTwice := names_globstar_repeated starts ends (by simpa using parted) separate
  have sameHead : (front ++ "**" ++ back).toList.head? =
      (front ++ "**" ++ run ++ "**" ++ back).toList.head? := by
    rw [writtenOnce, writtenTwice]
    cases front.toList <;> rfl
  have compiles : ∃ once, compile options (front ++ "**" ++ back) = .ok once := by
    have each := exists_compile_iff.mp ⟨twice, compiled⟩
    rw [writtenTwice, namesTwice] at each
    rw [exists_compile_iff, writtenOnce, namesOnce]
    intro name isName
    refine each name ?_
    simp only [List.mem_append, List.mem_cons] at isName ⊢
    rcases isName with inFront | isStars | inBack
    · exact .inl inFront
    · exact .inr (.inl isStars)
    · exact .inr (.inr (.inr inBack))
  obtain ⟨once, compiledOnce⟩ := compiles
  refine ⟨once, compiledOnce, fun path engine => ?_⟩
  have star := not_isSeparator_star options.platform
  have same : SegmentsMatch options
        (placedNames options.platform (front ++ "**" ++ run ++ "**" ++ back).toList) path.toList ↔
      SegmentsMatch options
        (placedNames options.platform (front ++ "**" ++ back).toList) path.toList := by
    rw [placedNames, placedNames, sameHead, writtenOnce, writtenTwice, namesOnce, namesTwice]
    split
    · rw [← List.cons_append, ← List.cons_append, segmentsMatch_globstar_repeated_iff globstar]
    · rw [segmentsMatch_globstar_repeated_iff globstar]
  constructor
  · intro matched
    obtain ⟨_, matched⟩ := (isMatch_iff_placedNames compiledOnce (by simp) star path engine).mp matched
    exact mayMatch_of_placedNames compiled (by simp) star (same.mpr matched) engine
  · intro matched
    obtain ⟨_, matched⟩ := (isMatch_iff_placedNames compiled (by simp) star path engine).mp matched
    exact mayMatch_of_placedNames compiledOnce (by simp) star (same.mp matched) engine

/-- Two globstars behind a check, on a platform with two separators. -/
theorem isMatch_globstar_repeated_check :
    AreDirectories .windows "!(b)/".toList ∧ "/\\" ≠ "" ∧
      (∀ c ∈ "/\\".toList, Platform.windows.isSeparator c = true) ∧
      Platform.windows.EndsName "\\c/**".toList ∧
      ∃ twice once, compile { platform := .windows } "!(b)/**/\\**\\c/**" = .ok twice ∧
        compile { platform := .windows } "!(b)/**\\c/**" = .ok once ∧
        twice.isMatch "a/x\\y//c\\d" .standard = true ∧
        once.isMatch "a/x\\y//c\\d" .standard = true := by
  have starts : AreDirectories .windows "!(b)/".toList := by
    simp [AreDirectories, Platform.isSeparator, Platform.separators]
  have separate : ∀ c ∈ "/\\".toList, Platform.windows.isSeparator c = true := by
    simp [Platform.isSeparator, Platform.separators]
  have ends : Platform.windows.EndsName "\\c/**".toList := by
    simp [Platform.EndsName, Platform.isSeparator, Platform.separators]
  have compiled : compile { platform := .windows } ("!(b)/" ++ "**" ++ "/\\" ++ "**" ++ "\\c/**") =
      .ok ⟨_, globPattern { platform := .windows } "!(b)/**/\\**\\c/**", rfl⟩ := rfl
  have compiledOnce : compile { platform := .windows } ("!(b)/" ++ "**" ++ "\\c/**") =
      .ok ⟨_, globPattern { platform := .windows } "!(b)/**\\c/**", rfl⟩ := rfl
  have matched : Matcher.isMatch ⟨{ platform := .windows },
      globPattern { platform := .windows } "!(b)/**/\\**\\c/**", rfl⟩ "a/x\\y//c\\d" .standard =
        true := by
    decide +kernel
  have answered : Matcher.givesUp ⟨{ platform := .windows },
      globPattern { platform := .windows } "!(b)/**\\c/**", rfl⟩ "a/x\\y//c\\d" .standard ≠ true := by
    decide +kernel
  obtain ⟨once, compiledOther, same⟩ :=
    isMatch_globstar_repeated _ rfl starts (by decide) separate ends compiled
  obtain rfl := Except.ok.inj (compiledOnce.symm.trans compiledOther)
  have left := (same "a/x\\y//c\\d" .standard).2 matched
  exact ⟨starts, by decide, separate, ends, _, _, compiled, compiledOnce, matched,
    left.resolve_right answered⟩

/-- With a second globstar in front of the first one, every way that the first one can go is tried from
every place where the second one can end. The engine gets through the ways of one globstar, but not
through those of two. -/
theorem isMatch_globstar_repeated_stuck :
    ∃ (path : String) (twice once : Matcher),
      path = String.ofList ("a/".toList ++ (List.replicate 15 "x/".toList).flatten ++
        List.replicate 15 '/') ∧
      compile {} "**/**/a+(?)!(z)" = .ok twice ∧ compile {} "**/a+(?)!(z)" = .ok once ∧
      once.isMatch path .standard = true ∧ twice.isMatch path .standard = false := by
  have compiled : compile {} "**/**/a+(?)!(z)" =
      .ok ⟨{}, globPattern {} "**/**/a+(?)!(z)", rfl⟩ := rfl
  have compiledOnce : compile {} "**/a+(?)!(z)" =
      .ok ⟨{}, globPattern {} "**/a+(?)!(z)", rfl⟩ := rfl
  refine ⟨_, _, _, rfl, compiled, compiledOnce, ?_, ?_⟩
  · exact (isMatch_backtracking rfl).trans (by decide +kernel)
  · exact (isMatch_backtracking rfl).trans (by decide +kernel)

end Matcher

end PathGlob
