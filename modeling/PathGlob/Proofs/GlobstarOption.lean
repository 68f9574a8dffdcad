import PathGlob.Proofs.CompileRefusal
import PathGlob.Proofs.ReadingOptions
import PathGlob.Proofs.SearchTallies

/-! # What turning globstars on changes

Without globstars `**` is a run of stars like any other and takes one name at most. As a globstar it
takes this name as well, together with the separators after it: so a glob matches no less with
globstars than without. Which globs compile does not depend on them.
-/

namespace PathGlob

namespace GlobMeaning

variable {options : Options} {text rest : List Char}

/-- As a segment like any other, `**` takes a run. -/
theorem segmentTakes_stars :
    SegmentTakes options ['*', '*'] text rest ↔ options.platform.TakesRun text rest := by
  have isSegment : GlobGrammar.IsSegment options ['*', '*'] [.anyRun] := by
    refine .single (.anyRun 1 [] (by simp) ?_) .finish
    rintro kind body ⟨_, _, _, ⟨⟩⟩
  rw [isSegment.segmentTakes_iff]
  simp only [GlobItem.BranchTakes, GlobItem.Takes, exists_eq_right']

/-- A name with separators behind it is made up of whole segments, if there are any separators. -/
theorem areDirectories_append {platform : Platform} (name : List Char) {separators : List Char}
    (parted : separators ≠ []) (separate : ∀ c ∈ separators, platform.isSeparator c = true) :
    AreDirectories platform (name ++ separators) := by
  intro c isLast
  rw [List.getLast?_append_of_ne_nil _ parted] at isLast
  exact separate c (List.mem_of_getLast? isLast)

/-- Segments that match a path without globstars match it with them: what a run took together with
the separators after it, the globstar takes. -/
theorem segmentsMatch_of_globstar_off {segments : List (List Char)} {path : List Char}
    (matched : SegmentsMatch { options with globstar := false } segments path) :
    SegmentsMatch { options with globstar := true } segments path := by
  have isShape (segment : List Char) : ¬IsGlobstar { options with globstar := false } segment := by
    simp [IsGlobstar]
  have isGlobstar_iff (segment : List Char) :
      IsGlobstar { options with globstar := true } segment ↔ segment = ['*', '*'] := by
    simp [IsGlobstar]
  induction segments generalizing path with
  | nil => exact matched
  | cons segment others ih =>
    cases others with
    | nil =>
      obtain ⟨globstar, _⟩ | ⟨_, trailing, taken, separate⟩ := matched
      · exact absurd globstar (isShape segment)
      rw [segmentTakes_globstar_iff] at taken
      simp only [SegmentsMatch, isGlobstar_iff, segmentTakes_globstar_iff]
      by_cases stars : segment = ['*', '*']
      · subst stars
        obtain ⟨name, rfl, whole⟩ := segmentTakes_stars.mp taken
        left
        by_cases ends : trailing = []
        · exact ⟨rfl, [], name, by simp [ends], by simp [AreDirectories], whole⟩
        · exact ⟨rfl, name ++ trailing, [], by simp, areDirectories_append name ends separate, by simp⟩
      · exact .inr ⟨stars, trailing, taken, separate⟩
    | cons next others =>
      obtain ⟨globstar, _⟩ | ⟨_, separators, rest, taken, parted, separate, following⟩ := matched
      · exact absurd globstar (isShape segment)
      rw [segmentTakes_globstar_iff] at taken
      have following := ih following
      rw [SegmentsMatch]
      simp only [isGlobstar_iff, segmentTakes_globstar_iff]
      by_cases stars : segment = ['*', '*']
      · subst stars
        obtain ⟨name, rfl, whole⟩ := segmentTakes_stars.mp taken
        left
        exact ⟨rfl, name ++ separators, rest, by simp,
          areDirectories_append name parted separate, following⟩
      · exact .inr ⟨stars, separators, rest, taken, parted, separate, following⟩

end GlobMeaning

namespace Matcher

end Matcher

end PathGlob
