import PathGlob.Glob.Pattern
import PathGlob.Proofs.GlobIdempotence
import PathGlob.Proofs.GlobReading

/-! # Normal globs compile to the same source

How many separators part the segments of a glob or stand at its end says nothing to the compiler, and
without `.` and `..` these are all that normalizing changes. So a POSIX glob without such segments
has the source of its normal form. On Windows this is not so: there a drive may get a `.`.
-/

namespace PathGlob

namespace Path

variable {platform : Platform} {parts resolved : List (List Char)} {root : Root} {closed : Bool}

/-- What is written after a root are the segments that were left, apart from empty ones. -/
theorem Root.filter_body (kept : resolved = [] → root.isAbsolute = true)
    (nonempty : ∀ segment ∈ resolved, segment ≠ []) :
    (root.body resolved closed).filter (· ≠ []) = resolved := by
  have same : resolved.filter (· ≠ []) = resolved := List.filter_eq_self.mpr (by simpa using nonempty)
  have noEnd : (ending closed).filter (· ≠ []) = [] := by cases closed <;> rfl
  by_cases nothing : resolved = []
  · subst nothing
    rw [body, if_pos ⟨rfl, kept rfl⟩]
    rfl
  · rw [body, if_neg fun bare => nothing bare.1, if_neg nothing, List.filter_append, noEnd, same,
      List.append_nil]

/-- Without `.` and `..`, the segments of a POSIX path keep their names and the separator in front. -/
theorem posix_normalSegments_spec (written : parts ≠ []) (something : parts ≠ [[]])
    (plain : ∀ segment ∈ parts, segment ≠ dot ∧ segment ≠ dotDot) :
    (normalSegments .posix parts).filter (· ≠ []) = parts.filter (· ≠ []) ∧
      ((∃ next others, normalSegments .posix parts = [] :: next :: others) ↔
        ∃ next others, parts = [] :: next :: others) := by
  have nonempty : ∀ segment ∈ parts.filter (· ≠ []), segment ≠ [] :=
    fun segment isName => by simpa using List.of_mem_filter isName
  have left (aboveRoot : Bool) : resolve aboveRoot parts = parts.filter (· ≠ []) :=
    resolve_of_names plain
  obtain ⟨first, others, rfl⟩ := List.exists_cons_of_ne_nil written
  generalize ends : isClosed (first :: others) = closed
  cases first with
  | nil =>
    obtain ⟨next, others, rfl⟩ : ∃ next more, others = next :: more :=
      List.exists_cons_of_ne_nil fun alone => something (congrArg (List.cons []) alone)
    have form : normalSegments .posix ([] :: next :: others) =
        [] :: Root.top.body (([] :: next :: others).filter (· ≠ [])) closed := by
      rw [← left false, ← ends]
      rfl
    obtain ⟨after, more, behind⟩ := List.exists_cons_of_ne_nil
      (Root.top.body_ne_nil (([] :: next :: others).filter (· ≠ [])) closed)
    refine ⟨?_, iff_of_true ⟨after, more, form.trans (congrArg _ behind)⟩ ⟨next, others, rfl⟩⟩
    rw [form, List.filter_cons_of_neg (by simp), Root.filter_body (fun _ => rfl) nonempty]
  | cons c first =>
    have kept : ((c :: first) :: others).filter (· ≠ []) = (c :: first) :: others.filter (· ≠ []) :=
      List.filter_cons_of_pos (by simp)
    have form : normalSegments .posix ((c :: first) :: others) =
        Root.here.body (((c :: first) :: others).filter (· ≠ [])) closed := by
      rw [← left true, ← ends]
      rfl
    refine ⟨?_, iff_of_false ?_ (by rintro ⟨next, more, ⟨⟩⟩)⟩
    · rw [form]
      exact Root.filter_body (fun nothing => absurd (kept.symm.trans nothing) (by simp)) nonempty
    · rw [form, kept, Root.body_cons]
      rintro ⟨next, more, ⟨⟩⟩

end Path

namespace Glob

open PathGlob.Path (dot dotDot)

variable {segments : List (List Char)} {globstar : Bool}

/-- Without `..` there is nothing to shield. -/
theorem shieldSegments_of_no_parent (plain : dotDot ∉ segments) (previous : List Char) :
    shieldSegments previous segments = segments := by
  induction segments generalizing previous with
  | nil => rfl
  | cons segment rest ih =>
    obtain ⟨named, plain⟩ := not_or.mp (mt List.mem_cons.mpr plain)
    rw [shieldSegments, if_neg fun both => named both.1.symm, ih plain]

/-- Without `.` and `..`, a POSIX glob has the names of its normal form, and starts with a separator
if the normal form does. -/
theorem posix_normalForm_spec {glob : List Char} (nonempty : glob ≠ []) (unmarked : shieldMark ∉ glob)
    (plain : ∀ segment ∈ Path.segments .posix glob, segment ≠ dot ∧ segment ≠ dotDot) :
    Path.names .posix (normalForm .posix globstar glob) = Path.names .posix glob ∧
      (normalForm .posix globstar glob).head?.any Platform.posix.isSeparator =
        glob.head?.any Platform.posix.isSeparator := by
  have unguarded : guarded globstar (Path.segments .posix glob) = Path.segments .posix glob := by
    have noParent : dotDot ∉ Path.segments .posix glob :=
      fun isSegment => (plain dotDot isSegment).2 rfl
    cases globstar with
    | true => exact shieldSegments_of_no_parent noParent []
    | false => rfl
  have form : Path.segments .posix (normalForm .posix globstar glob) =
      Path.normalSegments .posix (Path.segments .posix glob) := by
    rw [segments_normalForm unmarked, normalSegments, unguarded]
    exact map_unshield_of_not_mem
      (shieldMark_not_mem_pathSegments (shieldMark_not_mem_segments unmarked))
  obtain ⟨sameNames, sameStart⟩ := Path.posix_normalSegments_spec (Path.segments_ne_nil .posix glob)
    (mt Path.segments_eq_singleton_nil_iff.mp nonempty) plain
  refine ⟨?_, ?_⟩
  · rw [Path.names, form, sameNames, Path.names]
  · rw [Bool.eq_iff_iff, Path.head?_any_isSeparator_iff, Path.head?_any_isSeparator_iff, form,
      sameStart]

end Glob

variable {options : Options} {glob : String}

/-- The expression of a glob is made from its names and from whether a separator stands in front. -/
theorem globPattern_congr {other : String}
    (sameNames : Path.names options.platform other.toList = Path.names options.platform glob.toList)
    (sameStart : other.toList.head?.any options.platform.isSeparator =
      glob.toList.head?.any options.platform.isSeparator) :
    globPattern options other = globPattern options glob := by
  rw [globPattern, globPattern, Glob.ofText_eq, Glob.ofText_eq, sameNames, sameStart]

/-- A POSIX glob with nothing to resolve has a normal form, and both are compiled to the same
source. -/
theorem globSource_normalize (options : Options) (globstar : Bool) (glob : String)
    (posix : options.platform = .posix) (nonempty : glob ≠ "")
    (unmarked : Glob.shieldMark ∉ glob.toList)
    (plain : ∀ segment ∈ Path.segments .posix glob.toList,
      segment ≠ Path.dot ∧ segment ≠ Path.dotDot) :
    ∃ normal, Glob.normalize options.platform globstar glob = .ok normal ∧
      globSource options normal = globSource options glob := by
  refine ⟨_, Glob.normalize_eq_ok_iff.mpr ⟨unmarked, rfl⟩, ?_⟩
  have written : glob.toList ≠ [] := by simpa using nonempty
  rw [globSource, globSource, globPattern_congr]
  · rw [posix, String.toList_ofList, (Glob.posix_normalForm_spec written unmarked plain).1]
  · rw [posix, String.toList_ofList, (Glob.posix_normalForm_spec written unmarked plain).2]

/-- Only separators are dropped here, and `..` is not one of the segments although two of them start
with it. -/
theorem globSource_normalize_separators :
    Glob.normalize .posix true "//**//..a/...//" = .ok "/**/..a/.../" ∧
      ∃ normal, Glob.normalize .posix true "//**//..a/...//" = .ok normal ∧
        globSource {} normal = globSource {} "//**//..a/...//" :=
  ⟨by decide,
    globSource_normalize {} true "//**//..a/...//" rfl (by decide) (by decide) (by decide)⟩

end PathGlob
