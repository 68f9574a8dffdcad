import PathGlob.Proofs.CompileRefusal
import PathGlob.Proofs.ReadingOptions
import PathGlob.Proofs.TextPieces

/-! # Where the two platforms agree

The platforms differ in what separates and in what escapes. In a glob without backslashes and grave
accents nothing escapes on either platform and only `/` separates, so it is read as the same segments.
What these compile to differs wherever separators are named; on paths without backslashes, though, it
comes to the same trial (`Glob.trial_pattern_posix`), so that an engine gives the same answer.
-/

namespace PathGlob

section Patterns

/-- Only a backslash separates on one platform and not on the other. -/
theorem Platform.isSeparator_posix {c : Char} (common : c ≠ '\\') :
    posix.isSeparator c = windows.isSeparator c := by
  simp [isSeparator, separators, common]

variable {caseInsensitive : Bool} {path : List Char} (common : ∀ c ∈ path, c ≠ '\\')

include common

private theorem Platform.trial_separatorPattern_posix :
    posix.separatorPattern.trial (letters caseInsensitive path) =
      windows.separatorPattern.trial (letters caseInsensitive path) := by
  rw [trial_separatorPattern, trial_separatorPattern]
  exact congrArg Trial.letter
    (before_letters_congr fun c inPath => isSeparator_posix (common c inPath))

private theorem Platform.trial_runPattern_posix :
    posix.runPattern.trial (letters caseInsensitive path) =
      windows.runPattern.trial (letters caseInsensitive path) := by
  rw [runPattern, runPattern, Regex.trial, Regex.trial, trial_namePattern, trial_namePattern]
  exact congrArg (fun places => Trial.zeroOrMore (.letter places))
    (before_letters_congr fun c inPath => congrArg not (isSeparator_posix (common c inPath)))

private theorem Platform.trial_partingPattern_posix :
    posix.partingPattern.trial (letters caseInsensitive path) =
      windows.partingPattern.trial (letters caseInsensitive path) :=
  congrArg Trial.oneOrMore (trial_separatorPattern_posix common)

private theorem Platform.trial_trailingPattern_posix :
    posix.trailingPattern.trial (letters caseInsensitive path) =
      windows.trailingPattern.trial (letters caseInsensitive path) :=
  congrArg Trial.zeroOrMore (trial_separatorPattern_posix common)

private theorem Platform.trial_globstarPattern_posix :
    posix.globstarPattern.trial (letters caseInsensitive path) =
      windows.globstarPattern.trial (letters caseInsensitive path) := by
  simp only [globstarPattern, Regex.trial, trial_runPattern_posix common,
    trial_partingPattern_posix common]

/-- A shape comes to the same trial on both platforms. -/
theorem Shape.trial_pattern_posix (shape : Shape) :
    (shape.pattern .posix).trial (letters caseInsensitive path) =
      (shape.pattern .windows).trial (letters caseInsensitive path) := by
  induction shape with
  | empty | char | anyChar => rfl
  | anyRun => exact Platform.trial_runPattern_posix common
  | bracket cls repeated => cases repeated <;> rfl
  | seq first second firstSame secondSame | alt first second firstSame secondSame =>
    simp only [pattern, Regex.trial, firstSame, secondSame]
  | group kind body bodySame =>
    cases kind <;>
      simp only [pattern, Regex.trial, bodySame, Platform.trial_runPattern_posix common]

/-- So do segments. -/
theorem Glob.trial_segmentsPattern_posix (segments : List GlobSegment) :
    (segmentsPattern .posix segments).trial (letters caseInsensitive path) =
      (segmentsPattern .windows segments).trial (letters caseInsensitive path) := by
  induction segments with
  | nil => rfl
  | cons segment others following =>
    cases segment with
    | globstar =>
      cases others with
      | nil =>
        simp only [segmentsPattern, Regex.trial, Platform.trial_globstarPattern_posix common,
          Platform.trial_runPattern_posix common]
      | cons next others =>
        simp only [segmentsPattern, Regex.trial, Platform.trial_globstarPattern_posix common,
          following]
    | shape shape =>
      cases others with
      | nil =>
        simp only [segmentsPattern, Regex.trial, shape.trial_pattern_posix common,
          Platform.trial_trailingPattern_posix common]
      | cons next others =>
        simp only [segmentsPattern, Regex.trial, shape.trial_pattern_posix common,
          Platform.trial_partingPattern_posix common, following]

private theorem Glob.trial_pattern_posix (glob : Glob) :
    (glob.pattern .posix).trial (letters caseInsensitive path) =
      (glob.pattern .windows).trial (letters caseInsensitive path) := by
  unfold pattern
  split
  · rfl
  · exact trial_segmentsPattern_posix common _
  · simp only [Regex.trial, Platform.trial_partingPattern_posix common,
      trial_segmentsPattern_posix common]

end Patterns

section Accepting

/-- What makes an engine refuse an expression does not depend on how separators are written. -/
theorem Shape.isAccepted_pattern_posix (shape : Shape) :
    (shape.pattern .posix).isAccepted = (shape.pattern .windows).isAccepted := by
  have alike : (shape.pattern .posix).depth = (shape.pattern .windows).depth ∧
      (shape.pattern .posix).isBlank = (shape.pattern .windows).isBlank ∧
      (shape.pattern .posix).repeatsBlank = (shape.pattern .windows).repeatsBlank := by
    induction shape with
    | empty | char | anyChar | anyRun => exact ⟨rfl, rfl, rfl⟩
    | bracket cls repeated => cases repeated <;> exact ⟨rfl, rfl, rfl⟩
    | seq first second firstAlike secondAlike | alt first second firstAlike secondAlike =>
      simp only [pattern, Regex.depth, Regex.isBlank, Regex.repeatsBlank, firstAlike, secondAlike,
        and_self]
    | group kind body bodyAlike =>
      cases kind with
      | brace | one | oneOrMore | zeroOrMore | zeroOrOne =>
        simp only [pattern, Regex.depth, Regex.isBlank, Regex.repeatsBlank, bodyAlike, and_self]
      | noneOf =>
        simp only [pattern, Regex.depth, Regex.isBlank, Regex.repeatsBlank, bodyAlike,
          GlobItem.depth_runPattern, GlobItem.repeatsBlank_runPattern, Bool.false_and, and_self]
  rw [Regex.isAccepted, Regex.isAccepted, alike.1, alike.2.2]

end Accepting

section Reading

variable {options : Options} {text : List Char}

/-- A text in which nothing escapes and no backslash separates, on either platform. -/
def IsCommonGlob (text : List Char) : Prop :=
  ∀ c ∈ text, c ≠ '\\' ∧ c ≠ '\x60'

theorem IsCommonGlob.sameMarks (common : IsCommonGlob text) :
    SameMarks { options with platform := .posix } { options with platform := .windows } text :=
  fun c inText => iff_of_false (common c inText).1 (common c inText).2

private theorem IsCommonGlob.names_posix (common : IsCommonGlob text) :
    Path.names .posix text = Path.names .windows text := by
  have sameCuts : Path.segments .posix text = Path.segments .windows text :=
    Text.pieces_congr fun c inText => Platform.isSeparator_posix (common c inText).1
  rw [Path.names, Path.names, sameCuts]

/-- The names of a common glob have the same shapes on both platforms. -/
theorem IsCommonGlob.ofSegment_posix (common : IsCommonGlob text) {name : List Char}
    (isName : name ∈ Path.names .windows text) :
    Shape.ofSegment { options with platform := .posix } name =
      Shape.ofSegment { options with platform := .windows } name := by
  have nameCommon : IsCommonGlob name :=
    fun c inName => common c (Text.mem_of_mem_pieces (List.mem_of_mem_filter isName) inName)
  exact Shape.ofSegment_congr rfl nameCommon.sameMarks

/-- A common glob is read the same on both platforms. -/
theorem IsCommonGlob.ofText_posix (common : IsCommonGlob text) :
    Glob.ofText { options with platform := .posix } text =
      Glob.ofText { options with platform := .windows } text := by
  have sameStart : text.head?.any Platform.posix.isSeparator =
      text.head?.any Platform.windows.isSeparator := by
    cases text with
    | nil => rfl
    | cons c rest => exact Platform.isSeparator_posix (common c List.mem_cons_self).1
  have sameSegments : ∀ name ∈ Path.names .windows text,
      GlobSegment.ofText { options with platform := .posix } name =
        GlobSegment.ofText { options with platform := .windows } name := by
    intro name isName
    rw [GlobSegment.ofText, GlobSegment.ofText, common.ofSegment_posix isName]
  rw [Glob.ofText_eq, Glob.ofText_eq, sameStart, common.names_posix, List.map_congr_left sameSegments]

end Reading

namespace Matcher

end Matcher

end PathGlob
