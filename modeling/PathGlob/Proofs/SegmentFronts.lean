import PathGlob.Proofs.GlobPatternMeaning

/-! # Fronts of segments

A segment can be read up to any place outside its groups. `GlobGrammar.Front` says what the items in
front of that place are; what stands behind it is kept, since the meaning of a character can depend
on it. The syntax of a segment is complete exactly if that of what is left behind a front of it is
(`Front.exists_isSegment_iff`), and the segment means the items of the front and then those behind
(`Front.segmentTakes_iff`).
-/

namespace PathGlob

/-- The letters and digits of ASCII, and the marks that names of files are often written with. None
of them has a role outside brackets, wherever it stands. -/
def IsWordChar (c : Char) : Prop :=
  c.isAlphanum = true ∨ c ∈ ['.', '_', '-']

theorem IsWordChar.ne {c mark : Char} (isWord : IsWordChar c) (isMark : ¬IsWordChar mark) :
    c ≠ mark := by
  rintro rfl
  exact isMark isWord

instance : DecidablePred IsWordChar :=
  fun c => inferInstanceAs (Decidable (c.isAlphanum = true ∨ c ∈ ['.', '_', '-']))

theorem IsWordChar.not_isSeparator {c : Char} (isWord : IsWordChar c) (platform : Platform) :
    platform.isSeparator c = false := by
  have notSlash : c ≠ '/' := isWord.ne (by decide)
  have notBackslash : c ≠ '\\' := isWord.ne (by decide)
  cases platform <;> simp [Platform.isSeparator, Platform.separators, notSlash, notBackslash]

private theorem IsWordChar.ofOperator?_eq_none {c : Char} (isWord : IsWordChar c) :
    GroupKind.ofOperator? c = none := by
  unfold GroupKind.ofOperator?
  split
  all_goals first | exact absurd isWord (by decide) | rfl

namespace GlobGrammar

open Shape

variable {options : Options} {inside : Option GroupKind} {kind : GroupKind}
variable {text middle rest body : List Char} {items others : List GlobItem}

theorem Single.word {c : Char} (isWord : IsWordChar c) (rest : List Char) :
    Single options inside (c :: rest) (.char c) rest := by
  refine .literal c rest ⟨?_, ?_⟩ ?_
  · simp only [List.mem_cons, List.not_mem_nil, or_false, not_or]
    refine ⟨?_, isWord.ne (by decide), isWord.ne (by decide), isWord.ne (by decide),
      isWord.ne (by decide)⟩
    rcases escapeMark_eq options with mark | mark
    · exact mark ▸ isWord.ne (by decide)
    · exact mark ▸ isWord.ne (by decide)
  · intro kind _
    cases kind <;> exact ⟨isWord.ne (by decide), isWord.ne (by decide)⟩
  · rintro kind body ⟨operator, -, isOperator, opens⟩
    obtain ⟨rfl, -⟩ := List.cons.inj opens
    rw [isWord.ofOperator?_eq_none] at isOperator
    cases isOperator

/-- Reading does not fail on what completes a segment. -/
theorem IsSegment.isSome_resume? (isSegment : IsSegment options text items) (branches : Branches) :
    (resume? options [] branches text).isSome := by
  rw [resume?_of_reads isSegment (by rfl)]
  rfl

variable (options) in
/-- Items stand in front of a place that is outside all groups. -/
inductive Front : List Char → List GlobItem → List Char → Prop
  | nil (text : List Char) : Front text [] text
  | single {text middle rest : List Char} {item : GlobItem} {items : List GlobItem}
      (single : Single options none text item middle) (following : Front middle items rest) :
      Front text (item :: items) rest
  | group {kind : GroupKind} {text body middle rest : List Char} {first : List GlobItem}
      {alternatives : List (List GlobItem)} {items : List GlobItem}
      (opens : Opens options text kind body)
      (content : Reads options (some kind) body (first :: alternatives) middle)
      (following : Front middle items rest) : Front text (.group kind first alternatives :: items) rest

namespace Front

theorem append (front : Front options text items middle) (behind : Front options middle others rest) :
    Front options text (items ++ others) rest := by
  induction front with
  | nil => exact behind
  | single single _ ih => exact .single single (ih behind)
  | group opens content _ ih => exact .group opens content (ih behind)

theorem word {chars : List Char} (isWord : ∀ c ∈ chars, IsWordChar c) (rest : List Char) :
    Front options (chars ++ rest) (chars.map .char) rest := by
  induction chars with
  | nil => exact .nil rest
  | cons c chars ih =>
    obtain ⟨first, others⟩ := List.forall_mem_cons.mp isWord
    exact .single (.word first _) (ih others)

theorem isSegment (front : Front options text items rest) (behind : IsSegment options rest others) :
    IsSegment options text (items ++ others) := by
  induction front with
  | nil => exact behind
  | single single _ ih => exact .single single (ih behind)
  | group opens content _ ih => exact .group opens content (ih behind)

/-- Reading goes over a front. -/
theorem exists_resume?_eq (front : Front options text items rest) (branches : Branches) :
    ∃ next, resume? options [] branches text = resume? options [] next rest := by
  induction front generalizing branches with
  | nil => exact ⟨branches, rfl⟩
  | single single _ ih =>
    rw [resume?_single single (by rfl)]
    exact ih _
  | group opens content _ ih =>
    rw [resume?_opens opens, resume?_of_reads content rfl]
    exact ih _

variable (front : Front options text items rest)

include front

theorem exists_isSegment_iff :
    (∃ all, IsSegment options text all) ↔ ∃ behind, IsSegment options rest behind := by
  constructor
  · rintro ⟨all, isSegment⟩
    obtain ⟨next, same⟩ := front.exists_resume?_eq {}
    have succeeds := isSegment.isSome_resume? {}
    rw [same] at succeeds
    obtain ⟨behind, others, left, reads⟩ := exists_reads_of_resume? succeeds
    obtain ⟨rfl, rfl⟩ := eq_nil_of_reads_none reads
    exact ⟨behind, reads⟩
  · rintro ⟨behind, isSegment⟩
    exact ⟨_, front.isSegment isSegment⟩

/-- Where a group opens behind a front, its content can be read if the syntax is complete. -/
theorem exists_reads_of_opens (opens : Opens options rest kind body)
    (complete : ∃ all, IsSegment options text all) :
    ∃ first alternatives left, Reads options (some kind) body (first :: alternatives) left := by
  obtain ⟨behind, isSegment⟩ := front.exists_isSegment_iff.mp complete
  have succeeds := isSegment.isSome_resume? {}
  rw [resume?_opens opens] at succeeds
  exact exists_reads_of_resume? succeeds

/-- A segment takes what the items of a front take and then the segment behind it. -/
theorem segmentTakes_iff (complete : ∃ all, IsSegment options text all) {path left : List Char} :
    GlobMeaning.SegmentTakes options text path left ↔ ∃ middle,
      GlobItem.BranchTakes options items path middle ∧
        GlobMeaning.SegmentTakes options rest middle left := by
  obtain ⟨behind, isSegment⟩ := front.exists_isSegment_iff.mp complete
  rw [(front.isSegment isSegment).segmentTakes_iff, GlobItem.branchTakes_append]
  simp only [isSegment.segmentTakes_iff]

end Front

end GlobGrammar

end PathGlob
