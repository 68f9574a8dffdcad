import PathGlob.Platform
import PathGlob.Regex.Matching

/-! # Characters without case

Most of the ASCII characters that are no letters have no variants: they count as the same only as
themselves, with case or without. The separators of paths and the newline are among them.
-/

namespace PathGlob

/-- The characters that count as the same as a character of a path. -/
def alike (caseInsensitive : Bool) (c : Char) : List Char :=
  if caseInsensitive then Text.caseVariants c else [c]

namespace Text

/-- An ASCII character other than NUL, before the lower-case letters and no upper-case letter. -/
def IsCaseless (c : Char) : Prop :=
  (0 < c.toNat ∧ c.toNat < 0x41) ∨ (0x5a < c.toNat ∧ c.toNat < 0x61)

/-- Apart from the run of the ASCII letters, the runs and their targets lie behind the caseless
characters. -/
private theorem foldRuns_bounds :
    ∀ run ∈ foldRuns, 0x61 ≤ run.target ∧
      ((0x41 ≤ run.first ∧ run.first ≤ run.last ∧ run.last ≤ 0x5a) ∨ 0x61 ≤ run.first) := by
  decide +kernel

private theorem toNat_ofNat (code : Nat) :
    (Char.ofNat code).toNat = code ∨ (Char.ofNat code).toNat = 0 := by
  by_cases valid : code.isValidChar
  · left
    rw [Char.ofNat, dif_pos valid]
    rfl
  · right
    rw [Char.ofNat, dif_neg valid]
    rfl

/-- Nothing folds to a caseless character but itself. -/
theorem eq_of_fold_eq {c d : Char} (caseless : IsCaseless c) (folds : fold d = c) : d = c := by
  unfold fold at folds
  split at folds
  · next code found =>
    obtain ⟨run, isRun, image⟩ := List.exists_of_findSome?_eq_some found
    have bounds := foldRuns_bounds run isRun
    have large : 0x61 ≤ code := by
      unfold FoldRun.image? at image
      split at image
      · obtain rfl := Option.some.inj image
        omega
      · cases image
    have := toNat_ofNat code
    rw [folds] at this
    unfold IsCaseless at caseless
    omega
  · exact folds

/-- A caseless character folds to itself. -/
theorem fold_eq_self {c : Char} (caseless : IsCaseless c) : fold c = c := by
  unfold fold
  split
  · next code found =>
    obtain ⟨run, isRun, image⟩ := List.exists_of_findSome?_eq_some found
    have bounds := foldRuns_bounds run isRun
    unfold FoldRun.image? at image
    unfold IsCaseless at caseless
    split at image
    · omega
    · cases image
  · rfl

theorem mem_caseVariants_iff {c : Char} (caseless : IsCaseless c) (d : Char) :
    c ∈ caseVariants d ↔ c = d := by
  rw [caseVariants, List.mem_cons]
  constructor
  · rintro (folds | source)
    · exact (eq_of_fold_eq caseless folds.symm).symm
    · obtain ⟨code, isSource, rfl⟩ := List.mem_map.mp source
      obtain ⟨run, isRun, found⟩ := List.mem_filterMap.mp isSource
      have bounds := foldRuns_bounds run isRun
      have := toNat_ofNat code
      unfold IsCaseless at caseless
      unfold FoldRun.source? at found
      split at found
      · obtain rfl := Option.some.inj found
        omega
      · cases found
  · rintro rfl
    exact .inl (fold_eq_self caseless).symm

/-- A caseless character is its only variant. -/
theorem caseVariants_eq_singleton {c : Char} (caseless : IsCaseless c) : caseVariants c = [c] := by
  have noSource : foldRuns.filterMap (·.source? c.toNat) = [] := by
    rw [List.filterMap_eq_nil_iff]
    intro run isRun
    have bounds := foldRuns_bounds run isRun
    unfold IsCaseless at caseless
    refine if_neg fun inRun => ?_
    omega
  rw [caseVariants, fold_eq_self caseless, noSource, List.map_nil]

end Text

theorem alike_eq_singleton {c : Char} (caseless : Text.IsCaseless c) (caseInsensitive : Bool) :
    alike caseInsensitive c = [c] := by
  cases caseInsensitive with
  | false => rfl
  | true => exact Text.caseVariants_eq_singleton caseless

theorem mem_alike_iff {c : Char} (caseless : Text.IsCaseless c) (caseInsensitive : Bool) (d : Char) :
    c ∈ alike caseInsensitive d ↔ c = d := by
  cases caseInsensitive with
  | false => simp [alike]
  | true => simpa [alike] using Text.mem_caseVariants_iff caseless d

theorem Platform.isCaseless_of_isSeparator (platform : Platform) {c : Char}
    (separates : platform.isSeparator c = true) : Text.IsCaseless c := by
  have member : c ∈ platform.separators := by simpa [isSeparator] using separates
  cases platform <;> simp [separators] at member
  · rcases member with rfl | rfl <;> simp [Text.IsCaseless]
  · subst member
    simp [Text.IsCaseless]

end PathGlob
