import Mathlib.Data.List.Pairwise
import PathGlob.Proofs.CaseVariants

/-! # Characters with one folding

Being the same up to case is having the same folding. No code point lies in two runs of the table,
and no target lies in any, so folding twice is folding once and the variants of a character are the
characters with its folding (`Text.mem_caseVariants_iff_fold_eq`).
-/

namespace PathGlob.Text

namespace FoldRun

def Contains (run : FoldRun) (code : Nat) : Prop :=
  run.first ≤ code ∧ code ≤ run.last ∧ (code - run.first) % run.step = 0

def lastTarget (run : FoldRun) : Nat :=
  run.target + (run.last - run.first)

/-- Code points that are no surrogates. -/
def IsScalar (first last : Nat) : Prop :=
  first ≤ last ∧ (last < 0xd800 ∨ (0xdfff < first ∧ last < 0x110000))

instance (first last : Nat) : Decidable (IsScalar first last) :=
  inferInstanceAs (Decidable (_ ∧ _))

variable {run other : FoldRun} {code target : Nat}

private theorem image?_eq_some_iff :
    run.image? code = some target ↔ run.Contains code ∧ target = run.target + (code - run.first) := by
  unfold image?
  split
  · next inside => simp [Contains, inside, eq_comm]
  · next outside => simp [Contains, outside]

/-- A run leads back from a target to the code point that it folds to it. -/
theorem source?_eq_some_iff (ordered : run.first ≤ run.last) :
    run.source? target = some code ↔ run.image? code = some target := by
  rw [image?_eq_some_iff]
  unfold source? Contains
  split
  · rw [Option.some.injEq]
    constructor
    · rintro rfl
      rw [Nat.add_sub_cancel_left]
      omega
    · rintro ⟨_, rfl⟩
      omega
  · next outside =>
    refine iff_of_false (by simp) ?_
    rintro ⟨⟨above, below, aligned⟩, rfl⟩
    rw [Nat.add_sub_cancel_left] at outside
    exact outside ⟨Nat.le_add_right _ _, by omega, aligned⟩

end FoldRun

open FoldRun

/-- A run is over before the next one starts. The targets of a run that leaves out every second code
point may be those in between. -/
private theorem foldRuns_isChain : foldRuns.IsChain fun run next =>
    run.last + run.step ≤ next.first ∧ next.first ≤ next.last := by
  decide +kernel

private theorem foldRuns_isScalar : ∀ run ∈ foldRuns,
    0 < run.step ∧ IsScalar run.first run.last ∧ IsScalar run.target run.lastTarget := by
  decide +kernel

/-- The targets of a run lie before the next run that ends behind the first of them, or in between
its code points. -/
private theorem foldRuns_targets : ∀ run ∈ foldRuns,
    (foldRuns.find? fun other => run.target.ble other.last).all fun other =>
      run.lastTarget < other.first ∨ ((run.step = 2 ∨ run.first = run.last) ∧ other.step = 2 ∧
        (run.target + other.first) % 2 = 1 ∧ run.lastTarget ≤ other.last + 1) := by
  decide +kernel

variable {run other : FoldRun} {code target : Nat} {c d : Char}

private theorem toNat_ofNat_of_isScalar {first last : Nat} (scalar : IsScalar first last)
    (above : first ≤ code) (below : code ≤ last) : (Char.ofNat code).toNat = code := by
  have valid : code.isValidChar := by
    unfold IsScalar at scalar
    unfold Nat.isValidChar
    omega
  rw [Char.ofNat, dif_pos valid]
  rfl

private theorem toNat_ofNat_source (isRun : run ∈ foldRuns) (inside : run.Contains code) :
    (Char.ofNat code).toNat = code :=
  toNat_ofNat_of_isScalar (foldRuns_isScalar run isRun).2.1 inside.1 inside.2.1

private theorem toNat_ofNat_image (isRun : run ∈ foldRuns) (image : run.image? code = some target) :
    (Char.ofNat target).toNat = target := by
  obtain ⟨⟨above, below, _⟩, rfl⟩ := image?_eq_some_iff.mp image
  refine toNat_ofNat_of_isScalar (foldRuns_isScalar run isRun).2.2 (Nat.le_add_right _ _) ?_
  unfold lastTarget
  omega

/-- Of two runs, the one in front is over before the other one starts. -/
private theorem foldRuns_pairwise :
    foldRuns.Pairwise fun run other => run.last + run.step ≤ other.first := by
  have transitive : IsTrans FoldRun fun run next =>
      run.last + run.step ≤ next.first ∧ next.first ≤ next.last := ⟨by intros; omega⟩
  exact (List.isChain_iff_pairwise.mp foldRuns_isChain).imp fun before => before.1

/-- A code point lies in one run at most. -/
private theorem eq_of_contains (isRun : run ∈ foldRuns) (isOther : other ∈ foldRuns)
    (inside : run.Contains code) (insideOther : other.Contains code) : run = other := by
  have apart : foldRuns.Pairwise fun run other =>
      run.last + run.step ≤ other.first ∨ other.last + other.step ≤ run.first :=
    foldRuns_pairwise.imp Or.inl
  have symmetric : Std.Symm fun run other : FoldRun =>
      run.last + run.step ≤ other.first ∨ other.last + other.step ≤ run.first := ⟨fun _ _ => Or.symm⟩
  by_contra different
  have apart := apart.forall isRun isOther different
  have steps := (foldRuns_isScalar run isRun).1
  have otherSteps := (foldRuns_isScalar other isOther).1
  unfold Contains at inside insideOther
  omega

/-- No run folds a target. -/
private theorem not_contains_image (isRun : run ∈ foldRuns) (image : run.image? code = some target)
    (isOther : other ∈ foldRuns) : ¬other.Contains target := by
  rintro ⟨above, below, aligned⟩
  obtain ⟨⟨codeAbove, codeBelow, codeAligned⟩, rfl⟩ := image?_eq_some_iff.mp image
  have targets := foldRuns_targets run isRun
  cases found : foldRuns.find? fun other => run.target.ble other.last with
  | none =>
    have ended := List.find?_eq_none.mp found other isOther
    rw [Nat.ble_eq] at ended
    omega
  | some next =>
    rw [found, Option.all_some, decide_eq_true_iff, lastTarget] at targets
    obtain ⟨_, front, back, split, ended⟩ := List.find?_eq_some_iff_append.mp found
    have pairwise := foldRuns_pairwise
    rw [split] at isOther pairwise
    rcases List.mem_append.mp isOther with isBefore | isBehind
    · have ended := ended other isBefore
      rw [Bool.not_eq_true', ← Bool.not_eq_true, Nat.ble_eq] at ended
      omega
    rcases List.mem_cons.mp isBehind with rfl | isBehind
    · rcases targets with before | ⟨steps, twoSteps, odd, _⟩
      · omega
      · rw [twoSteps] at aligned
        rcases steps with twoSteps | single
        · rw [twoSteps] at codeAligned
          omega
        · omega
    · have behind := (List.pairwise_cons.mp (List.pairwise_append.mp pairwise).2.1).1 other isBehind
      rcases targets with before | ⟨_, twoSteps, _, _⟩
      · have ordered := (foldRuns_isScalar next (split ▸ by simp)).2.1.1
        omega
      · omega

/-- A character that a run folds has that folding. -/
theorem fold_eq_of_image? (isRun : run ∈ foldRuns) (image : run.image? c.toNat = some target) :
    fold c = Char.ofNat target := by
  unfold fold
  split
  · next found =>
    obtain ⟨other, isOther, otherImage⟩ := List.exists_of_findSome?_eq_some found
    have same := eq_of_contains isRun isOther (image?_eq_some_iff.mp image).1
      (image?_eq_some_iff.mp otherImage).1
    rw [← same, image, Option.some.injEq] at otherImage
    rw [otherImage]
  · next none =>
    rw [List.findSome?_eq_none_iff.mp none run isRun] at image
    cases image

/-- A character is folded by a run or keeps itself. -/
theorem fold_cases (c : Char) :
    (∃ run ∈ foldRuns, run.image? c.toNat = some (fold c).toNat) ∨
      ((∀ run ∈ foldRuns, run.image? c.toNat = none) ∧ fold c = c) := by
  cases found : foldRuns.findSome? (·.image? c.toNat) with
  | none => exact .inr ⟨List.findSome?_eq_none_iff.mp found, by rw [fold, found]⟩
  | some target =>
    obtain ⟨run, isRun, image⟩ := List.exists_of_findSome?_eq_some found
    refine .inl ⟨run, isRun, ?_⟩
    rw [fold_eq_of_image? isRun image, toNat_ofNat_image isRun image, image]

/-- Folding twice is folding once. -/
theorem fold_fold (c : Char) : fold (fold c) = fold c := by
  rcases fold_cases c with ⟨run, isRun, image⟩ | ⟨_, kept⟩
  · rcases fold_cases (fold c) with ⟨other, isOther, again⟩ | ⟨_, kept⟩
    · exact absurd (image?_eq_some_iff.mp again).1 (not_contains_image isRun image isOther)
    · exact kept
  · rw [kept, kept]

/-- The variants of a character are the characters with its folding. -/
theorem mem_caseVariants_iff_fold_eq : d ∈ caseVariants c ↔ fold d = fold c := by
  rw [caseVariants, List.mem_cons]
  constructor
  · rintro (rfl | source)
    · exact fold_fold c
    · obtain ⟨code, isSource, rfl⟩ := List.mem_map.mp source
      obtain ⟨run, isRun, found⟩ := List.mem_filterMap.mp isSource
      rw [source?_eq_some_iff (foldRuns_isScalar run isRun).2.1.1] at found
      have written := toNat_ofNat_source isRun (image?_eq_some_iff.mp found).1
      rw [← written] at found
      rw [fold_eq_of_image? isRun found, Char.ofNat_toNat]
  · intro same
    rcases fold_cases d with ⟨run, isRun, image⟩ | ⟨_, kept⟩
    · rw [same, ← source?_eq_some_iff (foldRuns_isScalar run isRun).2.1.1] at image
      exact .inr (List.mem_map.mpr
        ⟨d.toNat, List.mem_filterMap.mpr ⟨run, isRun, image⟩, Char.ofNat_toNat d⟩)
    · exact .inl (kept.symm.trans same)

theorem caseVariants_congr (same : fold c = fold d) : caseVariants c = caseVariants d := by
  rw [caseVariants, same, caseVariants]

theorem mem_caseVariants_self (c : Char) : c ∈ caseVariants c :=
  mem_caseVariants_iff_fold_eq.mpr rfl

end PathGlob.Text
