import Mathlib.Algebra.BigOperators.Group.List.Basic
import Mathlib.Tactic.Ring
import PathGlob.Proofs.PathResolution

/-! # Runs from different stacks

The same segments are resolved from two stacks. If there is always something above, every segment
takes both stacks up or down alike, so they stay as far apart as they are. Below a root, a `..` that
finds nothing is lost, and the stacks become the same exactly if the higher one is emptied on the way.
-/

namespace PathGlob.Path

variable {stack low high segments : List (List Char)} {segment : List Char}

/-- How far a stack is above where it started: a name is one up, and a `..` one down. -/
def height (stack : List (List Char)) : ℤ :=
  (stack.map fun segment => if segment = dotDot then -1 else 1).sum

/-- How far a segment leads up. -/
def rise (segment : List Char) : ℤ :=
  if segment = [] ∨ segment = dot then 0 else if segment = dotDot then -1 else 1

section Relative

private theorem height_dotDot_cons (stack : List (List Char)) :
    height (dotDot :: stack) = height stack - 1 := by
  rw [height, List.map_cons, List.sum_cons, if_pos rfl, ← height]
  ring

theorem height_cons_of_name (named : segment ≠ dotDot) (stack : List (List Char)) :
    height (segment :: stack) = height stack + 1 := by
  rw [height, List.map_cons, List.sum_cons, if_neg named, ← height]
  ring

private theorem rise_of_name (nonempty : segment ≠ []) (notDot : segment ≠ dot)
    (named : segment ≠ dotDot) :
    rise segment = 1 := by
  rw [rise, if_neg (not_or.mpr ⟨nonempty, notDot⟩), if_neg named]

private theorem height_descend (stack : List (List Char)) (segment : List Char) :
    height (descend true stack segment) = height stack + rise segment := by
  rcases descend_cases true stack segment with
    ⟨skipped, same⟩ | ⟨rfl, last, below, rfl, named, same⟩ | ⟨rfl, _, same⟩ |
      ⟨nonempty, notDot, named, same⟩
  · rw [same, rise, if_pos skipped, add_zero]
  · have down : rise dotDot = -1 := rfl
    rw [same, height_cons_of_name named, down]
    ring
  · rw [same, if_pos rfl, height_dotDot_cons]
    rfl
  · rw [same, height_cons_of_name named, rise_of_name nonempty notDot named]

private theorem height_foldl_descend (stack segments : List (List Char)) :
    height (segments.foldl (descend true) stack) = height stack + (segments.map rise).sum := by
  induction segments generalizing stack with
  | nil => exact (add_zero _).symm
  | cons segment segments ih =>
    rw [List.foldl_cons, ih, height_descend, List.map_cons, List.sum_cons, add_assoc]

/-- Stacks of different heights stay different. -/
theorem foldl_descend_ne_of_height_ne (apart : height low ≠ height high)
    (segments : List (List Char)) :
    segments.foldl (descend true) low ≠ segments.foldl (descend true) high := by
  intro same
  have heights := congrArg height same
  rw [height_foldl_descend, height_foldl_descend] at heights
  exact apart (add_right_cancel heights)

end Relative

section Absolute

/-- Below a root, a segment is skipped, takes a name away if there is one, or adds one. -/
theorem length_descend (settled : IsResolved false stack) (segment : List Char) :
    (descend false stack segment).length =
      if segment = [] ∨ segment = dot then stack.length
      else if segment = dotDot then stack.length - 1 else stack.length + 1 := by
  rcases descend_cases false stack segment with
    ⟨skipped, same⟩ | ⟨rfl, last, below, rfl, named, same⟩ | ⟨rfl, parents, same⟩ |
      ⟨nonempty, notDot, named, same⟩
  · rw [same, if_pos skipped]
  · rw [same]
    rfl
  · cases stack with
    | nil => rfl
    | cons last below => exact absurd (settled.2.2.1 (parents last rfl)).1 Bool.false_ne_true
  · rw [same, if_neg (not_or.mpr ⟨nonempty, notDot⟩), if_neg named, List.length_cons]

private theorem length_foldl_descend_le (settledLow : IsResolved false low)
    (settledHigh : IsResolved false high) (le : low.length ≤ high.length)
    (segments : List (List Char)) :
    (segments.foldl (descend false) low).length ≤ (segments.foldl (descend false) high).length := by
  induction segments generalizing low high with
  | nil => exact le
  | cons segment segments ih =>
    refine ih (settledLow.descend segment) (settledHigh.descend segment) ?_
    rw [length_descend settledLow, length_descend settledHigh]
    split_ifs <;> omega

/-- If the higher stack is emptied, the lower one is empty there as well. -/
theorem foldl_descend_eq_of_emptied (settledLow : IsResolved false low)
    (settledHigh : IsResolved false high) (le : low.length ≤ high.length) {count : ℕ}
    (emptied : (segments.take count).foldl (descend false) high = []) :
    segments.foldl (descend false) low = segments.foldl (descend false) high := by
  have shorter := length_foldl_descend_le settledLow settledHigh le (segments.take count)
  rw [emptied, List.length_nil, Nat.le_zero, List.length_eq_zero_iff] at shorter
  rw [← List.take_append_drop count segments, List.foldl_append, List.foldl_append, shorter, emptied]

/-- As long as the higher stack is not emptied, the lower one stays below it. -/
theorem length_foldl_descend_lt (settledLow : IsResolved false low)
    (settledHigh : IsResolved false high) (lt : low.length < high.length)
    (never : ∀ count, (segments.take count).foldl (descend false) high ≠ []) :
    (segments.foldl (descend false) low).length < (segments.foldl (descend false) high).length := by
  induction segments generalizing low high with
  | nil => exact lt
  | cons segment segments ih =>
    refine ih (settledLow.descend segment) (settledHigh.descend segment) ?_ fun count =>
      never (count + 1)
    have something : (descend false high segment).length ≠ 0 :=
      fun empty => never 1 (List.length_eq_zero_iff.mp empty)
    rw [length_descend settledHigh] at something
    rw [length_descend settledLow, length_descend settledHigh]
    split_ifs at something ⊢ <;> omega

/-- Below a root, stacks of different lengths become the same exactly if the longer one is emptied. -/
theorem foldl_descend_eq_iff_emptied (settledLow : IsResolved false low)
    (settledHigh : IsResolved false high) (lt : low.length < high.length)
    (segments : List (List Char)) :
    segments.foldl (descend false) low = segments.foldl (descend false) high ↔
      ∃ count, (segments.take count).foldl (descend false) high = [] := by
  constructor
  · intro same
    by_contra never
    have below := length_foldl_descend_lt settledLow settledHigh lt (not_exists.mp never)
    rw [same] at below
    exact lt_irrefl _ below
  · rintro ⟨count, emptied⟩
    exact foldl_descend_eq_of_emptied settledLow settledHigh lt.le emptied

end Absolute

end PathGlob.Path
