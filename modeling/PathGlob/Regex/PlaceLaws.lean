import Mathlib.Logic.Relation
import PathGlob.Regex.Matching

/-! # Sets of places and the moves between them

Which places the sets of `PathGlob.Regex.Matching` hold. The table of a move is read off one place
after the other; because moves only go forward, what leads to a place is complete once all earlier
places are.
-/

namespace PathGlob

namespace Places

theorem testBit_only (place i : Nat) : (only place).testBit i = decide (place = i) := by
  rw [only, Nat.one_shiftLeft, Nat.testBit_two_pow]

theorem testBit_all (length i : Nat) : (all length).testBit i = decide (i ≤ length) := by
  rw [all, only, Nat.one_shiftLeft, Nat.testBit_two_pow_sub_one]
  simp only [Nat.lt_succ_iff]

theorem testBit_without (places others i : Nat) :
    (without places others).testBit i = (places.testBit i && !others.testBit i) := by
  simp only [without, Nat.testBit_xor, Nat.testBit_and]
  cases places.testBit i <;> cases others.testBit i <;> rfl

/-- A place is before an accepted letter if such a letter is the first one left there. -/
theorem before_congr {accepts accepts' : Letter → Bool} {text : List Letter}
    (same : ∀ letter ∈ text, accepts letter = accepts' letter) :
    before accepts text = before accepts' text := by
  induction text with
  | nil => rfl
  | cons letter rest ih =>
    obtain ⟨sameLetter, sameRest⟩ := List.forall_mem_cons.mp same
    rw [before, before, sameLetter, ih sameRest]

theorem testBit_before_iff (accepts : Letter → Bool) (text : List Letter) (i : Nat) :
    (before accepts text).testBit i = true ↔
      ∃ letter, text.drop i = letter :: text.drop (i + 1) ∧ accepts letter = true := by
  induction text generalizing i with
  | nil => simp [before]
  | cons letter rest later =>
    cases i with
    | zero =>
      rw [before, Nat.testBit_zero]
      cases accepted : accepts letter <;> simp [accepted]
    | succ i =>
      have half : ((accepts letter).toNat + 2 * before accepts rest) / 2 = before accepts rest := by
        have := (accepts letter).toNat_lt
        omega
      rw [before, Nat.testBit_succ, half, later]
      simp only [List.drop_succ_cons]

/-- A set holds only places before a bound. -/
def Below (places : Places) (bound : Nat) : Prop :=
  ∀ place, places.testBit place = true → place < bound

end Places

namespace Leaps

open Relation

/-- The tables of a move: for every place they cover, the places from which it is reached. -/
def Covers (leaps : Leaps) (move : Nat → Nat → Prop) : Prop :=
  ∀ place < leaps.size, ∀ i, (leaps.getD place 0).testBit i = true ↔ TransGen move i place

/-- The goals that are dropped because they lead to a greater goal are not missed. -/
theorem starts_iff {leaps : Leaps} {move : Nat → Nat → Prop} (covers : leaps.Covers move)
    (bound : Nat) (goals : Places) (few : goals.Below bound) (covered : goals.Below leaps.size)
    (i : Nat) :
    (leaps.starts bound goals).testBit i = true ↔
      ∃ goal, goals.testBit goal = true ∧ TransGen move i goal := by
  induction bound generalizing goals with
  | zero =>
    constructor
    · simp [starts]
    · rintro ⟨goal, held, _⟩
      exact absurd (few goal held) (Nat.not_lt_zero goal)
  | succ bound earlier =>
    rw [starts]
    split
    next none => simp [none]
    next some =>
      have last : goals.testBit (Nat.log2 goals) = true := Nat.testBit_log2 some
      have sources := covers _ (covered _ last)
      have greatest : ∀ goal, goals.testBit goal = true → goal ≤ Nat.log2 goals := fun goal held =>
        (Nat.le_log2 some).2 (Nat.ge_two_pow_of_testBit held)
      generalize Nat.log2 goals = goal at *
      have left : ∀ other, (Places.without goals (leaps.getD goal 0 ||| Places.only goal)).testBit
          other = true ↔ goals.testBit other = true ∧ ¬TransGen move other goal ∧ goal ≠ other := by
        intro other
        rw [Places.testBit_without, Nat.testBit_or, Places.testBit_only, ← sources]
        simp
      have fewer : (Places.without goals (leaps.getD goal 0 ||| Places.only goal)).Below bound := by
        intro other held
        obtain ⟨held, _, differs⟩ := (left other).1 held
        have := greatest other held
        have := few goal last
        omega
      have stillCovered :
          (Places.without goals (leaps.getD goal 0 ||| Places.only goal)).Below leaps.size :=
        fun other held => covered other ((left other).1 held).1
      rw [Nat.testBit_or, Bool.or_eq_true, sources, earlier _ fewer stillCovered]
      constructor
      · rintro (reached | ⟨other, held, reached⟩)
        · exact ⟨goal, last, reached⟩
        · exact ⟨other, ((left other).1 held).1, reached⟩
      · rintro ⟨other, held, reached⟩
        by_cases leads : TransGen move other goal
        · exact .inl (reached.trans leads)
        · by_cases same : goal = other
          · exact .inl (same ▸ reached)
          · exact .inr ⟨other, (left other).2 ⟨held, leads, same⟩, reached⟩

@[simp] theorem size_extend (step : Places → Places) (leaps : Leaps) :
    (leaps.extend step).size = leaps.size + 1 := by
  simp [extend]

@[simp] theorem size_ofMove (step : Places → Places) (size : Nat) :
    (ofMove step size).size = size := by
  induction size with
  | zero => rfl
  | succ size earlier => rw [ofMove, size_extend, earlier]

private theorem covers_extend {leaps : Leaps} {move : Nat → Nat → Prop} {step : Places → Places}
    (covers : leaps.Covers move) (forward : ∀ i place, move i place → i ≤ place)
    (steps : ∀ i, (step (Places.only leaps.size)).testBit i = true ↔ move i leaps.size) :
    (leaps.extend step).Covers move := by
  intro place inside i
  rw [size_extend] at inside
  by_cases earlier : place < leaps.size
  · have same : (leaps.extend step).getD place 0 = leaps.getD place 0 := by
      simp [extend, Array.getD_eq_getD_getElem?, Array.getElem?_push, Nat.ne_of_lt earlier]
    rw [same, covers place earlier]
  · obtain rfl : place = leaps.size := by omega
    have new : (leaps.extend step).getD leaps.size 0 =
        step (Places.only leaps.size) ||| leaps.starts (leaps.size + 1)
          (Places.without (step (Places.only leaps.size)) (Places.only leaps.size)) := by
      simp [extend, Array.getD_eq_getD_getElem?]
    have others : ∀ other, (Places.without (step (Places.only leaps.size))
        (Places.only leaps.size)).testBit other = true ↔
          move other leaps.size ∧ leaps.size ≠ other := by
      intro other
      rw [Places.testBit_without, Places.testBit_only, ← steps]
      simp
    have covered : (Places.without (step (Places.only leaps.size))
        (Places.only leaps.size)).Below leaps.size := by
      intro other held
      obtain ⟨moved, differs⟩ := (others other).1 held
      have := forward other _ moved
      omega
    rw [new, Nat.testBit_or, Bool.or_eq_true, steps, starts_iff covers _ _
      (fun other held => Nat.lt_succ_of_lt (covered other held)) covered]
    constructor
    · rintro (moved | ⟨other, held, reached⟩)
      · exact .single moved
      · exact reached.tail ((others other).1 held).1
    · intro reached
      generalize last : leaps.size = place at reached
      induction reached with
      | single moved => exact .inl (last ▸ moved)
      | @tail between place reached moved earlier =>
        by_cases same : between = place
        · subst same
          exact earlier last
        · subst last
          exact .inr ⟨between, (others between).2 ⟨moved, Ne.symm same⟩, reached⟩

/-- The table of a move that goes forward covers it. -/
theorem covers_ofMove {move : Nat → Nat → Prop} {step : Places → Places} (size : Nat)
    (forward : ∀ i place, move i place → i ≤ place)
    (steps : ∀ place < size, ∀ i,
      (step (Places.only place)).testBit i = true ↔ move i place) :
    (ofMove step size).Covers move := by
  induction size with
  | zero => exact fun place inside => absurd inside (Nat.not_lt_zero place)
  | succ size earlier =>
    apply covers_extend (earlier fun place inside => steps place (Nat.lt_succ_of_lt inside)) forward
    rw [size_ofMove]
    exact steps size (Nat.lt_succ_self size)

end Leaps

end PathGlob
