import PathGlob.Regex.Language
import PathGlob.Regex.PlaceLaws

/-! # Matching is exact

The matcher finds a match of an expression exactly where the language of the expression has one
(`Regex.isMatch_iff`). A place of a text stands for what is left of the text there, so an expression
that takes letters leads from one place to another, and the plan of an expression turns goals into
the places that it leads from.
-/

namespace PathGlob.Regex

open Relation

/-- An expression leads from one place of a text to another. -/
def Leads (regex : Regex) (text : List Letter) (place goal : Nat) : Prop :=
  place ≤ text.length ∧ goal ≤ text.length ∧ regex.Takes (text.drop place) (text.drop goal)

variable {regex first second body : Regex} {text rest : List Letter} {place goal : Nat}

/-- What is left at two places differs. -/
private theorem place_unique (inside : place ≤ text.length) (goalInside : goal ≤ text.length)
    (same : text.drop place = text.drop goal) : place = goal := by
  have := congrArg List.length same
  simp only [List.length_drop] at this
  omega

/-- Every end of what is left at a place is what is left at some place. -/
private theorem exists_place (isSuffix : rest <:+ text.drop place) :
    ∃ goal ≤ text.length, rest = text.drop goal := by
  have isSuffix := isSuffix.trans (List.drop_suffix place text)
  exact ⟨text.length - rest.length, Nat.sub_le _ _, List.suffix_iff_eq_drop.1 isSuffix⟩

/-- An expression does not lead back. -/
theorem Leads.le (leads : regex.Leads text place goal) : place ≤ goal := by
  obtain ⟨inside, goalInside, taken⟩ := leads
  have := taken.isSuffix.length_le
  simp only [List.length_drop] at this
  omega

/-- An expression leads somewhere if it takes anything. -/
theorem exists_leads_iff :
    (∃ goal, regex.Leads text place goal) ↔
      place ≤ text.length ∧ ∃ other, regex.Takes (text.drop place) other := by
  constructor
  · rintro ⟨goal, inside, _, taken⟩
    exact ⟨inside, _, taken⟩
  · rintro ⟨inside, other, taken⟩
    obtain ⟨goal, goalInside, rfl⟩ := exists_place taken.isSuffix
    exact ⟨goal, inside, goalInside, taken⟩

theorem leads_empty_iff : empty.Leads text place goal ↔ goal = place ∧ place ≤ text.length := by
  constructor
  · rintro ⟨inside, goalInside, same⟩
    exact ⟨place_unique goalInside inside same, inside⟩
  · rintro ⟨rfl, inside⟩
    exact ⟨inside, inside, rfl⟩

/-- A part that takes one letter leads to the next place. -/
theorem leads_letter_iff {accepts : Letter → Bool}
    (takes : ∀ {text rest}, regex.Takes text rest ↔
      ∃ letter, text = letter :: rest ∧ accepts letter = true) :
    regex.Leads text place goal ↔
      goal = place + 1 ∧ (Places.before accepts text).testBit place = true := by
  rw [Places.testBit_before_iff, Leads, takes]
  constructor
  · rintro ⟨_, _, letter, next, accepted⟩
    have := congrArg List.length next
    simp only [List.length_drop, List.length_cons] at this
    obtain rfl : goal = place + 1 := by omega
    exact ⟨rfl, letter, next, accepted⟩
  · rintro ⟨rfl, letter, next, accepted⟩
    have := congrArg List.length next
    simp only [List.length_drop, List.length_cons] at this
    exact ⟨by omega, by omega, letter, next, accepted⟩

theorem leads_seq_iff :
    (seq first second).Leads text place goal ↔
      ∃ middle, first.Leads text place middle ∧ second.Leads text middle goal := by
  constructor
  · rintro ⟨inside, goalInside, rest, taken, left⟩
    obtain ⟨middle, middleInside, rfl⟩ := exists_place taken.isSuffix
    exact ⟨middle, ⟨inside, middleInside, taken⟩, middleInside, goalInside, left⟩
  · rintro ⟨middle, ⟨inside, _, taken⟩, _, goalInside, left⟩
    exact ⟨inside, goalInside, _, taken, left⟩

theorem leads_alt_iff :
    (alt first second).Leads text place goal ↔
      first.Leads text place goal ∨ second.Leads text place goal := by
  simp only [Leads, takes_alt, and_or_left]

theorem leads_zeroOrOne_iff :
    (zeroOrOne body).Leads text place goal ↔
      empty.Leads text place goal ∨ body.Leads text place goal := by
  simp only [Leads, takes_zeroOrOne, takes_empty, and_or_left]

theorem leads_notAhead_iff :
    (notAhead body).Leads text place goal ↔
      goal = place ∧ place ≤ text.length ∧ ¬∃ other, body.Leads text place other := by
  constructor
  · rintro ⟨inside, goalInside, same, fails⟩
    obtain rfl := place_unique goalInside inside same
    exact ⟨rfl, inside, fun leads => fails (exists_leads_iff.1 leads).2⟩
  · rintro ⟨rfl, inside, fails⟩
    exact ⟨inside, inside, rfl, fun taken => fails (exists_leads_iff.2 ⟨inside, taken⟩)⟩

private theorem exists_transGen_leads (inside : place ≤ text.length)
    (reached : TransGen body.Takes (text.drop place) rest) :
    ∃ goal ≤ text.length, rest = text.drop goal ∧ TransGen (body.Leads text) place goal := by
  induction reached with
  | single taken =>
    obtain ⟨goal, goalInside, rfl⟩ := exists_place taken.isSuffix
    exact ⟨goal, goalInside, rfl, .single ⟨inside, goalInside, taken⟩⟩
  | tail _ taken earlier =>
    obtain ⟨between, betweenInside, rfl, reached⟩ := earlier
    obtain ⟨goal, goalInside, rfl⟩ := exists_place taken.isSuffix
    exact ⟨goal, goalInside, rfl, reached.tail ⟨betweenInside, goalInside, taken⟩⟩

/-- Repetition leads along the places that its body leads between. -/
theorem leads_oneOrMore_iff :
    (oneOrMore body).Leads text place goal ↔ TransGen (body.Leads text) place goal := by
  constructor
  · rintro ⟨inside, goalInside, taken⟩
    obtain ⟨other, otherInside, same, reached⟩ := exists_transGen_leads inside taken
    rwa [place_unique goalInside otherInside same]
  · intro reached
    induction reached with
    | single leads => exact ⟨leads.1, leads.2.1, .single leads.2.2⟩
    | tail _ leads earlier => exact ⟨earlier.1, leads.2.1, earlier.2.2.tail leads.2.2⟩

/-- A repetition begins with its body. -/
theorem leads_oneOrMore_iff_leads_seq :
    (oneOrMore body).Leads text place goal ↔ (seq body (zeroOrMore body)).Leads text place goal := by
  simp only [Leads, takes_oneOrMore, takes_seq, takes_zeroOrMore, TransGen.head'_iff]

theorem leads_zeroOrMore_iff :
    (zeroOrMore body).Leads text place goal ↔
      empty.Leads text place goal ∨ (oneOrMore body).Leads text place goal := by
  simp only [Leads, takes_zeroOrMore, takes_oneOrMore, takes_empty, reflTransGen_iff_eq_or_transGen,
    and_or_left]

/-- The places from which one letter leads to some goals. -/
theorem testBit_step_iff {accepts : Letter → Bool}
    (takes : ∀ {text rest}, regex.Takes text rest ↔
      ∃ letter, text = letter :: rest ∧ accepts letter = true) (goals : Places) :
    ((Plan.step (Places.before accepts text)).starts goals).testBit place = true ↔
      ∃ goal, goals.testBit goal = true ∧ regex.Leads text place goal := by
  rw [Plan.starts, Nat.testBit_and, Bool.and_eq_true, Nat.testBit_shiftRight, Nat.add_comm]
  simp only [leads_letter_iff takes]
  constructor
  · rintro ⟨held, accepted⟩
    exact ⟨_, held, rfl, accepted⟩
  · rintro ⟨_, held, rfl, accepted⟩
    exact ⟨held, accepted⟩

/-- The places that stay are goals themselves. -/
theorem testBit_stay_iff (goals : Places) :
    ((Plan.stay (Places.all text.length)).starts goals).testBit place = true ↔
      ∃ goal, goals.testBit goal = true ∧ empty.Leads text place goal := by
  rw [Plan.starts, Nat.testBit_and, Places.testBit_all]
  simp [leads_empty_iff, and_left_comm]

/-- One place is a bounded set. -/
theorem below_only (inside : place ≤ text.length) :
    (Places.only place).Below (text.length + 1) := by
  intro goal held
  rw [Places.testBit_only, decide_eq_true_eq] at held
  omega

/-- If the plan of a body is exact, then so is the table of its repetition. -/
private theorem testBit_leap_iff
    (exact : ∀ (goals : Places) (place : Nat), goals.Below (text.length + 1) →
      ((((body.trial text).plan text.length).starts goals).testBit place = true ↔
        ∃ goal, goals.testBit goal = true ∧ body.Leads text place goal))
    (goals : Places) (bounded : goals.Below (text.length + 1)) :
    ((Plan.leap (Leaps.ofMove ((body.trial text).plan text.length).starts
        (text.length + 1))).starts goals).testBit place = true ↔
      ∃ goal, goals.testBit goal = true ∧ (oneOrMore body).Leads text place goal := by
  have covers : (Leaps.ofMove ((body.trial text).plan text.length).starts
      (text.length + 1)).Covers (body.Leads text) := by
    apply Leaps.covers_ofMove _ fun place goal leads => leads.le
    intro goal inside place
    rw [exact _ _ (below_only (Nat.le_of_lt_succ inside))]
    simp [Places.testBit_only]
  have covered : goals.Below (Leaps.ofMove ((body.trial text).plan text.length).starts
      (text.length + 1)).size := by
    rwa [Leaps.size_ofMove]
  rw [Plan.starts, Leaps.starts_iff covers _ goals covered covered]
  simp only [leads_oneOrMore_iff]

/-- The plan of an expression leads to goals from exactly the places that the expression does. -/
theorem testBit_starts_plan_iff (regex : Regex) (goals : Places)
    (bounded : goals.Below (text.length + 1)) :
    (((regex.trial text).plan text.length).starts goals).testBit place = true ↔
      ∃ goal, goals.testBit goal = true ∧ regex.Leads text place goal := by
  induction regex generalizing goals place with
  | empty => exact testBit_stay_iff goals
  | never => simp [trial, Trial.plan, Plan.starts, Leads]
  | char c => exact testBit_step_iff (by simp) goals
  | anyChar => exact testBit_step_iff (by simp) goals
  | cls c => exact testBit_step_iff (by simp) goals
  | seq first second firstExact secondExact =>
    have middles : (((second.trial text).plan text.length).starts goals).Below (text.length + 1) := by
      intro middle held
      obtain ⟨_, _, inside, _⟩ := (secondExact goals bounded).1 held
      omega
    rw [trial, Trial.plan, Plan.starts, firstExact _ middles]
    simp only [secondExact _ bounded, leads_seq_iff]
    constructor
    · rintro ⟨middle, ⟨goal, held, left⟩, taken⟩
      exact ⟨goal, held, middle, taken, left⟩
    · rintro ⟨goal, held, middle, taken, left⟩
      exact ⟨middle, ⟨goal, held, left⟩, taken⟩
  | alt first second firstExact secondExact =>
    rw [trial, Trial.plan, Plan.starts, Nat.testBit_or, Bool.or_eq_true, firstExact goals bounded,
      secondExact goals bounded]
    simp only [leads_alt_iff, and_or_left, exists_or]
  | group body exact => exact exact goals bounded
  | notAhead body bodyExact =>
    have everywhere : (Places.all text.length).Below (text.length + 1) := by
      intro goal held
      rw [Places.testBit_all, decide_eq_true_eq] at held
      omega
    have ahead :
        (((body.trial text).plan text.length).starts (Places.all text.length)).testBit place = true ↔
          ∃ goal, body.Leads text place goal := by
      rw [bodyExact _ everywhere]
      exact exists_congr fun goal =>
        and_iff_right_of_imp fun leads => by simpa [Places.testBit_all] using leads.2.1
    rw [trial, Trial.plan, Plan.starts, Nat.testBit_and, Bool.and_eq_true, Places.testBit_without,
      Bool.and_eq_true, Places.testBit_all, decide_eq_true_eq, Bool.not_eq_true',
      ← Bool.not_eq_true, ahead]
    simp [leads_notAhead_iff, and_left_comm]
  | zeroOrMore body bodyExact =>
    rw [trial, Trial.plan, Plan.starts, Nat.testBit_or, Bool.or_eq_true, testBit_stay_iff,
      testBit_leap_iff (fun goals place => bodyExact goals) goals bounded]
    simp only [leads_zeroOrMore_iff, and_or_left, exists_or]
  | oneOrMore body bodyExact =>
    exact testBit_leap_iff (fun goals place => bodyExact goals) goals bounded
  | zeroOrOne body bodyExact =>
    rw [trial, Trial.plan, Plan.starts, Nat.testBit_or, Bool.or_eq_true, testBit_stay_iff,
      bodyExact goals bounded]
    simp only [leads_zeroOrOne_iff, and_or_left, exists_or]

/-- The matcher finds a match exactly where there is one. -/
theorem isMatch_iff : regex.isMatch text = true ↔ regex.Matches text := by
  rw [isMatch, Trial.isMatch, testBit_starts_plan_iff regex _ (below_only (Nat.le_refl _))]
  simp only [Places.testBit_only, decide_eq_true_eq, Leads, Matches]
  constructor
  · rintro ⟨goal, rfl, _, _, taken⟩
    simpa using taken
  · intro taken
    exact ⟨text.length, rfl, by omega, by omega, by simpa using taken⟩

end PathGlob.Regex
