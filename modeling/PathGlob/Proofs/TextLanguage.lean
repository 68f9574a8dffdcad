import Mathlib.Data.List.Basic
import PathGlob.Proofs.CaseVariants
import PathGlob.Regex.MatchExact

/-! # What an expression takes off a text

`Regex.Takes` speaks of letters; here the same is said of plain texts, matched with case or without.
Every constructor has its law, and an expression that is repeated over single characters takes runs
of them.
-/

namespace PathGlob

open Relation

variable {caseInsensitive : Bool} {text rest : List Char}

theorem letters_eq_map (caseInsensitive : Bool) (text : List Char) :
    letters caseInsensitive text = text.map fun c => ⟨c, alike caseInsensitive c⟩ := rfl

@[simp] theorem letters_nil : letters caseInsensitive [] = [] := rfl

@[simp] theorem letters_cons (c : Char) (text : List Char) :
    letters caseInsensitive (c :: text) =
      ⟨c, alike caseInsensitive c⟩ :: letters caseInsensitive text := rfl

theorem letters_injective : Function.Injective (letters caseInsensitive) := by
  intro text other same
  rw [letters_eq_map, letters_eq_map] at same
  exact List.map_injective_iff.mpr (fun c d sameLetter => congrArg Letter.char sameLetter) same

@[simp] theorem letters_inj :
    letters caseInsensitive text = letters caseInsensitive rest ↔ text = rest :=
  letters_injective.eq_iff

/-- Tests that agree on the letters of a text hold at the same places. -/
theorem before_letters_congr {accepts accepts' : Letter → Bool}
    (same : ∀ c ∈ text, accepts ⟨c, alike caseInsensitive c⟩ = accepts' ⟨c, alike caseInsensitive c⟩) :
    Places.before accepts (letters caseInsensitive text) =
      Places.before accepts' (letters caseInsensitive text) :=
  Places.before_congr (by simpa [letters_eq_map] using same)

private theorem exists_letters_of_suffix {left : List Letter}
    (suffix : left <:+ letters caseInsensitive text) :
    ∃ rest, left = letters caseInsensitive rest := by
  obtain ⟨taken, split⟩ := suffix
  obtain ⟨_, rest, _, _, rfl⟩ := List.map_eq_append_iff.mp split.symm
  exact ⟨rest, rfl⟩

namespace Regex

/-- An expression takes characters off the front of a text and leaves a rest. -/
def TakesText (caseInsensitive : Bool) (regex : Regex) (text rest : List Char) : Prop :=
  regex.Takes (letters caseInsensitive text) (letters caseInsensitive rest)

variable {first second body : Regex}

/-- All that an expression can leave of a text is a text. -/
theorem exists_takes_iff (regex : Regex) (further : List Letter → Prop) :
    (∃ middle, regex.Takes (letters caseInsensitive text) middle ∧ further middle) ↔
      ∃ middle, regex.TakesText caseInsensitive text middle ∧
        further (letters caseInsensitive middle) := by
  constructor
  · rintro ⟨middle, taken, holds⟩
    obtain ⟨middle, rfl⟩ := exists_letters_of_suffix taken.isSuffix
    exact ⟨middle, taken, holds⟩
  · rintro ⟨middle, taken, holds⟩
    exact ⟨_, taken, holds⟩

@[simp] theorem takesText_empty : empty.TakesText caseInsensitive text rest ↔ rest = text := by
  simp [TakesText]

@[simp] theorem not_takesText_never : ¬never.TakesText caseInsensitive text rest := id

/-- An expression for one letter takes one character. -/
private theorem exists_letter_iff {accepts : Letter → Prop} :
    (∃ letter, letters caseInsensitive text = letter :: letters caseInsensitive rest ∧
        accepts letter) ↔
      ∃ d, text = d :: rest ∧ accepts ⟨d, alike caseInsensitive d⟩ := by
  constructor
  · rintro ⟨letter, split, accepted⟩
    cases text with
    | nil => cases split
    | cons d text =>
      rw [letters_cons, List.cons.injEq, letters_inj] at split
      obtain ⟨rfl, rfl⟩ := split
      exact ⟨d, rfl, accepted⟩
  · rintro ⟨d, rfl, accepted⟩
    exact ⟨_, rfl, accepted⟩

@[simp] theorem takesText_char {c : Char} :
    (char c).TakesText caseInsensitive text rest ↔
      ∃ d, text = d :: rest ∧ c ∈ alike caseInsensitive d := exists_letter_iff

@[simp] theorem takesText_anyChar :
    anyChar.TakesText caseInsensitive text rest ↔ ∃ d, text = d :: rest ∧ d ≠ '\n' := exists_letter_iff

@[simp] theorem takesText_cls {c : CharClass} :
    (cls c).TakesText caseInsensitive text rest ↔
      ∃ d, text = d :: rest ∧ c.accepts (alike caseInsensitive d) = true := exists_letter_iff

@[simp] theorem takesText_seq :
    (seq first second).TakesText caseInsensitive text rest ↔
      ∃ middle, first.TakesText caseInsensitive text middle ∧
        second.TakesText caseInsensitive middle rest := exists_takes_iff first _

@[simp] theorem takesText_alt :
    (alt first second).TakesText caseInsensitive text rest ↔
      first.TakesText caseInsensitive text rest ∨ second.TakesText caseInsensitive text rest := Iff.rfl

@[simp] theorem takesText_group :
    (group body).TakesText caseInsensitive text rest ↔ body.TakesText caseInsensitive text rest :=
  Iff.rfl

@[simp] theorem takesText_notAhead :
    (notAhead body).TakesText caseInsensitive text rest ↔
      rest = text ∧ ¬∃ other, body.TakesText caseInsensitive text other := by
  have ahead : (∃ other, body.Takes (letters caseInsensitive text) other) ↔
      ∃ other, body.TakesText caseInsensitive text other := by
    simpa only [and_true] using exists_takes_iff body fun _ => True
  simp only [TakesText, takes_notAhead, ahead, letters_inj]

theorem takesText_oneOrMore :
    (oneOrMore body).TakesText caseInsensitive text rest ↔
      TransGen (body.TakesText caseInsensitive) text rest := by
  constructor
  · intro taken
    have steps : ∀ left, TransGen body.Takes (letters caseInsensitive text) left →
        ∃ rest, left = letters caseInsensitive rest ∧
          TransGen (body.TakesText caseInsensitive) text rest := by
      intro left taken
      induction taken with
      | single only =>
        obtain ⟨rest, rfl⟩ := exists_letters_of_suffix only.isSuffix
        exact ⟨rest, rfl, .single only⟩
      | tail _ last earlier =>
        obtain ⟨middle, rfl, before⟩ := earlier
        obtain ⟨rest, rfl⟩ := exists_letters_of_suffix last.isSuffix
        exact ⟨rest, rfl, before.tail last⟩
    obtain ⟨left, same, taken⟩ := steps _ taken
    rwa [letters_inj.mp same]
  · intro taken
    exact TransGen.lift (letters caseInsensitive) (fun _ _ taken => taken) _ _ taken

theorem takesText_zeroOrMore :
    (zeroOrMore body).TakesText caseInsensitive text rest ↔
      ReflTransGen (body.TakesText caseInsensitive) text rest := by
  rw [TakesText, takes_zeroOrMore, reflTransGen_iff_eq_or_transGen,
    reflTransGen_iff_eq_or_transGen, ← takesText_oneOrMore, letters_inj]
  exact Iff.rfl

/-- Once or more is once and then any number of times. -/
theorem takesText_oneOrMore_iff_seq :
    (oneOrMore body).TakesText caseInsensitive text rest ↔
      (seq body (zeroOrMore body)).TakesText caseInsensitive text rest := by
  rw [takesText_oneOrMore, TransGen.head'_iff, takesText_seq]
  simp only [takesText_zeroOrMore]

@[simp] theorem takesText_zeroOrOne :
    (zeroOrOne body).TakesText caseInsensitive text rest ↔
      rest = text ∨ body.TakesText caseInsensitive text rest := by
  simp [TakesText]

/-- What an expression leaves of a text is the end of the text. -/
theorem TakesText.suffix {regex : Regex} (taken : regex.TakesText caseInsensitive text rest) :
    rest <:+ text := by
  obtain ⟨front, split⟩ := Takes.isSuffix taken
  obtain ⟨front, back, rfl, _, same⟩ := List.map_eq_append_iff.mp split.symm
  obtain rfl := letters_injective same
  exact List.suffix_append front back

/-- A whole path is matched if it is taken with nothing left. -/
theorem isMatch_letters_iff {regex : Regex} {path : List Char} :
    regex.isMatch (letters caseInsensitive path) = true ↔
      regex.TakesText caseInsensitive path [] := isMatch_iff

section Runs

variable {fits : Char → Prop}
  (single : ∀ text rest, body.TakesText caseInsensitive text rest ↔ ∃ c, text = c :: rest ∧ fits c)

include single

/-- Repeating an expression for a single character takes runs of such characters. -/
theorem takesText_zeroOrMore_iff_run :
    (zeroOrMore body).TakesText caseInsensitive text rest ↔
      ∃ run, text = run ++ rest ∧ ∀ c ∈ run, fits c := by
  rw [takesText_zeroOrMore]
  constructor
  · intro taken
    induction taken using ReflTransGen.head_induction_on with
    | refl => exact ⟨[], rfl, by simp⟩
    | head first _ later =>
      obtain ⟨c, rfl, fitting⟩ := (single _ _).mp first
      obtain ⟨run, rfl, all⟩ := later
      exact ⟨c :: run, rfl, by simpa [fitting] using all⟩
  · rintro ⟨run, rfl, all⟩
    induction run with
    | nil => exact .refl
    | cons c run ih =>
      obtain ⟨fitting, others⟩ := List.forall_mem_cons.mp all
      exact .head ((single _ _).mpr ⟨c, rfl, fitting⟩) (ih others)

theorem takesText_oneOrMore_iff_run :
    (oneOrMore body).TakesText caseInsensitive text rest ↔
      ∃ run, run ≠ [] ∧ text = run ++ rest ∧ ∀ c ∈ run, fits c := by
  rw [takesText_oneOrMore, TransGen.head'_iff]
  simp only [← takesText_zeroOrMore, takesText_zeroOrMore_iff_run single, single]
  constructor
  · rintro ⟨_, ⟨c, rfl, fitting⟩, run, rfl, all⟩
    exact ⟨c :: run, by simp, rfl, by simpa [fitting] using all⟩
  · rintro ⟨run, nonempty, rfl, all⟩
    obtain ⟨c, run, rfl⟩ := List.exists_cons_of_ne_nil nonempty
    obtain ⟨fitting, others⟩ := List.forall_mem_cons.mp all
    exact ⟨run ++ rest, ⟨c, rfl, fitting⟩, run, rfl, others⟩

end Runs

end Regex

end PathGlob
