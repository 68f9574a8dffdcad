import Mathlib.Data.List.Forall2
import PathGlob.Proofs.CaseFolding
import PathGlob.Proofs.CompiledMeaning

/-! # Matching sees a path only up to case

All that an expression sees of a character are its variants and whether it is a newline, so it comes
to the same trial on texts that agree in this, character by character. Without case this leaves of a path no
more than the foldings of its characters: a matcher gives the same answer for two paths of one
folding, whatever classes, repetitions and checks ahead it is made of
(`Matcher.isMatch_eq_of_fold_eq`). Separators and the newline are the only characters with their
folding (`Text.eq_of_fold_eq_fold`).
-/

namespace PathGlob

open Relation

/-- What an expression sees of two characters is the same. -/
def LooksLike (caseInsensitive : Bool) (c d : Char) : Prop :=
  alike caseInsensitive c = alike caseInsensitive d ∧ (c = '\n' ↔ d = '\n')

namespace Text

variable {c d : Char}

/-- A caseless character is the only one with its folding. -/
theorem eq_of_fold_eq_fold (caseless : IsCaseless c) (same : fold d = fold c) : d = c :=
  eq_of_fold_eq caseless (same.trans (fold_eq_self caseless))

/-- Without case, an expression sees only the folding of a character. -/
theorem looksLike_iff_fold_eq : LooksLike true c d ↔ fold c = fold d := by
  have newline : IsCaseless '\n' := .inl (by decide)
  constructor
  · rintro ⟨same, _⟩
    have sameVariants : caseVariants c = caseVariants d := same
    exact mem_caseVariants_iff_fold_eq.mp (sameVariants ▸ mem_caseVariants_self c)
  · intro same
    refine ⟨caseVariants_congr same, ?_, ?_⟩
    · rintro rfl
      exact eq_of_fold_eq_fold newline same.symm
    · rintro rfl
      exact eq_of_fold_eq_fold newline same

end Text

namespace Regex

variable {caseInsensitive : Bool} {text other : List Char}

/-- Tests that do not tell characters apart that look the same hold at the same places. -/
theorem before_letters_eq_of_looksLike {accepts : Letter → Bool}
    (blind : ∀ c d, LooksLike caseInsensitive c d →
      accepts ⟨c, alike caseInsensitive c⟩ = accepts ⟨d, alike caseInsensitive d⟩)
    (same : List.Forall₂ (LooksLike caseInsensitive) text other) :
    Places.before accepts (letters caseInsensitive text) =
      Places.before accepts (letters caseInsensitive other) := by
  induction same with
  | nil => rfl
  | cons looks _ ih => rw [letters_cons, letters_cons, Places.before, Places.before, blind _ _ looks, ih]

/-- An expression comes to the same trial on texts that look the same. -/
theorem trial_eq_of_looksLike (regex : Regex)
    (same : List.Forall₂ (LooksLike caseInsensitive) text other) :
    regex.trial (letters caseInsensitive text) = regex.trial (letters caseInsensitive other) := by
  induction regex with
  | empty | never => rfl
  | char c =>
    exact congrArg Trial.letter
      (before_letters_eq_of_looksLike (fun _ _ looks => by simp only [looks.1]) same)
  | anyChar =>
    refine congrArg Trial.letter (before_letters_eq_of_looksLike (fun c d looks => ?_) same)
    rw [Bool.eq_iff_iff, bne_iff_ne, bne_iff_ne, ne_eq, ne_eq, looks.2]
  | cls c =>
    exact congrArg Trial.letter
      (before_letters_eq_of_looksLike (fun _ _ looks => by simp only [looks.1]) same)
  | seq first second firstSame secondSame | alt first second firstSame secondSame =>
    rw [trial, trial, firstSame, secondSame]
  | group body bodySame | notAhead body bodySame | zeroOrMore body bodySame
  | oneOrMore body bodySame | zeroOrOne body bodySame =>
    rw [trial, trial, bodySame]

end Regex

/-- Without case, a matcher gives the same answer for two paths whose characters have the same
foldings, one by one. So it does where the engine gives up. -/
theorem Matcher.isMatch_eq_of_fold_eq {options : Options} {glob : String} {matcher : Matcher}
    (compiled : compile options glob = .ok matcher) (ignoresCase : options.caseInsensitive = true)
    {path other : String}
    (same : List.Forall₂ (fun c d => Text.fold c = Text.fold d) path.toList other.toList)
    (engine : Engine) :
    matcher.isMatch path engine = matcher.isMatch other engine := by
  have looks : List.Forall₂ (LooksLike options.caseInsensitive) path.toList other.toList := by
    rw [ignoresCase]
    exact same.imp fun _ _ => Text.looksLike_iff_fold_eq.mpr
  have sameLength : (letters options.caseInsensitive path.toList).length =
      (letters options.caseInsensitive other.toList).length := by
    rw [letters_eq_map, letters_eq_map, List.length_map, List.length_map, same.length_eq]
  rw [isMatch, isMatch, answer?_of_compile compiled, answer?_of_compile compiled,
    Engine.answer?_congr sameLength (Regex.trial_eq_of_looksLike _ looks)]

/-- Letters, a Kelvin sign and a long s against a negated range, a difference and a check ahead. -/
theorem Matcher.isMatch_eq_of_fold_eq_kelvin :
    List.Forall₂ (fun c d => Text.fold c = Text.fold d) "Zs\u212a".toList "z\u017fk".toList ∧
      ∃ matcher, compile { caseInsensitive := true } "[!a-k][[:alpha:]--m-p]!(z)" = .ok matcher ∧
        matcher.isMatch "Zs\u212a" .standard = true ∧
        matcher.isMatch "Zs\u212a" .standard = matcher.isMatch "z\u017fk" .standard := by
  have same : List.Forall₂ (fun c d => Text.fold c = Text.fold d)
      "Zs\u212a".toList "z\u017fk".toList := by
    decide +kernel
  have compiled : compile { caseInsensitive := true } "[!a-k][[:alpha:]--m-p]!(z)" =
      .ok ⟨{ caseInsensitive := true },
        globPattern { caseInsensitive := true } "[!a-k][[:alpha:]--m-p]!(z)", rfl⟩ := rfl
  exact ⟨same, _, compiled, by decide +kernel, isMatch_eq_of_fold_eq compiled rfl same .standard⟩

end PathGlob
