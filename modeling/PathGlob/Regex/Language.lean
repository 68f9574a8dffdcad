import Mathlib.Logic.Relation
import PathGlob.Regex.Matching

/-! # What an expression matches

`Regex.Takes` says what an expression means, without a word about how a match is found: which
letters it may take off the front of a text. What it takes may depend on what comes after, because
a check ahead looks at it, but never on what came before.
-/

namespace PathGlob.Regex

/-- An expression takes letters off the front of a text and leaves a rest. -/
def Takes : Regex → List Letter → List Letter → Prop
  | empty => fun text rest => rest = text
  | never => fun _ _ => False
  | char c => fun text rest => ∃ letter, text = letter :: rest ∧ c ∈ letter.alike
  | anyChar => fun text rest => ∃ letter, text = letter :: rest ∧ letter.char ≠ '\n'
  | cls c => fun text rest => ∃ letter, text = letter :: rest ∧ c.accepts letter.alike = true
  | seq first second => fun text rest => ∃ middle, first.Takes text middle ∧ second.Takes middle rest
  | alt first second => fun text rest => first.Takes text rest ∨ second.Takes text rest
  | group body => body.Takes
  | notAhead body => fun text rest => rest = text ∧ ¬∃ other, body.Takes text other
  | zeroOrMore body => Relation.ReflTransGen body.Takes
  | oneOrMore body => Relation.TransGen body.Takes
  | zeroOrOne body => fun text rest => rest = text ∨ body.Takes text rest

def Matches (regex : Regex) (text : List Letter) : Prop :=
  regex.Takes text []

variable {regex first second body : Regex} {text rest : List Letter}

@[simp] theorem takes_empty : empty.Takes text rest ↔ rest = text := Iff.rfl

@[simp] theorem not_takes_never : ¬never.Takes text rest := id

@[simp] theorem takes_char {c : Char} :
    (char c).Takes text rest ↔ ∃ letter, text = letter :: rest ∧ c ∈ letter.alike := Iff.rfl

@[simp] theorem takes_anyChar :
    anyChar.Takes text rest ↔ ∃ letter, text = letter :: rest ∧ letter.char ≠ '\n' := Iff.rfl

@[simp] theorem takes_cls {c : CharClass} :
    (cls c).Takes text rest ↔ ∃ letter, text = letter :: rest ∧ c.accepts letter.alike = true :=
  Iff.rfl

@[simp] theorem takes_seq :
    (seq first second).Takes text rest ↔
      ∃ middle, first.Takes text middle ∧ second.Takes middle rest := Iff.rfl

@[simp] theorem takes_alt :
    (alt first second).Takes text rest ↔ first.Takes text rest ∨ second.Takes text rest := Iff.rfl

@[simp] theorem takes_group : (group body).Takes text rest ↔ body.Takes text rest := Iff.rfl

@[simp] theorem takes_notAhead :
    (notAhead body).Takes text rest ↔ rest = text ∧ ¬∃ other, body.Takes text other := Iff.rfl

@[simp] theorem takes_zeroOrMore :
    (zeroOrMore body).Takes text rest ↔ Relation.ReflTransGen body.Takes text rest := Iff.rfl

@[simp] theorem takes_oneOrMore :
    (oneOrMore body).Takes text rest ↔ Relation.TransGen body.Takes text rest := Iff.rfl

@[simp] theorem takes_zeroOrOne :
    (zeroOrOne body).Takes text rest ↔ rest = text ∨ body.Takes text rest := Iff.rfl

/-- What is left is the end of the text. -/
theorem Takes.isSuffix (taken : regex.Takes text rest) : rest <:+ text := by
  induction regex generalizing text rest with
  | empty => exact taken ▸ List.suffix_refl _
  | never => exact taken.elim
  | char | anyChar | cls =>
    obtain ⟨letter, rfl, _⟩ := taken
    exact List.suffix_cons letter rest
  | seq first second firstSuffix secondSuffix =>
    obtain ⟨middle, before, after⟩ := taken
    exact (secondSuffix after).trans (firstSuffix before)
  | alt first second firstSuffix secondSuffix =>
    exact taken.elim (fun taken => firstSuffix taken) fun taken => secondSuffix taken
  | group body bodySuffix => exact bodySuffix taken
  | notAhead => exact taken.1 ▸ List.suffix_refl _
  | zeroOrMore body bodySuffix =>
    rw [takes_zeroOrMore] at taken
    induction taken with
    | refl => exact List.suffix_refl _
    | tail _ last earlier => exact (bodySuffix last).trans earlier
  | oneOrMore body bodySuffix =>
    rw [takes_oneOrMore] at taken
    induction taken with
    | single only => exact bodySuffix only
    | tail _ last earlier => exact (bodySuffix last).trans earlier
  | zeroOrOne body bodySuffix =>
    exact taken.elim (fun same => same ▸ List.suffix_refl _) fun taken => bodySuffix taken

end PathGlob.Regex
