import Mathlib.Data.List.Induction
import Mathlib.Tactic.Tauto
import PathGlob.Proofs.ClassText
import PathGlob.Proofs.RegexSequence

/-! # Expressions laid out as lists

The text of an expression does not say in which order its sequences were put together, so a reader
of the text comes back with one fixed order: `Regex.laidOut`. That order is of no consequence:
expressions that differ only in it (`Regex.Regrouped`) have the same text, take the same, and are
accepted by an engine or not alike.
-/

namespace PathGlob

/-- The signs for repetition. -/
inductive Repetition where
  | zeroOrMore
  | oneOrMore
  | zeroOrOne

namespace Repetition

def sign : Repetition → Char
  | zeroOrMore => '*'
  | oneOrMore => '+'
  | zeroOrOne => '?'

def apply : Repetition → Regex → Regex
  | zeroOrMore => .zeroOrMore
  | oneOrMore => .oneOrMore
  | zeroOrOne => .zeroOrOne

private theorem text_apply (repetition : Repetition) (body : Regex) :
    (repetition.apply body).text = body.text ++ [repetition.sign] := by
  cases repetition <;> rfl

end Repetition

namespace Regex

/-- The alternatives of an expression as the lists of what stands in them one after the other. -/
def layout : Regex → List (List Regex)
  | empty => [[]]
  | never => [[.never]]
  | char c => [[.char c]]
  | anyChar => [[.anyChar]]
  | cls c => [[.cls c]]
  | seq first second => [first.layout.flatten ++ second.layout.flatten]
  | alt first second => first.layout ++ second.layout
  | group body => [[.group (alternatives body.layout)]]
  | notAhead body => [[.notAhead (alternatives body.layout)]]
  | zeroOrMore body => [body.layout.flatten.map .zeroOrMore]
  | oneOrMore body => [body.layout.flatten.map .oneOrMore]
  | zeroOrOne body => [body.layout.flatten.map .zeroOrOne]

/-- An expression with its sequences and alternatives put together from the left. -/
def laidOut (regex : Regex) : Regex :=
  alternatives regex.layout

/-- Whether an expression can be repeated as it stands. -/
def isAtom : Regex → Bool
  | char _ | anyChar | cls _ | group _ => true
  | _ => false

/-- Whether an expression is not made of alternatives, unless they are in a group. -/
def isBranch : Regex → Bool
  | alt _ _ => false
  | _ => true

/-- Whether the text of an expression says what it is: classes mean something and can be read,
repetitions follow something that can be repeated, and alternatives stand in groups. -/
def isWellFormed : Regex → Bool
  | empty | never | char _ | anyChar => true
  | cls c => c.isReadable
  | seq first second =>
    first.isBranch && second.isBranch && first.isWellFormed && second.isWellFormed
  | alt first second => first.isWellFormed && second.isWellFormed
  | group body | notAhead body => body.isWellFormed
  | zeroOrMore body | oneOrMore body | zeroOrOne body => body.isAtom && body.isWellFormed

variable {regex : Regex}

section Parts

theorem layout_ne_nil (regex : Regex) : regex.layout ≠ [] := by
  induction regex with
  | alt first second firstNonempty secondNonempty =>
    exact List.append_ne_nil_of_left_ne_nil firstNonempty second.layout
  | _ => exact List.cons_ne_nil _ _

/-- What is not made of alternatives is laid out as one sequence. -/
theorem exists_layout_of_isBranch (isBranch : regex.isBranch = true) :
    ∃ branch, regex.layout = [branch] := by
  cases regex with
  | alt => cases isBranch
  | _ => exact ⟨_, rfl⟩

/-- What can be repeated is laid out as one expression that can be repeated. -/
theorem exists_layout_of_isAtom (isAtom : regex.isAtom = true) :
    ∃ atom, regex.layout = [[atom]] ∧ atom.isAtom = true := by
  cases regex with
  | char | anyChar | cls | group => exact ⟨_, rfl, rfl⟩
  | _ => cases isAtom

theorem isBranch_of_isAtom (isAtom : regex.isAtom = true) : regex.isBranch = true := by
  cases regex with
  | alt => cases isAtom
  | _ => rfl

/-- One sequence as the only alternative is the sequence. -/
@[simp] theorem alternatives_singleton (branch : List Regex) :
    alternatives [branch] = sequence branch := rfl

end Parts

section WellFormed

private theorem isBranch_foldl_seq (regexes : List Regex) {start : Regex}
    (isBranch : start.isBranch = true) :
    (regexes.foldl .seq start).isBranch = true := by
  induction regexes generalizing start with
  | nil => exact isBranch
  | cons regex others ih => exact ih rfl

theorem isBranch_sequence (regexes : List Regex) : (sequence regexes).isBranch = true :=
  isBranch_foldl_seq regexes rfl

private theorem isWellFormed_foldl_seq_iff (regexes : List Regex) {start : Regex}
    (isBranch : start.isBranch = true) :
    (regexes.foldl .seq start).isWellFormed = true ↔
      start.isWellFormed = true ∧
        ∀ regex ∈ regexes, regex.isBranch = true ∧ regex.isWellFormed = true := by
  induction regexes generalizing start with
  | nil => simp
  | cons regex others ih =>
    rw [List.foldl_cons, ih rfl, List.forall_mem_cons]
    simp only [isWellFormed, isBranch, Bool.true_and, Bool.and_eq_true]
    tauto

theorem isWellFormed_sequence_iff {regexes : List Regex} :
    (sequence regexes).isWellFormed = true ↔
      ∀ regex ∈ regexes, regex.isBranch = true ∧ regex.isWellFormed = true := by
  rw [sequence, isWellFormed_foldl_seq_iff regexes rfl]
  exact and_iff_right rfl

private theorem isWellFormed_foldl_alt_iff (regexes : List Regex) (start : Regex) :
    (regexes.foldl .alt start).isWellFormed = true ↔
      start.isWellFormed = true ∧ ∀ regex ∈ regexes, regex.isWellFormed = true := by
  induction regexes generalizing start with
  | nil => simp
  | cons regex others ih =>
    rw [List.foldl_cons, ih, List.forall_mem_cons, isWellFormed, Bool.and_eq_true, and_assoc]

theorem isWellFormed_alternatives_iff {branches : List (List Regex)} :
    (alternatives branches).isWellFormed = true ↔
      ∀ branch ∈ branches, (sequence branch).isWellFormed = true := by
  cases branches with
  | nil => simp [alternatives, isWellFormed]
  | cons first others =>
    rw [alternatives, isWellFormed_foldl_alt_iff, List.forall_mem_cons, List.forall_mem_map]

end WellFormed

section Regrouped

/-- Two expressions differ only in how their sequences and alternatives are put together. -/
inductive Regrouped : Regex → Regex → Prop
  | refl (regex : Regex) : Regrouped regex regex
  | symm {first second : Regex} (same : Regrouped first second) : Regrouped second first
  | trans {first second third : Regex} (left : Regrouped first second)
      (right : Regrouped second third) : Regrouped first third
  | seqAssoc (first second third : Regex) :
      Regrouped (.seq (.seq first second) third) (.seq first (.seq second third))
  | altAssoc (first second third : Regex) :
      Regrouped (.alt (.alt first second) third) (.alt first (.alt second third))
  | emptySeq {regex : Regex} (isBranch : regex.isBranch = true) : Regrouped (.seq .empty regex) regex
  | seqEmpty {regex : Regex} (isBranch : regex.isBranch = true) : Regrouped (.seq regex .empty) regex
  | seq {first first' second second' : Regex} (left : Regrouped first first')
      (right : Regrouped second second') : Regrouped (.seq first second) (.seq first' second')
  | alt {first first' second second' : Regex} (left : Regrouped first first')
      (right : Regrouped second second') : Regrouped (.alt first second) (.alt first' second')
  | group {body body' : Regex} (same : Regrouped body body') : Regrouped (.group body) (.group body')
  | notAhead {body body' : Regex} (same : Regrouped body body') :
      Regrouped (.notAhead body) (.notAhead body')
  | repeated (repetition : Repetition) {body body' : Regex} (same : Regrouped body body')
      (atoms : body.isAtom = body'.isAtom) :
      Regrouped (repetition.apply body) (repetition.apply body')

namespace Regrouped

variable {first second : Regex}

theorem text_eq (same : Regrouped first second) : first.text = second.text := by
  induction same with
  | refl => rfl
  | symm _ ih => exact ih.symm
  | trans _ _ left right => exact left.trans right
  | repeated repetition _ _ ih => rw [repetition.text_apply, repetition.text_apply, ih]
  | _ => simp_all [text]

theorem isBranch_eq (same : Regrouped first second) : first.isBranch = second.isBranch := by
  induction same with
  | symm _ ih => exact ih.symm
  | trans _ _ left right => exact left.trans right
  | emptySeq alone | seqEmpty alone => exact alone.symm
  | repeated repetition => cases repetition <;> rfl
  | _ => rfl

theorem isWellFormed_eq (same : Regrouped first second) :
    first.isWellFormed = second.isWellFormed := by
  induction same with
  | refl => rfl
  | symm _ ih => exact ih.symm
  | trans _ _ left right => exact left.trans right
  | seqAssoc first second third | altAssoc first second third =>
    simp only [isWellFormed, Regex.isBranch]
    grind
  | emptySeq alone | seqEmpty alone => simp [isWellFormed, alone, show empty.isBranch = true from rfl]
  | seq firstSame secondSame left right =>
    simp only [isWellFormed, firstSame.isBranch_eq, secondSame.isBranch_eq, left, right]
  | alt _ _ left right => simp only [isWellFormed, left, right]
  | group _ ih | notAhead _ ih => exact ih
  | repeated repetition _ atoms ih =>
    cases repetition <;> simp only [Repetition.apply, isWellFormed, atoms, ih]

private theorem depth_eq (same : Regrouped first second) : first.depth = second.depth := by
  induction same with
  | refl => rfl
  | symm _ ih => exact ih.symm
  | trans _ _ left right => exact left.trans right
  | seqAssoc | altAssoc => exact Nat.max_assoc _ _ _
  | repeated repetition _ _ ih => cases repetition <;> exact ih
  | _ => simp_all [depth]

private theorem isBlank_eq (same : Regrouped first second) : first.isBlank = second.isBlank := by
  induction same with
  | symm _ ih => exact ih.symm
  | trans _ _ left right => exact left.trans right
  | seqAssoc => exact Bool.and_assoc _ _ _
  | repeated repetition => cases repetition <;> rfl
  | _ => simp_all [isBlank]

private theorem repeatsBlank_eq (same : Regrouped first second) :
    first.repeatsBlank = second.repeatsBlank := by
  induction same with
  | refl => rfl
  | symm _ ih => exact ih.symm
  | trans _ _ left right => exact left.trans right
  | seqAssoc | altAssoc => exact Bool.or_assoc _ _ _
  | repeated repetition same _ ih =>
    cases repetition <;> simp only [Repetition.apply, repeatsBlank, same.isBlank_eq, ih]
  | _ => simp_all [repeatsBlank]

theorem isAccepted_eq (same : Regrouped first second) : first.isAccepted = second.isAccepted := by
  rw [isAccepted, isAccepted, same.depth_eq, same.repeatsBlank_eq]

/-- What differs only in grouping takes the same. -/
theorem takesText_eq {caseInsensitive : Bool} (same : Regrouped first second) :
    first.TakesText caseInsensitive = second.TakesText caseInsensitive := by
  induction same with
  | refl => rfl
  | symm _ ih => exact ih.symm
  | trans _ _ left right => exact left.trans right
  | seqAssoc first second third =>
    funext text rest
    apply propext
    simp only [takesText_seq]
    constructor
    · rintro ⟨after, ⟨middle, start, next⟩, finish⟩
      exact ⟨middle, start, after, next, finish⟩
    · rintro ⟨middle, start, after, next, finish⟩
      exact ⟨after, ⟨middle, start, next⟩, finish⟩
  | altAssoc first second third =>
    funext text rest
    simp only [takesText_alt, or_assoc]
  | emptySeq | seqEmpty =>
    funext text rest
    simp
  | seq _ _ left right =>
    funext text rest
    simp only [takesText_seq, left, right]
  | alt _ _ left right =>
    funext text rest
    simp only [takesText_alt, left, right]
  | group _ ih =>
    funext text rest
    simp only [takesText_group, ih]
  | notAhead _ ih =>
    funext text rest
    simp only [takesText_notAhead, ih]
  | repeated repetition _ _ ih =>
    funext text rest
    cases repetition <;>
      simp only [Repetition.apply, takesText_zeroOrMore, takesText_oneOrMore, takesText_zeroOrOne, ih]

end Regrouped

end Regrouped

section LaidOut

private theorem regrouped_foldl_seq (regexes : List Regex) {start : Regex}
    (isBranch : start.isBranch = true) :
    Regrouped (regexes.foldl .seq start) (.seq start (sequence regexes)) := by
  induction regexes using List.reverseRecOn with
  | nil => exact (Regrouped.seqEmpty isBranch).symm
  | append_singleton regexes last ih =>
    rw [List.foldl_concat, sequence, List.foldl_concat]
    exact (Regrouped.seq ih (.refl last)).trans (.seqAssoc start (sequence regexes) last)

private theorem regrouped_sequence_append (first second : List Regex) :
    Regrouped (sequence (first ++ second)) (.seq (sequence first) (sequence second)) := by
  rw [sequence, List.foldl_append]
  exact regrouped_foldl_seq second (isBranch_sequence first)

theorem regrouped_sequence_singleton (isBranch : regex.isBranch = true) :
    Regrouped (sequence [regex]) regex :=
  .emptySeq isBranch

theorem regrouped_sequence_cons (isBranch : regex.isBranch = true) (regexes : List Regex) :
    Regrouped (sequence (regex :: regexes)) (.seq regex (sequence regexes)) :=
  (regrouped_sequence_append [regex] regexes).trans
    (.seq (regrouped_sequence_singleton isBranch) (.refl _))

private theorem regrouped_foldl_alt (regexes : List Regex) (start next : Regex) :
    Regrouped (regexes.foldl .alt (.alt start next)) (.alt start (regexes.foldl .alt next)) := by
  induction regexes using List.reverseRecOn with
  | nil => exact .refl _
  | append_singleton regexes last ih =>
    rw [List.foldl_concat, List.foldl_concat]
    exact (Regrouped.alt ih (.refl last)).trans (.altAssoc _ _ _)

private theorem regrouped_alternatives_append {first second : List (List Regex)} (left : first ≠ [])
    (right : second ≠ []) :
    Regrouped (alternatives (first ++ second)) (.alt (alternatives first) (alternatives second)) := by
  obtain ⟨branch, others, rfl⟩ := List.exists_cons_of_ne_nil left
  obtain ⟨next, more, rfl⟩ := List.exists_cons_of_ne_nil right
  rw [List.cons_append, alternatives, List.map_append, List.foldl_append]
  exact regrouped_foldl_alt (more.map sequence) _ _

/-- A repetition of what can be repeated, laid out. -/
theorem regrouped_repetition (repetition : Repetition) (isAtom : regex.isAtom = true)
    (same : Regrouped regex.laidOut regex) :
    Regrouped (alternatives [regex.layout.flatten.map repetition.apply]) (repetition.apply regex) := by
  obtain ⟨atom, layout, alsoAtom⟩ := exists_layout_of_isAtom isAtom
  rw [laidOut, layout] at same
  have alone := regrouped_sequence_singleton (isBranch_of_isAtom alsoAtom)
  have outer : (repetition.apply atom).isBranch = true := by cases repetition <;> rfl
  rw [layout]
  exact (regrouped_sequence_singleton outer).trans
    (.repeated repetition (alone.symm.trans same) (alsoAtom.trans isAtom.symm))

/-- A well-formed expression differs from its laid-out form only in grouping. -/
theorem regrouped_laidOut (wellFormed : regex.isWellFormed = true) :
    Regrouped regex.laidOut regex := by
  induction regex with
  | empty => exact .refl _
  | never | char | anyChar | cls => exact .emptySeq rfl
  | seq first second firstSame secondSame =>
    simp only [isWellFormed, Bool.and_eq_true] at wellFormed
    obtain ⟨⟨⟨firstBranch, secondBranch⟩, firstFormed⟩, secondFormed⟩ := wellFormed
    obtain ⟨branch, firstLayout⟩ := exists_layout_of_isBranch firstBranch
    obtain ⟨next, secondLayout⟩ := exists_layout_of_isBranch secondBranch
    have left := firstSame firstFormed
    have right := secondSame secondFormed
    rw [laidOut, firstLayout, alternatives_singleton] at left
    rw [laidOut, secondLayout, alternatives_singleton] at right
    rw [laidOut, layout, firstLayout, secondLayout, alternatives_singleton,
      List.flatten_singleton, List.flatten_singleton]
    exact (regrouped_sequence_append branch next).trans (.seq left right)
  | alt first second firstSame secondSame =>
    simp only [isWellFormed, Bool.and_eq_true] at wellFormed
    have whole := regrouped_alternatives_append first.layout_ne_nil second.layout_ne_nil
    exact whole.trans (.alt (firstSame wellFormed.1) (secondSame wellFormed.2))
  | group body same =>
    exact (regrouped_sequence_singleton rfl).trans (.group (same wellFormed))
  | notAhead body same =>
    exact (regrouped_sequence_singleton rfl).trans (.notAhead (same wellFormed))
  | zeroOrMore body same =>
    simp only [isWellFormed, Bool.and_eq_true] at wellFormed
    exact regrouped_repetition .zeroOrMore wellFormed.1 (same wellFormed.2)
  | oneOrMore body same =>
    simp only [isWellFormed, Bool.and_eq_true] at wellFormed
    exact regrouped_repetition .oneOrMore wellFormed.1 (same wellFormed.2)
  | zeroOrOne body same =>
    simp only [isWellFormed, Bool.and_eq_true] at wellFormed
    exact regrouped_repetition .zeroOrOne wellFormed.1 (same wellFormed.2)

end LaidOut

end Regex

end PathGlob
