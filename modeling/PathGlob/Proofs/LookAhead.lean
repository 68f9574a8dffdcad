import PathGlob.Proofs.GlobPatternMeaning
import PathGlob.Regex.Engine

/-! # Looking ahead

Most expressions take the same whatever comes after what they take (`Regex.IgnoresRest`). Of the items
of a glob only a group `!(…)` looks at more than it takes; `Shape.looksAhead` tells whether a shape has
one, and without one it ignores the rest (`Shape.ignoresRest_pattern`).
-/

namespace PathGlob

open Relation

namespace Regex

/-- What an expression takes does not depend on what comes after that. -/
def IgnoresRest (caseInsensitive : Bool) (regex : Regex) : Prop :=
  ∀ text tail rest, regex.TakesText caseInsensitive (text ++ tail) (rest ++ tail) ↔
    regex.TakesText caseInsensitive text rest

namespace IgnoresRest

variable {caseInsensitive : Bool} {first second body : Regex}

theorem empty : IgnoresRest caseInsensitive .empty := by
  intro text tail rest
  simp only [takesText_empty, List.append_left_inj]

/-- An expression for one character looks at nothing else. -/
theorem of_single {fits : Char → Prop}
    (single : ∀ text rest, body.TakesText caseInsensitive text rest ↔ ∃ c, text = c :: rest ∧ fits c) :
    IgnoresRest caseInsensitive body := by
  intro text tail rest
  simp only [single, ← List.cons_append, List.append_left_inj]

theorem seq (firstIgnores : IgnoresRest caseInsensitive first)
    (secondIgnores : IgnoresRest caseInsensitive second) :
    IgnoresRest caseInsensitive (.seq first second) := by
  intro text tail rest
  rw [takesText_seq, takesText_seq]
  constructor
  · rintro ⟨middle, taken, following⟩
    obtain ⟨front, rfl⟩ := following.suffix
    rw [← List.append_assoc] at taken following
    exact ⟨front ++ rest, (firstIgnores _ _ _).mp taken, (secondIgnores _ _ _).mp following⟩
  · rintro ⟨middle, taken, following⟩
    exact ⟨middle ++ tail, (firstIgnores _ _ _).mpr taken, (secondIgnores _ _ _).mpr following⟩

theorem alt (firstIgnores : IgnoresRest caseInsensitive first)
    (secondIgnores : IgnoresRest caseInsensitive second) :
    IgnoresRest caseInsensitive (.alt first second) :=
  fun text tail rest => or_congr (firstIgnores text tail rest) (secondIgnores text tail rest)

section Body

variable (ignores : IgnoresRest caseInsensitive body)

include ignores

theorem group : IgnoresRest caseInsensitive (.group body) := ignores

theorem zeroOrMore : IgnoresRest caseInsensitive (.zeroOrMore body) := by
  intro text tail rest
  rw [takesText_zeroOrMore, takesText_zeroOrMore]
  constructor
  · intro taken
    generalize start : text ++ tail = whole at taken
    induction taken using ReflTransGen.head_induction_on generalizing text with
    | refl =>
      obtain rfl := List.append_cancel_right start
      exact .refl
    | head once later ih =>
      subst start
      obtain ⟨front, rfl⟩ := (takesText_zeroOrMore.mpr later).suffix
      rw [← List.append_assoc] at once
      exact .head ((ignores _ _ _).mp once) (ih (front ++ rest) (List.append_assoc front rest tail))
  · intro taken
    exact taken.lift (· ++ tail) fun _ _ once => (ignores _ _ _).mpr once

theorem oneOrMore : IgnoresRest caseInsensitive (.oneOrMore body) := by
  intro text tail rest
  rw [takesText_oneOrMore_iff_seq, takesText_oneOrMore_iff_seq]
  exact ignores.seq ignores.zeroOrMore text tail rest

theorem zeroOrOne : IgnoresRest caseInsensitive (.zeroOrOne body) := by
  intro text tail rest
  simp only [takesText_zeroOrOne, List.append_left_inj, ignores text tail rest]

end Body

end IgnoresRest

end Regex

private theorem Regex.looksAhead_foldl_seq (regexes : List Regex) (start : Regex) :
    (regexes.foldl .seq start).looksAhead = (start.looksAhead || regexes.any looksAhead) := by
  induction regexes generalizing start with
  | nil => simp
  | cons regex regexes ih => simp [ih, looksAhead, Bool.or_assoc]

theorem Regex.looksAhead_sequence (regexes : List Regex) :
    (sequence regexes).looksAhead = regexes.any looksAhead := by
  rw [sequence, looksAhead_foldl_seq, looksAhead, Bool.false_or]

/-- Whether a shape has a group `!(…)` in it. -/
def Shape.looksAhead : Shape → Bool
  | empty | char _ | anyChar | anyRun | bracket _ _ => false
  | seq first second | alt first second => first.looksAhead || second.looksAhead
  | group kind body => kind == .noneOf || body.looksAhead

namespace Shape

private theorem looksAhead_foldl_seq (shapes : List Shape) (start : Shape) :
    (shapes.foldl .seq start).looksAhead = (start.looksAhead || shapes.any looksAhead) := by
  induction shapes generalizing start with
  | nil => simp
  | cons shape shapes ih => simp [ih, looksAhead, Bool.or_assoc]

private theorem looksAhead_foldl_alt (shapes : List Shape) (start : Shape) :
    (shapes.foldl .alt start).looksAhead = (start.looksAhead || shapes.any looksAhead) := by
  induction shapes generalizing start with
  | nil => simp
  | cons shape shapes ih => simp [ih, looksAhead, Bool.or_assoc]

theorem looksAhead_sequence (shapes : List Shape) :
    (sequence shapes).looksAhead = shapes.any looksAhead := by
  rw [sequence, looksAhead_foldl_seq, looksAhead, Bool.false_or]

theorem looksAhead_alternatives (first : List Shape) (others : List (List Shape)) :
    (alternatives first others).looksAhead = (first :: others).any (·.any looksAhead) := by
  rw [alternatives, looksAhead_foldl_alt, looksAhead_sequence, List.any_map, List.any_cons]
  congr 2
  funext shapes
  exact looksAhead_sequence shapes

theorem looksAhead_pattern (shape : Shape) (platform : Platform) :
    (shape.pattern platform).looksAhead = shape.looksAhead := by
  have plainRun : platform.runPattern.looksAhead = false := by cases platform <;> rfl
  induction shape with
  | empty | char | anyChar => rfl
  | anyRun => exact plainRun
  | bracket cls repeated => cases repeated <;> rfl
  | seq first second firstSame secondSame | alt first second firstSame secondSame =>
    rw [pattern, Regex.looksAhead, looksAhead, firstSame, secondSame]
  | group kind body same => cases kind <;> simp [pattern, Regex.looksAhead, looksAhead, same]

end Shape

/-- The expression of a glob without such groups checks nothing ahead. -/
theorem Glob.looksAhead_segmentsPattern {platform : Platform} {segments : List GlobSegment}
    (plain : ∀ shape, .shape shape ∈ segments → shape.looksAhead = false) :
    (segmentsPattern platform segments).looksAhead = false := by
  have plainParts : platform.globstarPattern.looksAhead = false ∧
      platform.runPattern.looksAhead = false ∧ platform.partingPattern.looksAhead = false ∧
      platform.trailingPattern.looksAhead = false := by
    cases platform <;> exact ⟨rfl, rfl, rfl, rfl⟩
  obtain ⟨plainGlobstar, plainRun, plainParting, plainTrailing⟩ := plainParts
  induction segments with
  | nil => rfl
  | cons segment others ih =>
    have plainOthers := ih fun shape isSegment => plain shape (List.mem_cons_of_mem _ isSegment)
    cases segment with
    | globstar =>
      cases others with
      | nil => simp only [segmentsPattern, Regex.looksAhead, plainGlobstar, plainRun, Bool.or_self]
      | cons next others =>
        rw [segmentsPattern, Regex.looksAhead, plainGlobstar, plainOthers, Bool.or_self]
        exact List.cons_ne_nil _ _
    | shape shape =>
      have plainShape : (shape.pattern platform).looksAhead = false := by
        rw [shape.looksAhead_pattern, plain shape List.mem_cons_self]
      cases others with
      | nil => simp only [segmentsPattern, Regex.looksAhead, plainShape, plainTrailing, Bool.or_self]
      | cons next others =>
        simp only [segmentsPattern, Regex.looksAhead, plainShape, plainParting, plainOthers,
          Bool.or_self]

theorem looksAhead_globPattern {options : Options} {glob : String}
    (plain : ∀ name ∈ Path.names options.platform glob.toList,
      (Shape.ofSegment options name).looksAhead = false) :
    (globPattern options glob).looksAhead = false := by
  have plainSegments : (Glob.segmentsPattern options.platform
      ((Path.names options.platform glob.toList).map (GlobSegment.ofText options))).looksAhead =
        false := by
    apply Glob.looksAhead_segmentsPattern
    intro shape isSegment
    obtain ⟨name, isName, read⟩ := List.mem_map.mp isSegment
    unfold GlobSegment.ofText at read
    split at read
    · cases read
    · cases read
      exact plain name isName
  have plainParting : options.platform.partingPattern.looksAhead = false := by
    cases options.platform <;> rfl
  rw [globPattern, Glob.ofText_eq, Glob.pattern]
  split
  · rfl
  · exact plainSegments
  · rw [Regex.looksAhead, plainParting, plainSegments, Bool.or_self]

private theorem Platform.ignoresRest_runPattern (platform : Platform) (caseInsensitive : Bool) :
    platform.runPattern.IgnoresRest caseInsensitive :=
  .zeroOrMore (.of_single platform.takesText_namePattern)

/-- A shape without such a group takes the same whatever comes after what it takes. -/
theorem Shape.ignoresRest_pattern (platform : Platform) (caseInsensitive : Bool) {shape : Shape}
    (plain : shape.looksAhead = false) :
    (shape.pattern platform).IgnoresRest caseInsensitive := by
  induction shape with
  | empty => exact .empty
  | char => exact .of_single fun _ _ => Regex.takesText_char
  | anyChar => exact .of_single fun _ _ => Regex.takesText_anyChar
  | anyRun => exact platform.ignoresRest_runPattern caseInsensitive
  | bracket cls repeated =>
    have once : (Regex.cls cls).IgnoresRest caseInsensitive := .of_single fun _ _ => Regex.takesText_cls
    cases repeated with
    | false => exact once
    | true => exact once.oneOrMore
  | seq first second firstIgnores secondIgnores =>
    obtain ⟨plainFirst, plainSecond⟩ := Bool.or_eq_false_iff.mp plain
    exact (firstIgnores plainFirst).seq (secondIgnores plainSecond)
  | alt first second firstIgnores secondIgnores =>
    obtain ⟨plainFirst, plainSecond⟩ := Bool.or_eq_false_iff.mp plain
    exact (firstIgnores plainFirst).alt (secondIgnores plainSecond)
  | group kind body bodyIgnores =>
    obtain ⟨checksNothing, plainBody⟩ := Bool.or_eq_false_iff.mp plain
    have content := bodyIgnores plainBody
    cases kind with
    | brace | one => exact content.group
    | oneOrMore => exact content.group.oneOrMore
    | zeroOrMore => exact content.group.zeroOrMore
    | zeroOrOne => exact content.group.zeroOrOne
    | noneOf => cases checksNothing

theorem GlobItem.looksAhead_group {kind : GroupKind} {first : List GlobItem}
    {others : List (List GlobItem)}
    (plain : (GlobItem.group kind first others).shape.looksAhead = false) :
    kind ≠ .noneOf ∧ ∀ branch ∈ first :: others, ∀ item ∈ branch, item.shape.looksAhead = false := by
  rw [shape_group, Shape.looksAhead, Bool.or_eq_false_iff, Shape.looksAhead_alternatives,
    ← List.map_cons] at plain
  simpa using plain

/-- A segment without such a group takes the same whatever comes after what it takes. -/
theorem GlobMeaning.segmentTakes_append_right_iff {options : Options}
    {segment text tail rest : List Char}
    (plain : (Shape.ofSegment options segment).looksAhead = false) :
    SegmentTakes options segment (text ++ tail) (rest ++ tail) ↔
      SegmentTakes options segment text rest := by
  rw [← takesText_ofSegment_iff, ← takesText_ofSegment_iff]
  exact Shape.ignoresRest_pattern options.platform options.caseInsensitive plain text tail rest

end PathGlob
