import PathGlob.Proofs.SeparatorCrossings

/-! # Segments that stay inside a name

What a star, a character or most brackets take ends before the next separator, and so does all that
a check of a group `!(…)` over them looks at. A segment of such items takes the same off a name
whatever follows the name in the path. Only a `?` and a bracket that accepts a separator may reach
further; `Shape.meetsSeparator` tells whether a shape has one of these.
-/

namespace PathGlob

open Relation

/-- Whether a shape has something in it that may take a separator, even if only to look ahead. -/
def Shape.meetsSeparator (options : Options) : Shape → Bool
  | empty | char _ | anyRun => false
  | anyChar => true
  | bracket cls _ => cls.acceptsSeparator options
  | seq first second | alt first second =>
    first.meetsSeparator options || second.meetsSeparator options
  | group _ body => body.meetsSeparator options

/-- Whether a text is no part of a name that stands in front of it: it is empty or starts with a
separator. -/
def Platform.EndsName (platform : Platform) (text : List Char) : Prop :=
  ∀ c, text.head? = some c → platform.isSeparator c = true

namespace Regex

/-- An expression takes the same off a name whatever follows the name. -/
def StaysInside (platform : Platform) (caseInsensitive : Bool) (regex : Regex) : Prop :=
  ∀ name tail rest, (∀ c ∈ name, platform.isSeparator c = false) → platform.EndsName tail →
    (regex.TakesText caseInsensitive (name ++ tail) rest ↔
      ∃ left, rest = left ++ tail ∧ regex.TakesText caseInsensitive name left)

namespace StaysInside

variable {platform : Platform} {caseInsensitive : Bool} {first second body : Regex}

theorem empty : StaysInside platform caseInsensitive .empty := by
  intro name tail rest _ _
  simp only [takesText_empty, exists_eq_right]

/-- An expression for one character that is no separator stays inside a name. -/
theorem of_single {fits : Char → Prop}
    (single : ∀ text rest, body.TakesText caseInsensitive text rest ↔ ∃ c, text = c :: rest ∧ fits c)
    (inside : ∀ c, fits c → platform.isSeparator c = false) :
    StaysInside platform caseInsensitive body := by
  intro name tail rest _ ends
  simp only [single]
  cases name with
  | nil =>
    constructor
    · rintro ⟨c, rfl, fitting⟩
      have separates := ends c rfl
      rw [inside c fitting] at separates
      cases separates
    · rintro ⟨left, _, c, impossible, _⟩
      cases impossible
  | cons d name =>
    constructor
    · rintro ⟨c, split, fitting⟩
      obtain ⟨rfl, rfl⟩ := List.cons.inj split
      exact ⟨name, rfl, d, rfl, fitting⟩
    · rintro ⟨left, rfl, c, split, fitting⟩
      obtain ⟨rfl, rfl⟩ := List.cons.inj split
      exact ⟨d, rfl, fitting⟩

theorem seq (firstStays : StaysInside platform caseInsensitive first)
    (secondStays : StaysInside platform caseInsensitive second) :
    StaysInside platform caseInsensitive (.seq first second) := by
  intro name tail rest whole ends
  simp only [takesText_seq, firstStays name tail _ whole ends]
  constructor
  · rintro ⟨_, ⟨middle, rfl, taken⟩, following⟩
    have inner : ∀ c ∈ middle, platform.isSeparator c = false :=
      fun c inMiddle => whole c (taken.suffix.subset inMiddle)
    obtain ⟨left, rfl, later⟩ := (secondStays middle tail rest inner ends).mp following
    exact ⟨left, rfl, middle, taken, later⟩
  · rintro ⟨left, rfl, middle, taken, following⟩
    have inner : ∀ c ∈ middle, platform.isSeparator c = false :=
      fun c inMiddle => whole c (taken.suffix.subset inMiddle)
    exact ⟨middle ++ tail, ⟨middle, rfl, taken⟩,
      (secondStays middle tail _ inner ends).mpr ⟨left, rfl, following⟩⟩

theorem alt (firstStays : StaysInside platform caseInsensitive first)
    (secondStays : StaysInside platform caseInsensitive second) :
    StaysInside platform caseInsensitive (.alt first second) := by
  intro name tail rest whole ends
  simp only [takesText_alt, firstStays name tail rest whole ends, secondStays name tail rest whole ends,
    and_or_left, exists_or]

section Body

variable (stays : StaysInside platform caseInsensitive body)

include stays

theorem group : StaysInside platform caseInsensitive (.group body) := stays

theorem notAhead : StaysInside platform caseInsensitive (.notAhead body) := by
  intro name tail rest whole ends
  have ahead : (∃ other, body.TakesText caseInsensitive (name ++ tail) other) ↔
      ∃ other, body.TakesText caseInsensitive name other := by
    simp only [stays name tail _ whole ends]
    constructor
    · rintro ⟨_, left, _, taken⟩
      exact ⟨left, taken⟩
    · rintro ⟨left, taken⟩
      exact ⟨left ++ tail, left, rfl, taken⟩
  simp only [takesText_notAhead, ahead]
  constructor
  · rintro ⟨rfl, fails⟩
    exact ⟨name, rfl, rfl, fails⟩
  · rintro ⟨_, rfl, rfl, fails⟩
    exact ⟨rfl, fails⟩

theorem zeroOrMore : StaysInside platform caseInsensitive (.zeroOrMore body) := by
  intro name tail rest whole ends
  simp only [takesText_zeroOrMore]
  constructor
  · intro taken
    generalize start : name ++ tail = text at taken
    induction taken using ReflTransGen.head_induction_on generalizing name with
    | refl => exact ⟨name, start.symm, .refl⟩
    | head once _ ih =>
      subst start
      obtain ⟨middle, rfl, taken⟩ := (stays name tail _ whole ends).mp once
      obtain ⟨left, rfl, following⟩ :=
        ih middle (fun c inMiddle => whole c (taken.suffix.subset inMiddle)) rfl
      exact ⟨left, rfl, .head taken following⟩
  · rintro ⟨left, rfl, taken⟩
    induction taken using ReflTransGen.head_induction_on with
    | refl => exact .refl
    | @head name middle once _ ih =>
      have inner : ∀ c ∈ middle, platform.isSeparator c = false :=
        fun c inMiddle => whole c (once.suffix.subset inMiddle)
      exact .head ((stays name tail _ whole ends).mpr ⟨middle, rfl, once⟩) (ih inner)

theorem oneOrMore : StaysInside platform caseInsensitive (.oneOrMore body) := by
  intro name tail rest whole ends
  simp only [takesText_oneOrMore_iff_seq]
  exact seq stays (zeroOrMore stays) name tail rest whole ends

theorem zeroOrOne : StaysInside platform caseInsensitive (.zeroOrOne body) := by
  intro name tail rest whole ends
  simp only [takesText_zeroOrOne, stays name tail rest whole ends, and_or_left, exists_or,
    exists_eq_right]

end Body

end StaysInside

end Regex

section Segment

variable {options : Options}

private theorem Platform.staysInside_runPattern (platform : Platform) (caseInsensitive : Bool) :
    platform.runPattern.StaysInside platform caseInsensitive :=
  .zeroOrMore (.of_single platform.takesText_namePattern fun _ isName => isName)

private theorem CharClass.staysInside {cls : CharClass}
    (inside : cls.acceptsSeparator options = false) :
    (Regex.cls cls).StaysInside options.platform options.caseInsensitive := by
  refine .of_single (fun _ _ => Regex.takesText_cls) fun c accepted => ?_
  by_contra separates
  have := acceptsSeparator_of_accepts accepted (Bool.eq_true_of_not_eq_false separates)
  rw [inside] at this
  cases this

/-- A shape that meets no separator stays inside a name. -/
theorem Shape.staysInside_pattern {shape : Shape}
    (named : ∀ c ∈ shape.chars, options.platform.isSeparator c = false)
    (inside : shape.meetsSeparator options = false) :
    (shape.pattern options.platform).StaysInside options.platform options.caseInsensitive := by
  induction shape with
  | empty => exact .empty
  | char c =>
    refine .of_single (fun _ _ => Regex.takesText_char) fun d same => ?_
    by_contra separates
    have isChar := named c (List.mem_singleton_self c)
    rw [Platform.isSeparator_of_mem_alike _ same (Bool.eq_true_of_not_eq_false separates)] at isChar
    cases isChar
  | anyChar => cases inside
  | anyRun => exact options.platform.staysInside_runPattern options.caseInsensitive
  | bracket cls repeated =>
    have once := CharClass.staysInside inside
    cases repeated with
    | false => exact once
    | true => exact once.oneOrMore
  | seq first second firstStays secondStays =>
    obtain ⟨namedFirst, namedSecond⟩ := List.forall_mem_append.mp named
    obtain ⟨insideFirst, insideSecond⟩ := Bool.or_eq_false_iff.mp inside
    exact .seq (firstStays namedFirst insideFirst) (secondStays namedSecond insideSecond)
  | alt first second firstStays secondStays =>
    obtain ⟨namedFirst, namedSecond⟩ := List.forall_mem_append.mp named
    obtain ⟨insideFirst, insideSecond⟩ := Bool.or_eq_false_iff.mp inside
    exact .alt (firstStays namedFirst insideFirst) (secondStays namedSecond insideSecond)
  | group kind body bodyStays =>
    have content := bodyStays named inside
    cases kind with
    | brace | one => exact content.group
    | oneOrMore => exact content.group.oneOrMore
    | zeroOrMore => exact content.group.zeroOrMore
    | zeroOrOne => exact content.group.zeroOrOne
    | noneOf =>
      exact .seq content.notAhead (options.platform.staysInside_runPattern options.caseInsensitive)

namespace GlobMeaning

/-- What a segment takes, it takes off the front. -/
theorem SegmentTakes.suffix {segment text rest : List Char}
    (taken : SegmentTakes options segment text rest) : rest <:+ text :=
  ((takesText_ofSegment_iff segment text rest).mpr taken).suffix

/-- A segment without separators that meets none takes the same off a name whatever follows it. -/
theorem segmentTakes_append_iff {segment name tail rest : List Char}
    (named : ∀ c ∈ segment, options.platform.isSeparator c = false)
    (inside : (Shape.ofSegment options segment).meetsSeparator options = false)
    (whole : ∀ c ∈ name, options.platform.isSeparator c = false)
    (ends : options.platform.EndsName tail) :
    SegmentTakes options segment (name ++ tail) rest ↔
      ∃ left, rest = left ++ tail ∧ SegmentTakes options segment name left := by
  have chars : ∀ c ∈ (Shape.ofSegment options segment).chars, options.platform.isSeparator c = false :=
    fun c isChar => named c (Shape.mem_of_mem_chars_ofSegment isChar)
  have stays := Shape.staysInside_pattern chars inside
  simp only [← takesText_ofSegment_iff]
  exact stays name tail rest whole ends

end GlobMeaning

end Segment

end PathGlob
