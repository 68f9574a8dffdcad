import PathGlob.Proofs.NamesAround
import PathGlob.Proofs.SegmentFronts

/-! # Groups and their negations

A group `@(…)` takes what one of its alternatives takes, and a group `!(…)` checks that none of them
takes anything. Both read the same alternatives off the same text, whatever stands in it and behind
it, so two globs that differ only in one such operator have no path in common
(`Matcher.not_isMatch_one_and_noneOf`). Where the syntax of their segment is not complete, the two
operators are literal and do not count as the same character.
-/

namespace PathGlob

/-- The same characters close groups of two kinds and part their alternatives. -/
def GroupKind.SameMarks (kind other : GroupKind) : Prop :=
  kind.closer = other.closer ∧ kind.bar = other.bar

namespace GlobGrammar

variable {options : Options} {inside : Option GroupKind} {kind other : GroupKind}
variable {text body rest : List Char}

section SameMarks

variable (same : kind.SameMarks other)

include same

private theorem Single.of_sameMarks {item : GlobItem}
    (single : Single options (some kind) text item rest) :
    Single options (some other) text item rest := by
  cases single with
  | escaped c => exact .escaped c rest
  | anyChar _ opensNone => exact .anyChar rest opensNone
  | anyRun more _ complete opensNone => exact .anyRun more rest complete opensNone
  | bracket bracket valid once => exact .bracket bracket valid once
  | repeated bracket valid extended opensNone => exact .repeated bracket valid extended opensNone
  | literal c _ isLiteral opensNone =>
    refine .literal c rest ⟨isLiteral.1, ?_⟩ opensNone
    rintro _ ⟨⟩
    rw [← same.1, ← same.2]
    exact isLiteral.2 kind rfl

/-- What a group of a kind holds, a group of another kind holds as well if the same characters close
it and part its alternatives. -/
theorem Reads.of_sameMarks {alternatives : List (List GlobItem)}
    (reads : Reads options inside text alternatives rest) (group : inside = some kind) :
    Reads options (some other) text alternatives rest := by
  induction reads with
  | finish => cases group
  | close =>
    obtain rfl := Option.some.inj group
    rw [same.1]
    exact .close other _
  | part _ ih =>
    obtain rfl := Option.some.inj group
    rw [same.2]
    exact .part (ih rfl)
  | single single _ ih =>
    subst group
    exact .single (single.of_sameMarks same) (ih rfl)
  | group opens content _ _ ih => exact .group opens content (ih group)

/-- One operator in place of another leaves what stands in and behind a group as it is. -/
theorem exists_front_of_opens (opens : Opens options text kind body)
    (complete : ∃ items, IsSegment options text items) :
    ∃ first alternatives rest, Front options text [.group kind first alternatives] rest ∧
      ∀ otherText, Opens options otherText other body →
        Front options otherText [.group other first alternatives] rest := by
  obtain ⟨first, alternatives, rest, content⟩ :=
    (Front.nil text).exists_reads_of_opens opens complete
  refine ⟨first, alternatives, rest, .group opens content (.nil rest), fun _ otherOpens => ?_⟩
  exact .group otherOpens (content.of_sameMarks same rfl) (.nil rest)

end SameMarks

end GlobGrammar

namespace GlobItem

variable {options : Options} {path rest : List Char}

/-- Characters take one character each. -/
theorem eq_drop_of_branchTakes_chars {chars : List Char}
    (taken : BranchTakes options (chars.map .char) path rest) : rest = path.drop chars.length := by
  induction chars generalizing path with
  | nil => exact taken
  | cons c chars ih =>
    obtain ⟨_, ⟨d, rfl, -⟩, following⟩ := taken
    exact ih following

end GlobItem

namespace GlobMeaning

open GlobGrammar

variable {options : Options} {segment path rest left : List Char}

/-- A segment of incomplete syntax takes its own text. -/
theorem segmentTakes_iff_of_incomplete (incomplete : ¬∃ items, IsSegment options segment items) :
    SegmentTakes options segment path rest ↔
      GlobItem.BranchTakes options (segment.map .char) path rest := by
  constructor
  · rintro (⟨items, isSegment, -⟩ | ⟨-, taken⟩)
    · exact absurd ⟨items, isSegment⟩ incomplete
    · exact taken
  · exact fun taken => .inr ⟨not_exists.mp incomplete, taken⟩

/-- Word characters in front of a segment are taken alone, whether its syntax is complete or not. -/
theorem segmentTakes_word_append_iff {word : List Char} (isWord : ∀ c ∈ word, IsWordChar c) :
    SegmentTakes options (word ++ segment) path rest ↔ ∃ middle,
      GlobItem.BranchTakes options (word.map .char) path middle ∧
        SegmentTakes options segment middle rest := by
  have front : Front options (word ++ segment) (word.map .char) segment := .word isWord segment
  by_cases complete : ∃ items, IsSegment options (word ++ segment) items
  · exact front.segmentTakes_iff complete
  · have incomplete := mt front.exists_isSegment_iff.mpr complete
    rw [segmentTakes_iff_of_incomplete complete, List.map_append, GlobItem.branchTakes_append]
    simp only [segmentTakes_iff_of_incomplete incomplete]

/-- Behind the same front, segments that start with a group and with its negation do not take
anything off the same path. -/
theorem not_segmentTakes_noneOf (extended : options.extended = true) {word tail : List Char}
    (isWord : ∀ c ∈ word, IsWordChar c)
    (taken : SegmentTakes options (word ++ '@' :: '(' :: tail) path rest) :
    ¬SegmentTakes options (word ++ '!' :: '(' :: tail) path left := by
  intro takenNoneOf
  obtain ⟨middle, chars, taken⟩ := (segmentTakes_word_append_iff isWord).mp taken
  obtain ⟨middle', chars', takenNoneOf⟩ := (segmentTakes_word_append_iff isWord).mp takenNoneOf
  obtain rfl : middle' = middle :=
    (GlobItem.eq_drop_of_branchTakes_chars chars').trans
      (GlobItem.eq_drop_of_branchTakes_chars chars).symm
  have opens : Opens options ('@' :: '(' :: tail) .one tail := .extended ⟨'@', extended, rfl, rfl⟩
  have opensNoneOf : Opens options ('!' :: '(' :: tail) .noneOf tail :=
    .extended ⟨'!', extended, rfl, rfl⟩
  have sameMarks : GroupKind.SameMarks .one .noneOf := ⟨rfl, rfl⟩
  by_cases complete : ∃ items, IsSegment options ('@' :: '(' :: tail) items
  · obtain ⟨first, alternatives, behind, front, sameFront⟩ :=
      exists_front_of_opens sameMarks opens complete
    have frontNoneOf := sameFront _ opensNoneOf
    have completeNoneOf :=
      frontNoneOf.exists_isSegment_iff.mpr (front.exists_isSegment_iff.mp complete)
    obtain ⟨next, ⟨_, inner, rfl⟩, -⟩ := (front.segmentTakes_iff complete).mp taken
    obtain ⟨_, ⟨_, ⟨fails, -⟩, rfl⟩, -⟩ :=
      (frontNoneOf.segmentTakes_iff completeNoneOf).mp takenNoneOf
    exact fails ⟨next, inner⟩
  · have incomplete : ¬∃ items, IsSegment options ('!' :: '(' :: tail) items := by
      intro completeNoneOf
      obtain ⟨_, _, _, front, sameFront⟩ :=
        exists_front_of_opens ⟨sameMarks.1.symm, sameMarks.2.symm⟩ opensNoneOf completeNoneOf
      exact complete ((sameFront _ opens).exists_isSegment_iff.mpr
        (front.exists_isSegment_iff.mp completeNoneOf))
    obtain ⟨_, ⟨c, rfl, isAt⟩, -⟩ := (segmentTakes_iff_of_incomplete complete).mp taken
    obtain ⟨_, ⟨d, same, isMark⟩, -⟩ := (segmentTakes_iff_of_incomplete incomplete).mp takenNoneOf
    obtain ⟨rfl, -⟩ := List.cons.inj same
    rw [mem_alike_iff (by simp [Text.IsCaseless])] at isAt isMark
    cases isAt.trans isMark.symm

end GlobMeaning

namespace Matcher

open GlobMeaning

variable {options : Options}

/-- Where word characters and what may open a group stand in front of a glob, a path that the glob
matches starts with what the first name of the glob takes. -/
theorem exists_segmentTakes_of_isMatch {glob path : String} {matcher : Matcher} {engine : Engine}
    (compiled : compile options glob = .ok matcher) (matched : matcher.isMatch path engine = true)
    {front tail : List Char} {operator : Char} (written : glob.toList = front ++ operator :: '(' :: tail)
    (isWord : ∀ c ∈ front, IsWordChar c) (isName : options.platform.isSeparator operator = false) :
    ∃ rest, SegmentTakes options
      (front ++ operator :: '(' :: Path.firstPart options.platform tail) path.toList rest := by
  have notParen : options.platform.isSeparator '(' = false := by cases options.platform <;> rfl
  have whole : ∀ c ∈ front ++ [operator, '('], options.platform.isSeparator c = false := by
    simp only [List.forall_mem_append, List.forall_mem_cons]
    exact ⟨fun c inFront => (isWord c inFront).not_isSeparator _, isName, notParen, by simp⟩
  have names := Path.names_append_of_isName (by simp) whole tail
  simp only [List.append_assoc, List.cons_append, List.nil_append] at names
  have unrooted : glob.toList.head?.any options.platform.isSeparator = false := by
    rw [written]
    cases front with
    | nil => exact isName
    | cons c front => exact whole c List.mem_cons_self
  rw [isMatch_iff_placedNames compiled (by simp [written]) isName, placedNames_of_unrooted unrooted,
    written, names] at matched
  have isShape : ¬IsGlobstar options
      (front ++ operator :: '(' :: Path.firstPart options.platform tail) :=
    not_isGlobstar_of_mem (c := '(') (by simp) (by decide)
  obtain ⟨rest, taken, -⟩ := (segmentsMatch_cons_iff isShape).mp matched.2
  exact ⟨rest, taken⟩

/-- Negated groups are sound: no path is matched both with a group and with the negation of this group
in its place. What stands in the group and behind it is arbitrary and need not even close it. -/
theorem not_isMatch_one_and_noneOf (options : Options) (extended : options.extended = true)
    {front : String} (isWord : ∀ c ∈ front.toList, IsWordChar c) (tail : String)
    {one noneOf : Matcher} (compiledOne : compile options (front ++ "@(" ++ tail) = .ok one)
    (compiledNoneOf : compile options (front ++ "!(" ++ tail) = .ok noneOf) (path : String)
    (engine : Engine) : ¬(one.isMatch path engine = true ∧ noneOf.isMatch path engine = true) := by
  rintro ⟨matchedOne, matchedNoneOf⟩
  have notAt : options.platform.isSeparator '@' = false := by cases options.platform <;> rfl
  have notMark : options.platform.isSeparator '!' = false := by cases options.platform <;> rfl
  have written : (front ++ "@(" ++ tail).toList = front.toList ++ '@' :: '(' :: tail.toList := by simp
  have writtenNoneOf : (front ++ "!(" ++ tail).toList = front.toList ++ '!' :: '(' :: tail.toList := by
    simp
  obtain ⟨_, taken⟩ := exists_segmentTakes_of_isMatch compiledOne matchedOne written isWord notAt
  obtain ⟨_, takenNoneOf⟩ :=
    exists_segmentTakes_of_isMatch compiledNoneOf matchedNoneOf writtenNoneOf isWord notMark
  exact not_segmentTakes_noneOf extended isWord taken takenNoneOf

/-- A nested group and a repeated bracket are checked, with further segments behind them. -/
theorem not_isMatch_one_and_noneOf_nested :
    (∀ c ∈ "a-".toList, IsWordChar c) ∧
      ∃ one noneOf, compile {} "a-@(b|+([c-e])?)f/*" = .ok one ∧
        compile {} "a-!(b|+([c-e])?)f/*" = .ok noneOf ∧ one.isMatch "a-cdexf/g" .standard = true ∧
        noneOf.isMatch "a-f/g" .standard = true ∧ noneOf.isMatch "a-cdexf/g" .standard = false := by
  have isWord : ∀ c ∈ "a-".toList, IsWordChar c := by simp [IsWordChar]
  have compiledOne : compile {} "a-@(b|+([c-e])?)f/*" =
      .ok ⟨{}, globPattern {} "a-@(b|+([c-e])?)f/*", rfl⟩ := rfl
  have compiledNoneOf : compile {} "a-!(b|+([c-e])?)f/*" =
      .ok ⟨{}, globPattern {} "a-!(b|+([c-e])?)f/*", rfl⟩ := rfl
  have matchedOne : Matcher.isMatch ⟨{}, globPattern {} "a-@(b|+([c-e])?)f/*", rfl⟩ "a-cdexf/g"
      .standard = true := by decide +kernel
  have notBoth := not_isMatch_one_and_noneOf {} rfl isWord "b|+([c-e])?)f/*" compiledOne compiledNoneOf
    "a-cdexf/g" .standard
  refine ⟨isWord, _, _, compiledOne, compiledNoneOf, matchedOne, by decide +kernel, ?_⟩
  exact Bool.eq_false_iff.mpr fun matched => notBoth ⟨matchedOne, matched⟩

end Matcher

end PathGlob
