import PathGlob.Proofs.GlobstarSplit
import PathGlob.Proofs.UnsignedText

/-! # Globs without signs

A text that does not look like a glob is matched as it is written if no unseen item is read in it.
Unless there is a group `!(…)`, this is the only way: an unseen item takes less than it is written
with, so with one in it a glob that matches anything matches a path that is too short to be its own
text.
-/

namespace PathGlob

namespace GroupKind

variable {platform : Platform} {inner : List Char → List Char → Prop} {kind : GroupKind}
  {text rest : List Char}

/-- The groups whose alternatives are taken at least once. -/
def isTaken : GroupKind → Bool
  | brace | one | oneOrMore => true
  | zeroOrMore | zeroOrOne | noneOf => false

private theorem takes_of_inner (taken : kind.isTaken = true) (once : inner text rest) :
    kind.Takes platform inner text rest := by
  cases kind with
  | brace | one => exact once
  | oneOrMore => exact .single once
  | zeroOrMore | zeroOrOne | noneOf => cases taken

private theorem exists_inner_of_takes (taken : kind.isTaken = true)
    (takes : kind.Takes platform inner text rest) : ∃ other, inner text other := by
  cases kind with
  | brace | one => exact ⟨rest, takes⟩
  | oneOrMore =>
    obtain ⟨other, once, _⟩ := Relation.TransGen.head'_iff.mp takes
    exact ⟨other, once⟩
  | zeroOrMore | zeroOrOne | noneOf => cases taken

end GroupKind

/-- What takes anything at all takes a word of some length at most, whatever comes after it, and a
shorter one under some condition. -/
def TakesWithin (takes : List Char → List Char → Prop) (length : ℕ) (shorter : Prop) : Prop :=
  ∀ path left, takes path left → ∃ word : List Char, (∀ tail, takes (word ++ tail) tail) ∧
    word.length ≤ length ∧ (shorter → word.length < length)

private theorem TakesWithin.mono {takes : List Char → List Char → Prop} {length longer : ℕ}
    {shorter : Prop}
    (within : TakesWithin takes length shorter) (le : length ≤ longer) :
    TakesWithin takes longer shorter := by
  intro path left taken
  obtain ⟨word, takesWord, short, lt⟩ := within path left taken
  exact ⟨word, takesWord, short.trans le, fun condition => (lt condition).trans_le le⟩

namespace GlobItem

variable {options : Options} {item : GlobItem} {branch : List GlobItem} {length : ℕ}

private theorem takesWithin_char (c : Char) :
    TakesWithin ((char c).Takes options) 1 (char c).IsUnseen := by
  rintro path left ⟨d, _, same⟩
  exact ⟨[d], fun tail => ⟨d, rfl, same⟩, Nat.le_refl 1, nofun⟩

/-- A bracket that takes anything takes a single character. -/
theorem takesWithin_bracket (cls : CharClass) (repeated : Bool) :
    TakesWithin ((bracket cls repeated).Takes options) 2 (bracket cls repeated).IsUnseen := by
  intro path left takes
  cases repeated with
  | false =>
    obtain ⟨c, _, accepted⟩ := takes
    exact ⟨[c], fun tail => ⟨c, rfl, accepted⟩, by simp, by simp⟩
  | true =>
    obtain ⟨run, some, _, accepted⟩ := takes
    obtain ⟨c, run, rfl⟩ := List.exists_cons_of_ne_nil some
    have first := accepted c List.mem_cons_self
    exact ⟨[c], fun tail => ⟨[c], by simp, rfl, by simpa using first⟩, by simp, by simp⟩

variable (options branch length) in
/-- What items one after the other take is within a length, and shorter with an unseen item. -/
def BranchTakesWithin : Prop :=
  TakesWithin (BranchTakes options branch) length (∃ item ∈ branch, item.IsUnseen)

private theorem branchTakesWithin_nil (length : ℕ) : BranchTakesWithin options [] length :=
  fun _ _ _ => ⟨[], fun _ => rfl, Nat.zero_le length, by simp⟩

private theorem branchTakesWithin_cons {left : ℕ}
    (first : TakesWithin (item.Takes options) length item.IsUnseen)
    (following : BranchTakesWithin options branch left) :
    BranchTakesWithin options (item :: branch) (length + left) := by
  rintro path rest ⟨middle, takes, takesOthers⟩
  obtain ⟨word, takesWord, short, shorter⟩ := first path middle takes
  obtain ⟨others, takesOthers, shortOthers, shorterOthers⟩ := following middle rest takesOthers
  refine ⟨word ++ others, ?_, ?_, ?_⟩
  · intro tail
    rw [List.append_assoc]
    exact ⟨others ++ tail, takesWord _, takesOthers tail⟩
  · rw [List.length_append]
    omega
  · rintro ⟨other, isItem, unseen⟩
    rw [List.length_append]
    rcases List.mem_cons.mp isItem with rfl | isItem
    · exact Nat.add_lt_add_of_lt_of_le (shorter unseen) shortOthers
    · exact Nat.add_lt_add_of_le_of_lt short (shorterOthers ⟨other, isItem, unseen⟩)

/-- A group that takes its alternatives at least once takes one of them once. -/
theorem takesWithin_group {kind : GroupKind} (taken : kind.isTaken = true) {first : List GlobItem}
    {others : List (List GlobItem)}
    (each : ∀ branch ∈ first :: others, BranchTakesWithin options branch length) :
    TakesWithin ((group kind first others).Takes options) (length + 1)
      (group kind first others).IsUnseen := by
  intro path left takes
  obtain ⟨rest, once⟩ := GroupKind.exists_inner_of_takes taken takes
  have once : AlternativesTake options (first :: others) path rest := once
  obtain ⟨branch, isBranch, takesBranch⟩ := alternativesTake_iff.mp once
  obtain ⟨word, takesWord, short, _⟩ := each branch isBranch path rest takesBranch
  have takesOnce (tail : List Char) : AlternativesTake options (first :: others) (word ++ tail) tail :=
    alternativesTake_iff.mpr ⟨branch, isBranch, takesWord tail⟩
  refine ⟨word, fun tail => GroupKind.takes_of_inner taken (takesOnce tail), by omega, ?_⟩
  intro _
  omega

/-- Of the unseen groups only `!(…)` does not take its alternatives. -/
theorem IsUnseen.isTaken {kind : GroupKind} {first : List GlobItem} {others : List (List GlobItem)}
    (unseen : (GlobItem.group kind first others).IsUnseen) (checksNothing : kind ≠ .noneOf) :
    kind.isTaken = true := by
  cases unseen with
  | brace => rfl
  | group unmarked =>
    simp only [List.mem_cons, List.not_mem_nil, or_false] at unmarked
    rcases unmarked with rfl | rfl | rfl
    · rfl
    · rfl
    · exact absurd rfl checksNothing

end GlobItem

namespace GlobGrammar

open GlobItem

variable {options : Options} {text rest : List Char} {inside : Option GroupKind}

private theorem Single.takesWithin {item : GlobItem} (single : Single options inside text item rest)
    (unsigned : IsUnsigned options text) :
    TakesWithin (item.Takes options) (text.length - rest.length) item.IsUnseen := by
  rcases single.cases_of_isUnsigned unsigned with ⟨c, rfl, rfl⟩ | ⟨tokens, repeated, rfl, shorter⟩
  · refine (takesWithin_char c).mono ?_
    rw [List.length_cons]
    omega
  · exact (takesWithin_bracket _ repeated).mono (by omega)

/-- Alternatives without a group `!(…)` need not take more than is written of them. -/
theorem Reads.branchTakesWithin {alternatives : List (List GlobItem)}
    (reads : Reads options inside text alternatives rest) (unsigned : IsUnsigned options text) :
    ∀ branch ∈ alternatives, (∀ item ∈ branch, item.shape.looksAhead = false) →
      BranchTakesWithin options branch (text.length - rest.length) := by
  induction reads with
  | finish | close =>
    rw [List.forall_mem_singleton]
    exact fun _ => branchTakesWithin_nil _
  | part _ ih =>
    have others := ih (unsigned.of_infix (List.suffix_cons _ _).isInfix)
    rw [List.forall_mem_cons]
    refine ⟨fun _ => branchTakesWithin_nil _, fun branch isBranch plain => ?_⟩
    refine (others branch isBranch plain).mono ?_
    rw [List.length_cons]
    omega
  | single single following ih =>
    have others := ih (unsigned.of_infix single.suffix.isInfix)
    have used := single.length_lt
    have left := following.length_le
    rw [List.forall_mem_cons] at others ⊢
    refine ⟨fun plain => ?_, fun branch isBranch plain => ?_⟩
    · have within := others.1 (List.forall_mem_cons.mp plain).2
      exact (branchTakesWithin_cons (single.takesWithin unsigned) within).mono (by omega)
    · exact (others.2 branch isBranch plain).mono (by omega)
  | group opens content following contentIh ih =>
    have each := contentIh (unsigned.of_infix opens.suffix.isInfix)
    have others := ih (unsigned.of_infix (content.suffix.trans opens.suffix).isInfix)
    have opened := opens.length_lt
    have used := content.length_le
    have left := following.length_le
    rw [List.forall_mem_cons] at others ⊢
    refine ⟨fun plain => ?_, fun branch isBranch plain => ?_⟩
    · obtain ⟨plainGroup, plainOthers⟩ := List.forall_mem_cons.mp plain
      obtain ⟨checksNothing, plainContent⟩ := looksAhead_group plainGroup
      have taken := (opens.isUnseen unsigned content).isTaken checksNothing
      have first := takesWithin_group taken fun branch isBranch =>
        each branch isBranch (plainContent branch isBranch)
      exact (branchTakesWithin_cons first (others.1 plainOthers)).mono (by omega)
    · exact (others.2 branch isBranch plain).mono (by omega)

variable (unsigned : IsUnsigned options text)

include unsigned

/-- A segment without a group `!(…)` need not take more than it is written with, and takes less if an
unseen item is read in it. -/
theorem segmentTakes_within (matchesCase : options.caseInsensitive = false)
    (plain : (Shape.ofSegment options text).looksAhead = false) :
    TakesWithin (GlobMeaning.SegmentTakes options text) text.length (HidesItem options text) := by
  intro path left takes
  by_cases hides : HidesItem options text
  · obtain ⟨items, isSegment, unseen⟩ := hides
    have plainItems : ∀ item ∈ items, item.shape.looksAhead = false := by
      rw [Shape.ofSegment, ofSegment?_of_isSegment isSegment, Option.getD_some,
        Shape.looksAhead_sequence] at plain
      simpa using plain
    have within := isSegment.branchTakesWithin unsigned items List.mem_cons_self plainItems
    obtain ⟨word, takesWord, short, shorter⟩ := within path left (isSegment.segmentTakes_iff.mp takes)
    exact ⟨word, fun tail => isSegment.segmentTakes_iff.mpr (takesWord tail), short,
      fun _ => shorter unseen⟩
  · have spells := segmentSpells_of_isUnsigned unsigned hides
    exact ⟨text, fun tail => (spells.segmentTakes_iff matchesCase).mpr rfl, Nat.le_refl _,
      fun isHidden => absurd isHidden hides⟩

end GlobGrammar

namespace GlobMeaning

open GlobGrammar

variable {options : Options} {segments : List (List Char)}

/-- If segments match anything, they match a path that, separators apart, is no longer than they are
written, and a shorter one if an unseen item is read in one of them. -/
theorem exists_short_path (isShape : ∀ segment ∈ segments, ¬IsGlobstar options segment)
    (within : ∀ segment ∈ segments,
      TakesWithin (SegmentTakes options segment) segment.length (HidesItem options segment))
    {path : List Char} (matched : SegmentsMatch options segments path) :
    ∃ short, SegmentsMatch options segments short ∧
      short.countP (!options.platform.isSeparator ·) ≤ segments.flatten.length ∧
      ((∃ segment ∈ segments, HidesItem options segment) →
        short.countP (!options.platform.isSeparator ·) < segments.flatten.length) := by
  induction segments generalizing path with
  | nil => exact ⟨[], rfl, by simp, by simp⟩
  | cons segment others ih =>
    obtain ⟨firstIsShape, othersAreShapes⟩ := List.forall_mem_cons.mp isShape
    obtain ⟨firstWithin, othersWithin⟩ := List.forall_mem_cons.mp within
    have count (word : List Char) :
        word.countP (!options.platform.isSeparator ·) ≤ word.length := List.countP_le_length
    cases others with
    | nil =>
      obtain ⟨isGlobstar, _⟩ | ⟨_, trailing, takes, _⟩ := matched
      · exact absurd isGlobstar firstIsShape
      obtain ⟨word, takesWord, short, shorter⟩ := firstWithin path trailing takes
      rw [List.flatten_singleton]
      refine ⟨word ++ [], .inr ⟨firstIsShape, [], takesWord [], by simp⟩, ?_, ?_⟩
      · rw [List.append_nil]
        exact (count word).trans short
      · rw [List.append_nil]
        rintro ⟨_, isSegment, hides⟩
        obtain rfl := List.mem_singleton.mp isSegment
        exact (count word).trans_lt (shorter hides)
    | cons next others =>
      obtain ⟨isGlobstar, _⟩ | ⟨_, separators, rest, takes, _, _, following⟩ := matched
      · exact absurd isGlobstar firstIsShape
      obtain ⟨word, takesWord, short, shorter⟩ := firstWithin _ _ takes
      obtain ⟨left, matchedLeft, shortLeft, shorterLeft⟩ := ih othersAreShapes othersWithin following
      have separates := isSeparator_slash options.platform
      have counted : (word ++ (['/'] ++ left)).countP (!options.platform.isSeparator ·) =
          word.countP (!options.platform.isSeparator ·) +
            left.countP (!options.platform.isSeparator ·) := by
        simp [separates]
      have := count word
      rw [List.flatten_cons, List.length_append]
      refine ⟨word ++ (['/'] ++ left), .inr ⟨firstIsShape, ['/'], left, takesWord _, by simp,
        by simp [separates], matchedLeft⟩, by omega, ?_⟩
      rintro ⟨_, isSegment, hides⟩
      rcases List.mem_cons.mp isSegment with rfl | isSegment
      · have := shorter hides
        omega
      · have := shorterLeft ⟨_, isSegment, hides⟩
        omega

end GlobMeaning

/-- What does not look like a glob is unsigned in each of its segments. -/
theorem isUnsigned_of_isGlob {text : String} (noBackslash : '\\' ∉ text.toList)
    (unsigned : isGlob text = false) : IsUnsigned {} text.toList where
  noSign := Sign.isSign_eq_false_of_scan (.inl rfl) noBackslash unsigned
  noBackslash := noBackslash
  noEscape := noBackslash

/-- A matcher matches the paths that are the same as a text up to how separators are written. -/
def Matcher.MatchesLiterally (matcher : Matcher) (platform : Platform) (text : List Char)
    (engine : Engine) : Prop :=
  ∀ path : String, matcher.isMatch path engine = true ↔
    Path.canonical platform path.toList = Path.canonical platform text

/-- Unless there is a group `!(…)`, a text is not matched literally if an unseen item is read in it. -/
theorem not_hidesItem_of_matchesLiterally {text : String} {matcher : Matcher}
    (unsigned : IsUnsigned {} text.toList)
    (plain : ∀ name ∈ Path.names .posix text.toList, (Shape.ofSegment {} name).looksAhead = false)
    (compiled : Matcher.compile {} text = .ok matcher) {engine : Engine}
    (literally : matcher.MatchesLiterally .posix text.toList engine) :
    ∀ name ∈ Path.names .posix text.toList, ¬GlobGrammar.HidesItem {} name := by
  intro name isName hides
  obtain ⟨c, rest, rfl⟩ := List.exists_cons_of_ne_nil (Path.ne_nil_of_mem_names isName)
  have inText := Text.mem_of_mem_pieces (List.mem_of_mem_filter isName) List.mem_cons_self
  have isMatch (path : String) := Matcher.isMatch_iff_placedNames compiled inText
    (Path.isSeparator_of_mem_names isName List.mem_cons_self) path engine
  have answered := Matcher.givesUp_eq_false compiled (looksAhead_globPattern plain)
  have unsignedSegments : ∀ segment ∈ GlobMeaning.placedNames .posix text.toList,
      IsUnsigned {} segment :=
    GlobMeaning.forall_mem_placedNames_iff.mpr ⟨fun _ => unsigned.of_infix List.nil_infix,
      fun _ => unsigned.of_mem_names⟩
  have plainSegments : ∀ segment ∈ GlobMeaning.placedNames .posix text.toList,
      (Shape.ofSegment {} segment).looksAhead = false :=
    GlobMeaning.forall_mem_placedNames_iff.mpr ⟨fun _ => rfl, plain⟩
  have itself := ((isMatch text).mp ((literally text).mpr rfl)).2
  obtain ⟨short, matched, -, shorter⟩ := GlobMeaning.exists_short_path
    (fun segment isSegment => (unsignedSegments segment isSegment).not_isGlobstar)
    (fun segment isSegment => GlobGrammar.segmentTakes_within (unsignedSegments segment isSegment)
      rfl (plainSegments segment isSegment)) itself
  -- The short path is matched, so it would have the names of the text, and they are too long.
  have same : Path.canonical .posix short = Path.canonical .posix text.toList := by
    have matchedString := (isMatch (String.ofList short)).mpr
      ⟨answered _ engine, by rwa [String.toList_ofList]⟩
    simpa using (literally _).mp matchedString
  have sameNames := (Path.canonical_eq_canonical_iff.mp same).1
  have isSegment := (GlobMeaning.forall_mem_placedNames_iff.mp fun _ isSegment => isSegment).2 _ isName
  have tooShort := shorter ⟨_, isSegment, hides⟩
  rw [List.countP_eq_length_filter, ← Path.flatten_names, sameNames,
    ← GlobMeaning.flatten_placedNames] at tooShort
  exact Nat.lt_irrefl _ tooShort

/-- A text does not look like a glob, but matches a path that is not the same as the text up to how
separators are written. -/
def IsOverlooked (text path : String) : Prop :=
  text ≠ "" ∧ '\\' ∉ text.toList ∧ isGlob text = false ∧
    ∃ matcher, Matcher.compile {} text = .ok matcher ∧ matcher.isMatch path .standard = true ∧
      Path.canonical .posix path.toList ≠ Path.canonical .posix text.toList

end PathGlob
