import PathGlob.Proofs.CompileRefusal
import PathGlob.Proofs.LookAhead
import PathGlob.Proofs.SourceSegments

/-! # Segments that spell a text

A segment may stand for one text only. A segment whose syntax is not complete spells itself, and a
text with an escape mark in front of every character spells the text; both are compiled to the same
expression, the characters of the text one after the other.
-/

namespace PathGlob

/-- A text with the escape mark in front of every character. -/
def Platform.escape (platform : Platform) (text : String) : String :=
  String.ofList (text.toList.flatMap fun c => [platform.escapeMark, c])

/-- A matcher accepts a text, with or without separators at its end, and nothing else. -/
def Matcher.AcceptsOnly (matcher : Matcher) (platform : Platform) (text : List Char) : Prop :=
  ∀ (path : String) (engine : Engine), matcher.isMatch path engine = true ↔
    ∃ separators, path.toList = text ++ separators ∧
      ∀ c ∈ separators, platform.isSeparator c = true

/-- A segment spells a text: it is compiled to the characters of the text, one after the other. -/
def SegmentSpells (options : Options) (segment text : List Char) : Prop :=
  (Shape.ofSegment options segment).pattern options.platform =
    GlobItem.branchPattern options.platform (text.map .char)

variable {options : Options} {segment text : List Char}

namespace GlobItem

/-- With case, characters take themselves. -/
theorem branchTakes_chars_iff (matchesCase : options.caseInsensitive = false)
    {path rest : List Char} :
    BranchTakes options (text.map .char) path rest ↔ path = text ++ rest := by
  induction text generalizing path with
  | nil => exact eq_comm
  | cons c text ih =>
    rw [List.map_cons, BranchTakes, Takes, matchesCase]
    simp only [ih, alike, Bool.false_eq_true, if_false, List.mem_singleton]
    constructor
    · rintro ⟨_, ⟨d, rfl, rfl⟩, rfl⟩
      rfl
    · rintro rfl
      exact ⟨text ++ rest, ⟨c, rfl, rfl⟩, rfl⟩

private theorem text_branchPattern_chars (platform : Platform) (text : List Char) :
    (branchPattern platform (text.map .char)).text = text.flatMap Regex.charText := by
  rw [branchPattern, Regex.text_sequence, List.map_map, List.flatMap_map]
  rfl

end GlobItem

namespace SegmentSpells

theorem of_isSegment (isSegment : GlobGrammar.IsSegment options segment (text.map .char)) :
    SegmentSpells options segment text :=
  isSegment.pattern_ofSegment

/-- A segment whose syntax is not complete spells itself. -/
theorem of_incomplete (incomplete : ∀ items, ¬GlobGrammar.IsSegment options segment items) :
    SegmentSpells options segment segment :=
  GlobGrammar.pattern_ofSegment_of_incomplete incomplete

variable (spells : SegmentSpells options segment text)

include spells

theorem isAccepted :
    ((Shape.ofSegment options segment).pattern options.platform).isAccepted = true := by
  rw [spells, GlobItem.isAccepted_branchPattern_iff, GlobItem.branchDepth_le_iff, List.forall_mem_map,
    List.forall_mem_map]
  refine ⟨fun c _ => Nat.zero_le _, ?_⟩
  rintro c _ ⟨⟩

/-- There is no check ahead in it. -/
theorem looksAhead_eq_false : (Shape.ofSegment options segment).looksAhead = false := by
  rw [← Shape.looksAhead_pattern _ options.platform, spells, GlobItem.branchPattern,
    Regex.looksAhead_sequence, List.map_map, List.any_map, List.any_eq_false]
  rintro c _ ⟨⟩

/-- With case, a segment takes the text that it spells. -/
theorem segmentTakes_iff (matchesCase : options.caseInsensitive = false) {path rest : List Char} :
    GlobMeaning.SegmentTakes options segment path rest ↔ path = text ++ rest := by
  rw [← takesText_ofSegment_iff, spells,
    GlobItem.takesText_branchPattern fun item _ => item.takesText_pattern,
    GlobItem.branchTakes_chars_iff matchesCase]

end SegmentSpells

/-- A glob whose segments all spell something compiles. -/
theorem exists_compile_of_spells {glob : String}
    (spell : ∀ name ∈ Path.names options.platform glob.toList, ∃ text,
      SegmentSpells options name text) :
    ∃ matcher, Matcher.compile options glob = .ok matcher := by
  rw [exists_compile_iff]
  intro name isName
  obtain ⟨_, spells⟩ := spell name isName
  exact spells.isAccepted

/-- A globstar is a segment of complete syntax. -/
theorem GlobGrammar.not_isGlobstar_of_incomplete
    (incomplete : ∀ items, ¬IsSegment options segment items) :
    ¬GlobMeaning.IsGlobstar options segment := by
  rintro ⟨_, rfl⟩
  have run : IsSegment options ['*', '*'] [.anyRun] :=
    .single (.anyRun 1 [] (by simp) (by rintro kind body ⟨_, _, _, ⟨⟩⟩)) .finish
  exact incomplete _ run

/-- Escaping every character leaves nothing but characters. -/
theorem GlobGrammar.isSegment_escaped (options : Options) (text : List Char) :
    IsSegment options (text.flatMap fun c => [options.platform.escapeMark, c]) (text.map .char) := by
  induction text with
  | nil => exact .finish
  | cons c text ih => exact .single (.escaped c _) ih

section Alone

variable (nonempty : segment ≠ [])
  (noSeparator : ∀ c ∈ segment, options.platform.isSeparator c = false)
  (isShape : ¬GlobMeaning.IsGlobstar options segment)

include nonempty noSeparator isShape

/-- A glob of one segment has a matcher if the expression of the segment is accepted. Without a check
ahead this
matcher accepts what the segment takes, with or without separators at the end. -/
theorem exists_compile_alone
    (accepted : ((Shape.ofSegment options segment).pattern options.platform).isAccepted = true)
    (plain : (Shape.ofSegment options segment).looksAhead = false) :
    ∃ matcher, Matcher.compile options (String.ofList segment) = .ok matcher ∧
      ∀ (path : String) (engine : Engine), matcher.isMatch path engine = true ↔ ∃ separators,
        GlobMeaning.SegmentTakes options segment path.toList separators ∧
          ∀ c ∈ separators, options.platform.isSeparator c = true := by
  have alone : ∀ name ∈ Path.names options.platform (String.ofList segment).toList,
      name = segment := by
    rw [String.toList_ofList, Path.names_of_no_separator nonempty noSeparator,
      List.forall_mem_singleton]
  obtain ⟨matcher, compiled⟩ := exists_compile_iff.mpr fun name isName => alone name isName ▸ accepted
  have plainPattern := looksAhead_globPattern fun name isName => alone name isName ▸ plain
  have pattern : globPattern options (String.ofList segment) =
      .seq ((Shape.ofSegment options segment).pattern options.platform)
        options.platform.trailingPattern := by
    rw [globPattern, String.toList_ofList, GlobSource.ofText_segment nonempty noSeparator isShape]
    rfl
  refine ⟨matcher, compiled, fun path engine => ?_⟩
  rw [Matcher.isMatch_iff_takesText_of_plain compiled plainPattern, pattern, Regex.takesText_seq]
  simp only [takesText_ofSegment_iff, Platform.takesText_trailingPattern, List.append_nil,
    exists_eq_left']

variable (spells : SegmentSpells options segment text)

include spells

/-- The source of a glob of one segment holds the text that the segment spells. -/
theorem SegmentSpells.toList_globSource :
    (globSource options (String.ofList segment)).toList = '^' ::
      (text.flatMap Regex.charText ++ options.platform.trailingText.toList ++ ['$']) := by
  rw [GlobSource.toList_globSource_segment nonempty noSeparator isShape, spells,
    GlobItem.text_branchPattern_chars]

/-- A glob of one segment that spells a text has a matcher, and with case this accepts only the
text. -/
theorem SegmentSpells.exists_compile :
    ∃ matcher, Matcher.compile options (String.ofList segment) = .ok matcher ∧
      (options.caseInsensitive = false → matcher.AcceptsOnly options.platform text) := by
  obtain ⟨matcher, compiled, accepts⟩ :=
    exists_compile_alone nonempty noSeparator isShape spells.isAccepted spells.looksAhead_eq_false
  refine ⟨matcher, compiled, fun matchesCase path engine => ?_⟩
  simp only [accepts, spells.segmentTakes_iff matchesCase]

end Alone

/-- An escaped text is a segment of its own that spells the text. -/
theorem SegmentSpells.escape_spec {text : String} (nonempty : text ≠ "")
    (noSeparator : ∀ c ∈ text.toList, options.platform.isSeparator c = false) :
    (options.platform.escape text).toList ≠ [] ∧
      (∀ c ∈ (options.platform.escape text).toList, options.platform.isSeparator c = false) ∧
      ¬GlobMeaning.IsGlobstar options (options.platform.escape text).toList ∧
      SegmentSpells options (options.platform.escape text).toList text.toList := by
  have spells := SegmentSpells.of_isSegment (GlobGrammar.isSegment_escaped options text.toList)
  obtain ⟨c, rest, cut⟩ := List.exists_cons_of_ne_nil (by simpa using nonempty : text.toList ≠ [])
  rw [Platform.escape, String.toList_ofList]
  refine ⟨by simp [cut], ?_, ?_, spells⟩
  · intro d isWritten
    obtain ⟨e, inText, escaped⟩ := List.mem_flatMap.mp isWritten
    rcases List.mem_pair.mp escaped with rfl | rfl
    · exact options.platform.not_isSeparator_escapeMark
    · exact noSeparator d inText
  · rintro ⟨_, stars⟩
    rw [cut, List.flatMap_cons] at stars
    have := (List.cons.inj stars).1
    cases platform : options.platform <;> rw [platform] at this <;> cases this

example : globSource {} "[*\n\\" = "^\\[\\*\n\\\\/*$" := by decide

end PathGlob
