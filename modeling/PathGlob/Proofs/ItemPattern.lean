import PathGlob.Glob.Pattern
import PathGlob.Proofs.GlobMeaning
import PathGlob.Proofs.RegexSequence
import PathGlob.Proofs.SegmentReading

/-! # The expressions of items

The expression of a shape takes what the item takes that has the shape. The laws go up the syntax
tree: for separators and names, for sequences and alternatives of expressions, and from there to
items.
-/

namespace PathGlob

open Relation

namespace Shape

private theorem pattern_foldl_seq (platform : Platform) (shapes : List Shape) (start : Shape) :
    (shapes.foldl .seq start).pattern platform =
      (shapes.map (pattern platform)).foldl .seq (start.pattern platform) := by
  induction shapes generalizing start with
  | nil => rfl
  | cons shape rest ih => rw [List.foldl_cons, ih]; rfl

private theorem pattern_foldl_alt (platform : Platform) (shapes : List Shape) (start : Shape) :
    (shapes.foldl .alt start).pattern platform =
      (shapes.map (pattern platform)).foldl .alt (start.pattern platform) := by
  induction shapes generalizing start with
  | nil => rfl
  | cons shape rest ih => rw [List.foldl_cons, ih]; rfl

theorem pattern_sequence (platform : Platform) (shapes : List Shape) :
    (sequence shapes).pattern platform = Regex.sequence (shapes.map (pattern platform)) :=
  pattern_foldl_seq platform shapes .empty

theorem pattern_alternatives (platform : Platform) (first : List Shape) (others : List (List Shape)) :
    (alternatives first others).pattern platform =
      Regex.alternatives ((first :: others).map (List.map (pattern platform))) := by
  rw [alternatives, pattern_foldl_alt, List.map_cons, Regex.alternatives, pattern_sequence,
    List.map_map, List.map_map]
  congr 2
  funext shapes
  exact pattern_sequence platform shapes

theorem literal_eq_sequence (text : List Char) : literal text = sequence (text.map .char) := by
  rw [literal, sequence, List.foldl_map]

private theorem sequence_append (shapes : List Shape) (shape : Shape) :
    sequence (shapes ++ [shape]) = .seq (sequence shapes) shape :=
  List.foldl_concat ..

/-- A sequence tells which shapes it is made of. -/
theorem sequence_injective : Function.Injective sequence := by
  intro shapes others same
  induction shapes using List.reverseRecOn generalizing others with
  | nil =>
    rcases List.eq_nil_or_concat' others with rfl | ⟨front, last, rfl⟩
    · rfl
    · rw [sequence_append] at same
      cases same
  | append_singleton shapes shape ih =>
    rcases List.eq_nil_or_concat' others with rfl | ⟨front, last, rfl⟩
    · rw [sequence_append] at same
      cases same
    · rw [sequence_append, sequence_append] at same
      obtain ⟨sameFront, rfl⟩ := Shape.seq.inj same
      rw [ih sameFront]

end Shape

namespace GlobItem

def pattern (platform : Platform) (item : GlobItem) : Regex :=
  item.shape.pattern platform

def branchPattern (platform : Platform) (items : List GlobItem) : Regex :=
  .sequence (items.map (pattern platform))

def alternativesPattern (platform : Platform) (first : List GlobItem)
    (others : List (List GlobItem)) : Regex :=
  .alternatives ((first :: others).map (List.map (pattern platform)))

private theorem pattern_sequence_shapes (platform : Platform) (items : List GlobItem) :
    (Shape.sequence (items.map shape)).pattern platform = branchPattern platform items := by
  rw [Shape.pattern_sequence, List.map_map]
  rfl

theorem pattern_group (platform : Platform) (kind : GroupKind) (first : List GlobItem)
    (others : List (List GlobItem)) :
    (group kind first others).pattern platform =
      match kind with
      | .brace | .one => .group (alternativesPattern platform first others)
      | .oneOrMore => .oneOrMore (.group (alternativesPattern platform first others))
      | .zeroOrMore => .zeroOrMore (.group (alternativesPattern platform first others))
      | .zeroOrOne => .zeroOrOne (.group (alternativesPattern platform first others))
      | .noneOf =>
        .seq (.notAhead (alternativesPattern platform first others)) platform.runPattern := by
  have content :
      (Shape.alternatives (first.map shape) (others.map (List.map shape))).pattern platform =
        alternativesPattern platform first others := by
    rw [Shape.pattern_alternatives, ← List.map_cons, List.map_map, alternativesPattern]
    congr 2
    funext items
    exact List.map_map
  rw [pattern, shape_group]
  cases kind <;> simp only [Shape.pattern, content]

end GlobItem

namespace GlobGrammar

variable {options : Options} {segment : List Char}

/-- The expression of a segment of complete syntax is that of its items. -/
theorem IsSegment.pattern_ofSegment {items : List GlobItem}
    (isSegment : IsSegment options segment items) :
    (Shape.ofSegment options segment).pattern options.platform =
      GlobItem.branchPattern options.platform items := by
  rw [Shape.ofSegment, ofSegment?_of_isSegment isSegment, Option.getD_some,
    GlobItem.pattern_sequence_shapes]

/-- The expression of any other segment is that of its characters. -/
theorem pattern_ofSegment_of_incomplete (incomplete : ∀ items, ¬IsSegment options segment items) :
    (Shape.ofSegment options segment).pattern options.platform =
      GlobItem.branchPattern options.platform (segment.map .char) := by
  have shapes : segment.map Shape.char = (segment.map GlobItem.char).map GlobItem.shape := by
    rw [List.map_map]
    rfl
  rw [Shape.ofSegment, ofSegment?_eq_none_iff.mpr incomplete, Option.getD_none,
    Shape.literal_eq_sequence, shapes, GlobItem.pattern_sequence_shapes]

/-- Either way, the expression of a segment is that of some items. -/
theorem exists_pattern_ofSegment (options : Options) (segment : List Char) :
    ∃ items, (IsSegment options segment items ∨ items = segment.map .char) ∧
      (Shape.ofSegment options segment).pattern options.platform =
        GlobItem.branchPattern options.platform items := by
  by_cases complete : ∃ items, IsSegment options segment items
  · obtain ⟨items, isSegment⟩ := complete
    exact ⟨items, .inl isSegment, isSegment.pattern_ofSegment⟩
  · exact ⟨_, .inr rfl, pattern_ofSegment_of_incomplete (not_exists.mp complete)⟩

end GlobGrammar

namespace Platform

variable {caseInsensitive : Bool} {text rest : List Char}

/-- As a member of a class, a separator meets no other character, with case or without. -/
theorem meets_separator (platform : Platform) {separator : Char}
    (separates : platform.isSeparator separator = true) (c : Char) :
    (ClassMember.char separator).meets (alike caseInsensitive c) = decide (c = separator) := by
  have same : separator ∈ alike caseInsensitive c ↔ c = separator :=
    (mem_alike_iff (platform.isCaseless_of_isSeparator separates) caseInsensitive c).trans eq_comm
  rw [Bool.eq_iff_iff, decide_eq_true_iff, ← same, ClassMember.meets, List.any_eq_true]
  simp [ClassMember.contains]

/-- The class of all separators, or of all other characters. -/
def separatorClass (negated : Bool) : Platform → CharClass
  | windows => ⟨negated, [.char '\\' .escaped, .char '/' .bare]⟩
  | posix => ⟨negated, [.char '/' .bare]⟩

private theorem accepts_separatorClass (platform : Platform) (negated : Bool) (c : Char) :
    (platform.separatorClass negated).accepts (alike caseInsensitive c) =
      (negated != platform.isSeparator c) := by
  cases platform with
  | windows =>
    have members : (windows.separatorClass negated).members? =
        some ⟨[.char '\\', .char '/'], []⟩ := rfl
    have backslash : (ClassMember.char '\\').meets (alike caseInsensitive c) = decide (c = '\\') :=
      windows.meets_separator rfl c
    have slash : (ClassMember.char '/').meets (alike caseInsensitive c) = decide (c = '/') :=
      windows.meets_separator rfl c
    rw [CharClass.accepts, members]
    simp [ClassMembers.meets, backslash, slash, separatorClass, isSeparator, separators]
  | posix =>
    have members : (posix.separatorClass negated).members? = some ⟨[.char '/'], []⟩ := rfl
    have slash : (ClassMember.char '/').meets (alike caseInsensitive c) = decide (c = '/') :=
      posix.meets_separator rfl c
    rw [CharClass.accepts, members]
    simp [ClassMembers.meets, slash, separatorClass, isSeparator, separators]

private theorem contains_alike_slash (c : Char) :
    (alike caseInsensitive c).contains '/' = posix.isSeparator c := by
  have slash : '/' ∈ alike caseInsensitive c ↔ '/' = c :=
    mem_alike_iff (posix.isCaseless_of_isSeparator rfl) caseInsensitive c
  simp [slash, isSeparator, separators, eq_comm]

/-- The parts of an expression that stand for separators and names succeed before these. -/
theorem trial_separatorPattern (platform : Platform) (text : List Char) :
    platform.separatorPattern.trial (letters caseInsensitive text) =
      .letter (Places.before (fun letter => platform.isSeparator letter.char)
        (letters caseInsensitive text)) := by
  cases platform with
  | windows =>
    refine congrArg Trial.letter (before_letters_congr fun c _ => ?_)
    exact (accepts_separatorClass windows false c).trans (Bool.false_bne _)
  | posix => exact congrArg Trial.letter (before_letters_congr fun c _ => contains_alike_slash c)

theorem trial_namePattern (platform : Platform) (text : List Char) :
    platform.namePattern.trial (letters caseInsensitive text) =
      .letter (Places.before (fun letter => !platform.isSeparator letter.char)
        (letters caseInsensitive text)) := by
  have pattern : platform.namePattern = .cls (platform.separatorClass true) := by
    cases platform <;> rfl
  rw [pattern]
  refine congrArg Trial.letter (before_letters_congr fun c _ => ?_)
  exact (accepts_separatorClass platform true c).trans (Bool.true_bne _)

theorem takesText_separatorPattern (platform : Platform) (text rest : List Char) :
    platform.separatorPattern.TakesText caseInsensitive text rest ↔
      ∃ c, text = c :: rest ∧ platform.isSeparator c = true := by
  cases platform with
  | windows =>
    have pattern : windows.separatorPattern = .cls (windows.separatorClass false) := rfl
    simp [pattern, accepts_separatorClass]
  | posix =>
    have slash (c : Char) : '/' ∈ alike caseInsensitive c ↔ posix.isSeparator c = true := by
      rw [← contains_alike_slash, List.contains_iff_mem]
    simp [separatorPattern, slash]

theorem takesText_namePattern (platform : Platform) (text rest : List Char) :
    platform.namePattern.TakesText caseInsensitive text rest ↔
      ∃ c, text = c :: rest ∧ platform.isSeparator c = false := by
  have pattern : platform.namePattern = .cls (platform.separatorClass true) := by
    cases platform <;> rfl
  simp [pattern, accepts_separatorClass]

theorem takesText_runPattern (platform : Platform) :
    platform.runPattern.TakesText caseInsensitive text rest ↔ platform.TakesRun text rest :=
  Regex.takesText_zeroOrMore_iff_run platform.takesText_namePattern

theorem takesText_partingPattern (platform : Platform) :
    platform.partingPattern.TakesText caseInsensitive text rest ↔
      ∃ run, run ≠ [] ∧ text = run ++ rest ∧ ∀ c ∈ run, platform.isSeparator c = true :=
  Regex.takesText_oneOrMore_iff_run platform.takesText_separatorPattern

theorem takesText_trailingPattern (platform : Platform) :
    platform.trailingPattern.TakesText caseInsensitive text rest ↔
      ∃ run, text = run ++ rest ∧ ∀ c ∈ run, platform.isSeparator c = true :=
  Regex.takesText_zeroOrMore_iff_run platform.takesText_separatorPattern

end Platform

namespace GlobItem

variable {options : Options} {text rest : List Char}

/-- What is known of the items of a branch carries over to the branch. -/
theorem takesText_branchPattern {items : List GlobItem}
    (each : ∀ item ∈ items, ∀ text rest,
      (item.pattern options.platform).TakesText options.caseInsensitive text rest ↔
        item.Takes options text rest) :
    (branchPattern options.platform items).TakesText options.caseInsensitive text rest ↔
      BranchTakes options items text rest := by
  induction items generalizing text with
  | nil => exact Regex.takesText_empty
  | cons item following ih =>
    obtain ⟨first, others⟩ := List.forall_mem_cons.mp each
    rw [branchPattern, List.map_cons, Regex.takesText_sequence_cons, BranchTakes]
    apply exists_congr
    intro middle
    rw [first, ← branchPattern, ih others]

theorem branchTakes_append {items others : List GlobItem} :
    BranchTakes options (items ++ others) text rest ↔
      ∃ middle, BranchTakes options items text middle ∧ BranchTakes options others middle rest := by
  induction items generalizing text with
  | nil => simp only [List.nil_append, BranchTakes, exists_eq_left]
  | cons item items ih =>
    simp only [List.cons_append, BranchTakes, ih]
    constructor
    · rintro ⟨next, taken, middle, following, others⟩
      exact ⟨middle, ⟨next, taken, following⟩, others⟩
    · rintro ⟨middle, ⟨next, taken, following⟩, others⟩
      exact ⟨next, taken, middle, following, others⟩

theorem alternativesTake_iff {alternatives : List (List GlobItem)} :
    AlternativesTake options alternatives text rest ↔
      ∃ branch ∈ alternatives, BranchTakes options branch text rest := by
  induction alternatives with
  | nil => simp [AlternativesTake]
  | cons branch others ih => simp [AlternativesTake, ih]

private theorem takesText_alternativesPattern {first : List GlobItem} {others : List (List GlobItem)}
    (each : ∀ branch ∈ first :: others, ∀ item ∈ branch, ∀ text rest,
      (item.pattern options.platform).TakesText options.caseInsensitive text rest ↔
        item.Takes options text rest) (text rest : List Char) :
    (alternativesPattern options.platform first others).TakesText options.caseInsensitive text rest ↔
      BranchTakes options first text rest ∨ AlternativesTake options others text rest := by
  have branches : ∀ branch ∈ first :: others,
      ((Regex.sequence (branch.map (pattern options.platform))).TakesText options.caseInsensitive
        text rest ↔ BranchTakes options branch text rest) :=
    fun branch isBranch => takesText_branchPattern (each branch isBranch)
  rw [alternativesPattern, Regex.takesText_alternatives (by simp), alternativesTake_iff]
  simp only [List.mem_map, exists_exists_and_eq_and]
  rw [exists_congr fun branch => and_congr_right (branches branch)]
  simp only [List.mem_cons, exists_eq_or_imp]

/-- The expression of an item takes what the item takes. -/
theorem takesText_pattern (item : GlobItem) (text rest : List Char) :
    (item.pattern options.platform).TakesText options.caseInsensitive text rest ↔
      item.Takes options text rest := by
  induction item using GlobItem.induct generalizing text rest with
  | char c => exact Regex.takesText_char
  | anyChar => exact Regex.takesText_anyChar
  | anyRun => exact options.platform.takesText_runPattern
  | bracket cls repeated =>
    cases repeated with
    | false => exact Regex.takesText_cls
    | true => exact Regex.takesText_oneOrMore_iff_run fun _ _ => Regex.takesText_cls
  | group kind first others each =>
    have content := takesText_alternativesPattern each
    have same : (alternativesPattern options.platform first others).TakesText
        options.caseInsensitive = fun text rest =>
          BranchTakes options first text rest ∨ AlternativesTake options others text rest := by
      funext text rest
      exact propext (content text rest)
    rw [pattern_group, Takes, ← same]
    cases kind with
    | brace | one => exact Iff.rfl
    | oneOrMore => exact Regex.takesText_oneOrMore
    | zeroOrMore => exact Regex.takesText_zeroOrMore
    | zeroOrOne => exact Regex.takesText_zeroOrOne
    | noneOf =>
      simp only [Regex.takesText_seq, Regex.takesText_notAhead, GroupKind.Takes,
        Platform.takesText_runPattern]
      constructor
      · rintro ⟨_, ⟨rfl, fails⟩, run⟩
        exact ⟨fails, run⟩
      · rintro ⟨fails, run⟩
        exact ⟨text, ⟨rfl, fails⟩, run⟩

end GlobItem

end PathGlob
