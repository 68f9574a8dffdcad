import PathGlob.Proofs.ItemPattern
import PathGlob.Proofs.RegexLayout
import PathGlob.Proofs.SegmentReading

/-! # The expressions of segments are well formed

A bracket that can be read as a class of an expression stays readable when it is written down, and
every rule of the grammar of segments keeps expressions well formed: a group is closed where it
ends, alternatives only stand in groups, and what is repeated is a class or a group.
-/

namespace PathGlob

variable {options : Options} {text rest : List Char}

namespace GlobGrammar

/-- The classes that can be named are spelled so that they can be read back. -/
theorem isReadable_of_tokens? {name : List Char} {tokens : List ClassToken}
    (named : NamedClass.tokens? name = some tokens) :
    tokens.all ClassToken.isReadable = true ∧ tokens.head? ≠ some (.char '^' .bare) := by
  have readable : ∀ entry ∈ NamedClass.table,
      entry.2.all ClassToken.isReadable = true ∧ entry.2.head? ≠ some (.char '^' .bare) := by
    decide +kernel
  exact readable _ (NamedClass.mem_table_of_tokens? named)

theorem Member.isReadable {tokens : List ClassToken} (member : Member options text tokens rest) :
    tokens.all ClassToken.isReadable = true ∧ tokens.head? ≠ some (.char '^' .bare) := by
  cases member with
  | escaped c =>
    refine ⟨by simp [ClassToken.isReadable_literal], ?_⟩
    simpa using ClassToken.literal_ne_caret c
  | named named =>
    obtain ⟨_, _, known, _⟩ := named
    exact isReadable_of_tokens? known
  | plain c =>
    refine ⟨by simp [ClassToken.isReadable_plain], ?_⟩
    simpa using ClassToken.plain_ne_caret c

theorem Members.isReadable {first : Bool} {tokens : List ClassToken}
    (members : Members options first text tokens rest) :
    tokens.all ClassToken.isReadable = true ∧ tokens.head? ≠ some (.char '^' .bare) := by
  induction members with
  | close => exact ⟨rfl, by simp⟩
  | member _ member _ ih =>
    obtain ⟨readable, unmarked⟩ := member.isReadable
    rw [List.all_append, readable, ih.1, List.head?_append_of_ne_nil _ member.ne_nil]
    exact ⟨rfl, unmarked⟩

theorem Members.ne_nil {tokens : List ClassToken} (members : Members options true text tokens rest) :
    tokens ≠ [] := by
  cases members with
  | member _ member _ => exact List.append_ne_nil_of_left_ne_nil member.ne_nil _

/-- A bracket that means something can be read back from its text. -/
theorem Bracket.isReadable {cls : CharClass} (bracket : Bracket options text cls rest)
    (valid : cls.isValid = true) : cls.isReadable = true := by
  cases bracket with
  | negated members | plain _ members =>
    obtain ⟨readable, unmarked⟩ := members.isReadable
    simp [CharClass.isReadable, valid, readable, unmarked, members.ne_nil]

end GlobGrammar

namespace GlobItem

/-- The expression of an item is not made of alternatives. -/
theorem isBranch_pattern (platform : Platform) (item : GlobItem) :
    (item.pattern platform).isBranch = true := by
  cases item with
  | bracket cls repeated => cases repeated <;> rfl
  | group kind first others => rw [pattern_group]; cases kind <;> rfl
  | _ => rfl

private theorem isWellFormed_branchPattern {platform : Platform} {items : List GlobItem}
    (each : ∀ item ∈ items, (item.pattern platform).isWellFormed = true) :
    (branchPattern platform items).isWellFormed = true := by
  rw [branchPattern, Regex.isWellFormed_sequence_iff]
  intro regex isPart
  obtain ⟨item, isItem, rfl⟩ := List.mem_map.mp isPart
  exact ⟨item.isBranch_pattern platform, each item isItem⟩

/-- A group of well-formed alternatives is well formed, whatever is done with it. -/
theorem isWellFormed_group {platform : Platform} {kind : GroupKind} {first : List GlobItem}
    {others : List (List GlobItem)}
    (each : ∀ branch ∈ first :: others, ∀ item ∈ branch, (item.pattern platform).isWellFormed = true) :
    ((group kind first others).pattern platform).isWellFormed = true := by
  have content : (alternativesPattern platform first others).isWellFormed = true := by
    rw [alternativesPattern, Regex.isWellFormed_alternatives_iff]
    intro branch isBranch
    obtain ⟨items, isAlternative, rfl⟩ := List.mem_map.mp isBranch
    exact isWellFormed_branchPattern (each items isAlternative)
  have run : platform.runPattern.isWellFormed = true := by cases platform <;> rfl
  rw [pattern_group]
  cases kind with
  | noneOf =>
    have outer : platform.runPattern.isBranch = true := rfl
    simp only [Regex.isWellFormed, content, run, outer]
    rfl
  | _ => exact content

end GlobItem

namespace GlobGrammar

private theorem Single.isWellFormed_pattern {inside : Option GroupKind} {item : GlobItem}
    (single : Single options inside text item rest) (platform : Platform) :
    (item.pattern platform).isWellFormed = true := by
  cases single with
  | escaped | anyChar | literal => rfl
  | anyRun => cases platform <;> rfl
  | bracket bracket valid => exact bracket.isReadable valid
  | repeated bracket valid => exact bracket.isReadable valid

/-- Whatever a text reads as has well-formed expressions. -/
theorem Reads.isWellFormed_pattern {inside : Option GroupKind} {alternatives : List (List GlobItem)}
    (reads : Reads options inside text alternatives rest) (platform : Platform) :
    ∀ branch ∈ alternatives, ∀ item ∈ branch, (item.pattern platform).isWellFormed = true := by
  induction reads with
  | finish | close => simp
  | part _ ih => simpa using ih
  | single single _ ih =>
    rw [List.forall_mem_cons, List.forall_mem_cons]
    rw [List.forall_mem_cons] at ih
    exact ⟨⟨single.isWellFormed_pattern platform, ih.1⟩, ih.2⟩
  | group _ _ _ content ih =>
    rw [List.forall_mem_cons, List.forall_mem_cons]
    rw [List.forall_mem_cons] at ih
    exact ⟨⟨GlobItem.isWellFormed_group content, ih.1⟩, ih.2⟩

end GlobGrammar

/-- The expression of a segment is well formed, whether its syntax is complete or not. -/
theorem isWellFormed_ofSegment (options : Options) (segment : List Char) :
    ((Shape.ofSegment options segment).pattern options.platform).isWellFormed = true := by
  obtain ⟨items, isSegment | rfl, same⟩ := GlobGrammar.exists_pattern_ofSegment options segment
  · rw [same]
    exact GlobItem.isWellFormed_branchPattern
      (isSegment.isWellFormed_pattern options.platform items (List.mem_singleton_self items))
  · rw [same]
    apply GlobItem.isWellFormed_branchPattern
    intro item isItem
    obtain ⟨c, _, rfl⟩ := List.mem_map.mp isItem
    rfl

theorem isBranch_ofSegment (options : Options) (segment : List Char) :
    ((Shape.ofSegment options segment).pattern options.platform).isBranch = true := by
  obtain ⟨items, _, same⟩ := GlobGrammar.exists_pattern_ofSegment options segment
  rw [same]
  exact Regex.isBranch_sequence _

end PathGlob
