import PathGlob.Proofs.ItemPattern

/-! # Characters of segments

A reader of glob syntax goes over a text from front to back, and what it leaves is the end of the
text. So each character that stands for itself in what is read is a character of the text.
-/

namespace PathGlob

namespace Shape

/-- The characters that stand for themselves in a shape. -/
def chars : Shape → List Char
  | empty | anyChar | anyRun | bracket _ _ => []
  | char c => [c]
  | seq first second | alt first second => first.chars ++ second.chars
  | group _ body => body.chars

variable {c : Char}

private theorem mem_chars_foldl_seq {shapes : List Shape} {start : Shape} :
    c ∈ (shapes.foldl .seq start).chars ↔ c ∈ start.chars ∨ ∃ shape ∈ shapes, c ∈ shape.chars := by
  induction shapes generalizing start with
  | nil => simp
  | cons shape shapes ih => simp [ih, chars, or_assoc]

private theorem mem_chars_foldl_alt {shapes : List Shape} {start : Shape} :
    c ∈ (shapes.foldl .alt start).chars ↔ c ∈ start.chars ∨ ∃ shape ∈ shapes, c ∈ shape.chars := by
  induction shapes generalizing start with
  | nil => simp
  | cons shape shapes ih => simp [ih, chars, or_assoc]

theorem mem_chars_sequence {shapes : List Shape} :
    c ∈ (sequence shapes).chars ↔ ∃ shape ∈ shapes, c ∈ shape.chars := by
  simp [sequence, mem_chars_foldl_seq, chars]

theorem mem_chars_alternatives {first : List Shape} {others : List (List Shape)} :
    c ∈ (alternatives first others).chars ↔
      ∃ branch ∈ first :: others, ∃ shape ∈ branch, c ∈ shape.chars := by
  simp [alternatives, mem_chars_foldl_alt, mem_chars_sequence]

end Shape

namespace GlobGrammar

variable {options : Options} {text rest : List Char}

theorem Member.suffix {tokens : List ClassToken} (member : Member options text tokens rest) :
    rest <:+ text := by
  cases member with
  | escaped c => exact (List.suffix_cons c _).trans (List.suffix_cons _ _)
  | named named =>
    obtain ⟨name, _, _, rfl⟩ := named
    exact ⟨'[' :: ':' :: (name ++ [':', ']']), by simp⟩
  | plain c => exact List.suffix_cons c _

theorem Members.suffix {first : Bool} {tokens : List ClassToken}
    (members : Members options first text tokens rest) : rest <:+ text := by
  induction members with
  | close rest => exact List.suffix_cons _ rest
  | member _ member _ ih => exact ih.trans member.suffix

theorem Bracket.suffix {cls : CharClass} (bracket : Bracket options text cls rest) :
    rest <:+ text := by
  cases bracket with
  | negated members => exact (members.suffix.trans (List.suffix_cons _ _)).trans (List.suffix_cons _ _)
  | plain _ members => exact members.suffix.trans (List.suffix_cons _ _)

theorem Single.suffix {inside : Option GroupKind} {item : GlobItem}
    (single : Single options inside text item rest) : rest <:+ text := by
  cases single with
  | escaped c => exact (List.suffix_cons c _).trans (List.suffix_cons _ _)
  | anyChar | literal => exact List.suffix_cons _ rest
  | anyRun more rest => exact List.suffix_append _ rest
  | bracket bracket => exact bracket.suffix
  | repeated bracket => exact (List.suffix_cons _ rest).trans bracket.suffix

theorem Opens.suffix {kind : GroupKind} {body : List Char} (opens : Opens options text kind body) :
    body <:+ text := by
  cases opens with
  | brace body => exact List.suffix_cons _ body
  | extended opens =>
    obtain ⟨operator, _, _, rfl⟩ := opens
    exact (List.suffix_cons _ body).trans (List.suffix_cons _ _)

theorem Reads.suffix {inside : Option GroupKind} {alternatives : List (List GlobItem)}
    (reads : Reads options inside text alternatives rest) : rest <:+ text := by
  induction reads with
  | finish => exact List.suffix_refl _
  | close _ rest => exact List.suffix_cons _ rest
  | part _ ih => exact ih.trans (List.suffix_cons _ _)
  | single single _ ih => exact ih.trans single.suffix
  | group opens _ _ content following => exact (following.trans content).trans opens.suffix

private theorem Single.mem_of_mem_chars {inside : Option GroupKind} {item : GlobItem} {c : Char}
    (single : Single options inside text item rest) (isChar : c ∈ item.shape.chars) : c ∈ text := by
  cases single with
  | escaped d | literal d =>
    obtain rfl := List.mem_singleton.mp isChar
    simp
  | anyChar | anyRun | bracket | repeated => cases isChar

/-- The characters that stand for themselves in what a text reads as are characters of the text. -/
theorem Reads.mem_of_mem_chars {inside : Option GroupKind} {alternatives : List (List GlobItem)}
    (reads : Reads options inside text alternatives rest) :
    ∀ branch ∈ alternatives, ∀ item ∈ branch, ∀ c ∈ item.shape.chars, c ∈ text := by
  induction reads with
  | finish | close => simp
  | part _ ih =>
    rw [List.forall_mem_cons]
    refine ⟨by simp, ?_⟩
    intro branch isBranch item isItem c isChar
    exact List.mem_cons_of_mem _ (ih branch isBranch item isItem c isChar)
  | single single _ ih =>
    rw [List.forall_mem_cons, List.forall_mem_cons]
    rw [List.forall_mem_cons] at ih
    have following := single.suffix.subset
    refine ⟨⟨fun c isChar => single.mem_of_mem_chars isChar, ?_⟩, ?_⟩
    · exact fun item isItem c isChar => following (ih.1 item isItem c isChar)
    · exact fun branch isBranch item isItem c isChar =>
        following (ih.2 branch isBranch item isItem c isChar)
  | group opens content _ contentChars ih =>
    rw [List.forall_mem_cons, List.forall_mem_cons]
    rw [List.forall_mem_cons] at ih
    have inside := opens.suffix.subset
    have following := (content.suffix.trans opens.suffix).subset
    refine ⟨⟨?_, ?_⟩, ?_⟩
    · intro c isChar
      rw [GlobItem.shape_group, Shape.chars, Shape.mem_chars_alternatives, ← List.map_cons] at isChar
      obtain ⟨_, isShapes, _, isShape, isChar⟩ := isChar
      obtain ⟨branch, isBranch, rfl⟩ := List.mem_map.mp isShapes
      obtain ⟨item, isItem, rfl⟩ := List.mem_map.mp isShape
      exact inside (contentChars branch isBranch item isItem c isChar)
    · exact fun item isItem c isChar => following (ih.1 item isItem c isChar)
    · exact fun branch isBranch item isItem c isChar =>
        following (ih.2 branch isBranch item isItem c isChar)

end GlobGrammar

/-- The characters that stand for themselves in the shape of a segment are characters of the
segment, whether its syntax is complete or not. -/
theorem Shape.mem_of_mem_chars_ofSegment {options : Options} {segment : List Char} {c : Char}
    (isChar : c ∈ (Shape.ofSegment options segment).chars) : c ∈ segment := by
  rw [ofSegment] at isChar
  cases read : ofSegment? options segment with
  | none =>
    rw [read, Option.getD_none, literal_eq_sequence, mem_chars_sequence] at isChar
    simpa [chars] using isChar
  | some shape =>
    obtain ⟨items, isSegment, rfl⟩ := GlobGrammar.ofSegment?_eq_some_iff.mp read
    rw [read, Option.getD_some, mem_chars_sequence] at isChar
    obtain ⟨_, isShape, isChar⟩ := isChar
    obtain ⟨item, isItem, rfl⟩ := List.mem_map.mp isShape
    exact isSegment.mem_of_mem_chars items (List.mem_singleton_self items) item isItem c isChar

end PathGlob
