import PathGlob.Proofs.ClassReading

/-! # Ranges next to a named class

The tokens of a named class stand in the place of its name, behind a dash or in front of one as well.
There the dash does not meet the class but only its first or last member, and what it makes with that
one decides whether the whole class means something: `ClassMember.AllowsRangeFrom` for a dash in front
(`CharClass.isValid_range_into_iff`), `ClassMember.AllowsRangeTo` for one behind
(`CharClass.isValid_range_outOf_iff`).
-/

namespace PathGlob

namespace ClassMember

/-- Behind a character and a dash a member is no error: the range ends in order, with the character that
the member is or starts with. -/
def AllowsRangeFrom (first : Char) : ClassMember → Prop
  | char c | range c _ => first ≤ c
  | shorthand _ => False

/-- In front of a dash and a character a member is no error: the range is in order, or the dash stands
behind another range and is a member itself. -/
def AllowsRangeTo (last : Char) : ClassMember → Prop
  | char c => c ≤ last
  | range _ _ => True
  | shorthand _ => False

instance (first : Char) : DecidablePred (AllowsRangeFrom first)
  | char _ | range _ _ => inferInstanceAs (Decidable (_ ≤ _))
  | shorthand _ => inferInstanceAs (Decidable False)

instance (last : Char) : DecidablePred (AllowsRangeTo last)
  | char _ => inferInstanceAs (Decidable (_ ≤ _))
  | range _ _ => inferInstanceAs (Decidable True)
  | shorthand _ => inferInstanceAs (Decidable False)

end ClassMember

namespace ClassMembers.Lists

variable {tokens rest : List ClassToken} {members others : List ClassMember} {member : ClassMember}

theorem isSome_ofTokens? (lists : Lists tokens members) : (ofTokens? tokens).isSome = true := by
  have single : ¬ContinuesRange [] := by rintro ⟨_, _, ⟨⟩, -⟩
  rw [← List.append_nil tokens, lists.ofTokens?_append single]
  rfl

theorem exists_append (lists : Lists tokens (members ++ others)) :
    ∃ first second, tokens = first ++ second ∧ Lists first members ∧ Lists second others := by
  induction members generalizing tokens with
  | nil => exact ⟨[], tokens, rfl, .nil, lists⟩
  | cons member members ih =>
    cases lists with
    | char c spelling following =>
      obtain ⟨first, second, rfl, listsFirst, listsSecond⟩ := ih following
      exact ⟨_, second, rfl, .char c spelling listsFirst, listsSecond⟩
    | range spelling lastSpelling ordered following =>
      obtain ⟨first, second, rfl, listsFirst, listsSecond⟩ := ih following
      exact ⟨_, second, rfl, .range spelling lastSpelling ordered listsFirst, listsSecond⟩
    | shorthand kind following =>
      obtain ⟨first, second, rfl, listsFirst, listsSecond⟩ := ih following
      exact ⟨_, second, rfl, .shorthand kind listsFirst, listsSecond⟩

/-- A dash in front of members meets the first of them. -/
theorem isSome_range_into_iff (lists : Lists tokens (member :: others)) (first : Char)
    (spelling : Spelling) :
    (ofTokens? (.char first spelling :: .dash :: tokens)).isSome = true ↔
      member.AllowsRangeFrom first := by
  cases lists with
  | char c _ following =>
    by_cases ordered : first ≤ c
    · simp [ofTokens?, ordered, ClassMember.AllowsRangeFrom, following.isSome_ofTokens?]
    · simp [ofTokens?, ordered, ClassMember.AllowsRangeFrom]
  | @range _ _ c last _ lastSpelling _ following =>
    -- The dash of the range stands behind a range that is complete, and is a member.
    have behind := (Lists.char last lastSpelling following).isSome_ofTokens?
    by_cases ordered : first ≤ c
    · simp [ofTokens?, ordered, ClassMember.AllowsRangeFrom, behind]
    · simp [ofTokens?, ordered, ClassMember.AllowsRangeFrom]
  | shorthand => simp [ofTokens?, ClassMember.AllowsRangeFrom]

/-- A dash behind a member meets that member. -/
theorem isSome_range_outOf_iff (lists : Lists tokens [member]) (following : Lists rest others)
    (last : Char) (spelling : Spelling) :
    (ofTokens? (tokens ++ .dash :: .char last spelling :: rest)).isSome = true ↔
      member.AllowsRangeTo last := by
  cases lists with
  | char c _ none =>
    cases none
    by_cases ordered : c ≤ last
    · simp [ofTokens?, ordered, ClassMember.AllowsRangeTo, following.isSome_ofTokens?]
    · simp [ofTokens?, ordered, ClassMember.AllowsRangeTo]
  | range _ _ ordered none =>
    cases none
    have behind := (Lists.char last spelling following).isSome_ofTokens?
    simp [ofTokens?, ordered, ClassMember.AllowsRangeTo, behind]
  | shorthand _ none =>
    cases none
    simp [ofTokens?, ClassMember.AllowsRangeTo]

end ClassMembers.Lists

namespace CharClass

open ClassMembers

variable {negated : Bool} {front name back tokens : List ClassToken}
  {frontMembers backMembers set others : List ClassMember} {member : ClassMember}

/-- Members in front of the other tokens of a class do not matter to whether it means anything. -/
theorem isValid_append_iff (listsFront : Lists front frontMembers)
    (plain : tokens.head? ≠ some .dash) :
    (CharClass.mk negated (front ++ tokens)).isValid = true ↔ (ofTokens? tokens).isSome = true := by
  have single : ¬ContinuesRange tokens := by
    rintro ⟨_, _, rfl, -⟩
    exact plain rfl
  have starts : (front ++ tokens).head? ≠ some .dash := by
    cases front with
    | nil => exact plain
    | cons token front => exact listsFront.head?_ne_dash
  rw [isValid, members?_of_head?_ne_dash starts, listsFront.ofTokens?_append single, Option.isSome_map]

variable (listsFront : Lists front frontMembers) (listsBack : Lists back backMembers)

include listsFront listsBack

/-- A class with a range into the members of another class means something exactly if the range can end
with the first of these members. -/
theorem isValid_range_into_iff (listsName : Lists name (member :: others)) (first : Char)
    (spelling : Spelling) :
    (CharClass.mk negated (front ++ .char first spelling :: .dash :: (name ++ back))).isValid = true ↔
      member.AllowsRangeFrom first := by
  rw [isValid_append_iff listsFront (by simp)]
  exact (listsName.append listsBack).isSome_range_into_iff first spelling

/-- A class with a range out of the members of another class means something exactly if the range can
start with the last of these members. -/
theorem isValid_range_outOf_iff (listsName : Lists name (others ++ [member])) (last : Char)
    (spelling : Spelling) :
    (CharClass.mk negated (front ++ (name ++ .dash :: .char last spelling :: back))).isValid = true ↔
      member.AllowsRangeTo last := by
  obtain ⟨first, second, rfl, listsFirst, listsSecond⟩ := listsName.exists_append
  have starts : (second ++ .dash :: .char last spelling :: back).head? ≠ some .dash := by
    cases listsSecond with
    | char | range | shorthand => simp
  rw [List.append_assoc, ← List.append_assoc front,
    isValid_append_iff (listsFront.append listsFirst) starts]
  exact listsSecond.isSome_range_outOf_iff listsBack last spelling

end CharClass

end PathGlob
