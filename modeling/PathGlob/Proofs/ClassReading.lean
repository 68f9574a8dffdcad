import Mathlib.Data.List.Nodup
import PathGlob.CharClass.Members
import PathGlob.CharClass.Named

/-! # What the tokens of a class list

Tokens that list members one after the other, a dash in them only between the ends of a range, are
read as just these members (`ClassMembers.Lists.ofTokens?_append`). All named classes are listed so:
`NamedClass.sets` holds their members, and `NamedClass.exists_lists` says that the tokens that stand
for a name list them.
-/

namespace PathGlob

theorem ClassMember.contains_char_iff {member c : Char} :
    (char member).contains c = true ↔ c = member := by
  rw [contains, beq_iff_eq, eq_comm]

namespace ClassMembers

def prepend (members : List ClassMember) (read : ClassMembers) : ClassMembers :=
  { read with kept := members ++ read.kept }

/-- A dash and the end of a range stand at the front of some tokens. -/
def ContinuesRange (tokens : List ClassToken) : Prop :=
  ∃ last rest, tokens = .dash :: last :: rest ∧ last ≠ .dash

variable {tokens rest : List ClassToken} {members : List ClassMember}

theorem ofTokens?_cons_char (c : Char) (spelling : Spelling) (single : ¬ContinuesRange rest) :
    ofTokens? (.char c spelling :: rest) = (ofTokens? rest).map (insert (.char c)) := by
  match rest with
  | [] | [.dash] | .dash :: .dash :: _ | .char _ _ :: _ | .shorthand _ :: _ => simp [ofTokens?]
  | .dash :: .char last spelling :: more => exact absurd ⟨_, more, rfl, by simp⟩ single
  | .dash :: .shorthand kind :: more => exact absurd ⟨_, more, rfl, by simp⟩ single

theorem ofTokens?_cons_shorthand (kind : Shorthand) (single : ¬ContinuesRange rest) :
    ofTokens? (.shorthand kind :: rest) = (ofTokens? rest).map (insert (.shorthand kind)) := by
  match rest with
  | [] | [.dash] | .dash :: .dash :: _ | .char _ _ :: _ | .shorthand _ :: _ => simp [ofTokens?]
  | .dash :: .char last spelling :: more => exact absurd ⟨_, more, rfl, by simp⟩ single
  | .dash :: .shorthand kind :: more => exact absurd ⟨_, more, rfl, by simp⟩ single

/-- Tokens list members one after the other. Dashes only stand between the ends of ranges. -/
inductive Lists : List ClassToken → List ClassMember → Prop
  | nil : Lists [] []
  | char {tokens : List ClassToken} {members : List ClassMember} (c : Char) (spelling : Spelling)
      (others : Lists tokens members) : Lists (.char c spelling :: tokens) (.char c :: members)
  | range {tokens : List ClassToken} {members : List ClassMember} {first last : Char}
      (spelling lastSpelling : Spelling) (ordered : first ≤ last) (others : Lists tokens members) :
      Lists (.char first spelling :: .dash :: .char last lastSpelling :: tokens)
        (.range first last :: members)
  | shorthand {tokens : List ClassToken} {members : List ClassMember} (kind : Shorthand)
      (others : Lists tokens members) :
      Lists (.shorthand kind :: tokens) (.shorthand kind :: members)

namespace Lists

theorem append {others : List ClassToken} {otherMembers : List ClassMember}
    (lists : Lists tokens members) (otherLists : Lists others otherMembers) :
    Lists (tokens ++ others) (members ++ otherMembers) := by
  induction lists with
  | nil => exact otherLists
  | char c spelling _ ih => exact .char c spelling ih
  | range spelling lastSpelling ordered _ ih => exact .range spelling lastSpelling ordered ih
  | shorthand kind _ ih => exact .shorthand kind ih

theorem head?_ne_dash (lists : Lists tokens members) : tokens.head? ≠ some .dash := by
  cases lists <;> simp

private theorem not_continuesRange_append (lists : Lists tokens members)
    (single : ¬ContinuesRange rest) :
    ¬ContinuesRange (tokens ++ rest) := by
  cases lists with
  | nil => exact single
  | char | range | shorthand => rintro ⟨_, _, ⟨⟩, _⟩

/-- Tokens that list members are read as these members. -/
theorem ofTokens?_append (lists : Lists tokens members) (single : ¬ContinuesRange rest) :
    ofTokens? (tokens ++ rest) = (ofTokens? rest).map (prepend members) := by
  induction lists with
  | nil => exact Option.map_id'.symm
  | char c spelling others ih =>
    rw [List.cons_append, ofTokens?_cons_char c spelling (others.not_continuesRange_append single),
      ih, Option.map_map]
    rfl
  | range spelling lastSpelling ordered others ih =>
    rw [List.cons_append, List.cons_append, List.cons_append, ofTokens?, if_pos ordered, ih,
      Option.map_map]
    rfl
  | shorthand kind others ih =>
    rw [List.cons_append, ofTokens?_cons_shorthand kind (others.not_continuesRange_append single),
      ih, Option.map_map]
    rfl

theorem literals (chars : List Char) :
    Lists (chars.map ClassToken.literal) (chars.map ClassMember.char) := by
  induction chars with
  | nil => exact .nil
  | cons c chars ih => exact .char c _ ih

end Lists

end ClassMembers

namespace NamedClass

open ClassMembers

/-- The named classes and what they hold. -/
def sets : List (List Char × List ClassMember) := [
  ("alnum".toList, [.shorthand .digit, .range 'A' 'Z', .range 'a' 'z']),
  ("alpha".toList, [.range 'A' 'Z', .range 'a' 'z']),
  ("ascii".toList, [.range '\x00' '\x7f']),
  ("blank".toList, [.char '\t', .char ' ']),
  ("cntrl".toList, [.range '\x00' '\x1f', .char '\x7f']),
  ("digit".toList, [.shorthand .digit]),
  ("graph".toList, [.range '!' '~']),
  ("lower".toList, [.range 'a' 'z']),
  ("print".toList, [.range ' ' '~']),
  ("punct".toList, "!\"#$%&'()*+,-./:;<=>?@[\\]^_\x60\x7b|\x7d~".toList.map .char),
  ("space".toList, [.shorthand .space, .char '\x0b']),
  ("upper".toList, [.range 'A' 'Z']),
  ("word".toList, [.shorthand .word]),
  ("xdigit".toList, [.shorthand .digit, .range 'A' 'F', .range 'a' 'f'])]

theorem lists_range {first last : Char} (ordered : first ≤ last) :
    Lists (range first last) [.range first last] :=
  .range .bare .bare ordered .nil

private theorem lists_codedRange {first last : Char} (ordered : first ≤ last) :
    Lists (codedRange first last) [.range first last] :=
  .range .coded .coded ordered .nil

/-- The tokens of a named class list what it holds. -/
theorem exists_tokens_of_mem_sets {name : List Char} {set : List ClassMember}
    (isSet : (name, set) ∈ sets) :
    ∃ tokens, tokens? name = some tokens ∧ Lists tokens set := by
  have upper : Lists (range 'A' 'Z') [.range 'A' 'Z'] := lists_range (by decide)
  have lower : Lists (range 'a' 'z') [.range 'a' 'z'] := lists_range (by decide)
  simp only [sets, List.mem_cons, Prod.mk.injEq, List.not_mem_nil, or_false] at isSet
  obtain ⟨rfl, rfl⟩ | ⟨rfl, rfl⟩ | ⟨rfl, rfl⟩ | ⟨rfl, rfl⟩ | ⟨rfl, rfl⟩ | ⟨rfl, rfl⟩ | ⟨rfl, rfl⟩ |
    ⟨rfl, rfl⟩ | ⟨rfl, rfl⟩ | ⟨rfl, rfl⟩ | ⟨rfl, rfl⟩ | ⟨rfl, rfl⟩ | ⟨rfl, rfl⟩ | ⟨rfl, rfl⟩ := isSet
  · exact ⟨_, rfl, .shorthand .digit (upper.append lower)⟩
  · exact ⟨_, rfl, upper.append lower⟩
  · exact ⟨_, rfl, lists_codedRange (by decide)⟩
  · exact ⟨_, rfl, .char '\t' .coded (.char ' ' .bare .nil)⟩
  · exact ⟨_, rfl, (lists_codedRange (by decide)).append (.char '\x7f' .coded .nil)⟩
  · exact ⟨_, rfl, .shorthand .digit .nil⟩
  · exact ⟨_, rfl, lists_codedRange (by decide)⟩
  · exact ⟨_, rfl, lower⟩
  · exact ⟨_, rfl, lists_codedRange (by decide)⟩
  · exact ⟨_, rfl, ((Lists.literals _).append (.char '^' .bare .nil)).append (Lists.literals _)⟩
  · exact ⟨_, rfl, .shorthand .space (.char '\x0b' .coded .nil)⟩
  · exact ⟨_, rfl, upper⟩
  · exact ⟨_, rfl, .shorthand .word .nil⟩
  · exact ⟨_, rfl, .shorthand .digit
      ((lists_range (by decide)).append (lists_range (by decide)))⟩

/-- The tokens that stand for a name list what the class of the name holds. -/
theorem exists_lists {name : List Char} {tokens : List ClassToken}
    (known : tokens? name = some tokens) : ∃ set, (name, set) ∈ sets ∧ Lists tokens set := by
  have sameNames : table.map (·.1) = sets.map (·.1) := by decide
  have isName : name ∈ table.map (·.1) := List.mem_map_of_mem (mem_table_of_tokens? known)
  rw [sameNames] at isName
  obtain ⟨⟨_, set⟩, isSet, rfl⟩ := List.mem_map.mp isName
  obtain ⟨tokens, isTokens, lists⟩ := exists_tokens_of_mem_sets isSet
  exact ⟨set, isSet, Option.some.inj (known.symm.trans isTokens) ▸ lists⟩

theorem ne_nil_of_mem_sets {name : List Char} {set : List ClassMember} (isSet : (name, set) ∈ sets) :
    set ≠ [] := by
  have all : ∀ entry ∈ sets, entry.2 ≠ [] := by decide
  exact all _ isSet

/-- No two named classes have the same name. -/
theorem sets_unique {name : List Char} {set other : List ClassMember} (isSet : (name, set) ∈ sets)
    (isOther : (name, other) ∈ sets) : set = other := by
  have distinct : (sets.map (·.1)).Nodup := by decide
  exact congrArg Prod.snd (List.inj_on_of_nodup_map distinct isSet isOther rfl)

end NamedClass

namespace CharClass

variable {cls : CharClass}

theorem members?_of_head?_ne_dash (plain : cls.tokens.head? ≠ some .dash) :
    cls.members? = ClassMembers.ofTokens? cls.tokens := by
  unfold members?
  split
  · next starts => exact absurd (by rw [starts]; rfl) plain
  · rfl

theorem members?_cons_dash {negated : Bool} {rest : List ClassToken} :
    (CharClass.mk negated (.dash :: rest)).members? =
      (ClassMembers.ofTokens? (rest.dropWhile (· == .dash))).map (.insert (.char '-')) :=
  rfl

/-- A class of one union accepts the characters in the union, or else those that are not in it. -/
theorem accepts_singleton_iff {kept : List ClassMember} (read : cls.members? = some ⟨kept, []⟩)
    (c : Char) :
    cls.accepts [c] = true ↔ (cls.negated = false ↔ ∃ listed ∈ kept, listed.contains c = true) := by
  have holds : ClassMembers.meets ⟨kept, []⟩ [c] = true ↔
      ∃ listed ∈ kept, listed.contains c = true := by
    simp [ClassMembers.meets, ClassMember.meets]
  simp only [accepts, read, ← holds]
  cases cls.negated <;> simp

end CharClass

end PathGlob
