import PathGlob.Proofs.BracketUnits
import PathGlob.Proofs.SegmentFronts

/-! # The text behind what is read

What is read off the front of a text depends on the text behind it only by whether that starts with a
`(`, a star or a `+`. So anything that starts with none of these can be put in place of anything
else that does not, and the same is read in front of it (`GlobGrammar.Front.readsAnywhere`).
-/

namespace PathGlob.GlobGrammar

variable {options : Options} {inside : Option GroupKind} {kind : GroupKind}
variable {text middle rest other body : List Char}

section Brackets

variable {first : Bool} {tokens : List ClassToken}

/-- A reference to a class does not go beyond a `]`. -/
theorem NamesClass.append_of_closes {front more : List Char} (closes : ']' ∈ front)
    (named : NamesClass (front ++ rest) tokens more) (other : List Char) :
    ∃ more, NamesClass (front ++ other) tokens more := by
  obtain ⟨name, noColon, known, written⟩ := named
  have noCloser : ']' ∉ name := fun closer =>
    absurd (NamedClass.isLower_of_tokens? (Option.isSome_of_mem known) _ closer) (by decide)
  have split : front ++ rest = ('[' :: ':' :: name ++ [':', ']']) ++ more := by simpa using written
  rcases List.append_eq_append_iff.mp split with ⟨beyond, whole, -⟩ | ⟨behind, rfl, -⟩
  · rcases List.eq_nil_or_concat' beyond with rfl | ⟨beyond, last, rfl⟩
    · rw [List.append_nil] at whole
      exact ⟨other, name, noColon, known, by simp [← whole]⟩
    · have early : front ++ beyond = '[' :: ':' :: name ++ [':'] := by
        have parts : (front ++ beyond) ++ [last] = ('[' :: ':' :: name ++ [':']) ++ [']'] := by
          simpa using whole.symm
        exact (List.append_inj' parts rfl).1
      have isCloser : ']' ∈ '[' :: ':' :: name ++ [':'] := early ▸ List.mem_append_left _ closes
      simp [noCloser] at isCloser
  · exact ⟨behind ++ other, name, noColon, known, by simp⟩

theorem Member.exists_append (member : Member options text tokens (body ++ rest))
    (closes : ']' ∈ body) :
    ∃ front, front ≠ [] ∧ text = front ++ (body ++ rest) ∧
      ∀ other, Member options (front ++ (body ++ other)) tokens (body ++ other) := by
  cases member with
  | escaped c => exact ⟨[_, c], by simp, rfl, fun other => .escaped c _⟩
  | named named =>
    obtain ⟨name, noColon, known, rfl⟩ := named
    refine ⟨'[' :: ':' :: (name ++ [':', ']']), by simp, by simp, fun other => ?_⟩
    exact .named ⟨name, noColon, known, by simp⟩
  | plain c _ notEscape unnamed =>
    refine ⟨[c], by simp, rfl, fun other => .plain c _ notEscape ?_⟩
    intro tokens more named
    have within : ']' ∈ c :: body := List.mem_cons_of_mem c closes
    obtain ⟨_, named⟩ := NamesClass.append_of_closes within named rest
    exact unnamed _ _ named

/-- The body of a bracket is read in the same way whatever stands behind the bracket. -/
theorem Members.exists_append (members : Members options first text tokens rest) :
    ∃ body, ']' ∈ body ∧ text = body ++ rest ∧
      ∀ other, Members options first (body ++ other) tokens other := by
  induction members with
  | close rest => exact ⟨[']'], by simp, rfl, fun other => .close other⟩
  | member early member _ ih =>
    obtain ⟨body, closes, rfl, others⟩ := ih
    obtain ⟨front, nonempty, rfl, anywhere⟩ := member.exists_append closes
    obtain ⟨c, front, rfl⟩ := List.exists_cons_of_ne_nil nonempty
    refine ⟨c :: front ++ body, List.mem_append_right _ closes, by simp, fun other => ?_⟩
    rw [List.append_assoc]
    exact .member early (anywhere other) (others other)

theorem Bracket.exists_append {cls : CharClass} (bracket : Bracket options text cls rest) :
    ∃ front, text = front ++ rest ∧ ∀ other, Bracket options (front ++ other) cls other := by
  cases bracket with
  | negated members =>
    obtain ⟨body, -, rfl, anywhere⟩ := members.exists_append
    exact ⟨'[' :: '!' :: body, rfl, fun other => .negated (anywhere other)⟩
  | plain unmarked members =>
    obtain ⟨body, closes, rfl, anywhere⟩ := members.exists_append
    obtain ⟨c, body, rfl⟩ := List.exists_cons_of_ne_nil (List.ne_nil_of_mem closes)
    exact ⟨'[' :: c :: body, rfl, fun other => .plain unmarked (anywhere other)⟩

end Brackets

/-- A text does not start with anything that what stands in front of it looks at. -/
def IsNeutral (text : List Char) : Prop :=
  ∀ c ∈ ['(', '*', '+'], text.head? ≠ some c

/-- Two texts look the same to what stands in front of them: they are the same up to two places where
none of them goes on with anything that matters. -/
def SameAhead (text other : List Char) : Prop :=
  ∃ front tail otherTail, text = front ++ tail ∧ other = front ++ otherTail ∧ IsNeutral tail ∧
    IsNeutral otherTail

namespace SameAhead

theorem of_isNeutral (neutral : IsNeutral text) (otherNeutral : IsNeutral other) :
    SameAhead text other :=
  ⟨[], text, other, rfl, rfl, neutral, otherNeutral⟩

theorem symm (same : SameAhead text other) : SameAhead other text := by
  obtain ⟨front, tail, otherTail, split, otherSplit, neutral, otherNeutral⟩ := same
  exact ⟨front, otherTail, tail, otherSplit, split, otherNeutral, neutral⟩

theorem append (same : SameAhead text other) (front : List Char) :
    SameAhead (front ++ text) (front ++ other) := by
  obtain ⟨shared, tail, otherTail, rfl, rfl, neutral, otherNeutral⟩ := same
  exact ⟨front ++ shared, tail, otherTail, by simp, by simp, neutral, otherNeutral⟩

/-- If one of them starts with something that matters, so does the other. -/
theorem exists_cons {c : Char} (matters : c ∈ ['(', '*', '+']) (same : SameAhead (c :: text) other) :
    ∃ more, other = c :: more ∧ SameAhead text more := by
  obtain ⟨front, tail, otherTail, split, rfl, neutral, otherNeutral⟩ := same
  cases front with
  | nil =>
    rw [List.nil_append] at split
    exact absurd (split ▸ rfl) (neutral c matters)
  | cons d front =>
    obtain ⟨rfl, rfl⟩ := List.cons.inj split
    exact ⟨_, rfl, front, tail, otherTail, rfl, rfl, neutral, otherNeutral⟩

theorem head?_eq {c : Char} (matters : c ∈ ['(', '*', '+']) (same : SameAhead text other)
    (starts : other.head? = some c) : text.head? = some c := by
  obtain ⟨more, rfl⟩ := List.head?_eq_some_iff.mp starts
  obtain ⟨_, rfl, -⟩ := same.symm.exists_cons matters
  rfl

private theorem not_opensGroup {c : Char} (same : SameAhead text other)
    (opensNone : ∀ kind body, ¬OpensGroup options (c :: text) kind body) :
    ∀ kind body, ¬OpensGroup options (c :: other) kind body := by
  rintro kind body ⟨operator, extended, known, written⟩
  obtain ⟨rfl, rfl⟩ := List.cons.inj written
  obtain ⟨more, rfl, -⟩ := same.symm.exists_cons (by simp)
  exact opensNone kind more ⟨c, extended, known, rfl⟩

end SameAhead

/-- Something that is read off the front of a text is read in the same way in front of every rest that
looks the same. -/
def ReadsAnywhere (reads : List Char → List Char → Prop) (text rest : List Char) : Prop :=
  ∃ front, text = front ++ rest ∧ ∀ other, SameAhead rest other → reads (front ++ other) other

theorem ReadsAnywhere.imp {reads others : List Char → List Char → Prop}
    (anywhere : ReadsAnywhere reads text rest)
    (implies : ∀ text rest, reads text rest → others text rest) : ReadsAnywhere others text rest := by
  obtain ⟨front, written, reads⟩ := anywhere
  exact ⟨front, written, fun other same => implies _ _ (reads other same)⟩

/-- Two things one after the other. -/
theorem ReadsAnywhere.comp {first second : List Char → List Char → Prop}
    (firstReads : ReadsAnywhere first text middle) (secondReads : ReadsAnywhere second middle rest) :
    ReadsAnywhere (Relation.Comp first second) text rest := by
  obtain ⟨front, rfl, first⟩ := firstReads
  obtain ⟨behind, rfl, second⟩ := secondReads
  refine ⟨front ++ behind, by rw [List.append_assoc], fun other same => ?_⟩
  rw [List.append_assoc]
  exact ⟨_, first _ (same.append behind), second other same⟩

theorem Single.readsAnywhere {item : GlobItem} (single : Single options inside text item rest) :
    ReadsAnywhere (Single options inside · item ·) text rest := by
  cases single with
  | escaped c => exact ⟨[_, c], rfl, fun other _ => .escaped c other⟩
  | anyChar _ opensNone =>
    exact ⟨['?'], rfl, fun other same => .anyChar other (same.not_opensGroup opensNone)⟩
  | anyRun more _ complete opensNone =>
    refine ⟨List.replicate (more + 1) '*', rfl, fun other same => ?_⟩
    refine .anyRun more other (fun star => complete (same.head?_eq (by simp) star)) ?_
    exact (same.append (List.replicate more '*')).not_opensGroup opensNone
  | bracket bracket valid once =>
    obtain ⟨front, rfl, anywhere⟩ := bracket.exists_append
    refine ⟨front, rfl, fun other same => .bracket (anywhere other) valid ?_⟩
    rintro more extended rfl
    obtain ⟨_, rfl, sameMore⟩ := same.symm.exists_cons (by simp)
    exact sameMore.head?_eq (by simp) (once _ extended rfl)
  | repeated bracket valid extended opensNone =>
    obtain ⟨front, rfl, anywhere⟩ := bracket.exists_append
    refine ⟨front ++ ['+'], by simp, fun other same => ?_⟩
    rw [List.append_assoc]
    exact .repeated (anywhere _) valid extended fun opens => opensNone (same.head?_eq (by simp) opens)
  | literal c _ isLiteral opensNone =>
    exact ⟨[c], rfl, fun other same => .literal c other isLiteral (same.not_opensGroup opensNone)⟩

theorem Opens.readsAnywhere (opens : Opens options text kind body) :
    ReadsAnywhere (Opens options · kind ·) text body := by
  cases opens with
  | brace => exact ⟨['{'], rfl, fun other _ => .brace other⟩
  | extended opens =>
    obtain ⟨operator, extended, known, rfl⟩ := opens
    exact ⟨[operator, '('], rfl, fun other _ => .extended ⟨operator, extended, known, rfl⟩⟩

theorem Reads.readsAnywhere {alternatives : List (List GlobItem)}
    (reads : Reads options inside text alternatives rest) (group : inside = some kind) :
    ReadsAnywhere (Reads options inside · alternatives ·) text rest := by
  induction reads generalizing kind with
  | finish => cases group
  | close closed => exact ⟨[closed.closer], rfl, fun other _ => .close closed other⟩
  | part _ ih =>
    obtain ⟨front, rfl, others⟩ := ih group
    exact ⟨_ :: front, rfl, fun other same => .part (others other same)⟩
  | single single _ ih =>
    refine (single.readsAnywhere.comp (ih group)).imp ?_
    rintro _ _ ⟨_, single, following⟩
    exact .single single following
  | group opens _ _ contentIh ih =>
    refine (opens.readsAnywhere.comp ((contentIh rfl).comp (ih group))).imp ?_
    rintro _ _ ⟨_, opens, _, content, following⟩
    exact .group opens content following

/-- A front is read in the same way in front of all texts that look the same to it. -/
theorem Front.readsAnywhere {items : List GlobItem} (front : Front options text items rest) :
    ReadsAnywhere (Front options · items ·) text rest := by
  induction front with
  | nil => exact ⟨[], rfl, fun other _ => .nil other⟩
  | single single _ ih =>
    refine (single.readsAnywhere.comp ih).imp ?_
    rintro _ _ ⟨_, single, following⟩
    exact .single single following
  | group opens content _ ih =>
    refine (opens.readsAnywhere.comp ((content.readsAnywhere rfl).comp ih)).imp ?_
    rintro _ _ ⟨_, opens, _, content, following⟩
    exact .group opens content following

end PathGlob.GlobGrammar
