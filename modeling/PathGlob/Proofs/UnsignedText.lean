import PathGlob.Proofs.PlainGlobs
import PathGlob.Proofs.SegmentCharacters

/-! # Texts without signs

A text that does not look like a glob may still be read as one. Its signs do not show a bracket with
a `]` in front, a brace with nothing in it, and some kinds of groups (`GlobItem.IsUnseen`); all else
that such a text reads as are characters (`GlobGrammar.Reads.eq_char_or_isUnseen`).
-/

namespace PathGlob

namespace Sign

variable {closer c : Char} {text rest : List Char} {first : Bool}

theorem isClosed_iff :
    isClosed closer text = true ↔ ∃ inner rest, text = inner ++ closer :: rest ∧ inner ≠ [] ∧
      ∀ c ∈ inner, c ≠ '\\' ∧ c ≠ closer := by
  let inside (c : Char) : Bool := c != '\\' && c != closer
  have unfolded : isClosed closer text = true ↔
      text.head?.any inside = true ∧ (text.dropWhile inside).head? = some closer := by
    rw [isClosed, Bool.and_eq_true, beq_iff_eq]
  rw [unfolded]
  constructor
  · rintro ⟨start, ends⟩
    obtain ⟨rest, left⟩ := List.head?_eq_some_iff.mp ends
    refine ⟨text.takeWhile inside, rest, ?_, ?_, ?_⟩
    · rw [← left, List.takeWhile_append_dropWhile]
    · cases text with
      | nil => cases start
      | cons c text => simp_all
    · intro c isTaken
      simpa [inside] using List.mem_takeWhile_imp isTaken
  · rintro ⟨inner, rest, rfl, some, isInside⟩
    have holds : ∀ c ∈ inner, inside c = true := by simpa [inside] using isInside
    obtain ⟨c, inner, rfl⟩ := List.exists_cons_of_ne_nil some
    refine ⟨holds c List.mem_cons_self, ?_⟩
    rw [List.dropWhile_append_of_pos holds]
    simp [inside]

/-- Without backslashes, only a closing character at the very front is not seen. -/
theorem head?_eq_of_isClosed_eq_false (opened : isClosed closer text = false) (closes : closer ∈ text)
    (noBackslash : '\\' ∉ text) : text.head? = some closer := by
  obtain ⟨inner, rest, rfl, early⟩ := List.eq_append_cons_of_mem closes
  cases inner with
  | nil => rfl
  | cons c inner =>
    have closed : isClosed closer ((c :: inner) ++ closer :: rest) = true := by
      refine isClosed_iff.mpr ⟨_, rest, rfl, List.cons_ne_nil c inner, ?_⟩
      intro d isInner
      exact ⟨ne_of_mem_of_not_mem (List.mem_append_left _ isInner) noBackslash,
        ne_of_mem_of_not_mem isInner early⟩
    rw [opened] at closed
    cases closed

theorem isClosed_append (closed : isClosed closer text = true) (tail : List Char) :
    isClosed closer (text ++ tail) = true := by
  obtain ⟨inner, rest, rfl, some, inside⟩ := isClosed_iff.mp closed
  exact isClosed_iff.mpr ⟨inner, rest ++ tail, by simp, some, inside⟩

theorem isAlternatives_append (parted : isAlternatives text = true) (tail : List Char) :
    isAlternatives (text ++ tail) = true := by
  unfold isAlternatives at parted ⊢
  rw [List.dropWhile_append]
  split at parted
  · next rest left =>
    rw [Bool.and_eq_true] at parted
    cases text with
    | nil => cases left
    | cons c text => simpa [left, isClosed_append parted.2 tail] using parted.1
  · cases parted

/-- A sign stays one whatever comes after it. -/
theorem isSign_append (sign : isSign first c rest = true) (tail : List Char) :
    isSign first c (rest ++ tail) = true := by
  unfold isSign at sign
  split at sign
  · rfl
  · rfl
  · exact sign
  · exact isClosed_append sign tail
  · exact isClosed_append sign tail
  · exact isAlternatives_append sign tail
  · cases sign

/-- A sign inside a text is one in front as well. -/
theorem isSign_of_inside (sign : isSign false c rest = true) : isSign first c rest = true := by
  unfold isSign at sign
  split at sign
  · rfl
  · rfl
  · cases sign
  · exact sign
  · exact sign
  · exact sign
  · cases sign

/-- Without backslashes, a look at a text is a look at each of its characters. -/
theorem isSign_eq_false_of_scan {place : Place} (outside : place = .start ∨ place = .inside)
    (noBackslash : '\\' ∉ text) (unsigned : scan place text = false) :
    ∀ c rest, c :: rest <:+ text → isSign false c rest = false := by
  induction text generalizing place with
  | nil => simp
  | cons d text ih =>
    obtain ⟨notEscape, others⟩ := List.ne_and_not_mem_of_not_mem_cons noBackslash
    rw [scan_cons outside notEscape.symm, Bool.or_eq_false_iff] at unsigned
    intro c rest suffix
    rcases List.suffix_cons_iff.mp suffix with front | later
    · obtain ⟨rfl, rfl⟩ := List.cons.inj front
      refine Bool.eq_false_iff.mpr fun sign => ?_
      rw [isSign_of_inside sign] at unsigned
      cases unsigned.1
    · exact ih (.inr rfl) others unsigned.2 c rest later

end Sign

/-- No sign of a glob starts in a text, a `!` in front apart, and nothing in the text is escaped. -/
structure IsUnsigned (options : Options) (text : List Char) : Prop where
  noSign : ∀ c rest, c :: rest <:+ text → Sign.isSign false c rest = false
  noBackslash : '\\' ∉ text
  noEscape : options.platform.escapeMark ∉ text

namespace IsUnsigned

variable {options : Options} {text rest : List Char}

theorem of_infix (unsigned : IsUnsigned options text) (part : rest <:+: text) :
    IsUnsigned options rest where
  noSign c inner suffix := by
    obtain ⟨front, tail, rfl⟩ := part
    obtain ⟨before, rfl⟩ := suffix
    have whole := unsigned.noSign c (inner ++ tail) ⟨front ++ before, by simp⟩
    refine Bool.eq_false_iff.mpr fun sign => ?_
    rw [Sign.isSign_append sign tail] at whole
    cases whole
  noBackslash isPart := unsigned.noBackslash (part.subset isPart)
  noEscape isPart := unsigned.noEscape (part.subset isPart)

theorem of_mem_names (unsigned : IsUnsigned options text) {platform : Platform} {name : List Char}
    (isName : name ∈ Path.names platform text) : IsUnsigned options name :=
  unsigned.of_infix (Text.infix_of_mem_pieces (List.mem_of_mem_filter isName))

private theorem star_not_mem (unsigned : IsUnsigned options text) : '*' ∉ text := by
  intro isStar
  obtain ⟨front, rest, rfl⟩ := List.append_of_mem isStar
  cases unsigned.noSign '*' rest (List.suffix_append front _)

/-- What is opened by a sign if it is closed is closed at once, or not at all. -/
theorem head?_eq_closer {opener closer : Char} (unsigned : IsUnsigned options (opener :: text))
    (opens : Sign.isSign false opener text = Sign.isClosed closer text) (closes : closer ∈ text) :
    text.head? = some closer := by
  have opened := unsigned.noSign opener text List.suffix_rfl
  rw [opens] at opened
  exact Sign.head?_eq_of_isClosed_eq_false opened closes fun escape =>
    unsigned.noBackslash (List.mem_cons_of_mem opener escape)

theorem not_isGlobstar (unsigned : IsUnsigned options text) : ¬GlobMeaning.IsGlobstar options text := by
  rintro ⟨_, rfl⟩
  exact unsigned.star_not_mem List.mem_cons_self

end IsUnsigned

/-- The items that no sign shows. -/
inductive GlobItem.IsUnseen : GlobItem → Prop
  /-- A bracket with a `]` in front. -/
  | bracket (tokens : List ClassToken) (repeated : Bool) :
      IsUnseen (.bracket ⟨false, .plain ']' :: tokens⟩ repeated)
  /-- A brace with nothing in it. -/
  | brace : IsUnseen (.group .brace [] [])
  | group {kind : GroupKind} (unmarked : kind ∈ [.one, .oneOrMore, .noneOf]) (first : List GlobItem)
      (others : List (List GlobItem)) : IsUnseen (.group kind first others)

namespace GlobGrammar

variable {options : Options} {text rest : List Char} {inside : Option GroupKind}

private theorem Members.close_suffix {first : Bool} {tokens : List ClassToken}
    (members : Members options first text tokens rest) : ']' :: rest <:+ text := by
  induction members with
  | close rest => exact List.suffix_rfl
  | member _ member _ ih => exact ih.trans member.suffix

private theorem Reads.closer_suffix {kind : GroupKind} {alternatives : List (List GlobItem)}
    (reads : Reads options inside text alternatives rest) (group : inside = some kind) :
    kind.closer :: rest <:+ text := by
  induction reads with
  | finish => cases group
  | close kind rest =>
    obtain rfl := Option.some.inj group
    exact List.suffix_rfl
  | part _ ih => exact (ih group).trans (List.suffix_cons _ _)
  | single single _ ih => exact (ih group).trans single.suffix
  | group opens content _ _ ih => exact (ih group).trans (content.suffix.trans opens.suffix)

/-- A brace that is closed at once has nothing in it. -/
theorem Reads.eq_of_closeBrace {alternatives : List (List GlobItem)}
    (reads : Reads options (some .brace) ('}' :: text) alternatives rest) : alternatives = [[]] := by
  generalize start : '}' :: text = whole at reads
  cases reads with
  | close => rfl
  | part => cases start
  | single single =>
    cases single with
    | escaped =>
      obtain ⟨isEscape, -⟩ := List.cons.inj start
      rcases escapeMark_eq options with mark | mark
      · rw [mark] at isEscape
        cases isEscape
      · rw [mark] at isEscape
        cases isEscape
    | anyChar | anyRun => cases start
    | bracket bracket | repeated bracket =>
      cases bracket with
      | negated | plain => cases start
    | literal c _ isLiteral =>
      obtain ⟨rfl, -⟩ := List.cons.inj start
      exact absurd rfl (isLiteral.2 .brace rfl).1
  | group opens =>
    cases opens with
    | brace => cases start
    | extended opens =>
      obtain ⟨operator, _, isOperator, rfl⟩ := opens
      obtain ⟨rfl, -⟩ := List.cons.inj start
      cases isOperator

section Unsigned

variable (unsigned : IsUnsigned options text)

include unsigned

/-- A bracket that no sign shows starts with a `]`. -/
theorem Bracket.eq_of_isUnsigned {cls : CharClass} (bracket : Bracket options text cls rest) :
    ∃ tokens, cls = ⟨false, .plain ']' :: tokens⟩ ∧ rest.length + 3 ≤ text.length := by
  cases bracket with
  | negated members =>
    have closes := members.close_suffix.subset List.mem_cons_self
    cases unsigned.head?_eq_closer rfl (List.mem_cons_of_mem '!' closes)
  | plain _ members =>
    have closes := members.close_suffix.subset List.mem_cons_self
    obtain ⟨more, rfl⟩ := List.head?_eq_some_iff.mp (unsigned.head?_eq_closer rfl closes)
    generalize start : ']' :: more = inner at members
    cases members with
    | member _ member others =>
      cases member with
      | escaped =>
        obtain ⟨isEscape, -⟩ := List.cons.inj start
        exact absurd isEscape (ne_escapeMark (by simp))
      | named named =>
        obtain ⟨_, _, _, rfl⟩ := named
        cases start
      | plain =>
        obtain ⟨rfl, rfl⟩ := List.cons.inj start
        have shorter := others.length_lt
        refine ⟨_, rfl, ?_⟩
        simp only [List.length_cons]
        omega

/-- A single item that no sign shows. -/
theorem Single.cases_of_isUnsigned {item : GlobItem}
    (single : Single options inside text item rest) :
    (∃ c, item = .char c ∧ text = c :: rest) ∨
      ∃ tokens repeated, item = .bracket ⟨false, .plain ']' :: tokens⟩ repeated ∧
        rest.length + 2 < text.length := by
  cases single with
  | escaped => exact absurd List.mem_cons_self unsigned.noEscape
  | anyChar => cases unsigned.noSign '?' rest List.suffix_rfl
  | anyRun => exact absurd (by simp [List.replicate_succ]) unsigned.star_not_mem
  | bracket bracket =>
    obtain ⟨tokens, rfl, shorter⟩ := bracket.eq_of_isUnsigned unsigned
    exact .inr ⟨tokens, false, rfl, shorter⟩
  | repeated bracket =>
    obtain ⟨tokens, rfl, shorter⟩ := bracket.eq_of_isUnsigned unsigned
    refine .inr ⟨tokens, true, rfl, ?_⟩
    rw [List.length_cons] at shorter
    omega
  | literal c => exact .inl ⟨c, rfl, rfl⟩

/-- A group that no sign shows. -/
theorem Opens.isUnseen {kind : GroupKind} {body middle : List Char} {first : List GlobItem}
    {others : List (List GlobItem)} (opens : Opens options text kind body)
    (content : Reads options (some kind) body (first :: others) middle) :
    (GlobItem.group kind first others).IsUnseen := by
  cases opens with
  | brace body =>
    have closes := (content.closer_suffix rfl).subset List.mem_cons_self
    obtain ⟨more, rfl⟩ := List.head?_eq_some_iff.mp (unsigned.head?_eq_closer rfl closes)
    obtain ⟨rfl, rfl⟩ := List.cons.inj content.eq_of_closeBrace
    exact .brace
  | extended opens =>
    obtain ⟨operator, _, isOperator, rfl⟩ := opens
    have noSign := unsigned.noSign operator ('(' :: body) List.suffix_rfl
    unfold GroupKind.ofOperator? at isOperator
    split at isOperator
    · obtain rfl := Option.some.inj isOperator
      exact .group (by simp) first others
    · obtain rfl := Option.some.inj isOperator
      exact .group (by simp) first others
    · cases noSign
    · cases noSign
    · obtain rfl := Option.some.inj isOperator
      exact .group (by simp) first others
    · cases isOperator

end Unsigned

/-- What no sign shows reads as characters and unseen items. -/
theorem Reads.eq_char_or_isUnseen {alternatives : List (List GlobItem)}
    (reads : Reads options inside text alternatives rest) (unsigned : IsUnsigned options text) :
    ∀ branch ∈ alternatives, ∀ item ∈ branch, (∃ c, item = .char c) ∨ item.IsUnseen := by
  induction reads with
  | finish | close => simp
  | part _ ih =>
    rw [List.forall_mem_cons]
    exact ⟨by simp, ih (unsigned.of_infix (List.suffix_cons _ _).isInfix)⟩
  | single single _ ih =>
    have following := ih (unsigned.of_infix single.suffix.isInfix)
    rw [List.forall_mem_cons] at following ⊢
    refine ⟨List.forall_mem_cons.mpr ⟨?_, following.1⟩, following.2⟩
    rcases single.cases_of_isUnsigned unsigned with ⟨c, isChar, _⟩ | ⟨tokens, repeated, rfl, _⟩
    · exact .inl ⟨c, isChar⟩
    · exact .inr (.bracket tokens repeated)
  | group opens content _ _ ih =>
    have following := ih (unsigned.of_infix (content.suffix.trans opens.suffix).isInfix)
    rw [List.forall_mem_cons] at following ⊢
    exact ⟨List.forall_mem_cons.mpr ⟨.inr (opens.isUnseen unsigned content), following.1⟩,
      following.2⟩

/-- If it reads as characters only, these are its own. -/
theorem Reads.map_char_eq {alternatives : List (List GlobItem)}
    (reads : Reads options inside text alternatives rest) (unsigned : IsUnsigned options text)
    (outside : inside = none) :
    ∀ branch others, alternatives = branch :: others → (∀ item ∈ branch, ∃ c, item = .char c) →
      text.map .char = branch ++ rest.map .char := by
  induction reads with
  | finish =>
    rintro _ _ ⟨⟩ _
    rfl
  | close | part => cases outside
  | single single _ ih =>
    rintro _ _ ⟨⟩ chars
    obtain ⟨⟨c, rfl⟩, others⟩ := List.forall_mem_cons.mp chars
    have following := ih (unsigned.of_infix single.suffix.isInfix) outside _ _ rfl others
    rcases single.cases_of_isUnsigned unsigned with ⟨d, same, rfl⟩ | ⟨_, _, ⟨⟩, _⟩
    rw [List.map_cons, following, same, List.cons_append]
  | group =>
    rintro _ _ ⟨⟩ chars
    obtain ⟨_, ⟨⟩⟩ := chars _ List.mem_cons_self

variable (options text) in
/-- There is an item in a segment that no sign shows. -/
def HidesItem : Prop :=
  ∃ items, IsSegment options text items ∧ ∃ item ∈ items, item.IsUnseen

/-- No unseen item is read in a segment that has the shape of its text. -/
theorem not_hidesItem (literal : Shape.ofSegment options text = Shape.literal text) :
    ¬HidesItem options text := by
  rintro ⟨items, isSegment, item, isItem, unseen⟩
  rw [Shape.ofSegment, ofSegment?_of_isSegment isSegment, Option.getD_some,
    Shape.literal_eq_sequence] at literal
  have isShape : item.shape ∈ text.map Shape.char := by
    rw [← Shape.sequence_injective literal]
    exact List.mem_map_of_mem isItem
  obtain ⟨c, _, same⟩ := List.mem_map.mp isShape
  cases unseen with
  | bracket => cases same
  | brace | group =>
    rw [GlobItem.shape_group] at same
    cases same

/-- With no unseen item in it, an unsigned segment spells itself. -/
theorem segmentSpells_of_isUnsigned (unsigned : IsUnsigned options text)
    (shown : ¬HidesItem options text) : SegmentSpells options text text := by
  by_cases complete : ∃ items, IsSegment options text items
  · obtain ⟨items, isSegment⟩ := complete
    have chars : ∀ item ∈ items, ∃ c, item = .char c := by
      intro item isItem
      have known := isSegment.eq_char_or_isUnseen unsigned items List.mem_cons_self item isItem
      exact known.resolve_right fun unseen => shown ⟨items, isSegment, item, isItem, unseen⟩
    have same := isSegment.map_char_eq unsigned rfl items [] rfl chars
    rw [List.map_nil, List.append_nil] at same
    exact .of_isSegment (same ▸ isSegment)
  · exact .of_incomplete (not_exists.mp complete)

end GlobGrammar

end PathGlob
