import PathGlob.Proofs.BracketUnits
import PathGlob.Proofs.ClassRanges
import PathGlob.Proofs.SegmentFronts

/-! # Brackets with a range next to a named class

A bracket that means nothing makes its segment literal, wherever it stands in the segment and whatever
stands behind it (`GlobGrammar.Bracket.makesLiteral_iff`). A range into a named class or out of one is
an error only if it is one between a character and the first or the last member of the class, because
the class is put in the place of its name (`makesLiteral_range_iff`).
-/

namespace PathGlob

open Relation GlobMeaning

namespace GlobGrammar

variable (options : Options)

/-- A reader of a text gets to a place in it, where neither a bracket nor an escape is pending. It goes
over single items and over what opens groups; what closes a group is a character to it. -/
def Reaches : List Char → List Char → Prop :=
  ReflTransGen fun text rest =>
    (∃ item, Single options none text item rest) ∨ ∃ kind, Opens options text kind rest

/-- Every segment of a glob in which a reader gets to some text is compiled to its literal text. -/
def MakesLiteral (text : List Char) : Prop :=
  ∀ glob : String, ∀ segment ∈ Path.names options.platform glob.toList, ∀ rest,
    Reaches options segment (text ++ rest) →
      GlobSegment.ofText options segment = .shape (Shape.literal segment)

variable {options} {text rest : List Char} {cls : CharClass}

/-- A reader that gives up behind some place gives up on the whole text. -/
theorem Reaches.scan?_eq_none (reaches : Reaches options text rest)
    (fails : GlobToken.scan? options .between rest = none) :
    GlobToken.scan? options .between text = none := by
  induction reaches using ReflTransGen.head_induction_on with
  | refl => exact fails
  | head step _ ih =>
    rcases step with ⟨item, single⟩ | ⟨kind, opens⟩
    · obtain ⟨token, scans, -⟩ := single.exists_token
      rw [scans, ih, Option.map_none]
    · rw [scan?_opens opens, ih, Option.map_none]

/-- A text that reads as a bracket makes its segment literal exactly if the bracket means nothing. -/
theorem Bracket.makesLiteral_iff (bracket : ∀ rest, Bracket options (text ++ rest) cls rest)
    (noSeparator : ∀ c ∈ text, options.platform.isSeparator c = false) :
    MakesLiteral options text ↔ cls.isValid = false := by
  have alone : Bracket options text cls [] := by simpa using bracket []
  constructor
  · intro literal
    by_contra notInvalid
    have isSegment := isSegment_bracket_iff.mpr ⟨alone, by simpa using notInvalid⟩
    obtain ⟨inner, rfl⟩ := List.head?_eq_some_iff.mp alone.head?_eq
    have isShape : ¬GlobMeaning.IsGlobstar options ('[' :: inner) := by
      rintro ⟨-, ⟨⟩⟩
    have named : ('[' :: inner) ∈ Path.names options.platform (String.ofList ('[' :: inner)).toList := by
      rw [String.toList_ofList, Path.names_of_no_separator (List.cons_ne_nil _ _) noSeparator]
      exact List.mem_singleton_self _
    have compiled := literal _ _ named [] (by rw [List.append_nil]; exact .refl)
    rw [ofText_of_not_isGlobstar isShape, Shape.ofSegment, ofSegment?_of_isSegment isSegment,
      Option.getD_some, Shape.literal_eq_sequence] at compiled
    cases Shape.sequence_injective (GlobSegment.shape.inj compiled)
  · intro invalid glob segment _ rest reaches
    have fails : GlobToken.scan? options .between (text ++ rest) = none := by
      rw [scan?_bracket (bracket rest), afterBracket?, invalid]
      rfl
    have unread : Shape.ofSegment? options segment = none := by
      rw [Shape.ofSegment?, GlobToken.ofSegment?, reaches.scan?_eq_none fails]
      rfl
    rw [ofText_of_not_isGlobstar (not_isGlobstar_of_incomplete (ofSegment?_eq_none_iff.mp unread)),
      Shape.ofSegment, unread, Option.getD_none]

end GlobGrammar

namespace BracketUnit

/-- A unit has no role of its own in a bracket, wherever it stands there, and it parts no names. -/
def IsInert (platform : Platform) : BracketUnit → Prop
  | .char ⟨_, true⟩ => False
  | .char ⟨c, false⟩ => c ∉ ['[', ']', '!', platform.escapeMark] ∧ platform.isSeparator c = false
  | .named name => (NamedClass.tokens? name).isSome

variable {platform : Platform} {unit : BracketUnit} {units : List BracketUnit} {c : Char}

theorem IsInert.isReadable (inert : unit.IsInert platform) : unit.IsReadable platform := by
  match unit, inert with
  | .char ⟨c, false⟩, ⟨noRole, _⟩ =>
    rintro ⟨⟩
    simp at noRole
  | .named name, known => exact known

theorem IsInert.not_isSeparator (inert : unit.IsInert platform) :
    ∀ c ∈ unit.text platform, platform.isSeparator c = false := by
  match unit, inert with
  | .char ⟨c, false⟩, ⟨_, isName⟩ => simpa [text] using isName
  | .named name, known =>
    have letters : ∀ c ∈ name, platform.isSeparator c = false := by
      intro c inName
      have isLower := NamedClass.isLower_of_tokens? known c inName
      have isAlphanum : c.isAlphanum = (c.isUpper || c.isLower || c.isDigit) := rfl
      have isWord : IsWordChar c := .inl (by simp [isAlphanum, isLower])
      exact isWord.not_isSeparator platform
    have signs : ∀ c ∈ ['[', ':', ']'], platform.isSeparator c = false := by
      cases platform <;> simp [Platform.isSeparator, Platform.separators]
    simp only [text, List.forall_mem_cons, List.forall_mem_append] at signs ⊢
    exact ⟨signs.1, signs.2.1, letters, signs.2.1, signs.2.2⟩

end BracketUnit

namespace GlobGrammar

/-- The text of a bracket with some units, negated or not. -/
def bracketText (platform : Platform) (negated : Bool) (units : List BracketUnit) : List Char :=
  '[' :: ((if negated then ['!'] else []) ++
    (units.flatMap (BracketUnit.text platform) ++ [']']))

variable {options : Options} {units : List BracketUnit}

/-- Inert units make up a bracket, and this makes its segment literal exactly if it means nothing. -/
theorem makesLiteral_bracketText_iff (negated : Bool) (nonempty : units ≠ [])
    (inert : ∀ unit ∈ units, unit.IsInert options.platform) :
    MakesLiteral options (bracketText options.platform negated units) ↔
      (CharClass.mk negated (units.flatMap BracketUnit.tokens)).isValid = false := by
  have notBare {c : Char} (isSign : c ∈ ['[', ']', '!']) : .bare c ∉ units := by
    intro isUnit
    have noRole := (inert _ isUnit).1
    simp only [List.mem_cons, List.not_mem_nil, or_false] at isSign noRole
    tauto
  have references : units.IsChain fun unit next =>
      ¬(unit = BracketUnit.bare '[' ∧ next = BracketUnit.bare ':') := by
    refine (List.pairwise_of_forall_mem_list fun unit isUnit _ _ => ?_).isChain
    rintro ⟨rfl, -⟩
    exact notBare (by simp) isUnit
  apply Bracket.makesLiteral_iff
  · intro rest
    have bracket : Bracket options _ _ rest := .of_readable rest negated nonempty
      (fun unit isUnit => (inert unit isUnit).isReadable)
      (fun isUnit => notBare (by simp) (List.mem_of_mem_tail isUnit)) references
      (fun _ starts => notBare (by simp) (List.mem_of_mem_head? starts))
    simpa [bracketText] using bracket
  · have signs : ∀ c ∈ ['[', '!', ']'], options.platform.isSeparator c = false := by
      cases options.platform <;> simp [Platform.isSeparator, Platform.separators]
    simp only [List.forall_mem_cons] at signs
    have body : ∀ c ∈ units.flatMap (BracketUnit.text options.platform),
        options.platform.isSeparator c = false := by
      simp only [List.mem_flatMap, forall_exists_index, and_imp]
      exact fun c unit isUnit => (inert unit isUnit).not_isSeparator c
    simp only [bracketText, List.forall_mem_cons, List.forall_mem_append]
    refine ⟨signs.1, ?_, body, signs.2.2⟩
    cases negated <;> simp [signs]

end GlobGrammar

/-- A character without any role in a bracket, which does not part names either. -/
def Platform.IsOrdinary (platform : Platform) (c : Char) : Prop :=
  c ∉ ['-', '[', ']', '!', platform.escapeMark] ∧ platform.isSeparator c = false

namespace BracketUnit

variable {platform : Platform} {chars : List Char}

private theorem isInert_bare {c : Char} (ordinary : platform.IsOrdinary c) :
    (bare c).IsInert platform :=
  ⟨fun isSign => ordinary.1 (List.mem_cons_of_mem '-' isSign), ordinary.2⟩

private theorem isInert_dash (platform : Platform) : (bare '-').IsInert platform := by
  cases platform <;> simp [bare, IsInert, Platform.escapeMark, Platform.isSeparator, Platform.separators]

private theorem tokens_bare {c : Char} (ordinary : platform.IsOrdinary c) :
    (bare c).tokens = [.literal c] := by
  have notDash : c ≠ '-' := fun isDash => ordinary.1 (by simp [isDash])
  rw [bare, tokens, ClassToken.plain, if_neg notDash]

private theorem flatMap_tokens_bare (ordinary : ∀ c ∈ chars, platform.IsOrdinary c) :
    (chars.map bare).flatMap tokens = chars.map .literal := by
  induction chars with
  | nil => rfl
  | cons c chars ih =>
    obtain ⟨first, others⟩ := List.forall_mem_cons.mp ordinary
    rw [List.map_cons, List.flatMap_cons, tokens_bare first, ih others]
    rfl

end BracketUnit

open GlobGrammar BracketUnit

section Range

variable {options : Options} {negated : Bool} {name front back : List Char} {set : List ClassMember}

/-- Between ordinary characters, inert units make their segment literal exactly if the class of all of
them means nothing. -/
theorem makesLiteral_between_iff (inFront : ∀ c ∈ front, options.platform.IsOrdinary c)
    (inBack : ∀ c ∈ back, options.platform.IsOrdinary c) {middle : List BracketUnit}
    (nonempty : middle ≠ []) (inert : ∀ unit ∈ middle, unit.IsInert options.platform) :
    MakesLiteral options (bracketText options.platform negated
        (front.map bare ++ (middle ++ back.map bare))) ↔
      (CharClass.mk negated (front.map .literal ++
        (middle.flatMap BracketUnit.tokens ++ back.map .literal))).isValid = false := by
  have allInert : ∀ unit ∈ front.map bare ++ (middle ++ back.map bare),
      unit.IsInert options.platform := by
    simp only [List.forall_mem_append, List.forall_mem_map]
    exact ⟨fun c isFront => isInert_bare (inFront c isFront), inert,
      fun c isBack => isInert_bare (inBack c isBack)⟩
  rw [makesLiteral_bracketText_iff negated (by simp [nonempty]) allInert, List.flatMap_append,
    List.flatMap_append, flatMap_tokens_bare inFront, flatMap_tokens_bare inBack]

/-- Whether a range next to a named class is an error does not depend on the class as a whole. A bracket
with `c-[:name:]` among ordinary characters makes its segment literal exactly if a range from `c` does
not end with the first member of the class, and one with `[:name:]-c` exactly if a range to `c` does not
start with the last one. -/
theorem makesLiteral_range_iff (options : Options) (negated : Bool) {name : List Char}
    {set : List ClassMember} (isSet : (name, set) ∈ NamedClass.sets) {front back : List Char} {c : Char}
    (ordinary : ∀ d ∈ front ++ c :: back, options.platform.IsOrdinary d) :
    (MakesLiteral options (bracketText options.platform negated
        (front.map bare ++ ([bare c, bare '-', .named name] ++ back.map bare))) ↔
      ∀ member, set.head? = some member → ¬member.AllowsRangeFrom c) ∧
    (MakesLiteral options (bracketText options.platform negated
        (front.map bare ++ ([.named name, bare '-', bare c] ++ back.map bare))) ↔
      ∀ member, set.getLast? = some member → ¬member.AllowsRangeTo c) := by
  obtain ⟨listed, known, lists⟩ := NamedClass.exists_tokens_of_mem_sets isSet
  rw [List.forall_mem_append, List.forall_mem_cons] at ordinary
  obtain ⟨inFront, isOrdinary, inBack⟩ := ordinary
  have notDash : (⟨c, false⟩ : WrittenChar) ≠ ⟨'-', false⟩ := by
    rintro ⟨⟩
    exact isOrdinary.1 (by simp)
  obtain ⟨spelling, tokensChar⟩ : ∃ spelling, (bare c).tokens = [.char c spelling] :=
    exists_tokens_char notDash
  have tokensName : (BracketUnit.named name).tokens = listed := by
    rw [BracketUnit.tokens, known, Option.getD_some]
  have inertChar := isInert_bare isOrdinary
  have inertDash := isInert_dash options.platform
  have inertName : (BracketUnit.named name).IsInert options.platform := Option.isSome_of_mem known
  have nonempty := NamedClass.ne_nil_of_mem_sets isSet
  constructor
  · obtain ⟨member, others, rfl⟩ := List.exists_cons_of_ne_nil nonempty
    have tokens : [bare c, bare '-', .named name].flatMap BracketUnit.tokens =
        .char c spelling :: .dash :: listed := by
      rw [List.flatMap_cons, List.flatMap_cons, List.flatMap_singleton, tokensName, tokens_dash,
        tokensChar]
      rfl
    rw [makesLiteral_between_iff inFront inBack (by simp) (by simp [inertChar, inertDash, inertName]),
      tokens, ← Bool.not_eq_true, List.cons_append, List.cons_append,
      CharClass.isValid_range_into_iff (.literals front) (.literals back) lists]
    simp
  · obtain ⟨others, member, rfl⟩ := (List.eq_nil_or_concat' set).resolve_left nonempty
    have tokens : [.named name, bare '-', bare c].flatMap BracketUnit.tokens =
        listed ++ [.dash, .char c spelling] := by
      rw [List.flatMap_cons, List.flatMap_cons, List.flatMap_singleton, tokensName, tokens_dash,
        tokensChar]
      rfl
    rw [makesLiteral_between_iff inFront inBack (by simp) (by simp [inertChar, inertDash, inertName]),
      tokens, ← Bool.not_eq_true, List.append_assoc, List.cons_append, List.cons_append,
      List.nil_append, CharClass.isValid_range_outOf_iff (.literals front) (.literals back) lists]
    simp

/-- A range into lower-case letters from a letter in the middle of them is an error, and one out of them
is none: its dash stands behind the range that the letters are. -/
theorem makesLiteral_range_lower :
    MakesLiteral {} "[!xm-[:lower:]0]".toList ∧ ¬MakesLiteral {} "[!x[:lower:]-m0]".toList := by
  have isSet : ("lower".toList, [ClassMember.range 'a' 'z']) ∈ NamedClass.sets := by decide
  have ordinary : ∀ d ∈ ['x'] ++ 'm' :: ['0'], Platform.posix.IsOrdinary d := by
    simp [Platform.IsOrdinary, Platform.escapeMark, Platform.isSeparator, Platform.separators]
  obtain ⟨into, outOf⟩ := makesLiteral_range_iff {} true isSet ordinary
  refine ⟨into.mpr ?_, fun literal => outOf.mp literal _ rfl trivial⟩
  rintro _ ⟨⟩
  decide

/-- A range into a class starts in order and is none of the class: `[0-[:alpha:]]` matches what lies
between a digit and the first letter, and not its own text. -/
theorem not_makesLiteral_range_alpha :
    bracketText .posix false [bare '0', bare '-', .named "alpha".toList] = "[0-[:alpha:]]".toList ∧
      globSource {} "[0-[:alpha:]]" = "^[0-A-Za-z]/*$" ∧ ¬MakesLiteral {} "[0-[:alpha:]]".toList ∧
      ∃ matcher, Matcher.compile {} "[0-[:alpha:]]" = .ok matcher ∧ matcher.isMatch "5" .standard = true ∧
        matcher.isMatch "[0-[:alpha:]]" .standard = false := by
  have compiled : GlobSegment.ofText {} "[0-[:alpha:]]".toList ≠
      .shape (Shape.literal "[0-[:alpha:]]".toList) := by decide
  have named : "[0-[:alpha:]]".toList ∈ Path.names .posix "[0-[:alpha:]]".toList := by decide
  refine ⟨by decide, by decide, fun literal => compiled ?_, ?_⟩
  · exact literal "[0-[:alpha:]]" _ named [] .refl
  · exact ⟨⟨{}, globPattern {} "[0-[:alpha:]]", rfl⟩, rfl, by decide +kernel, by decide +kernel⟩

end Range

end PathGlob
