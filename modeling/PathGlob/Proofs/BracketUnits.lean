import Mathlib.Data.List.Chain
import PathGlob.Proofs.BracketReading
import PathGlob.Proofs.LiteralSegments

/-! # What the body of a bracket is written with

The body of a bracket is a text of characters, some of them behind an escape mark, and of references
to named classes. `BracketUnit` keeps those apart that the tokens of a class no longer tell apart.
The units of a body are read off its text by the rules of `GlobGrammar.Members`, and have the tokens
that these give (`GlobGrammar.members_iff_units`).

A glob that is one bracket of a class matches one character of that class
(`GlobGrammar.Bracket.exists_compile`).
-/

namespace PathGlob

/-- The names of classes are made of lower-case letters. -/
theorem NamedClass.isLower_of_tokens? {name : List Char} (known : (tokens? name).isSome) :
    ∀ c ∈ name, c.isLower = true := by
  obtain ⟨tokens, known⟩ := Option.isSome_iff_exists.mp known
  have all : ∀ entry ∈ table, entry.1.all Char.isLower = true := by decide
  exact List.all_eq_true.mp (all _ (mem_table_of_tokens? known))

/-- A character as it is written in a bracket. -/
structure WrittenChar where
  char : Char
  /-- Whether an escape mark stands in front of it. -/
  escaped : Bool
  deriving DecidableEq, Repr

/-- A unit of the body of a bracket. -/
inductive BracketUnit where
  | char (written : WrittenChar)
  /-- A reference to a named class. -/
  | named (name : List Char)
  deriving DecidableEq, Repr

namespace BracketUnit

def bare (c : Char) : BracketUnit :=
  .char ⟨c, false⟩

def text (platform : Platform) : BracketUnit → List Char
  | .char ⟨c, true⟩ => [platform.escapeMark, c]
  | .char ⟨c, false⟩ => [c]
  | .named name => '[' :: ':' :: (name ++ [':', ']'])

def tokens : BracketUnit → List ClassToken
  | .char ⟨c, true⟩ => [.literal c]
  | .char ⟨c, false⟩ => [.plain c]
  | .named name => (NamedClass.tokens? name).getD []

theorem tokens_dash : (bare '-').tokens = [.dash] := rfl

/-- Any character but a bare dash is a character in the class as well. -/
theorem exists_tokens_char {written : WrittenChar} (notDash : written ≠ ⟨'-', false⟩) :
    ∃ spelling, (char written).tokens = [.char written.char spelling] := by
  match written with
  | ⟨c, true⟩ => exact ⟨_, rfl⟩
  | ⟨c, false⟩ =>
    have notDash : c ≠ '-' := fun same => notDash (same ▸ rfl)
    exact ⟨_, by rw [tokens, ClassToken.plain, if_neg notDash, ClassToken.literal]⟩

/-- A unit is what its text says in front of a rest: no escape mark stands bare, a name is the name
of a class, and no bare `[` starts a reference to a class. -/
def IsPlaced (platform : Platform) (rest : List Char) : BracketUnit → Prop
  | .char ⟨_, true⟩ => True
  | .char ⟨c, false⟩ => c ≠ platform.escapeMark ∧
    ∀ tokens more, ¬GlobGrammar.NamesClass (c :: rest) tokens more
  | .named name => ':' ∉ name ∧ (NamedClass.tokens? name).isSome

/-- A unit is no bare escape mark, and a name is the name of a class. -/
def IsReadable (platform : Platform) : BracketUnit → Prop
  | .char written => written ≠ ⟨platform.escapeMark, false⟩
  | .named name => (NamedClass.tokens? name).isSome

instance (platform : Platform) : DecidablePred (IsReadable platform)
  | .char _ => inferInstanceAs (Decidable (_ ≠ _))
  | .named _ => inferInstanceAs (Decidable (_ = true))

private theorem head?_text_append {platform : Platform} {unit : BracketUnit} {rest : List Char}
    {c : Char}
    (notEscape : c ≠ platform.escapeMark) (notOpen : c ≠ '[') :
    (unit.text platform ++ rest).head? = some c ↔ unit = bare c := by
  match unit with
  | .char ⟨_, true⟩ => simp [text, bare, notEscape.symm]
  | .char ⟨_, false⟩ => simp [text, bare]
  | .named _ => simp [text, bare, notOpen.symm]

end BracketUnit

namespace GlobGrammar

variable (options : Options)

/-- The units of the body of a bracket up to the `]` that closes it. A bare `]` has to come first. -/
inductive Units : Bool → List Char → List BracketUnit → List Char → Prop
  | close (rest : List Char) : Units false (']' :: rest) [] rest
  | unit {first : Bool} {middle rest : List Char} {unit : BracketUnit} {units : List BracketUnit}
      (early : unit = .bare ']' → first = true) (placed : unit.IsPlaced options.platform middle)
      (others : Units false middle units rest) :
      Units first (unit.text options.platform ++ middle) (unit :: units) rest

variable {options} {first : Bool} {text rest : List Char} {tokens : List ClassToken}
  {unit : BracketUnit} {units : List BracketUnit}

private theorem member_of_isPlaced (placed : unit.IsPlaced options.platform rest) :
    Member options (unit.text options.platform ++ rest) unit.tokens rest := by
  match unit, placed with
  | .char ⟨c, true⟩, _ => exact .escaped c rest
  | .char ⟨c, false⟩, ⟨notEscape, unnamed⟩ => exact .plain c rest notEscape unnamed
  | .named name, ⟨noColon, known⟩ =>
    obtain ⟨tokens, found⟩ := Option.isSome_iff_exists.mp known
    exact .named ⟨name, noColon, by rw [BracketUnit.tokens, found, Option.getD_some], by
      simp [BracketUnit.text]⟩

private theorem Member.exists_unit (member : Member options text tokens rest) :
    ∃ unit : BracketUnit, unit.IsPlaced options.platform rest ∧
      text = unit.text options.platform ++ rest ∧ tokens = unit.tokens := by
  cases member with
  | escaped c => exact ⟨.char ⟨c, true⟩, trivial, rfl, rfl⟩
  | plain c _ notEscape unnamed => exact ⟨.bare c, ⟨notEscape, unnamed⟩, rfl, rfl⟩
  | named named =>
    obtain ⟨name, noColon, known, rfl⟩ := named
    refine ⟨.named name, ⟨noColon, Option.isSome_of_mem known⟩, by simp [BracketUnit.text], ?_⟩
    rw [BracketUnit.tokens, known, Option.getD_some]

/-- Every unit of a body has tokens. -/
theorem Units.tokens_ne_nil (read : Units options first text units rest) (isUnit : unit ∈ units) :
    unit.tokens ≠ [] := by
  induction read with
  | close => cases isUnit
  | unit _ placed _ ih =>
    obtain rfl | isOther := List.mem_cons.mp isUnit
    · exact (member_of_isPlaced placed).ne_nil
    · exact ih isOther

/-- The members of a body are its units, and the tokens of the body those of its units. -/
theorem members_iff_units :
    Members options first text tokens rest ↔
      ∃ units, Units options first text units rest ∧
        tokens = units.flatMap BracketUnit.tokens := by
  have notEscape : ']' ≠ options.platform.escapeMark := ne_escapeMark (by simp)
  have notOpen : ']' ≠ '[' := by decide
  constructor
  · intro members
    induction members with
    | close rest => exact ⟨[], .close rest, rfl⟩
    | member early member _ ih =>
      obtain ⟨unit, placed, rfl, rfl⟩ := member.exists_unit
      obtain ⟨units, others, rfl⟩ := ih
      refine ⟨unit :: units, .unit ?_ placed others, rfl⟩
      exact fun same => early ((BracketUnit.head?_text_append notEscape notOpen).mpr same)
  · rintro ⟨units, read, rfl⟩
    induction read with
    | close rest => exact .close rest
    | unit early placed _ ih =>
      refine .member (fun closes => early ?_) (member_of_isPlaced placed) ih
      exact (BracketUnit.head?_text_append notEscape notOpen).mp closes

/-- A unit is placed before others unless it is a bare escape mark, a name without a class, or a bare
`[` with a bare `:` behind it. -/
theorem isPlaced_of_head? (readable : unit.IsReadable options.platform)
    (unreferring : unit = .bare '[' → units.head? ≠ some (.bare ':')) :
    unit.IsPlaced options.platform
      (units.flatMap (BracketUnit.text options.platform) ++ ']' :: rest) := by
  match unit, readable with
  | .char ⟨_, true⟩, _ => trivial
  | .named name, known =>
    exact ⟨fun colon => absurd (NamedClass.isLower_of_tokens? known _ colon) (by decide), known⟩
  | .char ⟨c, false⟩, notEscape =>
    refine ⟨fun same => notEscape (same ▸ rfl), ?_⟩
    rintro tokens more ⟨name, -, -, named⟩
    obtain ⟨rfl, follows⟩ := List.cons.inj named
    have noColon : ':' ≠ options.platform.escapeMark := by cases options.platform <;> decide
    cases units with
    | nil => cases follows
    | cons next others =>
      rw [List.flatMap_cons, List.append_assoc] at follows
      have colon := (BracketUnit.head?_text_append noColon (by decide)).mp
        (congrArg List.head? follows)
      exact unreferring rfl (congrArg some colon)

private theorem Units.of_isChain (rest : List Char)
    (readable : ∀ unit ∈ units, unit.IsReadable options.platform)
    (closers : .bare ']' ∉ units)
    (references : units.IsChain fun unit next => ¬(unit = .bare '[' ∧ next = .bare ':')) :
    Units options false (units.flatMap (BracketUnit.text options.platform) ++ ']' :: rest) units
      rest := by
  induction units with
  | nil => exact .close rest
  | cons unit units ih =>
    rw [List.forall_mem_cons] at readable
    rw [List.mem_cons, not_or] at closers
    rw [List.isChain_cons] at references
    rw [List.flatMap_cons, List.append_assoc]
    refine .unit (fun closes => absurd closes.symm closers.1) (isPlaced_of_head? readable.1 ?_)
      (ih readable.2 closers.2 references.2)
    exact fun opens colon => references.1 _ colon ⟨opens, rfl⟩

/-- The text of units is read as these units if none of them is bare where it has another role. -/
theorem Units.of_readable (rest : List Char) (nonempty : units ≠ [])
    (readable : ∀ unit ∈ units, unit.IsReadable options.platform)
    (closers : .bare ']' ∉ units.tail)
    (references : units.IsChain fun unit next => ¬(unit = .bare '[' ∧ next = .bare ':')) :
    Units options true (units.flatMap (BracketUnit.text options.platform) ++ ']' :: rest) units
      rest := by
  obtain ⟨first, others, rfl⟩ := List.exists_cons_of_ne_nil nonempty
  rw [List.forall_mem_cons] at readable
  rw [List.isChain_cons] at references
  rw [List.flatMap_cons, List.append_assoc]
  refine .unit (fun _ => rfl) (isPlaced_of_head? readable.1 ?_)
    (.of_isChain rest readable.2 closers references.2)
  exact fun opens colon => references.1 _ colon ⟨opens, rfl⟩

/-- The text of units between brackets is a bracket with their tokens, negated behind a `!`. -/
theorem Bracket.of_readable (rest : List Char) (negated : Bool) (nonempty : units ≠ [])
    (readable : ∀ unit ∈ units, unit.IsReadable options.platform)
    (closers : .bare ']' ∉ units.tail)
    (references : units.IsChain fun unit next => ¬(unit = .bare '[' ∧ next = .bare ':'))
    (unmarked : negated = false → units.head? ≠ some (.bare '!')) :
    Bracket options ('[' :: ((if negated then ['!'] else []) ++
      (units.flatMap (BracketUnit.text options.platform) ++ ']' :: rest)))
      ⟨negated, units.flatMap BracketUnit.tokens⟩ rest := by
  have read : Members options true _ _ rest := members_iff_units.mpr
    ⟨_, .of_readable rest nonempty readable closers references, rfl⟩
  cases negated with
  | true => exact .negated read
  | false =>
    refine .plain (fun marks => unmarked rfl ?_) read
    have notEscape : '!' ≠ options.platform.escapeMark := ne_escapeMark (by simp)
    obtain ⟨first, others, rfl⟩ := List.exists_cons_of_ne_nil nonempty
    rw [if_neg Bool.false_ne_true, List.nil_append, List.flatMap_cons, List.append_assoc,
      BracketUnit.head?_text_append notEscape (by decide)] at marks
    rw [marks, List.head?_cons]

theorem Bracket.head?_eq {cls : CharClass} (bracket : Bracket options text cls rest) :
    text.head? = some '[' := by
  cases bracket with
  | negated | plain => rfl

/-- A text is a segment of one bracket if it is a bracket that means something. -/
theorem isSegment_bracket_iff {cls : CharClass} :
    IsSegment options text [.bracket cls false] ↔
      Bracket options text cls [] ∧ cls.isValid = true := by
  constructor
  · intro isSegment
    cases isSegment with
    | single single following =>
      cases following with
      | finish =>
        cases single with
        | bracket bracket valid _ => exact ⟨bracket, valid⟩
  · rintro ⟨bracket, valid⟩
    exact .single (.bracket bracket valid fun more _ repeats => by cases repeats) .finish

private theorem afterBracket?_nil {cls : CharClass} (valid : cls.isValid = true) :
    afterBracket? options cls [] = some [.bracket cls false] := by
  rw [afterBracket?, if_pos valid]
  rfl

/-- No text is another bracket than one that means something. -/
theorem Bracket.unique {cls other : CharClass} (bracket : Bracket options text cls [])
    (valid : cls.isValid = true) (otherBracket : Bracket options text other []) : other = cls := by
  have same := (scan?_bracket otherBracket).symm.trans (scan?_bracket bracket)
  rw [afterBracket?_nil valid] at same
  by_cases otherValid : other.isValid = true
  · rw [afterBracket?_nil otherValid] at same
    exact (GlobToken.bracket.inj (List.cons.inj (Option.some.inj same)).1).1
  · rw [afterBracket?, if_neg otherValid] at same
    cases same

/-- A glob that is one bracket has a matcher, and this accepts one character that the class of the
bracket accepts, with or without separators after it. -/
theorem Bracket.exists_compile {glob : String} {cls : CharClass}
    (bracket : Bracket options glob.toList cls []) (valid : cls.isValid = true)
    (noSeparator : ∀ c ∈ glob.toList, options.platform.isSeparator c = false) :
    ∃ matcher, Matcher.compile options glob = .ok matcher ∧
      ∀ (path : String) (engine : Engine), matcher.isMatch path engine = true ↔ ∃ c separators,
        path.toList = c :: separators ∧ cls.accepts (alike options.caseInsensitive c) = true ∧
          ∀ d ∈ separators, options.platform.isSeparator d = true := by
  have isSegment := isSegment_bracket_iff.mpr ⟨bracket, valid⟩
  have opens : glob.toList.head? = some '[' := bracket.head?_eq
  have nonempty : glob.toList ≠ [] := by
    intro empty
    rw [empty] at opens
    cases opens
  have isShape : ¬GlobMeaning.IsGlobstar options glob.toList := by
    rintro ⟨-, stars⟩
    rw [stars] at opens
    cases opens
  have accepted : ((Shape.ofSegment options glob.toList).pattern options.platform).isAccepted :=
    isSegment.pattern_ofSegment ▸ rfl
  have plain : (Shape.ofSegment options glob.toList).looksAhead = false := by
    rw [← Shape.looksAhead_pattern _ options.platform, isSegment.pattern_ofSegment]
    rfl
  obtain ⟨matcher, compiled, accepts⟩ :=
    exists_compile_alone nonempty noSeparator isShape accepted plain
  rw [String.ofList_toList] at compiled
  refine ⟨matcher, compiled, fun path engine => ?_⟩
  rw [accepts]
  simp only [isSegment.segmentTakes_iff, GlobItem.BranchTakes, GlobItem.Takes]
  constructor
  · rintro ⟨separators, ⟨_, ⟨c, cut, accepted⟩, rfl⟩, separate⟩
    exact ⟨c, separators, cut, accepted, separate⟩
  · rintro ⟨c, separators, cut, accepted, separate⟩
    exact ⟨separators, ⟨separators, ⟨c, cut, accepted⟩, rfl⟩, separate⟩

end GlobGrammar

end PathGlob
