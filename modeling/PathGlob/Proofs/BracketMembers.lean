import PathGlob.Proofs.BracketUnits
import PathGlob.Proofs.ClassReading

/-! # Brackets mean their members

A reader of globs sees members between the brackets: characters, ranges and named classes. If bare
characters with a role stand only where they have none, or have the role that the reader means, a
bracket accepts the characters that its members hold, or those that none of them holds
(`BracketMember.compile_bracket`). That rests on the tokens of members being read as just these
members (`BracketMember.exists_members?`), and on the text of members being read as theirs
(`BracketMember.bracket_glob`).
-/

namespace PathGlob

/-- A member of a bracket. -/
inductive BracketMember where
  | char (written : WrittenChar)
  | range (first last : WrittenChar)
  | named (name : List Char)
  deriving DecidableEq, Repr

namespace BracketMember

open ClassMembers GlobGrammar

def dash : BracketMember :=
  .char ⟨'-', false⟩

def units : BracketMember → List BracketUnit
  | .char written => [.char written]
  | .range first last => [.char first, .bare '-', .char last]
  | .named name => [.named name]

def Holds : BracketMember → Char → Prop
  | .char written, c => c = written.char
  | .range first last, c => first.char ≤ c ∧ c ≤ last.char
  | .named name, c => ∃ entry ∈ NamedClass.sets, entry.1 = name ∧
    ∃ member ∈ entry.2, member.contains c = true

instance : (member : BracketMember) → DecidablePred member.Holds
  | .char _, _ => inferInstanceAs (Decidable (_ = _))
  | .range _ _, _ => inferInstanceAs (Decidable (_ ∧ _))
  | .named _, _ => inferInstanceAs (Decidable (∃ _ ∈ NamedClass.sets, _ ∧ ∃ _ ∈ _, _ = true))

/-- A range is in order and does not end in a bare dash, and a name is the name of a class. -/
def IsSound : BracketMember → Prop
  | .char _ => True
  | .range first last => first.char ≤ last.char ∧ first ≠ ⟨'-', false⟩ ∧ last ≠ ⟨'-', false⟩
  | .named name => (NamedClass.tokens? name).isSome

instance : (member : BracketMember) → Decidable member.IsSound
  | .char _ => inferInstanceAs (Decidable True)
  | .range _ _ => inferInstanceAs (Decidable (_ ∧ _ ∧ _))
  | .named _ => inferInstanceAs (Decidable (_ = true))

def tokens (members : List BracketMember) : List ClassToken :=
  (members.flatMap units).flatMap BracketUnit.tokens

/-- The glob of one bracket with some members. -/
def glob (platform : Platform) (negated : Bool) (members : List BracketMember) : String :=
  String.ofList ('[' :: ((if negated then ['!'] else []) ++
    (members.flatMap units).flatMap (BracketUnit.text platform) ++ [']']))

/-- Members make up the body of a bracket as they are meant: no bare character has a role that is
not its own. A bare dash is the first member, the last one or none, a bare `]` comes first of all,
and a bare `[` does not start what may be a reference to a class. -/
structure IsBody (platform : Platform) (negated : Bool) (members : List BracketMember) : Prop where
  nonempty : members ≠ []
  sound : ∀ member ∈ members, member.IsSound
  dashes : dash ∉ members.tail.dropLast
  unescaped : BracketUnit.bare platform.escapeMark ∉ members.flatMap units
  closers : BracketUnit.bare ']' ∉ (members.flatMap units).tail
  references : (members.flatMap units).IsChain fun first second =>
    ¬(first = .bare '[' ∧ second = .bare ':')
  unmarked : negated = false → (members.flatMap units).head? ≠ some (.bare '!')
  noSeparator : ∀ c ∈ (members.flatMap units).flatMap (BracketUnit.text platform),
    platform.isSeparator c = false

variable {member : BracketMember} {members : List BracketMember}

private theorem tokens_cons : tokens (member :: members) = tokens [member] ++ tokens members := by
  simp only [tokens, List.flatMap_cons, List.flatMap_append, List.flatMap_nil, List.append_nil]

/-- The tokens of a member list what it holds. -/
theorem exists_lists (sound : member.IsSound) (notDash : member ≠ dash) :
    ∃ set, Lists (tokens [member]) set ∧
      ∀ c, (∃ listed ∈ set, listed.contains c = true) ↔ member.Holds c := by
  cases member with
  | char written =>
    obtain ⟨spelling, isToken⟩ :=
      BracketUnit.exists_tokens_char fun same => notDash (congrArg char same)
    refine ⟨[.char written.char], ?_, ?_⟩
    · simpa [tokens, units, isToken] using Lists.char written.char spelling .nil
    · simp [ClassMember.contains_char_iff, Holds]
  | range first last =>
    obtain ⟨ordered, firstPlain, lastPlain⟩ := sound
    obtain ⟨spelling, isToken⟩ := BracketUnit.exists_tokens_char firstPlain
    obtain ⟨lastSpelling, isLastToken⟩ := BracketUnit.exists_tokens_char lastPlain
    refine ⟨[.range first.char last.char], ?_, ?_⟩
    · simpa [tokens, units, BracketUnit.tokens_dash, isToken, isLastToken] using
        Lists.range spelling lastSpelling ordered .nil
    · simp [ClassMember.contains, Holds]
  | named name =>
    obtain ⟨tokens, known⟩ := Option.isSome_iff_exists.mp sound
    obtain ⟨set, isSet, lists⟩ := NamedClass.exists_lists known
    refine ⟨set, ?_, fun c => ⟨fun holds => ⟨_, isSet, rfl, holds⟩, ?_⟩⟩
    · simpa [BracketMember.tokens, units, BracketUnit.tokens, known] using lists
    · rintro ⟨⟨_, other⟩, isOther, rfl, holds⟩
      exact NamedClass.sets_unique isOther isSet ▸ holds

private theorem exists_lists_tokens (sound : ∀ member ∈ members, member.IsSound)
    (noDash : dash ∉ members) :
    ∃ set, Lists (tokens members) set ∧
      ∀ c, (∃ listed ∈ set, listed.contains c = true) ↔ ∃ member ∈ members, member.Holds c := by
  induction members with
  | nil => exact ⟨[], .nil, by simp⟩
  | cons member members ih =>
    rw [List.forall_mem_cons] at sound
    rw [List.mem_cons, not_or] at noDash
    obtain ⟨set, lists, holds⟩ := exists_lists sound.1 (Ne.symm noDash.1)
    obtain ⟨others, othersList, othersHold⟩ := ih sound.2 noDash.2
    refine ⟨set ++ others, tokens_cons ▸ lists.append othersList, fun c => ?_⟩
    simp only [List.mem_append, or_and_right, exists_or, holds, othersHold, List.mem_cons,
      exists_eq_left]

private theorem head?_tokens_ne_dash (sound : member.IsSound) (notDash : member ≠ dash) :
    (tokens (member :: members)).head? ≠ some .dash := by
  obtain ⟨set, lists, -⟩ := exists_lists sound notDash
  have nonempty : tokens [member] ≠ [] := by
    cases member with
    | char written =>
      obtain ⟨spelling, isToken⟩ :=
        BracketUnit.exists_tokens_char fun same => notDash (congrArg char same)
      simp [tokens, units, isToken]
    | range => simp [tokens, units, BracketUnit.tokens_dash]
    | named name =>
      obtain ⟨tokens, known⟩ := Option.isSome_iff_exists.mp sound
      simpa [BracketMember.tokens, units, BracketUnit.tokens, known] using
        NamedClass.ne_nil_of_tokens? known
  rw [tokens_cons, List.head?_append_of_ne_nil _ nonempty]
  exact lists.head?_ne_dash

private theorem dropWhile_tokens (sound : member.IsSound) (notDash : member ≠ dash) :
    (tokens (member :: members)).dropWhile (· == .dash) = tokens (member :: members) := by
  have plain : (tokens (member :: members)).head? ≠ some .dash := head?_tokens_ne_dash sound notDash
  cases listed : tokens (member :: members) with
  | nil => rfl
  | cons token others =>
    rw [listed] at plain
    exact List.dropWhile_cons_of_neg (by simpa using plain)

/-- Members are read as what they hold if only the last one may be a bare dash. -/
theorem exists_ofTokens? (sound : ∀ member ∈ members, member.IsSound)
    (noDash : dash ∉ members.dropLast) :
    ∃ kept, ofTokens? (tokens members) = some ⟨kept, []⟩ ∧
      ∀ c, (∃ listed ∈ kept, listed.contains c = true) ↔ ∃ member ∈ members, member.Holds c := by
  obtain rfl | ⟨front, last, rfl⟩ := List.eq_nil_or_concat members
  · exact ⟨[], rfl, by simp⟩
  rw [List.concat_eq_append, List.dropLast_concat] at *
  obtain rfl | notDash := eq_or_ne last dash
  · obtain ⟨set, lists, holds⟩ :=
      exists_lists_tokens (fun member isFront => sound member (List.mem_append_left _ isFront)) noDash
    have single : ¬ContinuesRange [.dash] := by rintro ⟨_, _, ⟨⟩, _⟩
    refine ⟨set ++ [.char '-'], ?_, fun c => ?_⟩
    · rw [tokens, List.flatMap_append, List.flatMap_append]
      exact lists.ofTokens?_append single
    · simp [or_and_right, exists_or, holds, dash, Holds, ClassMember.contains_char_iff]
  · obtain ⟨set, lists, holds⟩ := exists_lists_tokens sound (by simp [noDash, notDash.symm])
    have single : ¬ContinuesRange [] := by rintro ⟨_, _, ⟨⟩, _⟩
    refine ⟨set, ?_, holds⟩
    have read := lists.ofTokens?_append single
    rw [List.append_nil] at read
    rw [read, ofTokens?, Option.map_some, prepend, List.append_nil]

/-- The class of a bracket is read as what its members hold. -/
theorem exists_members? (negated : Bool) (sound : ∀ member ∈ members, member.IsSound)
    (dashes : dash ∉ members.tail.dropLast) :
    ∃ kept, (CharClass.mk negated (tokens members)).members? = some ⟨kept, []⟩ ∧
      ∀ c, (∃ listed ∈ kept, listed.contains c = true) ↔ ∃ member ∈ members, member.Holds c := by
  cases members with
  | nil => exact ⟨[], rfl, by simp⟩
  | cons first rest =>
    obtain rfl | notDash := eq_or_ne first dash
    · -- All dashes at the start of a class are members, so a body of two is read as one of them.
      change ∃ kept, (CharClass.mk negated (.dash :: tokens rest)).members? = _ ∧ _
      rw [CharClass.members?_cons_dash]
      obtain rfl | more := eq_or_ne rest [dash]
      · exact ⟨[.char '-'], rfl, by simp [dash, Holds, ClassMember.contains_char_iff]⟩
      · obtain ⟨kept, read, holds⟩ :=
          exists_ofTokens? (fun member isRest => sound member (List.mem_cons_of_mem _ isRest)) dashes
        have starts : (tokens rest).dropWhile (· == .dash) = tokens rest := by
          cases rest with
          | nil => rfl
          | cons second others =>
            have notDash : second ≠ dash := by
              rintro rfl
              cases others with
              | nil => exact more rfl
              | cons => exact dashes (by simp)
            exact dropWhile_tokens (sound second (by simp)) notDash
        refine ⟨.char '-' :: kept, by rw [starts, read]; rfl, fun c => ?_⟩
        simp [holds, dash, Holds, ClassMember.contains_char_iff]
    · have noDash : dash ∉ (first :: rest).dropLast := by
        cases rest with
        | nil => simp
        | cons second others => simpa using ⟨notDash.symm, dashes⟩
      obtain ⟨kept, read, holds⟩ := exists_ofTokens? sound noDash
      refine ⟨kept, ?_, holds⟩
      rw [CharClass.members?_of_head?_ne_dash, read]
      exact head?_tokens_ne_dash (sound first List.mem_cons_self) notDash

variable {options : Options} {negated : Bool}

private theorem isReadable_units (sound : member.IsSound) {platform : Platform} {unit : BracketUnit}
    (unescaped : unit ≠ .bare platform.escapeMark) (isUnit : unit ∈ member.units) :
    unit.IsReadable platform := by
  cases unit with
  | char written => exact fun same => unescaped (congrArg BracketUnit.char same)
  | named name =>
    cases member with
    | char | range => simp [units, BracketUnit.bare] at isUnit
    | named other =>
      obtain rfl : name = other := by simpa [units] using isUnit
      exact sound

/-- The text of a bracket with some members is read as a bracket with the tokens of these members. -/
theorem bracket_glob (isBody : IsBody options.platform negated members) :
    Bracket options (glob options.platform negated members).toList ⟨negated, tokens members⟩ [] := by
  have readable : ∀ unit ∈ members.flatMap units, unit.IsReadable options.platform := by
    intro unit isUnit
    obtain ⟨member, isMember, inMember⟩ := List.mem_flatMap.mp isUnit
    exact isReadable_units (isBody.sound member isMember)
      (fun same => isBody.unescaped (same ▸ isUnit)) inMember
  have nonempty : members.flatMap units ≠ [] := by
    obtain ⟨first, rest, rfl⟩ := List.exists_cons_of_ne_nil isBody.nonempty
    cases first <;> simp [units]
  rw [glob, String.toList_ofList, List.append_assoc]
  exact .of_readable [] negated nonempty readable isBody.closers isBody.references isBody.unmarked

/-- A bracket means its members: a glob of one bracket is not taken literally, and with case it
matches one character, with or without separators after it, that some member holds, or that no
member holds if the bracket is negated. -/
theorem compile_bracket (options : Options) (negated : Bool) (members : List BracketMember)
    (isBody : IsBody options.platform negated members) :
    (∃ cls, IsSegment options (glob options.platform negated members).toList
      [.bracket cls false]) ∧
    ∃ matcher, Matcher.compile options (glob options.platform negated members) = .ok matcher ∧
      (options.caseInsensitive = false → ∀ (path : String) (engine : Engine),
        matcher.isMatch path engine = true ↔ ∃ c separators, path.toList = c :: separators ∧
          (negated = false ↔ ∃ member ∈ members, member.Holds c) ∧
          ∀ d ∈ separators, options.platform.isSeparator d = true) := by
  have bracket := bracket_glob isBody
  obtain ⟨kept, read, holds⟩ := exists_members? negated isBody.sound isBody.dashes
  have valid : (CharClass.mk negated (tokens members)).isValid = true := by
    rw [CharClass.isValid, read, Option.isSome_some]
  have noSeparator : ∀ c ∈ (glob options.platform negated members).toList,
      options.platform.isSeparator c = false := by
    have signs : ∀ c ∈ ['[', '!', ']'], options.platform.isSeparator c = false := by
      cases options.platform <;> simp [Platform.isSeparator, Platform.separators]
    intro c isWritten
    rw [glob, String.toList_ofList, List.mem_cons, List.mem_append, List.mem_append,
      List.mem_singleton] at isWritten
    rcases isWritten with rfl | (marks | inBody) | rfl
    · exact signs _ (by simp)
    · have isMark : c = '!' := by cases negated <;> simp_all
      exact signs c (by simp [isMark])
    · exact isBody.noSeparator c inBody
    · exact signs _ (by simp)
  obtain ⟨matcher, compiled, accepts⟩ := bracket.exists_compile valid noSeparator
  refine ⟨⟨_, isSegment_bracket_iff.mpr ⟨bracket, valid⟩⟩, matcher, compiled, ?_⟩
  intro matchesCase path engine
  have alone (c : Char) : alike options.caseInsensitive c = [c] := by rw [matchesCase]; rfl
  simp only [accepts, alone, CharClass.accepts_singleton_iff read, holds]

/-- A negated bracket with a range that starts with `]`, a class, an escaped dash and a bare one. -/
theorem compile_bracket_negated :
    let members : List BracketMember := [.range ⟨']', false⟩ ⟨'a', false⟩, .named "digit".toList,
      .char ⟨'-', true⟩, dash]
    IsBody .posix true members ∧ glob .posix true members = "[!]-a[:digit:]\\--]" ∧
      ∃ matcher, Matcher.compile {} "[!]-a[:digit:]\\--]" = .ok matcher ∧
        matcher.isMatch "b//" .standard = true ∧ matcher.isMatch "_" .standard = false := by
  intro members
  have written : (members.flatMap units).flatMap (BracketUnit.text .posix) =
      "]-a[:digit:]\\--".toList := by decide
  have isBody : IsBody .posix true members := {
    nonempty := by decide
    sound := by decide
    dashes := by decide
    unescaped := by decide
    closers := by decide
    references := by decide
    unmarked := by decide
    noSeparator := by rw [written]; simp [Platform.isSeparator, Platform.separators] }
  obtain ⟨-, matcher, compiled, accepts⟩ := compile_bracket {} true members isBody
  refine ⟨isBody, rfl, matcher, compiled, (accepts rfl _ _).mpr ?_, ?_⟩
  · exact ⟨'b', ['/', '/'], rfl, by decide, by simp [Platform.isSeparator, Platform.separators]⟩
  · rw [← Bool.not_eq_true, accepts rfl]
    rintro ⟨c, separators, cut, holds, -⟩
    obtain ⟨rfl, -⟩ := List.cons.inj cut
    exact absurd holds (by decide)

end BracketMember

end PathGlob
