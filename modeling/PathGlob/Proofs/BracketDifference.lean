import PathGlob.Proofs.BracketUnits
import PathGlob.Proofs.CaseFolding
import PathGlob.Proofs.ClassDifference

/-! # Brackets that are read as a difference

Of the signs for operations on classes only the dash is left bare in a bracket, where it makes
ranges. Two bare dashes behind something else are a difference all the same. A character that stands
in the body of a bracket is matched unless it, or one that counts as the same, is listed behind the
first such pair (`compile_bracket_own_iff`).
-/

namespace PathGlob

private theorem mem_alike_self (caseInsensitive : Bool) (c : Char) : c ∈ alike caseInsensitive c := by
  cases caseInsensitive with
  | false => exact List.mem_singleton_self c
  | true => exact Text.mem_caseVariants_self c

namespace NamedClass

/-- The tokens of a named class make no difference, neither alone nor next to a dash. -/
theorem apart_of_tokens? {name : List Char} {tokens : List ClassToken}
    (known : tokens? name = some tokens) :
    tokens.IsChain ClassToken.Apart ∧ tokens.head? ≠ some .dash ∧ tokens.getLast? ≠ some .dash := by
  have all : ∀ entry ∈ table, entry.2.IsChain ClassToken.Apart ∧ entry.2.head? ≠ some .dash ∧
      entry.2.getLast? ≠ some .dash := by decide
  exact all _ (mem_table_of_tokens? known)

end NamedClass

namespace BracketUnit

/-- Two units that may follow one another without a difference between them. -/
def Apart (first second : BracketUnit) : Prop :=
  ¬(first = bare '-' ∧ second = bare '-')

instance : DecidableRel Apart := fun _ _ => inferInstanceAs (Decidable ¬(_ ∧ _))

/-- The first two bare dashes that follow one another behind something else, and the units in front
of them and behind them. -/
def IsDifference (units operand after : List BracketUnit) : Prop :=
  units.dropWhile (· == bare '-') = operand ++ bare '-' :: bare '-' :: after ∧
    (operand ++ [bare '-']).IsChain Apart

/-- Units list a character, or one that counts as the same. -/
def ListsAlike (options : Options) (units : List BracketUnit) (c : Char) : Prop :=
  ∃ read, ClassMembers.ofTokens? (units.flatMap tokens) = some read ∧
    ∃ member ∈ read.listed, member.meets (alike options.caseInsensitive c) = true

variable {unit : BracketUnit} {units : List BracketUnit}

private theorem apart_tokens (unit : BracketUnit) :
    unit.tokens.IsChain ClassToken.Apart ∧
      (unit ≠ bare '-' → unit.tokens.head? ≠ some .dash ∧ unit.tokens.getLast? ≠ some .dash) := by
  cases unit with
  | char written =>
    by_cases isDash : written = ⟨'-', false⟩
    · subst isDash
      exact ⟨.singleton _, fun notDash => absurd rfl notDash⟩
    · obtain ⟨spelling, isToken⟩ := exists_tokens_char isDash
      rw [isToken]
      exact ⟨.singleton _, fun _ => by simp⟩
  | named name =>
    rw [tokens]
    cases known : NamedClass.tokens? name with
    | none => exact ⟨.nil, fun _ => by simp⟩
    | some tokens =>
      obtain ⟨apart, ends⟩ := NamedClass.apart_of_tokens? known
      exact ⟨apart, fun _ => ends⟩

/-- Two dashes follow one another among the tokens only if two bare dashes do among the units. -/
theorem isChain_flatMap_tokens (apart : units.IsChain Apart)
    (nonempty : ∀ unit ∈ units, unit.tokens ≠ []) :
    (units.flatMap tokens).IsChain ClassToken.Apart := by
  induction units with
  | nil => exact .nil
  | cons unit units ih =>
    rw [List.isChain_cons] at apart
    rw [List.forall_mem_cons] at nonempty
    rw [List.flatMap_cons, List.isChain_append]
    refine ⟨(apart_tokens unit).1, ih apart.2 nonempty.2, ?_⟩
    rintro _ isLast _ isFirst ⟨rfl, rfl⟩
    have isDash : unit = bare '-' := by
      by_contra notDash
      exact ((apart_tokens unit).2 notDash).2 isLast
    cases units with
    | nil => cases isFirst
    | cons next units =>
      rw [List.flatMap_cons, List.head?_append_of_ne_nil _ (nonempty.2 next List.mem_cons_self)]
        at isFirst
      have nextIsDash : next = bare '-' := by
        by_contra notDash
        exact ((apart_tokens next).2 notDash).1 isFirst
      exact apart.1 next rfl ⟨isDash, nextIsDash⟩

private theorem dropWhile_flatMap_tokens (nonempty : ∀ unit ∈ units, unit.tokens ≠ []) :
    (units.flatMap tokens).dropWhile (· == .dash) =
      (units.dropWhile (· == bare '-')).flatMap tokens := by
  induction units with
  | nil => rfl
  | cons unit units ih =>
    rw [List.forall_mem_cons] at nonempty
    by_cases isDash : unit = bare '-'
    · rw [List.dropWhile_cons_of_pos (by simpa using isDash), ← ih nonempty.2, isDash,
        List.flatMap_cons, tokens_dash]
      exact List.dropWhile_cons_of_pos rfl
    · rw [List.dropWhile_cons_of_neg (by simpa using isDash), List.flatMap_cons]
      obtain ⟨token, rest, listed⟩ := List.exists_cons_of_ne_nil nonempty.1
      have notDash : token ≠ .dash := by
        have starts := ((apart_tokens unit).2 isDash).1
        rw [listed] at starts
        simpa using starts
      rw [listed, List.cons_append, List.dropWhile_cons_of_neg (by simpa using notDash)]

/-- Either no two bare dashes follow one another, or there are two that are the first to do so. -/
theorem isChain_or_exists_first (units : List BracketUnit) :
    units.IsChain Apart ∨ ∃ operand after, units = operand ++ bare '-' :: bare '-' :: after ∧
      (operand ++ [bare '-']).IsChain Apart := by
  induction units with
  | nil => exact .inl .nil
  | cons unit units ih =>
    by_cases pair : unit = bare '-' ∧ units.head? = some (bare '-')
    · obtain ⟨rfl, starts⟩ := pair
      obtain ⟨after, rfl⟩ := List.head?_eq_some_iff.mp starts
      exact .inr ⟨[], after, rfl, .singleton _⟩
    · have apart : ∀ next ∈ units.head?, Apart unit next := fun next isNext both =>
        pair ⟨both.1, both.2 ▸ isNext⟩
      obtain chain | ⟨operand, after, rfl, chain⟩ := ih
      · exact .inl (List.isChain_cons.mpr ⟨apart, chain⟩)
      · refine .inr ⟨unit :: operand, after, rfl, List.isChain_cons.mpr ⟨?_, chain⟩⟩
        cases operand <;> exact apart

variable {operand after : List BracketUnit} {others : ClassMembers}

/-- What is taken away is what the units behind a difference list. -/
theorem exists_removed (cut : units = operand ++ bare '-' :: bare '-' :: after)
    (apart : (operand ++ [bare '-']).IsChain Apart) (nonempty : ∀ unit ∈ units, unit.tokens ≠ [])
    (reads : ClassMembers.Reads (units.flatMap tokens) others) :
    ∃ removed, ClassMembers.Reads (after.flatMap tokens) removed ∧
      others.removed = removed.listed := by
  have cutTokens : units.flatMap tokens =
      operand.flatMap tokens ++ .dash :: .dash :: after.flatMap tokens := by
    rw [cut, List.flatMap_append, List.flatMap_cons, List.flatMap_cons, tokens_dash]
    rfl
  have apartTokens : ((operand ++ [bare '-']).flatMap tokens).IsChain ClassToken.Apart := by
    refine isChain_flatMap_tokens apart fun unit isUnit => nonempty unit ?_
    rw [cut]
    simp only [List.mem_append, List.mem_cons, List.not_mem_nil] at isUnit ⊢
    tauto
  rw [List.flatMap_append, List.flatMap_singleton, tokens_dash] at apartTokens
  obtain ⟨_, removed, isRead, rfl⟩ := reads.exists_of_difference cutTokens apartTokens
  exact ⟨removed, isRead, rfl⟩

/-- A class accepts a character of its body unless a difference takes it away. -/
theorem accepts_own_iff {options : Options} {cls : CharClass}
    (isTokens : cls.tokens = units.flatMap tokens) (plain : cls.negated = false)
    (valid : cls.isValid = true) (nonempty : ∀ unit ∈ units, unit.tokens ≠ [])
    {written : WrittenChar} (isUnit : .char written ∈ units) (notDash : written.char ≠ '-') :
    cls.accepts (alike options.caseInsensitive written.char) = true ↔
      ∀ operand after, IsDifference units operand after →
        ¬ListsAlike options after written.char := by
  obtain ⟨members, read⟩ := Option.isSome_iff_exists.mp valid
  obtain ⟨others, reads, sameRemoved, kept⟩ := CharClass.exists_reads read
  rw [isTokens, dropWhile_flatMap_tokens nonempty] at reads
  have nonempty : ∀ unit ∈ units.dropWhile (· == bare '-'), unit.tokens ≠ [] :=
    fun unit isLeft => nonempty unit ((List.dropWhile_sublist _).subset isLeft)
  have notBare : written ≠ ⟨'-', false⟩ := fun same => notDash (congrArg WrittenChar.char same)
  have isLeft : .char written ∈ units.dropWhile (· == bare '-') := by
    have parts : .char written ∈ units.takeWhile (· == bare '-') ++ units.dropWhile (· == bare '-') := by
      rwa [List.takeWhile_append_dropWhile]
    obtain leads | isLeft := List.mem_append.mp parts
    · have isBare : char written = bare '-' := by simpa using List.mem_takeWhile_imp leads
      exact absurd (char.inj isBare) notBare
    · exact isLeft
  obtain ⟨spelling, isToken⟩ := exists_tokens_char notBare
  obtain ⟨member, isListed, holds⟩ := reads.exists_listed
    (List.mem_flatMap.mpr ⟨_, isLeft, isToken ▸ List.mem_singleton_self _⟩)
  have meets : member.meets (alike options.caseInsensitive written.char) = true :=
    List.any_eq_true.mpr ⟨_, mem_alike_self _ _, holds⟩
  have accepts_iff : cls.accepts (alike options.caseInsensitive written.char) = true ↔
      ¬∃ member ∈ others.removed,
        member.meets (alike options.caseInsensitive written.char) = true := by
    simp only [CharClass.accepts, read, plain, ClassMembers.meets, sameRemoved, Bool.false_bne,
      Bool.and_eq_true, Bool.not_eq_true', ← Bool.not_eq_true, List.any_eq_true]
    refine ⟨And.right, fun spared => ⟨?_, spared⟩⟩
    obtain isKept | isRemoved := List.mem_append.mp isListed
    · exact ⟨member, kept member isKept, meets⟩
    · exact absurd ⟨member, isRemoved, meets⟩ spared
  rw [accepts_iff]
  constructor
  · rintro spared operand after ⟨cut, apart⟩ ⟨behind, isRead, taken⟩
    obtain ⟨removed, isRemoved, same⟩ := exists_removed cut apart nonempty reads
    rw [ClassMembers.ofTokens?_eq_some_iff.mpr isRemoved] at isRead
    obtain rfl := Option.some.inj isRead
    exact spared (same ▸ taken)
  · intro spared taken
    obtain chain | ⟨operand, after, cut, apart⟩ :=
      isChain_or_exists_first (units.dropWhile (· == bare '-'))
    · rw [reads.removed_eq_nil (isChain_flatMap_tokens chain nonempty)] at taken
      simp at taken
    · obtain ⟨removed, isRemoved, same⟩ := exists_removed cut apart nonempty reads
      exact spared operand after ⟨cut, apart⟩
        ⟨removed, ClassMembers.ofTokens?_eq_some_iff.mpr isRemoved, same ▸ taken⟩

end BracketUnit

open BracketUnit

/-- A glob of one bracket matches a character of its body, other than a dash, unless the characters
behind a difference list it or one that counts as the same. The body is the text behind the `[`, up
to the `]` and with it. -/
theorem compile_bracket_own_iff (options : Options) {body : List Char} {cls : CharClass}
    (isBracket : GlobGrammar.IsSegment options ('[' :: body) [.bracket cls false])
    (unmarked : body.head? ≠ some '!')
    (noSeparator : ∀ c ∈ body, options.platform.isSeparator c = false) :
    (∃ units, GlobGrammar.Units options true body units []) ∧
    ∃ matcher, Matcher.compile options (String.ofList ('[' :: body)) = .ok matcher ∧
      ∀ units, GlobGrammar.Units options true body units [] →
        ∀ written : WrittenChar, .char written ∈ units → written.char ≠ '-' → ∀ engine : Engine,
          (matcher.isMatch (String.singleton written.char) engine = true ↔
            ∀ operand after, IsDifference units operand after →
              ¬ListsAlike options after written.char) := by
  obtain ⟨bracket, valid⟩ := GlobGrammar.isSegment_bracket_iff.mp isBracket
  have exists_units : ∃ units, GlobGrammar.Units options true body units [] := by
    cases bracket with
    | negated => exact absurd rfl unmarked
    | plain _ members =>
      exact (GlobGrammar.members_iff_units.mp members).imp fun _ => And.left
  refine ⟨exists_units, ?_⟩
  have whole : ∀ c ∈ '[' :: body, options.platform.isSeparator c = false := by
    rw [List.forall_mem_cons]
    exact ⟨by cases options.platform <;> decide, noSeparator⟩
  rw [← String.toList_ofList (l := '[' :: body)] at bracket whole
  obtain ⟨matcher, compiled, accepts⟩ := bracket.exists_compile valid whole
  refine ⟨matcher, compiled, fun units read written isUnit notDash engine => ?_⟩
  have ofUnits : GlobGrammar.Bracket options (String.ofList ('[' :: body)).toList
      ⟨false, units.flatMap BracketUnit.tokens⟩ [] := by
    rw [String.toList_ofList]
    exact .plain unmarked (GlobGrammar.members_iff_units.mpr ⟨units, read, rfl⟩)
  obtain rfl := bracket.unique valid ofUnits
  rw [accepts, ← accepts_own_iff rfl rfl valid (fun unit isUnit => read.tokens_ne_nil isUnit) isUnit
    notDash]
  simp

/-- Up to case `[a--A]` takes away the character that it starts with. -/
theorem compile_bracket_own_iff_alike :
    ∃ matcher, Matcher.compile { caseInsensitive := true } "[a--A]" = .ok matcher ∧
      matcher.isMatch "a" .standard = false := by
  let options : Options := { caseInsensitive := true }
  let units : List BracketUnit := [bare 'a', bare '-', bare '-', bare 'A']
  have read : GlobGrammar.Units options true "a--A]".toList units [] := by
    have written : "a--A]".toList = units.flatMap (text options.platform) ++ [']'] := by decide
    rw [written]
    refine .of_readable [] ?_ ?_ ?_ ?_ <;> decide
  have bracket : GlobGrammar.Bracket options ('[' :: "a--A]".toList)
      ⟨false, units.flatMap BracketUnit.tokens⟩ [] :=
    .plain (by decide) (GlobGrammar.members_iff_units.mpr ⟨units, read, rfl⟩)
  have isBracket := GlobGrammar.isSegment_bracket_iff.mpr ⟨bracket, by decide⟩
  have noSeparator : ∀ c ∈ "a--A]".toList, options.platform.isSeparator c = false := by
    simp [options, Platform.isSeparator, Platform.separators]
  obtain ⟨-, matcher, compiled, accepts⟩ :=
    compile_bracket_own_iff options isBracket (by decide) noSeparator
  refine ⟨matcher, compiled, ?_⟩
  rw [← Bool.not_eq_true]
  intro accepted
  exact (accepts units read ⟨'a', false⟩ (by decide) (by decide) .standard).mp accepted [bare 'a'] [bare 'A']
    ⟨rfl, by decide⟩ ⟨_, rfl, .char 'A', by decide, by decide +kernel⟩

/-- A dash too many takes a character away: `[a-z--m]` does not match `m`. -/
theorem compile_bracket_loses_own :
    GlobGrammar.Units {} true "a-z--m]".toList ("a-z--m".toList.map bare) [] ∧
      (Shape.ofSegment? {} "[a-z--m]".toList).isSome ∧ bare 'm' ∈ "a-z--m".toList.map bare ∧
      ∃ matcher, Matcher.compile {} "[a-z--m]" = .ok matcher ∧ matcher.isMatch "m" .standard = false := by
  refine ⟨?_, by decide, by decide, ?_⟩
  · have written : "a-z--m]".toList =
        ("a-z--m".toList.map bare).flatMap (text .posix) ++ [']'] := by decide
    rw [written]
    refine .of_readable [] ?_ ?_ ?_ ?_ <;> decide
  · exact ⟨⟨{}, globPattern {} "[a-z--m]", rfl⟩, rfl, by decide +kernel⟩

end PathGlob
