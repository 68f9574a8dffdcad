import PathGlob.Proofs.GlobstarSplit
import PathGlob.Proofs.SeparatorRuns

/-! # A separator behind a path

A glob leaves room for separators at the end of a path, so one more of them is matched as well. Only
the checks of groups `!(…)` look at it: a `?` or a bracket in a group may take it, and then the group
finds what it must not find. Inside another such group this is welcome again, so it counts whether
something stands in an odd number of them (`Shape.checksFor`).
-/

namespace PathGlob

open Relation

namespace Regex

/-- What an expression takes off a text it takes off a related text as well, with related rests. -/
def CarriesOver (caseInsensitive : Bool) (related : List Char → List Char → Prop) (regex : Regex) :
    Prop :=
  ∀ text other rest, related text other → regex.TakesText caseInsensitive text rest →
    ∃ left, related rest left ∧ regex.TakesText caseInsensitive other left

namespace CarriesOver

variable {caseInsensitive : Bool} {related : List Char → List Char → Prop} {first second body : Regex}

theorem empty : CarriesOver caseInsensitive related .empty := by
  intro text other rest same taken
  obtain rfl := takesText_empty.mp taken
  exact ⟨other, same, takesText_empty.mpr rfl⟩

/-- An expression for one character carries over where the related text starts with one as well. -/
theorem of_single {fits : Char → Prop}
    (single : ∀ text rest, body.TakesText caseInsensitive text rest ↔ ∃ c, text = c :: rest ∧ fits c)
    (starts : ∀ c text other, related (c :: text) other → fits c →
      ∃ d left, other = d :: left ∧ fits d ∧ related text left) :
    CarriesOver caseInsensitive related body := by
  intro text other rest same taken
  obtain ⟨c, rfl, fitting⟩ := (single _ _).mp taken
  obtain ⟨d, left, rfl, fitting, following⟩ := starts c rest other same fitting
  exact ⟨left, following, (single _ _).mpr ⟨d, rfl, fitting⟩⟩

theorem seq (firstCarries : CarriesOver caseInsensitive related first)
    (secondCarries : CarriesOver caseInsensitive related second) :
    CarriesOver caseInsensitive related (.seq first second) := by
  intro text other rest same taken
  obtain ⟨middle, before, after⟩ := takesText_seq.mp taken
  obtain ⟨between, same, before⟩ := firstCarries text other middle same before
  obtain ⟨left, same, after⟩ := secondCarries middle between rest same after
  exact ⟨left, same, takesText_seq.mpr ⟨between, before, after⟩⟩

theorem alt (firstCarries : CarriesOver caseInsensitive related first)
    (secondCarries : CarriesOver caseInsensitive related second) :
    CarriesOver caseInsensitive related (.alt first second) := by
  intro text other rest same taken
  rcases takesText_alt.mp taken with taken | taken
  · obtain ⟨left, same, taken⟩ := firstCarries text other rest same taken
    exact ⟨left, same, takesText_alt.mpr (.inl taken)⟩
  · obtain ⟨left, same, taken⟩ := secondCarries text other rest same taken
    exact ⟨left, same, takesText_alt.mpr (.inr taken)⟩

/-- A check carries over if what is checked for carries back. -/
theorem notAhead (carriesBack : CarriesOver caseInsensitive (flip related) body) :
    CarriesOver caseInsensitive related (.notAhead body) := by
  intro text other rest same taken
  obtain ⟨rfl, fails⟩ := takesText_notAhead.mp taken
  refine ⟨other, same, takesText_notAhead.mpr ⟨rfl, ?_⟩⟩
  rintro ⟨left, found⟩
  obtain ⟨back, _, found⟩ := carriesBack other rest left same found
  exact fails ⟨back, found⟩

section Body

variable (carries : CarriesOver caseInsensitive related body)

include carries

theorem group : CarriesOver caseInsensitive related (.group body) := carries

theorem zeroOrMore : CarriesOver caseInsensitive related (.zeroOrMore body) := by
  intro text other rest same taken
  rw [takesText_zeroOrMore] at taken
  simp only [takesText_zeroOrMore]
  induction taken with
  | refl => exact ⟨other, same, .refl⟩
  | tail _ last earlier =>
    obtain ⟨between, same, before⟩ := earlier
    obtain ⟨left, same, last⟩ := carries _ between _ same last
    exact ⟨left, same, before.tail last⟩

theorem oneOrMore : CarriesOver caseInsensitive related (.oneOrMore body) := by
  intro text other rest same taken
  simp only [takesText_oneOrMore_iff_seq] at taken ⊢
  exact carries.seq carries.zeroOrMore text other rest same taken

theorem zeroOrOne : CarriesOver caseInsensitive related (.zeroOrOne body) := by
  intro text other rest same taken
  rcases takesText_zeroOrOne.mp taken with rfl | taken
  · exact ⟨other, same, takesText_zeroOrOne.mpr (.inl rfl)⟩
  · obtain ⟨left, same, taken⟩ := carries text other rest same taken
    exact ⟨left, same, takesText_zeroOrOne.mpr (.inr taken)⟩

end Body

end CarriesOver

end Regex

/-- Of two texts, one is the other with a character behind it. It is the second one, but the first one
where a check looks for it. -/
def DiffersBehind (s : Char) : Bool → List Char → List Char → Prop
  | false, text, other => other = text ++ [s]
  | true, text, other => text = other ++ [s]

private theorem flip_differsBehind (s : Char) (checked : Bool) :
    flip (DiffersBehind s checked) = DiffersBehind s (!checked) := by
  cases checked <;> rfl

/-- Whether something in a shape that accepts the separator `s` stands in an odd number of groups
`!(…)`, given whether the shape itself does. -/
def Shape.checksFor (options : Options) (s : Char) (checked : Bool) : Shape → Bool
  | empty | char _ | anyRun => false
  | anyChar => checked
  | bracket cls _ => checked && cls.accepts (alike options.caseInsensitive s)
  | seq first second | alt first second =>
    first.checksFor options s checked || second.checksFor options s checked
  | group kind body => body.checksFor options s (checked ^^ kind == .noneOf)

section Segment

variable {options : Options} {s : Char}

/-- An expression for one character minds a character behind only where it looks for that. -/
theorem Regex.CarriesOver.of_single_behind {caseInsensitive checked : Bool} {body : Regex}
    {fits : Char → Prop}
    (single : ∀ text rest, body.TakesText caseInsensitive text rest ↔ ∃ c, text = c :: rest ∧ fits c)
    (unchecked : checked = true → ¬fits s) :
    body.CarriesOver caseInsensitive (DiffersBehind s checked) := by
  refine .of_single single fun c text other differs fitting => ?_
  cases checked with
  | false => exact ⟨c, text ++ [s], differs, fitting, rfl⟩
  | true =>
    have differs : c :: text = other ++ [s] := differs
    rcases other with _ | ⟨d, left⟩
    · obtain ⟨rfl, rfl⟩ := List.cons.inj differs
      exact absurd fitting (unchecked rfl)
    · obtain ⟨rfl, rfl⟩ := List.cons.inj differs
      exact ⟨c, left, rfl, fitting, rfl⟩

private theorem Platform.carriesOver_runPattern (platform : Platform) (caseInsensitive checked : Bool)
    (separates : platform.isSeparator s = true) :
    platform.runPattern.CarriesOver caseInsensitive (DiffersBehind s checked) := by
  refine .zeroOrMore (.of_single_behind platform.takesText_namePattern fun _ isName => ?_)
  rw [separates] at isName
  cases isName

/-- A shape takes the same whether there is one more separator behind or not, as far as it does not
check for that. -/
theorem Shape.carriesOver_pattern {shape : Shape} (separates : options.platform.isSeparator s = true)
    (named : ∀ c ∈ shape.chars, options.platform.isSeparator c = false) {checked : Bool}
    (unchecked : shape.checksFor options s checked = false) :
    (shape.pattern options.platform).CarriesOver options.caseInsensitive
      (DiffersBehind s checked) := by
  induction shape generalizing checked with
  | empty => exact .empty
  | char c =>
    refine .of_single_behind (fun _ _ => Regex.takesText_char) fun _ same => ?_
    have isName := named c (List.mem_singleton_self c)
    rw [Platform.isSeparator_of_mem_alike _ same separates] at isName
    cases isName
  | anyChar =>
    refine .of_single_behind (fun _ _ => Regex.takesText_anyChar) fun isChecked => ?_
    rw [checksFor, isChecked] at unchecked
    cases unchecked
  | anyRun => exact options.platform.carriesOver_runPattern _ checked separates
  | bracket cls repeated =>
    have once : (Regex.cls cls).CarriesOver options.caseInsensitive (DiffersBehind s checked) := by
      refine .of_single_behind (fun _ _ => Regex.takesText_cls) fun isChecked accepted => ?_
      rw [checksFor, isChecked, accepted] at unchecked
      cases unchecked
    cases repeated with
    | false => exact once
    | true => exact once.oneOrMore
  | seq first second firstCarries secondCarries =>
    obtain ⟨namedFirst, namedSecond⟩ := List.forall_mem_append.mp named
    obtain ⟨uncheckedFirst, uncheckedSecond⟩ := Bool.or_eq_false_iff.mp unchecked
    exact (firstCarries namedFirst uncheckedFirst).seq (secondCarries namedSecond uncheckedSecond)
  | alt first second firstCarries secondCarries =>
    obtain ⟨namedFirst, namedSecond⟩ := List.forall_mem_append.mp named
    obtain ⟨uncheckedFirst, uncheckedSecond⟩ := Bool.or_eq_false_iff.mp unchecked
    exact (firstCarries namedFirst uncheckedFirst).alt (secondCarries namedSecond uncheckedSecond)
  | group kind body bodyCarries =>
    have content := bodyCarries named unchecked
    by_cases negated : kind = .noneOf
    · subst negated
      have carriesBack : (body.pattern options.platform).CarriesOver options.caseInsensitive
          (flip (DiffersBehind s checked)) := by
        rw [flip_differsBehind, ← Bool.xor_true]
        exact content
      exact carriesBack.notAhead.seq (options.platform.carriesOver_runPattern _ checked separates)
    · rw [beq_false_of_ne negated, Bool.xor_false] at content
      cases kind with
      | brace | one => exact content.group
      | oneOrMore => exact content.group.oneOrMore
      | zeroOrMore => exact content.group.zeroOrMore
      | zeroOrOne => exact content.group.zeroOrOne
      | noneOf => exact absurd rfl negated

namespace GlobMeaning

/-- What a segment takes, it takes as well if there is one more separator behind. -/
theorem SegmentTakes.append_separator {segment path rest : List Char}
    (separates : options.platform.isSeparator s = true)
    (named : ∀ c ∈ segment, options.platform.isSeparator c = false)
    (unchecked : (Shape.ofSegment options segment).checksFor options s false = false)
    (taken : SegmentTakes options segment path rest) :
    SegmentTakes options segment (path ++ [s]) (rest ++ [s]) := by
  rw [← takesText_ofSegment_iff] at taken ⊢
  have chars : ∀ c ∈ (Shape.ofSegment options segment).chars, options.platform.isSeparator c = false :=
    fun c isChar => named c (Shape.mem_of_mem_chars_ofSegment isChar)
  obtain ⟨_, rfl, taken⟩ :=
    Shape.carriesOver_pattern separates chars unchecked path (path ++ [s]) rest rfl taken
  exact taken

/-- Segments that match a path match it with one more separator behind. -/
theorem SegmentsMatch.append_separator {segments : List (List Char)} {path : List Char}
    (separates : options.platform.isSeparator s = true) (some : segments ≠ [])
    (named : ∀ segment ∈ segments, ∀ c ∈ segment, options.platform.isSeparator c = false)
    (unchecked : ∀ segment ∈ segments,
      (Shape.ofSegment options segment).checksFor options s false = false)
    (matched : SegmentsMatch options segments path) : SegmentsMatch options segments (path ++ [s]) := by
  induction segments generalizing path with
  | nil => exact absurd rfl some
  | cons segment others ih =>
    obtain ⟨namedFirst, namedOthers⟩ := List.forall_mem_cons.mp named
    obtain ⟨uncheckedFirst, uncheckedOthers⟩ := List.forall_mem_cons.mp unchecked
    cases others with
    | nil =>
      obtain ⟨isGlobstar, _⟩ | ⟨isShape, trailing, taken, separate⟩ := matched
      · exact segmentsMatch_globstar_alone isGlobstar _
      · refine .inr ⟨isShape, trailing ++ [s], taken.append_separator separates namedFirst
          uncheckedFirst, ?_⟩
        exact List.forall_mem_append.mpr ⟨separate, List.forall_mem_singleton.mpr separates⟩
    | cons next others =>
      have following {rest : List Char} (matched : SegmentsMatch options (next :: others) rest) :=
        ih (List.cons_ne_nil next others) namedOthers uncheckedOthers matched
      obtain ⟨isGlobstar, directories, rest, rfl, whole, matched⟩ |
        ⟨isShape, separators, rest, taken, parted, separate, matched⟩ := matched
      · rw [List.append_assoc]
        exact .inl ⟨isGlobstar, directories, rest ++ [s], rfl, whole, following matched⟩
      · have taken := taken.append_separator separates namedFirst uncheckedFirst
        rw [List.append_assoc] at taken
        exact .inr ⟨isShape, separators, rest ++ [s], taken, parted, separate, following matched⟩

end GlobMeaning

end Segment

namespace Matcher

open GlobMeaning

variable {options : Options} {glob path : String} {matcher : Matcher} {engine : Engine} {s : Char}

/-- A path that a glob matches is matched with one more separator behind, if nothing in the glob that
accepts the separator stands in an odd number of groups `!(…)` and the engine does not give up. -/
theorem isMatch_push_separator (compiled : compile options glob = .ok matcher)
    (separates : options.platform.isSeparator s = true)
    (unchecked : ∀ name ∈ Path.names options.platform glob.toList,
      (Shape.ofSegment options name).checksFor options s false = false)
    (matched : matcher.isMatch path engine = true) : matcher.MayMatch (path.push s) engine := by
  obtain ⟨_, nonempty, matched⟩ := (isMatch_iff_matches compiled).mp matched
  refine mayMatch_of_matches compiled ⟨nonempty, ?_⟩ engine
  rw [String.toList_push]
  refine matched.append_separator separates (segments_ne_nil _ _) ?_ ?_
  · intro segment isSegment
    rcases eq_nil_or_mem_names isSegment with rfl | isName
    · simp
    · exact fun c => Path.isSeparator_of_mem_names isName
  · intro segment isSegment
    rcases eq_nil_or_mem_names isSegment with rfl | isName
    · rfl
    · exact unchecked segment isName

/-- The bracket accepts a slash only, and the `?` that is checked for stands in two groups `!(…)`. -/
theorem isMatch_push_separator_nested :
    Platform.windows.isSeparator '\\' = true ∧
      (∀ name ∈ Path.names .windows "?b/!([.-9]|!(c?))*".toList,
        (Shape.ofSegment { platform := .windows } name).checksFor { platform := .windows } '\\' false =
          false) ∧
      ∃ matcher, compile { platform := .windows } "?b/!([.-9]|!(c?))*" = .ok matcher ∧
        matcher.isMatch "/b\\cd" .standard = true ∧
        matcher.isMatch ("/b\\cd".push '\\') .standard = true := by
  have separates : Platform.windows.isSeparator '\\' = true := rfl
  have unchecked : ∀ name ∈ Path.names .windows "?b/!([.-9]|!(c?))*".toList,
      (Shape.ofSegment { platform := .windows } name).checksFor { platform := .windows } '\\' false =
        false := by
    decide
  have compiled : compile { platform := .windows } "?b/!([.-9]|!(c?))*" =
      .ok ⟨{ platform := .windows }, globPattern { platform := .windows } "?b/!([.-9]|!(c?))*", rfl⟩ :=
    rfl
  have matched : Matcher.isMatch ⟨{ platform := .windows },
      globPattern { platform := .windows } "?b/!([.-9]|!(c?))*", rfl⟩ "/b\\cd" .standard = true := by
    decide +kernel
  have answered : Matcher.givesUp ⟨{ platform := .windows },
      globPattern { platform := .windows } "?b/!([.-9]|!(c?))*", rfl⟩ ("/b\\cd".push '\\') .standard ≠
        true := by
    decide +kernel
  have pushed := isMatch_push_separator compiled separates unchecked matched
  exact ⟨separates, unchecked, _, compiled, matched, pushed.resolve_right answered⟩

/-- A `?` in a group `!(…)` takes the separator behind the path. -/
theorem isMatch_push_separator_checked :
    ∃ matcher, compile {} "!(a?)" = .ok matcher ∧ matcher.isMatch "a" .standard = true ∧
      matcher.answer? ("a".push '/') .standard = some false ∧
      matcher.isMatch ("a".push '/') .standard = false :=
  ⟨_, rfl, by decide +kernel, by decide +kernel, by decide +kernel⟩

end Matcher

end PathGlob
