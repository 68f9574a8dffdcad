import Mathlib.Algebra.BigOperators.Group.List.Basic
import Mathlib.Data.ENat.Lattice
import PathGlob.Proofs.CompiledMeaning
import PathGlob.Proofs.SegmentCharacters
import PathGlob.Proofs.TextPieces

/-! # How many names a glob spans

A star never takes a separator, nor does a character of a segment, because segments hold no
separators. A `?` takes any character but a newline, and a bracket may accept separators; a group
takes as many as its content allows. `Shape.crossings` adds this up: it bounds the separators in
what a segment takes, and with it how many names a path can have beyond one for each segment.
-/

namespace PathGlob

open Relation

/-- How many separators a group of a kind can take, given how many its content can take once. -/
def GroupKind.crossings (inner : ℕ∞) : GroupKind → ℕ∞
  | brace | one | zeroOrOne => inner
  | oneOrMore | zeroOrMore => ⊤ * inner
  | noneOf => 0

def CharClass.acceptsSeparator (options : Options) (cls : CharClass) : Bool :=
  options.platform.separators.any fun c => cls.accepts (alike options.caseInsensitive c)

/-- How many separators there can be at most in what a shape takes. -/
noncomputable def Shape.crossings (options : Options) : Shape → ℕ∞
  | empty | char _ | anyRun => 0
  | anyChar => 1
  | bracket cls repeated =>
    if cls.acceptsSeparator options then if repeated then ⊤ else 1 else 0
  | seq first second => first.crossings options + second.crossings options
  | alt first second => max (first.crossings options) (second.crossings options)
  | group kind body => kind.crossings (body.crossings options)

noncomputable def segmentCrossings (options : Options) (segment : List Char) : ℕ∞ :=
  (Shape.ofSegment options segment).crossings options

/-- A repeated step that adds nothing to a count still adds nothing; there is no bound for any other
step. -/
theorem count_le_of_reflTransGen {α : Type} {step : α → α → Prop} {count : α → ℕ} {bound : ℕ∞}
    (each : ∀ a b, step a b → (count a : ℕ∞) ≤ count b + bound) {a b : α}
    (steps : ReflTransGen step a b) : (count a : ℕ∞) ≤ count b + ⊤ * bound := by
  by_cases nothing : bound = 0
  · subst nothing
    rw [mul_zero, add_zero]
    induction steps with
    | refl => exact le_rfl
    | tail _ last earlier => exact earlier.trans (by simpa using each _ _ last)
  · rw [ENat.top_mul nothing, add_top]
    exact le_top

section Count

variable {options : Options} {text rest : List Char}

private theorem Platform.countP_append_of_no_separator (platform : Platform) {run : List Char}
    (inside : ∀ c ∈ run, platform.isSeparator c = false) (rest : List Char) :
    (run ++ rest).countP platform.isSeparator = rest.countP platform.isSeparator := by
  rw [List.countP_append, List.countP_eq_zero.mpr (by simpa using inside), Nat.zero_add]

theorem Platform.countP_le_of_takesRun {platform : Platform} (run : platform.TakesRun text rest) :
    (text.countP platform.isSeparator : ℕ∞) ≤ rest.countP platform.isSeparator + 0 := by
  obtain ⟨run, rfl, inside⟩ := run
  rw [platform.countP_append_of_no_separator inside, add_zero]

/-- Going over one character counts a separator only if it is one. -/
theorem Platform.countP_cons_le (platform : Platform) (c : Char) (rest : List Char) {bound : ℕ∞}
    (counted : platform.isSeparator c = true → 1 ≤ bound) :
    (((c :: rest).countP platform.isSeparator : ℕ) : ℕ∞) ≤
      rest.countP platform.isSeparator + bound := by
  cases separates : platform.isSeparator c with
  | true =>
    rw [List.countP_cons_of_pos separates, Nat.cast_add, Nat.cast_one]
    exact add_le_add_right (counted separates) _
  | false =>
    rw [List.countP_cons_of_neg (by simp [separates])]
    exact le_self_add

/-- A character of a path that counts as the same as one that is no separator is none either. -/
theorem Platform.isSeparator_of_mem_alike (platform : Platform) {caseInsensitive : Bool} {c d : Char}
    (same : c ∈ alike caseInsensitive d) (separates : platform.isSeparator d = true) :
    platform.isSeparator c = true := by
  rw [alike_eq_singleton (platform.isCaseless_of_isSeparator separates), List.mem_singleton] at same
  subst same
  exact separates

theorem CharClass.acceptsSeparator_of_accepts {cls : CharClass} {c : Char}
    (accepted : cls.accepts (alike options.caseInsensitive c) = true)
    (separates : options.platform.isSeparator c = true) : cls.acceptsSeparator options = true :=
  List.any_eq_true.mpr ⟨c, List.contains_iff_mem.mp separates, accepted⟩

/-- What a shape takes holds no more separators than it crosses. -/
theorem Shape.countP_le_of_takesText {shape : Shape}
    (named : ∀ c ∈ shape.chars, options.platform.isSeparator c = false)
    (taken : (shape.pattern options.platform).TakesText options.caseInsensitive text rest) :
    (text.countP options.platform.isSeparator : ℕ∞) ≤
      rest.countP options.platform.isSeparator + shape.crossings options := by
  induction shape generalizing text rest with
  | empty =>
    obtain rfl := Regex.takesText_empty.mp taken
    exact le_self_add
  | char c =>
    obtain ⟨d, rfl, same⟩ := Regex.takesText_char.mp taken
    apply Platform.countP_cons_le
    intro separates
    have := named c (List.mem_singleton_self c)
    rw [Platform.isSeparator_of_mem_alike _ same separates] at this
    cases this
  | anyChar =>
    obtain ⟨d, rfl, _⟩ := Regex.takesText_anyChar.mp taken
    exact Platform.countP_cons_le _ d rest fun _ => le_rfl
  | anyRun => exact Platform.countP_le_of_takesRun ((Platform.takesText_runPattern _).mp taken)
  | bracket cls repeated =>
    have once : ∀ text rest, (Regex.cls cls).TakesText options.caseInsensitive text rest →
        (text.countP options.platform.isSeparator : ℕ∞) ≤
          rest.countP options.platform.isSeparator + if cls.acceptsSeparator options then 1 else 0 := by
      intro text rest taken
      obtain ⟨d, rfl, accepted⟩ := Regex.takesText_cls.mp taken
      apply Platform.countP_cons_le
      intro separates
      rw [if_pos (CharClass.acceptsSeparator_of_accepts accepted separates)]
    cases repeated with
    | false => exact once text rest taken
    | true =>
      have repeatedly := count_le_of_reflTransGen once (Regex.takesText_oneOrMore.mp taken).to_reflTransGen
      rw [mul_ite, mul_one, mul_zero] at repeatedly
      exact repeatedly
  | seq first second firstBound secondBound =>
    obtain ⟨namedFirst, namedSecond⟩ := List.forall_mem_append.mp named
    obtain ⟨middle, takenFirst, takenSecond⟩ := Regex.takesText_seq.mp taken
    calc
      (text.countP options.platform.isSeparator : ℕ∞) ≤
          middle.countP options.platform.isSeparator + first.crossings options :=
        firstBound namedFirst takenFirst
      _ ≤ rest.countP options.platform.isSeparator + second.crossings options +
          first.crossings options := add_le_add_left (secondBound namedSecond takenSecond) _
      _ = _ := by rw [crossings, add_assoc, add_comm (second.crossings options)]
  | alt first second firstBound secondBound =>
    obtain ⟨namedFirst, namedSecond⟩ := List.forall_mem_append.mp named
    rcases Regex.takesText_alt.mp taken with taken | taken
    · exact (firstBound namedFirst taken).trans (add_le_add_right (le_max_left _ _) _)
    · exact (secondBound namedSecond taken).trans (add_le_add_right (le_max_right _ _) _)
  | group kind body bodyBound =>
    have once := fun text rest => @bodyBound text rest named
    cases kind with
    | brace | one => exact bodyBound named taken
    | oneOrMore =>
      exact count_le_of_reflTransGen once (Regex.takesText_oneOrMore.mp taken).to_reflTransGen
    | zeroOrMore => exact count_le_of_reflTransGen once (Regex.takesText_zeroOrMore.mp taken)
    | zeroOrOne =>
      rcases Regex.takesText_zeroOrOne.mp taken with rfl | taken
      · exact le_self_add
      · exact bodyBound named taken
    | noneOf =>
      obtain ⟨_, checked, run⟩ := Regex.takesText_seq.mp taken
      obtain ⟨rfl, _⟩ := Regex.takesText_notAhead.mp checked
      exact Platform.countP_le_of_takesRun ((Platform.takesText_runPattern _).mp run)

end Count

namespace GlobMeaning

variable {options : Options}

/-- What a segment takes is one name, and one more for each separator that it crosses. -/
theorem length_names_le_of_segmentTakes {segment path rest : List Char}
    (named : ∀ c ∈ segment, options.platform.isSeparator c = false)
    (taken : SegmentTakes options segment path rest) :
    ∃ front, path = front ++ rest ∧
      ((Path.names options.platform front).length : ℕ∞) ≤ 1 + segmentCrossings options segment := by
  rw [← takesText_ofSegment_iff] at taken
  obtain ⟨front, rfl⟩ := taken.suffix
  refine ⟨front, rfl, ?_⟩
  have crossed := Shape.countP_le_of_takesText
    (fun c isChar => named c (Shape.mem_of_mem_chars_ofSegment isChar)) taken
  rw [List.countP_append, Nat.cast_add, add_comm] at crossed
  have inside : (front.countP options.platform.isSeparator : ℕ∞) ≤
      segmentCrossings options segment := by
    exact (ENat.add_le_add_iff_left (ENat.natCast_ne_top _)).mp crossed
  calc
    ((Path.names options.platform front).length : ℕ∞) ≤
        ((front.countP options.platform.isSeparator + 1 : ℕ) : ℕ∞) :=
      Nat.cast_le.mpr (Path.length_names_le options.platform front)
    _ = 1 + (front.countP options.platform.isSeparator : ℕ∞) := by
      rw [Nat.cast_add, Nat.cast_one, add_comm]
    _ ≤ 1 + segmentCrossings options segment := add_le_add_right inside 1

/-- A path that segments match has no more names than there are segments, apart from those that
crossed separators part. -/
theorem length_names_le_of_segmentsMatch {segments : List (List Char)} {path : List Char}
    (named : ∀ segment ∈ segments, ∀ c ∈ segment, options.platform.isSeparator c = false)
    (noGlobstar : ∀ segment ∈ segments, ¬IsGlobstar options segment)
    (matched : SegmentsMatch options segments path) :
    ((Path.names options.platform path).length : ℕ∞) ≤
      segments.length + (segments.map (segmentCrossings options)).sum := by
  induction segments generalizing path with
  | nil =>
    obtain rfl : path = [] := matched
    simp [Path.names_nil]
  | cons segment others ih =>
    obtain ⟨namedFirst, namedOthers⟩ := List.forall_mem_cons.mp named
    obtain ⟨isShape, noGlobstar⟩ := List.forall_mem_cons.mp noGlobstar
    cases others with
    | nil =>
      obtain ⟨isGlobstar, _⟩ | ⟨_, trailing, taken, separate⟩ := matched
      · exact (isShape isGlobstar).elim
      · obtain ⟨front, rfl, bound⟩ := length_names_le_of_segmentTakes namedFirst taken
        rw [Path.names_append_separators front separate]
        simpa using bound
    | cons next others =>
      obtain ⟨isGlobstar, _⟩ | ⟨_, separators, rest, taken, parted, separate, matched⟩ := matched
      · exact (isShape isGlobstar).elim
      · obtain ⟨front, rfl, bound⟩ := length_names_le_of_segmentTakes namedFirst taken
        obtain ⟨s, separators, rfl⟩ := List.exists_cons_of_ne_nil parted
        obtain ⟨separates, separate⟩ := List.forall_mem_cons.mp separate
        have following := ih namedOthers noGlobstar matched
        rw [List.cons_append, Path.names_append_separator front separates,
          Path.names_separators_append separate, List.length_append, Nat.cast_add]
        calc
          _ ≤ 1 + segmentCrossings options segment + (((next :: others).length : ℕ∞) +
              ((next :: others).map (segmentCrossings options)).sum) := add_le_add bound following
          _ = _ := by
            simp only [List.map_cons, List.sum_cons, List.length_cons, Nat.cast_add, Nat.cast_one]
            ac_rfl

/-- A path that the expression of a glob takes is matched by the segments of the glob, behind
separators if there are any in front of them. -/
theorem exists_segmentsMatch_of_takesText {glob : String} {path : List Char}
    (taken : (globPattern options glob).TakesText options.caseInsensitive path []) :
    ∃ separators rest, path = separators ++ rest ∧
      (∀ c ∈ separators, options.platform.isSeparator c = true) ∧
      SegmentsMatch options (Path.names options.platform glob.toList) rest := by
  rw [globPattern, Glob.ofText_eq] at taken
  generalize Path.names options.platform glob.toList = names at taken ⊢
  cases rooted : glob.toList.head?.any options.platform.isSeparator with
  | true =>
    rw [rooted, takesText_rooted_iff] at taken
    obtain ⟨separators, rest, rfl, _, separate, matched⟩ := taken
    exact ⟨separators, rest, rfl, separate, matched⟩
  | false =>
    rw [rooted] at taken
    cases names with
    | nil => exact (Regex.not_takesText_never taken).elim
    | cons first others =>
      exact ⟨[], path, rfl, by simp, (takesText_segmentsPattern_iff (first :: others) path).mp taken⟩

end GlobMeaning

namespace Matcher

variable {options : Options} {glob path : String} {matcher : Matcher} {engine : Engine}

private theorem takesText_of_isMatch (compiled : compile options glob = .ok matcher)
    (matched : matcher.isMatch path engine = true) :
    (globPattern options glob).TakesText options.caseInsensitive path.toList [] :=
  ((isMatch_iff_takesText compiled).mp matched).2

/-- A glob without a globstar matches no path with more names than the glob has segments, but for
one name more for each separator that its segments may cross: as many as there are `?` and brackets
that accept a separator, without those inside `!(…)`, and any number if one of these is repeated. If
a glob has one segment and crosses no separator, it matches no path with a separator between other
characters. -/
theorem length_names_le_of_isMatch (compiled : compile options glob = .ok matcher)
    (noGlobstar : ∀ segment ∈ Path.names options.platform glob.toList,
      ¬GlobMeaning.IsGlobstar options segment)
    (matched : matcher.isMatch path engine = true) :
    ((Path.names options.platform path.toList).length : ℕ∞) ≤
        (Path.names options.platform glob.toList).length +
          ((Path.names options.platform glob.toList).map (segmentCrossings options)).sum ∧
      ((∀ segment ∈ Path.names options.platform glob.toList, segmentCrossings options segment = 0) →
        (Path.names options.platform path.toList).length ≤
          (Path.names options.platform glob.toList).length ∧
        ((Path.names options.platform glob.toList).length = 1 →
          ∀ x s y, options.platform.isSeparator x = false → options.platform.isSeparator s = true →
            options.platform.isSeparator y = false → ¬[x, s, y].Sublist path.toList)) := by
  obtain ⟨separators, rest, split, separate, matched⟩ :=
    GlobMeaning.exists_segmentsMatch_of_takesText (takesText_of_isMatch compiled matched)
  have bound := GlobMeaning.length_names_le_of_segmentsMatch
    (fun _ isName _ => Path.isSeparator_of_mem_names isName) noGlobstar matched
  rw [← Path.names_separators_append separate rest, ← split] at bound
  refine ⟨bound, fun inside => ?_⟩
  have nothing : ((Path.names options.platform glob.toList).map (segmentCrossings options)).sum = 0 := by
    apply List.sum_eq_zero
    simpa using inside
  rw [nothing, add_zero, Nat.cast_le] at bound
  refine ⟨bound, fun alone x s y before separates after between => ?_⟩
  have := Path.two_le_length_names before separates after between
  omega

/-- A group `!(…)` only looks at what it holds, so its `?` crosses no separator. -/
theorem length_names_le_of_isMatch_noneOf :
    ∃ matcher, compile {} "!(?x)[a-c]*(b)" = .ok matcher ∧ matcher.isMatch "abb" .standard = true ∧
      (∀ segment ∈ Path.names .posix "!(?x)[a-c]*(b)".toList,
        ¬GlobMeaning.IsGlobstar {} segment ∧ segmentCrossings {} segment = 0) ∧
      (Path.names .posix "abb".toList).length ≤ 1 ∧
      ∀ x s y, Platform.posix.isSeparator x = false → Platform.posix.isSeparator s = true →
        Platform.posix.isSeparator y = false → ¬[x, s, y].Sublist "abb".toList := by
  have names : Path.names .posix "!(?x)[a-c]*(b)".toList = ["!(?x)[a-c]*(b)".toList] := rfl
  have noGlobstar : ∀ segment ∈ Path.names .posix "!(?x)[a-c]*(b)".toList,
      ¬GlobMeaning.IsGlobstar {} segment := by
    rintro _ isName ⟨_, rfl⟩
    revert isName
    decide
  have inside : ∀ segment ∈ Path.names .posix "!(?x)[a-c]*(b)".toList,
      segmentCrossings {} segment = 0 := by
    rw [names, List.forall_mem_singleton]
    have shape : Shape.ofSegment {} "!(?x)[a-c]*(b)".toList =
        .seq (.seq (.seq .empty (.group .noneOf (.seq (.seq .empty .anyChar) (.char 'x'))))
          (.bracket ⟨false, [.char 'a' .bare, .dash, .char 'c' .bare]⟩ false))
            (.group .zeroOrMore (.seq .empty (.char 'b'))) := rfl
    have accepted : CharClass.acceptsSeparator {}
        ⟨false, [.char 'a' .bare, .dash, .char 'c' .bare]⟩ = false := rfl
    rw [segmentCrossings, shape]
    simp [Shape.crossings, GroupKind.crossings, accepted]
  have compiled : compile {} "!(?x)[a-c]*(b)" = .ok ⟨{}, globPattern {} "!(?x)[a-c]*(b)", rfl⟩ := rfl
  have matched : Matcher.isMatch ⟨{}, globPattern {} "!(?x)[a-c]*(b)", rfl⟩ "abb" .standard = true := by
    decide +kernel
  have bound := (length_names_le_of_isMatch compiled noGlobstar matched).2 inside
  exact ⟨_, compiled, matched,
    fun segment isName => ⟨noGlobstar segment isName, inside segment isName⟩, bound.1, bound.2 rfl⟩

/-- A `?` takes a separator. -/
theorem anyChar_matches_separator :
    ∃ matcher, compile {} "a?b" = .ok matcher ∧ matcher.isMatch "a/b" .standard = true ∧
      (∀ segment ∈ Path.names .posix "a?b".toList, ¬GlobMeaning.IsGlobstar {} segment) ∧
      (Path.names .posix "a/b".toList).length = 2 ∧ (Path.names .posix "a?b".toList).length = 1 := by
  refine ⟨_, rfl, by decide +kernel, ?_, rfl, rfl⟩
  rintro _ isName ⟨_, rfl⟩
  revert isName
  decide

end Matcher

end PathGlob
