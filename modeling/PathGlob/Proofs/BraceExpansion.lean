import PathGlob.Proofs.NamesAround
import PathGlob.Proofs.SearchTallies
import PathGlob.Proofs.TextBehind

/-! # Braces and their expansions

A brace of words can be expanded: a glob with the brace matches what one of the globs matches that
have one of the words in its place (`Matcher.isMatch_brace_iff`). The brace has to be read as a group
of its segment. Neither a brace nor a word means anything to what stands in front of it, so the rest of
the segment is read in the same way in all of these globs.
-/

namespace PathGlob

/-- A brace with words as its alternatives. -/
def bracedWords (words : List String) : String :=
  "\x7b" ++ ",".intercalate words ++ "\x7d"

/-- The same as a list of characters. -/
def braceText (words : List (List Char)) : List Char :=
  '{' :: (List.intercalate [','] words ++ ['}'])

private theorem toList_bracedWords (words : List String) :
    (bracedWords words).toList = braceText (words.map String.toList) := by
  simp [bracedWords, braceText, String.toList_intercalate]

private theorem braceText_ne_nil (words : List (List Char)) : braceText words ≠ [] :=
  List.cons_ne_nil _ _

private theorem not_isSeparator_of_mem_braceText {words : List (List Char)}
    (isWord : ∀ word ∈ words, ∀ c ∈ word, IsWordChar c) (platform : Platform) :
    ∀ c ∈ braceText words, platform.isSeparator c = false := by
  have marks : platform.isSeparator '{' = false ∧ platform.isSeparator ',' = false ∧
      platform.isSeparator '}' = false := by
    cases platform <;> exact ⟨rfl, rfl, rfl⟩
  have content : ∀ c ∈ List.intercalate [','] words, platform.isSeparator c = false := by
    induction words with
    | nil => simp
    | cons word words ih =>
      obtain ⟨first, others⟩ := List.forall_mem_cons.mp isWord
      have plain : ∀ c ∈ word, platform.isSeparator c = false :=
        fun c inWord => (first c inWord).not_isSeparator platform
      cases words with
      | nil => rwa [List.intercalate_singleton]
      | cons next words =>
        rw [List.intercalate_cons_cons, List.forall_mem_append, List.forall_mem_append]
        exact ⟨⟨plain, by simp [marks]⟩, ih others⟩
  rw [braceText, List.forall_mem_cons, List.forall_mem_append]
  exact ⟨marks.1, content, by simp [marks]⟩

namespace GlobGrammar

variable {options : Options} {inside : Option GroupKind} {text rest : List Char}
variable {words : List (List Char)}

/-- Word characters in front of alternatives belong to the first of them. -/
theorem Reads.word {word : List Char} {branch : List GlobItem} {others : List (List GlobItem)}
    (isWord : ∀ c ∈ word, IsWordChar c)
    (following : Reads options inside text (branch :: others) rest) :
    Reads options inside (word ++ text) ((word.map .char ++ branch) :: others) rest := by
  induction word with
  | nil => exact following
  | cons c word ih =>
    obtain ⟨first, more⟩ := List.forall_mem_cons.mp isWord
    exact .single (.word first _) (ih more)

variable (options) in
/-- Words with commas between them are the alternatives of a brace. -/
theorem Reads.intercalate (nonempty : words ≠ []) (isWord : ∀ word ∈ words, ∀ c ∈ word, IsWordChar c)
    (rest : List Char) :
    Reads options (some .brace) (List.intercalate [','] words ++ '}' :: rest)
      (words.map (List.map .char)) rest := by
  induction words with
  | nil => exact absurd rfl nonempty
  | cons word words ih =>
    obtain ⟨first, others⟩ := List.forall_mem_cons.mp isWord
    cases words with
    | nil => simpa [List.intercalate_singleton, GroupKind.closer] using
        Reads.word first (.close .brace rest)
    | cons next words =>
      have parted := Reads.word first (.part (ih (List.cons_ne_nil _ _) others))
      simpa [List.intercalate_cons_cons, GroupKind.bar] using parted

variable (options) in
private theorem exists_front_brace (nonempty : words ≠ [])
    (isWord : ∀ word ∈ words, ∀ c ∈ word, IsWordChar c)
    (rest : List Char) :
    ∃ first alternatives, words.map (List.map .char) = first :: alternatives ∧
      Front options (braceText words ++ rest) [.group .brace first alternatives] rest := by
  have content := Reads.intercalate options nonempty isWord rest
  obtain ⟨word, others, rfl⟩ := List.exists_cons_of_ne_nil nonempty
  refine ⟨_, _, List.map_cons, ?_⟩
  rw [braceText, List.cons_append, List.append_assoc]
  exact .group (.brace _) content (.nil rest)

private theorem isNeutral_word {word : List Char} (nonempty : word ≠ [])
    (isWord : ∀ c ∈ word, IsWordChar c)
    (rest : List Char) : IsNeutral (word ++ rest) := by
  obtain ⟨c, word, rfl⟩ := List.exists_cons_of_ne_nil nonempty
  have isFirst := isWord c List.mem_cons_self
  intro mark isMark starts
  obtain rfl : c = mark := Option.some.inj starts
  simp only [List.mem_cons, List.not_mem_nil, or_false] at isMark
  rcases isMark with rfl | rfl | rfl
  · exact absurd isFirst (by decide)
  · exact absurd isFirst (by decide)
  · exact absurd isFirst (by decide)

private theorem isNeutral_braceText (words : List (List Char)) (rest : List Char) :
    IsNeutral (braceText words ++ rest) := by
  simp [IsNeutral, braceText]

end GlobGrammar

namespace GlobMeaning

open GlobGrammar

variable {options : Options} {words : List (List Char)} {front back : List Char}
  {items : List GlobItem}

section Segment

variable (nonempty : words ≠ [])
  (isWord : ∀ word ∈ words, word ≠ [] ∧ ∀ c ∈ word, IsWordChar c)
  (outside : Front options (front ++ (braceText words ++ back)) items (braceText words ++ back))

include nonempty isWord outside

/-- With a word in place of the brace, the same items stand in front of it and behind it. -/
theorem exists_fronts :
    ∃ first alternatives, words.map (List.map .char) = first :: alternatives ∧
      Front options (front ++ (braceText words ++ back))
        (items ++ [.group .brace first alternatives]) back ∧
      ∀ word ∈ words, Front options (front ++ (word ++ back)) (items ++ word.map .char) back := by
  obtain ⟨first, alternatives, same, brace⟩ :=
    exists_front_brace options nonempty (fun word inWords => (isWord word inWords).2) back
  refine ⟨first, alternatives, same, outside.append brace, fun word inWords => ?_⟩
  obtain ⟨before, written, anywhere⟩ := outside.readsAnywhere
  obtain rfl : front = before := List.append_cancel_right written
  obtain ⟨some, isWord⟩ := isWord word inWords
  have neutral := SameAhead.of_isNeutral (isNeutral_braceText words back) (isNeutral_word some isWord back)
  exact (anywhere _ neutral).append (.word isWord back)

/-- A segment with a brace takes what one of the segments takes that have a word in its place. -/
theorem segmentTakes_brace_iff
    (complete : ∃ items, IsSegment options (front ++ (braceText words ++ back)) items)
    {path rest : List Char} :
    SegmentTakes options (front ++ (braceText words ++ back)) path rest ↔
      ∃ word ∈ words, SegmentTakes options (front ++ (word ++ back)) path rest := by
  obtain ⟨first, alternatives, same, brace, word⟩ := exists_fronts nonempty isWord outside
  have behind := brace.exists_isSegment_iff.mp complete
  have eachWord : ∀ text ∈ words, (SegmentTakes options (front ++ (text ++ back)) path rest ↔ _) :=
    fun text inWords => (word text inWords).segmentTakes_iff
      ((word text inWords).exists_isSegment_iff.mpr behind)
  have alternativesTake (start middle : List Char) :
      GlobItem.BranchTakes options [.group .brace first alternatives] start middle ↔
        ∃ text ∈ words, GlobItem.BranchTakes options (text.map .char) start middle := by
    have content : GlobItem.BranchTakes options [.group .brace first alternatives] start middle ↔
        GlobItem.AlternativesTake options (words.map (List.map .char)) start middle := by
      simp [same, GlobItem.BranchTakes, GlobItem.Takes, GroupKind.Takes, GlobItem.AlternativesTake]
    rw [content, GlobItem.alternativesTake_iff]
    simp only [List.mem_map, exists_exists_and_eq_and]
  rw [brace.segmentTakes_iff complete, exists_congr fun text => and_congr_right (eachWord text)]
  simp only [GlobItem.branchTakes_append, alternativesTake]
  constructor
  · rintro ⟨middle, ⟨start, taken, text, inWords, inner⟩, following⟩
    exact ⟨text, inWords, middle, ⟨start, taken, inner⟩, following⟩
  · rintro ⟨text, inWords, middle, ⟨start, taken, inner⟩, following⟩
    exact ⟨middle, ⟨start, taken, text, inWords, inner⟩, following⟩

/-- A segment with a word in place of the brace is not refused if the one with the brace is not. -/
theorem isAccepted_word
    (complete : ∃ items, IsSegment options (front ++ (braceText words ++ back)) items)
    (accepted : ((Shape.ofSegment options (front ++ (braceText words ++ back))).pattern
      options.platform).isAccepted = true) {text : List Char} (inWords : text ∈ words) :
    ((Shape.ofSegment options (front ++ (text ++ back))).pattern options.platform).isAccepted =
      true := by
  obtain ⟨first, alternatives, -, brace, word⟩ := exists_fronts nonempty isWord outside
  obtain ⟨following, isSegment⟩ := brace.exists_isSegment_iff.mp complete
  obtain ⟨depths, voids⟩ := (isAccepted_ofSegment_iff _).mp accepted _ (brace.isSegment isSegment)
  rw [GlobItem.branchDepth_le_iff] at depths
  rw [((word text inWords).isSegment isSegment).pattern_ofSegment,
    GlobItem.isAccepted_branchPattern_iff, GlobItem.branchDepth_le_iff]
  simp only [List.forall_mem_append, List.forall_mem_map] at depths voids ⊢
  refine ⟨⟨⟨depths.1.1, fun _ _ => Nat.zero_le _⟩, depths.2⟩, ⟨voids.1.1, ?_⟩, voids.2⟩
  rintro c - ⟨⟩

end Segment

section Glob

variable (nonempty : words ≠ [])
  (isWord : ∀ word ∈ words, word ≠ [] ∧ ∀ c ∈ word, IsWordChar c)
  (outside : Front options
    (Path.lastPart options.platform front ++
      (braceText words ++ Path.firstPart options.platform back)) items
    (braceText words ++ Path.firstPart options.platform back))
  (complete : ∃ items, IsSegment options
    (Path.lastPart options.platform front ++
      (braceText words ++ Path.firstPart options.platform back)) items)

include nonempty isWord outside complete

/-- With a word in place of the brace, no name of a glob is refused. -/
theorem isAccepted_names_word
    (accepted : ∀ name ∈ Path.names options.platform (front ++ (braceText words ++ back)),
      ((Shape.ofSegment options name).pattern options.platform).isAccepted = true)
    {text : List Char} (inWords : text ∈ words) :
    ∀ name ∈ Path.names options.platform (front ++ (text ++ back)),
      ((Shape.ofSegment options name).pattern options.platform).isAccepted = true := by
  obtain ⟨some, isText⟩ := isWord text inWords
  have whole : ∀ c ∈ text, options.platform.isSeparator c = false :=
    fun c inText => (isText c inText).not_isSeparator options.platform
  have wholeBrace := not_isSeparator_of_mem_braceText (fun word inWords => (isWord word inWords).2)
    options.platform
  rw [Path.names_around (braceText_ne_nil words) wholeBrace, List.forall_mem_append,
    List.forall_mem_cons] at accepted
  rw [Path.names_around some whole, List.forall_mem_append, List.forall_mem_cons]
  exact ⟨accepted.1, isAccepted_word nonempty isWord outside complete accepted.2.1 inWords,
    accepted.2.2⟩

private theorem segmentsMatch_brace_iff {path : List Char} :
    SegmentsMatch options (placedNames options.platform (front ++ (braceText words ++ back))) path ↔
      ∃ text ∈ words,
        SegmentsMatch options (placedNames options.platform (front ++ (text ++ back))) path := by
  have wholeBrace := not_isSeparator_of_mem_braceText (fun word inWords => (isWord word inWords).2)
    options.platform
  have isBrace : ¬IsGlobstar options (Path.lastPart options.platform front ++
      (braceText words ++ Path.firstPart options.platform back)) :=
    not_isGlobstar_of_mem (c := '{') (by simp [braceText]) (by decide)
  have areWords : ∀ text ∈ words, ¬IsGlobstar options (Path.lastPart options.platform front ++
      (text ++ Path.firstPart options.platform back)) := by
    intro text inWords
    obtain ⟨some, isText⟩ := isWord text inWords
    obtain ⟨c, text, rfl⟩ := List.exists_cons_of_ne_nil some
    exact not_isGlobstar_of_mem (c := c) (by simp) ((isText c List.mem_cons_self).ne (by decide))
  rw [placedNames_around (braceText_ne_nil words) wholeBrace, segmentsMatch_iff_exists isBrace areWords
    fun _ _ => segmentTakes_brace_iff nonempty isWord outside complete]
  refine exists_congr fun text => and_congr_right fun inWords => ?_
  obtain ⟨some, isText⟩ := isWord text inWords
  rw [placedNames_around some fun c inText => (isText c inText).not_isSeparator options.platform]

end Glob

end GlobMeaning

namespace Matcher

open GlobGrammar GlobMeaning

/-- Braces match the union of their expansions: where a brace of words is read as a group of its segment,
every glob with one of the words in its place compiles as well, and the glob with the brace matches
exactly the paths that one of these globs matches, as far as the engine does not give up. -/
theorem isMatch_brace_iff (options : Options) (front back : String) {words : List String}
    (nonempty : words ≠ []) (isWord : ∀ word ∈ words, word ≠ "" ∧ ∀ c ∈ word.toList, IsWordChar c)
    (outside : ∃ items, Front options
      (Path.lastPart options.platform front.toList ++
        Path.firstPart options.platform (bracedWords words ++ back).toList)
      items (Path.firstPart options.platform (bracedWords words ++ back).toList))
    (complete : ∃ items, IsSegment options
      (Path.lastPart options.platform front.toList ++
        Path.firstPart options.platform (bracedWords words ++ back).toList) items)
    {matcher : Matcher} (compiled : compile options (front ++ bracedWords words ++ back) = .ok matcher) :
    (∀ word ∈ words, ∃ expansion, compile options (front ++ word ++ back) = .ok expansion) ∧
      ∀ (path : String) (engine : Engine),
        (matcher.isMatch path engine = true → ∃ word ∈ words, ∃ expansion,
          compile options (front ++ word ++ back) = .ok expansion ∧ expansion.MayMatch path engine) ∧
        ((∃ word ∈ words, ∃ expansion, compile options (front ++ word ++ back) = .ok expansion ∧
          expansion.isMatch path engine = true) → matcher.MayMatch path engine) := by
  obtain ⟨items, outside⟩ := outside
  have someTexts : words.map String.toList ≠ [] := by simpa using nonempty
  have areWords : ∀ text ∈ words.map String.toList, text ≠ [] ∧ ∀ c ∈ text, IsWordChar c := by
    simpa using isWord
  have wholeBrace := not_isSeparator_of_mem_braceText (fun text inWords => (areWords text inWords).2)
    options.platform
  rw [String.toList_append, toList_bracedWords, Path.firstPart_append wholeBrace] at outside complete
  have written : (front ++ bracedWords words ++ back).toList =
      front.toList ++ (braceText (words.map String.toList) ++ back.toList) := by
    simp [toList_bracedWords]
  have writtenWord (word : String) :
      (front ++ word ++ back).toList = front.toList ++ (word.toList ++ back.toList) := by simp
  have accepted := exists_compile_iff.mp ⟨matcher, compiled⟩
  rw [written] at accepted
  have compiles : ∀ word ∈ words, ∃ expansion,
      compile options (front ++ word ++ back) = .ok expansion := by
    intro word inWords
    rw [exists_compile_iff, writtenWord]
    exact isAccepted_names_word someTexts areWords outside complete accepted
      (List.mem_map_of_mem inWords)
  refine ⟨compiles, fun path engine => ?_⟩
  have isOpen : options.platform.isSeparator '{' = false := by cases options.platform <;> rfl
  have opens : '{' ∈ (front ++ bracedWords words ++ back).toList := by simp [written, braceText]
  have union : SegmentsMatch options (placedNames options.platform
        (front ++ bracedWords words ++ back).toList) path.toList ↔
      ∃ word ∈ words, SegmentsMatch options (placedNames options.platform
        (front.toList ++ (word.toList ++ back.toList))) path.toList := by
    rw [written, segmentsMatch_brace_iff someTexts areWords outside complete]
    simp only [List.mem_map, exists_exists_and_eq_and]
  have exists_name {word : String} (inWords : word ∈ words) :
      ∃ c ∈ (front ++ word ++ back).toList, options.platform.isSeparator c = false := by
    obtain ⟨some, isText⟩ := isWord word inWords
    obtain ⟨c, text, isFirst⟩ := List.exists_cons_of_ne_nil (by simpa using some : word.toList ≠ [])
    exact ⟨c, by simp [isFirst], (isText c (by simp [isFirst])).not_isSeparator options.platform⟩
  constructor
  · intro matched
    obtain ⟨_, matched⟩ := (isMatch_iff_placedNames compiled opens isOpen path engine).mp matched
    obtain ⟨word, inWords, matched⟩ := union.mp matched
    obtain ⟨expansion, expanded⟩ := compiles word inWords
    obtain ⟨c, inGlob, isName⟩ := exists_name inWords
    rw [← writtenWord] at matched
    exact ⟨word, inWords, expansion, expanded,
      mayMatch_of_placedNames expanded inGlob isName matched engine⟩
  · rintro ⟨word, inWords, expansion, expanded, matched⟩
    obtain ⟨c, inGlob, isName⟩ := exists_name inWords
    obtain ⟨_, matched⟩ := (isMatch_iff_placedNames expanded inGlob isName path engine).mp matched
    rw [writtenWord] at matched
    exact mayMatch_of_placedNames compiled opens isOpen (union.mpr ⟨word, inWords, matched⟩) engine

/-- A check and a star stand in front of a brace, and a globstar behind its segment. -/
theorem isMatch_brace_check :
    Front {} "!(x)*\x7bb,cd\x7d?".toList [.group .noneOf [.char 'x'] [], .anyRun]
        "\x7bb,cd\x7d?".toList ∧
      (∃ items, IsSegment {} "!(x)*\x7bb,cd\x7d?".toList items) ∧
      ∃ matcher expansion, compile {} "a/!(x)*\x7bb,cd\x7d?/**" = .ok matcher ∧
        compile {} "a/!(x)*cd?/**" = .ok expansion ∧ expansion.isMatch "a/yycdz/q" .standard = true ∧
        matcher.isMatch "a/yycdz/q" .standard = true := by
  have check : Reads {} (some .noneOf) "x)*\x7bb,cd\x7d?".toList [[.char 'x']] "*\x7bb,cd\x7d?".toList :=
    .single (.word (by decide) _) (.close .noneOf _)
  have star : Single {} none "*\x7bb,cd\x7d?".toList .anyRun "\x7bb,cd\x7d?".toList :=
    .anyRun 0 _ (by decide) (by rintro _ _ ⟨_, _, _, ⟨⟩⟩)
  have outside : Front {} "!(x)*\x7bb,cd\x7d?".toList [.group .noneOf [.char 'x'] [], .anyRun]
      "\x7bb,cd\x7d?".toList :=
    .group (.extended ⟨'!', rfl, rfl, rfl⟩) check (.single star (.nil _))
  have complete : ∃ items, IsSegment {} "!(x)*\x7bb,cd\x7d?".toList items := by
    have read : Shape.ofSegment? {} "!(x)*\x7bb,cd\x7d?".toList = some _ := rfl
    obtain ⟨items, isSegment, -⟩ := ofSegment?_eq_some_iff.mp read
    exact ⟨items, isSegment⟩
  have areWords : ∀ word ∈ ["b", "cd"], word ≠ "" ∧ ∀ c ∈ word.toList, IsWordChar c := by
    simp [IsWordChar]
  have compiled : compile {} ("a/!(x)*" ++ bracedWords ["b", "cd"] ++ "?/**") =
      .ok ⟨{}, globPattern {} "a/!(x)*\x7bb,cd\x7d?/**", rfl⟩ := rfl
  have expanded : compile {} "a/!(x)*cd?/**" = .ok ⟨{}, globPattern {} "a/!(x)*cd?/**", rfl⟩ := rfl
  have matched : Matcher.isMatch ⟨{}, globPattern {} "a/!(x)*cd?/**", rfl⟩ "a/yycdz/q" .standard =
      true := by
    decide +kernel
  have answered : Matcher.givesUp ⟨{}, globPattern {} "a/!(x)*\x7bb,cd\x7d?/**", rfl⟩ "a/yycdz/q"
      .standard ≠ true := by
    decide +kernel
  have union := isMatch_brace_iff {} "a/!(x)*" "?/**" (by simp) areWords ⟨_, outside⟩ complete compiled
  exact ⟨outside, complete, _, _, compiled, expanded, matched,
    ((union.2 "a/yycdz/q" .standard).2 ⟨"cd", by simp, _, expanded, matched⟩).resolve_right answered⟩

/-- Behind the first word of the brace the group parts the `x` in all ways, because it misses a `d` behind
them, before the second word has its turn. The engine does not get that far. -/
theorem isMatch_brace_stuck :
    ∃ (path : String) (matcher expansion : Matcher),
      path = String.ofList ('a' :: 'y' :: List.replicate 22 'x' ++ ['c']) ∧
      compile {} "\x7ba,ay\x7d?(y*(x*)d)*!(z)" = .ok matcher ∧
      compile {} "ay?(y*(x*)d)*!(z)" = .ok expansion ∧
      expansion.isMatch path .standard = true ∧ matcher.isMatch path .standard = false := by
  have compiled : compile {} "\x7ba,ay\x7d?(y*(x*)d)*!(z)" =
      .ok ⟨{}, globPattern {} "\x7ba,ay\x7d?(y*(x*)d)*!(z)", rfl⟩ := rfl
  have expanded : compile {} "ay?(y*(x*)d)*!(z)" =
      .ok ⟨{}, globPattern {} "ay?(y*(x*)d)*!(z)", rfl⟩ := rfl
  refine ⟨_, _, _, rfl, compiled, expanded, ?_, ?_⟩
  · exact (isMatch_backtracking rfl).trans (by decide +kernel)
  · exact (isMatch_backtracking rfl).trans (by decide +kernel)

end Matcher

end PathGlob
