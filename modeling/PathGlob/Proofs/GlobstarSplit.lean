import PathGlob.Proofs.GlobstarOption
import PathGlob.Proofs.LookAhead
import PathGlob.Proofs.NameMatching

/-! # What a globstar stands for

A globstar between two globs takes whole segments of a path. So a path that is matched falls into two
texts where the globstar ends: what the front matches with a globstar at its end, and what the back
matches. The converse needs a front without groups `!(…)`, so that it takes the same whatever comes
after what it takes.

What stands before the back ends with a separator, except that it may be empty if nothing but
globstars stands before the back.
-/

namespace PathGlob

namespace GlobMeaning

variable {options : Options} {segment text tail path rest : List Char} {front back : List (List Char)}

private theorem areDirectories_iff {platform : Platform} :
    AreDirectories platform text ↔ text = [] ∨ text.getLast?.any platform.isSeparator = true := by
  unfold AreDirectories
  cases last : text.getLast? with
  | none => simp [List.getLast?_eq_none_iff.mp last]
  | some c =>
    have nonempty : text ≠ [] := by
      rintro rfl
      cases last
    simp [nonempty]

theorem AreDirectories.append {platform : Platform} {directories others : List Char}
    (first : AreDirectories platform directories) (second : AreDirectories platform others) :
    AreDirectories platform (directories ++ others) := by
  intro c isLast
  by_cases empty : others = []
  · rw [empty, List.append_nil] at isLast
    exact first c isLast
  · rw [List.getLast?_append_of_ne_nil _ empty] at isLast
    exact second c isLast

theorem AreDirectories.suffix {platform : Platform} {directories : List Char}
    (whole : AreDirectories platform directories) (suffix : rest <:+ directories) :
    AreDirectories platform rest := by
  obtain ⟨front, rfl⟩ := suffix
  intro c isLast
  refine whole c ?_
  rwa [List.getLast?_append_of_ne_nil _ (List.ne_nil_of_mem (List.mem_of_getLast? isLast))]

variable (options) in
/-- A segment takes characters off the front of a path together with separators after them; a
globstar brings these along. -/
def DirectoryTakes (segment path rest : List Char) : Prop :=
  (IsGlobstar options segment ∧ ∃ directories, path = directories ++ rest ∧
    AreDirectories options.platform directories) ∨
  (¬IsGlobstar options segment ∧ ∃ separators, SegmentTakes options segment path (separators ++ rest) ∧
    separators ≠ [] ∧ ∀ c ∈ separators, options.platform.isSeparator c = true)

variable (options) in
/-- Segments one after the other, each with separators after it, take characters off the front of a
path. -/
def DirectoriesTake : List (List Char) → List Char → List Char → Prop
  | [] => fun path rest => rest = path
  | segment :: others => fun path rest =>
    ∃ middle, DirectoryTakes options segment path middle ∧ DirectoriesTake others middle rest

/-- Segments with further ones behind them. -/
theorem segmentsMatch_append_iff (more : back ≠ []) :
    SegmentsMatch options (front ++ back) path ↔
      ∃ rest, DirectoriesTake options front path rest ∧ SegmentsMatch options back rest := by
  induction front generalizing path with
  | nil => simp only [List.nil_append, DirectoriesTake, exists_eq_left]
  | cons segment others ih =>
    obtain ⟨next, following, split⟩ :=
      List.exists_cons_of_ne_nil (List.append_ne_nil_of_right_ne_nil others more)
    have unfolded : SegmentsMatch options (segment :: others ++ back) path ↔
        ∃ middle, DirectoryTakes options segment path middle ∧
          SegmentsMatch options (others ++ back) middle := by
      rw [List.cons_append, split, SegmentsMatch]
      constructor
      · rintro (⟨isGlobstar, directories, rest, rfl, whole, matched⟩ |
          ⟨isShape, separators, rest, taken, parted, separate, matched⟩)
        · exact ⟨rest, .inl ⟨isGlobstar, directories, rfl, whole⟩, matched⟩
        · exact ⟨rest, .inr ⟨isShape, separators, taken, parted, separate⟩, matched⟩
      · rintro ⟨rest, ⟨isGlobstar, directories, rfl, whole⟩ |
          ⟨isShape, separators, taken, parted, separate⟩, matched⟩
        · exact .inl ⟨isGlobstar, directories, rest, rfl, whole, matched⟩
        · exact .inr ⟨isShape, separators, rest, taken, parted, separate, matched⟩
    rw [unfolded]
    simp only [ih, DirectoriesTake]
    constructor
    · rintro ⟨middle, taken, rest, others, matched⟩
      exact ⟨rest, ⟨middle, taken, others⟩, matched⟩
    · rintro ⟨rest, ⟨middle, taken, others⟩, matched⟩
      exact ⟨middle, taken, rest, others, matched⟩

/-- What a segment takes together with separators is whole segments of the path. -/
theorem DirectoryTakes.exists_directories (taken : DirectoryTakes options segment path rest) :
    ∃ directories, path = directories ++ rest ∧ AreDirectories options.platform directories := by
  obtain ⟨_, directories⟩ | ⟨_, separators, taken, parted, separate⟩ := taken
  · exact directories
  · obtain ⟨name, rfl⟩ := taken.suffix
    exact ⟨name ++ separators, by simp, areDirectories_append name parted separate⟩

theorem DirectoriesTake.exists_directories (taken : DirectoriesTake options front path rest) :
    ∃ directories, path = directories ++ rest ∧ AreDirectories options.platform directories := by
  induction front generalizing path with
  | nil =>
    obtain rfl : rest = path := taken
    exact ⟨[], rfl, by simp [AreDirectories]⟩
  | cons segment others ih =>
    obtain ⟨middle, first, following⟩ := taken
    obtain ⟨directories, rfl, whole⟩ := first.exists_directories
    obtain ⟨further, rfl, wholeFurther⟩ := ih following
    exact ⟨directories ++ further, by simp, whole.append wholeFurther⟩

/-- Only globstars take nothing at all. -/
theorem DirectoriesTake.isGlobstar (taken : DirectoriesTake options front [] rest) :
    ∀ segment ∈ front, IsGlobstar options segment := by
  induction front with
  | nil => simp
  | cons segment others ih =>
    obtain ⟨middle, first, following⟩ := taken
    obtain ⟨directories, empty, _⟩ := first.exists_directories
    obtain ⟨_, rfl⟩ := List.append_eq_nil_iff.mp empty.symm
    refine List.forall_mem_cons.mpr ⟨?_, ih following⟩
    obtain ⟨isGlobstar, _⟩ | ⟨_, separators, taken, parted, _⟩ := first
    · exact isGlobstar
    · have suffix := taken.suffix
      rw [List.append_nil, List.suffix_nil] at suffix
      exact absurd suffix parted

/-- Alone, a globstar matches every path. -/
theorem segmentsMatch_globstar_alone {segment : List Char} (isGlobstar : IsGlobstar options segment)
    (path : List Char) : SegmentsMatch options [segment] path := by
  obtain ⟨directories, name, split, whole, isName⟩ := exists_directories options.platform path
  exact .inl ⟨isGlobstar, directories, name, split, whole, isName⟩

section Plain

variable (plain : ∀ segment ∈ front, (Shape.ofSegment options segment).looksAhead = false)

include plain

private theorem directoriesTake_append_right_iff :
    DirectoriesTake options front (text ++ tail) (rest ++ tail) ↔
      DirectoriesTake options front text rest := by
  induction front generalizing text with
  | nil => exact List.append_left_inj tail
  | cons segment others ih =>
    obtain ⟨first, following⟩ := List.forall_mem_cons.mp plain
    have once (middle : List Char) :
        DirectoryTakes options segment (text ++ tail) (middle ++ tail) ↔
          DirectoryTakes options segment text middle := by
      simp only [DirectoryTakes, ← List.append_assoc, List.append_left_inj,
        segmentTakes_append_right_iff first]
    simp only [DirectoriesTake]
    constructor
    · rintro ⟨middle, taken, others⟩
      obtain ⟨directories, rfl, _⟩ := others.exists_directories
      rw [← List.append_assoc] at taken others
      exact ⟨directories ++ rest, (once _).mp taken, (ih following).mp others⟩
    · rintro ⟨middle, taken, others⟩
      exact ⟨middle ++ tail, (once _).mpr taken, (ih following).mpr others⟩

/-- Where the globstar ends, the path falls into what is matched with a globstar at the end and what
the segments behind match. -/
theorem segmentsMatch_globstar_iff (globstar : options.globstar = true) (more : back ≠ []) :
    SegmentsMatch options (front ++ ['*', '*'] :: back) path ↔
      ∃ before after, path = before ++ after ∧ AreDirectories options.platform before ∧
        SegmentsMatch options (front ++ [['*', '*']]) before ∧ SegmentsMatch options back after := by
  have isGlobstar : IsGlobstar options ['*', '*'] := ⟨globstar, rfl⟩
  rw [segmentsMatch_append_iff (List.cons_ne_nil _ back)]
  constructor
  · rintro ⟨rest, taken, matched⟩
    rw [← List.singleton_append, segmentsMatch_append_iff more] at matched
    obtain ⟨after, ⟨_, globstarTaken, rfl⟩, matched⟩ := matched
    obtain ⟨directories, rfl, whole⟩ := globstarTaken.exists_directories
    obtain ⟨earlier, rfl, wholeEarlier⟩ := taken.exists_directories
    refine ⟨earlier ++ directories, _, by simp, wholeEarlier.append whole, ?_, matched⟩
    rw [segmentsMatch_append_iff (List.cons_ne_nil _ [])]
    rw [← List.append_assoc, directoriesTake_append_right_iff plain] at taken
    exact ⟨directories, taken, .inl ⟨isGlobstar, directories, [], by simp, whole, by simp⟩⟩
  · rintro ⟨before, after, rfl, whole, matched, behind⟩
    rw [segmentsMatch_append_iff (List.cons_ne_nil _ [])] at matched
    obtain ⟨rest, taken, _⟩ := matched
    -- All that the front leaves before the back ends with a separator, so the globstar takes it.
    obtain ⟨directories, rfl, _⟩ := taken.exists_directories
    have wholeRest := whole.suffix (List.suffix_append directories rest)
    refine ⟨rest ++ after, (directoriesTake_append_right_iff plain).mpr taken, ?_⟩
    rw [← List.singleton_append, segmentsMatch_append_iff more]
    exact ⟨after, ⟨after, .inl ⟨isGlobstar, rest, rfl, wholeRest⟩, rfl⟩, behind⟩

end Plain

variable (platform : Platform) in
/-- The names of a glob, behind an empty segment if the glob starts with a separator. -/
def placedNames (glob : List Char) : List (List Char) :=
  if glob.head?.any platform.isSeparator then [] :: Path.names platform glob
  else Path.names platform glob

/-- A glob with names matches the paths that its names match from where the glob starts. -/
theorem matches_iff_placedNames {glob : List Char} (named : Path.names options.platform glob ≠ []) :
    Matches options glob path ↔ SegmentsMatch options (placedNames options.platform glob) path := by
  rcases glob with _ | ⟨c, glob⟩
  · exact absurd rfl named
  obtain ⟨sameNames, sameHead⟩ := withoutTrailing_spec options.platform (c :: glob)
  rcases withoutTrailing_cases options.platform c glob with ⟨alone, separates⟩ | ends
  · rw [← sameNames, alone, Path.names_cons_separator separates] at named
    exact absurd rfl named
  · have nonempty : withoutTrailing options.platform (c :: glob) ≠ [] := List.cons_ne_nil _ _
    rw [Matches, segments_eq_names nonempty ends, sameNames, sameHead, placedNames]
    exact and_iff_right (List.cons_ne_nil c glob)

/-- Names behind a separator come after those before it. -/
theorem placedNames_append {platform : Platform} (front back : List Char) {s : Char}
    (separates : platform.isSeparator s = true) :
    placedNames platform (front ++ s :: back) =
      placedNames platform (front ++ [s]) ++ Path.names platform back := by
  have sameHead : (front ++ s :: back).head? = (front ++ [s]).head? := by cases front <;> rfl
  have behind : Path.names platform [s] = [] := Path.names_cons_separator separates []
  rw [placedNames, placedNames, sameHead, Path.names_append_separator front separates,
    Path.names_append_separator front separates, Path.names_nil, List.append_nil]
  split
  · rfl
  · rfl

/-- Only globstars stand in a glob. -/
def OnlyGlobstars (platform : Platform) (glob : List Char) : Prop :=
  glob ≠ [] ∧ glob.head?.any platform.isSeparator = false ∧
    ∀ name ∈ Path.names platform glob, name = ['*', '*']

theorem placedNames_of_unrooted {platform : Platform} {glob : List Char}
    (unrooted : glob.head?.any platform.isSeparator = false) :
    placedNames platform glob = Path.names platform glob := by
  rw [placedNames, unrooted]
  exact if_neg Bool.false_ne_true

/-- The placed names are the names, and the empty segment in front if there is one. -/
theorem forall_mem_placedNames_iff {platform : Platform} {glob : List Char}
    {holds : List Char → Prop} :
    (∀ segment ∈ placedNames platform glob, holds segment) ↔
      (glob.head?.any platform.isSeparator = true → holds []) ∧
        ∀ name ∈ Path.names platform glob, holds name := by
  rw [placedNames]
  split
  · next rooted => rw [List.forall_mem_cons, imp_iff_right rooted]
  · next unrooted => exact (and_iff_right fun rooted => absurd rooted unrooted).symm

theorem flatten_placedNames (platform : Platform) (glob : List Char) :
    (placedNames platform glob).flatten = (Path.names platform glob).flatten := by
  rw [placedNames]
  split
  · rfl
  · rfl

/-- A separator behind a glob adds no name, but an empty segment if the glob is empty. -/
theorem forall_mem_placedNames_concat_iff {glob : List Char} {s : Char}
    (separates : options.platform.isSeparator s = true) {holds : List Char → Prop} :
    (∀ segment ∈ placedNames options.platform (glob ++ [s]), holds segment) ↔
      ((glob = [] ∨ glob.head?.any options.platform.isSeparator = true) → holds []) ∧
        ∀ name ∈ Path.names options.platform glob, holds name := by
  have rooted : (glob ++ [s]).head?.any options.platform.isSeparator = true ↔
      glob = [] ∨ glob.head?.any options.platform.isSeparator = true := by
    cases glob with
    | nil => simp [separates]
    | cons c rest => simp
  rw [forall_mem_placedNames_iff, rooted,
    Path.names_append_separators glob (List.forall_mem_singleton.mpr separates)]

/-- If nothing is matched before a globstar at the end, only globstars stand there. -/
theorem onlyGlobstars_of_segmentsMatch_nil {glob : List Char} {s : Char}
    (separates : options.platform.isSeparator s = true)
    (matched : SegmentsMatch options
      (placedNames options.platform (glob ++ [s]) ++ [['*', '*']]) []) :
    OnlyGlobstars options.platform glob := by
  rw [segmentsMatch_append_iff (List.cons_ne_nil _ [])] at matched
  obtain ⟨rest, taken, _⟩ := matched
  obtain ⟨notPlaced, named⟩ := (forall_mem_placedNames_concat_iff separates).mp taken.isGlobstar
  have unplaced := not_or.mp fun placed => not_isGlobstar_nil (notPlaced placed)
  refine ⟨unplaced.1, Bool.eq_false_iff.mpr unplaced.2, ?_⟩
  intro name isName
  exact (named name isName).2

section Globs

variable (platform : Platform) (front back : String)

theorem isSeparator_slash : platform.isSeparator '/' = true := by
  cases platform <;> rfl

theorem not_isSeparator_star : platform.isSeparator '*' = false := by
  cases platform <;> rfl

theorem names_stars : Path.names platform ['*', '*'] = [['*', '*']] := by
  cases platform <;> rfl

/-- The names of a globstar and a back. -/
theorem names_stars_append (text : List Char) :
    Path.names platform ('*' :: '*' :: '/' :: text) = ['*', '*'] :: Path.names platform text :=
  (Path.names_append_separator ['*', '*'] (isSeparator_slash platform) text).trans
    (congrArg (· ++ _) (names_stars platform))

private theorem placedNames_globstar_last :
    placedNames platform (front ++ "/**").toList =
      placedNames platform (front.toList ++ ['/']) ++ [['*', '*']] := by
  rw [String.toList_append, ← names_stars platform]
  exact placedNames_append front.toList ['*', '*'] (isSeparator_slash platform)

private theorem placedNames_globstar_between :
    placedNames platform (front ++ "/**/" ++ back).toList =
      placedNames platform (front.toList ++ ['/']) ++
        ['*', '*'] :: Path.names platform back.toList := by
  rw [String.toList_append, String.toList_append, List.append_assoc, ← names_stars_append]
  exact placedNames_append front.toList _ (isSeparator_slash platform)

private theorem placedNames_globstar_first :
    placedNames platform ("**/" ++ back).toList = ['*', '*'] :: Path.names platform back.toList := by
  rw [String.toList_append, ← names_stars_append]
  exact placedNames_of_unrooted (not_isSeparator_star platform)

end Globs

end GlobMeaning

namespace Matcher

open GlobMeaning

variable {options : Options}

theorem isMatch_iff_placedNames {glob : String} {matcher : Matcher}
    (compiled : compile options glob = .ok matcher) {c : Char} (inGlob : c ∈ glob.toList)
    (isName : options.platform.isSeparator c = false) (path : String) (engine : Engine) :
    matcher.isMatch path engine = true ↔ matcher.givesUp path engine = false ∧
      SegmentsMatch options (placedNames options.platform glob.toList) path.toList := by
  rw [isMatch_iff_matches compiled, matches_iff_placedNames (Path.names_ne_nil_of_mem inGlob isName)]

theorem mayMatch_of_placedNames {glob : String} {matcher : Matcher}
    (compiled : compile options glob = .ok matcher) {c : Char} (inGlob : c ∈ glob.toList)
    (isName : options.platform.isSeparator c = false) {path : String}
    (matched : SegmentsMatch options (placedNames options.platform glob.toList) path.toList)
    (engine : Engine) : matcher.MayMatch path engine := by
  refine mayMatch_of_matches compiled ?_ engine
  rwa [matches_iff_placedNames (Path.names_ne_nil_of_mem inGlob isName)]

/-- A path falls into whole segments and further characters, as strings or as lists of characters. -/
theorem exists_directories_iff {platform : Platform} {path : String} {first second : List Char → Prop} :
    (∃ before after, path.toList = before ++ after ∧ AreDirectories platform before ∧
        first before ∧ second after) ↔
      ∃ u v : String, path = u ++ v ∧ (u = "" ∨ u.toList.getLast?.any platform.isSeparator = true) ∧
        first u.toList ∧ second v.toList := by
  constructor
  · rintro ⟨before, after, split, whole, firstHolds, secondHolds⟩
    refine ⟨String.ofList before, String.ofList after, ?_, ?_, ?_, ?_⟩
    · exact String.toList_injective (by simpa using split)
    · rcases areDirectories_iff.mp whole with rfl | ends
      · exact .inl rfl
      · exact .inr (by rwa [String.toList_ofList])
    · rwa [String.toList_ofList]
    · rwa [String.toList_ofList]
  · rintro ⟨u, v, rfl, ends, firstHolds, secondHolds⟩
    have whole : AreDirectories platform u.toList :=
      areDirectories_iff.mpr (ends.imp_left (by rintro rfl; rfl))
    exact ⟨u.toList, v.toList, String.toList_append, whole, firstHolds, secondHolds⟩

private theorem looksAhead_stars (options : Options) :
    (Shape.ofSegment options ['*', '*']).looksAhead = false := by
  obtain ⟨extended, _, _, platform⟩ := options
  cases extended <;> cases platform <;> rfl

section Split

variable {front back : String} (globstar : options.globstar = true)
  (more : Path.names options.platform back.toList ≠ [])

include globstar more

/-- A path falls into what a front with a globstar at its end matches and what a back matches. -/
theorem segmentsMatch_globstar_between_iff
    (plain : ∀ name ∈ Path.names options.platform front.toList,
      (Shape.ofSegment options name).looksAhead = false) (path : String) :
    SegmentsMatch options (placedNames options.platform (front ++ "/**/" ++ back).toList)
        path.toList ↔
      ∃ u v : String, path = u ++ v ∧
        (u.toList.getLast?.any options.platform.isSeparator = true ∨
          u = "" ∧ OnlyGlobstars options.platform front.toList) ∧
        SegmentsMatch options (placedNames options.platform (front ++ "/**").toList) u.toList ∧
        SegmentsMatch options (Path.names options.platform back.toList) v.toList := by
  have plainSegments : ∀ segment ∈ placedNames options.platform (front.toList ++ ['/']),
      (Shape.ofSegment options segment).looksAhead = false :=
    (forall_mem_placedNames_concat_iff (isSeparator_slash _)).mpr ⟨fun _ => rfl, plain⟩
  rw [placedNames_globstar_between, placedNames_globstar_last,
    segmentsMatch_globstar_iff plainSegments globstar more, exists_directories_iff]
  refine exists_congr fun u => exists_congr fun v => and_congr_right fun _ => ?_
  constructor
  · rintro ⟨rfl | ends, matched, behind⟩
    · have only := onlyGlobstars_of_segmentsMatch_nil (isSeparator_slash _) matched
      exact ⟨.inr ⟨rfl, only⟩, matched, behind⟩
    · exact ⟨.inl ends, matched, behind⟩
  · rintro ⟨ends | ⟨rfl, _⟩, matched, behind⟩
    · exact ⟨.inr ends, matched, behind⟩
    · exact ⟨.inl rfl, matched, behind⟩

private theorem segmentsMatch_globstar_first_iff (path : String) :
    SegmentsMatch options (placedNames options.platform ("**/" ++ back).toList) path.toList ↔
      ∃ u v : String, path = u ++ v ∧
        (u = "" ∨ u.toList.getLast?.any options.platform.isSeparator = true) ∧
        SegmentsMatch options (Path.names options.platform back.toList) v.toList := by
  have alone (text : List Char) : SegmentsMatch options ([] ++ [['*', '*']]) text :=
    segmentsMatch_globstar_alone ⟨globstar, rfl⟩ text
  rw [placedNames_globstar_first, ← List.nil_append (_ :: _),
    segmentsMatch_globstar_iff (by simp) globstar more, exists_directories_iff]
  refine exists_congr fun u => exists_congr fun v => and_congr_right fun _ => ?_
  rw [and_iff_right (alone _)]

end Split

/-- A globstar stands for any number of whole segments. Behind a front without groups `!(…)`, a globstar
and a back match exactly the paths that fall into a text that ends with a separator and is matched by
the front with a globstar at its end, and a text that the back matches; the first may be empty if
nothing but globstars stands in front. A globstar and a back match the paths that fall into nothing or
a text that ends with a separator, and a text that the back matches. An engine may give up on the path
or on the text that is left to the back, but it does not on what is left to the front. -/
theorem isMatch_globstar_iff (globstar : options.globstar = true) {back : String}
    {backMatcher : Matcher} (nonempty : back ≠ "")
    (unrooted : back.toList.head?.any options.platform.isSeparator = false)
    (compiledBack : compile options back = .ok backMatcher) (engine : Engine) :
    (∀ (front : String) (frontMatcher matcher : Matcher),
      (∀ name ∈ Path.names options.platform front.toList,
        (Shape.ofSegment options name).looksAhead = false) →
      compile options (front ++ "/**") = .ok frontMatcher →
      compile options (front ++ "/**/" ++ back) = .ok matcher →
      ∀ path : String,
        (matcher.isMatch path engine = true → ∃ u v : String, path = u ++ v ∧
          (u.toList.getLast?.any options.platform.isSeparator = true ∨
            u = "" ∧ OnlyGlobstars options.platform front.toList) ∧
          frontMatcher.isMatch u engine = true ∧ backMatcher.MayMatch v engine) ∧
        ((∃ u v : String, path = u ++ v ∧
            (u.toList.getLast?.any options.platform.isSeparator = true ∨
              u = "" ∧ OnlyGlobstars options.platform front.toList) ∧
            frontMatcher.isMatch u engine = true ∧ backMatcher.isMatch v engine = true) →
          matcher.MayMatch path engine)) ∧
      ∀ matcher, compile options ("**/" ++ back) = .ok matcher →
        ∀ path : String,
          (matcher.isMatch path engine = true → ∃ u v : String, path = u ++ v ∧
            (u = "" ∨ u.toList.getLast?.any options.platform.isSeparator = true) ∧
            backMatcher.MayMatch v engine) ∧
          ((∃ u v : String, path = u ++ v ∧
              (u = "" ∨ u.toList.getLast?.any options.platform.isSeparator = true) ∧
              backMatcher.isMatch v engine = true) →
            matcher.MayMatch path engine) := by
  have star := not_isSeparator_star options.platform
  obtain ⟨c, rest, split⟩ := List.exists_cons_of_ne_nil (by simpa using nonempty : back.toList ≠ [])
  have inBack : c ∈ back.toList := by
    rw [split]
    exact List.mem_cons_self
  have isName : options.platform.isSeparator c = false := by simpa [split] using unrooted
  have more : Path.names options.platform back.toList ≠ [] := Path.names_ne_nil_of_mem inBack isName
  have placedBack := placedNames_of_unrooted unrooted
  have backMatched {v : String} (matched : backMatcher.isMatch v engine = true) :
      SegmentsMatch options (Path.names options.platform back.toList) v.toList :=
    placedBack ▸ ((isMatch_iff_placedNames compiledBack inBack isName v engine).mp matched).2
  have backMay {v : String}
      (matched : SegmentsMatch options (Path.names options.platform back.toList) v.toList) :
      backMatcher.MayMatch v engine :=
    mayMatch_of_placedNames compiledBack inBack isName (placedBack.symm ▸ matched) engine
  constructor
  · intro front frontMatcher matcher plain compiledFront compiled path
    have split := segmentsMatch_globstar_between_iff globstar more plain path
    have frontMatches (u : String) := isMatch_iff_placedNames compiledFront (by simp) star u engine
    have frontPlain : ∀ name ∈ Path.names options.platform (front ++ "/**").toList,
        (Shape.ofSegment options name).looksAhead = false := by
      intro name isName
      have written : (front ++ "/**").toList = front.toList ++ '/' :: ['*', '*'] :=
        String.toList_append
      rw [written, Path.names_append_separator front.toList (isSeparator_slash _), names_stars,
        List.mem_append, List.mem_singleton] at isName
      rcases isName with isName | rfl
      · exact plain name isName
      · exact looksAhead_stars options
    have answered (u : String) :=
      givesUp_eq_false compiledFront (looksAhead_globPattern frontPlain) u engine
    constructor
    · intro matched
      obtain ⟨_, matched⟩ := (isMatch_iff_placedNames compiled (by simp) star path engine).mp matched
      obtain ⟨u, v, cut, ends, before, behind⟩ := split.mp matched
      exact ⟨u, v, cut, ends, (frontMatches u).mpr ⟨answered u, before⟩, backMay behind⟩
    · rintro ⟨u, v, cut, ends, before, behind⟩
      have matched := split.mpr ⟨u, v, cut, ends, ((frontMatches u).mp before).2, backMatched behind⟩
      exact mayMatch_of_placedNames compiled (by simp) star matched engine
  · intro matcher compiled path
    have split := segmentsMatch_globstar_first_iff globstar more path
    constructor
    · intro matched
      obtain ⟨_, matched⟩ := (isMatch_iff_placedNames compiled (by simp) star path engine).mp matched
      obtain ⟨u, v, cut, ends, behind⟩ := split.mp matched
      exact ⟨u, v, cut, ends, backMay behind⟩
    · rintro ⟨u, v, cut, ends, behind⟩
      have matched := split.mpr ⟨u, v, cut, ends, backMatched behind⟩
      exact mayMatch_of_placedNames compiled (by simp) star matched engine

/-- The globstar may take names with empty ones between them. -/
theorem isMatch_globstar_groups :
    "+(c)" ≠ "" ∧ "+(c)".toList.head?.any Platform.posix.isSeparator = false ∧
      (∀ name ∈ Path.names .posix "@(a|b)/?".toList,
        (Shape.ofSegment {} name).looksAhead = false) ∧
      ∃ back front matcher, compile {} "+(c)" = .ok back ∧ compile {} "@(a|b)/?/**" = .ok front ∧
        compile {} "@(a|b)/?/**/+(c)" = .ok matcher ∧
        front.isMatch "a/x/y//" .standard = true ∧ back.isMatch "cc" .standard = true ∧
        matcher.isMatch "a/x/y//cc" .standard = true := by
  have unrooted : "+(c)".toList.head?.any Platform.posix.isSeparator = false := by decide
  have plain : ∀ name ∈ Path.names .posix "@(a|b)/?".toList,
      (Shape.ofSegment {} name).looksAhead = false := by decide
  have compiledBack : compile {} "+(c)" = .ok ⟨{}, globPattern {} "+(c)", rfl⟩ := rfl
  have compiledFront : compile {} "@(a|b)/?/**" = .ok ⟨{}, globPattern {} "@(a|b)/?/**", rfl⟩ := rfl
  have compiled : compile {} "@(a|b)/?/**/+(c)" =
      .ok ⟨{}, globPattern {} "@(a|b)/?/**/+(c)", rfl⟩ := rfl
  have frontMatches : Matcher.isMatch ⟨{}, globPattern {} "@(a|b)/?/**", rfl⟩ "a/x/y//" .standard =
      true := by
    decide +kernel
  have backMatches : Matcher.isMatch ⟨{}, globPattern {} "+(c)", rfl⟩ "cc" .standard = true := by
    decide +kernel
  have split := (isMatch_globstar_iff rfl (by decide) unrooted compiledBack .standard).1 "@(a|b)/?"
    _ _ plain compiledFront compiled "a/x/y//cc"
  have matched := split.2 ⟨"a/x/y//", "cc", rfl, .inl rfl, frontMatches, backMatches⟩
  have answered : Matcher.givesUp ⟨{}, globPattern {} "@(a|b)/?/**/+(c)", rfl⟩ "a/x/y//cc" .standard ≠
      true := by
    decide +kernel
  exact ⟨by decide, unrooted, plain, _, _, _, compiledBack, compiledFront, compiled, frontMatches,
    backMatches, matched.resolve_right answered⟩

/-- A globstar in front of a globstar need not take a separator. -/
theorem isMatch_globstar_twice :
    ∃ back front matcher, compile {} "b" = .ok back ∧ compile {} "**/**" = .ok front ∧
      compile {} "**/**/b" = .ok matcher ∧ matcher.isMatch "b" .standard = true ∧
      ¬∃ u v : String, "b" = u ++ v ∧ u.toList.getLast?.any Platform.posix.isSeparator = true ∧
        front.isMatch u .standard = true ∧ back.isMatch v .standard = true := by
  refine ⟨⟨{}, globPattern {} "b", rfl⟩, ⟨{}, globPattern {} "**/**", rfl⟩,
    ⟨{}, globPattern {} "**/**/b", rfl⟩, rfl, rfl, rfl, by decide +kernel, ?_⟩
  rintro ⟨u, v, split, ends, -, -⟩
  have letters : ['b'] = u.toList ++ v.toList := by
    rw [← String.toList_append, ← split]
    rfl
  rcases List.singleton_eq_append_iff.mp letters with ⟨empty, -⟩ | ⟨alone, -⟩
  · rw [empty] at ends
    cases ends
  · rw [alone] at ends
    cases ends

end Matcher

end PathGlob
