import Mathlib.Data.List.DropRight
import PathGlob.Proofs.GlobstarSplit

/-! # Names around a place

How a text is cut into names on either side of a place in it. Where separators stand, or the text
ends, the names on both sides are cut on their own; what stands between two such places is a single
name if there are no separators in it (`Path.names_around`). So to put another word in such a place is
to put another segment between the same ones (`GlobMeaning.segmentsMatch_iff_exists`).
-/

namespace PathGlob

namespace Path

open GlobMeaning

variable {platform : Platform} {front word back : List Char}

/-- Names are cut on their own behind a text that ends with a separator. -/
theorem names_append_of_areDirectories (whole : AreDirectories platform front) (back : List Char) :
    names platform (front ++ back) = names platform front ++ names platform back := by
  obtain rfl | ⟨front, s, rfl⟩ := List.eq_nil_or_concat' front
  · rfl
  · have separates : platform.isSeparator s = true := whole s (by simp)
    rw [List.append_assoc, List.singleton_append, names_append_separator front separates,
      names_append_separators front (List.forall_mem_singleton.mpr separates)]

/-- Names are cut on their own in front of a text that starts with a separator. -/
theorem names_append_of_endsName (front : List Char) (ends : platform.EndsName back) :
    names platform (front ++ back) = names platform front ++ names platform back := by
  cases back with
  | nil => simp [names_nil]
  | cons s back =>
    have separates : platform.isSeparator s = true := ends s rfl
    rw [names_append_separator front separates, names_cons_separator separates]

/-- What stands in front of the first separator of a text, if there is one. -/
def firstPart (platform : Platform) (text : List Char) : List Char :=
  text.takeWhile (!platform.isSeparator ·)

/-- What stands behind the last separator of a text, if there is one. -/
def lastPart (platform : Platform) (text : List Char) : List Char :=
  text.rtakeWhile (!platform.isSeparator ·)

private theorem isSeparator_of_mem_firstPart {c : Char} (inPart : c ∈ firstPart platform back) :
    platform.isSeparator c = false := by
  simpa using List.mem_takeWhile_imp inPart

private theorem isSeparator_of_mem_lastPart {c : Char} (inPart : c ∈ lastPart platform front) :
    platform.isSeparator c = false := by
  simpa using List.mem_rtakeWhile_imp inPart

theorem firstPart_append (whole : ∀ c ∈ word, platform.isSeparator c = false) (back : List Char) :
    firstPart platform (word ++ back) = word ++ firstPart platform back :=
  List.takeWhile_append_of_pos (by simpa using whole)

private theorem endsName_dropWhile (platform : Platform) (text : List Char) :
    platform.EndsName (text.dropWhile (!platform.isSeparator ·)) := by
  intro c isFirst
  have stops := List.head?_dropWhile_not (!platform.isSeparator ·) text
  rw [isFirst] at stops
  simpa using stops

private theorem areDirectories_rdropWhile (platform : Platform) (text : List Char) :
    AreDirectories platform (text.rdropWhile (!platform.isSeparator ·)) := by
  intro c isLast
  have nonempty := List.ne_nil_of_mem (List.mem_of_getLast? isLast)
  have stops := List.rdropWhile_last_not (!platform.isSeparator ·) text nonempty
  rw [List.getLast?_eq_some_getLast nonempty] at isLast
  obtain rfl := Option.some.inj isLast
  simpa using stops

/-- A word without separators belongs to one name, with what stands beside it up to the separators
on either side. -/
theorem names_around (some : word ≠ []) (whole : ∀ c ∈ word, platform.isSeparator c = false)
    (front back : List Char) :
    names platform (front ++ (word ++ back)) =
      names platform (front.rdropWhile (!platform.isSeparator ·)) ++
        (lastPart platform front ++ (word ++ firstPart platform back)) ::
          names platform (back.dropWhile (!platform.isSeparator ·)) := by
  have cutFront : front.rdropWhile (!platform.isSeparator ·) ++ lastPart platform front = front :=
    List.rdropWhile_append_rtakeWhile
  have cutBack : firstPart platform back ++ back.dropWhile (!platform.isSeparator ·) = back :=
    List.takeWhile_append_dropWhile
  have alone : names platform (lastPart platform front ++ (word ++ firstPart platform back)) =
      [lastPart platform front ++ (word ++ firstPart platform back)] := by
    refine names_of_no_separator (by simp [some]) ?_
    simp only [List.forall_mem_append]
    exact ⟨fun _ => isSeparator_of_mem_lastPart, whole, fun _ => isSeparator_of_mem_firstPart⟩
  calc names platform (front ++ (word ++ back))
      = names platform (front.rdropWhile (!platform.isSeparator ·) ++
          ((lastPart platform front ++ (word ++ firstPart platform back)) ++
            back.dropWhile (!platform.isSeparator ·))) := by
        conv_lhs => rw [← cutFront, ← cutBack]
        simp only [List.append_assoc]
    _ = _ := by
        rw [names_append_of_areDirectories (areDirectories_rdropWhile platform front),
          names_append_of_endsName _ (endsName_dropWhile platform back), alone,
          List.singleton_append]

/-- A word without separators at the front belongs to the first name. -/
theorem names_append_of_isName (some : word ≠ [])
    (whole : ∀ c ∈ word, platform.isSeparator c = false) (back : List Char) :
    names platform (word ++ back) =
      (word ++ firstPart platform back) ::
        names platform (back.dropWhile (!platform.isSeparator ·)) :=
  names_around some whole [] back

end Path

namespace GlobMeaning

variable {options : Options} {segment path : List Char} {before after : List (List Char)}

theorem not_isGlobstar_of_mem {c : Char} (inSegment : c ∈ segment) (notStar : c ≠ '*') :
    ¬IsGlobstar options segment := by
  rintro ⟨-, rfl⟩
  simp [notStar] at inSegment

/-- A word belongs to one name of a glob as well, and the empty segment in front of the names depends
only on what stands in front of this one. -/
theorem placedNames_around {platform : Platform} {word : List Char} (some : word ≠ [])
    (whole : ∀ c ∈ word, platform.isSeparator c = false) (front back : List Char) :
    placedNames platform (front ++ (word ++ back)) =
      placedNames platform (front.rdropWhile (!platform.isSeparator ·)) ++
        (Path.lastPart platform front ++ (word ++ Path.firstPart platform back)) ::
          Path.names platform (back.dropWhile (!platform.isSeparator ·)) := by
  have cut : front.rdropWhile (!platform.isSeparator ·) ++ Path.lastPart platform front = front :=
    List.rdropWhile_append_rtakeWhile
  have around := Path.names_around some whole front back
  cases directories : front.rdropWhile (!platform.isSeparator ·) with
  | nil =>
    rw [directories, List.nil_append] at cut
    have unrooted : (front ++ (word ++ back)).head?.any platform.isSeparator = false := by
      obtain ⟨c, word, rfl⟩ := List.exists_cons_of_ne_nil some
      rw [← cut]
      cases isLast : Path.lastPart platform front with
      | nil => exact whole c List.mem_cons_self
      | cons d rest => exact Path.isSeparator_of_mem_lastPart (isLast ▸ List.mem_cons_self)
    rw [placedNames_of_unrooted unrooted, around, directories]
    rfl
  | cons c rest =>
    rw [directories] at cut around
    have sameHead : (front ++ (word ++ back)).head? = (c :: rest).head? := by
      rw [← cut]
      rfl
    rw [placedNames, placedNames, sameHead, around]
    split
    · rfl
    · rfl

variable (options) in
/-- What may stand behind a segment that is no globstar: separators, and after them what further
segments match. -/
def MatchBehind : List (List Char) → List Char → Prop
  | [], rest => ∀ c ∈ rest, options.platform.isSeparator c = true
  | next :: others, rest => ∃ separators left, rest = separators ++ left ∧ separators ≠ [] ∧
    (∀ c ∈ separators, options.platform.isSeparator c = true) ∧
      SegmentsMatch options (next :: others) left

theorem segmentsMatch_cons_iff (isShape : ¬IsGlobstar options segment) :
    SegmentsMatch options (segment :: after) path ↔
      ∃ rest, SegmentTakes options segment path rest ∧ MatchBehind options after rest := by
  cases after with
  | nil => simp only [SegmentsMatch, isShape, false_and, not_false_eq_true, true_and, false_or,
      MatchBehind]
  | cons next others =>
    simp only [SegmentsMatch, isShape, false_and, not_false_eq_true, true_and, false_or, MatchBehind]
    constructor
    · rintro ⟨separators, left, taken, behind⟩
      exact ⟨_, taken, separators, left, rfl, behind⟩
    · rintro ⟨_, taken, separators, left, rfl, behind⟩
      exact ⟨separators, left, taken, behind⟩

/-- If a segment takes what one of several segments takes, segments with it among them match what they
match with one of the others in its place. -/
theorem segmentsMatch_iff_exists {ι : Type} {chosen : ι → Prop} {choice : ι → List Char}
    (isShape : ¬IsGlobstar options segment) (areShapes : ∀ i, chosen i → ¬IsGlobstar options (choice i))
    (takes : ∀ path rest, SegmentTakes options segment path rest ↔
      ∃ i, chosen i ∧ SegmentTakes options (choice i) path rest) :
    SegmentsMatch options (before ++ segment :: after) path ↔
      ∃ i, chosen i ∧ SegmentsMatch options (before ++ choice i :: after) path := by
  simp only [segmentsMatch_append_iff (List.cons_ne_nil _ after)]
  constructor
  · rintro ⟨start, directories, matched⟩
    obtain ⟨rest, taken, behind⟩ := (segmentsMatch_cons_iff isShape).mp matched
    obtain ⟨i, isChosen, taken⟩ := (takes start rest).mp taken
    exact ⟨i, isChosen, start, directories,
      (segmentsMatch_cons_iff (areShapes i isChosen)).mpr ⟨rest, taken, behind⟩⟩
  · rintro ⟨i, isChosen, start, directories, matched⟩
    obtain ⟨rest, taken, behind⟩ := (segmentsMatch_cons_iff (areShapes i isChosen)).mp matched
    exact ⟨start, directories, (segmentsMatch_cons_iff isShape).mpr
      ⟨rest, (takes start rest).mpr ⟨i, isChosen, taken⟩, behind⟩⟩

end GlobMeaning

end PathGlob
