import PathGlob.Glob.Sign
import PathGlob.Proofs.CanonicalPath
import PathGlob.Proofs.LiteralSegments

/-! # Globs without syntax

A glob in which no character has a role matches itself. What still does not count is how its
segments are parted: which separators are written and how many, and whether one stands at the end.
-/

namespace PathGlob

open GlobMeaning

variable {options : Options}

/-- Segments that spell themselves match the paths with these names. -/
theorem segmentsMatch_iff_names (matchesCase : options.caseInsensitive = false)
    {names : List (List Char)} (nonempty : ∀ name ∈ names, name ≠ [])
    (whole : ∀ name ∈ names, ∀ c ∈ name, options.platform.isSeparator c = false)
    (isShape : ∀ name ∈ names, ¬IsGlobstar options name)
    (spell : ∀ name ∈ names, SegmentSpells options name name) (path : List Char) :
    SegmentsMatch options names path ↔
      Path.names options.platform path = names ∧
        path.head?.any options.platform.isSeparator = false := by
  induction names generalizing path with
  | nil =>
    constructor
    · rintro rfl
      exact ⟨rfl, rfl⟩
    · rintro ⟨noName, unrooted⟩
      by_contra something
      rw [GlobSource.head?_of_names_eq_nil something noName] at unrooted
      cases unrooted
  | cons first others ih =>
    obtain ⟨firstNonempty, othersNonempty⟩ := List.forall_mem_cons.mp nonempty
    obtain ⟨firstWhole, othersWhole⟩ := List.forall_mem_cons.mp whole
    obtain ⟨firstIsShape, othersIsShape⟩ := List.forall_mem_cons.mp isShape
    obtain ⟨spells, othersSpell⟩ := List.forall_mem_cons.mp spell
    have following := ih othersNonempty othersWhole othersIsShape othersSpell
    have unrooted (rest : List Char) :
        (first ++ rest).head?.any options.platform.isSeparator = false := by
      obtain ⟨c, name, rfl⟩ := List.exists_cons_of_ne_nil firstNonempty
      exact firstWhole c List.mem_cons_self
    cases others with
    | nil =>
      simp only [SegmentsMatch, firstIsShape, false_and, not_false_eq_true, true_and, false_or,
        spells.segmentTakes_iff matchesCase]
      constructor
      · rintro ⟨trailing, rfl, separate⟩
        rw [Path.names_append_separators first separate]
        exact ⟨Path.names_of_no_separator firstNonempty firstWhole, unrooted trailing⟩
      · rintro ⟨named, start⟩
        obtain ⟨separators, rest, rfl, separate, _, noName, start⟩ :=
          Path.exists_of_names_eq_cons named start
        obtain rfl : rest = [] := (following rest).mpr ⟨noName, start⟩
        exact ⟨separators, by rw [List.append_nil], separate⟩
    | cons next others =>
      simp only [SegmentsMatch, firstIsShape, false_and, not_false_eq_true, true_and, false_or,
        spells.segmentTakes_iff matchesCase, following]
      constructor
      · rintro ⟨separators, rest, rfl, parted, separate, named, start⟩
        rw [Path.names_append_run firstNonempty firstWhole separate (absurd · parted), named]
        exact ⟨rfl, unrooted _⟩
      · rintro ⟨named, start⟩
        obtain ⟨separators, rest, rfl, separate, parted, named, start⟩ :=
          Path.exists_of_names_eq_cons named start
        refine ⟨separators, rest, rfl, ?_, separate, named, start⟩
        intro none
        rw [parted none] at named
        cases named

/-- A glob whose segments spell themselves takes the paths of the same canonical form. -/
theorem takesText_globPattern_iff_canonical {glob : String} {path : List Char} (nonempty : glob ≠ "")
    (matchesCase : options.caseInsensitive = false)
    (isShape : ∀ name ∈ Path.names options.platform glob.toList, ¬IsGlobstar options name)
    (spell : ∀ name ∈ Path.names options.platform glob.toList, SegmentSpells options name name) :
    (globPattern options glob).TakesText options.caseInsensitive path [] ↔
      Path.canonical options.platform path = Path.canonical options.platform glob.toList := by
  have matched := segmentsMatch_iff_names matchesCase (fun _ => Path.ne_nil_of_mem_names)
    (fun _ isName _ => Path.isSeparator_of_mem_names isName) isShape spell
  have written : glob.toList ≠ [] := by simpa using nonempty
  rw [Path.canonical_eq_canonical_iff, globPattern, Glob.ofText_eq]
  cases rooted : glob.toList.head?.any options.platform.isSeparator with
  | true =>
    rw [takesText_rooted_iff]
    simp only [matched]
    exact Path.exists_separators_iff
  | false =>
    have named : Path.names options.platform glob.toList ≠ [] := by
      intro noName
      rw [GlobSource.head?_of_names_eq_nil written noName] at rooted
      cases rooted
    obtain ⟨first, others, named⟩ := List.exists_cons_of_ne_nil named
    rw [← matched, named]
    exact takesText_segmentsPattern_iff (first :: others) path

/-- The characters that can have a role in a glob, wherever they stand. -/
def Platform.roleMarks (platform : Platform) : List Char :=
  [platform.escapeMark, '[', '{', '?', '*', '(']

/-- A text in which no character has a role reads as its characters. -/
theorem GlobGrammar.isSegment_of_plain {text : List Char}
    (plain : ∀ c ∈ text, c ∉ options.platform.roleMarks) :
    IsSegment options text (text.map .char) := by
  induction text with
  | nil => exact .finish
  | cons c rest ih =>
    obtain ⟨first, others⟩ := List.forall_mem_cons.mp plain
    refine .single (.literal c rest ⟨?_, by simp⟩ ?_) (ih others)
    · intro hasRole
      exact first (List.mem_append_left ['('] hasRole)
    · rintro kind body ⟨operator, _, _, opens⟩
      obtain ⟨rfl, rfl⟩ := List.cons.inj opens
      exact others '(' List.mem_cons_self (by simp [Platform.roleMarks])

namespace Sign

/-- The characters that a sign or something hidden starts with, apart from a `!` in front. -/
def marks : List Char :=
  ['\\', '[', '{', '?', '*', '(']

variable {text rest : List Char} {c : Char}

private theorem isSign_eq_false (plain : c ∉ marks) {first : Bool}
    (unmarked : first = true → c ≠ '!') : isSign first c rest = false := by
  simp only [marks, List.mem_cons, List.not_mem_nil, or_false, not_or] at plain
  obtain ⟨-, notBracket, notBrace, notAny, notStar, notParen⟩ := plain
  unfold isSign
  split <;> simp_all

/-- A character that is not a backslash is read alone outside of what is hidden. -/
theorem scan_cons {place : Place} (outside : place = .start ∨ place = .inside)
    (notEscape : c ≠ '\\') :
    scan place (c :: rest) = (isSign (place == .start) c rest || scan .inside rest) := by
  rcases outside with rfl | rfl
  · exact if_neg notEscape
  · exact if_neg notEscape

private theorem scan_inside_eq_false (plain : ∀ c ∈ text, c ∉ marks) :
    scan .inside text = false := by
  induction text with
  | nil => rfl
  | cons c rest ih =>
    obtain ⟨first, others⟩ := List.forall_mem_cons.mp plain
    have notEscape : c ≠ '\\' := by
      rintro rfl
      exact first List.mem_cons_self
    have noSign : isSign (Place.inside == .start) c rest = false :=
      isSign_eq_false first fun start => absurd start (by decide)
    rw [scan_cons (.inr rfl) notEscape, noSign, Bool.false_or]
    exact ih others

end Sign

/-- A text has no sign of a glob in it if no character may be one and no `!` stands in front. -/
theorem isGlob_eq_false {text : String} (plain : ∀ c ∈ text.toList, c ∉ Sign.marks)
    (unmarked : text.toList.head? ≠ some '!') : isGlob text = false := by
  rw [isGlob]
  cases split : text.toList with
  | nil => rfl
  | cons c rest =>
    rw [split] at plain unmarked
    obtain ⟨first, others⟩ := List.forall_mem_cons.mp plain
    have notEscape : c ≠ '\\' := by
      rintro rfl
      exact first List.mem_cons_self
    have noSign : Sign.isSign (Sign.Place.start == .start) c rest = false :=
      Sign.isSign_eq_false first fun _ isMark => unmarked (congrArg some isMark)
    rw [Sign.scan_cons (.inl rfl) notEscape, noSign, Bool.false_or]
    exact Sign.scan_inside_eq_false others

end PathGlob
