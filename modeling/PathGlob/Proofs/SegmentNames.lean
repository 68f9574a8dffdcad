import PathGlob.Path.Segment
import PathGlob.Proofs.GlobMeaning

/-! # Cutting globs into segments

The names between the separators of a text, and how they are the segments that a glob is cut into at
its runs of separators. Separators at the end change nothing, and a separator in front is the same
as an empty first segment.
-/

namespace PathGlob

namespace Path

variable {platform : Platform} {c d : Char} {text rest : List Char}

theorem names_nil (platform : Platform) : names platform [] = [] := rfl

theorem names_cons_separator (separates : platform.isSeparator c = true) (rest : List Char) :
    names platform (c :: rest) = names platform rest := by
  simp [names, segments, Text.pieces, separates]

/-- A character before a separator or the end is a name of its own. -/
theorem names_cons_alone (separates : platform.isSeparator c = false)
    (ends : ∀ d, rest.head? = some d → platform.isSeparator d = true) :
    names platform (c :: rest) = [c] :: names platform rest := by
  cases rest with
  | nil => simp [names, segments, Text.pieces, separates]
  | cons d rest =>
    have parts := ends d rfl
    simp [names, segments, Text.pieces, separates, parts]

/-- A character before another one is part of the same name. -/
theorem names_cons_joined (separates : platform.isSeparator c = false)
    (joined : platform.isSeparator d = false) (rest : List Char) :
    ∃ first others, names platform (d :: rest) = (d :: first) :: others ∧
      names platform (c :: d :: rest) = (c :: d :: first) :: others := by
  obtain ⟨first, others, cut⟩ := List.exists_cons_of_ne_nil (Text.pieces_ne_nil platform.isSeparator rest)
  refine ⟨first, others.filter (· ≠ []), ?_, ?_⟩
  · simp [names, segments, Text.pieces, joined, cut]
  · simp [names, segments, Text.pieces, separates, joined, cut]

/-- Separators at the end of a text add no name. -/
theorem names_append_separators (text : List Char) {run : List Char}
    (separate : ∀ c ∈ run, platform.isSeparator c = true) :
    names platform (text ++ run) = names platform text := by
  induction text with
  | nil =>
    induction run with
    | nil => rfl
    | cons c run ih =>
      obtain ⟨first, others⟩ := List.forall_mem_cons.mp separate
      rw [List.nil_append, names_cons_separator first]
      exact ih others
  | cons c rest ih =>
    rw [List.cons_append]
    cases separates : platform.isSeparator c with
    | true => rw [names_cons_separator separates, names_cons_separator separates, ih]
    | false =>
      cases rest with
      | nil =>
        have ends : ∀ d, run.head? = some d → platform.isSeparator d = true :=
          fun d isHead => separate d (List.mem_of_mem_head? isHead)
        rw [List.nil_append, names_cons_alone separates ends, names_cons_alone separates (by simp)]
        exact congrArg _ ih
      | cons d rest =>
        cases joined : platform.isSeparator d with
        | true =>
          rw [names_cons_alone separates (by simp [joined]), ih,
            names_cons_alone separates (by simp [joined])]
        | false =>
          obtain ⟨first, others, before, after⟩ := names_cons_joined separates joined rest
          obtain ⟨first', others', before', after'⟩ :=
            names_cons_joined separates joined (rest ++ run)
          rw [List.cons_append, before', before] at ih
          obtain ⟨same, rfl⟩ := List.cons.inj ih
          obtain ⟨_, rfl⟩ := List.cons.inj same
          rw [List.cons_append, after', after]

/-- No name holds a separator. -/
theorem isSeparator_of_mem_names {name : List Char} (isName : name ∈ names platform text)
    (inName : c ∈ name) : platform.isSeparator c = false :=
  Text.not_cut_of_mem_pieces (List.mem_of_mem_filter isName) inName

theorem ne_nil_of_mem_names {name : List Char} (isName : name ∈ names platform text) : name ≠ [] := by
  simpa using List.of_mem_filter isName

/-- A character that is no separator belongs to a name. -/
theorem names_ne_nil_of_mem (inText : c ∈ text) (separates : platform.isSeparator c = false) :
    names platform text ≠ [] := by
  induction text with
  | nil => cases inText
  | cons d rest ih =>
    cases other : platform.isSeparator d with
    | true =>
      rw [names_cons_separator other]
      rcases List.mem_cons.mp inText with rfl | inRest
      · rw [other] at separates
        cases separates
      · exact ih inRest
    | false =>
      cases rest with
      | nil =>
        rw [names_cons_alone other (by simp)]
        exact List.cons_ne_nil _ _
      | cons e rest =>
        cases joined : platform.isSeparator e with
        | true =>
          rw [names_cons_alone other (by simp [joined])]
          exact List.cons_ne_nil _ _
        | false =>
          obtain ⟨_, _, _, named⟩ := names_cons_joined other joined rest
          rw [named]
          exact List.cons_ne_nil _ _

/-- A text without separators is its only name. -/
theorem names_of_no_separator (nonempty : text ≠ [])
    (noSeparator : ∀ c ∈ text, platform.isSeparator c = false) : names platform text = [text] := by
  induction text with
  | nil => exact absurd rfl nonempty
  | cons c rest ih =>
    obtain ⟨first, others⟩ := List.forall_mem_cons.mp noSeparator
    cases rest with
    | nil => exact names_cons_alone first (by simp)
    | cons d rest =>
      obtain ⟨name, more, before, after⟩ := names_cons_joined first (others d (by simp)) rest
      rw [ih (List.cons_ne_nil _ _) others] at before
      obtain ⟨same, rfl⟩ := List.cons.inj before
      rw [after, ← same]

end Path

namespace GlobMeaning

variable {platform : Platform} {text : List Char}

/-- A text that does not end with a separator is cut into its names, behind an empty segment if it
starts with a separator. -/
theorem segments_eq_names (nonempty : text ≠ [])
    (ends : ∀ c, text.getLast? = some c → platform.isSeparator c = false) :
    segments platform text =
      if text.head?.any platform.isSeparator then [] :: Path.names platform text
      else Path.names platform text := by
  induction text with
  | nil => exact absurd rfl nonempty
  | cons c rest ih =>
    cases rest with
    | nil =>
      have separates := ends c rfl
      have alone : Path.names platform [c] = [[c]] := Path.names_cons_alone separates (by simp)
      simp [segments, separates, alone]
    | cons d rest =>
      have cut := ih (List.cons_ne_nil _ _) (by simpa using ends)
      rw [List.head?_cons, Option.any_some] at cut
      rw [segments, List.head?_cons, List.head?_cons, Option.any_some, Option.any_some, cut]
      cases separates : platform.isSeparator c <;> cases joined : platform.isSeparator d
      · obtain ⟨first, others, before, after⟩ := Path.names_cons_joined separates joined rest
        simp [before, after]
      · have alone : Path.names platform (c :: d :: rest) = [c] :: Path.names platform (d :: rest) :=
          Path.names_cons_alone separates (by simp [joined])
        simp [alone]
      · simp [Path.names_cons_separator separates]
      · simp [Path.names_cons_separator separates]

/-- A single separator parts two empty segments. -/
theorem segments_separator {c : Char} (separates : platform.isSeparator c = true) :
    segments platform [c] = [[], []] := by
  simp [segments, separates]

/-- Without its separators at the end, a glob has the same names and the same first character. -/
theorem withoutTrailing_spec (platform : Platform) (glob : List Char) :
    Path.names platform (withoutTrailing platform glob) = Path.names platform glob ∧
      (withoutTrailing platform glob).head? = glob.head? := by
  cases glob with
  | nil => exact ⟨rfl, rfl⟩
  | cons c rest =>
    refine ⟨?_, rfl⟩
    have split : rest.rdropWhile platform.isSeparator ++ rest.rtakeWhile platform.isSeparator = rest :=
      List.rdropWhile_append_rtakeWhile
    have separate : ∀ d ∈ rest.rtakeWhile platform.isSeparator, platform.isSeparator d = true :=
      fun d isDropped => List.mem_rtakeWhile_imp isDropped
    have same := Path.names_append_separators (c :: rest.rdropWhile platform.isSeparator) separate
    rw [List.cons_append, split] at same
    exact same.symm

/-- What is left of a glob is a single separator or does not end with one. -/
theorem withoutTrailing_cases (platform : Platform) (c : Char) (rest : List Char) :
    (withoutTrailing platform (c :: rest) = [c] ∧ platform.isSeparator c = true) ∨
      ∀ d, (withoutTrailing platform (c :: rest)).getLast? = some d →
        platform.isSeparator d = false := by
  rw [withoutTrailing]
  by_cases empty : rest.rdropWhile platform.isSeparator = []
  · rw [empty]
    cases separates : platform.isSeparator c with
    | true => exact .inl ⟨rfl, rfl⟩
    | false =>
      right
      rintro d last
      obtain rfl := Option.some.inj last
      exact separates
  · right
    intro d last
    have isLast := List.rdropWhile_last_not _ _ empty
    rw [List.getLast?_cons, List.getLast?_eq_some_getLast empty] at last
    obtain rfl := Option.some.inj last
    exact Bool.eq_false_iff.mpr isLast

end GlobMeaning

end PathGlob
