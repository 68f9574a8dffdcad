import PathGlob.Proofs.TextLanguage

/-! # Sequences and alternatives of expressions

Lists of expressions as one expression, and what is known of the whole from its parts: what it takes,
how deep its groups nest, and whether an engine refuses it for an empty repetition.
-/

namespace PathGlob.Regex

def sequence (regexes : List Regex) : Regex :=
  regexes.foldl .seq .empty

/-- Sequences of expressions as alternatives, of which there should be one at least. -/
def alternatives : List (List Regex) → Regex
  | [] => .empty
  | first :: others => (others.map sequence).foldl .alt (sequence first)

section Text

private theorem text_foldl_seq (regexes : List Regex) (start : Regex) :
    (regexes.foldl .seq start).text = start.text ++ regexes.flatMap text := by
  induction regexes generalizing start with
  | nil => simp
  | cons regex others ih => rw [List.foldl_cons, ih, text, List.flatMap_cons, List.append_assoc]

@[simp] theorem text_sequence (regexes : List Regex) :
    (sequence regexes).text = regexes.flatMap text :=
  text_foldl_seq regexes .empty

end Text

section Takes

variable {caseInsensitive : Bool} {text rest : List Char}

private theorem takesText_foldl_seq (regexes : List Regex) (start : Regex) :
    (regexes.foldl .seq start).TakesText caseInsensitive text rest ↔
      ∃ middle, start.TakesText caseInsensitive text middle ∧
        (sequence regexes).TakesText caseInsensitive middle rest := by
  induction regexes generalizing start text with
  | nil => simp [sequence]
  | cons regex others ih =>
    have unfolded : sequence (regex :: others) = others.foldl .seq (.seq .empty regex) := rfl
    rw [List.foldl_cons, ih, unfolded]
    simp only [ih, takesText_seq, takesText_empty]
    constructor
    · rintro ⟨after, ⟨middle, before, taken⟩, following⟩
      exact ⟨middle, before, after, ⟨middle, rfl, taken⟩, following⟩
    · rintro ⟨middle, before, after, ⟨_, rfl, taken⟩, following⟩
      exact ⟨after, ⟨_, before, taken⟩, following⟩

theorem takesText_sequence_cons {regex : Regex} {regexes : List Regex} :
    (sequence (regex :: regexes)).TakesText caseInsensitive text rest ↔
      ∃ middle, regex.TakesText caseInsensitive text middle ∧
        (sequence regexes).TakesText caseInsensitive middle rest := by
  rw [sequence, List.foldl_cons, takesText_foldl_seq]
  simp

private theorem takesText_foldl_alt (regexes : List Regex) (start : Regex) :
    (regexes.foldl .alt start).TakesText caseInsensitive text rest ↔
      start.TakesText caseInsensitive text rest ∨
        ∃ regex ∈ regexes, regex.TakesText caseInsensitive text rest := by
  induction regexes generalizing start with
  | nil => simp
  | cons regex others ih =>
    rw [List.foldl_cons, ih, takesText_alt, or_assoc]
    simp

theorem takesText_alternatives {branches : List (List Regex)} (nonempty : branches ≠ []) :
    (alternatives branches).TakesText caseInsensitive text rest ↔
      ∃ branch ∈ branches, (sequence branch).TakesText caseInsensitive text rest := by
  obtain ⟨first, others, rfl⟩ := List.exists_cons_of_ne_nil nonempty
  rw [alternatives, takesText_foldl_alt]
  simp

end Takes

section Refusal

private theorem depth_foldl_seq_le_iff {bound : Nat} (regexes : List Regex) (start : Regex) :
    (regexes.foldl .seq start).depth ≤ bound ↔
      start.depth ≤ bound ∧ ∀ regex ∈ regexes, regex.depth ≤ bound := by
  induction regexes generalizing start with
  | nil => simp
  | cons regex others ih =>
    rw [List.foldl_cons, ih, depth, Nat.max_le, List.forall_mem_cons, and_assoc]

private theorem depth_foldl_alt_le_iff {bound : Nat} (regexes : List Regex) (start : Regex) :
    (regexes.foldl .alt start).depth ≤ bound ↔
      start.depth ≤ bound ∧ ∀ regex ∈ regexes, regex.depth ≤ bound := by
  induction regexes generalizing start with
  | nil => simp
  | cons regex others ih =>
    rw [List.foldl_cons, ih, depth, Nat.max_le, List.forall_mem_cons, and_assoc]

@[simp] theorem depth_sequence_le_iff {bound : Nat} {regexes : List Regex} :
    (sequence regexes).depth ≤ bound ↔ ∀ regex ∈ regexes, regex.depth ≤ bound := by
  simp [sequence, depth_foldl_seq_le_iff, depth]

@[simp] theorem depth_alternatives_le_iff {bound : Nat} {branches : List (List Regex)} :
    (alternatives branches).depth ≤ bound ↔
      ∀ branch ∈ branches, ∀ regex ∈ branch, regex.depth ≤ bound := by
  cases branches with
  | nil => simp [alternatives, depth]
  | cons first others => simp [alternatives, depth_foldl_alt_le_iff]

private theorem isBlank_foldl_seq (regexes : List Regex) (start : Regex) :
    (regexes.foldl .seq start).isBlank = (start.isBlank && regexes.all isBlank) := by
  induction regexes generalizing start with
  | nil => simp
  | cons regex others ih => simp [ih, isBlank, Bool.and_assoc]

@[simp] theorem isBlank_sequence (regexes : List Regex) :
    (sequence regexes).isBlank = regexes.all isBlank := by
  rw [sequence, isBlank_foldl_seq]
  rfl

private theorem isBlank_foldl_alt (regexes : List Regex) (start : Regex) :
    (regexes.foldl .alt start).isBlank = (regexes.isEmpty && start.isBlank) := by
  induction regexes generalizing start with
  | nil => simp
  | cons regex others ih => simp [ih, isBlank]

/-- Two alternatives are not blank, even if both of them are. -/
@[simp] theorem isBlank_alternatives_cons (first : List Regex) (others : List (List Regex)) :
    (alternatives (first :: others)).isBlank = (others.isEmpty && first.all isBlank) := by
  rw [alternatives, isBlank_foldl_alt, isBlank_sequence, List.isEmpty_map]

private theorem repeatsBlank_foldl_seq (regexes : List Regex) (start : Regex) :
    (regexes.foldl .seq start).repeatsBlank = (start.repeatsBlank || regexes.any repeatsBlank) := by
  induction regexes generalizing start with
  | nil => simp
  | cons regex others ih => simp [ih, repeatsBlank, Bool.or_assoc]

private theorem repeatsBlank_foldl_alt (regexes : List Regex) (start : Regex) :
    (regexes.foldl .alt start).repeatsBlank = (start.repeatsBlank || regexes.any repeatsBlank) := by
  induction regexes generalizing start with
  | nil => simp
  | cons regex others ih => simp [ih, repeatsBlank, Bool.or_assoc]

@[simp] theorem repeatsBlank_sequence (regexes : List Regex) :
    (sequence regexes).repeatsBlank = regexes.any repeatsBlank := by
  rw [sequence, repeatsBlank_foldl_seq]
  rfl

@[simp] theorem repeatsBlank_alternatives (branches : List (List Regex)) :
    (alternatives branches).repeatsBlank = branches.any (·.any repeatsBlank) := by
  cases branches with
  | nil => rfl
  | cons first others =>
    rw [alternatives, repeatsBlank_foldl_alt, repeatsBlank_sequence, List.any_map]
    simp [Function.comp_def]

theorem isAccepted_iff {regex : Regex} :
    regex.isAccepted = true ↔ regex.depth ≤ maxDepth ∧ regex.repeatsBlank = false := by
  rw [isAccepted, Bool.and_eq_true, decide_eq_true_iff, Bool.not_eq_true']

/-- A sequence is accepted if all its parts are. -/
theorem isAccepted_sequence_iff {regexes : List Regex} :
    (sequence regexes).isAccepted = true ↔ ∀ regex ∈ regexes, regex.isAccepted = true := by
  simp only [isAccepted_iff, depth_sequence_le_iff, repeatsBlank_sequence, List.any_eq_false,
    Bool.not_eq_true, ← forall_and]

theorem isAccepted_seq_iff {first second : Regex} :
    (seq first second).isAccepted = true ↔ first.isAccepted = true ∧ second.isAccepted = true := by
  simp only [isAccepted_iff, depth, repeatsBlank, Nat.max_le, Bool.or_eq_false_iff]
  exact and_and_and_comm

end Refusal

end PathGlob.Regex
