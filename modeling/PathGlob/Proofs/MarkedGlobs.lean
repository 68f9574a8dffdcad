import PathGlob.Proofs.GlobJoin

/-! # Globs that hold the shield mark

No glob may hold the character that stands for a shielded `..`. Where globs are joined with globstars
on, it is looked for in the fragments put together, before any of them is taken away again, so it is
found wherever it stands. Where they are joined like paths, nothing is looked for.
-/

namespace PathGlob.Path

variable {platform : Platform} {first joined : List Char} {parts : List (List Char)} {c : Char}

private theorem mem_ofSegments_of_mem {part : List Char} (isPart : part ∈ parts) (inPart : c ∈ part) :
    c ∈ ofSegments platform parts := by
  induction parts with
  | nil => cases isPart
  | cons text others ih =>
    by_cases alone : others = []
    · subst alone
      obtain rfl := List.mem_singleton.mp isPart
      exact inPart
    · rw [ofSegments_cons platform text alone, List.mem_append, List.mem_cons]
      rcases List.mem_cons.mp isPart with rfl | isPart
      · exact .inl inPart
      · exact .inr (.inr (ih isPart))

private theorem mem_of_mem_closeGap (isLeft : c ∈ closeGap first joined) :
    c = Platform.windows.separator ∨ c ∈ joined := by
  unfold closeGap at isLeft
  dsimp only at isLeft
  split at isLeft
  · exact .inr isLeft
  · exact (List.mem_cons.mp isLeft).imp_right List.mem_of_mem_drop

end PathGlob.Path

namespace PathGlob.Glob

variable {platform : Platform} {globstar : Bool} {parts : List (List Char)}

def HoldsMark (fragments : List String) : Prop :=
  ∃ fragment ∈ fragments, shieldMark ∈ fragment.toList

/-- The fragments with something in them, with separators between them. -/
def putTogether (platform : Platform) (fragments : List String) : String :=
  String.ofList (Path.ofSegments platform ((fragments.map String.toList).filter (· ≠ [])))

/-- Joining refuses fragments that hold the mark, shown put together, and nothing else, and never
writes the mark. -/
def RefusesMark (platform : Platform) (globstar : Bool) (fragments : List String) : Prop :=
  (∀ error, join platform globstar fragments = .error error ↔
      HoldsMark fragments ∧ error = .invalidCharacters (putTogether platform fragments)) ∧
    ∀ result, join platform globstar fragments = .ok result → shieldMark ∉ result.toList

private theorem shieldMark_ne_separator (platform : Platform) : shieldMark ≠ platform.separator := by
  cases platform <;> decide

/-- Fragments hold the mark exactly if they do so when they are put together. -/
theorem shieldMark_mem_putTogether_iff (platform : Platform) (fragments : List String) :
    shieldMark ∈ (putTogether platform fragments).toList ↔ HoldsMark fragments := by
  rw [putTogether, String.toList_ofList]
  constructor
  · intro marked
    rcases Path.mem_of_mem_ofSegments marked with separator | ⟨part, isPart, inPart⟩
    · exact absurd separator (shieldMark_ne_separator platform)
    · obtain ⟨fragment, isFragment, rfl⟩ := List.mem_map.mp (List.mem_of_mem_filter isPart)
      exact ⟨fragment, isFragment, inPart⟩
  · rintro ⟨fragment, isFragment, marked⟩
    have something : fragment.toList ≠ [] := List.ne_nil_of_mem marked
    have isPart : fragment.toList ∈ (fragments.map String.toList).filter (· ≠ []) :=
      List.mem_filter.mpr ⟨List.mem_map_of_mem isFragment, by simpa using something⟩
    exact Path.mem_ofSegments_of_mem isPart marked

/-- Paths without the mark are joined to one without it. -/
theorem shieldMark_not_mem_joinForm (unmarked : ∀ part ∈ parts, shieldMark ∉ part) :
    shieldMark ∉ Path.joinForm platform parts := by
  have unmarkedKept : ∀ part ∈ parts.filter (· ≠ []), shieldMark ∉ part :=
    fun part isKept => unmarked part (List.mem_of_mem_filter isKept)
  unfold Path.joinForm
  generalize parts.filter (· ≠ []) = kept at unmarkedKept ⊢
  have unmarkedWhole : shieldMark ∉ Path.ofSegments platform kept := by
    intro marked
    rcases Path.mem_of_mem_ofSegments marked with separator | ⟨part, isPart, inPart⟩
    · exact shieldMark_ne_separator platform separator
    · exact unmarkedKept part isPart inPart
  -- With globstars off, a glob is normalized like a path.
  have normal {path : List Char} (unmarkedPath : shieldMark ∉ path) :
      shieldMark ∉ normalForm platform false path :=
    shieldMark_not_mem_normalForm unmarkedPath
  cases kept with
  | nil => cases platform <;> decide
  | cons first others =>
    cases platform with
    | posix => exact normal unmarkedWhole
    | windows =>
      refine normal fun marked => ?_
      rcases Path.mem_of_mem_closeGap marked with separator | inWhole
      · exact shieldMark_ne_separator .windows separator
      · exact unmarkedWhole inWhole

section Joining

theorem join_globstar (platform : Platform) (fragments : List String) :
    join platform true fragments = normalize platform true (putTogether platform fragments) :=
  rfl

theorem normalize_eq_error_iff {glob : String} {error : GlobError} :
    normalize platform globstar glob = .error error ↔
      shieldMark ∈ glob.toList ∧ error = .invalidCharacters glob := by
  unfold normalize
  by_cases marked : shieldMark ∈ glob.toList
  · simp [marked, eq_comm]
  · simp [marked]

/-- With globstars on the mark is refused. -/
theorem refusesMark_globstar (platform : Platform) (fragments : List String) :
    RefusesMark platform true fragments := by
  constructor
  · intro error
    rw [join_globstar, normalize_eq_error_iff, shieldMark_mem_putTogether_iff]
  · intro result joined
    rw [join_globstar, normalize_eq_ok_iff] at joined
    obtain ⟨unmarked, rfl⟩ := joined
    rw [String.toList_ofList]
    exact shieldMark_not_mem_normalForm unmarked

/-- With globstars off nothing is refused, and no mark is written if there was none. -/
theorem refusesMark_path_iff (platform : Platform) (fragments : List String) :
    RefusesMark platform false fragments ↔ ¬HoldsMark fragments := by
  constructor
  · rintro ⟨errors, _⟩ marked
    cases (errors _).mpr ⟨marked, rfl⟩
  · intro unmarked
    refine ⟨fun error => iff_of_false nofun fun both => unmarked both.1, ?_⟩
    rintro _ ⟨⟩
    rw [Path.join, String.toList_ofList]
    refine shieldMark_not_mem_joinForm fun part isPart marked => ?_
    obtain ⟨fragment, isFragment, rfl⟩ := List.mem_map.mp isPart
    exact unmarked ⟨fragment, isFragment, marked⟩

end Joining

/-- Joining refuses the mark unless globstars are off and a fragment holds it. -/
theorem join_refusesMark_iff (platform : Platform) (globstar : Bool) (fragments : List String) :
    RefusesMark platform globstar fragments ↔ ¬(globstar = false ∧ HoldsMark fragments) := by
  cases globstar with
  | true => exact iff_of_true (refusesMark_globstar platform fragments) nofun
  | false => rw [refusesMark_path_iff, and_iff_right rfl]

/-- With globstars off, a fragment that holds the mark is joined like any other. -/
theorem join_passes_mark :
    join .posix false ["a", "\x00b"] = .ok "a/\x00b" ∧ ¬RefusesMark .posix false ["a", "\x00b"] := by
  refine ⟨by decide, fun refuses => ?_⟩
  have marked : HoldsMark ["a", "\x00b"] := ⟨"\x00b", by decide, by decide⟩
  exact (refusesMark_path_iff .posix _).mp refuses marked

-- The fragment with the mark would be taken away by the one behind it.
example : join .windows true ["a", "\x00", ".."] = .error (.invalidCharacters "a\\\x00\\..") := by
  decide

end PathGlob.Glob
