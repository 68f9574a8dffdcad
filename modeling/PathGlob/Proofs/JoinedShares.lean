import PathGlob.Proofs.GlobJoin
import PathGlob.Proofs.WindowsPaths

/-! # Shares of joined paths

When Windows fragments are put together, separators come side by side that were apart: the ends of
fragments, the separators between them, and fragments that are nothing else. Two of them in front
would be read as the start of a share. A joined path starts with two only if its first fragment
does, and goes on after them; then it is a path from the share that the fragments name.
-/

namespace PathGlob.Path

variable {path first joined server name : List Char} {others : List (List Char)} {root : Root}

/-- A text starts with two separators. -/
def StartsWithTwo (text : List Char) : Prop :=
  ∃ c d rest, text = c :: d :: rest ∧ Platform.windows.isSeparator c = true ∧
    Platform.windows.isSeparator d = true

/-- A text starts with exactly two separators and goes on after them. -/
def GoesOnAfterTwo (text : List Char) : Prop :=
  ∃ c d e rest, text = c :: d :: e :: rest ∧ Platform.windows.isSeparator c = true ∧
    Platform.windows.isSeparator d = true ∧ Platform.windows.isSeparator e = false

/-- Fragments name a share: the first one with something in it starts with exactly two separators and
goes on after them, and what stands there, put together with the fragments behind, is a server with
a share. -/
def NamesShare (fragments : List String) (server name : List Char) : Prop :=
  ∃ first others, (fragments.map String.toList).filter (· ≠ []) = first :: others ∧
    GoesOnAfterTwo first ∧
    ∃ rest, GoesOnWithShare (ofSegments .windows (first.drop 2 :: others)) server name rest

section Normal

private theorem startsWithTwo_iff_segments {text : List Char} :
    StartsWithTwo text ↔ ∃ next more, segments .windows text = [] :: [] :: next :: more := by
  constructor
  · rintro ⟨c, d, rest, rfl, first, second⟩
    obtain ⟨next, more, cut⟩ := List.exists_cons_of_ne_nil (segments_ne_nil .windows rest)
    exact ⟨next, more, by rw [segments_cons_separator first, segments_cons_separator second, cut]⟩
  · rintro ⟨next, more, cut⟩
    have first : text.head?.any Platform.windows.isSeparator = true :=
      head?_any_isSeparator_iff.mpr ⟨_, _, cut⟩
    obtain ⟨c, text, rfl⟩ : ∃ c rest, text = c :: rest := by
      cases text with
      | nil => cases first
      | cons c rest => exact ⟨c, rest, rfl⟩
    rw [segments_cons_separator first] at cut
    have second : text.head?.any Platform.windows.isSeparator = true :=
      head?_any_isSeparator_iff.mpr ⟨_, _, (List.cons.inj cut).2⟩
    cases text with
    | nil => cases second
    | cons d rest => exact ⟨c, d, rest, rfl, first, second⟩

/-- Of all roots, only a share is written with two separators in front. -/
theorem Root.withSegments_body_eq_iff {resolved : List (List Char)}
    (nonempty : ∀ segment ∈ resolved, segment ≠ []) (closed : Bool) :
    (∃ next more, root.withSegments (root.body resolved closed) = [] :: [] :: next :: more) ↔
      ∃ server name, root = .share server name := by
  have written := root.body_cases nonempty closed
  generalize root.body resolved closed = body at written
  constructor
  · rintro ⟨next, more, same⟩
    cases root with
    | share server name => exact ⟨server, name, rfl⟩
    | here =>
      rcases written with ⟨_, absolute⟩ | ⟨first, others, rfl, something, _⟩
      · cases absolute
      · exact absurd (List.cons.inj same).1 something
    | top =>
      have behind : body = [] :: next :: more := (List.cons.inj same).2
      rcases written with ⟨alone, _⟩ | ⟨first, others, rfl, something, _⟩
      · cases behind.symm.trans alone
      · exact absurd (List.cons.inj behind).1 something
    | drive letter => cases body <;> cases same
    | driveTop letter => cases same
  · rintro ⟨server, name, rfl⟩
    exact ⟨server, name :: body, rfl⟩

/-- A normal form starts with two separators exactly if the path starts from a share. -/
theorem startsWithTwo_normalForm_iff (path : List Char) :
    StartsWithTwo (normalForm .windows path) ↔
      ∃ server name, (Root.split .windows path).1 = .share server name := by
  obtain ⟨root, rest, read⟩ := exists_read .windows path
  rw [startsWithTwo_iff_segments, segments_normalForm_of_read read, (Root.split_spec .windows path).1,
    read]
  exact Root.withSegments_body_eq_iff (fun segment => ne_nil_of_mem_resolve) _

/-- A normal form starts from a share exactly if the path does. -/
theorem split_normalForm_eq_share_iff (path : List Char) :
    (Root.split .windows (normalForm .windows path)).1 = .share server name ↔
      (Root.split .windows path).1 = .share server name := by
  by_cases gains : GainsDrive path
  · obtain ⟨letter, _, onDrive⟩ := gains.split_normalForm
    rw [gains.1]
    rcases onDrive with drive | drive <;> simp [drive]
  · rw [split_normalForm_of_not_gainsDrive gains]

private theorem split_eq_share_iff :
    (Root.split .windows path).1 = .share server name ↔
      ∃ c d text rest, path = c :: d :: text ∧ Platform.windows.isSeparator c = true ∧
        Platform.windows.isSeparator d = true ∧ GoesOnWithShare text server name rest := by
  constructor
  · intro isShare
    have starts := startsFrom_split path
    rw [isShare] at starts
    generalize (Root.split .windows path).2 = rest at starts
    cases starts with
    | share first second shared => exact ⟨_, _, _, rest, rfl, first, second, shared⟩
  · rintro ⟨c, d, text, rest, rfl, first, second, shared⟩
    rw [(StartsFrom.share first second shared).split_eq]

end Normal

section Gaps

/-- What is looked at to tell a first fragment that starts a share itself. -/
theorem goesOnAfterTwo_iff (first : List Char) :
    (((first.take 3).takeWhile Platform.windows.isSeparator).length = 2 ∧ first.length > 2) ↔
      GoesOnAfterTwo first := by
  constructor
  · rintro ⟨two, long⟩
    obtain ⟨c, d, e, rest, rfl⟩ : ∃ c d e rest, first = c :: d :: e :: rest := by
      rcases first with _ | ⟨c, _ | ⟨d, _ | ⟨e, rest⟩⟩⟩
      · exact absurd long (by simp)
      · exact absurd long (by simp)
      · exact absurd long (by simp)
      · exact ⟨c, d, e, rest, rfl⟩
    refine ⟨c, d, e, rest, rfl, ?_⟩
    cases firstSep : Platform.windows.isSeparator c <;>
      cases secondSep : Platform.windows.isSeparator d <;>
      cases thirdSep : Platform.windows.isSeparator e <;>
      simp [firstSep, secondSep, thirdSep] at two ⊢
  · rintro ⟨c, d, e, rest, rfl, first, second, third⟩
    simp [first, second, third]

/-- A fragment that starts a share itself leaves the separators in front as they are. -/
theorem closeGap_of_goesOnAfterTwo (goesOn : GoesOnAfterTwo first) : closeGap first joined = joined :=
  if_pos (.inl ((goesOnAfterTwo_iff first).mpr goesOn))

/-- After any other fragment there are no two separators in front. -/
theorem not_startsWithTwo_closeGap (other : ¬GoesOnAfterTwo first) :
    ¬StartsWithTwo (closeGap first joined) := by
  by_cases two : StartsWithTwo joined
  · obtain ⟨c, d, rest, rfl, firstSep, secondSep⟩ := two
    rw [closeGap_of_separators first firstSep secondSep,
      if_neg (mt (goesOnAfterTwo_iff first).mp other)]
    rintro ⟨_, e, text, same, _, separates⟩
    have stops := List.head?_dropWhile_not Platform.windows.isSeparator rest
    rw [(List.cons.inj same).2] at stops
    exact Bool.false_ne_true (stops.symm.trans separates)
  · have kept : closeGap first joined = joined := by
      apply closeGap_of_short
      rcases joined with _ | ⟨c, _ | ⟨d, rest⟩⟩
      · exact Nat.two_pos
      · exact Nat.lt_succ_of_le (List.takeWhile_sublist Platform.windows.isSeparator).length_le
      · exact length_takeWhile_lt_two fun both => two ⟨c, d, rest, rfl, both⟩
    rwa [kept]

/-- With the gap closed, fragments are read as a path from a share exactly if the first one starts a
share itself, and the share is what stands after its separators. -/
theorem split_closeGap_eq_share_iff :
    (Root.split .windows (closeGap first (ofSegments .windows (first :: others)))).1 =
        .share server name ↔
      GoesOnAfterTwo first ∧
        ∃ rest, GoesOnWithShare (ofSegments .windows (first.drop 2 :: others)) server name rest := by
  by_cases goesOn : GoesOnAfterTwo first
  · rw [closeGap_of_goesOnAfterTwo goesOn, split_eq_share_iff, and_iff_right goesOn]
    obtain ⟨c, d, e, text, rfl, firstSep, secondSep, _⟩ := goesOn
    rw [ofSegments_cons_cons, ofSegments_cons_cons]
    constructor
    · rintro ⟨_, _, _, rest, same, _, _, shared⟩
      obtain ⟨-, -, rfl⟩ : _ ∧ _ ∧ _ := by simpa using same
      exact ⟨rest, shared⟩
    · rintro ⟨rest, shared⟩
      exact ⟨c, d, _, rest, rfl, firstSep, secondSep, shared⟩
  · refine iff_of_false ?_ fun both => goesOn both.1
    rw [split_eq_share_iff]
    rintro ⟨c, d, text, _, same, firstSep, secondSep, _⟩
    exact not_startsWithTwo_closeGap goesOn ⟨c, d, text, same, firstSep, secondSep⟩

end Gaps

/-- Joined fragments start with two separators exactly if they name a share, and this is the share
that the joined path starts from. -/
theorem join_startsWithTwo_iff (fragments : List String) :
    (StartsWithTwo (join .windows fragments).toList ↔
        ∃ server name, NamesShare fragments server name) ∧
      ∀ server name, (Root.split .windows (join .windows fragments).toList).1 = .share server name ↔
        NamesShare fragments server name := by
  have written : (join .windows fragments).toList =
      joinForm .windows (fragments.map String.toList) := String.toList_ofList
  rw [written]
  unfold joinForm NamesShare
  generalize (fragments.map String.toList).filter (· ≠ []) = parts
  cases parts with
  | nil =>
    have notTwo : ¬StartsWithTwo dot := by
      rintro ⟨c, d, rest, ⟨⟩, _⟩
    have notShare (server name : List Char) : (Root.split .windows dot).1 ≠ .share server name := by
      rintro ⟨⟩
    constructor
    · exact iff_of_false notTwo (by simp)
    · exact fun server name => iff_of_false (notShare server name) (by simp)
  | cons first others =>
    have found (server name : List Char) :
        (Root.split .windows (closeGap first (ofSegments .windows (first :: others)))).1 =
            .share server name ↔
          ∃ first' others', first :: others = first' :: others' ∧ GoesOnAfterTwo first' ∧
            ∃ rest, GoesOnWithShare (ofSegments .windows (first'.drop 2 :: others')) server name rest := by
      rw [split_closeGap_eq_share_iff]
      simp
    dsimp only
    constructor
    · rw [startsWithTwo_normalForm_iff]
      exact exists_congr fun server => exists_congr fun name => found server name
    · intro server name
      rw [split_normalForm_eq_share_iff]
      exact found server name

-- The separators of three fragments meet, but none of them starts a share itself.
example : join .windows ["", "/", "\\host", "disk"] = "\\host\\disk" ∧
    join .windows ["//host/", "\\disk", "x"] = "\\\\host\\disk\\x" := by
  decide

end PathGlob.Path
