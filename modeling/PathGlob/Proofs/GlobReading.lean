import PathGlob.Proofs.CanonicalPath
import PathGlob.Proofs.CursorReading

/-! # Reading a glob segment by segment

What is found between the bounds of the segments of a glob are the names of its text, and each of
them reads as it reads alone (`Glob.ofText_eq`). So no segment has a say in how another one reads,
and neither have the separators around them.
-/

namespace PathGlob.Glob

variable {options : Options} {platform : Platform} {before name separators rest todo : List Char}

/-- The first place behind a front without what is searched for. -/
private theorem findIdx_append_front {p : Char → Bool} {front back : List Char}
    (none : ∀ c ∈ front, p c = false) (first : ∀ c, back.head? = some c → p c = true) :
    (front ++ back).findIdx p = front.length := by
  induction front with
  | nil =>
    cases back with
    | nil => rfl
    | cons c back => rw [List.nil_append, List.findIdx_cons, first c rfl]; rfl
  | cons c front ih =>
    obtain ⟨here, others⟩ := List.forall_mem_cons.mp none
    rw [List.cons_append, List.findIdx_cons, here, cond_false, ih others, List.length_cons]

private theorem isBoundary_head?_of_parted (separate : ∀ c ∈ separators, platform.isSeparator c = true)
    (parted : separators = [] → rest = []) :
    platform.isBoundary (separators ++ rest).head? = true := by
  cases separators with
  | nil => rw [parted rfl]; rfl
  | cons s separators => exact separate s List.mem_cons_self

/-- A segment stops before the separators behind it. -/
theorem segmentEnd_append (before : List Char) (whole : ∀ c ∈ name, platform.isSeparator c = false)
    (separate : ∀ c ∈ separators, platform.isSeparator c = true)
    (parted : separators = [] → rest = []) :
    segmentEnd platform (before ++ (name ++ (separators ++ rest))) before.length =
      before.length + name.length := by
  rw [segmentEnd, List.drop_left, findIdx_append_front whole]
  intro c starts
  have boundary := isBoundary_head?_of_parted separate parted
  rwa [starts] at boundary

/-- The search for the next segment goes over all separators. -/
theorem skipSeparators_append (before : List Char)
    (separate : ∀ c ∈ separators, platform.isSeparator c = true)
    (starts : rest.head?.any platform.isSeparator = false) :
    skipSeparators platform (before ++ (separators ++ rest)) before.length =
      before.length + separators.length := by
  rw [skipSeparators, List.drop_left, findIdx_append_front]
  · exact fun c inRun => by rw [separate c inRun]; rfl
  · intro c isFirst
    rw [isFirst, Option.any_some] at starts
    rw [starts]
    rfl

/-- A segment of a text, by its bounds. -/
structure StandsAt (platform : Platform) (text : List Char) (bounds : Nat × Nat)
    (segment : List Char) : Prop where
  nonempty : segment ≠ []
  whole : ∀ c ∈ segment, platform.isSeparator c = false
  around : ∃ before after, text = before ++ segment ++ after ∧
    bounds = (before.length, before.length + segment.length) ∧
    platform.isBoundary before.getLast? = true ∧ platform.isBoundary after.head? = true

/-- A round goes over a segment and the separators behind it. -/
private theorem bounds?_succ (before : List Char) (rounds : Nat) (further : name ++ separators ≠ [])
    (whole : ∀ c ∈ name, platform.isSeparator c = false)
    (separate : ∀ c ∈ separators, platform.isSeparator c = true)
    (parted : separators = [] → rest = [])
    (starts : rest.head?.any platform.isSeparator = false) :
    bounds? platform (before ++ (name ++ (separators ++ rest))) (rounds + 1) before.length =
      (bounds? platform (before ++ (name ++ separators) ++ rest) rounds
        (before ++ (name ++ separators)).length).map
        ((before.length, before.length + name.length) :: ·) := by
  have further := List.length_pos_iff.mpr further
  rw [List.length_append] at further
  have stop := segmentEnd_append before whole separate parted
  have next := skipSeparators_append (before ++ name) separate starts
  simp only [List.append_assoc, List.length_append] at next ⊢
  rw [bounds?, if_pos (by simp only [List.length_append]; omega)]
  dsimp only
  rw [stop, next, if_neg (by omega), Nat.add_assoc]

/-- From a place on where no separator stands, the bounds are those of the names of the text. -/
theorem bounds?_eq {rounds : Nat} (before : List Char)
    (unrooted : todo.head?.any platform.isSeparator = false)
    (starts : todo ≠ [] → platform.isBoundary before.getLast? = true)
    (enough : todo.length ≤ rounds) :
    ∃ bounds, bounds? platform (before ++ todo) rounds before.length = some bounds ∧
      List.Forall₂ (StandsAt platform (before ++ todo)) bounds (Path.names platform todo) := by
  induction rounds generalizing before todo with
  | zero =>
    obtain rfl := List.eq_nil_of_length_eq_zero (Nat.le_zero.mp enough)
    exact ⟨[], rfl, .nil⟩
  | succ rounds ih =>
    obtain ⟨name, separators, rest, rfl, whole, separate, parted, start⟩ :=
      Path.exists_first_run platform todo
    by_cases nonempty : name = []
    · -- Then nothing is left, since the text does not start with a separator.
      subst nonempty
      cases separators with
      | nil =>
        rw [parted rfl]
        exact ⟨[], if_neg (by simp), .nil⟩
      | cons s separators =>
        rw [List.nil_append, List.cons_append, List.head?_cons, Option.any_some,
          separate s List.mem_cons_self] at unrooted
        cases unrooted
    have further : name ++ separators ≠ [] := List.append_ne_nil_of_left_ne_nil nonempty _
    have partedBefore : rest ≠ [] →
        platform.isBoundary (before ++ (name ++ separators)).getLast? = true := by
      intro more
      have parts : separators ≠ [] := fun none => more (parted none)
      rw [List.getLast?_append_of_ne_nil _ further, List.getLast?_append_of_ne_nil _ parts,
        List.getLast?_eq_some_getLast parts]
      exact separate _ (List.getLast_mem parts)
    have shorter : rest.length ≤ rounds := by
      have := List.length_pos_iff.mpr further
      simp only [List.length_append] at enough this
      omega
    obtain ⟨bounds, found, stand⟩ := ih (before ++ (name ++ separators)) start partedBefore shorter
    refine ⟨(before.length, before.length + name.length) :: bounds, ?_, ?_⟩
    · rw [bounds?_succ before rounds further whole separate parted start, found]
      rfl
    · rw [Path.names_append_run nonempty whole separate parted]
      rw [List.append_assoc, List.append_assoc] at stand
      refine .cons ⟨nonempty, whole, before, separators ++ rest, ?_, rfl, ?_, ?_⟩ stand
      · rw [List.append_assoc]
      · exact starts (List.append_ne_nil_of_left_ne_nil nonempty _)
      · exact isBoundary_head?_of_parted separate parted

private theorem StandsAt.read_eq {text segment : List Char} {bounds : Nat × Nat}
    (stands : StandsAt options.platform text bounds segment) :
    bounds.1 < bounds.2 ∧
      GlobSegment.read options text bounds.1 bounds.2 = GlobSegment.ofText options segment := by
  obtain ⟨nonempty, whole, before, after, rfl, rfl, starts, stops⟩ := stands
  exact ⟨Nat.lt_add_of_pos_right (List.length_pos_iff.mpr nonempty),
    GlobSegment.read_eq_ofText whole starts stops⟩

/-- What stands between bounds makes up the segments of the glob. -/
theorem ofBounds_eq {text : List Char} {bounds : List (Nat × Nat)} {names : List (List Char)}
    (stand : List.Forall₂ (StandsAt options.platform text) bounds names) :
    ofBounds options text bounds = ⟨false, names.map (GlobSegment.ofText options)⟩ := by
  induction stand with
  | nil => rfl
  | cons stands _ ih =>
    obtain ⟨proper, reads⟩ := stands.read_eq
    obtain ⟨unrooted, segments⟩ := Glob.mk.inj ih
    simp [ofBounds, proper.ne, reads, unrooted, segments]

/-- The text before a separator in front is no segment. -/
theorem ofBounds_cons_empty (options : Options) (text : List Char) (place : Nat)
    (bounds : List (Nat × Nat)) :
    ofBounds options text ((place, place) :: bounds) =
      ⟨true, (ofBounds options text bounds).segments⟩ := by
  simp [ofBounds]

private theorem dropTrailing_eq (platform : Platform) (text : List Char) :
    dropTrailing platform text = GlobMeaning.withoutTrailing platform text := by
  cases text <;> rfl

/-- A reader that goes over the text of a glob finds the names of the text, and it reads each of them
as it reads alone. -/
theorem read?_eq (options : Options) (text : List Char) :
    read? options text = some ⟨text.head?.any options.platform.isSeparator,
      (Path.names options.platform text).map (GlobSegment.ofText options)⟩ := by
  obtain ⟨sameNames, sameHead⟩ := GlobMeaning.withoutTrailing_spec options.platform text
  rw [read?, dropTrailing_eq, ← sameNames, ← sameHead]
  generalize GlobMeaning.withoutTrailing options.platform text = text
  cases rooted : text.head?.any options.platform.isSeparator with
  | false =>
    obtain ⟨bounds, found, stand⟩ :=
      bounds?_eq [] rooted (fun _ => rfl) (Nat.le_refl text.length)
    rw [List.nil_append, List.length_nil] at found
    exact (congrArg _ found).trans (congrArg some (ofBounds_eq stand))
  | true =>
    obtain ⟨name, separators, rest, rfl, whole, separate, parted, start⟩ :=
      Path.exists_first_run options.platform text
    obtain rfl : name = [] := by
      by_contra nonempty
      obtain ⟨c, name, rfl⟩ := List.exists_cons_of_ne_nil nonempty
      rw [List.cons_append, List.head?_cons, Option.any_some, whole c List.mem_cons_self] at rooted
      cases rooted
    obtain ⟨s, separators, rfl⟩ : ∃ s others, separators = s :: others := by
      refine List.exists_cons_of_ne_nil fun none => ?_
      rw [none, parted none] at rooted
      cases rooted
    have boundary : rest ≠ [] → options.platform.isBoundary (s :: separators).getLast? = true :=
      fun _ => separate _ (List.getLast_mem (List.cons_ne_nil s separators))
    have enough : rest.length ≤ (separators ++ rest).length := by simp
    obtain ⟨bounds, found, stand⟩ := bounds?_eq (s :: separators) start boundary enough
    have first := bounds?_succ [] (separators ++ rest).length (by simp) whole separate parted start
    simp only [List.nil_append] at first ⊢
    rw [found] at first
    rw [Path.names_separators_append separate]
    refine (congrArg _ first).trans ?_
    rw [Option.map_some, Option.map_some, List.length_nil, ofBounds_cons_empty, ofBounds_eq stand]

theorem ofText_eq (options : Options) (text : List Char) :
    ofText options text = ⟨text.head?.any options.platform.isSeparator,
      (Path.names options.platform text).map (GlobSegment.ofText options)⟩ :=
  Option.get_of_eq_some _ (read?_eq options text)

/-! ### The end of a glob

What follows a segment in an expression depends on whether it is the last one. It is, if and only if
it stops where the text ends.
-/

/-- Of some bounds only the last one stops where a text of some length ends. -/
def LastReaches (length : Nat) : List (Nat × Nat) → Prop
  | [] => True
  | (_, stop) :: others => (stop < length ↔ others ≠ []) ∧ LastReaches length others

section

variable {text : List Char} (ends : ∀ c, text.getLast? = some c → platform.isSeparator c = false)

include ends

/-- Behind separators a segment follows. -/
private theorem skipSeparators_lt_iff (place : Nat) :
    skipSeparators platform text place < text.length ↔ place < text.length := by
  refine ⟨fun inside => by rw [skipSeparators] at inside; omega, fun inside => ?_⟩
  have nonempty : text.drop place ≠ [] := by simpa using inside
  have last : (text.drop place).getLast nonempty ∈ text.drop place := List.getLast_mem nonempty
  have isName : (!platform.isSeparator ((text.drop place).getLast nonempty)) = true := by
    rw [Bool.not_eq_true']
    apply ends
    rw [← List.getLast?_eq_some_getLast nonempty, List.getLast?_drop, if_neg (Nat.not_le.mpr inside)]
  have found : (text.drop place).findIdx (!platform.isSeparator ·) < (text.drop place).length :=
    List.findIdx_lt_length_of_exists ⟨_, last, isName⟩
  rw [List.length_drop] at found
  rw [skipSeparators]
  omega

private theorem lastReaches_of_bounds? {rounds start : Nat} {bounds : List (Nat × Nat)}
    (enough : text.length ≤ start + rounds) (found : bounds? platform text rounds start = some bounds) :
    (start < text.length ↔ bounds ≠ []) ∧ LastReaches text.length bounds := by
  induction rounds generalizing start bounds with
  | zero =>
    obtain rfl : bounds = [] := (Option.some.inj found).symm
    exact ⟨by simp; omega, trivial⟩
  | succ rounds ih =>
    rw [bounds?] at found
    split at found
    · next inside =>
      have further := lt_skipSeparators platform inside
      dsimp only at found
      rw [if_neg (Nat.not_le.mpr further)] at found
      obtain ⟨others, foundOthers, rfl⟩ := Option.map_eq_some_iff.mp found
      obtain ⟨more, reaches⟩ := ih (by omega) foundOthers
      rw [skipSeparators_lt_iff ends] at more
      exact ⟨by simp [inside], more, reaches⟩
    · next outside =>
      obtain rfl : bounds = [] := (Option.some.inj found).symm
      exact ⟨by simp [outside], trivial⟩

end

/-- In a glob with a segment, separators or other segments follow a segment unless it is the last. -/
theorem lastReaches_bounds {text : List Char} {bounds : List (Nat × Nat)}
    (named : Path.names platform text ≠ [])
    (found : bounds? platform (dropTrailing platform text) (dropTrailing platform text).length 0 =
      some bounds) :
    LastReaches (dropTrailing platform text).length bounds := by
  rw [dropTrailing_eq] at found ⊢
  cases text with
  | nil => exact absurd rfl named
  | cons c rest =>
    rcases GlobMeaning.withoutTrailing_cases platform c rest with ⟨alone, separates⟩ | ends
    · rw [← (GlobMeaning.withoutTrailing_spec platform (c :: rest)).1, alone,
        Path.names_cons_separator separates] at named
      exact absurd rfl named
    · exact (lastReaches_of_bounds? ends (by omega) found).2

end PathGlob.Glob
