import PathGlob.Glob.Normal
import PathGlob.Proofs.NormalPath

/-! # Shielded globs

A glob is shielded segment by segment, so normalizing it is a function of its segments as well. What
is shielded stays right after its `**` while the segments are resolved, which is why shielding a
normal form again finds the same segments, as long as the `**` is not joined to a drive.
-/

namespace PathGlob.Glob

open PathGlob.Path (dot dotDot)

def doubleStar : List Char := ['*', '*']

def shieldedParent : List Char := [shieldMark]

variable {platform : Platform} {segment : List Char} {segments rest stack : List (List Char)}
  {after base aboveRoot : Bool}

section Marks

theorem unshield_of_not_mem {text : List Char} (unmarked : shieldMark ∉ text) :
    unshield text = text := by
  induction text with
  | nil => rfl
  | cons c text ih =>
    obtain ⟨other, unmarked⟩ := not_or.mp (mt List.mem_cons.mpr unmarked)
    have rest : text.flatMap (fun c => if c = shieldMark then dotDot else [c]) = text := ih unmarked
    rw [unshield, List.flatMap_cons, rest, if_neg (Ne.symm other), List.singleton_append]

/-- Characters that are put back are dots. -/
theorem mem_of_mem_unshield {text : List Char} {c : Char} (isLeft : c ∈ unshield text) :
    c ∈ text ∧ c ≠ shieldMark ∨ c = '.' := by
  obtain ⟨d, inText, isLeft⟩ := List.mem_flatMap.mp isLeft
  by_cases mark : d = shieldMark
  · rw [if_pos mark] at isLeft
    right
    simpa [dotDot] using isLeft
  · rw [if_neg mark, List.mem_singleton] at isLeft
    subst isLeft
    exact .inl ⟨inText, mark⟩

theorem shieldMark_not_mem_unshield (text : List Char) : shieldMark ∉ unshield text := by
  intro isLeft
  rcases mem_of_mem_unshield isLeft with ⟨_, other⟩ | dot
  · exact other rfl
  · exact absurd dot (by decide)

theorem unshield_append (first second : List Char) :
    unshield (first ++ second) = unshield first ++ unshield second :=
  List.flatMap_append

/-- `..` is put back in each segment. -/
theorem unshield_ofSegments (platform : Platform) (segments : List (List Char)) :
    unshield (Path.ofSegments platform segments) = Path.ofSegments platform (segments.map unshield) := by
  have separator : unshield [platform.separator] = [platform.separator] := by
    cases platform <;> decide
  induction segments with
  | nil => rfl
  | cons segment rest ih =>
    by_cases alone : rest = []
    · subst alone
      rfl
    · rw [List.map_cons, Path.ofSegments_cons platform segment alone,
        Path.ofSegments_cons platform _ (by simpa using alone), unshield_append,
        ← List.singleton_append, unshield_append, separator, ih]
      rfl

theorem unshield_ne_nil {text : List Char} (nonempty : text ≠ []) : unshield text ≠ [] := by
  obtain ⟨c, text, rfl⟩ := List.exists_cons_of_ne_nil nonempty
  rw [unshield, List.flatMap_cons]
  apply List.append_ne_nil_of_left_ne_nil
  split
  · decide
  · exact List.cons_ne_nil c []

/-- Putting `..` back undoes shielding. -/
theorem map_unshield_shieldSegments (previous : List Char)
    (unmarked : ∀ segment ∈ segments, shieldMark ∉ segment) :
    (shieldSegments previous segments).map unshield = segments := by
  induction segments generalizing previous with
  | nil => rfl
  | cons segment rest ih =>
    obtain ⟨unmarked, others⟩ := List.forall_mem_cons.mp unmarked
    rw [shieldSegments, List.map_cons, ih _ others]
    split
    · next parent =>
      rw [parent.1]
      rfl
    · rw [unshield_of_not_mem unmarked]

/-- A segment with something in it is the one before the next. -/
theorem shieldSegments_cons (previous : List Char) (something : segment ≠ [])
    (rest : List (List Char)) :
    shieldSegments previous (segment :: rest) =
      (if segment = dotDot ∧ previous = doubleStar then shieldedParent else segment) ::
        shieldSegments segment rest := by
  rw [shieldSegments, if_neg something]
  rfl

/-- The first segment is never shielded. -/
theorem shieldSegments_nil_cons (segment : List Char) (rest : List (List Char)) :
    shieldSegments [] (segment :: rest) = segment :: shieldSegments segment rest := by
  have notStar : ¬(segment = dotDot ∧ ([] : List Char) = ['*', '*']) := by simp
  rw [shieldSegments, if_neg notStar]
  split
  · next empty => rw [empty]
  · rfl

private theorem mem_of_mem_shieldSegments {previous : List Char}
    (isLeft : segment ∈ shieldSegments previous segments) :
    segment ∈ segments ∨ segment = shieldedParent := by
  induction segments generalizing previous with
  | nil => cases isLeft
  | cons first rest ih =>
    rcases List.mem_cons.mp isLeft with rfl | isLeft
    · split
      · exact .inr rfl
      · exact .inl List.mem_cons_self
    · exact (ih isLeft).imp_left (List.mem_cons_of_mem first)

theorem isSeparator_of_mem_shieldSegments {previous : List Char} {c : Char}
    (whole : ∀ segment ∈ segments, ∀ c ∈ segment, platform.isSeparator c = false)
    (isLeft : segment ∈ shieldSegments previous segments) (inSegment : c ∈ segment) :
    platform.isSeparator c = false := by
  rcases mem_of_mem_shieldSegments isLeft with isSegment | rfl
  · exact whole segment isSegment c inSegment
  · obtain rfl := List.mem_singleton.mp inSegment
    cases platform <;> rfl

/-- The segments of a shielded glob are the shielded segments of the glob. -/
theorem segments_shield (platform : Platform) (glob : List Char) :
    Path.segments platform (shield platform glob) =
      shieldSegments [] (Path.segments platform glob) := by
  obtain ⟨first, rest, cut⟩ := List.exists_cons_of_ne_nil (Path.segments_ne_nil platform glob)
  apply Path.segments_ofSegments
  · rw [cut]
    exact List.cons_ne_nil _ _
  · exact fun segment isLeft c inSegment => isSeparator_of_mem_shieldSegments
      (fun segment isSegment c => Path.isSeparator_of_mem_segments isSegment) isLeft inSegment

end Marks

section Placement

/-- Whether `**` is the last segment that is not empty, after one more segment. -/
def afterDoubleStar (after : Bool) (segment : List Char) : Bool :=
  if segment = [] then after else segment = doubleStar

/-- A segment is a shielded `..` right after `**`, and neither a `..` there nor marked elsewhere. -/
def IsPlaced (after : Bool) (segment : List Char) : Prop :=
  (segment = dotDot → after = false) ∧
    (shieldMark ∈ segment → segment = shieldedParent ∧ after = true)

/-- Each `..` right after `**` is shielded, and nothing else is. -/
def IsShielded (after : Bool) : List (List Char) → Prop
  | [] => True
  | segment :: rest => IsPlaced after segment ∧ IsShielded (afterDoubleStar after segment) rest

private theorem isPlaced_of_not_mem (unmarked : shieldMark ∉ segment) (named : segment ≠ dotDot) :
    IsPlaced after segment :=
  ⟨fun parent => (named parent).elim, fun marked => (unmarked marked).elim⟩

private theorem isPlaced_nil : IsPlaced after [] :=
  isPlaced_of_not_mem (by simp) (by decide)

private theorem isPlaced_dot : IsPlaced after dot :=
  isPlaced_of_not_mem (by decide) (by decide)

private theorem IsPlaced.shieldMark_not_mem (placed : IsPlaced false segment) : shieldMark ∉ segment :=
  fun marked => Bool.false_ne_true (placed.2 marked).2

theorem isShielded_append (front back : List (List Char)) :
    IsShielded after (front ++ back) ↔
      IsShielded after front ∧ IsShielded (front.foldl afterDoubleStar after) back := by
  induction front generalizing after with
  | nil => simp [IsShielded]
  | cons segment front ih => simp only [List.cons_append, IsShielded, List.foldl_cons, ih, and_assoc]

theorem IsShielded.append_end (shielded : IsShielded after segments) (closed : Bool) :
    IsShielded after (segments ++ Path.ending closed) := by
  rw [isShielded_append]
  refine ⟨shielded, ?_⟩
  cases closed with
  | true => exact ⟨isPlaced_nil, trivial⟩
  | false => trivial

/-- Shielding shields. -/
theorem isShielded_shieldSegments (previous : List Char)
    (unmarked : ∀ segment ∈ segments, shieldMark ∉ segment) :
    IsShielded (previous = doubleStar) (shieldSegments previous segments) := by
  induction segments generalizing previous with
  | nil => trivial
  | cons segment rest ih =>
    obtain ⟨unmarked, others⟩ := List.forall_mem_cons.mp unmarked
    rw [shieldSegments]
    by_cases parent : segment = dotDot ∧ previous = ['*', '*']
    · obtain ⟨rfl, rfl⟩ := parent
      exact ⟨⟨by decide, fun _ => ⟨rfl, rfl⟩⟩, ih dotDot others⟩
    · rw [if_neg parent]
      refine ⟨⟨fun isParent => ?_, fun marked => (unmarked marked).elim⟩, ?_⟩
      · exact decide_eq_false fun isStar => parent ⟨isParent, isStar⟩
      · unfold afterDoubleStar
        by_cases empty : segment = []
        · rw [if_pos empty, if_pos empty]
          exact ih previous others
        · rw [if_neg empty, if_neg empty]
          exact ih segment others

/-- Segments that are shielded come back when `..` is put in and they are shielded again. -/
theorem shieldSegments_map_unshield {previous : List Char}
    (shielded : IsShielded (previous = doubleStar) segments) :
    shieldSegments previous (segments.map unshield) = segments := by
  induction segments generalizing previous with
  | nil => rfl
  | cons segment rest ih =>
    obtain ⟨placed, shielded⟩ := shielded
    rw [List.map_cons, shieldSegments]
    by_cases marked : shieldMark ∈ segment
    · obtain ⟨rfl, isStar⟩ := placed.2 marked
      have put : unshield shieldedParent = dotDot := rfl
      rw [put, if_pos ⟨rfl, of_decide_eq_true isStar⟩]
      exact congrArg (List.cons shieldedParent) (ih shielded)
    · have notParent : ¬(segment = dotDot ∧ previous = ['*', '*']) := by
        rintro ⟨parent, isStar⟩
        exact of_decide_eq_false (placed.1 parent) isStar
      rw [unshield_of_not_mem marked, if_neg notParent]
      refine congrArg (List.cons segment) (ih ?_)
      unfold afterDoubleStar at shielded
      split
      · next empty => rwa [if_pos empty] at shielded
      · next something => rwa [if_neg something] at shielded

end Placement

section Stack

/-- One more segment leaves a shielded stack, where `..` is kept only at a root that is not `**`. -/
theorem isShielded_descend (onStack : IsShielded base stack.reverse)
    (keeps : aboveRoot = true → base = false) (placed : IsPlaced after segment)
    (follows : after = true → stack.reverse.foldl afterDoubleStar base = true) :
    IsShielded base (Path.descend aboveRoot stack segment).reverse ∧
      (afterDoubleStar after segment = true →
        (Path.descend aboveRoot stack segment).reverse.foldl afterDoubleStar base = true) := by
  rcases Path.descend_cases aboveRoot stack segment with
    ⟨rfl | rfl, same⟩ | ⟨rfl, last, below, rfl, _, same⟩ | ⟨rfl, parents, same⟩ | ⟨something, _, named, same⟩
  · rw [same]
    exact ⟨onStack, follows⟩
  · rw [same]
    exact ⟨onStack, fun isStar => absurd isStar Bool.false_ne_true⟩
  · rw [same]
    rw [List.reverse_cons, isShielded_append] at onStack
    exact ⟨onStack.1, fun isStar => absurd isStar Bool.false_ne_true⟩
  · rw [same]
    refine ⟨?_, fun isStar => absurd isStar Bool.false_ne_true⟩
    cases aboveRoot with
    | false => exact onStack
    | true =>
      rw [if_pos rfl, List.reverse_cons, isShielded_append]
      refine ⟨onStack, ⟨fun _ => ?_, fun marked => absurd marked (by decide)⟩, trivial⟩
      -- The stack is empty or has another `..` on top.
      cases stack with
      | nil => exact keeps rfl
      | cons last below =>
        obtain rfl := parents last rfl
        rw [List.reverse_cons, List.foldl_append]
        rfl
  · rw [same, List.reverse_cons, isShielded_append, List.foldl_append]
    refine ⟨⟨onStack, ⟨fun parent => (named parent).elim, fun marked => ?_⟩, trivial⟩, fun isStar => ?_⟩
    · obtain ⟨isShield, isAfter⟩ := placed.2 marked
      exact ⟨isShield, follows isAfter⟩
    · rw [afterDoubleStar, if_neg something] at isStar
      rw [List.foldl_cons, List.foldl_nil, afterDoubleStar, if_neg something]
      exact isStar

/-- Resolving shielded segments leaves shielded segments. -/
theorem isShielded_foldl_descend (onStack : IsShielded base stack.reverse)
    (keeps : aboveRoot = true → base = false) (shielded : IsShielded after segments)
    (follows : after = true → stack.reverse.foldl afterDoubleStar base = true) :
    IsShielded base (segments.foldl (Path.descend aboveRoot) stack).reverse := by
  induction segments generalizing after stack with
  | nil => exact onStack
  | cons segment segments ih =>
    obtain ⟨placed, shielded⟩ := shielded
    obtain ⟨onStack, follows⟩ := isShielded_descend onStack keeps placed follows
    exact ih onStack shielded follows

theorem isShielded_resolve (keeps : aboveRoot = true → base = false)
    (shielded : IsShielded base segments) : IsShielded base (Path.resolve aboveRoot segments) :=
  isShielded_foldl_descend trivial keeps shielded id

end Stack

section NormalForms

open PathGlob.Path (Root)

variable {parts body resolved : List (List Char)} {root : Root} {closed : Bool}

def afterRoot : Root → Bool
  | .share _ name => name = doubleStar
  | _ => false

private theorem afterDoubleStar_drive (after : Bool) (letter : Char) (name : List Char) :
    afterDoubleStar after (letter :: ':' :: name) = false := by
  simp [afterDoubleStar, doubleStar]

theorem afterDoubleStar_of_ne_nil (something : segment ≠ []) :
    afterDoubleStar after segment = decide (segment = doubleStar) :=
  if_neg something

private theorem isShielded_append_empty {gap : List (List Char)}
    (empty : ∀ segment ∈ gap, segment = []) :
    IsShielded after (gap ++ segments) ↔ IsShielded after segments := by
  induction gap with
  | nil => rfl
  | cons segment gap ih =>
    obtain ⟨rfl, others⟩ := List.forall_mem_cons.mp empty
    exact (and_iff_right isPlaced_nil).trans (ih others)

/-- What is shielded stays shielded when it is resolved after its root. -/
theorem isShielded_resolve_of_reads (reads : Root.Reads parts root rest)
    (shielded : IsShielded false parts) :
    IsShielded (afterRoot root) (Path.resolve (!root.isAbsolute) rest) := by
  cases reads with
  | here => exact isShielded_resolve (fun _ => rfl) shielded
  | top => exact isShielded_resolve (fun _ => rfl) shielded.2
  | driveTop =>
    have shielded := shielded.2
    rw [afterDoubleStar_drive] at shielded
    exact isShielded_resolve (fun _ => rfl) shielded
  | @drive letter isLetter first others =>
    obtain ⟨placed, shielded⟩ := shielded
    have unmarked : shieldMark ∉ first := fun marked => placed.shieldMark_not_mem (by simp [marked])
    have placed : IsPlaced false first := ⟨fun _ => rfl, fun marked => (unmarked marked).elim⟩
    have empty : IsShielded false [].reverse := trivial
    have nothing : (false = true → [].reverse.foldl afterDoubleStar false = true) := id
    have keeps : true = true → false = false := fun _ => rfl
    obtain ⟨onStack, _⟩ := isShielded_descend empty keeps placed nothing
    rw [afterDoubleStar_drive] at shielded
    have resolved := isShielded_foldl_descend onStack keeps shielded
      (fun isAfter => absurd isAfter Bool.false_ne_true)
    exact resolved
  | share onServer named empty rest =>
    obtain ⟨_, _, _, shielded⟩ := shielded
    obtain ⟨_, shielded⟩ := (isShielded_append_empty empty).mp shielded
    rw [afterDoubleStar_of_ne_nil named] at shielded
    exact isShielded_resolve (fun above => absurd above Bool.false_ne_true) shielded

/-- What is shielded after its root is shielded behind the segments of the root, unless a `..` was
shielded by a `**` that comes to be joined to a drive. -/
theorem isShielded_withSegments (reads : Root.Reads parts root rest) (shielded : IsShielded false parts)
    (inBody : IsShielded (afterRoot root) body)
    (apart : ∀ letter, root = .drive letter → ∀ next others, body = doubleStar :: next :: others →
      next ≠ shieldedParent ∧ (next = [] → others = [])) :
    IsShielded false (root.withSegments body) := by
  cases reads with
  | here => exact inBody
  | top => exact ⟨isPlaced_nil, inBody⟩
  | driveTop =>
    refine ⟨shielded.1, ?_⟩
    rw [afterDoubleStar_drive]
    exact inBody
  | @drive letter isLetter first others =>
    have unmarked := shielded.1.shieldMark_not_mem
    have placed {name : List Char} (unmarkedName : shieldMark ∉ name) :
        IsPlaced false (letter :: ':' :: name) := by
      refine isPlaced_of_not_mem ?_ (by simp [dotDot])
      simp only [List.mem_cons, not_or] at unmarked ⊢
      exact ⟨unmarked.1, unmarked.2.1, unmarkedName⟩
    cases body with
    | nil => exact ⟨placed List.not_mem_nil, trivial⟩
    | cons name more =>
      obtain ⟨placedName, inMore⟩ := inBody
      refine ⟨placed placedName.shieldMark_not_mem, ?_⟩
      rw [afterDoubleStar_drive]
      by_cases isStar : name = doubleStar
      · subst isStar
        cases more with
        | nil => trivial
        | cons next others =>
          -- What comes after `**` is not shielded, so it does not matter what is before.
          obtain ⟨named, atEnd⟩ := apart letter rfl next others rfl
          obtain ⟨⟨_, marked⟩, inOthers⟩ := inMore
          refine ⟨⟨fun _ => rfl, fun isMarked => (named (marked isMarked).1).elim⟩, ?_⟩
          by_cases empty : next = []
          · rw [atEnd empty]
            trivial
          · rw [afterDoubleStar_of_ne_nil empty] at inOthers ⊢
            exact inOthers
      · have after : afterDoubleStar (afterRoot (.drive letter)) name = false := by
          unfold afterDoubleStar
          split
          · rfl
          · exact decide_eq_false isStar
        rwa [after] at inMore
  | share onServer named empty rest =>
    obtain ⟨first, second, onServer, shielded⟩ := shielded
    obtain ⟨named', _⟩ := (isShielded_append_empty empty).mp shielded
    refine ⟨first, second, onServer, named', ?_⟩
    rw [afterDoubleStar_of_ne_nil named]
    exact inBody

private theorem isShielded_body (inResolved : IsShielded (afterRoot root) resolved) :
    IsShielded (afterRoot root) (root.body resolved closed) := by
  unfold Root.body
  split
  · exact ⟨isPlaced_nil, trivial⟩
  · refine IsShielded.append_end ?_ closed
    split
    · exact ⟨isPlaced_dot, trivial⟩
    · exact inResolved

/-- A normal form is shielded as the path is, unless a `..` was shielded by a `**` that comes to be
joined to a drive. -/
theorem isShielded_normalSegments (read : Root.ofSegments platform parts = (root, rest))
    (shielded : IsShielded false parts)
    (apart : ∀ letter, root = .drive letter → ∀ others,
      Path.resolve true rest ≠ doubleStar :: shieldedParent :: others) :
    IsShielded false (Path.normalSegments platform parts) := by
  have reads := Root.reads_ofSegments platform parts
  rw [read] at reads
  rw [Path.normalSegments, read]
  apply isShielded_withSegments reads shielded
  · exact isShielded_body (isShielded_resolve_of_reads reads shielded)
  · rintro letter rfl next others written
    have kept := apart letter rfl
    have nonempty : ∀ segment ∈ Path.resolve true rest, segment ≠ [] :=
      fun segment => Path.ne_nil_of_mem_resolve
    change (Root.drive letter).body (Path.resolve true rest) (Path.isClosed parts) = _ at written
    generalize Path.resolve true rest = resolved at kept nonempty written
    rcases resolved with _ | ⟨first, _ | ⟨second, more⟩⟩
    · rw [Root.body_nil_of_relative rfl] at written
      exact absurd (List.cons.inj written).1 (by decide)
    · -- Behind `**` alone there can only be the end of a path with a separator there.
      rw [Root.body_cons] at written
      have following : Path.ending (Path.isClosed parts) = next :: others := (List.cons.inj written).2
      cases closed : Path.isClosed parts with
      | true =>
        rw [closed] at following
        obtain ⟨rfl, rfl⟩ := List.cons.inj following
        exact ⟨by decide, fun _ => rfl⟩
      | false =>
        rw [closed] at following
        cases following
    · rw [Root.body_cons] at written
      obtain ⟨rfl, following⟩ := List.cons.inj written
      obtain ⟨rfl, _⟩ := List.cons.inj following
      refine ⟨?_, fun empty => absurd empty (nonempty second (by simp))⟩
      rintro rfl
      exact kept more rfl

end NormalForms

end PathGlob.Glob
