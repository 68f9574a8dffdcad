import Mathlib.Logic.Relation
import PathGlob.Proofs.PathResolution

/-! # Segments that cancel

A `..` and the name right before it cancel. This says nothing about the order in which they do, or
about a stack: whatever is cancelled first, the same segments are left when nothing cancels any more,
and these are the ones that are resolved.
-/

namespace PathGlob.Path

open Relation

variable {aboveRoot : Bool} {segments settled next left stack : List (List Char)}
  {segment : List Char}

/-- A name and a `..` right behind it are taken away. -/
inductive Cancels : List (List Char) → List (List Char) → Prop
  | intro (front : List (List Char)) {name : List Char} (nonempty : name ≠ []) (notDot : name ≠ dot)
      (named : name ≠ dotDot) (back : List (List Char)) :
      Cancels (front ++ name :: dotDot :: back) (front ++ back)

/-- The segments that say where a path leads: not the empty ones, and no `.`. -/
def telling (segments : List (List Char)) : List (List Char) :=
  segments.filter fun segment => segment ≠ [] ∧ segment ≠ dot

/-- What is left of some segments: names and `..` cancel until no more of them do, and a `..` that is
left then is dropped if nothing is above the root. -/
def Resolves (aboveRoot : Bool) (segments left : List (List Char)) : Prop :=
  ∃ settled, ReflTransGen Cancels (telling segments) settled ∧ (∀ next, ¬Cancels settled next) ∧
    left = if aboveRoot then settled else settled.filter (· ≠ dotDot)

theorem Cancels.subset (cancels : Cancels segments next) : next ⊆ segments := by
  obtain ⟨front, _, _, _, back⟩ := cancels
  exact (List.Sublist.append_left (by simp) front).subset

theorem Cancels.cons (cancels : Cancels segments next) :
    Cancels (segment :: segments) (segment :: next) := by
  obtain ⟨front, nonempty, notDot, named, back⟩ := cancels
  exact .intro (segment :: front) nonempty notDot named back

/-- What cancels does not change what is resolved. -/
theorem Cancels.resolve_eq (cancels : Cancels segments next) (aboveRoot : Bool) :
    resolve aboveRoot segments = resolve aboveRoot next := by
  obtain ⟨front, nonempty, notDot, named, back⟩ := cancels
  rw [resolve, resolve, List.foldl_append, List.foldl_append, List.foldl_cons, List.foldl_cons,
    descend_of_name nonempty notDot named, descend_dotDot_of_name named]

private theorem resolve_eq_of_reflTransGen (cancelled : ReflTransGen Cancels segments settled)
    (aboveRoot : Bool) : resolve aboveRoot segments = resolve aboveRoot settled := by
  induction cancelled with
  | refl => rfl
  | tail _ cancels ih => exact ih.trans (cancels.resolve_eq aboveRoot)

section Settled

/-- Nothing cancels in resolved segments. -/
theorem IsResolved.not_cancels (resolved : IsResolved true segments.reverse) :
    ¬Cancels segments next := by
  rintro ⟨front, _, _, named, back⟩
  rw [List.reverse_append, List.reverse_cons, List.reverse_cons, List.append_assoc,
    List.append_assoc] at resolved
  exact named ((resolved.of_append.2.2.1 rfl).2 _ (by simp))

/-- Where nothing cancels there are only names behind a name. -/
theorem ne_dotDot_of_not_cancels (nonempty : segment ≠ []) (notDot : segment ≠ dot)
    (named : segment ≠ dotDot) (each : ∀ other ∈ settled, other ≠ [] ∧ other ≠ dot)
    (stuck : ∀ next, ¬Cancels (segment :: settled) next) : ∀ other ∈ settled, other ≠ dotDot := by
  induction settled generalizing segment with
  | nil => simp
  | cons first settled ih =>
    have firstNamed : first ≠ dotDot := by
      rintro rfl
      exact stuck settled (.intro [] nonempty notDot named settled)
    obtain ⟨⟨firstNonempty, firstNotDot⟩, each⟩ := List.forall_mem_cons.mp each
    have others := ih firstNonempty firstNotDot firstNamed each fun next cancels =>
      stuck (segment :: next) cancels.cons
    exact List.forall_mem_cons.mpr ⟨firstNamed, others⟩

private theorem IsResolved.append_dotDot (resolved : IsResolved true stack) :
    IsResolved true (stack ++ [dotDot]) := by
  induction stack with
  | nil => exact ⟨by decide, by decide, by simp, trivial⟩
  | cons top below ih =>
    obtain ⟨nonempty, notDot, parents, below⟩ := resolved
    refine ⟨nonempty, notDot, fun parent => ⟨rfl, ?_⟩, ih below⟩
    exact List.forall_mem_append.mpr ⟨(parents parent).2, by simp⟩

/-- Segments in which nothing cancels are resolved. -/
theorem isResolved_of_not_cancels (each : ∀ segment ∈ settled, segment ≠ [] ∧ segment ≠ dot)
    (stuck : ∀ next, ¬Cancels settled next) : IsResolved true settled.reverse := by
  induction settled with
  | nil => trivial
  | cons first settled ih =>
    obtain ⟨⟨nonempty, notDot⟩, others⟩ := List.forall_mem_cons.mp each
    rw [List.reverse_cons]
    by_cases parent : first = dotDot
    · subst parent
      exact (ih others fun next cancels => stuck _ cancels.cons).append_dotDot
    · have names := ne_dotDot_of_not_cancels nonempty notDot parent others stuck
      have alone : IsResolved true [first] :=
        ⟨nonempty, notDot, fun isParent => (parent isParent).elim, trivial⟩
      apply alone.append_of_names
      intro other isOther
      have isOther := List.mem_reverse.mp isOther
      exact ⟨(others other isOther).1, (others other isOther).2, names other isOther⟩

end Settled

section Reaching

/-- The segments on a stack and those to come cancel to what is resolved. -/
theorem reflTransGen_cancels_foldl (resolved : IsResolved true stack) :
    ReflTransGen Cancels (stack.reverse ++ telling segments)
      (segments.foldl (descend true) stack).reverse := by
  induction segments generalizing stack with
  | nil =>
    rw [telling, List.filter_nil, List.append_nil]
    exact .refl
  | cons segment segments ih =>
    rw [List.foldl_cons]
    refine .trans ?_ (ih (resolved.descend segment))
    rcases descend_cases true stack segment with
      ⟨skipped, same⟩ | ⟨rfl, last, below, rfl, named, same⟩ | ⟨rfl, _, same⟩ |
        ⟨nonempty, notDot, _, same⟩
    · rw [same, telling, List.filter_cons_of_neg (by simpa [Decidable.or_iff_not_imp_left] using skipped)]
      exact .refl
    · rw [same, List.reverse_cons, List.append_assoc]
      exact .single (.intro below.reverse resolved.1 resolved.2.1 named (telling segments))
    · rw [same, if_pos rfl, List.reverse_cons, List.append_assoc]
      exact .refl
    · rw [same, List.reverse_cons, List.append_assoc, telling,
        List.filter_cons_of_pos (by simp [nonempty, notDot])]
      exact .refl

private theorem reflTransGen_cancels_resolve (segments : List (List Char)) :
    ReflTransGen Cancels (telling segments) (resolve true segments) := by
  have empty : IsResolved true [] := trivial
  exact reflTransGen_cancels_foldl empty

/-- Where nothing is above the root, a stack has the same names but no `..`. -/
theorem descend_filter_dotDot (resolved : IsResolved true stack) (segment : List Char) :
    descend false (stack.filter (· ≠ dotDot)) segment =
      (descend true stack segment).filter (· ≠ dotDot) := by
  rcases descend_cases true stack segment with
    ⟨skipped, same⟩ | ⟨rfl, last, below, rfl, named, same⟩ | ⟨rfl, parents, same⟩ |
      ⟨nonempty, notDot, named, same⟩
  · rw [same, descend_of_skipped skipped]
  · rw [same, List.filter_cons_of_pos (by simpa using named), descend_dotDot_of_name named]
  · have allParents : stack.filter (· ≠ dotDot) = [] := by
      cases stack with
      | nil => rfl
      | cons last below =>
        obtain rfl := parents last rfl
        simpa using (resolved.2.2.1 rfl).2
    rw [same, if_pos rfl, List.filter_cons_of_neg (by simp), allParents]
    rfl
  · rw [same, descend_of_name nonempty notDot named, List.filter_cons_of_pos (by simpa using named)]

private theorem resolve_false (segments : List (List Char)) :
    resolve false segments = (resolve true segments).filter (· ≠ dotDot) := by
  have onStack : ∀ stack, IsResolved true stack →
      segments.foldl (descend false) (stack.filter (· ≠ dotDot)) =
        (segments.foldl (descend true) stack).filter (· ≠ dotDot) := by
    induction segments with
    | nil => exact fun _ _ => rfl
    | cons segment segments ih =>
      intro stack resolved
      rw [List.foldl_cons, List.foldl_cons, descend_filter_dotDot resolved,
        ih _ (resolved.descend segment)]
  have bottom := onStack [] trivial
  rw [resolve, resolve, List.filter_reverse, ← bottom, List.filter_nil]

end Reaching

private theorem resolve_telling (aboveRoot : Bool) (segments : List (List Char)) :
    resolve aboveRoot (telling segments) = resolve aboveRoot segments := by
  refine resolve_filter (fun segment skipped => ?_) aboveRoot segments
  simpa [Decidable.or_iff_not_imp_left] using skipped

private theorem mem_of_reflTransGen_cancels (cancelled : ReflTransGen Cancels segments settled) :
    settled ⊆ segments := by
  induction cancelled with
  | refl => exact List.Subset.refl _
  | tail _ cancels ih => exact List.Subset.trans cancels.subset ih

/-- What is left when all has cancelled is what is resolved. -/
theorem resolves_iff : Resolves aboveRoot segments left ↔ resolve aboveRoot segments = left := by
  have cut : resolve aboveRoot segments =
      if aboveRoot then resolve true segments else (resolve true segments).filter (· ≠ dotDot) := by
    cases aboveRoot with
    | true => rfl
    | false => exact resolve_false segments
  constructor
  · rintro ⟨settled, cancelled, stuck, rfl⟩
    have each : ∀ segment ∈ settled, segment ≠ [] ∧ segment ≠ dot := by
      intro segment isLeft
      have isTelling := mem_of_reflTransGen_cancels cancelled isLeft
      simpa using (List.mem_filter.mp isTelling).2
    have same : resolve true segments = settled := by
      rw [← resolve_telling, resolve_eq_of_reflTransGen cancelled,
        resolve_of_isResolved (isResolved_of_not_cancels each stuck)]
    rw [cut, same]
  · rintro rfl
    refine ⟨resolve true segments, reflTransGen_cancels_resolve segments, ?_, cut⟩
    exact fun next => (isResolved_resolve true segments).not_cancels

end PathGlob.Path
