import PathGlob.Proofs.NameMatching

/-! # Empty pieces of paths

Where segments match a path piece by piece, they never mind one more empty piece between two others:
it lies where pieces are left out. They may miss one, though, if a segment between two others took it
as its name. `HasFirmNames` rules this out.
-/

namespace PathGlob

namespace GlobMeaning

variable {options : Options} {segments front back : List (List Char)}

section After

variable {fits : List Char → Prop} {holds : List (List Char) → Prop}

/-- One more piece that can be left out is left out, or it lies further behind. -/
theorem After.insert (empty : fits [])
    (later : ∀ middle, middle ≠ [] → holds (middle ++ back) → holds (middle ++ [] :: back))
    (after : After fits holds (front ++ back)) : After fits holds (front ++ [] :: back) := by
  obtain ⟨skipped, left, cut, fitting, holding⟩ := after
  obtain ⟨middle, rfl, rfl⟩ | ⟨middle, rfl, rfl⟩ := List.append_eq_append_iff.mp cut
  · obtain ⟨fittingFront, fittingMiddle⟩ := List.forall_mem_append.mp fitting
    refine ⟨front ++ [] :: middle, left, by simp, ?_, holding⟩
    exact List.forall_mem_append.mpr
      ⟨fittingFront, List.forall_mem_cons.mpr ⟨empty, fittingMiddle⟩⟩
  · by_cases alone : middle = []
    · subst alone
      refine ⟨skipped ++ [[]], back, by simp, ?_, holding⟩
      exact List.forall_mem_append.mpr ⟨fitting, List.forall_mem_singleton.mpr empty⟩
    · exact ⟨skipped, middle ++ [] :: back, by simp, fitting, later middle alone holding⟩

/-- An empty piece that goes was left out, or it was the first that was not, or it lies further
behind. -/
theorem After.remove
    (here : (∀ piece ∈ front, fits piece) → holds ([] :: back) → After fits holds (front ++ back))
    (later : ∀ middle, middle ≠ [] → middle <:+ front → holds (middle ++ [] :: back) →
      holds (middle ++ back))
    (after : After fits holds (front ++ [] :: back)) : After fits holds (front ++ back) := by
  obtain ⟨skipped, left, cut, fitting, holding⟩ := after
  obtain ⟨middle, rfl, split⟩ | ⟨middle, rfl, rfl⟩ := List.append_eq_append_iff.mp cut
  · obtain ⟨fittingFront, fittingMiddle⟩ := List.forall_mem_append.mp fitting
    cases middle with
    | nil => exact here fittingFront (split ▸ holding)
    | cons piece middle =>
      obtain ⟨rfl, rfl⟩ := List.cons.inj split
      refine ⟨front ++ middle, left, by simp, ?_, holding⟩
      exact List.forall_mem_append.mpr ⟨fittingFront, (List.forall_mem_cons.mp fittingMiddle).2⟩
  · by_cases alone : middle = []
    · subst alone
      rw [List.append_nil] at here ⊢
      exact here fitting holding
    · have holding := later middle alone (List.suffix_append skipped middle) holding
      exact ⟨skipped, middle ++ back, by simp, fitting, holding⟩

end After

/-- Segments do not mind one more empty piece between two others. -/
theorem NamesMatch.insert (some : front ≠ []) (more : back ≠ [])
    (matched : NamesMatch options segments (front ++ back)) :
    NamesMatch options segments (front ++ [] :: back) := by
  induction segments generalizing front with
  | nil =>
    obtain ⟨first, front, rfl⟩ := List.exists_cons_of_ne_nil some
    exact absurd (List.append_eq_nil_iff.mp (List.cons.inj matched).2).2 more
  | cons segment others ih =>
    obtain ⟨first, front, rfl⟩ := List.exists_cons_of_ne_nil some
    cases others with
    | nil =>
      obtain ⟨isGlobstar, _⟩ | ⟨isShape, name, behind, cut, taken, empty⟩ := matched
      · exact .inl ⟨isGlobstar, by simp⟩
      · obtain ⟨rfl, rfl⟩ := List.cons.inj cut
        obtain ⟨emptyFront, emptyBack⟩ := List.forall_mem_append.mp empty
        exact .inr ⟨isShape, first, front ++ [] :: back, rfl, taken,
          List.forall_mem_append.mpr ⟨emptyFront, List.forall_mem_cons.mpr ⟨rfl, emptyBack⟩⟩⟩
    | cons next others =>
      have later : ∀ middle, middle ≠ [] → NamesMatch options (next :: others) (middle ++ back) →
          NamesMatch options (next :: others) (middle ++ [] :: back) := fun _ => ih
      obtain ⟨isGlobstar, after⟩ | ⟨isShape, name, behind, cut, taken, after⟩ := matched
      · exact .inl ⟨isGlobstar, after.insert trivial later⟩
      · obtain ⟨rfl, rfl⟩ := List.cons.inj cut
        exact .inr ⟨isShape, first, front ++ [] :: back, rfl, taken, after.insert rfl later⟩

/-- A globstar, or a segment that does not match the empty name. -/
def IsFirm (options : Options) (segment : List Char) : Prop :=
  IsGlobstar options segment ∨ ¬SegmentTakes options segment [] []

/-- Segments do not miss an empty piece between two others if those between two segments are firm. If
the piece is the first one, the first segment has to be firm as well. -/
theorem NamesMatch.remove (firm : ∀ segment ∈ segments.tail.dropLast, IsFirm options segment)
    (start : front = [] → ∀ segment ∈ segments.dropLast, IsFirm options segment) (more : back ≠ [])
    (matched : NamesMatch options segments (front ++ [] :: back)) :
    NamesMatch options segments (front ++ back) := by
  induction segments generalizing front with
  | nil =>
    have alone : front ++ [] :: back = [[]] := matched
    simp [List.append_eq_cons_iff, more] at alone
  | cons segment others ih =>
    cases others with
    | nil =>
      obtain ⟨isGlobstar, _⟩ | ⟨isShape, name, behind, cut, taken, empty⟩ := matched
      · exact .inl ⟨isGlobstar, by simp [more]⟩
      · rcases front with _ | ⟨first, front⟩
        · obtain ⟨rfl, rfl⟩ := List.cons.inj cut
          obtain ⟨piece, back, rfl⟩ := List.exists_cons_of_ne_nil more
          obtain ⟨rfl, others⟩ := List.forall_mem_cons.mp empty
          exact .inr ⟨isShape, [], back, rfl, taken, others⟩
        · obtain ⟨rfl, rfl⟩ := List.cons.inj cut
          obtain ⟨emptyFront, emptyBack⟩ := List.forall_mem_append.mp empty
          exact .inr ⟨isShape, first, front ++ back, rfl, taken, List.forall_mem_append.mpr
            ⟨emptyFront, (List.forall_mem_cons.mp emptyBack).2⟩⟩
    | cons next others =>
      have inner : ∀ segment ∈ (next :: others).tail.dropLast, IsFirm options segment := by
        cases others with
        | nil => simp
        | cons other others =>
          exact fun segment isInner => firm segment (List.mem_cons_of_mem next isInner)
      have later : ∀ middle, NamesMatch options (next :: others) (middle ++ [] :: back) →
          NamesMatch options (next :: others) (middle ++ back) := fun _ => ih inner fun _ => firm
      obtain ⟨isGlobstar, after⟩ | ⟨isShape, name, behind, cut, taken, after⟩ := matched
      · refine .inl ⟨isGlobstar,
          after.remove (fun fitting matched => ?_) fun middle _ _ => later middle⟩
        exact ⟨front, back, rfl, fitting, later [] matched⟩
      · rcases front with _ | ⟨first, front⟩
        · obtain ⟨rfl, rfl⟩ := List.cons.inj cut
          have firstFirm := start rfl segment (by simp)
          exact absurd taken (firstFirm.resolve_left isShape)
        · obtain ⟨rfl, rfl⟩ := List.cons.inj cut
          refine .inr ⟨isShape, first, front ++ back, rfl, taken,
            after.remove (fun fitting matched => ?_) fun middle _ _ => later middle⟩
          exact ⟨front, back, rfl, fitting, later [] matched⟩

/-- A segment takes every name. -/
def TakesNames (options : Options) (segment : List Char) : Prop :=
  ∀ name, (∀ c ∈ name, options.platform.isSeparator c = false) → SegmentTakes options segment name []

/-- A segment is firm, or it takes every name and only globstars stand in front of it. -/
def IsFirmBehind (options : Options) (before : List (List Char)) (segment : List Char) : Prop :=
  IsFirm options segment ∨
    (∀ other ∈ before, IsGlobstar options other) ∧ TakesNames options segment

/-- No segment between two others takes an empty name that it could not do without. -/
def HasFirmNames (options : Options) (segments : List (List Char)) : Prop :=
  ∀ before segment after, segments = before ++ segment :: after → before ≠ [] → after ≠ [] →
    IsFirmBehind options before segment

private theorem IsFirmBehind.of_cons {other segment : List Char} {before : List (List Char)}
    (firm : IsFirmBehind options (other :: before) segment) : IsFirmBehind options before segment :=
  firm.imp_right fun ⟨globstars, takesNames⟩ => ⟨(List.forall_mem_cons.mp globstars).2, takesNames⟩

/-- Behind a globstar, an empty piece in front is not missed, or any other piece may stand in its
place. -/
theorem NamesMatch.replace_first
    (firm : ∀ before segment after, segments = before ++ segment :: after → after ≠ [] →
      IsFirmBehind options before segment)
    (more : back ≠ []) (matched : NamesMatch options segments ([] :: back)) :
    NamesMatch options segments back ∨
      ∀ name, (∀ c ∈ name, options.platform.isSeparator c = false) →
        NamesMatch options segments (name :: back) := by
  induction segments with
  | nil => exact absurd (List.cons.inj matched).2 more
  | cons segment others ih =>
    cases others with
    | nil =>
      have first : NamesMatch options [segment] ([] ++ [] :: back) := matched
      exact .inl (first.remove (by simp) (by simp) more)
    | cons next others =>
      obtain ⟨isGlobstar, skipped, left, cut, _, following⟩ |
        ⟨isShape, name, behind, cut, taken, after⟩ := matched
      · cases skipped with
        | nil =>
          subst cut
          rcases ih (fun before inner after split something =>
            (firm (segment :: before) inner after (congrArg _ split) something).of_cons) following with
            kept | replaced
          · exact .inl (.inl ⟨isGlobstar, [], back, rfl, by simp, kept⟩)
          · exact .inr fun name whole =>
              .inl ⟨isGlobstar, [], name :: back, rfl, by simp, replaced name whole⟩
        | cons piece skipped =>
          obtain ⟨rfl, rfl⟩ := List.cons.inj cut
          exact .inl (.inl ⟨isGlobstar, skipped, left, rfl, by simp, following⟩)
      · obtain ⟨rfl, rfl⟩ := List.cons.inj cut
        obtain isFirm | ⟨_, takesNames⟩ := firm [] segment (next :: others) rfl (List.cons_ne_nil _ _)
        · exact absurd taken (isFirm.resolve_left isShape)
        · exact .inr fun name whole => .inr ⟨isShape, name, back, rfl, takesNames name whole, after⟩

private theorem exists_of_mem_dropLast {segment : List Char} (isInner : segment ∈ segments.dropLast) :
    ∃ before after, segments = before ++ segment :: after ∧ after ≠ [] := by
  obtain ⟨before, after, split⟩ := List.append_of_mem isInner
  have nonempty : segments ≠ [] := by
    rintro rfl
    cases isInner
  refine ⟨before, after ++ [segments.getLast nonempty], ?_, by simp⟩
  rw [← List.cons_append, ← List.append_assoc, ← split, List.dropLast_append_getLast]

/-- Segments with firm names do not miss an empty piece between two others. -/
theorem NamesMatch.remove_of_firm (firm : HasFirmNames options segments) (some : front ≠ [])
    (more : back ≠ []) (whole : ∀ piece ∈ front, ∀ c ∈ piece, options.platform.isSeparator c = false)
    (matched : NamesMatch options segments (front ++ [] :: back)) :
    NamesMatch options segments (front ++ back) := by
  induction segments generalizing front with
  | nil => exact matched.remove (by simp) (absurd · some) more
  | cons segment others ih =>
    cases others with
    | nil => exact matched.remove (by simp) (absurd · some) more
    | cons next others =>
      have inner (before : List (List Char)) (name : List Char) (after : List (List Char))
          (split : next :: others = before ++ name :: after) (something : after ≠ []) :
          IsFirmBehind options (segment :: before) name :=
        firm (segment :: before) name after (congrArg _ split) (List.cons_ne_nil _ _) something
      by_cases isGlobstar : IsGlobstar options segment
      · have after := (matched.resolve_right fun shape => shape.1 isGlobstar).2
        refine .inl ⟨isGlobstar, after.remove (fun _ matched => ?_) fun middle some isEnd => ?_⟩
        · rcases matched.replace_first (fun before name after split something =>
            (inner before name after split something).of_cons) more with kept | replaced
          · exact ⟨front, back, rfl, by simp, kept⟩
          · obtain ⟨start, last, rfl⟩ := (List.eq_nil_or_concat' front).resolve_left some
            exact ⟨start, last :: back, by simp, by simp, replaced last (whole last (by simp))⟩
        · exact ih (fun before name after split _ something =>
            (inner before name after split something).of_cons) some
              fun piece isPiece => whole piece (isEnd.subset isPiece)
      · refine matched.remove (fun name isInner => ?_) (absurd · some) more
        obtain ⟨before, after, split, something⟩ := exists_of_mem_dropLast isInner
        obtain isFirm | ⟨globstars, _⟩ := inner before name after split something
        · exact isFirm
        · exact absurd (globstars segment List.mem_cons_self) isGlobstar

end GlobMeaning

end PathGlob
