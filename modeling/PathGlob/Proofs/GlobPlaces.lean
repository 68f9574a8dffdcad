import PathGlob.Proofs.GlobIdempotence

/-! # The places that a glob stands for

A `**` stands for any names, one after the other, and so a glob stands for many paths, each of which
leads to a place when it is resolved. The stack of a normal form is followed segment by segment and
held against the places that the segments read so far lead to. It never leads to others. It leads to
all of them as long as no `..` that is not shielded takes away a `**` or a `..` kept after one.
-/

namespace PathGlob.Glob

open PathGlob.Path (Root dot dotDot)

/-- What a `**` may stand for any number of. -/
def IsName (name : List Char) : Prop :=
  name ≠ [] ∧ name ≠ dot ∧ name ≠ dotDot ∧ ∀ c ∈ name, Platform.posix.isSeparator c = false

/-- Some segments are what others stand for: names in the place of each `**`, and all else as it is.
-/
inductive Expands : List (List Char) → List (List Char) → Prop
  | nil : Expands [] []
  | doubleStar {names rest path : List (List Char)} (each : ∀ name ∈ names, IsName name)
      (others : Expands rest path) : Expands (doubleStar :: rest) (names ++ path)
  | keep {segment : List Char} {rest path : List (List Char)} (other : segment ≠ doubleStar)
      (others : Expands rest path) : Expands (segment :: rest) (segment :: path)

/-- A POSIX glob stands for a place: a root and the segments that lead from it to the place. -/
def Denotes (glob : List Char) (place : Root × List (List Char)) : Prop :=
  let (root, rest) := Root.split .posix glob
  ∃ path, Expands (Path.segments .posix rest) path ∧
    place = (root, Path.resolve (!root.isAbsolute) path)

/-- No `..` of a POSIX glob, other than one right after `**`, comes where the segments before it are
resolved to some that end with `**`, or with a `..` that is kept after `**`. -/
def SparesDoubleStars (glob : List Char) : Prop :=
  ∀ front back, Path.segments .posix (shield .posix glob) = front ++ dotDot :: back →
    ∀ last, (Path.resolve (!(Root.split .posix glob).1.isAbsolute) front).getLast? = some last →
      last ≠ doubleStar ∧ last ≠ shieldedParent

variable {aboveRoot : Bool} {segment : List Char}
  {segments rest path stack below start left : List (List Char)}

section Steps

/-- One segment leads from a stack to a stack. -/
def Leads (aboveRoot : Bool) (segment : List Char) (below stack : List (List Char)) : Prop :=
  if segment = doubleStar then ∃ names, (∀ name ∈ names, IsName name) ∧ stack = names ++ below
  else stack = Path.descend aboveRoot below segment

/-- Some segments lead from a stack to a stack. -/
def Reaches (aboveRoot : Bool) : List (List Char) → List (List Char) → List (List Char) → Prop
  | [], start, stack => stack = start
  | segment :: rest, start, stack =>
    ∃ next, Leads aboveRoot segment start next ∧ Reaches aboveRoot rest next stack

private theorem leads_doubleStar_iff :
    Leads aboveRoot doubleStar below stack ↔
      ∃ names, (∀ name ∈ names, IsName name) ∧ stack = names ++ below := by
  rw [Leads, if_pos rfl]

private theorem leads_iff_of_ne (other : segment ≠ doubleStar) :
    Leads aboveRoot segment below stack ↔ stack = Path.descend aboveRoot below segment := by
  rw [Leads, if_neg other]

private theorem leads_iff_of_skipped (skipped : segment = [] ∨ segment = dot) :
    Leads aboveRoot segment below stack ↔ stack = below := by
  have other : segment ≠ doubleStar := by
    rintro rfl
    exact absurd skipped (by decide)
  rw [leads_iff_of_ne other, Path.descend_of_skipped skipped]

private theorem reaches_singleton_of_skipped (skipped : segment = [] ∨ segment = dot) :
    Reaches aboveRoot [segment] start stack ↔ stack = start := by
  simp only [Reaches, leads_iff_of_skipped skipped, exists_eq_left]

/-- Names go on top of a stack one by one. -/
theorem foldl_descend_of_names {names : List (List Char)} (each : ∀ name ∈ names, IsName name) :
    names.foldl (Path.descend aboveRoot) stack = names.reverse ++ stack := by
  induction names generalizing stack with
  | nil => rfl
  | cons name names ih =>
    obtain ⟨⟨nonempty, notDot, named, _⟩, others⟩ := List.forall_mem_cons.mp each
    rw [List.foldl_cons, Path.descend_of_name nonempty notDot named, ih others, List.reverse_cons,
      List.append_assoc, List.singleton_append]

/-- Stacks are reached by resolving what segments stand for. -/
theorem reaches_iff :
    Reaches aboveRoot segments start stack ↔
      ∃ path, Expands segments path ∧ path.foldl (Path.descend aboveRoot) start = stack := by
  induction segments generalizing start with
  | nil =>
    constructor
    · rintro rfl
      exact ⟨[], .nil, rfl⟩
    · rintro ⟨_, ⟨⟩, rfl⟩
      rfl
  | cons segment rest ih =>
    constructor
    · rintro ⟨next, leads, reaches⟩
      obtain ⟨path, expands, rfl⟩ := ih.mp reaches
      by_cases isStar : segment = doubleStar
      · subst isStar
        obtain ⟨names, each, rfl⟩ := leads_doubleStar_iff.mp leads
        have eachBack : ∀ name ∈ names.reverse, IsName name :=
          fun name isName => each name (List.mem_reverse.mp isName)
        refine ⟨names.reverse ++ path, .doubleStar eachBack expands, ?_⟩
        rw [List.foldl_append, foldl_descend_of_names eachBack, List.reverse_reverse]
      · obtain rfl := (leads_iff_of_ne isStar).mp leads
        exact ⟨segment :: path, .keep isStar expands, rfl⟩
    · rintro ⟨_, expands, rfl⟩
      cases expands with
      | @doubleStar names _ path each others =>
        have eachBack : ∀ name ∈ names.reverse, IsName name :=
          fun name isName => each name (List.mem_reverse.mp isName)
        refine ⟨names.reverse ++ start, leads_doubleStar_iff.mpr ⟨_, eachBack, rfl⟩, ih.mpr ?_⟩
        exact ⟨path, others, by rw [List.foldl_append, foldl_descend_of_names each]⟩
      | @keep _ _ path other others =>
        exact ⟨_, (leads_iff_of_ne other).mpr rfl, ih.mpr ⟨path, others, rfl⟩⟩

theorem reaches_append {front back : List (List Char)} :
    Reaches aboveRoot (front ++ back) start stack ↔
      ∃ next, Reaches aboveRoot front start next ∧ Reaches aboveRoot back next stack := by
  induction front generalizing start with
  | nil => simp [Reaches]
  | cons segment front ih =>
    simp only [List.cons_append, Reaches, ih]
    constructor
    · rintro ⟨next, leads, middle, inFront, inBack⟩
      exact ⟨middle, ⟨next, leads, inFront⟩, inBack⟩
    · rintro ⟨middle, ⟨next, leads, inFront⟩, inBack⟩
      exact ⟨next, leads, middle, inFront, inBack⟩

/-- Empty segments lead nowhere else. -/
theorem reaches_filter_ne_nil :
    Reaches aboveRoot (segments.filter (· ≠ [])) start stack ↔
      Reaches aboveRoot segments start stack := by
  induction segments generalizing start with
  | nil => rfl
  | cons segment rest ih =>
    by_cases empty : segment = []
    · subst empty
      simp only [Reaches, leads_iff_of_skipped (.inl rfl), exists_eq_left]
      exact ih
    · rw [List.filter_cons_of_pos (by simpa using empty)]
      simp only [Reaches, ih]

end Steps

section Stacks

/-- A stack is one that a normal form with the given stack leads to. -/
def Holds (aboveRoot : Bool) : List (List Char) → List (List Char) → Prop
  | [], stack => stack = []
  | top :: below, stack =>
    ∃ under, Holds aboveRoot below under ∧ Leads aboveRoot (unshield top) under stack

private theorem holds_iff_reaches :
    Holds aboveRoot left stack ↔ Reaches aboveRoot (left.reverse.map unshield) [] stack := by
  induction left generalizing stack with
  | nil => rfl
  | cons top below ih =>
    simp only [Holds, List.reverse_cons, List.map_append, reaches_append, List.map_singleton, Reaches,
      exists_eq_right', ih]

/-- Below a shielded `..` there is the `**` that it came after. -/
theorem exists_doubleStar_below (shielded : IsShielded false (shieldedParent :: below).reverse)
    (settled : Path.IsResolved aboveRoot below) : ∃ under, below = doubleStar :: under := by
  rw [List.reverse_cons, isShielded_append] at shielded
  obtain ⟨_, ⟨_, marked⟩, _⟩ := shielded
  have isAfter := (marked (List.mem_singleton.mpr rfl)).2
  cases below with
  | nil => cases isAfter
  | cons top under =>
    rw [List.reverse_cons, List.foldl_append, List.foldl_cons, List.foldl_nil,
      afterDoubleStar_of_ne_nil settled.1] at isAfter
    exact ⟨under, by rw [of_decide_eq_true isAfter]⟩

/-- In a shielded stack, a name is one that stands for itself, `**`, or a shielded `..`. -/
theorem leads_iff_of_top (shielded : IsShielded false (segment :: below).reverse)
    (settled : Path.IsResolved aboveRoot (segment :: below)) (named : segment ≠ dotDot)
    (notStar : segment ≠ doubleStar) (notShield : segment ≠ shieldedParent) :
    Leads aboveRoot (unshield segment) start stack ↔ stack = segment :: start := by
  rw [List.reverse_cons, isShielded_append] at shielded
  obtain ⟨_, ⟨_, marked⟩, _⟩ := shielded
  have unmarked : shieldMark ∉ segment := fun isMarked => notShield (marked isMarked).1
  rw [unshield_of_not_mem unmarked, leads_iff_of_ne notStar,
    Path.descend_of_name settled.1 settled.2.1 named]

private theorem leads_dotDot_iff :
    Leads aboveRoot dotDot below stack ↔ stack = Path.descend aboveRoot below dotDot :=
  leads_iff_of_ne (by decide)

private theorem isName_a : IsName ['a'] := by
  refine ⟨by decide, by decide, by decide, ?_⟩
  simp [Platform.isSeparator, Platform.separators]

private theorem leads_dotDot_a (aboveRoot : Bool) (stack : List (List Char)) :
    Leads aboveRoot dotDot (['a'] :: stack) stack :=
  leads_dotDot_iff.mpr (Path.descend_dotDot_of_name isName_a.2.2.1).symm

/-- A `**` can stand for one name more. -/
theorem Holds.cons_a (holds : Holds aboveRoot (doubleStar :: below) stack) :
    Holds aboveRoot (doubleStar :: below) (['a'] :: stack) := by
  obtain ⟨under, holds, leads⟩ := holds
  obtain ⟨names, each, rfl⟩ := leads_doubleStar_iff.mp leads
  exact ⟨under, holds, leads_doubleStar_iff.mpr
    ⟨['a'] :: names, List.forall_mem_cons.mpr ⟨isName_a, each⟩, rfl⟩⟩

/-- At a root without anything above it, there is nothing under a `..` that is dropped. -/
theorem eq_nil_of_parents (settled : Path.IsResolved false left)
    (parents : ∀ last, left.head? = some last → last = dotDot) : left = [] := by
  cases left with
  | nil => rfl
  | cons last below => exact absurd (settled.2.2.1 (parents last rfl)).1 Bool.false_ne_true

/-- What the next stack leads to is led to from what the stack leads to. -/
theorem exists_leads_of_holds_descend (shielded : IsShielded false left.reverse)
    (settled : Path.IsResolved aboveRoot left)
    (holds : Holds aboveRoot (Path.descend aboveRoot left segment) stack) :
    ∃ before, Holds aboveRoot left before ∧ Leads aboveRoot (unshield segment) before stack := by
  rcases Path.descend_cases aboveRoot left segment with
    ⟨skipped, same⟩ | ⟨rfl, last, below, rfl, named, same⟩ | ⟨rfl, parents, same⟩ | ⟨_, _, _, same⟩
  · rw [same] at holds
    refine ⟨stack, holds, (leads_iff_of_skipped ?_).mpr rfl⟩
    rcases skipped with rfl | rfl
    · exact .inl rfl
    · exact .inr rfl
  · rw [same] at holds
    by_cases isStar : last = doubleStar
    · -- The `**` may have stood for a name that is taken away.
      subst isStar
      have none : ∀ name ∈ [['a']], IsName name := List.forall_mem_singleton.mpr isName_a
      exact ⟨['a'] :: stack, ⟨stack, holds, leads_doubleStar_iff.mpr ⟨_, none, rfl⟩⟩,
        leads_dotDot_a aboveRoot stack⟩
    · by_cases isShield : last = shieldedParent
      · -- The `**` before may have stood for two names more, one for each `..`.
        subst isShield
        obtain ⟨under, rfl⟩ := exists_doubleStar_below shielded settled.2.2.2
        exact ⟨['a'] :: stack, ⟨_, holds.cons_a.cons_a, leads_dotDot_a aboveRoot _⟩,
          leads_dotDot_a aboveRoot stack⟩
      · have top : Leads aboveRoot (unshield last) stack (last :: stack) :=
          (leads_iff_of_top shielded settled named isStar isShield).mpr rfl
        refine ⟨last :: stack, ⟨stack, holds, top⟩, leads_dotDot_iff.mpr ?_⟩
        exact (Path.descend_dotDot_of_name named).symm
  · rw [same] at holds
    cases aboveRoot with
    | true => exact holds
    | false =>
      obtain rfl := eq_nil_of_parents settled parents
      obtain rfl := holds
      exact ⟨[], rfl, leads_dotDot_iff.mpr rfl⟩
  · rw [same] at holds
    exact holds

/-- What the stack leads to leads to what the next stack leads to, if no `**` is taken away, and no
`..` that is kept after one. -/
theorem Holds.descend (shielded : IsShielded false left.reverse)
    (settled : Path.IsResolved aboveRoot left)
    (spares : segment = dotDot → ∀ last, left.head? = some last →
      last ≠ doubleStar ∧ last ≠ shieldedParent)
    {before : List (List Char)} (holds : Holds aboveRoot left before)
    (leads : Leads aboveRoot (unshield segment) before stack) :
    Holds aboveRoot (Path.descend aboveRoot left segment) stack := by
  rcases Path.descend_cases aboveRoot left segment with
    ⟨skipped, same⟩ | ⟨rfl, last, below, rfl, named, same⟩ | ⟨rfl, parents, same⟩ | ⟨_, _, _, same⟩
  · rw [same]
    have stays : unshield segment = [] ∨ unshield segment = dot := by
      rcases skipped with rfl | rfl
      · exact .inl rfl
      · exact .inr rfl
    rw [(leads_iff_of_skipped stays).mp leads]
    exact holds
  · rw [same]
    obtain ⟨notStar, notShield⟩ := spares rfl last rfl
    obtain ⟨under, holds, leadsTop⟩ := holds
    obtain rfl := (leads_iff_of_top shielded settled named notStar notShield).mp leadsTop
    obtain rfl := leads_dotDot_iff.mp leads
    rw [Path.descend_dotDot_of_name named]
    exact holds
  · rw [same]
    cases aboveRoot with
    | true => exact ⟨before, holds, leads⟩
    | false =>
      obtain rfl := eq_nil_of_parents settled parents
      obtain rfl := holds
      exact leads_dotDot_iff.mp leads
  · rw [same]
    exact ⟨before, holds, leads⟩

/-- A run over shielded segments leads to nothing that the segments do not lead to. -/
theorem exists_reaches_of_holds_foldl {after : Bool} (onStack : IsShielded false left.reverse)
    (settled : Path.IsResolved aboveRoot left)
    (follows : after = true → left.reverse.foldl afterDoubleStar false = true)
    (shielded : IsShielded after segments)
    (holds : Holds aboveRoot (segments.foldl (Path.descend aboveRoot) left) stack) :
    ∃ before, Holds aboveRoot left before ∧
      Reaches aboveRoot (segments.map unshield) before stack := by
  induction segments generalizing left after with
  | nil => exact ⟨stack, holds, rfl⟩
  | cons segment segments ih =>
    obtain ⟨placed, shielded⟩ := shielded
    obtain ⟨stays, followsNext⟩ := isShielded_descend onStack (fun _ => rfl) placed follows
    obtain ⟨next, holdsNext, reaches⟩ := ih stays (settled.descend segment) followsNext shielded holds
    obtain ⟨before, holdsBefore, leads⟩ := exists_leads_of_holds_descend onStack settled holdsNext
    exact ⟨before, holdsBefore, next, leads, reaches⟩

/-- A run that spares what `**` stands for leads to all that the segments lead to. -/
theorem Holds.foldl {after : Bool} (onStack : IsShielded false left.reverse)
    (settled : Path.IsResolved aboveRoot left)
    (follows : after = true → left.reverse.foldl afterDoubleStar false = true)
    (shielded : IsShielded after segments)
    (spares : ∀ front back, segments = front ++ dotDot :: back →
      ∀ last, (front.foldl (Path.descend aboveRoot) left).head? = some last →
        last ≠ doubleStar ∧ last ≠ shieldedParent)
    {before : List (List Char)} (holds : Holds aboveRoot left before)
    (reaches : Reaches aboveRoot (segments.map unshield) before stack) :
    Holds aboveRoot (segments.foldl (Path.descend aboveRoot) left) stack := by
  induction segments generalizing left after before with
  | nil =>
    obtain rfl := reaches
    exact holds
  | cons segment segments ih =>
    obtain ⟨placed, shielded⟩ := shielded
    obtain ⟨next, leads, reaches⟩ := reaches
    obtain ⟨stays, followsNext⟩ := isShielded_descend onStack (fun _ => rfl) placed follows
    have sparesFirst : segment = dotDot → ∀ last, left.head? = some last →
        last ≠ doubleStar ∧ last ≠ shieldedParent := by
      rintro rfl
      exact spares [] segments rfl
    refine ih stays (settled.descend segment) followsNext shielded ?_
      (holds.descend onStack settled sparesFirst leads) reaches
    rintro front back rfl
    exact spares (segment :: front) back rfl

/-- From the start, a run over shielded segments leads to nothing that they do not lead to. -/
theorem reaches_of_holds_foldl (shielded : IsShielded false segments)
    (holds : Holds aboveRoot (segments.foldl (Path.descend aboveRoot) []) stack) :
    Reaches aboveRoot (segments.map unshield) [] stack := by
  have empty : IsShielded false [].reverse := trivial
  have settled : Path.IsResolved aboveRoot [] := trivial
  obtain ⟨_, rfl, reaches⟩ := exists_reaches_of_holds_foldl empty settled id shielded holds
  exact reaches

/-- From the start, a run that spares what `**` stands for leads to all that the segments lead to. -/
theorem holds_foldl_of_reaches (shielded : IsShielded false segments)
    (spares : ∀ front back, segments = front ++ dotDot :: back →
      ∀ last, (front.foldl (Path.descend aboveRoot) []).head? = some last →
        last ≠ doubleStar ∧ last ≠ shieldedParent)
    (reaches : Reaches aboveRoot (segments.map unshield) [] stack) :
    Holds aboveRoot (segments.foldl (Path.descend aboveRoot) []) stack := by
  have empty : IsShielded false [].reverse := trivial
  have settled : Path.IsResolved aboveRoot [] := trivial
  have holds : Holds aboveRoot [] [] := rfl
  exact holds.foldl empty settled id shielded spares reaches

end Stacks

section Globs

variable {root : Root} {names : List (List Char)} {glob : List Char}

/-- A place is read off the segments of a glob. -/
theorem denotes_iff (read : Root.ofSegments .posix (Path.segments .posix glob) = (root, rest))
    (place : Root × List (List Char)) :
    Denotes glob place ↔
      place.1 = root ∧ Reaches (!root.isAbsolute) rest [] place.2.reverse := by
  obtain ⟨sameRoot, sameNames⟩ := Root.split_spec .posix glob
  rw [read] at sameRoot sameNames
  unfold Denotes
  dsimp only at sameRoot sameNames ⊢
  rw [← reaches_filter_ne_nil, ← sameNames, Path.names, reaches_filter_ne_nil, reaches_iff, sameRoot]
  constructor
  · rintro ⟨path, expands, rfl⟩
    exact ⟨rfl, path, expands, (List.reverse_reverse _).symm⟩
  · rintro ⟨rfl, path, expands, resolved⟩
    refine ⟨path, expands, ?_⟩
    rw [Path.resolve, resolved, List.reverse_reverse]

/-- What is written after a root leads where the resolved segments lead. -/
theorem reaches_body (root : Root) (resolved : List (List Char)) (closed : Bool) :
    Reaches aboveRoot ((root.body resolved closed).map unshield) start stack ↔
      Reaches aboveRoot (resolved.map unshield) start stack := by
  have atEnd (next : List (List Char)) :
      Reaches aboveRoot ((Path.ending closed).map unshield) next stack ↔ stack = next := by
    cases closed with
    | true => exact reaches_singleton_of_skipped (.inl rfl)
    | false => rfl
  unfold Root.body
  split
  · next bare =>
    rw [bare.1]
    exact reaches_singleton_of_skipped (.inl rfl)
  · rw [List.map_append, reaches_append]
    simp only [atEnd, exists_eq_right']
    split
    · next nothing =>
      rw [nothing]
      exact reaches_singleton_of_skipped (.inr rfl)
    · rfl

/-- Shielding does not change the root. -/
theorem ofSegments_shieldSegments (read : Root.ofSegments .posix segments = (root, rest)) :
    Root.ofSegments .posix (shieldSegments [] segments) = (root, shieldSegments [] rest) := by
  rcases segments with _ | ⟨_ | ⟨c, first⟩, _ | ⟨next, others⟩⟩
  all_goals
    obtain ⟨rfl, rfl⟩ := Prod.mk.inj read
    try rw [shieldSegments_nil_cons]
    rfl

/-- A normal form is read with the root of its glob and the resolved segments. -/
theorem ofSegments_normalSegments (read : Root.ofSegments .posix segments = (root, rest)) :
    Root.ofSegments .posix (normalSegments .posix true segments) =
      (root, (root.body (Path.resolve (!root.isAbsolute) (shieldSegments [] rest))
        (Path.isClosed (shieldSegments [] segments))).map unshield) := by
  have known : root = .here ∨ root = .top := by
    have isRoot := Root.ofSegmentsPosix_eq segments
    rwa [show (Root.ofSegmentsPosix segments).1 = root from congrArg Prod.fst read] at isRoot
  rw [normalSegments, guarded, if_pos rfl, Path.normalSegments, ofSegments_shieldSegments read]
  dsimp only
  have nonempty : ∀ segment ∈ Path.resolve (!root.isAbsolute) (shieldSegments [] rest), segment ≠ [] :=
    fun segment => Path.ne_nil_of_mem_resolve
  have written := root.body_cases nonempty (Path.isClosed (shieldSegments [] segments))
  generalize root.body _ _ = body at written ⊢
  rcases known with rfl | rfl
  · obtain ⟨_, absolute⟩ | ⟨first, others, rfl, something, _⟩ := written
    · cases absolute
    · exact Root.ofSegments_of_not_namesDrive _ (unshield_ne_nil something) (by simp)
  · obtain ⟨first, others, rfl⟩ : ∃ first others, body = first :: others := by
      obtain ⟨rfl, _⟩ | ⟨first, others, rfl, _⟩ := written
      · exact ⟨[], [], rfl⟩
      · exact ⟨first, others, rfl⟩
    rfl

/-- The stack of a normal form tells the places that the normal form stands for. -/
theorem denotes_normalForm_iff (unmarked : shieldMark ∉ glob)
    (read : Root.ofSegments .posix (Path.segments .posix glob) = (root, rest))
    (place : Root × List (List Char)) :
    Denotes (normalForm .posix true glob) place ↔
      place.1 = root ∧ Holds (!root.isAbsolute)
        ((shieldSegments [] rest).foldl (Path.descend (!root.isAbsolute)) []) place.2.reverse := by
  have reread := ofSegments_normalSegments read
  rw [← segments_normalForm unmarked] at reread
  rw [denotes_iff reread, reaches_body, holds_iff_reaches]
  rfl

/-- The segments after a root resolve as the ones of the whole glob do. -/
theorem exists_shieldSegments_eq_append
    (read : Root.ofSegments .posix segments = (root, rest)) :
    ∃ lead, shieldSegments [] segments = lead ++ shieldSegments [] rest ∧
      ∀ aboveRoot, lead.foldl (Path.descend aboveRoot) [] = [] := by
  rcases segments with _ | ⟨_ | ⟨c, first⟩, _ | ⟨next, others⟩⟩
  all_goals obtain ⟨rfl, rfl⟩ := Prod.mk.inj read
  · exact ⟨[], rfl, fun _ => rfl⟩
  · exact ⟨[], rfl, fun _ => rfl⟩
  · exact ⟨[[]], rfl, fun _ => rfl⟩
  · exact ⟨[], rfl, fun _ => rfl⟩
  · exact ⟨[], rfl, fun _ => rfl⟩

/-- A `..` that takes a `**` away is met in the segments after the root as in the whole glob. -/
theorem SparesDoubleStars.forall_rest (spares : SparesDoubleStars glob)
    (read : Root.ofSegments .posix (Path.segments .posix glob) = (root, rest)) :
    ∀ front back, shieldSegments [] rest = front ++ dotDot :: back →
      ∀ last, (front.foldl (Path.descend (!root.isAbsolute)) []).head? = some last →
        last ≠ doubleStar ∧ last ≠ shieldedParent := by
  intro front back split last isLast
  have sameRoot := (Root.split_spec .posix glob).1
  rw [read] at sameRoot
  obtain ⟨lead, whole, nothing⟩ := exists_shieldSegments_eq_append read
  apply spares (lead ++ front) back
  · rw [segments_shield, whole, split, List.append_assoc]
  · rw [sameRoot, Path.resolve, List.getLast?_reverse, List.foldl_append, nothing]
    exact isLast

/-- A normal glob stands for no places that the glob does not stand for, and for all that it does if
no `..` takes a `**` away, or a `..` that is kept after one. -/
theorem denotes_normalize {glob : String} (unmarked : shieldMark ∉ glob.toList) :
    ∃ result, normalize .posix true glob = .ok result ∧
      (∀ place, Denotes result.toList place → Denotes glob.toList place) ∧
      (SparesDoubleStars glob.toList →
        ∀ place, Denotes result.toList place ↔ Denotes glob.toList place) := by
  refine ⟨_, normalize_eq_ok_iff.mpr ⟨unmarked, rfl⟩, ?_⟩
  rw [String.toList_ofList]
  obtain ⟨⟨root, rest⟩, read⟩ : ∃ reading,
      Root.ofSegments .posix (Path.segments .posix glob.toList) = reading := ⟨_, rfl⟩
  have reads := Root.reads_ofSegments .posix (Path.segments .posix glob.toList)
  rw [read] at reads
  have unmarkedRest : ∀ segment ∈ rest, shieldMark ∉ segment := by
    intro segment isAfter marked
    have other : ∀ c ∈ segment, c ≠ shieldMark := by
      refine reads.forall_mem_rest ?_ segment isAfter
      rintro segment isSegment c inSegment rfl
      exact shieldMark_not_mem_segments unmarked segment isSegment inSegment
    exact other shieldMark marked rfl
  have shielded := isShielded_shieldSegments [] unmarkedRest
  have same := map_unshield_shieldSegments [] unmarkedRest
  have inNormal (place : Root × List (List Char))
      (denotes : Denotes (normalForm .posix true glob.toList) place) : Denotes glob.toList place := by
    obtain ⟨isRoot, holds⟩ := (denotes_normalForm_iff unmarked read place).mp denotes
    have reaches := reaches_of_holds_foldl shielded holds
    rw [same] at reaches
    exact (denotes_iff read place).mpr ⟨isRoot, reaches⟩
  refine ⟨inNormal, fun spares place => ⟨inNormal place, fun denotes => ?_⟩⟩
  obtain ⟨isRoot, reaches⟩ := (denotes_iff read place).mp denotes
  rw [← same] at reaches
  exact (denotes_normalForm_iff unmarked read place).mpr
    ⟨isRoot, holds_foldl_of_reaches shielded (spares.forall_rest read) reaches⟩

/-- A `..` right after `**` is kept, so no place is lost. -/
theorem denotes_normalize_parent :
    ∃ result, normalize .posix true "a/./**/../b" = .ok result ∧
      ∀ place, Denotes result.toList place ↔ Denotes "a/./**/../b".toList place := by
  have unmarked : shieldMark ∉ "a/./**/../b".toList := by decide
  obtain ⟨result, normal, _, same⟩ := denotes_normalize unmarked
  refine ⟨result, normal, same ?_⟩
  intro front back split
  have isLeft : dotDot ∈ Path.segments .posix (shield .posix "a/./**/../b".toList) := by
    rw [split]
    exact List.mem_append_right front List.mem_cons_self
  exact absurd isLeft (by decide)

/-- The second `..` takes the first one away, and the place above the start is lost. -/
theorem normalize_second_parent :
    normalize .posix true "a/**/../.." = .ok "a/**" ∧
      Denotes "a/**/../..".toList (.here, [dotDot]) ∧ ¬Denotes "a/**".toList (.here, [dotDot]) := by
  refine ⟨by decide, ⟨['a'] :: ([] ++ [dotDot, dotDot]), ?_, by decide⟩, ?_⟩
  · exact .keep (by decide) (.doubleStar (by simp) (.keep (by decide) (.keep (by decide) .nil)))
  · have read : Root.ofSegments .posix (Path.segments .posix "a/**".toList) =
        (.here, [['a'], doubleStar]) := by decide
    rw [denotes_iff read]
    rintro ⟨_, next, leads, _, leadsStar, rfl⟩
    obtain rfl := (leads_iff_of_ne (by decide)).mp leads
    obtain ⟨names, _, same⟩ := leads_doubleStar_iff.mp leadsStar
    have last := congrArg List.getLast? same
    rw [show Path.descend _ [] ['a'] = [['a']] from rfl, List.getLast?_concat] at last
    exact absurd last (by decide)

end Globs

end PathGlob.Glob
