import PathGlob.Proofs.CompiledMeaning

/-! # Which globs are refused

A segment of complete syntax is compiled to an expression with the same groups, so an engine refuses
some globs for their syntax: groups may nest too deep, and a group that comes to nothing may be
repeated. The conditions are said of items, without expressions; a group `!(…)` always comes to
something, because its check stands in the expression even if there is nothing to check.
-/

namespace PathGlob

namespace GlobItem

mutual

def depth : GlobItem → Nat
  | char _ | anyChar | anyRun | bracket _ _ => 0
  | group _ first others => max (branchDepth first) (alternativesDepth others) + 1

def alternativesDepth : List (List GlobItem) → Nat
  | [] => 0
  | branch :: others => max (branchDepth branch) (alternativesDepth others)

def branchDepth : List GlobItem → Nat
  | [] => 0
  | item :: following => max item.depth (branchDepth following)

end

/-- A group that is empty without its empty groups: it has a single alternative, with nothing in it
but groups that are empty in the same sense. -/
inductive IsVoid : GlobItem → Prop
  | group (kind : GroupKind) {content : List GlobItem} (counts : kind ≠ .noneOf)
      (each : ∀ item ∈ content, IsVoid item) : IsVoid (.group kind content [])

/-- Somewhere in an item a group is repeated that has nothing in it but empty groups. -/
inductive RepeatsVoid : GlobItem → Prop
  | here {kind : GroupKind} {content : List GlobItem}
      (repeats : kind = .oneOrMore ∨ kind = .zeroOrMore ∨ kind = .zeroOrOne)
      (each : ∀ item ∈ content, IsVoid item) : RepeatsVoid (.group kind content [])
  | inside {kind : GroupKind} {first branch : List GlobItem} {others : List (List GlobItem)}
      {item : GlobItem} (isBranch : branch ∈ first :: others) (isItem : item ∈ branch)
      (inner : RepeatsVoid item) : RepeatsVoid (.group kind first others)

theorem branchDepth_le_iff {bound : Nat} {items : List GlobItem} :
    branchDepth items ≤ bound ↔ ∀ item ∈ items, item.depth ≤ bound := by
  induction items with
  | nil => simp [branchDepth]
  | cons item following ih => rw [branchDepth, Nat.max_le, ih, List.forall_mem_cons]

private theorem alternativesDepth_le_iff {bound : Nat} {alternatives : List (List GlobItem)} :
    alternativesDepth alternatives ≤ bound ↔
      ∀ branch ∈ alternatives, ∀ item ∈ branch, item.depth ≤ bound := by
  induction alternatives with
  | nil => simp [alternativesDepth]
  | cons branch others ih =>
    rw [alternativesDepth, Nat.max_le, ih, branchDepth_le_iff, List.forall_mem_cons]

private theorem depth_group_le_iff {bound : Nat} {kind : GroupKind} {first : List GlobItem}
    {others : List (List GlobItem)} :
    (group kind first others).depth ≤ bound + 1 ↔
      ∀ branch ∈ first :: others, ∀ item ∈ branch, item.depth ≤ bound := by
  rw [depth, Nat.add_le_add_iff_right, Nat.max_le, branchDepth_le_iff, alternativesDepth_le_iff,
    List.forall_mem_cons]

section Pattern

variable (platform : Platform) {kind : GroupKind} {first : List GlobItem}
  {others : List (List GlobItem)}

theorem depth_runPattern : platform.runPattern.depth = 0 := by
  cases platform <;> rfl

theorem repeatsBlank_runPattern : platform.runPattern.repeatsBlank = false := by
  cases platform <;> rfl

/-- The expression of an item nests its groups as the item does. -/
theorem depth_pattern_le_iff {bound : Nat} (item : GlobItem) :
    (item.pattern platform).depth ≤ bound ↔ item.depth ≤ bound := by
  induction item using GlobItem.induct generalizing bound with
  | char | anyChar => exact Iff.rfl
  | anyRun => cases platform <;> exact Iff.rfl
  | bracket cls repeated => cases repeated <;> exact Iff.rfl
  | group kind first others each =>
    have nested : ((group kind first others).pattern platform).depth =
        (alternativesPattern platform first others).depth + 1 := by
      rw [pattern_group]
      cases kind <;> simp [Regex.depth, depth_runPattern]
    rw [nested]
    cases bound with
    | zero => simp [depth]
    | succ bound =>
      rw [depth_group_le_iff, Nat.add_le_add_iff_right, alternativesPattern,
        Regex.depth_alternatives_le_iff, List.forall_mem_map]
      refine forall₂_congr fun branch isBranch => ?_
      rw [List.forall_mem_map]
      exact forall₂_congr fun item isItem => each branch isBranch item isItem

private theorem isBlank_alternativesPattern_iff :
    (alternativesPattern platform first others).isBlank = true ↔
      others = [] ∧ ∀ item ∈ first, (item.pattern platform).isBlank = true := by
  simp [alternativesPattern]

private theorem repeatsBlank_alternativesPattern_iff :
    (alternativesPattern platform first others).repeatsBlank = true ↔
      ∃ branch ∈ first :: others, ∃ item ∈ branch, (item.pattern platform).repeatsBlank = true := by
  simp [alternativesPattern]

/-- Only a group that neither repeats nor checks can be blank. -/
theorem isBlank_pattern_group_iff :
    ((group kind first others).pattern platform).isBlank = true ↔
      (kind = .brace ∨ kind = .one) ∧ others = [] ∧
        ∀ item ∈ first, (item.pattern platform).isBlank = true := by
  rw [← isBlank_alternativesPattern_iff, pattern_group]
  cases kind <;> simp [Regex.isBlank]

/-- A blank is repeated by a group itself or inside it. -/
theorem repeatsBlank_pattern_group_iff :
    ((group kind first others).pattern platform).repeatsBlank = true ↔
      (kind = .oneOrMore ∨ kind = .zeroOrMore ∨ kind = .zeroOrOne) ∧
          (alternativesPattern platform first others).isBlank = true ∨
        (alternativesPattern platform first others).repeatsBlank = true := by
  rw [pattern_group]
  cases kind <;> simp [Regex.repeatsBlank, Regex.isBlank, repeatsBlank_runPattern]

/-- A blank expression comes from an empty group. -/
theorem isVoid_of_isBlank {item : GlobItem} (blank : (item.pattern platform).isBlank = true) :
    item.IsVoid := by
  induction item using GlobItem.induct with
  | char | anyChar | anyRun => cases blank
  | bracket cls repeated => cases repeated <;> cases blank
  | group kind first others each =>
    obtain ⟨plain, rfl, content⟩ := (isBlank_pattern_group_iff platform).mp blank
    apply IsVoid.group kind
    · rcases plain with rfl | rfl <;> simp
    · intro item isItem
      exact each first List.mem_cons_self item isItem (content item isItem)

/-- Where nothing stands but items that are blank or repeat a blank, so is the whole. -/
theorem isBlank_or_repeatsBlank_alternativesPattern {content : List GlobItem}
    (each : ∀ item ∈ content, (item.pattern platform).isBlank = true ∨
      (item.pattern platform).repeatsBlank = true) :
    (alternativesPattern platform content []).isBlank = true ∨
      (alternativesPattern platform content []).repeatsBlank = true := by
  by_cases blank : ∀ item ∈ content, (item.pattern platform).isBlank = true
  · exact .inl ((isBlank_alternativesPattern_iff platform).mpr ⟨rfl, blank⟩)
  · obtain ⟨item, isItem, notBlank⟩ := not_forall₂.mp blank
    have repeats := (each item isItem).resolve_left notBlank
    exact .inr ((repeatsBlank_alternativesPattern_iff platform).mpr
      ⟨content, List.mem_cons_self, item, isItem, repeats⟩)

/-- An empty group is compiled to a blank expression, unless one of its groups is repeated. -/
theorem isBlank_or_repeatsBlank_of_isVoid {item : GlobItem} (isVoid : item.IsVoid) :
    (item.pattern platform).isBlank = true ∨ (item.pattern platform).repeatsBlank = true := by
  induction isVoid with
  | group kind counts _ each =>
    have inner := isBlank_or_repeatsBlank_alternativesPattern platform each
    rw [isBlank_pattern_group_iff, repeatsBlank_pattern_group_iff, ← isBlank_alternativesPattern_iff]
    cases kind with
    | noneOf => exact (counts rfl).elim
    | brace | one => exact inner.imp (⟨by simp, ·⟩) .inr
    | oneOrMore | zeroOrMore | zeroOrOne => exact .inr (inner.imp (⟨by simp, ·⟩) id)

/-- The expression of an item repeats a blank exactly if the item repeats an empty group. -/
theorem repeatsBlank_pattern_iff (item : GlobItem) :
    (item.pattern platform).repeatsBlank = true ↔ item.RepeatsVoid := by
  induction item using GlobItem.induct with
  | char | anyChar =>
    refine iff_of_false Bool.false_ne_true ?_
    rintro ⟨⟩
  | anyRun =>
    refine iff_of_false ?_ (by rintro ⟨⟩)
    rw [pattern, shape, Shape.pattern, repeatsBlank_runPattern]
    exact Bool.false_ne_true
  | bracket cls repeated =>
    refine iff_of_false ?_ (by rintro ⟨⟩)
    cases repeated <;> exact Bool.false_ne_true
  | group kind first others each =>
    rw [repeatsBlank_pattern_group_iff]
    constructor
    · rintro (⟨repeats, blank⟩ | inner)
      · obtain ⟨rfl, content⟩ := (isBlank_alternativesPattern_iff platform).mp blank
        exact .here repeats fun item isItem => isVoid_of_isBlank platform (content item isItem)
      · obtain ⟨branch, isBranch, item, isItem, inner⟩ :=
          (repeatsBlank_alternativesPattern_iff platform).mp inner
        exact .inside isBranch isItem ((each branch isBranch item isItem).mp inner)
    · rintro (⟨repeats, isVoid⟩ | ⟨isBranch, isItem, inner⟩)
      -- The content may repeat a blank of its own, and then it is not blank itself.
      · have content := isBlank_or_repeatsBlank_alternativesPattern platform fun item isItem =>
          isBlank_or_repeatsBlank_of_isVoid platform (isVoid item isItem)
        exact content.imp (⟨repeats, ·⟩) id
      · exact .inr ((repeatsBlank_alternativesPattern_iff platform).mpr
          ⟨_, isBranch, _, isItem, (each _ isBranch _ isItem).mpr inner⟩)

end Pattern

/-- An engine accepts the expression of items exactly if their groups do not nest too deep and none
of them repeats an empty group. -/
theorem isAccepted_branchPattern_iff (platform : Platform) (items : List GlobItem) :
    (branchPattern platform items).isAccepted = true ↔
      branchDepth items ≤ Regex.maxDepth ∧ ∀ item ∈ items, ¬item.RepeatsVoid := by
  rw [branchPattern, Regex.isAccepted_iff, Regex.depth_sequence_le_iff, Regex.repeatsBlank_sequence,
    branchDepth_le_iff, List.forall_mem_map, List.any_eq_false]
  apply and_congr
  · exact forall₂_congr fun item _ => depth_pattern_le_iff platform item
  · rw [List.forall_mem_map]
    exact forall₂_congr fun item _ => not_congr (repeatsBlank_pattern_iff platform item)

end GlobItem

variable {options : Options}

/-- The expression of a segment is accepted if that of its items is, if its syntax is complete; any
other segment is accepted anyway. -/
theorem isAccepted_ofSegment_iff (segment : List Char) :
    ((Shape.ofSegment options segment).pattern options.platform).isAccepted = true ↔
      ∀ items, GlobGrammar.IsSegment options segment items →
        GlobItem.branchDepth items ≤ Regex.maxDepth ∧ ∀ item ∈ items, ¬item.RepeatsVoid := by
  constructor
  · intro accepted items isSegment
    rw [isSegment.pattern_ofSegment, GlobItem.isAccepted_branchPattern_iff] at accepted
    exact accepted
  · intro fine
    by_cases complete : ∃ items, GlobGrammar.IsSegment options segment items
    · obtain ⟨items, isSegment⟩ := complete
      rw [isSegment.pattern_ofSegment, GlobItem.isAccepted_branchPattern_iff]
      exact fine items isSegment
    · rw [GlobGrammar.pattern_ofSegment_of_incomplete (not_exists.mp complete),
        GlobItem.isAccepted_branchPattern_iff, GlobItem.branchDepth_le_iff, List.forall_mem_map,
        List.forall_mem_map]
      refine ⟨fun c _ => Nat.zero_le _, ?_⟩
      rintro c _ ⟨⟩

theorem compile_eq_error_iff {glob : String} {error : GlobError} :
    Matcher.compile options glob = .error error ↔
      error = .refusedPattern ∧ (globPattern options glob).isAccepted = false := by
  unfold Matcher.compile
  split
  · next accepted => simp [accepted]
  · next refused => simp [refused, eq_comm]

theorem exists_compile_eq_ok_iff {glob : String} :
    (∃ matcher, Matcher.compile options glob = .ok matcher ∧ matcher.options = options ∧
        matcher.source = globSource options glob) ↔ (globPattern options glob).isAccepted = true := by
  unfold Matcher.compile
  split
  · next accepted => exact iff_of_true ⟨_, rfl, rfl, rfl⟩ accepted
  · next refused => exact iff_of_false (by simp) refused

/-- A glob compiles exactly if the expressions of all its segments are accepted. -/
theorem exists_compile_iff {glob : String} :
    (∃ matcher, Matcher.compile options glob = .ok matcher) ↔
      ∀ name ∈ Path.names options.platform glob.toList,
        ((Shape.ofSegment options name).pattern options.platform).isAccepted = true := by
  rw [← isAccepted_globPattern_iff]
  unfold Matcher.compile
  split
  · next accepted => exact iff_of_true ⟨_, rfl⟩ accepted
  · next refused => exact iff_of_false (by simp) refused

/-- Globs that an engine refuses for their syntax: a glob has a matcher exactly if no segment of
complete syntax nests its groups too deep or repeats an empty group. -/
theorem compile_succeeds_iff (options : Options) (glob : String) :
    (∃ matcher, Matcher.compile options glob = .ok matcher ∧ matcher.options = options ∧
        matcher.source = globSource options glob) ↔
      ∀ name ∈ Path.names options.platform glob.toList, ∀ items,
        GlobGrammar.IsSegment options name items →
          GlobItem.branchDepth items ≤ 63 ∧ ∀ item ∈ items, ¬item.RepeatsVoid := by
  rw [exists_compile_eq_ok_iff, isAccepted_globPattern_iff]
  exact forall₂_congr fun name _ => isAccepted_ofSegment_iff name

/-- A repeated group with nothing in it is not taken as its literal text. -/
theorem compile_repeated_empty_group :
    ¬∃ matcher, Matcher.compile {} "+()" = .ok matcher := by
  rintro ⟨matcher, compiled⟩
  cases compiled

/-- The source of every glob is well formed, piece by piece and as a whole, and a glob does not
compile exactly if a segment of complete syntax nests its groups 64 deep or deeper or repeats an empty
group. There is only one error then. -/
theorem source_wellFormed_and_compile_fails_iff (options : Options) (glob : String) :
    (∃ tree, Regex.ofSource? (globSource options glob) = some tree ∧
        tree.source = globSource options glob ∧ tree.isWellFormed = true ∧ tree.isBranch = true ∧
        ((∃ error, Matcher.compile options glob = .error error) ↔ tree.isAccepted = false)) ∧
      (globSource options glob).toList = '^' ::
        (((Glob.ofText options glob.toList).pieces options.platform).flatMap Regex.text ++ ['$']) ∧
      (∀ piece ∈ (Glob.ofText options glob.toList).pieces options.platform,
        ∃ tree, Regex.read? piece.text = some tree ∧ tree.text = piece.text ∧
          tree.isWellFormed = true ∧ tree.isBranch = true) ∧
      ∀ error, Matcher.compile options glob = .error error ↔
        error = .refusedPattern ∧ ∃ name ∈ Path.names options.platform glob.toList, ∃ items,
          GlobGrammar.IsSegment options name items ∧
            (64 ≤ GlobItem.branchDepth items ∨ ∃ item ∈ items, item.RepeatsVoid) := by
  have same : Regex.Regrouped (globTree options glob) (globPattern options glob) := regrouped_globTree
  refine ⟨⟨globTree options glob, ofSource?_globSource, source_globTree, ?_, ?_, ?_⟩,
    toList_globSource options glob, ?_, ?_⟩
  · rw [same.isWellFormed_eq, isWellFormed_globPattern]
  · rw [same.isBranch_eq, isBranch_globPattern]
  · simp only [same.isAccepted_eq, compile_eq_error_iff, exists_eq_left]
  · intro piece isPiece
    have wellFormed := Glob.isWellFormed_of_mem_pieces isPiece
    have isBranch := Glob.isBranch_of_mem_pieces isPiece
    have same := Regex.regrouped_laidOut wellFormed
    refine ⟨piece.laidOut, Regex.read?_text wellFormed isBranch, same.text_eq, ?_, ?_⟩
    · rw [same.isWellFormed_eq, wellFormed]
    · rw [same.isBranch_eq, isBranch]
  · intro error
    rw [compile_eq_error_iff, ← Bool.not_eq_true, isAccepted_globPattern_iff]
    simp only [isAccepted_ofSegment_iff, not_forall, not_and_or, not_le, not_not, exists_prop]
    exact Iff.rfl

/-- A repeated `!()` is no empty group: it compiles, although nothing stands in it. -/
theorem compile_repeated_empty_check :
    Path.names .posix "*(!())".toList = ["*(!())".toList] ∧
      GlobGrammar.IsSegment {} "*(!())".toList [.group .zeroOrMore [.group .noneOf [] []] []] ∧
      ∃ matcher, Matcher.compile {} "*(!())" = .ok matcher := by
  refine ⟨rfl, ?_, ⟨_, rfl⟩⟩
  have check : GlobGrammar.OpensGroup {} "!())".toList .noneOf "))".toList := ⟨'!', rfl, rfl, rfl⟩
  have repeated : GlobGrammar.OpensGroup {} "*(!())".toList .zeroOrMore "!())".toList :=
    ⟨'*', rfl, rfl, rfl⟩
  have content : GlobGrammar.Reads {} (some .zeroOrMore) "!())".toList [[.group .noneOf [] []]] [] :=
    .group (.extended check) (.close .noneOf ")".toList) (.close .zeroOrMore [])
  exact .group (.extended repeated) content .finish

end PathGlob
