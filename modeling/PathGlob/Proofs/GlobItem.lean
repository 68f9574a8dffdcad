import PathGlob.Glob.Shape

/-! # Items of a glob segment

What stands in a segment whose syntax is complete, as a reader of globs sees it: a segment is a list
of items, and a group holds alternatives that are lists of items again. Nothing here depends on how
a segment is scanned. `GlobItem.shape` is the shape that an item amounts to.
-/

namespace PathGlob

/-- An item of a glob segment. -/
inductive GlobItem where
  | char (c : Char)
  /-- One character, written `?`. -/
  | anyChar
  /-- A run of stars. -/
  | anyRun
  /-- A bracket, and whether a `+` after it repeats it. -/
  | bracket (cls : CharClass) (repeated : Bool)
  /-- A group, which has at least one alternative. -/
  | group (kind : GroupKind) (first : List GlobItem) (others : List (List GlobItem))

namespace Shape

def sequence (shapes : List Shape) : Shape :=
  shapes.foldl .seq .empty

def alternatives (first : List Shape) (others : List (List Shape)) : Shape :=
  (others.map sequence).foldl .alt (sequence first)

end Shape

namespace GlobItem

/-- To show something of all items, a group may be assumed to have only items of which it holds. -/
theorem induct {motive : GlobItem → Prop} (char : ∀ c, motive (.char c)) (anyChar : motive .anyChar)
    (anyRun : motive .anyRun) (bracket : ∀ cls repeated, motive (.bracket cls repeated))
    (group : ∀ kind first others, (∀ branch ∈ first :: others, ∀ item ∈ branch, motive item) →
      motive (.group kind first others)) :
    ∀ item, motive item
  | .char c => char c
  | .anyChar => anyChar
  | .anyRun => anyRun
  | .bracket cls repeated => bracket cls repeated
  | .group kind first others => group kind first others fun branch _ item _ =>
    induct char anyChar anyRun bracket group item
termination_by item => sizeOf item
decreasing_by
  have inBranch := List.sizeOf_lt_of_mem ‹item ∈ branch›
  have inGroup := List.sizeOf_lt_of_mem ‹branch ∈ first :: others›
  simp only [GlobItem.group.sizeOf_spec, List.cons.sizeOf_spec] at inGroup ⊢
  omega

mutual

def shape : GlobItem → Shape
  | char c => .char c
  | anyChar => .anyChar
  | anyRun => .anyRun
  | bracket cls repeated => .bracket cls repeated
  | group kind first others =>
    .group kind (Shape.alternatives (branchShapes first) (alternativesShapes others))

def alternativesShapes : List (List GlobItem) → List (List Shape)
  | [] => []
  | branch :: others => branchShapes branch :: alternativesShapes others

def branchShapes : List GlobItem → List Shape
  | [] => []
  | item :: following => item.shape :: branchShapes following

end

private theorem branchShapes_eq_map (items : List GlobItem) : branchShapes items = items.map shape := by
  induction items with
  | nil => rfl
  | cons item following ih => rw [branchShapes, ih, List.map_cons]

private theorem alternativesShapes_eq_map (alternatives : List (List GlobItem)) :
    alternativesShapes alternatives = alternatives.map (List.map shape) := by
  induction alternatives with
  | nil => rfl
  | cons branch others ih => rw [alternativesShapes, ih, branchShapes_eq_map, List.map_cons]

theorem shape_group (kind : GroupKind) (first : List GlobItem) (others : List (List GlobItem)) :
    (group kind first others).shape =
      .group kind (Shape.alternatives (first.map shape) (others.map (List.map shape))) := by
  rw [shape, branchShapes_eq_map, alternativesShapes_eq_map]

end GlobItem

end PathGlob
