import PathGlob.Glob.Token

/-! # Shapes of glob segments

The syntax tree of a segment. Groups are matched up on a stack: a closer, bar or comma only counts
if it belongs to the innermost open group, and is a literal character otherwise. A segment with an
open group at its end has no shape; it is taken as its literal text (`Shape.literal`), like one whose
tokens are not complete.
-/

namespace PathGlob

/-- What a segment of a glob looks like. -/
inductive Shape where
  | empty
  | char (c : Char)
  /-- One character. -/
  | anyChar
  /-- A run of characters within the segment. -/
  | anyRun
  /-- A character of a class, or as many as one likes but at least one. -/
  | bracket (cls : CharClass) (repeated : Bool)
  | seq (first second : Shape)
  | alt (first second : Shape)
  | group (kind : GroupKind) (body : Shape)
  deriving DecidableEq, Repr

/-- The alternatives of an unfinished group: those that are complete, and the last one so far. -/
structure Branches where
  complete : Option Shape := none
  last : Shape := .empty
  deriving DecidableEq, Repr

namespace Branches

def append (branches : Branches) (item : Shape) : Branches :=
  { branches with last := .seq branches.last item }

/-- All alternatives as one shape. -/
def close (branches : Branches) : Shape :=
  match branches.complete with
  | none => branches.last
  | some complete => .alt complete branches.last

def split (branches : Branches) : Branches :=
  { complete := some branches.close, last := .empty }

end Branches

/-- A group that is open: its kind, and the alternatives around it. -/
structure OpenGroup where
  kind : GroupKind
  around : Branches
  deriving DecidableEq, Repr

namespace Shape

def literal (text : List Char) : Shape :=
  text.foldl (fun shape c => .seq shape (.char c)) .empty

/-- Matches up groups, the innermost open group first. -/
def build? : List OpenGroup → Branches → List GlobToken → Option Shape
  | [], branches, [] => some branches.close
  | _ :: _, _, [] => none
  | groups, branches, .openGroup kind :: rest => build? (⟨kind, branches⟩ :: groups) {} rest
  | groups, branches, .closeParen :: rest =>
    match groups with
    | ⟨.brace, _⟩ :: _ | [] => build? groups (branches.append (.char ')')) rest
    | ⟨kind, around⟩ :: outer => build? outer (around.append (.group kind branches.close)) rest
  | groups, branches, .closeBrace :: rest =>
    match groups with
    | ⟨.brace, around⟩ :: outer => build? outer (around.append (.group .brace branches.close)) rest
    | _ => build? groups (branches.append (.char '}')) rest
  | groups, branches, .bar :: rest =>
    match groups with
    | ⟨.brace, _⟩ :: _ | [] => build? groups (branches.append (.char '|')) rest
    | _ => build? groups branches.split rest
  | groups, branches, .comma :: rest =>
    match groups with
    | ⟨.brace, _⟩ :: _ => build? groups branches.split rest
    | _ => build? groups (branches.append (.char ',')) rest
  | groups, branches, .char c :: rest => build? groups (branches.append (.char c)) rest
  | groups, branches, .anyChar :: rest => build? groups (branches.append .anyChar) rest
  | groups, branches, .anyRun :: rest => build? groups (branches.append .anyRun) rest
  | groups, branches, .bracket cls repeated :: rest =>
    build? groups (branches.append (.bracket cls repeated)) rest

/-- The shape that the tokens of a segment make up. -/
def ofTokens? (tokens : List GlobToken) : Option Shape :=
  build? [] {} tokens

end Shape

end PathGlob
