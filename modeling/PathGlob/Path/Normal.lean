import PathGlob.Path.Root
import PathGlob.Path.Segment

/-! # Normal paths

A path is normalized by its text alone: no file is looked at. Empty segments and `.` are dropped,
`..` takes the name before it away, a separator at the end is kept, and where nothing is left of a
relative path there is a `.`.
-/

namespace PathGlob.Path

/-- The segment for the directory itself. -/
def dot : List Char := ['.']

/-- The segment for the directory above. -/
def dotDot : List Char := ['.', '.']

/-- Goes on to one more segment, the last one on top of the stack. A `..` with no name to take away
stays if there is something above the root. -/
def descend (aboveRoot : Bool) (stack : List (List Char)) (segment : List Char) :
    List (List Char) :=
  if segment = [] ∨ segment = dot then stack
  else if segment = dotDot then
    match stack with
    | last :: others =>
      if last ≠ dotDot then others else if aboveRoot then dotDot :: stack else stack
    | [] => if aboveRoot then [dotDot] else []
  else segment :: stack

/-- The segments that are left when `.` and `..` are resolved. -/
def resolve (aboveRoot : Bool) (segments : List (List Char)) : List (List Char) :=
  (segments.foldl (descend aboveRoot) []).reverse

def normalForm (platform : Platform) (path : List Char) : List Char :=
  let (root, rest) := Root.split platform path
  let resolved := ofSegments platform (resolve (!root.isAbsolute) (segments platform rest))
  let tail := if resolved = [] ∧ root.isAbsolute = false then dot else resolved
  let isClosed := tail ≠ [] ∧ path.getLast?.any platform.isSeparator
  root.text platform ++ tail ++ if isClosed then [platform.separator] else []

/-- Keeps separators that only came together by joining from being read as the start of a share:
unless the first fragment starts with exactly two separators and goes on after them, a run of
separators at the start of the whole counts as one. -/
def closeGap (first joined : List Char) : List Char :=
  let leading := (first.take 3).takeWhile Platform.windows.isSeparator
  let run := joined.takeWhile Platform.windows.isSeparator
  if (leading.length = 2 ∧ first.length > 2) ∨ run.length < 2 then joined
  else Platform.windows.separator :: joined.drop run.length

/-- The normal form of fragments put together with separators between them. Empty ones do not count.
-/
def joinForm (platform : Platform) (fragments : List (List Char)) : List Char :=
  match platform, fragments.filter (· ≠ []) with
  | _, [] => dot
  | .posix, parts => normalForm .posix (ofSegments .posix parts)
  | .windows, first :: others =>
    normalForm .windows (closeGap first (ofSegments .windows (first :: others)))

def normalize (platform : Platform) (path : String) : String :=
  String.ofList (normalForm platform path.toList)

/-- Joins fragments to one normal path. -/
def join (platform : Platform) (fragments : List String) : String :=
  String.ofList (joinForm platform (fragments.map String.toList))

end PathGlob.Path
