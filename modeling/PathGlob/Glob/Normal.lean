import PathGlob.Error
import PathGlob.Path.Normal

/-! # Normal globs

Globs are normalized and joined like paths, with one difference. A segment `**` may stand for no
segment at all, so a `..` after it does not take it away. Such a `..` is shielded: a character that
no glob holds stands in its place while the glob is normalized as a path.
-/

namespace PathGlob.Glob

/-- The character that stands for a shielded `..`. No glob may hold it. -/
def shieldMark : Char := '\x00'

/-- Shields every `..` that comes right after `**`, where empty segments do not count and `previous`
is the segment before. -/
def shieldSegments (previous : List Char) : List (List Char) → List (List Char)
  | [] => []
  | segment :: rest =>
    let shielded :=
      if segment = Path.dotDot ∧ previous = ['*', '*'] then [shieldMark] else segment
    shielded :: shieldSegments (if segment = [] then previous else segment) rest

/-- Shields every `..` that comes right after `**`. -/
def shield (platform : Platform) (glob : List Char) : List Char :=
  Path.ofSegments platform (shieldSegments [] (Path.segments platform glob))

/-- Puts `..` back where it was shielded. -/
def unshield (glob : List Char) : List Char :=
  glob.flatMap fun c => if c = shieldMark then Path.dotDot else [c]

/-- The normal form of a glob without shield marks. -/
def normalForm (platform : Platform) (globstar : Bool) (glob : List Char) : List Char :=
  if globstar then unshield (Path.normalForm platform (shield platform glob))
  else Path.normalForm platform glob

/-- Normalizes a glob, in which `**` is a globstar or not. -/
def normalize (platform : Platform) (globstar : Bool) (glob : String) : Except GlobError String :=
  if glob.toList.contains shieldMark then .error (.invalidCharacters glob)
  else .ok (String.ofList (normalForm platform globstar glob.toList))

/-- Joins globs to one normal glob. If `**` has no role in them they are joined like paths. -/
def join (platform : Platform) (globstar : Bool) (globs : List String) :
    Except GlobError String :=
  if globstar then
    let parts := (globs.map String.toList).filter (· ≠ [])
    normalize platform true (String.ofList (Path.ofSegments platform parts))
  else .ok (Path.join platform globs)

end PathGlob.Glob
