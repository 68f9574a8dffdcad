import PathGlob.Platform
import PathGlob.Text.Pieces

/-! # Segments of a path

A path is cut at its separators. Two separators in a row have an empty segment between them, and so
has a separator at either end of the path beside it.
-/

namespace PathGlob.Path

/-- The segments of a path, empty ones included. -/
def segments (platform : Platform) (path : List Char) : List (List Char) :=
  Text.pieces platform.isSeparator path

/-- The segments of a path that are not empty. -/
def names (platform : Platform) (path : List Char) : List (List Char) :=
  (segments platform path).filter (· ≠ [])

/-- Writes segments one after the other with a separator between two of them. -/
def ofSegments (platform : Platform) : List (List Char) → List Char
  | [] => []
  | [segment] => segment
  | segment :: rest => segment ++ platform.separator :: ofSegments platform rest

end PathGlob.Path
