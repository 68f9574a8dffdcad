import PathGlob.Glob.Shape

/-! # Globs as segments

How many separators part two segments of a glob does not count, nor do separators at its end; all
that counts beside the segments is whether a separator stands in front.
-/

namespace PathGlob

/-- A segment of a glob. -/
inductive GlobSegment where
  /-- Any number of whole segments, written `**`. -/
  | globstar
  | shape (shape : Shape)
  deriving DecidableEq, Repr

/-- A glob. With no separator in front and no segment it is the empty glob. -/
structure Glob where
  /-- A separator stands in front of the first segment. -/
  rooted : Bool
  segments : List GlobSegment
  deriving DecidableEq, Repr

end PathGlob
