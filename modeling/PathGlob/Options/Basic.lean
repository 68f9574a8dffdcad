import PathGlob.Platform

/-! # Options

What the reader of a glob may choose: which groups are understood, whether `**` spans segments,
whether case counts, and the path flavour.
-/

namespace PathGlob

/-- How a glob is to be read and matched. -/
structure Options where
  /-- Understand the groups `@(…)`, `+(…)`, `*(…)`, `?(…)` and `!(…)`. -/
  extended : Bool := true
  /-- Let a segment `**` stand for any number of whole segments. -/
  globstar : Bool := true
  /-- Match letters regardless of case. -/
  caseInsensitive : Bool := false
  platform : Platform := .posix
  deriving DecidableEq, Repr

end PathGlob
