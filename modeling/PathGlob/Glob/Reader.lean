import PathGlob.Glob.Cursor

/-! # Reading a glob

The text of a glob is cut at its separators from left to right, and each segment is read in place.
-/

namespace PathGlob

namespace Glob

/-- A text without the separators at its end. One character stays in any case. -/
def dropTrailing (platform : Platform) : List Char → List Char
  | [] => []
  | c :: rest => c :: (rest.reverse.dropWhile platform.isSeparator).reverse

/-- The place of the first separator from a place on. -/
def segmentEnd (platform : Platform) (text : List Char) (place : Nat) : Nat :=
  place + (text.drop place).findIdx platform.isSeparator

/-- The first place from a place on with no separator. -/
def skipSeparators (platform : Platform) (text : List Char) (place : Nat) : Nat :=
  place + (text.drop place).findIdx (!platform.isSeparator ·)

/-- The places where the segments start and stop, from a start on. There are none if the search for
the next start stalls. -/
def bounds? (platform : Platform) (text : List Char) : Nat → Nat → Option (List (Nat × Nat))
  | 0, _ => some []
  | rounds + 1, start =>
    if start < text.length then
      let stop := segmentEnd platform text start
      let next := skipSeparators platform text stop
      if next ≤ start then none
      else (bounds? platform text rounds next).map ((start, stop) :: ·)
    else some []

/-- The next segment starts further on. -/
theorem lt_skipSeparators (platform : Platform) {text : List Char} {start : Nat}
    (inside : start < text.length) :
    start < skipSeparators platform text (segmentEnd platform text start) := by
  rw [skipSeparators, segmentEnd, List.drop_eq_getElem_cons inside, List.findIdx_cons]
  cases separates : platform.isSeparator text[start] with
  | true =>
    rw [cond_true, Nat.add_zero, List.drop_eq_getElem_cons inside, List.findIdx_cons, separates,
      Bool.not_true, cond_false]
    omega
  | false =>
    rw [cond_false]
    omega

/-- The search never stalls. -/
theorem isSome_bounds? (platform : Platform) (text : List Char) (rounds start : Nat) :
    (bounds? platform text rounds start).isSome := by
  induction rounds generalizing start with
  | zero => rfl
  | succ rounds ih =>
    rw [bounds?]
    split
    · next inside =>
      rw [if_neg (Nat.not_le.mpr (lt_skipSeparators platform inside)), Option.isSome_map]
      exact ih _
    · rfl

/-- The glob whose segments have some bounds. Bounds without a character between them are those of
the text before a separator in front. -/
def ofBounds (options : Options) (text : List Char) (bounds : List (Nat × Nat)) : Glob where
  rooted := bounds.any fun (start, stop) => start == stop
  segments := (bounds.filter fun (start, stop) => start != stop).map fun (start, stop) =>
    GlobSegment.read options text start stop

/-- Reads a glob, unless that stalls. -/
def read? (options : Options) (text : List Char) : Option Glob :=
  let text := dropTrailing options.platform text
  (bounds? options.platform text text.length 0).map (ofBounds options text)

theorem isSome_read? (options : Options) (text : List Char) : (read? options text).isSome :=
  Option.isSome_map.trans (isSome_bounds? ..)

def ofText (options : Options) (text : List Char) : Glob :=
  (read? options text).get (isSome_read? options text)

end Glob

end PathGlob
