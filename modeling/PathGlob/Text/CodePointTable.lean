/-! # Tables of code points

A character property of the Unicode standard is given as a list of closed ranges of code points in
increasing order. Membership is a search of that list.
-/

namespace PathGlob.Text

/-- A set of characters, as closed ranges of code points. -/
structure CodePointTable where
  ranges : List (Nat × Nat)

namespace CodePointTable

def contains (table : CodePointTable) (c : Char) : Bool :=
  table.ranges.any fun range => range.1 ≤ c.toNat && c.toNat ≤ range.2

theorem contains_iff (table : CodePointTable) (c : Char) :
    table.contains c = true ↔ ∃ range ∈ table.ranges, range.1 ≤ c.toNat ∧ c.toNat ≤ range.2 := by
  simp [contains]

end CodePointTable

end PathGlob.Text
