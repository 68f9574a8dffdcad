import PathGlob.Text.CodePointTable

/-! # White space

The characters with the Unicode property `White_Space`. The separators U+001C to U+001F are not
among them.
-/

namespace PathGlob.Text

/-- The characters of the property `White_Space`. -/
def whiteSpace : CodePointTable where
  ranges := [
    (0x0009, 0x000d), (0x0020, 0x0020), (0x0085, 0x0085), (0x00a0, 0x00a0), (0x1680, 0x1680),
    (0x2000, 0x200a), (0x2028, 0x2029), (0x202f, 0x202f), (0x205f, 0x205f), (0x3000, 0x3000)]

def isWhiteSpace (c : Char) : Bool :=
  whiteSpace.contains c

end PathGlob.Text
