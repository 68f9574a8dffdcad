/-! # Words and digits

The words for the truth values, and numbers in hexadecimal digits.
-/

namespace PathGlob.Text

def ofBool (value : Bool) : String :=
  if value then "true" else "false"

/-- A number below 256 in two lower-case hexadecimal digits. -/
def twoHexDigits (n : Nat) : List Char :=
  [Nat.digitChar (n / 16), Nat.digitChar (n % 16)]

end PathGlob.Text
