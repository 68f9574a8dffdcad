import PathGlob.Text.DecimalDigit
import PathGlob.Text.Numeral
import PathGlob.Text.WhiteSpace
import PathGlob.Text.WordCharacter

/-! # Written character classes

A class such as `[^a-z\d\-]` as it stands in a regular expression: whether it is negated, and its
body as a list of tokens. A token knows how it is spelled, so that a class has one text. What a body
means is read off its tokens in `PathGlob.CharClass.Members`.
-/

namespace PathGlob

/-- The classes with a letter of their own. -/
inductive Shorthand where
  | digit
  | space
  | word
  deriving DecidableEq, Repr

namespace Shorthand

/-- The letter that names a shorthand after a backslash. -/
def letter : Shorthand → Char
  | digit => 'd'
  | space => 's'
  | word => 'w'

/-- The characters a shorthand stands for. -/
def contains : Shorthand → Char → Bool
  | digit => Text.isDecimalDigit
  | space => Text.isWhiteSpace
  | word => Text.isWordCharacter

end Shorthand

/-- How a single character is written inside a class. -/
inductive Spelling where
  /-- As itself. -/
  | bare
  /-- As itself after a backslash. -/
  | escaped
  /-- By a code: a tab as `\t`, any other character as `\x` and two hexadecimal digits. -/
  | coded
  deriving DecidableEq, Repr

/-- A unit of the text of a class body. -/
inductive ClassToken where
  | char (c : Char) (spelling : Spelling)
  /-- A bare `-`, which may part the ends of a range or two operands of a difference. -/
  | dash
  | shorthand (kind : Shorthand)
  deriving DecidableEq, Repr

namespace ClassToken

/-- The characters that a class body may not hold bare as members. -/
def special : List Char :=
  ['-', '[', '\\', ']', '^', '&', '~']

/-- The token for a character that is a member whatever its role in the text of a class. -/
def literal (c : Char) : ClassToken :=
  .char c (if special.contains c then .escaped else .bare)

/-- The token for a character of a glob bracket: only a `-` keeps a role. -/
def plain (c : Char) : ClassToken :=
  if c = '-' then .dash else literal c

def text : ClassToken → List Char
  | .char c .bare => [c]
  | .char c .escaped => ['\\', c]
  | .char c .coded =>
    if c = '\t' then ['\\', 't']
    else '\\' :: 'x' :: (Text.twoHexDigits c.toNat).map Char.toUpper
  | .dash => ['-']
  | .shorthand kind => ['\\', kind.letter]

end ClassToken

/-- A character class in brackets. -/
structure CharClass where
  negated : Bool
  tokens : List ClassToken
  deriving DecidableEq, Repr

namespace CharClass

/-- The text of a class, brackets included. -/
def text (cls : CharClass) : List Char :=
  '[' :: ((if cls.negated then ['^'] else []) ++ cls.tokens.flatMap ClassToken.text ++ [']'])

end CharClass

end PathGlob
