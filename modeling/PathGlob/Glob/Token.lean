import PathGlob.CharClass.Basic

/-! # Tokens of a glob segment

What a cursor makes of the characters it goes over. Escapes and brackets are resolved in them,
because inside those no other character has a role; what opens and closes groups is a token of its
own, and whether it does so in the place where it stands is decided when groups are matched up
(`PathGlob.Glob.Shape`).
-/

namespace PathGlob

/-- The groups of a glob. -/
inductive GroupKind where
  /-- One of the alternatives, as in `{a,b}`. -/
  | brace
  /-- One of the alternatives, as in `@(a|b)`. -/
  | one
  /-- Alternatives at least once, as in `+(a|b)`. -/
  | oneOrMore
  /-- Alternatives any number of times, as in `*(a|b)`. -/
  | zeroOrMore
  /-- One of the alternatives or nothing, as in `?(a|b)`. -/
  | zeroOrOne
  /-- What does not start like any of the alternatives, as in `!(a|b)`. -/
  | noneOf
  deriving DecidableEq, Repr

namespace GroupKind

/-- The kind of group that an operator opens before a parenthesis. -/
def ofOperator? : Char → Option GroupKind
  | '@' => some one
  | '+' => some oneOrMore
  | '*' => some zeroOrMore
  | '?' => some zeroOrOne
  | '!' => some noneOf
  | _ => none

end GroupKind

/-- A unit of the text of a segment. -/
inductive GlobToken where
  | char (c : Char)
  /-- A `?`, which stands for any character. -/
  | anyChar
  /-- A run of stars. -/
  | anyRun
  /-- A bracket, and whether a `+` after it repeats it. -/
  | bracket (cls : CharClass) (repeated : Bool)
  | openGroup (kind : GroupKind)
  /-- A `)`, which may close a group. -/
  | closeParen
  /-- A `|`, which may part alternatives. -/
  | bar
  /-- A `}`, which may close a brace. -/
  | closeBrace
  /-- A `,`, which may part the alternatives of a brace. -/
  | comma
  deriving DecidableEq, Repr

namespace GlobToken

/-- What a character is outside brackets and escapes if it is a token by itself. -/
def ofChar : Char → GlobToken
  | '{' => .openGroup .brace
  | '}' => .closeBrace
  | ',' => .comma
  | ')' => .closeParen
  | '|' => .bar
  | '?' => .anyChar
  | c => .char c

/-- Makes a bracket that was read last match more than once. -/
def repeatLast : List GlobToken → List GlobToken
  | .bracket cls _ :: tokens => .bracket cls true :: tokens
  | tokens => tokens

end GlobToken

end PathGlob
