/-! # Telling globs from plain text

A text looks like a glob if it holds a sign of one: a star, a question mark, a `!` at its start,
brackets or braces with something in them, or alternatives in parentheses. A backslash hides the
character after it; if that opens a bracket, brace or parenthesis, everything up to the closing one
is hidden with it.

This is a quick look at the text and does not read it as a glob.
-/

namespace PathGlob.Sign

/-- Whether a text starts with at least one character and then `closer`, with neither a backslash
nor another `closer` in between. -/
def isClosed (closer : Char) (text : List Char) : Bool :=
  let inside (c : Char) : Bool := c != '\\' && c != closer
  text.head?.any inside && (text.dropWhile inside).head? == some closer

/-- Whether a text starts with something, a bar, and something else before a closing parenthesis. -/
def isAlternatives (text : List Char) : Bool :=
  match text.dropWhile (· != '|') with
  | '|' :: rest => text.head? != some '|' && isClosed ')' rest
  | _ => false

/-- Whether a sign starts with a character, given the text after it. -/
def isSign (first : Bool) (c : Char) (rest : List Char) : Bool :=
  match c with
  | '*' | '?' => true
  | '!' => first
  | '[' => isClosed ']' rest
  | '{' => isClosed '}' rest
  | '(' => isAlternatives rest
  | _ => false

def closer? : Char → Option Char
  | '[' => some ']'
  | '{' => some '}'
  | '(' => some ')'
  | _ => none

/-- Where a reader that looks for signs stands. -/
inductive Place where
  /-- At the start of the text, or after something hidden. -/
  | start
  | inside
  /-- Before a character that is hidden. -/
  | escape
  /-- Among hidden characters up to a closing one. -/
  | hidden (closer : Char)
  deriving DecidableEq, Repr

/-- Whether there is a sign in the text from a place on. A newline cannot be hidden. -/
def scan : Place → List Char → Bool
  | _, [] => false
  | .hidden closer, c :: rest => scan (if c = closer then .start else .hidden closer) rest
  | .escape, c :: rest =>
    match closer? c with
    | some closer => scan (if rest.contains closer then .hidden closer else .start) rest
    | none => scan .start rest
  | place, c :: rest =>
    if c = '\\' then scan (if rest.head?.any (· != '\n') then .escape else .inside) rest
    else isSign (place == .start) c rest || scan .inside rest

end PathGlob.Sign

namespace PathGlob

/-- Whether a text looks like a glob. -/
def isGlob (text : String) : Bool :=
  Sign.scan .start text.toList

end PathGlob
