import PathGlob.CharClass.Members

/-! # Regular expressions

The expressions that globs are compiled to: literal characters, classes, sequences, alternatives,
repetitions, and the check that an expression does not match ahead. Groups are part of an
expression, because they are part of its text and bound how deep an engine has to recurse.

`Regex.text` writes an expression down. `Regex.isAccepted` says whether an engine takes it: groups
must not nest too deep, and an empty group must not be repeated.
-/

namespace PathGlob

/-- A regular expression. -/
inductive Regex where
  /-- Matches the empty text. -/
  | empty
  /-- Matches nothing: a place that both is and is not at the end of a word. -/
  | never
  | char (c : Char)
  /-- Any character but a newline. -/
  | anyChar
  | cls (cls : CharClass)
  | seq (first second : Regex)
  | alt (first second : Regex)
  /-- A group, which matches what its body matches. -/
  | group (body : Regex)
  /-- Matches the empty text where the body does not match. -/
  | notAhead (body : Regex)
  | zeroOrMore (body : Regex)
  | oneOrMore (body : Regex)
  | zeroOrOne (body : Regex)
  deriving DecidableEq, Repr

namespace Regex

/-- The characters that do not stand for themselves in an expression. -/
def special : List Char :=
  ['$', '(', ')', '*', '+', '.', '?', '[', ']', '\\', '^', '{', '|', '}']

def charText (c : Char) : List Char :=
  if special.contains c then ['\\', c] else [c]

def text : Regex → List Char
  | empty => []
  | never => ['\\', 'b', '\\', 'B']
  | char c => charText c
  | anyChar => ['.']
  | cls c => c.text
  | seq first second => first.text ++ second.text
  | alt first second => first.text ++ '|' :: second.text
  | group body => '(' :: '?' :: ':' :: (body.text ++ [')'])
  | notAhead body => '(' :: '?' :: '!' :: (body.text ++ [')'])
  | zeroOrMore body => body.text ++ ['*']
  | oneOrMore body => body.text ++ ['+']
  | zeroOrOne body => body.text ++ ['?']

/-- The expression that matches exactly one text. -/
def literal : List Char → Regex
  | [] => empty
  | c :: rest => seq (char c) (literal rest)

/-- How many groups, checks ahead included, are open at the deepest point. -/
def depth : Regex → Nat
  | empty | never | char _ | anyChar | cls _ => 0
  | seq first second | alt first second => max first.depth second.depth
  | group body | notAhead body => body.depth + 1
  | zeroOrMore body | oneOrMore body | zeroOrOne body => body.depth

/-- Whether nothing is left of an expression without its empty groups. -/
def isBlank : Regex → Bool
  | empty => true
  | seq first second => first.isBlank && second.isBlank
  | group body => body.isBlank
  | _ => false

/-- Whether something blank is repeated somewhere in an expression. -/
def repeatsBlank : Regex → Bool
  | empty | never | char _ | anyChar | cls _ => false
  | seq first second | alt first second => first.repeatsBlank || second.repeatsBlank
  | group body | notAhead body => body.repeatsBlank
  | zeroOrMore body | oneOrMore body | zeroOrOne body => body.isBlank || body.repeatsBlank

/-- The deepest nesting of groups that an engine takes. -/
def maxDepth : Nat := 63

/-- Whether an engine takes an expression. -/
def isAccepted (regex : Regex) : Bool :=
  regex.depth ≤ maxDepth && !regex.repeatsBlank

end Regex

end PathGlob
