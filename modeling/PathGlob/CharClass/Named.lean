import PathGlob.CharClass.Basic

/-! # Named classes

The classes that a bracket of a glob can name, as in `[[:alpha:]_]`. Each name stands for a run of
class tokens, which is put in its place.
-/

namespace PathGlob.NamedClass

def range (first last : Char) : List ClassToken :=
  [.char first .bare, .dash, .char last .bare]

/-- A range between two characters given by their codes. -/
def codedRange (first last : Char) : List ClassToken :=
  [.char first .coded, .dash, .char last .coded]

/-- The ASCII punctuation marks. A caret is only special at the start of a class and stays bare. -/
def punctuation : List ClassToken :=
  ['!', '"', '#', '$', '%', '&', '\'', '(', ')', '*', '+', ',', '-', '.', '/', ':', ';', '<', '=',
    '>', '?', '@', '[', '\\', ']'].map ClassToken.literal ++
  [.char '^' .bare] ++
  ['_', '\x60', '{', '|', '}', '~'].map ClassToken.literal

/-- The names and what they stand for. -/
def table : List (List Char × List ClassToken) := [
  (['a', 'l', 'n', 'u', 'm'], .shorthand .digit :: range 'A' 'Z' ++ range 'a' 'z'),
  (['a', 'l', 'p', 'h', 'a'], range 'A' 'Z' ++ range 'a' 'z'),
  (['a', 's', 'c', 'i', 'i'], codedRange '\x00' '\x7f'),
  (['b', 'l', 'a', 'n', 'k'], [.char '\t' .coded, .char ' ' .bare]),
  (['c', 'n', 't', 'r', 'l'], codedRange '\x00' '\x1f' ++ [.char '\x7f' .coded]),
  (['d', 'i', 'g', 'i', 't'], [.shorthand .digit]),
  (['g', 'r', 'a', 'p', 'h'], codedRange '!' '~'),
  (['l', 'o', 'w', 'e', 'r'], range 'a' 'z'),
  (['p', 'r', 'i', 'n', 't'], codedRange ' ' '~'),
  (['p', 'u', 'n', 'c', 't'], punctuation),
  (['s', 'p', 'a', 'c', 'e'], [.shorthand .space, .char '\x0b' .coded]),
  (['u', 'p', 'p', 'e', 'r'], range 'A' 'Z'),
  (['w', 'o', 'r', 'd'], [.shorthand .word]),
  (['x', 'd', 'i', 'g', 'i', 't'], .shorthand .digit :: range 'A' 'F' ++ range 'a' 'f')]

def tokens? (name : List Char) : Option (List ClassToken) :=
  (table.find? fun entry => entry.1 == name).map (·.2)

theorem mem_table_of_tokens? {name : List Char} {tokens : List ClassToken}
    (known : tokens? name = some tokens) : (name, tokens) ∈ table := by
  obtain ⟨entry, found, rfl⟩ := Option.map_eq_some_iff.mp known
  obtain rfl : entry.1 = name := by simpa using List.find?_some found
  exact List.mem_of_find?_eq_some found

/-- Reads `name:]`, the part of a reference to a named class after its `[:`: what the name stands
for, and how many characters were read. The name ends at the first colon. -/
def ofReference? (text : List Char) : Option (List ClassToken × Nat) :=
  let name := text.takeWhile (· != ':')
  match text.dropWhile (· != ':') with
  | ':' :: ']' :: _ => (tokens? name).map fun tokens => (tokens, name.length + 2)
  | _ => none

end PathGlob.NamedClass
