/-! # Reading TOML: blanks, comments and ends of lines

A reader takes something off the front of a text, or fails. Lines end in a newline, with or without
a carriage return before it, and comments run to the end of their line.
-/

namespace PathGlob.Toml

abbrev Reading := StateT (List Char) Option

/-- Tabs and spaces. -/
def isBlank (c : Char) : Bool :=
  c == ' ' || c == '\t'

/-- The characters that may stand in comments and in strings of one line. -/
def isPlain (c : Char) : Bool :=
  c == '\t' || (' ' ≤ c && c != '\x7f')

def peek : Reading (Option Char) := do
  return (← get).head?

def next : Reading Char := do
  match ← get with
  | c :: rest => set rest; return c
  | [] => failure

def expect (c : Char) : Reading Unit := do
  if (← next) ≠ c then failure

/-- Takes a given character if it is next, and says whether it was. -/
def accept (c : Char) : Reading Bool := do
  match ← get with
  | d :: rest => if d = c then do set rest; return true else return false
  | [] => return false

def takeWhile (kind : Char → Bool) : Reading (List Char) := do
  let text ← get
  set (text.dropWhile kind)
  return text.takeWhile kind

def blanks : Reading Unit := do
  let _ ← takeWhile isBlank

def newline? : List Char → Option (List Char)
  | '\n' :: rest | '\r' :: '\n' :: rest => some rest
  | _ => none

/-- The text after blanks, comments and ends of lines, which starts inside a comment or not. -/
def skipFiller : Bool → List Char → Option (List Char)
  | _, [] => some []
  | _, '\n' :: rest | _, '\r' :: '\n' :: rest => skipFiller false rest
  | true, c :: rest => if isPlain c then skipFiller true rest else none
  | false, c :: rest =>
    if c = '#' then skipFiller true rest
    else if isBlank c then skipFiller false rest
    else some (c :: rest)

/-- Skips blanks, comments and ends of lines. -/
def filler : Reading Unit := do
  match skipFiller false (← get) with
  | some rest => set rest
  | none => failure

def lineEnd : Reading Unit := do
  blanks
  if ← accept '#' then
    let _ ← takeWhile isPlain
  let rest ← get
  if rest ≠ [] then
    match newline? rest with
    | some after => set after
    | none => failure

end PathGlob.Toml
