import PathGlob.CharClass.Members
import PathGlob.CharClass.Named
import PathGlob.Glob.Segment
import PathGlob.Options.Basic

/-! # Segments by themselves

The tokens of a segment whose text stands alone, found one character at a time. A reader of this
kind only needs the rest of the segment, so a proof about it is an induction on the text. That a
cursor in the text of a whole glob finds the same is shown in `PathGlob.Proofs.CursorReading`.

There are no tokens for a segment that ends after an escape mark or inside a bracket, nor for one
with a bracket that means nothing as a class.
-/

namespace PathGlob

namespace GlobToken

/-- Where a reader stands inside a bracket. -/
inductive BracketPlace where
  | body
  /-- After an escape mark. -/
  | escape
  /-- Inside a reference to a named class of which some characters are left. -/
  | reference (left : Nat)
  deriving DecidableEq, Repr

/-- Where a reader of a segment stands. -/
inductive Place where
  | between
  /-- After an escape mark. -/
  | escape
  /-- Inside a run of stars. -/
  | stars
  /-- Before a last character of the token that was just read. -/
  | tail
  /-- Inside a bracket, with the class read so far. -/
  | bracket (cls : CharClass) (place : BracketPlace)
  deriving DecidableEq, Repr

/-- Whether a `+` stands at the head of a text and repeats the bracket before it. -/
def isRepeat (options : Options) : List Char → Bool
  | '+' :: rest => options.extended && rest.head? != some '('
  | _ => false

/-- One character outside brackets and escapes. -/
def stepBetween (options : Options) (c : Char) (rest : List Char) : Place × List GlobToken :=
  if c = options.platform.escapeMark then (.escape, [])
  else
    match if options.extended && rest.head? == some '(' then GroupKind.ofOperator? c else none with
    | some kind => (.tail, [.openGroup kind])
    | none =>
      match c with
      | '[' => (.bracket ⟨false, []⟩ .body, [])
      | '{' => (.between, [.openGroup .brace])
      | '}' => (.between, [.closeBrace])
      | ',' => (.between, [.comma])
      | ')' => (.between, [.closeParen])
      | '|' => (.between, [.bar])
      | '?' => (.between, [.anyChar])
      | '*' => (.stars, [.anyRun])
      | c => (.between, [.char c])

/-- One character inside a bracket. A `!` at its start negates the class, and a `]` closes it unless
there would be nothing in it. -/
def stepBody (options : Options) (cls : CharClass) (c : Char) (rest : List Char) :
    Option (Place × List GlobToken) :=
  let add (tokens : List ClassToken) : CharClass := { cls with tokens := cls.tokens ++ tokens }
  if c = options.platform.escapeMark then some (.bracket cls .escape, [])
  else if c = '!' ∧ cls = ⟨false, []⟩ then some (.bracket ⟨true, []⟩ .body, [])
  else if c = ']' ∧ cls.tokens ≠ [] then
    if cls.isValid then
      let repeated := isRepeat options rest
      some (if repeated then .tail else .between, [.bracket cls repeated])
    else none
  else
    match if c = '[' ∧ rest.head? = some ':' then NamedClass.ofReference? rest.tail else none with
    | some (tokens, length) => some (.bracket (add tokens) (.reference (length + 1)), [])
    | none => some (.bracket (add [.plain c]) .body, [])

/-- One character of a segment, with the text after it: where the reader stands then, and the tokens
that are complete. -/
def step (options : Options) : Place → Char → List Char → Option (Place × List GlobToken)
  | .between, c, rest => some (stepBetween options c rest)
  | .escape, c, _ => some (.between, [.char c])
  | .stars, c, rest => if c = '*' then some (.stars, []) else some (stepBetween options c rest)
  | .tail, _, _ => some (.between, [])
  | .bracket cls .body, c, rest => stepBody options cls c rest
  | .bracket cls .escape, c, _ =>
    some (.bracket { cls with tokens := cls.tokens ++ [.literal c] } .body, [])
  | .bracket cls (.reference (left + 2)), _, _ => some (.bracket cls (.reference (left + 1)), [])
  | .bracket cls (.reference _), _, _ => some (.bracket cls .body, [])

def scan? (options : Options) : Place → List Char → Option (List GlobToken)
  | .between, [] | .stars, [] | .tail, [] => some []
  | .escape, [] | .bracket _ _, [] => none
  | place, c :: rest =>
    (step options place c rest).bind fun (next, tokens) =>
      (scan? options next rest).map (tokens ++ ·)

def ofSegment? (options : Options) (text : List Char) : Option (List GlobToken) :=
  scan? options .between text

end GlobToken

namespace Shape

/-- The shape of a segment whose syntax is complete. -/
def ofSegment? (options : Options) (text : List Char) : Option Shape :=
  (GlobToken.ofSegment? options text).bind ofTokens?

def ofSegment (options : Options) (text : List Char) : Shape :=
  (ofSegment? options text).getD (literal text)

end Shape

def GlobSegment.ofText (options : Options) (text : List Char) : GlobSegment :=
  if options.globstar = true ∧ text = ['*', '*'] then .globstar
  else .shape (Shape.ofSegment options text)

end PathGlob
