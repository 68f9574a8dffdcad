import PathGlob.CharClass.Members
import PathGlob.CharClass.Named
import PathGlob.Glob.Segment
import PathGlob.Options.Basic

/-! # Reading a segment of a glob

A cursor goes over a segment from left to right, a few characters at a time. It knows where the
segment stops, but it looks at the characters around it in the text of the whole glob: at the next
one, at the one before it and at the star or the bracket behind the next one.

A segment that ends after an escape mark, inside a bracket or inside a group is taken as its literal
text, and so is one with a bracket that means nothing as a class.
-/

namespace PathGlob

/-- Whether a segment ends beside a place, given the character there. -/
def Platform.isBoundary (platform : Platform) : Option Char → Bool
  | none => true
  | some c => platform.isSeparator c

/-- A cursor that reads a segment. -/
structure Cursor where
  /-- Its place in the text of the glob. -/
  place : Nat
  /-- The tokens behind it, the last one first. -/
  tokens : List GlobToken := []
  /-- Whether an escape mark stands right before it. -/
  escaped : Bool := false
  /-- What the bracket that it stands in holds so far. -/
  bracket? : Option CharClass := none
  /-- The place behind the bracket that was closed last. -/
  closedAt? : Option Nat := none
  /-- Whether it went over a globstar. -/
  globstar : Bool := false
  deriving DecidableEq, Repr

namespace Cursor

def skip (cursor : Cursor) (count : Nat) : Cursor :=
  { cursor with place := cursor.place + count }

def push (cursor : Cursor) (token : GlobToken) : Cursor :=
  { cursor with tokens := token :: cursor.tokens }

/-- Stands in a bracket that holds more than before. -/
def hold (cursor : Cursor) (cls : CharClass) (tokens : List ClassToken) : Cursor :=
  { cursor with bracket? := some { cls with tokens := cls.tokens ++ tokens } }

def before? (text : List Char) : Nat → Option Char
  | 0 => none
  | place + 1 => text[place]?

/-- Reads a reference to a named class whose `[` stands at a place: what the name stands for, and
the place behind the reference. The colon is searched for in the segment, what follows it is not. -/
def namedClass? (text : List Char) (stop place : Nat) : Option (List ClassToken × Nat) :=
  let name := ((text.take stop).drop (place + 2)).takeWhile (· != ':')
  let colon := place + 2 + name.length
  if colon < stop ∧ text[colon + 1]? = some ']' then
    (NamedClass.tokens? name).map fun tokens => (tokens, colon + 2)
  else none

/-- Goes on in a bracket. A `]` closes it unless there would be nothing in it. -/
def inBracket? (text : List Char) (stop : Nat) (cls : CharClass) (c : Char) (cursor : Cursor) :
    Option Cursor :=
  match if c = '[' ∧ text[cursor.place + 1]? = some ':' then namedClass? text stop cursor.place
    else none with
  | some (tokens, resume) => some { cursor.hold cls tokens with place := resume }
  | none =>
    if c = ']' ∧ cls.tokens ≠ [] then
      if cls.isValid then
        let next := (cursor.push (.bracket cls false)).skip 1
        some { next with bracket? := none, closedAt? := some next.place }
      else none
    else some ((cursor.hold cls [.plain c]).skip 1)

/-- Goes into a bracket. A `!` at its start negates it, and a `^` there is a member. -/
def openBracket (text : List Char) (cursor : Cursor) : Cursor :=
  match text[cursor.place + 1]? with
  | some '!' => { cursor.skip 2 with bracket? := some ⟨true, []⟩ }
  | some '^' => { cursor.skip 2 with bracket? := some ⟨false, [.plain '^']⟩ }
  | _ => { cursor.skip 1 with bracket? := some ⟨false, []⟩ }

/-- Goes over a run of stars. Two of them with nothing beside them are a globstar. -/
def overStars (options : Options) (text : List Char) (cursor : Cursor) : Cursor :=
  let stars := 1 + ((text.drop (cursor.place + 1)).takeWhile (· == '*')).length
  let next := cursor.skip stars
  if options.globstar && stars == 2 && options.platform.isBoundary (before? text cursor.place) &&
      options.platform.isBoundary text[next.place]? then
    { next with globstar := true }
  else next.push .anyRun

/-- Goes on outside brackets. A `+` right behind a bracket repeats it. -/
def between (options : Options) (text : List Char) (c : Char) (cursor : Cursor) : Cursor :=
  match if options.extended && text[cursor.place + 1]? == some '(' then GroupKind.ofOperator? c
    else none with
  | some kind => (cursor.push (.openGroup kind)).skip 2
  | none =>
    if c = '[' then cursor.openBracket text
    else if c = '*' then cursor.overStars options text
    else if c = '+' ∧ options.extended = true ∧ cursor.closedAt? = some cursor.place then
      { cursor.skip 1 with tokens := GlobToken.repeatLast cursor.tokens }
    else (cursor.push (.ofChar c)).skip 1

/-- Goes on from a character, unless that closes a bracket which means nothing. -/
def advance? (options : Options) (text : List Char) (stop : Nat) (c : Char) (cursor : Cursor) :
    Option Cursor :=
  if cursor.escaped then
    let next := { cursor.skip 1 with escaped := false }
    match cursor.bracket? with
    | some cls => some (next.hold cls [.literal c])
    | none => some (next.push (.char c))
  else if c = options.platform.escapeMark then some { cursor.skip 1 with escaped := true }
  else
    match cursor.bracket? with
    | some cls => cursor.inBracket? text stop cls c
    | none => some (cursor.between options text c)

/-- Goes on to the place where the segment stops. As many rounds do as the segment has characters,
since the cursor goes on in each of them. -/
def run? (options : Options) (text : List Char) (stop : Nat) : Nat → Cursor → Option Cursor
  | 0, cursor => some cursor
  | rounds + 1, cursor =>
    if cursor.place < stop then
      match text[cursor.place]? with
      | some c => (cursor.advance? options text stop c).bind (run? options text stop rounds)
      | none => some cursor
    else some cursor

/-- What a cursor that is through has read. It is nothing if an escape, a bracket or a group is not
complete. -/
def segment? (cursor : Cursor) : Option GlobSegment :=
  if cursor.escaped || cursor.bracket?.isSome then none
  else if cursor.globstar then some .globstar
  else (Shape.ofTokens? cursor.tokens.reverse).map .shape

end Cursor

/-- Reads the segment between two places of the text of a glob. -/
def GlobSegment.read (options : Options) (text : List Char) (start stop : Nat) : GlobSegment :=
  ((Cursor.run? options text stop (stop - start) { place := start }).bind Cursor.segment?).getD
    (.shape (.literal ((text.take stop).drop start)))

end PathGlob
