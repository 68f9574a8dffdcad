import PathGlob.CharClass.Basic

/-! # What a character class means

The body of a class is a union of characters, ranges and shorthands, from which further unions may
be taken away: `--` between two unions is set difference, and it binds loosest, from left to right.
A difference of a difference removes both, so a body is one union kept and one union removed.

Some bodies mean nothing: a range whose ends are in the wrong order, or that starts or ends with a
shorthand. `CharClass.members?` is `none` exactly on those.
-/

namespace PathGlob

/-- A part of a union. -/
inductive ClassMember where
  | char (c : Char)
  | range (first last : Char)
  | shorthand (kind : Shorthand)
  deriving DecidableEq, Repr

namespace ClassMember

def contains : ClassMember → Char → Bool
  | .char member, c => member == c
  | .range first last, c => first ≤ c && c ≤ last
  | .shorthand kind, c => kind.contains c

/-- Whether a member holds one of several characters that count as the same. -/
def meets (member : ClassMember) (alike : List Char) : Bool :=
  alike.any member.contains

end ClassMember

/-- A union of members, and the union that is taken away from it. -/
structure ClassMembers where
  kept : List ClassMember := []
  removed : List ClassMember := []
  deriving DecidableEq, Repr

namespace ClassMembers

/-- Adds a member to the leftmost union. -/
def insert (member : ClassMember) (members : ClassMembers) : ClassMembers :=
  { members with kept := member :: members.kept }

/-- The difference of the empty union and all of `members`, whose unions follow one another. -/
def subtract (members : ClassMembers) : ClassMembers :=
  { kept := [], removed := members.kept ++ members.removed }

/-- Reads the tokens after the dashes that a body may start with. A dash between two tokens that are
no dashes makes a range of them; two dashes are a difference; any other dash is a member. -/
def ofTokens? : List ClassToken → Option ClassMembers
  | [] => some {}
  | .dash :: .dash :: rest => (ofTokens? rest).map subtract
  | .dash :: rest => (ofTokens? rest).map (insert (.char '-'))
  | .char first _ :: .dash :: .char last _ :: rest =>
    if first ≤ last then (ofTokens? rest).map (insert (.range first last)) else none
  | .char _ _ :: .dash :: .shorthand _ :: _ => none
  | .shorthand _ :: .dash :: .char _ _ :: _ => none
  | .shorthand _ :: .dash :: .shorthand _ :: _ => none
  | .char c _ :: rest => (ofTokens? rest).map (insert (.char c))
  | .shorthand kind :: rest => (ofTokens? rest).map (insert (.shorthand kind))

/-- Whether the difference holds one of several characters that count as the same. -/
def meets (members : ClassMembers) (alike : List Char) : Bool :=
  members.kept.any (·.meets alike) && !members.removed.any (·.meets alike)

end ClassMembers

namespace CharClass

/-- The members of a class. Dashes at its start are all members. -/
def members? (cls : CharClass) : Option ClassMembers :=
  match cls.tokens with
  | .dash :: rest =>
    (ClassMembers.ofTokens? (rest.dropWhile (· == .dash))).map (.insert (.char '-'))
  | tokens => ClassMembers.ofTokens? tokens

def isValid (cls : CharClass) : Bool :=
  cls.members?.isSome

/-- Whether a class accepts a character that comes with all characters that count as the same. A
negated class accepts what the class without the negation does not. -/
def accepts (cls : CharClass) (alike : List Char) : Bool :=
  match cls.members? with
  | some members => cls.negated != members.meets alike
  | none => false

end CharClass

end PathGlob
