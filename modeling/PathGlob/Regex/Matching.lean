import PathGlob.Regex.Basic
import PathGlob.Text.CaseFolding

/-! # Matching

A text is matched as a list of letters, a letter being a character with all characters that count as
the same. A place in the text is named by how many letters come before it, so matching moves from a
place to a greater one or stays.

What a letter is only counts in so far as the parts of an expression accept it. So an expression is
first tried on the text at hand (`Regex.trial`): each part that takes one letter becomes the set of
places where it can. Whatever comes of a match is a matter of this trial.

A trial is then turned into a plan, in which repetitions and checks ahead have become sets of places
as well. A plan is followed from the end: `Plan.starts` gives all places from which it leads to one of
some goals. Sets of places are natural numbers read as bits, every part of an expression is worked
out once, and no choice is ever taken back; so matching takes polynomial time whatever the expression
is.
-/

namespace PathGlob

/-- A character of a text, with all characters that count as the same. -/
structure Letter where
  char : Char
  alike : List Char
  deriving DecidableEq, Repr

/-- The letters of a text, with case or without. -/
def letters (caseInsensitive : Bool) (text : List Char) : List Letter :=
  text.map fun c => ⟨c, if caseInsensitive then Text.caseVariants c else [c]⟩

/-- A set of places. -/
abbrev Places := Nat

namespace Places

def only (place : Nat) : Places := 1 <<< place

def all (length : Nat) : Places := only (length + 1) - 1

def without (places others : Places) : Places := places ^^^ (places &&& others)

/-- The places right before a letter that is accepted. -/
def before (accepts : Letter → Bool) : List Letter → Places
  | [] => 0
  | letter :: rest => (accepts letter).toNat + 2 * before accepts rest

end Places

/-- For every place, the places from which it is reached by one or more of some moves. -/
abbrev Leaps := Array Places

namespace Leaps

/-- The places from which one of the goals is reached. The greatest goal comes first; goals that
lead to it are then done with as well, because what leads to them also leads to it. There are fewer
goals than `bound`. -/
def starts (leaps : Leaps) : (bound : Nat) → (goals : Places) → Places
  | 0, _ => 0
  | bound + 1, goals =>
    if goals = 0 then 0
    else
      let goal := Nat.log2 goals
      let sources := leaps.getD goal 0
      sources ||| starts leaps bound (Places.without goals (sources ||| Places.only goal))

/-- Adds the next place. One move leads to it from some places; from those before it, what leads to
them leads to it too. -/
def extend (move : Places → Places) (leaps : Leaps) : Leaps :=
  let place := leaps.size
  let sources := move (Places.only place)
  leaps.push (sources ||| leaps.starts (place + 1) (Places.without sources (Places.only place)))

/-- The leaps made of some moves between so many places. -/
def ofMove (move : Places → Places) : (size : Nat) → Leaps
  | 0 => #[]
  | size + 1 => (ofMove move size).extend move

end Leaps

/-- An expression that was tried on a text. -/
inductive Trial where
  | empty
  | never
  /-- Takes one letter, from the places where it is accepted. -/
  | letter (places : Places)
  | seq (first second : Trial)
  | alt (first second : Trial)
  | group (body : Trial)
  | notAhead (body : Trial)
  | zeroOrMore (body : Trial)
  | oneOrMore (body : Trial)
  | zeroOrOne (body : Trial)
  deriving DecidableEq, Repr

/-- What a trial comes down to. -/
inductive Plan where
  /-- Staying where one is, if that is one of some places. -/
  | stay (places : Places)
  /-- Going over one letter from one of some places. -/
  | step (places : Places)
  /-- Moving one or more times. -/
  | leap (leaps : Leaps)
  | seq (first second : Plan)
  | alt (first second : Plan)

namespace Plan

/-- The places from which a plan leads to one of the goals. -/
def starts : Plan → Places → Places
  | stay places, goals => goals &&& places
  | step places, goals => (goals >>> 1) &&& places
  | leap leaps, goals => leaps.starts leaps.size goals
  | seq first second, goals => first.starts (second.starts goals)
  | alt first second, goals => first.starts goals ||| second.starts goals

end Plan

namespace Trial

def plan (length : Nat) : Trial → Plan
  | empty => .stay (Places.all length)
  | never => .stay 0
  | letter places => .step places
  | seq first second => .seq (first.plan length) (second.plan length)
  | alt first second => .alt (first.plan length) (second.plan length)
  | group body => body.plan length
  | notAhead body =>
    let everywhere := Places.all length
    .stay (Places.without everywhere ((body.plan length).starts everywhere))
  | zeroOrMore body =>
    .alt (.stay (Places.all length)) (.leap (Leaps.ofMove (body.plan length).starts (length + 1)))
  | oneOrMore body => .leap (Leaps.ofMove (body.plan length).starts (length + 1))
  | zeroOrOne body => .alt (.stay (Places.all length)) (body.plan length)

def isMatch (length : Nat) (trial : Trial) : Bool :=
  ((trial.plan length).starts (Places.only length)).testBit 0

end Trial

namespace Regex

def trial (text : List Letter) : Regex → Trial
  | empty => .empty
  | never => .never
  | char c => .letter (Places.before (fun letter => letter.alike.contains c) text)
  | anyChar => .letter (Places.before (fun letter => letter.char != '\n') text)
  | cls c => .letter (Places.before (fun letter => c.accepts letter.alike) text)
  | seq first second => .seq (first.trial text) (second.trial text)
  | alt first second => .alt (first.trial text) (second.trial text)
  | group body => .group (body.trial text)
  | notAhead body => .notAhead (body.trial text)
  | zeroOrMore body => .zeroOrMore (body.trial text)
  | oneOrMore body => .oneOrMore (body.trial text)
  | zeroOrOne body => .zeroOrOne (body.trial text)

def isMatch (regex : Regex) (text : List Letter) : Bool :=
  (regex.trial text).isMatch text.length

end Regex

end PathGlob
