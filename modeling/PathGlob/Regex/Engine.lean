import PathGlob.Regex.Matching

/-! # Engines

An engine may give up on a match instead of answering. It does so for the sake of checks ahead alone:
an expression without them is left to an automaton, which goes over the text once. So an `Engine` is
free to give up on any trial that looks ahead, and the answers that it does give are right.

`Engine.backtracking` gives up like an engine that takes back one choice after the other. It goes
along the expression and takes as much as it can; where it fails it goes back to the last place with
something left to choose. What stands behind the last check ahead is still left to an automaton. When
it has failed too often, it gives up.
-/

namespace PathGlob

namespace Trial

def looksAhead : Trial → Bool
  | empty | never | letter _ => false
  | seq first second | alt first second => first.looksAhead || second.looksAhead
  | notAhead _ => true
  | group body | zeroOrMore body | oneOrMore body | zeroOrOne body => body.looksAhead

end Trial

namespace Regex

def looksAhead : Regex → Bool
  | empty | never | char _ | anyChar | cls _ => false
  | seq first second | alt first second => first.looksAhead || second.looksAhead
  | notAhead _ => true
  | group body | zeroOrMore body | oneOrMore body | zeroOrOne body => body.looksAhead

@[simp] theorem looksAhead_trial (regex : Regex) (text : List Letter) :
    (regex.trial text).looksAhead = regex.looksAhead := by
  induction regex with
  | empty | never | char | anyChar | cls | notAhead => rfl
  | seq first second firstSame secondSame | alt first second firstSame secondSame =>
    rw [trial, Trial.looksAhead, looksAhead, firstSame, secondSame]
  | group body same | zeroOrMore body same | oneOrMore body same | zeroOrOne body same => exact same

end Regex

/-- An engine, by the matches that it gives up. -/
structure Engine where
  /-- Whether a trial on a text of some length is given up. -/
  givesUp : Nat → Trial → Bool
  /-- Without checks ahead there is always an answer. -/
  answers : ∀ length trial, trial.looksAhead = false → givesUp length trial = false

/-- A search, which is told how often it may still fail. It has no result once it fails more often. -/
abbrev Search := StateT Nat Option Bool

namespace Search

def fail : Search
  | 0 => none
  | failures + 1 => some (false, failures)

def orElse (first second : Search) : Search := do
  if ← first then return true else second

/-- Goes on by as many rounds as possible, each of which has to get further. -/
def repeated (round : (Nat → Search) → Nat → Search) (after : Nat → Search) :
    (rounds : Nat) → (place : Nat) → Search
  | 0, place => after place
  | rounds + 1, place =>
    let again (next : Nat) : Search :=
      if next ≤ place then fail else repeated round after rounds next
    (round again place).orElse (after place)

end Search

/-- What is left to match. -/
inductive Remainder where
  /-- An automaton does the rest, and finds a match from some places. -/
  | automaton (goals : Places)
  | search (next : Nat → Search)

namespace Remainder

def searchFrom : Remainder → Nat → Search
  | automaton goals, place => if goals.testBit place then pure true else .fail
  | search next, place => next place

end Remainder

namespace Trial

/-- The places from which an automaton gets along a trial and what is left after it. -/
def automaton? (length : Nat) (trial : Trial) : Remainder → Option Places
  | .automaton goals =>
    if trial.looksAhead then none else some ((trial.plan length).starts goals)
  | .search _ => none

/-- Puts a trial before what is left. Inside of groups nothing is left to an automaton unless the whole
group is. -/
def before (length : Nat) (trial : Trial) (rest : Remainder) : Remainder :=
  match trial.automaton? length rest with
  | some goals => .automaton goals
  | none =>
    match trial with
    | empty => rest
    | never => .search fun _ => .fail
    | letter places => .search fun place =>
      if places.testBit place then rest.searchFrom (place + 1) else .fail
    | seq first second => first.before length (second.before length rest)
    | alt first second =>
      let first := first.before length rest
      let second := second.before length rest
      .search fun place => (first.searchFrom place).orElse (second.searchFrom place)
    | group body => body.before length (.search rest.searchFrom)
    | notAhead body =>
      let check := body.before length (.automaton (Places.all length))
      .search fun place => do
        if ← check.searchFrom place then Search.fail else rest.searchFrom place
    | zeroOrMore body =>
      let round (next : Nat → Search) := (body.before length (.search next)).searchFrom
      .search (Search.repeated round rest.searchFrom (length + 1))
    | oneOrMore body =>
      let round (next : Nat → Search) := (body.before length (.search next)).searchFrom
      .search (round (Search.repeated round rest.searchFrom (length + 1)))
    | zeroOrOne body =>
      let once := body.before length rest
      .search fun place => (once.searchFrom place).orElse (rest.searchFrom place)

def search (length : Nat) (trial : Trial) : Search :=
  (trial.before length (.automaton (Places.only length))).searchFrom 0

end Trial

namespace Engine

/-- The engine that gives up after so many failures. -/
def backtracking (limit : Nat) : Engine where
  givesUp length trial := trial.looksAhead && (trial.search length limit).isNone
  answers _ trial plain := by rw [plain, Bool.false_and]

/-- The engine that matchers use. -/
def standard : Engine := backtracking 1000000

def givesUpOn (engine : Engine) (regex : Regex) (text : List Letter) : Bool :=
  engine.givesUp text.length (regex.trial text)

def answer? (engine : Engine) (regex : Regex) (text : List Letter) : Option Bool :=
  if engine.givesUpOn regex text then none else some (regex.isMatch text)

variable {engine : Engine} {regex : Regex} {text : List Letter}

theorem givesUpOn_of_plain (plain : regex.looksAhead = false) :
    engine.givesUpOn regex text = false :=
  engine.answers _ _ (by rw [Regex.looksAhead_trial, plain])

/-- An answer is a matter of the trial alone. -/
theorem answer?_congr {regex' : Regex} {text' : List Letter} (sameLength : text.length = text'.length)
    (sameTrial : regex.trial text = regex'.trial text') :
    engine.answer? regex text = engine.answer? regex' text' := by
  rw [answer?, answer?, givesUpOn, givesUpOn, Regex.isMatch, Regex.isMatch, sameLength, sameTrial]

end Engine

end PathGlob
