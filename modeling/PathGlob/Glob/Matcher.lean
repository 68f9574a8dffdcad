import PathGlob.Error
import PathGlob.Glob.Pattern
import PathGlob.Regex.Engine
import PathGlob.Text.Utf8

/-! # Compiled globs

A matcher is the expression of a glob together with the options it was compiled with. It is made
only of expressions that an engine accepts. Whether a path matches is for an engine to answer, and one that
gives up counts as one that finds no match.
-/

namespace PathGlob

/-- A compiled glob. -/
structure Matcher where
  options : Options
  regex : Regex
  accepted : regex.isAccepted = true

namespace Matcher

def compile (options : Options) (glob : String) : Except GlobError Matcher :=
  if accepted : (globPattern options glob).isAccepted = true then
    .ok ⟨options, globPattern options glob, accepted⟩
  else .error .refusedPattern

def source (matcher : Matcher) : String :=
  matcher.regex.source

def answer? (matcher : Matcher) (path : String) (engine : Engine) : Option Bool :=
  engine.answer? matcher.regex (letters matcher.options.caseInsensitive path.toList)

def givesUp (matcher : Matcher) (path : String) (engine : Engine) : Bool :=
  engine.givesUpOn matcher.regex (letters matcher.options.caseInsensitive path.toList)

/-- Whether a path matches. A match that the engine gives up is none. -/
def isMatch (matcher : Matcher) (path : String) (engine : Engine := .standard) : Bool :=
  (matcher.answer? path engine).getD false

/-- Whether a path given as bytes matches, bytes that are no text being replaced. -/
def isMatchBytes (matcher : Matcher) (path : List UInt8) (engine : Engine := .standard) : Bool :=
  matcher.isMatch (String.ofList (Text.Utf8.decodeLossy path)) engine

theorem isMatch_eq (matcher : Matcher) (path : String) (engine : Engine) :
    matcher.isMatch path engine = (!matcher.givesUp path engine &&
      matcher.regex.isMatch (letters matcher.options.caseInsensitive path.toList)) := by
  rw [isMatch, answer?, Engine.answer?, givesUp]
  split
  · next gaveUp => rw [gaveUp, Bool.not_true, Bool.false_and, Option.getD_none]
  · next answered => rw [eq_false_of_ne_true answered, Bool.not_false, Bool.true_and, Option.getD_some]

end Matcher

end PathGlob
