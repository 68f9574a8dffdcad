import PathGlob.Glob.Matcher
import PathGlob.Proofs.GlobPieces
import PathGlob.Proofs.RegexText

/-! # Compiled globs match what globs mean

An engine never sees the expression of a glob, only its source. Here the two ends meet: the source
is read back as an expression, that expression matches a path exactly if the glob does by its text,
and a matcher answers as that expression does.

What is left open is on which matches an engine gives up. There a matcher finds no match, whatever its
glob means.
-/

namespace PathGlob

/-- The expression of a glob as an engine reads it from the source. -/
def globTree (options : Options) (glob : String) : Regex :=
  (globPattern options glob).laidOut

variable {options : Options} {glob : String}

theorem regrouped_globTree : Regex.Regrouped (globTree options glob) (globPattern options glob) :=
  Regex.regrouped_laidOut (isWellFormed_globPattern options glob)

/-- The source of a glob is read back as the expression of the glob. -/
theorem ofSource?_globSource :
    Regex.ofSource? (globSource options glob) = some (globTree options glob) :=
  Regex.ofSource?_source (isWellFormed_globPattern options glob) (isBranch_globPattern options glob)

theorem source_globTree : (globTree options glob).source = globSource options glob := by
  rw [globSource, Regex.source, Regex.source, regrouped_globTree.text_eq]

private theorem isMatch_globTree {path : List Char} :
    (globTree options glob).isMatch (letters options.caseInsensitive path) =
      (globPattern options glob).isMatch (letters options.caseInsensitive path) := by
  rw [Bool.eq_iff_iff, Regex.isMatch_letters_iff, Regex.isMatch_letters_iff,
    regrouped_globTree.takesText_eq]

namespace Matcher

theorem answer?_of_compile {matcher : Matcher} (compiled : compile options glob = .ok matcher)
    (path : String) (engine : Engine) :
    matcher.answer? path engine = engine.answer? (globPattern options glob)
      (letters options.caseInsensitive path.toList) := by
  unfold compile at compiled
  split at compiled
  · obtain rfl := Except.ok.inj compiled
    rfl
  · cases compiled

/-- Unless the engine gives up, a matcher answers as the expression of its glob does. -/
theorem isMatch_iff_takesText {matcher : Matcher} (compiled : compile options glob = .ok matcher)
    {path : String} {engine : Engine} :
    matcher.isMatch path engine = true ↔ matcher.givesUp path engine = false ∧
      (globPattern options glob).TakesText options.caseInsensitive path.toList [] := by
  unfold compile at compiled
  split at compiled
  · obtain rfl := Except.ok.inj compiled
    rw [isMatch_eq, Bool.and_eq_true, Bool.not_eq_true', Regex.isMatch_letters_iff]
  · cases compiled

/-- Unless the engine gives up, a matcher accepts the paths that its glob matches. -/
theorem isMatch_iff_matches {matcher : Matcher} (compiled : compile options glob = .ok matcher)
    {path : String} {engine : Engine} :
    matcher.isMatch path engine = true ↔ matcher.givesUp path engine = false ∧
      GlobMeaning.Matches options glob.toList path.toList := by
  rw [isMatch_iff_takesText compiled, takesText_globPattern_iff]

/-- The engine finds a match or gives up. -/
def MayMatch (matcher : Matcher) (path : String) (engine : Engine) : Prop :=
  matcher.isMatch path engine = true ∨ matcher.givesUp path engine = true

/-- On a path that the glob matches, the engine at most gives up. -/
theorem mayMatch_of_matches {matcher : Matcher} (compiled : compile options glob = .ok matcher)
    {path : String} (matched : GlobMeaning.Matches options glob.toList path.toList)
    (engine : Engine) : matcher.MayMatch path engine := by
  rw [MayMatch, isMatch_iff_matches compiled, and_iff_left matched]
  exact (Bool.eq_false_or_eq_true _).symm

/-- Without checks ahead no engine gives up. -/
theorem givesUp_eq_false {matcher : Matcher} (compiled : compile options glob = .ok matcher)
    (plain : (globPattern options glob).looksAhead = false) (path : String) (engine : Engine) :
    matcher.givesUp path engine = false := by
  unfold compile at compiled
  split at compiled
  · obtain rfl := Except.ok.inj compiled
    exact Engine.givesUpOn_of_plain plain
  · cases compiled

theorem isMatch_iff_takesText_of_plain {matcher : Matcher}
    (compiled : compile options glob = .ok matcher)
    (plain : (globPattern options glob).looksAhead = false) {path : String} {engine : Engine} :
    matcher.isMatch path engine = true ↔
      (globPattern options glob).TakesText options.caseInsensitive path.toList [] := by
  rw [isMatch_iff_takesText compiled, and_iff_right (givesUp_eq_false compiled plain path engine)]

end Matcher

/-- Compiling is correct: the source of a glob says an expression that matches what the glob means,
and the matcher of the glob, if an engine accepts that expression, has this source and answers as the
expression does, except that it finds no match where the engine gives up. -/
theorem compile_correct (options : Options) (glob path : String) (engine : Engine) :
    ∃ tree, Regex.ofSource? (globSource options glob) = some tree ∧
      tree.source = globSource options glob ∧
      (tree.isMatch (letters options.caseInsensitive path.toList) = true ↔
        GlobMeaning.Matches options glob.toList path.toList) ∧
      (Matcher.compile options glob).map
          (fun matcher => (matcher.source, matcher.isMatch path engine)) =
        if tree.isAccepted then
          .ok (globSource options glob,
            !engine.givesUpOn (globPattern options glob) (letters options.caseInsensitive path.toList) &&
              tree.isMatch (letters options.caseInsensitive path.toList))
        else .error .refusedPattern := by
  refine ⟨globTree options glob, ofSource?_globSource, source_globTree, ?_, ?_⟩
  · rw [isMatch_globTree, Regex.isMatch_letters_iff, takesText_globPattern_iff]
  · rw [regrouped_globTree.isAccepted_eq, isMatch_globTree, Matcher.compile]
    split
    · rw [Except.map, Matcher.isMatch_eq]
      rfl
    · rfl

end PathGlob
