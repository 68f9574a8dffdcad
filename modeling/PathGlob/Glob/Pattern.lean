import PathGlob.Glob.Reader
import PathGlob.Regex.Basic

/-! # Compiling globs to regular expressions

Every part of a glob has an expression of its own, and the expressions of the segments are parted by
an expression for one or more separators. The expression of a glob is meant to match whole paths, so
its source is written between `^` and `$`.
-/

namespace PathGlob

namespace Platform

def separatorPattern : Platform → Regex
  | windows => .cls ⟨false, [.char '\\' .escaped, .char '/' .bare]⟩
  | posix => .char '/'

/-- One character that is no separator. -/
def namePattern : Platform → Regex
  | windows => .cls ⟨true, [.char '\\' .escaped, .char '/' .bare]⟩
  | posix => .cls ⟨true, [.char '/' .bare]⟩

def runPattern (platform : Platform) : Regex :=
  .zeroOrMore platform.namePattern

/-- The separators between two segments. -/
def partingPattern (platform : Platform) : Regex :=
  .oneOrMore platform.separatorPattern

def trailingPattern (platform : Platform) : Regex :=
  .zeroOrMore platform.separatorPattern

/-- Any number of whole segments, each with separators after it. -/
def globstarPattern (platform : Platform) : Regex :=
  .zeroOrMore (.group (.seq platform.runPattern platform.partingPattern))

end Platform

namespace Shape

def pattern (platform : Platform) : Shape → Regex
  | empty => .empty
  | char c => .char c
  | anyChar => .anyChar
  | anyRun => platform.runPattern
  | bracket cls repeated => if repeated then .oneOrMore (.cls cls) else .cls cls
  | seq first second => .seq (first.pattern platform) (second.pattern platform)
  | alt first second => .alt (first.pattern platform) (second.pattern platform)
  | group kind body =>
    let inner := body.pattern platform
    match kind with
    | .brace | .one => .group inner
    | .oneOrMore => .oneOrMore (.group inner)
    | .zeroOrMore => .zeroOrMore (.group inner)
    | .zeroOrOne => .zeroOrOne (.group inner)
    | .noneOf => .seq (.notAhead inner) platform.runPattern

end Shape

namespace Glob

/-- The expression of the segments of a glob. A globstar brings the separators after it along; at
the end of a glob it also takes a last name. The last segment is the one that stops where the text of
the glob does (`Glob.lastReaches_bounds`). -/
def segmentsPattern (platform : Platform) : List GlobSegment → Regex
  | [] => .empty
  | [.globstar] => .seq platform.globstarPattern platform.runPattern
  | .globstar :: rest => .seq platform.globstarPattern (segmentsPattern platform rest)
  | [.shape shape] => .seq (shape.pattern platform) platform.trailingPattern
  | .shape shape :: rest =>
    .seq (shape.pattern platform) (.seq platform.partingPattern (segmentsPattern platform rest))

/-- The expression of a glob. The empty glob matches nothing, not even the empty path. -/
def pattern (platform : Platform) (glob : Glob) : Regex :=
  match glob.rooted, glob.segments with
  | false, [] => .never
  | false, segments => segmentsPattern platform segments
  | true, segments => .seq platform.partingPattern (segmentsPattern platform segments)

end Glob

def globPattern (options : Options) (glob : String) : Regex :=
  (Glob.ofText options glob.toList).pattern options.platform

/-- The source of an expression that is to match whole paths. -/
def Regex.source (regex : Regex) : String :=
  String.ofList ('^' :: (regex.text ++ ['$']))

/-- The source of the expression that a glob compiles to. It does not say whether case counts. -/
def globSource (options : Options) (glob : String) : String :=
  (globPattern options glob).source

end PathGlob
