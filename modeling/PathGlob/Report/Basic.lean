import PathGlob.Options.Basic
import PathGlob.Report.Json

/-! # Reports

What a command finds out, and how it is shown: as lines for a reader, or as one JSON document. Every
report ends with a newline.
-/

namespace PathGlob

/-- The form that reports are shown in. -/
inductive ReportForm where
  /-- As lines, the verdicts in colour or not. -/
  | lines (coloured : Bool)
  | json
  deriving DecidableEq, Repr

/-- What a command finds out. -/
inductive Report where
  /-- The expression of a glob. -/
  | compiled (glob source : String) (options : Options)
  /-- Which paths a glob matches. -/
  | matched (glob source : String) (paths : List (String × Bool))
  /-- Which texts look like globs. -/
  | classified (inputs : List (String × Bool))
  /-- What some globs were normalized or joined to. -/
  | normal (inputs : List String) (form : String)
  deriving DecidableEq, Repr

namespace Report

def matchedCount (paths : List (String × Bool)) : Nat :=
  (paths.filter (·.2)).length

def optionsJson (options : Options) : Json :=
  .object [("extended", .bool options.extended), ("globstar", .bool options.globstar),
    ("case_insensitive", .bool options.caseInsensitive), ("platform", .text options.platform.name)]

def json : Report → Json
  | compiled glob source options =>
    .object [("glob", .text glob), ("regex", .text source), ("options", optionsJson options)]
  | matched glob source paths =>
    let entry (path : String × Bool) : Json :=
      .object [("path", .text path.1), ("matched", .bool path.2)]
    .object [("glob", .text glob), ("regex", .text source), ("paths", .array (paths.map entry))]
  | classified inputs =>
    let entry (input : String × Bool) : Json :=
      .object [("input", .text input.1), ("is_glob", .bool input.2)]
    .object [("inputs", .array (inputs.map entry))]
  | normal inputs form =>
    .object [("inputs", .array (inputs.map Json.text)), ("result", .text form)]

def colour (code : String) (text : String) : String :=
  "\x1b[" ++ code ++ "m" ++ text ++ "\x1b[0m"

/-- Whether a path matches, in a word of fixed width: green if it does, red if not. -/
def verdict (coloured isMatch : Bool) : String :=
  let word := if isMatch then "match" else "miss "
  if coloured then colour (if isMatch then "32" else "31") word else word

def lines (coloured : Bool) : Report → List String
  | compiled _ source _ => [source]
  | matched glob _ paths =>
    paths.map (fun path => verdict coloured path.2 ++ "  " ++ path.1) ++
      ["", Nat.repr (matchedCount paths) ++ " of " ++ Nat.repr paths.length ++
        " path(s) matched " ++ glob]
  | classified inputs =>
    inputs.map fun input => (if input.2 then "glob" else "literal") ++ "\t" ++ input.1
  | normal _ form => [form]

def text (report : Report) : ReportForm → String
  | .lines coloured => String.join ((report.lines coloured).map (· ++ "\n"))
  | .json => report.json.pretty 0 ++ "\n"

end Report

end PathGlob
