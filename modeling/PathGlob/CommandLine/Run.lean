import PathGlob.CommandLine.Arguments
import PathGlob.Config.Discovery
import PathGlob.Glob.Matcher
import PathGlob.Glob.Normal
import PathGlob.Glob.Sign
import PathGlob.Report.Basic

/-! # Running the program

A run reads its arguments, then a configuration, and then carries out a command. The options of a
command are the defaults of the configuration with those changed that the arguments name. What a run
writes and how it ends depends only on the arguments and on the environment.
-/

namespace PathGlob.CommandLine

def programName : String := "globsmith"

def programVersion : String := "0.1.0"

def configVariable : String := "GLOBSMITH_CONFIG"

/-- Why a run fails. -/
inductive RunError where
  /-- The arguments are not understood. -/
  | usage
  | config (path : String) (cause : ConfigError)
  | glob (cause : GlobError)
  deriving DecidableEq, Repr

namespace RunError

/-- What is told about a failure, from the outermost cause to the innermost one. -/
def message : RunError → String
  | usage => "the arguments are not understood"
  | config path cause =>
    let innermost :=
      match cause with
      | .read _ reason => ": " ++ reason.message
      | .parse _ _ => ""
    "could not load config " ++ path ++ ": " ++ cause.message ++ innermost
  | glob cause => cause.message

end RunError

/-- How a run ends: its exit code, what it writes, and why it fails if it does. -/
structure Outcome where
  code : Nat
  output : String
  error : Option RunError := none
  deriving DecidableEq, Repr

namespace Outcome

def success (output : String) : Outcome := ⟨0, output, none⟩

def failure (error : RunError) : Outcome := ⟨2, "", some error⟩

end Outcome

def helpText : String :=
  "Compile shell-style globs into anchored regular expressions\n\n" ++
  "Usage: globsmith [OPTIONS] [COMMAND]\n\n" ++
  "Commands: compile, match, is-glob, normalize, join, version, help\n"

def Flags.apply (flags : Flags) (defaults : Options) : Options where
  extended := defaults.extended && !flags.switches.contains .noExtended
  globstar := defaults.globstar && !flags.switches.contains .noGlobstar
  caseInsensitive := defaults.caseInsensitive || flags.switches.contains .caseInsensitive
  platform := flags.platform.getD defaults.platform

/-- Whether verdicts are coloured: if colours are forced, or else on a terminal unless they are
turned off. A variable set to `0` does not count as set, except that `CLICOLOR` then turns them off.
-/
def isColoured (environment : Environment) : Bool :=
  let isOn (name : String) : Bool := (environment.value? name).any (· != "0")
  isOn "CLICOLOR_FORCE" ||
    ((environment.value? "NO_COLOR").isNone && environment.isTerminal &&
      ((environment.value? "CLICOLOR").all (· != "0")))

def reportForm (environment : Environment) (flags : Flags) : ReportForm :=
  if flags.switches.contains .json then .json else .lines (isColoured environment)

/-- The configuration of a run: the one that is asked for, or the one that is found. -/
def configuration (environment : Environment) (path? : Option String) : Except RunError Config :=
  match path? with
  | some path => (Config.load environment path).mapError (.config path)
  | none => .ok (Config.discover environment ".")

/-- What is written about the program itself. -/
def about (json : Bool) (withHint : Bool) : String :=
  match json, withHint with
  | true, false => Json.compact [("version", programVersion)] ++ "\n"
  | true, true =>
    Json.compact [("hint", "Use --help for usage"), ("version", programVersion)] ++ "\n"
  | false, false => programName ++ " v" ++ programVersion ++ "\n"
  | false, true =>
    programName ++ " v" ++ programVersion ++ "\n\nRun '" ++ programName ++ " --help' for usage\n"

/-- Carries out a command. Matching ends with code 1 if no path matches. -/
def carryOut (engine : Engine) (options : Options) (form : ReportForm) :
    Command → Except RunError Outcome
  | .compile glob => do
    let matcher ← (Matcher.compile options glob).mapError .glob
    return .success ((Report.compiled glob matcher.source options).text form)
  | .matchPaths glob paths => do
    let matcher ← (Matcher.compile options glob).mapError .glob
    let verdicts := paths.map fun path => (path, matcher.isMatch path engine)
    let code := if Report.matchedCount verdicts = 0 then 1 else 0
    return ⟨code, (Report.matched glob matcher.source verdicts).text form, none⟩
  | .isGlob inputs =>
    return .success
      ((Report.classified (inputs.map fun input => (input, PathGlob.isGlob input))).text form)
  | .normalize glob => do
    let result ← (Glob.normalize options.platform options.globstar glob).mapError .glob
    return .success ((Report.normal [glob] result).text form)
  | .join globs => do
    let result ← (Glob.join options.platform options.globstar globs).mapError .glob
    return .success ((Report.normal globs result).text form)
  | .version => return .success (about (form = .json) false)

/-- Carries out a command line that is understood. -/
def carryOutAll (environment : Environment) (invocation : Invocation) (config? : Option String) :
    Except RunError Outcome := do
  let config ← configuration environment config?
  let flags := invocation.flags
  let form := reportForm environment flags
  match invocation.command with
  | some (_, command) => carryOut environment.engine (flags.apply config.compile) form command
  | none => return .success (about (form = .json) true)

/-- Reads a command line, with the configuration that it asks for. -/
def understand (environment : Environment) (arguments : List String) :
    Except Stop (Invocation × Option String) := do
  let invocation ← Invocation.ofArguments arguments
  return (invocation, ← invocation.configPath (environment.value? configVariable))

/-- Runs the program. -/
def run (environment : Environment) (arguments : List String) : Outcome :=
  match understand environment arguments with
  | .error .usage => .failure .usage
  | .error .version => .success (programName ++ " " ++ programVersion ++ "\n")
  | .error .help => .success helpText
  | .ok (invocation, config?) =>
    match carryOutAll environment invocation config? with
    | .ok outcome => outcome
    | .error error => .failure error

/-- The files that a run may look at. -/
def files (environment : Environment) (arguments : List String) : List String :=
  match understand environment arguments with
  | .ok (_, some path) => [path]
  | .ok (_, none) => Config.candidates environment "."
  | .error _ => []

end PathGlob.CommandLine
