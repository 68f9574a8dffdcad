import PathGlob.CommandLine.Run

/-! # The program

Everything a run depends on is collected here: variables, the files it may look at, and whether it
writes to a terminal. `PathGlob.CommandLine.run` decides the rest.
-/

namespace PathGlob.CommandLine

def variableNames : List String :=
  [configVariable, "XDG_CONFIG_HOME", "HOME", "CLICOLOR_FORCE", "NO_COLOR", "CLICOLOR"]

/-- The number of an error of the system, which may be handed out with its sign changed. -/
def errorNumber (code : UInt32) : Nat :=
  if code < 0x80000000 then code.toNat else (0 - code).toNat

def readError : IO.Error → ReadError
  | .noFileOrDirectory .. => .missing
  | .inappropriateType _ code _ => if errorNumber code = 20 then .notDirectory else .isDirectory
  | .invalidArgument _ code _ => if errorNumber code = 36 then .nameTooLong else .nulInPath
  | error => .other (toString error)

def readContent (path : String) : IO (Except ReadError (List UInt8)) := do
  try
    let content ← IO.FS.readBinFile path
    return .ok content.toList
  catch error => return .error (readError error)

/-- The environment of a run. -/
def collect (arguments : List String) : IO Environment := do
  let mut values : List (String × String) := []
  for name in variableNames do
    if let some value ← IO.getEnv name then
      values := (name, value) :: values
  let value? (name : String) : Option String := values.lookup name
  let empty : Environment := { value?, content := fun _ => .error .missing }
  let mut contents : List (String × Except ReadError (List UInt8)) := []
  for path in files empty arguments do
    contents := (path, ← readContent path) :: contents
  let content (path : String) : Except ReadError (List UInt8) :=
    (contents.lookup path).getD (.error .missing)
  return { value?, content, isTerminal := ← (← IO.getStdout).isTty }

end PathGlob.CommandLine

def main (arguments : List String) : IO UInt32 := do
  let outcome := PathGlob.CommandLine.run (← PathGlob.CommandLine.collect arguments) arguments
  (← IO.getStdout).putStr outcome.output
  if let some error := outcome.error then
    (← IO.getStderr).putStrLn ("Error: " ++ error.message)
  return outcome.code.toUInt32
