import PathGlob.Text.Quoted

/-! # Errors about globs -/

namespace PathGlob

/-- Why a glob cannot be used. -/
inductive GlobError where
  /-- It holds a NUL character. -/
  | invalidCharacters (glob : String)
  /-- The engine does not take the expression it compiles to. -/
  | refusedPattern
  /-- A platform is asked for that does not exist. -/
  | unknownPlatform (name : String)
  deriving DecidableEq, Repr

namespace GlobError

def message : GlobError → String
  | invalidCharacters glob => "glob contains invalid characters: " ++ Text.quoted glob
  | refusedPattern => "glob produced an invalid regular expression"
  | unknownPlatform name => "unknown platform: " ++ name ++ " (expected 'posix' or 'windows')"

end GlobError

end PathGlob
