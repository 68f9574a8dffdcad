import PathGlob.Config.Basic
import PathGlob.Regex.Engine

/-! # Where configurations are found

Unless a file is named, a configuration is looked for in the directory one starts from and then
among the user's own ones. The first file that can be read and parsed counts; what is no file or a
faulty one is passed over, and two files are never merged.
-/

namespace PathGlob

/-- What is around a run of the program: variables of the environment, files by their paths, and the
engine that finds matches. -/
structure Environment where
  value? : String → Option String
  content : String → Except ReadError (List UInt8)
  /-- Whether a path leads to a regular file, and not to a directory or a device. -/
  isFile : String → Bool := fun path => (content path).toBool
  /-- Whether the output goes to a terminal. -/
  isTerminal : Bool := false
  engine : Engine := .standard

namespace Config

def inside (directory name : String) : String :=
  if directory = "" ∨ directory.toList.getLast? = some '/' then directory ++ name
  else directory ++ "/" ++ name

/-- The name of a configuration in a directory of one's own. -/
def localName : String := ".globsmith.toml"

/-- The path of the user's configuration, if it is known where the user's configurations are. A
place that is no absolute path does not count. -/
def globalPath? (environment : Environment) : Option String :=
  let isAbsolute (path : String) : Bool := path.toList.head? == some '/'
  let directory? :=
    match (environment.value? "XDG_CONFIG_HOME").filter isAbsolute with
    | some directory => some directory
    | none =>
      ((environment.value? "HOME").filter (· ≠ "")).map fun home => inside home ".config"
  directory?.map fun directory => inside (inside directory "globsmith") "config.toml"

def load (environment : Environment) (path : String) : Except ConfigError Config :=
  ofContent path (environment.content path)

def candidates (environment : Environment) (start : String) : List String :=
  inside start localName :: (globalPath? environment).toList

/-- Reads a configuration if there is one. What is no file is passed over like a faulty one. -/
def loadFile? (environment : Environment) (path : String) : Option Config :=
  if environment.isFile path then (load environment path).toOption else none

/-- The configuration for a directory. -/
def discover (environment : Environment) (start : String) : Config :=
  ((candidates environment start).findSome? (loadFile? environment)).getD {}

end Config

end PathGlob
