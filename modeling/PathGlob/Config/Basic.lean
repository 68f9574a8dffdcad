import PathGlob.Options.Decode
import PathGlob.Text.Utf8
import PathGlob.Toml.Document

/-! # Configuration

A configuration is a TOML document with a table `compile` of default options. Everything in it may
be left out, and nothing else may be in it. `Config.text` writes one down in full.
-/

namespace PathGlob

/-- The defaults that a configuration gives. -/
structure Config where
  compile : Options := {}
  deriving DecidableEq, Repr

/-- Why a file cannot be read as text. -/
inductive ReadError where
  | missing
  | isDirectory
  | notDirectory
  | notText
  | nulInPath
  | nameTooLong
  /-- Any other reason, with what the system tells of it. -/
  | other (text : String)
  deriving DecidableEq, Repr

namespace ReadError

def message : ReadError → String
  | missing => "No such file or directory (os error 2)"
  | isDirectory => "Is a directory (os error 21)"
  | notDirectory => "Not a directory (os error 20)"
  | notText => "stream did not contain valid UTF-8"
  | nulInPath => "file name contained an unexpected NUL byte"
  | nameTooLong => "File name too long (os error 36)"
  | other text => text

end ReadError

/-- Why a file gives no configuration. -/
inductive ConfigError where
  | read (path : String) (cause : ReadError)
  | parse (path : String) (cause : DataError)
  deriving DecidableEq, Repr

namespace ConfigError

/-- What is told about a file that gives no configuration. Where its content is at fault, that comes
after a colon. -/
def message : ConfigError → String
  | read path cause => "failed to read config " ++ path ++ ": " ++ cause.message
  | parse path _ => "failed to parse config " ++ path

end ConfigError

namespace Config

def keys : List String :=
  ["compile"]

/-- Reads the keys of a configuration one after the other. -/
def setAll : Config → List (String × Data) → Except DataError Config
  | config, [] => .ok config
  | config, (key, value) :: rest =>
    if key = "compile" then do
      let options ← Options.ofData .toml value
      setAll { config with compile := options } rest
    else .error (.unknownField key keys)

def parse (text : String) : Except DataError Config :=
  match Toml.parse? text.toList with
  | some entries => setAll {} (entries.mergeSort fun first second => first.1 ≤ second.1)
  | none => .error .untold

def text (config : Config) : String :=
  "[compile]\n" ++
  "extended = " ++ Text.ofBool config.compile.extended ++ "\n" ++
  "globstar = " ++ Text.ofBool config.compile.globstar ++ "\n" ++
  "case_insensitive = " ++ Text.ofBool config.compile.caseInsensitive ++ "\n" ++
  "platform = \"" ++ config.compile.platform.name ++ "\"\n"

def ofContent (path : String) (content : Except ReadError (List UInt8)) :
    Except ConfigError Config :=
  match content with
  | .error cause => .error (.read path cause)
  | .ok bytes =>
    match Text.Utf8.decode? bytes with
    | none => .error (.read path .notText)
    | some text =>
      match parse (String.ofList text) with
      | .ok config => .ok config
      | .error cause => .error (.parse path cause)

end Config

end PathGlob
