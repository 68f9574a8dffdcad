import PathGlob.Data.Basic
import PathGlob.Options.Basic

/-! # Options from data

Options are given as a map with a key for each of them, or as a sequence with their values in order;
what is left out has its default. Keys are looked at in the order of their characters, so of two
faults the one with the smaller key is told.
-/

namespace PathGlob

/-- The kinds of documents that options stand in. They differ in how a platform may be given and in
what is told about a wrong one. -/
inductive DocumentKind where
  | json
  | toml
  deriving DecidableEq, Repr

namespace Platform

/-- The names that a platform may be stored under. -/
def storedNames : List String :=
  [windows.name, posix.name]

/-- The platform that a stored name stands for. -/
def ofStoredName (name : String) : Except DataError Platform :=
  match ofName? name with
  | some platform => .ok platform
  | none => .error (.unknownVariant name storedNames)

/-- A platform: its name, or a map from its name alone to nothing. -/
def ofData (kind : DocumentKind) (data : Data) : Except DataError Platform :=
  match kind, data with
  | _, .text name => ofStoredName name
  | .json, .map [(name, value)] => do
    let platform ← ofStoredName name
    match value with
    | .null => .ok platform
    | other => .error (other.mismatch "unit")
  | .json, .map _ => .error (.invalidValue "map" "map with a single key")
  | .json, other => .error (other.mismatch "string or map")
  | .toml, .map [(name, value)] => do
    let platform ← ofStoredName name
    match value with
    | .map [] | .sequence [] => .ok platform
    | _ => .error .untold
  | .toml, _ => .error .untold

end Platform

namespace Options

/-- The keys of the options, in order. -/
def keys : List String :=
  ["extended", "globstar", "case_insensitive", "platform"]

def set (kind : DocumentKind) (options : Options) (key : String) (value : Data) :
    Except DataError Options :=
  match key with
  | "extended" => return { options with extended := ← value.toBool }
  | "globstar" => return { options with globstar := ← value.toBool }
  | "case_insensitive" => return { options with caseInsensitive := ← value.toBool }
  | "platform" => return { options with platform := ← Platform.ofData kind value }
  | other => .error (.unknownField other keys)

def setAll (kind : DocumentKind) : Options → List (String × Data) → Except DataError Options
  | options, [] => .ok options
  | options, (key, value) :: rest => do setAll kind (← options.set kind key value) rest

def ofData (kind : DocumentKind) (data : Data) : Except DataError Options :=
  match data with
  | .map entries => setAll kind {} (entries.mergeSort fun first second => first.1 ≤ second.1)
  | .sequence items => do
    let options ← setAll kind {} (keys.zip items)
    if kind = .json ∧ items.length > keys.length then
      .error (.invalidLength items.length "fewer elements in array")
    else .ok options
  | .moment => .error (.unknownField Data.momentKey keys)
  | other => .error (other.mismatch "struct CompileOptions")

end Options

end PathGlob
