import PathGlob.Data.Binary64
import PathGlob.Text.Numeral
import PathGlob.Text.Quoted

/-! # Data from documents

Values as configuration files and requests hold them, and what is told when a value is not of the
kind that is asked for.
-/

namespace PathGlob

/-- A value of a document. -/
inductive Data where
  | null
  | bool (value : Bool)
  | integer (value : Int)
  /-- A number with a fraction, if it is not too large. -/
  | number (value : Option Binary64)
  | text (value : String)
  | sequence (items : List Data)
  /-- A date, a time of day, or both. -/
  | moment
  | map (entries : List (String × Data))
  deriving Inhabited

/-- The key under which a date or a time is handed to what wants keys. -/
def Data.momentKey : String := "$__toml_private_datetime"

/-- Why a value does not say what it is asked for. -/
inductive DataError where
  | unknownField (name : String) (known : List String)
  | unknownVariant (name : String) (known : List String)
  /-- The value is of another kind than the one that is wanted. -/
  | invalidType (found : String) (wanted : String)
  /-- The value is of the wanted kind but not one of its values. -/
  | invalidValue (found : String) (wanted : String)
  | invalidLength (length : Nat) (wanted : String)
  /-- The value is at fault in a way that is not told. -/
  | untold
  deriving DecidableEq, Repr

namespace DataError

/-- A name set off from the text around it. -/
def mark (name : String) : String :=
  "`" ++ name ++ "`"

def oneOf : List String → String
  | [] => "nothing"
  | [only] => mark only
  | [first, second] => mark first ++ " or " ++ mark second
  | names => "one of " ++ ", ".intercalate (names.map mark)

/-- What is told about an error, if anything is. -/
def message? : DataError → Option String
  | unknownField name known =>
    some ("unknown field " ++ mark name ++ ", expected " ++ oneOf known)
  | unknownVariant name known =>
    some ("unknown variant " ++ mark name ++ ", expected " ++ oneOf known)
  | invalidType found wanted => some ("invalid type: " ++ found ++ ", expected " ++ wanted)
  | invalidValue found wanted => some ("invalid value: " ++ found ++ ", expected " ++ wanted)
  | invalidLength length wanted =>
    some ("invalid length " ++ Nat.repr length ++ ", expected " ++ wanted)
  | untold => none

end DataError

namespace Data

/-- How an integer is told of. Those that need more than 64 bits are told with their width, and
those that need more than 128 bits are not told of. -/
def describeInteger? (value : Int) : Option String :=
  let shown := "integer " ++ DataError.mark (toString value)
  if -Nat.pow 2 63 ≤ value ∧ value < Nat.pow 2 64 then some shown
  else if -Nat.pow 2 127 ≤ value ∧ value < Nat.pow 2 127 then some (shown ++ " as i128")
  else if 0 ≤ value ∧ value < Nat.pow 2 128 then some (shown ++ " as u128")
  else none

/-- How a value is told of in an error, if it is. -/
def describe? : Data → Option String
  | null => some "null"
  | bool value => some ("boolean " ++ DataError.mark (Text.ofBool value))
  | integer value => describeInteger? value
  | number value =>
    value.map fun value => "floating point " ++ DataError.mark (String.ofList value.text)
  | text value => some ("string " ++ Text.quoted value)
  | sequence _ => some "sequence"
  | moment | map _ => some "map"

/-- The error that a value is of another kind than the one that is wanted. -/
def mismatch (data : Data) (wanted : String) : DataError :=
  match data.describe? with
  | some found => .invalidType found wanted
  | none => .untold

def toBool (data : Data) : Except DataError Bool :=
  match data with
  | bool value => .ok value
  | other => .error (other.mismatch "a boolean")

end Data

end PathGlob
