import PathGlob.Text.Numeral

/-! # Writing JSON

The values that reports are made of, and their text: on one line, or with every item on a line of
its own and two more spaces for each level. Only what JSON asks for is escaped in strings.
-/

namespace PathGlob

/-- A value of a report. -/
inductive Json where
  | bool (value : Bool)
  | text (value : String)
  | array (items : List Json)
  | object (members : List (String × Json))

namespace Json

def charText (c : Char) : List Char :=
  match c with
  | '"' => ['\\', '"']
  | '\\' => ['\\', '\\']
  | '\x08' => ['\\', 'b']
  | '\t' => ['\\', 't']
  | '\n' => ['\\', 'n']
  | '\x0c' => ['\\', 'f']
  | '\r' => ['\\', 'r']
  | c =>
    if c < ' ' then ['\\', 'u', '0', '0'] ++ Text.twoHexDigits c.toNat else [c]

def quoted (text : String) : String :=
  String.ofList ('"' :: (text.toList.flatMap charText ++ ['"']))

def indent (level : Nat) : String :=
  String.ofList ('\n' :: List.replicate (2 * level) ' ')

/-- Items between brackets, on the lines of a level. -/
def lines (opening closing : String) (level : Nat) (items : List String) : String :=
  if items = [] then opening ++ closing
  else
    opening ++ indent (level + 1) ++ (("," ++ indent (level + 1)).intercalate items) ++
      indent level ++ closing

mutual

/-- The text of a value over several lines. -/
def pretty (level : Nat) : Json → String
  | bool value => Text.ofBool value
  | text value => quoted value
  | array items => lines "[" "]" level (prettyItems (level + 1) items)
  | object members => lines "\x7b" "\x7d" level (prettyMembers (level + 1) members)

def prettyItems (level : Nat) : List Json → List String
  | [] => []
  | item :: rest => item.pretty level :: prettyItems level rest

def prettyMembers (level : Nat) : List (String × Json) → List String
  | [] => []
  | (name, value) :: rest =>
    (quoted name ++ ": " ++ value.pretty level) :: prettyMembers level rest

end

/-- The text of an object of strings on one line. -/
def compact (members : List (String × String)) : String :=
  "\x7b" ++ ",".intercalate (members.map fun (name, value) => quoted name ++ ":" ++ quoted value) ++
    "\x7d"

end Json

end PathGlob
