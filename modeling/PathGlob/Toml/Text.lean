import PathGlob.Toml.Reading

/-! # Reading TOML: strings and keys

Strings are quoted once, on one line, or three times, over several; between double quotes a
backslash starts an escape. A key is a bare word or a string of one line, and several of them can be
chained by dots.
-/

namespace PathGlob.Toml

def hexValue? (c : Char) : Option Nat :=
  if c.isDigit then some (c.toNat - '0'.toNat)
  else if 'a' ≤ c ∧ c ≤ 'f' then some (c.toNat - 'a'.toNat + 10)
  else if 'A' ≤ c ∧ c ≤ 'F' then some (c.toNat - 'A'.toNat + 10)
  else none

def hexCode : Nat → Nat → Reading Nat
  | 0, code => return code
  | count + 1, code => do
    match hexValue? (← next) with
    | some digit => hexCode count (code * 16 + digit)
    | none => failure

/-- The character with a code point of so many digits. -/
def codedChar (digits : Nat) : Reading Char := do
  let code ← hexCode digits 0
  if code.isValidChar then return Char.ofNat code else failure

/-- What an escape stands for, after its backslash. -/
def escape : Reading Char := do
  match ← next with
  | 'b' => return '\x08'
  | 't' => return '\t'
  | 'n' => return '\n'
  | 'f' => return '\x0c'
  | 'r' => return '\r'
  | 'e' => return '\x1b'
  | '"' => return '"'
  | '\\' => return '\\'
  | 'x' => codedChar 2
  | 'u' => codedChar 4
  | 'U' => codedChar 8
  | _ => failure

/-- Whether only blanks stand before the next end of line. -/
def isLineOver (text : List Char) : Bool :=
  (newline? (text.dropWhile isBlank)).isSome

/-- The text after blanks and ends of lines. -/
def skipLines : List Char → List Char
  | '\n' :: rest | '\r' :: '\n' :: rest => skipLines rest
  | c :: rest => if isBlank c then skipLines rest else c :: rest
  | [] => []

/-- The rest of a string of one line, given what was read of it from the last character back. -/
def lineString (quote : Char) : Nat → List Char → Reading (List Char)
  | 0, _ => failure
  | fuel + 1, read => do
    let c ← next
    if c = quote then return read.reverse
    else if c = '\\' ∧ quote = '"' then do
      let escaped ← escape
      lineString quote fuel (escaped :: read)
    else if isPlain c then lineString quote fuel (c :: read)
    else failure

/-- The rest of a string of several lines, given what was read of it from the last character back.
It ends at three quotes, before which one or two more may stand. Ends of lines belong to it as they
are written, but a backslash at the end of a line hides the ends of lines and blanks after it. -/
def linesString (quote : Char) : Nat → List Char → Reading (List Char)
  | 0, _ => failure
  | fuel + 1, read => do
    let text ← get
    let quotes := (text.takeWhile (· == quote)).length
    if quotes ≥ 3 then do
      let inner := min (quotes - 3) 2
      set (text.drop (inner + 3))
      return (List.replicate inner quote ++ read).reverse
    else
      match text with
      | '\n' :: rest => do
        set rest
        linesString quote fuel ('\n' :: read)
      | '\r' :: '\n' :: rest => do
        set rest
        linesString quote fuel ('\n' :: '\r' :: read)
      | '\\' :: rest => do
        set rest
        if quote = '\'' then linesString quote fuel ('\\' :: read)
        else if isLineOver rest then do
          set (skipLines rest)
          linesString quote fuel read
        else do
          let escaped ← escape
          linesString quote fuel (escaped :: read)
      | c :: rest => do
        set rest
        if isPlain c then linesString quote fuel (c :: read) else failure
      | [] => failure

/-- A string, of which the text holds the first quote. A newline right after three quotes does not
belong to it. -/
def string (quote : Char) : Reading String := do
  let text ← get
  match text with
  | a :: b :: c :: rest =>
    if a = quote ∧ b = quote ∧ c = quote then do
      set ((newline? rest).getD rest)
      return String.ofList (← linesString quote text.length [])
    else do
      set (b :: c :: rest)
      return String.ofList (← lineString quote text.length [])
  | _ :: rest => do
    set rest
    return String.ofList (← lineString quote text.length [])
  | [] => failure

def isKeyChar (c : Char) : Bool :=
  c.isAlphanum || c == '_' || c == '-'

def key : Reading String := do
  let text ← get
  match text with
  | '"' :: rest => do
    set rest
    return String.ofList (← lineString '"' text.length [])
  | '\'' :: rest => do
    set rest
    return String.ofList (← lineString '\'' text.length [])
  | _ => do
    let word ← takeWhile isKeyChar
    if word = [] then failure
    return String.ofList word

/-- The keys of a chain, the last one apart. -/
def keyChain : Nat → Reading (List String × String)
  | 0 => failure
  | fuel + 1 => do
    let first ← key
    blanks
    if ← accept '.' then do
      blanks
      let (others, last) ← keyChain fuel
      return (first :: others, last)
    else return ([], first)

/-- A chain of keys and the blanks around it: the path to a table, and a key of that table. -/
def path : Reading (List String × String) := do
  blanks
  let keys ← keyChain ((← get).length + 1)
  blanks
  return keys

end PathGlob.Toml
