import PathGlob.Toml.Scalar
import PathGlob.Toml.Table
import PathGlob.Toml.Text

/-! # TOML documents

A document is a list of sections: keys before the first header, and then headers with the keys under
them. A text is a document only as a whole; `Toml.parse?` does not say what is wrong with one that
is not.
-/

namespace PathGlob.Toml

/-- A chain of keys that is set to a value. -/
abbrev Assignment := (List String × String) × Data

/-- How many arrays and inline tables may be open at once. -/
def maxNesting : Nat := 80

mutual

/-- A value, inside of which so many arrays and inline tables may still be opened. -/
def value : Nat → Nat → Reading Data
  | 0, _ => failure
  | fuel + 1, nesting => do
    match ← peek with
    | some '"' => return .text (← string '"')
    | some '\'' => return .text (← string '\'')
    | some '[' => do
      expect '['
      if nesting = 0 then failure
      return .sequence (← items fuel (nesting - 1))
    | some '{' => do
      expect '{'
      if nesting = 0 then failure
      let assignments ← pairs fuel (nesting - 1)
      match Entries.assignAll? [] assignments with
      | some entries => return .map (entriesData entries)
      | none => failure
    | _ =>
      match scalar? (← word) with
      | some data => return data
      | none => failure

def items : Nat → Nat → Reading (List Data)
  | 0, _ => failure
  | fuel + 1, nesting => do
    filler
    if ← accept ']' then return []
    else do
      let first ← value fuel nesting
      filler
      if ← accept ',' then return first :: (← items fuel nesting)
      else do
        expect ']'
        return [first]

def pairs : Nat → Nat → Reading (List Assignment)
  | 0, _ => failure
  | fuel + 1, nesting => do
    filler
    if ← accept '}' then return []
    else do
      let keys ← path
      expect '='
      blanks
      let data ← value fuel nesting
      filler
      if ← accept ',' then return (keys, data) :: (← pairs fuel nesting)
      else do
        expect '}'
        return [(keys, data)]

end

/-- A line of a document. -/
inductive Statement where
  | assign (assignment : Assignment)
  | table (path : List String) (key : String)
  | row (path : List String) (key : String)

/-- A line that says something. -/
def statement : Reading Statement := do
  if ← accept '[' then
    if ← accept '[' then do
      let (parents, key) ← path
      expect ']'
      expect ']'
      return .row parents key
    else do
      let (parents, key) ← path
      expect ']'
      return .table parents key
  else do
    let keys ← path
    expect '='
    blanks
    return .assign (keys, ← value (2 * (← get).length + 2) maxNesting)

/-- All lines that say something. -/
def statements : Nat → Reading (List Statement)
  | 0 => failure
  | fuel + 1 => do
    filler
    if (← get) = [] then return []
    else do
      let first ← statement
      lineEnd
      return first :: (← statements fuel)

/-- A header with the assignments under it. -/
inductive Section where
  | table (path : List String) (key : String) (assignments : List Assignment)
  | row (path : List String) (key : String) (assignments : List Assignment)

/-- The assignments before the first header of some lines, and the sections after them. -/
def sections : List Statement → List Assignment × List Section
  | [] => ([], [])
  | .assign assignment :: rest =>
    let (assignments, others) := sections rest
    (assignment :: assignments, others)
  | .table path key :: rest =>
    let (assignments, others) := sections rest
    ([], .table path key assignments :: others)
  | .row path key :: rest =>
    let (assignments, others) := sections rest
    ([], .row path key assignments :: others)

/-- Adds the table of a header with the keys under it. -/
def addTable? (root : Entries) (path : List String) (key : String)
    (assignments : List Assignment) : Option Entries :=
  Entries.change? false (fun _ entries =>
    match entries.lookup key with
    | none => do entries.insert? key (.table .header (← Entries.assignAll? [] assignments))
    | some (.table .implied inner) => do
      some (entries.replace key (.table .header (← Entries.assignAll? inner assignments)))
    | some _ => none) path .header root

/-- Adds a row to the list of tables that a header names. -/
def addRow? (root : Entries) (path : List String) (key : String)
    (assignments : List Assignment) : Option Entries :=
  Entries.change? false (fun _ entries => do
    let row ← Entries.assignAll? [] assignments
    match entries.lookup key with
    | none => entries.insert? key (.rows [row])
    | some (.rows rows) => some (entries.replace key (.rows (rows ++ [row])))
    | some _ => none) path .header root

def addSection? (root : Entries) : Section → Option Entries
  | .table path key assignments => addTable? root path key assignments
  | .row path key assignments => addRow? root path key assignments

/-- The table that the lines of a document make. -/
def build? (lines : List Statement) : Option Entries := do
  let (assignments, others) := sections lines
  others.foldlM addSection? (← Entries.assignAll? [] assignments)

/-- The data of a document. A byte order mark at its start does not count. -/
def parse? (text : List Char) : Option (List (String × Data)) := do
  let text := if text.head? = some '\ufeff' then text.tail else text
  let (lines, _) ← (statements (text.length + 1)).run text
  return entriesData (← build? lines)

end PathGlob.Toml
