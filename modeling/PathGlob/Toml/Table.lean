import PathGlob.Data.Basic

/-! # TOML tables while they are built

A table comes to be in one of three ways: by a header of its own, by a header that goes through it,
or by a chain of keys that goes through it. Which one decides what may still be added. Values,
arrays and inline tables among them, are closed once they are written.
-/

namespace PathGlob.Toml

/-- How a table came to be. -/
inductive Origin where
  | header
  /-- A header names a table inside it. -/
  | implied
  /-- A chain of keys goes through it. -/
  | chained
  deriving DecidableEq, Repr

/-- What a key stands for while a document is read. -/
inductive Node where
  | value (data : Data)
  | table (origin : Origin) (entries : List (String × Node))
  /-- A list of tables, each with a header of its own. -/
  | rows (rows : List (List (String × Node)))

abbrev Entries := List (String × Node)

mutual

/-- The value that a key stands for in the end. -/
def Node.data : Node → Data
  | .value data => data
  | .table _ entries => .map (entriesData entries)
  | .rows rows => .sequence (rowsData rows)

def entriesData : List (String × Node) → List (String × Data)
  | [] => []
  | (key, node) :: rest => (key, node.data) :: entriesData rest

def rowsData : List (List (String × Node)) → List Data
  | [] => []
  | entries :: rest => .map (entriesData entries) :: rowsData rest

end

namespace Entries

/-- Puts something else behind a key that is there. -/
def replace (entries : Entries) (key : String) (node : Node) : Entries :=
  entries.map fun entry => if entry.1 = key then (key, node) else entry

/-- Changes the table at the end of a path, which is made where it is missing. A chain of keys does
not go through a table that has a header of its own. -/
def change? (chained : Bool) (action : Origin → Entries → Option Entries) :
    List String → Origin → Entries → Option Entries
  | [], origin, entries => action origin entries
  | key :: path, _, entries =>
    match entries.lookup key with
    | none => do
      let origin : Origin := if chained then .chained else .implied
      let inner ← change? chained action path origin []
      some (entries ++ [(key, .table origin inner)])
    | some (.table origin inner) =>
      if chained ∧ origin = .header then none
      else do
        let changed ← change? chained action path origin inner
        some (entries.replace key (.table origin changed))
    | some (.rows rows) => do
      let last ← rows.getLast?
      let changed ← change? chained action path .header last
      some (entries.replace key (.rows (rows.dropLast ++ [changed])))
    | some (.value _) => none

/-- Adds a key that is not there yet. -/
def insert? (entries : Entries) (key : String) (node : Node) : Option Entries :=
  match entries.lookup key with
  | some _ => none
  | none => some (entries ++ [(key, node)])

/-- Sets a key to a value. A chain of keys only adds to a table that chains of keys have made. -/
def assign? (entries : Entries) (path : List String) (key : String) (data : Data) :
    Option Entries :=
  change? true (fun origin inner =>
    if origin = .chained ↔ path = [] then none else insert? inner key (.value data))
    path .header entries

def assignAll? (entries : Entries) : List ((List String × String) × Data) → Option Entries
  | [] => some entries
  | ((path, key), data) :: rest => do (← entries.assign? path key data).assignAll? rest

end Entries

end PathGlob.Toml
