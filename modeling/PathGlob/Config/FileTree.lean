import PathGlob.Config.Basic
import PathGlob.Text.Pieces

/-! # File trees

Directories and files held in memory, looked up by path like those of a system: every part of a path
but the last has to be a directory that exists, and `..` leads back to the directory above.
-/

namespace PathGlob

/-- What stands at a place of a file tree. -/
inductive FileNode where
  | directory
  | file (content : List UInt8)
  deriving DecidableEq, Repr

/-- Directories and files by the names that lead to them from the root. -/
structure FileTree where
  nodes : List (List String × FileNode)

namespace FileTree

def names (path : String) : List String :=
  (Text.pieces (· == '/') path.toList).map String.ofList

/-- Puts files and directories under a directory. -/
def ofFiles (directory : List String) (files : List (String × FileNode)) : FileTree where
  nodes := (directory, .directory) ::
    files.map fun (path, node) =>
      (directory ++ (names path).filter (fun name => name ≠ "" ∧ name ≠ "."), node)

/-- What stands at a place. A place on the way to another one is a directory. -/
def node? (tree : FileTree) (place : List String) : Option FileNode :=
  match tree.nodes.find? fun node => node.1 == place with
  | some node => some node.2
  | none =>
    if tree.nodes.any fun node => place.isPrefixOf node.1 then some .directory else none

/-- The bytes that a name may have. -/
def maxNameLength : Nat := 255

/-- The bytes that a path may have. -/
def maxPathLength : Nat := 4095

def walk (tree : FileTree) : List String → List String → Except ReadError (List String)
  | place, [] => .ok place
  | place, name :: rest =>
    match tree.node? place with
    | none => .error .missing
    | some (.file _) => .error .notDirectory
    | some .directory =>
      if name = "" ∨ name = "." then walk tree place rest
      else if name = ".." then walk tree place.dropLast rest
      else if maxNameLength < name.utf8ByteSize then .error .nameTooLong
      else walk tree (place ++ [name]) rest

/-- The content of the file that a path leads to from a directory. -/
def content (tree : FileTree) (directory : List String) (path : String) :
    Except ReadError (List UInt8) :=
  if path = "" then .error .missing
  else if path.toList.contains '\x00' then .error .nulInPath
  else if maxPathLength < path.utf8ByteSize then .error .nameTooLong
  else do
    let start := if path.toList.head? = some '/' then [] else directory
    match tree.node? (← walk tree start (names path)) with
    | some (.file content) => .ok content
    | some .directory => .error .isDirectory
    | none => .error .missing

end FileTree

end PathGlob
