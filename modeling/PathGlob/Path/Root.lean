import PathGlob.Platform

/-! # Roots of paths

What a path is relative to is read off its start. On POSIX there is one root; on Windows a path may
also start with a drive, with or without a separator after it, or with a server and one of its
shares.
-/

namespace PathGlob.Path

/-- What a path starts from. -/
inductive Root where
  /-- The current directory. -/
  | here
  /-- The root of the current drive, or of the whole system. -/
  | top
  /-- The current directory of a drive. -/
  | drive (letter : Char)
  /-- The root of a drive. -/
  | driveTop (letter : Char)
  /-- The root of a share on a server. -/
  | share (server name : List Char)
  deriving DecidableEq, Repr

namespace Root

/-- Whether there is nothing above a root. -/
def isAbsolute : Root → Bool
  | here | drive _ => false
  | top | driveTop _ | share _ _ => true

def text (platform : Platform) : Root → List Char
  | here => []
  | top => [platform.separator]
  | drive letter => [letter, ':']
  | driveTop letter => [letter, ':', platform.separator]
  | share server name =>
    platform.separator :: platform.separator :: (server ++ platform.separator ::
      (name ++ [platform.separator]))

/-- The share that a Windows path names after two separators, with the text after it: a name, one or
more separators, and another name. -/
def share? (text : List Char) : Option (Root × List Char) :=
  let isName (c : Char) : Bool := !Platform.windows.isSeparator c
  let behind := (text.dropWhile isName).dropWhile Platform.windows.isSeparator
  let server := text.takeWhile isName
  let name := behind.takeWhile isName
  if server ≠ [] ∧ name ≠ [] then some (share server name, behind.dropWhile isName) else none

def splitWindows (path : List Char) : Root × List Char :=
  match path with
  | [] => (here, [])
  | [c] => if Platform.windows.isSeparator c then (top, []) else (here, path)
  | c :: d :: rest =>
    if Platform.windows.isSeparator c then
      let shared := if Platform.windows.isSeparator d then share? rest else none
      shared.getD (top, d :: rest)
    else if c.isAlpha ∧ d = ':' then
      if rest.head?.any Platform.windows.isSeparator then (driveTop c, rest.tail)
      else (drive c, rest)
    else (here, path)

def splitPosix (path : List Char) : Root × List Char :=
  match path with
  | '/' :: rest => (top, rest)
  | _ => (here, path)

def split : Platform → List Char → Root × List Char
  | .windows => splitWindows
  | .posix => splitPosix

end Root

end PathGlob.Path
