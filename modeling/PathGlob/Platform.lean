import PathGlob.Text.WhiteSpace

/-! # Platforms

The two path flavours a glob can be written for. A platform fixes which characters part the segments
of a path and which character makes the next character of a glob literal.
-/

namespace PathGlob

/-- A path flavour. -/
inductive Platform where
  | windows
  | posix
  deriving DecidableEq, Repr

namespace Platform

def separators : Platform → List Char
  | windows => ['\\', '/']
  | posix => ['/']

def isSeparator (platform : Platform) (c : Char) : Bool :=
  platform.separators.contains c

/-- The separator that normal paths are written with. -/
def separator : Platform → Char
  | windows => '\\'
  | posix => '/'

/-- The character that makes the next character of a glob literal: a backslash, or a grave accent
where the backslash parts segments. -/
def escapeMark : Platform → Char
  | windows => '\x60'
  | posix => '\\'

/-- The name a platform is shown and stored by. -/
def name : Platform → String
  | windows => "windows"
  | posix => "posix"

/-- The platform stored under a name, which has to be written exactly so. -/
def ofName? : String → Option Platform
  | "windows" => some windows
  | "posix" => some posix
  | _ => none

/-- A name without the white space around it, in ASCII lower case. -/
def plainName (text : String) : String :=
  let trimmed := text.toList.dropWhile Text.isWhiteSpace
  let trimmed := (trimmed.reverse.dropWhile Text.isWhiteSpace).reverse
  String.ofList (trimmed.map Char.toLower)

/-- The platform that a person means by a name; case and white space around it do not count. -/
def ofAlias? (text : String) : Option Platform :=
  match plainName text with
  | "windows" | "win32" => some windows
  | "posix" | "unix" => some posix
  | _ => none

theorem isSeparator_separator (platform : Platform) :
    platform.isSeparator platform.separator = true := by
  cases platform <;> rfl

theorem not_isSeparator_escapeMark (platform : Platform) :
    platform.isSeparator platform.escapeMark = false := by
  cases platform <;> rfl

theorem ofName?_eq_some_iff (text : String) (platform : Platform) :
    ofName? text = some platform ↔ text = platform.name := by
  constructor
  · intro found
    unfold ofName? at found
    split at found <;> simp_all [name]
    all_goals subst found; rfl
  · rintro rfl
    cases platform <;> rfl

end Platform

end PathGlob
