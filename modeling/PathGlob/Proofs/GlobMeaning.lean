import Mathlib.Data.List.DropRight
import Mathlib.Logic.Relation
import PathGlob.Proofs.CaseVariants
import PathGlob.Proofs.GlobGrammar

/-! # What a glob means

The paths that a glob stands for, said of the text of the glob alone: the text is cut at its runs of
separators, a segment of complete syntax means what its items mean, and any other segment means its
own text. An item takes characters off the front of a path and leaves a rest; only the check of a
group `!(…)` looks at more than it takes.

`GlobMeaning.Matches` is the relation between globs and paths. No expression occurs in it.
-/

namespace PathGlob

open Relation

namespace Platform

/-- Any run of characters without separators is taken. -/
def TakesRun (platform : Platform) (text rest : List Char) : Prop :=
  ∃ run, text = run ++ rest ∧ ∀ c ∈ run, platform.isSeparator c = false

end Platform

/-- What a group of a kind takes, given what its alternatives take. -/
def GroupKind.Takes (platform : Platform) (inner : List Char → List Char → Prop) :
    GroupKind → List Char → List Char → Prop
  | brace | one => inner
  | oneOrMore => TransGen inner
  | zeroOrMore => ReflTransGen inner
  | zeroOrOne => fun text rest => rest = text ∨ inner text rest
  | noneOf => fun text rest => (¬∃ other, inner text other) ∧ platform.TakesRun text rest

namespace GlobItem

variable (options : Options)

mutual

/-- An item takes characters off the front of a path and leaves a rest. -/
def Takes : GlobItem → List Char → List Char → Prop
  | char c => fun text rest => ∃ d, text = d :: rest ∧ c ∈ alike options.caseInsensitive d
  | anyChar => fun text rest => ∃ d, text = d :: rest ∧ d ≠ '\n'
  | anyRun => options.platform.TakesRun
  | bracket cls false => fun text rest =>
    ∃ d, text = d :: rest ∧ cls.accepts (alike options.caseInsensitive d) = true
  | bracket cls true => fun text rest =>
    ∃ run, run ≠ [] ∧ text = run ++ rest ∧
      ∀ d ∈ run, cls.accepts (alike options.caseInsensitive d) = true
  | group kind first others => kind.Takes options.platform fun text rest =>
    BranchTakes first text rest ∨ AlternativesTake others text rest

def AlternativesTake : List (List GlobItem) → List Char → List Char → Prop
  | [] => fun _ _ => False
  | branch :: others => fun text rest =>
    BranchTakes branch text rest ∨ AlternativesTake others text rest

def BranchTakes : List GlobItem → List Char → List Char → Prop
  | [] => fun text rest => rest = text
  | item :: following => fun text rest =>
    ∃ middle, Takes item text middle ∧ BranchTakes following middle rest

end

end GlobItem

namespace GlobMeaning

/-- A glob without the separators at its end; one character is kept in any case. -/
def withoutTrailing (platform : Platform) : List Char → List Char
  | [] => []
  | c :: rest => c :: rest.rdropWhile platform.isSeparator

/-- The segments of a glob between its runs of separators. Only the last separator of a run parts
two segments. -/
def segments (platform : Platform) : List Char → List (List Char)
  | [] => [[]]
  | c :: rest =>
    if platform.isSeparator c then
      if rest.head?.any platform.isSeparator then segments platform rest
      else [] :: segments platform rest
    else
      match segments platform rest with
      | first :: others => (c :: first) :: others
      | [] => [[c]]

variable (options : Options)

/-- Whether a segment stands for any number of whole segments. -/
def IsGlobstar (segment : List Char) : Prop :=
  options.globstar = true ∧ segment = ['*', '*']

/-- A segment takes characters off the front of a path: by its items if its syntax is complete, and
as its own text otherwise. -/
def SegmentTakes (segment text rest : List Char) : Prop :=
  (∃ items, GlobGrammar.IsSegment options segment items ∧
    GlobItem.BranchTakes options items text rest) ∨
  ((∀ items, ¬GlobGrammar.IsSegment options segment items) ∧
    GlobItem.BranchTakes options (segment.map .char) text rest)

/-- Any number of whole segments, each with separators after it: nothing, or a text that ends with a
separator. -/
def AreDirectories (platform : Platform) (text : List Char) : Prop :=
  ∀ c, text.getLast? = some c → platform.isSeparator c = true

/-- The segments of a glob match a path. Separators part segments and may follow the last one; a
globstar brings the separators after it along, and at the end it takes a last name as well. -/
def SegmentsMatch : List (List Char) → List Char → Prop
  | [] => fun path => path = []
  | [segment] => fun path =>
    (IsGlobstar options segment ∧ ∃ directories name, path = directories ++ name ∧
      AreDirectories options.platform directories ∧
      ∀ c ∈ name, options.platform.isSeparator c = false) ∨
    (¬IsGlobstar options segment ∧ ∃ trailing, SegmentTakes options segment path trailing ∧
      ∀ c ∈ trailing, options.platform.isSeparator c = true)
  | segment :: next :: others => fun path =>
    (IsGlobstar options segment ∧ ∃ directories rest, path = directories ++ rest ∧
      AreDirectories options.platform directories ∧ SegmentsMatch (next :: others) rest) ∨
    (¬IsGlobstar options segment ∧ ∃ separators rest,
      SegmentTakes options segment path (separators ++ rest) ∧ separators ≠ [] ∧
      (∀ c ∈ separators, options.platform.isSeparator c = true) ∧
      SegmentsMatch (next :: others) rest)

/-- A glob matches a path. The empty glob matches nothing. -/
def Matches (glob path : List Char) : Prop :=
  glob ≠ [] ∧
    SegmentsMatch options (segments options.platform (withoutTrailing options.platform glob)) path

end GlobMeaning

end PathGlob
