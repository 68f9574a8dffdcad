import PathGlob.Glob.Pattern
import PathGlob.Proofs.RegexLayout

/-! # Reading the text of an expression

How an engine reads the text of an expression, from left to right with a stack of open groups. The
reader refuses what is not well formed: a group or a class that is not closed or never opened, a
class that means nothing, a repetition with nothing in front of it that could be repeated, and a `|`
outside groups, which would leave the anchors around the expression to single alternatives.

A well-formed expression is read back from its text in laid-out form (`Regex.read?_text`).
-/

namespace PathGlob

/-- A unit of the text of an expression. -/
inductive RegexToken where
  /-- Something that stands in a sequence. -/
  | part (regex : Regex)
  /-- The start of a group, or of a check ahead. -/
  | openGroup (ahead : Bool)
  | closeGroup
  | bar
  | repetition (repetition : Repetition)

namespace RegexToken

def next? : List Char → Option (RegexToken × List Char)
  | [] => none
  | '.' :: rest => some (.part .anyChar, rest)
  | '(' :: '?' :: ':' :: rest => some (.openGroup false, rest)
  | '(' :: '?' :: '!' :: rest => some (.openGroup true, rest)
  | ')' :: rest => some (.closeGroup, rest)
  | '|' :: rest => some (.bar, rest)
  | '*' :: rest => some (.repetition .zeroOrMore, rest)
  | '+' :: rest => some (.repetition .oneOrMore, rest)
  | '?' :: rest => some (.repetition .zeroOrOne, rest)
  | '[' :: rest => (CharClass.read? ('[' :: rest)).map fun (cls, after) => (.part (.cls cls), after)
  | '\\' :: 'b' :: '\\' :: 'B' :: rest => some (.part .never, rest)
  | '\\' :: c :: rest => if Regex.special.contains c then some (.part (.char c), rest) else none
  | c :: rest => if Regex.special.contains c then none else some (.part (.char c), rest)

private theorem length_lt_of_next? {text rest : List Char} {token : RegexToken}
    (next : next? text = some (token, rest)) : rest.length < text.length := by
  unfold next? at next
  split at next
  case h_10 =>
    obtain ⟨⟨cls, after⟩, read, same⟩ := Option.map_eq_some_iff.mp next
    cases same
    exact CharClass.read?_length_lt read
  case h_12 =>
    split at next
    · cases next
      simp only [List.length_cons]
      omega
    · cases next
  case h_13 =>
    split at next
    · cases next
    · cases next
      simp
  all_goals
    cases next
    try simp only [List.length_cons]
    try omega

private theorem next?_charText (c : Char) (rest : List Char) :
    next? (Regex.charText c ++ rest) = some (.part (.char c), rest) := by
  unfold Regex.charText
  split
  · next isSpecial =>
    simp [Regex.special] at isSpecial
    rcases isSpecial with rfl | rfl | rfl | rfl | rfl | rfl | rfl | rfl | rfl | rfl | rfl | rfl |
      rfl | rfl <;> rfl
  · next ordinary =>
    simp [Regex.special] at ordinary
    rw [List.singleton_append, next?]
    · simp [Regex.special, ordinary]
    all_goals simp [ordinary]

private theorem next?_cls {cls : CharClass} (readable : cls.isReadable = true) (rest : List Char) :
    next? (cls.text ++ rest) = some (.part (.cls cls), rest) := by
  have read := CharClass.read?_text readable rest
  obtain ⟨body, text⟩ : ∃ body, cls.text ++ rest = '[' :: body := ⟨_, rfl⟩
  rw [text] at read ⊢
  rw [next?, read]
  rfl

private theorem next?_sign (repetition : Repetition) (rest : List Char) :
    next? (repetition.sign :: rest) = some (.repetition repetition, rest) := by
  cases repetition <;> rfl

end RegexToken

/-- The alternatives of a group that is not closed yet. -/
structure RegexBranches where
  complete : List (List Regex) := []
  last : List Regex := []

namespace RegexBranches

/-- Continues the last alternative. -/
def add (branches : RegexBranches) (regexes : List Regex) : RegexBranches :=
  { branches with last := branches.last ++ regexes }

def split (branches : RegexBranches) : RegexBranches :=
  { complete := branches.complete ++ [branches.last], last := [] }

def all (branches : RegexBranches) : List (List Regex) :=
  branches.complete ++ [branches.last]

/-- Repeats what stands last, if it can be repeated. -/
def repeat? (repetition : Repetition) (branches : RegexBranches) : Option RegexBranches :=
  match branches.last.getLast? with
  | some regex =>
    if regex.isAtom then
      some { branches with last := branches.last.dropLast ++ [repetition.apply regex] }
    else none
  | none => none

/-- Continues the last alternative with the first of some alternatives, and adds the others. -/
def extend (branches : RegexBranches) (alternatives : List (List Regex)) : RegexBranches :=
  match alternatives with
  | [] => branches
  | first :: others =>
    others.foldl (fun branches branch => branches.split.add branch) (branches.add first)

private theorem add_nil (branches : RegexBranches) : branches.add [] = branches := by
  simp [add]

private theorem add_add (branches : RegexBranches) (first second : List Regex) :
    (branches.add first).add second = branches.add (first ++ second) := by
  simp [add]

private theorem extend_singleton (branches : RegexBranches) (branch : List Regex) :
    branches.extend [branch] = branches.add branch := rfl

private theorem extend_append (branches : RegexBranches) {first second : List (List Regex)}
    (left : first ≠ []) (right : second ≠ []) :
    (branches.extend first).split.extend second = branches.extend (first ++ second) := by
  obtain ⟨branch, others, rfl⟩ := List.exists_cons_of_ne_nil left
  obtain ⟨next, more, rfl⟩ := List.exists_cons_of_ne_nil right
  simp [extend]

private theorem all_foldl_split (others : List (List Regex)) (branches : RegexBranches) :
    (others.foldl (fun branches branch => branches.split.add branch) branches).all =
      branches.all ++ others := by
  induction others generalizing branches with
  | nil => simp
  | cons branch others ih =>
    rw [List.foldl_cons, ih]
    simp [all, split, add]

private theorem all_extend {alternatives : List (List Regex)} (nonempty : alternatives ≠ []) :
    (extend {} alternatives).all = alternatives := by
  obtain ⟨first, others, rfl⟩ := List.exists_cons_of_ne_nil nonempty
  rw [extend, all_foldl_split]
  simp [all, add]

private theorem repeat?_add (repetition : Repetition) (branches : RegexBranches) {atom : Regex}
    (isAtom : atom.isAtom = true) :
    (branches.add [atom]).repeat? repetition = some (branches.add [repetition.apply atom]) := by
  simp [repeat?, add, isAtom]

end RegexBranches

/-- A group that is open in the text of an expression, and the alternatives around it. -/
structure OpenRegex where
  ahead : Bool
  around : RegexBranches

namespace OpenRegex

def close (opened : OpenRegex) (branches : RegexBranches) : Regex :=
  if opened.ahead then .notAhead (.alternatives branches.all) else .group (.alternatives branches.all)

end OpenRegex

/-- How far the text of an expression has been read: the groups that are open, the innermost first,
and the alternatives of the innermost one. -/
structure RegexReading where
  groups : List OpenRegex := []
  branches : RegexBranches := {}

namespace RegexReading

/-- The reading where another alternative starts. -/
def split (reading : RegexReading) : RegexReading :=
  { reading with branches := reading.branches.split }

def step? (reading : RegexReading) : RegexToken → Option RegexReading
  | .part regex => some { reading with branches := reading.branches.add [regex] }
  | .openGroup ahead => some { groups := ⟨ahead, reading.branches⟩ :: reading.groups }
  | .closeGroup =>
    match reading.groups with
    | [] => none
    | opened :: outer => some ⟨outer, opened.around.add [opened.close reading.branches]⟩
  | .bar =>
    if reading.groups.isEmpty then none else some reading.split
  | .repetition repetition =>
    (reading.branches.repeat? repetition).map fun branches => { reading with branches }

def run? (reading : RegexReading) (text : List Char) : Option RegexReading :=
  if text.isEmpty then some reading
  else
    match next : RegexToken.next? text with
    | some (token, rest) =>
      have := RegexToken.length_lt_of_next? next
      (reading.step? token).bind fun reading => reading.run? rest
    | none => none
termination_by text.length

/-- The reading after the parts of some alternatives. -/
def extend (reading : RegexReading) (alternatives : List (List Regex)) : RegexReading :=
  { reading with branches := reading.branches.extend alternatives }

variable {reading : RegexReading} {text rest : List Char}

private theorem run?_nil : reading.run? [] = some reading := by
  rw [run?]
  rfl

private theorem run?_of_next? {token : RegexToken} (next : RegexToken.next? text = some (token, rest)) :
    reading.run? text = (reading.step? token).bind fun reading => reading.run? rest := by
  have nonempty : text.isEmpty = false := by
    cases text with
    | nil => cases next
    | cons => rfl
  rw [run?, if_neg (by simp [nonempty])]
  split
  · next found =>
    rw [next] at found
    cases found
    rfl
  · next missing =>
    rw [next] at missing
    cases missing

/-- The token of a single expression is read. -/
private theorem run?_part {regex : Regex} (next : RegexToken.next? text = some (.part regex, rest)) :
    reading.run? text = (reading.extend [[regex]]).run? rest :=
  run?_of_next? next

private theorem run?_bar (inGroup : reading.groups ≠ []) :
    reading.run? ('|' :: rest) = reading.split.run? rest := by
  have next : RegexToken.next? ('|' :: rest) = some (.bar, rest) := rfl
  rw [run?_of_next? next, step?, if_neg (by simpa using inGroup)]
  rfl

/-- What can be repeated and is read can be read with the sign of a repetition after it. -/
private theorem run?_repetition (repetition : Repetition) {body : Regex} (isAtom : body.isAtom = true)
    (read : ∀ {rest}, body.isBranch = true ∨ reading.groups ≠ [] →
      reading.run? (body.text ++ rest) = (reading.extend body.layout).run? rest) :
    reading.run? (body.text ++ [repetition.sign] ++ rest) =
      (reading.extend [body.layout.flatten.map repetition.apply]).run? rest := by
  obtain ⟨atom, layout, alsoAtom⟩ := Regex.exists_layout_of_isAtom isAtom
  rw [List.append_assoc, read (.inl (Regex.isBranch_of_isAtom isAtom)), layout,
    List.singleton_append, run?_of_next? (RegexToken.next?_sign repetition rest)]
  simp only [step?, extend, RegexBranches.extend_singleton,
    RegexBranches.repeat?_add _ _ alsoAtom, Option.map_some, Option.bind_some]
  rfl

/-- The alternatives of a group are read up to its end. -/
private theorem run?_close {ahead : Bool} {alternatives : List (List Regex)}
    (nonempty : alternatives ≠ []) :
    (extend { groups := ⟨ahead, reading.branches⟩ :: reading.groups } alternatives).run?
        (')' :: rest) =
      (reading.extend [[if ahead then .notAhead (.alternatives alternatives)
        else .group (.alternatives alternatives)]]).run? rest := by
  have next : RegexToken.next? (')' :: rest) = some (.closeGroup, rest) := rfl
  rw [run?_of_next? next]
  simp only [step?, extend, OpenRegex.close, RegexBranches.all_extend nonempty,
    RegexBranches.extend_singleton, Option.bind_some]

/-- The text of a well-formed expression is read as the parts of its alternatives; alternatives have
to stand in a group. -/
theorem run?_text {regex : Regex} (wellFormed : regex.isWellFormed = true)
    (closed : regex.isBranch = true ∨ reading.groups ≠ []) :
    reading.run? (regex.text ++ rest) = (reading.extend regex.layout).run? rest := by
  induction regex generalizing reading rest with
  | empty =>
    have unchanged : reading.extend [[]] = reading := by
      rw [extend, RegexBranches.extend_singleton, RegexBranches.add_nil]
    rw [Regex.layout, unchanged]
    rfl
  | never | anyChar => exact run?_part rfl
  | char c => exact run?_part (RegexToken.next?_charText c rest)
  | cls c => exact run?_part (RegexToken.next?_cls wellFormed rest)
  | seq first second firstRead secondRead =>
    simp only [Regex.isWellFormed, Bool.and_eq_true] at wellFormed
    obtain ⟨⟨⟨firstBranch, secondBranch⟩, firstFormed⟩, secondFormed⟩ := wellFormed
    obtain ⟨branch, firstLayout⟩ := Regex.exists_layout_of_isBranch firstBranch
    obtain ⟨next, secondLayout⟩ := Regex.exists_layout_of_isBranch secondBranch
    rw [Regex.text, List.append_assoc, firstRead firstFormed (.inl firstBranch),
      secondRead secondFormed (.inl secondBranch), firstLayout, secondLayout, Regex.layout,
      firstLayout, secondLayout]
    simp only [extend, RegexBranches.extend_singleton, RegexBranches.add_add,
      List.flatten_singleton]
  | alt first second firstRead secondRead =>
    have inGroup : reading.groups ≠ [] := closed.resolve_left Bool.false_ne_true
    simp only [Regex.isWellFormed, Bool.and_eq_true] at wellFormed
    -- The groups are the same before the bar and after it, so neither side has to be a sequence.
    have atBar : (reading.extend first.layout).groups ≠ [] := inGroup
    have afterBar : (reading.extend first.layout).split.groups ≠ [] := inGroup
    rw [Regex.text, List.append_assoc, firstRead wellFormed.1 (.inr inGroup), List.cons_append,
      run?_bar atBar, secondRead wellFormed.2 (.inr afterBar), Regex.layout]
    simp only [extend, split, RegexBranches.extend_append _ first.layout_ne_nil second.layout_ne_nil]
  | group body bodyRead =>
    have next : RegexToken.next? ((Regex.group body).text ++ rest) =
        some (.openGroup false, body.text ++ ')' :: rest) := by
      simp [Regex.text, RegexToken.next?]
    rw [run?_of_next? next, step?, Option.bind_some, bodyRead wellFormed (.inr (by simp))]
    exact run?_close body.layout_ne_nil
  | notAhead body bodyRead =>
    have next : RegexToken.next? ((Regex.notAhead body).text ++ rest) =
        some (.openGroup true, body.text ++ ')' :: rest) := by
      simp [Regex.text, RegexToken.next?]
    rw [run?_of_next? next, step?, Option.bind_some, bodyRead wellFormed (.inr (by simp))]
    exact run?_close body.layout_ne_nil
  | zeroOrMore body bodyRead =>
    simp only [Regex.isWellFormed, Bool.and_eq_true] at wellFormed
    exact run?_repetition .zeroOrMore wellFormed.1 (bodyRead wellFormed.2)
  | oneOrMore body bodyRead =>
    simp only [Regex.isWellFormed, Bool.and_eq_true] at wellFormed
    exact run?_repetition .oneOrMore wellFormed.1 (bodyRead wellFormed.2)
  | zeroOrOne body bodyRead =>
    simp only [Regex.isWellFormed, Bool.and_eq_true] at wellFormed
    exact run?_repetition .zeroOrOne wellFormed.1 (bodyRead wellFormed.2)

end RegexReading

namespace Regex

/-- The expression that a text says, if the text is well formed. -/
def read? (text : List Char) : Option Regex :=
  (RegexReading.run? {} text).bind fun reading =>
    if reading.groups.isEmpty then some (alternatives reading.branches.all) else none

def ofSource? (source : String) : Option Regex :=
  match source.toList with
  | '^' :: rest => if rest.getLast? = some '$' then read? rest.dropLast else none
  | _ => none

variable {regex : Regex}

/-- A well-formed expression is read back from its text. -/
theorem read?_text (wellFormed : regex.isWellFormed = true) (isBranch : regex.isBranch = true) :
    read? regex.text = some regex.laidOut := by
  obtain ⟨branch, layout⟩ := exists_layout_of_isBranch isBranch
  have run : RegexReading.run? {} (regex.text ++ []) = RegexReading.run? _ [] :=
    RegexReading.run?_text wellFormed (.inl isBranch)
  rw [List.append_nil, RegexReading.run?_nil, layout] at run
  rw [read?, run, laidOut, layout]
  rfl

theorem ofSource?_source (wellFormed : regex.isWellFormed = true) (isBranch : regex.isBranch = true) :
    ofSource? regex.source = some regex.laidOut := by
  have ends : (regex.text ++ ['$']).getLast? = some '$' := List.getLast?_concat
  have body : (regex.text ++ ['$']).dropLast = regex.text := List.dropLast_concat
  rw [ofSource?, source, String.toList_ofList]
  simp only [ends, if_true, body]
  exact read?_text wellFormed isBranch

end Regex

end PathGlob
