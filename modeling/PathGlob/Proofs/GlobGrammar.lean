import PathGlob.CharClass.Members
import PathGlob.CharClass.Named
import PathGlob.Options.Basic
import PathGlob.Proofs.GlobItem

/-! # The grammar of glob segments

Which items a text is made of, rule by rule and without a scanner: every relation here says what
stands at the front of a text and what is left behind it. What a character means can depend on the
innermost group that is open and on the characters after it, never on those before it.

`GlobGrammar.Reads` is the main relation; a segment has complete syntax if it reads as one sequence
of items with nothing left.
-/

namespace PathGlob

namespace GroupKind

def closer : GroupKind → Char
  | brace => '}'
  | _ => ')'

/-- The character that parts the alternatives of a group. -/
def bar : GroupKind → Char
  | brace => ','
  | _ => '|'

end GroupKind

namespace GlobGrammar

variable (options : Options)

/-- A text starts with an operator that opens a group of a kind. -/
def OpensGroup (text : List Char) (kind : GroupKind) (body : List Char) : Prop :=
  ∃ operator, options.extended = true ∧ GroupKind.ofOperator? operator = some kind ∧
    text = operator :: '(' :: body

/-- A text starts with a reference to a named class. -/
def NamesClass (text : List Char) (tokens : List ClassToken) (rest : List Char) : Prop :=
  ∃ name, ':' ∉ name ∧ NamedClass.tokens? name = some tokens ∧
    text = '[' :: ':' :: (name ++ ':' :: ']' :: rest)

/-- What stands in a bracket: an escaped character, a named class, or any other character. -/
inductive Member : List Char → List ClassToken → List Char → Prop
  | escaped (c : Char) (rest : List Char) :
      Member (options.platform.escapeMark :: c :: rest) [.literal c] rest
  | named {text rest : List Char} {tokens : List ClassToken} (named : NamesClass text tokens rest) :
      Member text tokens rest
  | plain (c : Char) (rest : List Char) (notEscape : c ≠ options.platform.escapeMark)
      (unnamed : ∀ tokens more, ¬NamesClass (c :: rest) tokens more) :
      Member (c :: rest) [.plain c] rest

/-- The members of a bracket up to the `]` that closes it. A `]` that comes first is a member. -/
inductive Members : Bool → List Char → List ClassToken → List Char → Prop
  | close (rest : List Char) : Members false (']' :: rest) [] rest
  | member {first : Bool} {text middle rest : List Char} {tokens others : List ClassToken}
      (early : text.head? = some ']' → first = true) (member : Member options text tokens middle)
      (members : Members false middle others rest) : Members first text (tokens ++ others) rest

/-- A bracket, from `[` to `]`. -/
inductive Bracket : List Char → CharClass → List Char → Prop
  | negated {text rest : List Char} {tokens : List ClassToken}
      (members : Members options true text tokens rest) :
      Bracket ('[' :: '!' :: text) ⟨true, tokens⟩ rest
  | plain {text rest : List Char} {tokens : List ClassToken} (unmarked : text.head? ≠ some '!')
      (members : Members options true text tokens rest) :
      Bracket ('[' :: text) ⟨false, tokens⟩ rest

/-- A character is literal inside a group of a kind, or outside groups: it neither closes that group
nor parts its alternatives, and it has no other role. -/
def IsLiteral (inside : Option GroupKind) (c : Char) : Prop :=
  c ∉ [options.platform.escapeMark, '[', '{', '?', '*'] ∧
    ∀ kind, inside = some kind → c ≠ kind.closer ∧ c ≠ kind.bar

/-- A single item that is no group. -/
inductive Single (inside : Option GroupKind) : List Char → GlobItem → List Char → Prop
  | escaped (c : Char) (rest : List Char) :
      Single inside (options.platform.escapeMark :: c :: rest) (.char c) rest
  | anyChar (rest : List Char) (opensNone : ∀ kind body, ¬OpensGroup options ('?' :: rest) kind body) :
      Single inside ('?' :: rest) .anyChar rest
  | anyRun (more : Nat) (rest : List Char) (complete : rest.head? ≠ some '*')
      (opensNone : ∀ kind body,
        ¬OpensGroup options (List.replicate (more + 1) '*' ++ rest) kind body) :
      Single inside (List.replicate (more + 1) '*' ++ rest) .anyRun rest
  | bracket {text rest : List Char} {cls : CharClass} (bracket : Bracket options text cls rest)
      (valid : cls.isValid = true)
      (once : ∀ more, options.extended = true → rest = '+' :: more → more.head? = some '(') :
      Single inside text (.bracket cls false) rest
  | repeated {text rest : List Char} {cls : CharClass}
      (bracket : Bracket options text cls ('+' :: rest)) (valid : cls.isValid = true)
      (extended : options.extended = true) (opensNone : rest.head? ≠ some '(') :
      Single inside text (.bracket cls true) rest
  | literal (c : Char) (rest : List Char) (isLiteral : IsLiteral options inside c)
      (opensNone : ∀ kind body, ¬OpensGroup options (c :: rest) kind body) :
      Single inside (c :: rest) (.char c) rest

/-- A group of a kind opens at the front of a text. -/
inductive Opens : List Char → GroupKind → List Char → Prop
  | brace (body : List Char) : Opens ('{' :: body) .brace body
  | extended {text body : List Char} {kind : GroupKind} (opens : OpensGroup options text kind body) :
      Opens text kind body

/-- Inside an open group, a text reads as alternatives up to the closer of that group; outside
groups, a whole text reads as one sequence of items. -/
inductive Reads : Option GroupKind → List Char → List (List GlobItem) → List Char → Prop
  | finish : Reads none [] [[]] []
  | close (kind : GroupKind) (rest : List Char) : Reads (some kind) (kind.closer :: rest) [[]] rest
  | part {kind : GroupKind} {text rest : List Char} {alternatives : List (List GlobItem)}
      (others : Reads (some kind) text alternatives rest) :
      Reads (some kind) (kind.bar :: text) ([] :: alternatives) rest
  | single {inside : Option GroupKind} {text middle rest : List Char} {item : GlobItem}
      {branch : List GlobItem} {others : List (List GlobItem)}
      (single : Single options inside text item middle)
      (following : Reads inside middle (branch :: others) rest) :
      Reads inside text ((item :: branch) :: others) rest
  | group {inside : Option GroupKind} {kind : GroupKind} {text body middle rest : List Char}
      {first branch : List GlobItem} {alternatives others : List (List GlobItem)}
      (opens : Opens options text kind body)
      (content : Reads (some kind) body (first :: alternatives) middle)
      (following : Reads inside middle (branch :: others) rest) :
      Reads inside text ((.group kind first alternatives :: branch) :: others) rest

/-- The syntax of a segment is complete, and the segment is a sequence of items. -/
def IsSegment (text : List Char) (items : List GlobItem) : Prop :=
  Reads options none text [items] []

end GlobGrammar

end PathGlob
