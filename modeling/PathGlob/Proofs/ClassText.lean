import PathGlob.CharClass.Members
import PathGlob.CharClass.Named

/-! # Reading the text of a class

How an engine reads a class in brackets. A class that is spelled so that every token can be told from
its neighbours is read back from its text (`CharClass.read?_text`); the classes of globs are spelled
so. An engine gives some bare characters a role inside classes; the reader refuses those.
-/

namespace PathGlob

namespace ClassToken

def hexValue? (c : Char) : Option Nat :=
  if '0' ≤ c ∧ c ≤ '9' then some (c.toNat - '0'.toNat)
  else if 'A' ≤ c ∧ c ≤ 'F' then some (c.toNat - 'A'.toNat + 10)
  else none

/-- The character with a code of two hexadecimal digits. -/
def ofHexDigits? (high low : Char) : Option Char :=
  match hexValue? high, hexValue? low with
  | some high, some low => some (Char.ofNat (high * 16 + low))
  | _, _ => none

/-- The tokens of the body of a class up to the `]` that closes it, and the text after that. -/
def readBody? : List Char → Option (List ClassToken × List Char)
  | [] => none
  | ']' :: rest => some ([], rest)
  | '-' :: rest => (readBody? rest).map fun (tokens, after) => (.dash :: tokens, after)
  | '\\' :: 'd' :: rest =>
    (readBody? rest).map fun (tokens, after) => (.shorthand .digit :: tokens, after)
  | '\\' :: 's' :: rest =>
    (readBody? rest).map fun (tokens, after) => (.shorthand .space :: tokens, after)
  | '\\' :: 'w' :: rest =>
    (readBody? rest).map fun (tokens, after) => (.shorthand .word :: tokens, after)
  | '\\' :: 't' :: rest =>
    (readBody? rest).map fun (tokens, after) => (.char '\t' .coded :: tokens, after)
  | '\\' :: 'x' :: high :: low :: rest =>
    (ofHexDigits? high low).bind fun c =>
      (readBody? rest).map fun (tokens, after) => (.char c .coded :: tokens, after)
  | '\\' :: c :: rest =>
    if special.contains c then
      (readBody? rest).map fun (tokens, after) => (.char c .escaped :: tokens, after)
    else none
  | c :: rest =>
    if ['[', '\\', '&', '~'].contains c then none
    else (readBody? rest).map fun (tokens, after) => (.char c .bare :: tokens, after)

/-- Whether a token can be told from what follows it in the text of a class. -/
def isReadable : ClassToken → Bool
  | .char c .bare => !(['-', '[', '\\', ']', '&', '~'].contains c)
  | .char c .escaped => special.contains c
  | .char c .coded => c.toNat < 0x80
  | .dash | .shorthand _ => true

private theorem ofHexDigits?_twoHexDigits :
    ∀ code < 0x80,
      ofHexDigits? (Nat.digitChar (code / 16)).toUpper (Nat.digitChar (code % 16)).toUpper =
        some (Char.ofNat code) := by
  decide +kernel

/-- A readable token is read back from its text. -/
theorem readBody?_text {token : ClassToken} (readable : token.isReadable = true) (rest : List Char) :
    readBody? (token.text ++ rest) =
      (readBody? rest).map fun (tokens, after) => (token :: tokens, after) := by
  cases token with
  | char c spelling =>
    cases spelling with
    | bare =>
      simp [isReadable] at readable
      simp [text]
      rw [readBody?]
      · simp [readable]
      all_goals simp [readable]
    | escaped =>
      simp [isReadable, special] at readable
      rcases readable with rfl | rfl | rfl | rfl | rfl | rfl | rfl <;>
        simp [text, readBody?, special]
    | coded =>
      have short : c.toNat < 0x80 := by simpa [isReadable] using readable
      by_cases tab : c = '\t'
      · subst tab
        simp [text, readBody?]
      · have digits := ofHexDigits?_twoHexDigits c.toNat short
        rw [Char.ofNat_toNat] at digits
        simp [text, tab, Text.twoHexDigits, readBody?, digits]
  | dash => simp [text, readBody?]
  | shorthand kind => cases kind <;> simp [text, Shorthand.letter, readBody?]

/-- Readable tokens are read back from their text up to the `]` behind them. -/
theorem readBody?_flatMap_text {tokens : List ClassToken}
    (readable : tokens.all isReadable = true) (rest : List Char) :
    readBody? (tokens.flatMap text ++ ']' :: rest) = some (tokens, rest) := by
  induction tokens with
  | nil => simp [readBody?]
  | cons token others ih =>
    simp only [List.all_cons, Bool.and_eq_true] at readable
    rw [List.flatMap_cons, List.append_assoc, readBody?_text readable.1, ih readable.2]
    rfl

private theorem readBody?_length_lt {text rest : List Char} {tokens : List ClassToken}
    (read : readBody? text = some (tokens, rest)) : rest.length < text.length := by
  fun_induction readBody? text generalizing tokens with
  | case1 => cases read
  | case2 => cases read; simp
  | case8 high low text ih =>
    obtain ⟨c, _, read⟩ := Option.bind_eq_some_iff.mp read
    obtain ⟨⟨others, after⟩, read, same⟩ := Option.map_eq_some_iff.mp read
    cases same
    have := ih read
    simp only [List.length_cons]
    omega
  | case10 => cases read
  | case11 => cases read
  | _ =>
    rename_i ih
    obtain ⟨⟨others, after⟩, read, same⟩ := Option.map_eq_some_iff.mp read
    cases same
    have := ih read
    simp only [List.length_cons]
    omega

theorem isReadable_literal (c : Char) : (literal c).isReadable = true := by
  unfold literal
  split
  · next isSpecial => exact isSpecial
  · next ordinary =>
    simp [special] at ordinary
    simp [isReadable, ordinary]

theorem isReadable_plain (c : Char) : (plain c).isReadable = true := by
  unfold plain
  split
  · rfl
  · exact isReadable_literal c

/-- A caret that is a member is escaped, so that it never negates a class. -/
theorem literal_ne_caret (c : Char) : literal c ≠ .char '^' .bare := by
  unfold literal
  split
  · simp
  · next ordinary =>
    simp only [ne_eq, char.injEq, and_true]
    rintro rfl
    exact ordinary rfl

theorem plain_ne_caret (c : Char) : plain c ≠ .char '^' .bare := by
  unfold plain
  split
  · simp
  · exact literal_ne_caret c

end ClassToken

namespace CharClass

/-- The class at the front of a text, if it has a body and means something, and the text after it. -/
def read? : List Char → Option (CharClass × List Char)
  | '[' :: '^' :: rest => (ClassToken.readBody? rest).bind fun (tokens, after) =>
    if tokens ≠ [] ∧ isValid ⟨true, tokens⟩ then some (⟨true, tokens⟩, after) else none
  | '[' :: rest => (ClassToken.readBody? rest).bind fun (tokens, after) =>
    if tokens ≠ [] ∧ isValid ⟨false, tokens⟩ then some (⟨false, tokens⟩, after) else none
  | _ => none

/-- Whether a class means something and is spelled so that its text says what it is. -/
def isReadable (cls : CharClass) : Bool :=
  cls.isValid && cls.tokens.all ClassToken.isReadable && !cls.tokens.isEmpty &&
    cls.tokens.head? != some (.char '^' .bare)

theorem read?_length_lt {text rest : List Char} {cls : CharClass}
    (read : read? text = some (cls, rest)) : rest.length < text.length := by
  unfold read? at read
  split at read
  · obtain ⟨⟨tokens, after⟩, body, read⟩ := Option.bind_eq_some_iff.mp read
    have := ClassToken.readBody?_length_lt body
    dsimp only at read
    split at read
    · cases read
      simp only [List.length_cons]
      omega
    · cases read
  · obtain ⟨⟨tokens, after⟩, body, read⟩ := Option.bind_eq_some_iff.mp read
    have := ClassToken.readBody?_length_lt body
    dsimp only at read
    split at read
    · cases read
      simp only [List.length_cons]
      omega
    · cases read
  · cases read

/-- The text of a readable class that is not negated does not start like a negated one. -/
theorem head?_flatMap_text {tokens : List ClassToken} (nonempty : tokens ≠ [])
    (unmarked : tokens.head? ≠ some (.char '^' .bare)) (rest : List Char) :
    (tokens.flatMap ClassToken.text ++ rest).head? ≠ some '^' := by
  obtain ⟨token, others, rfl⟩ := List.exists_cons_of_ne_nil nonempty
  rw [List.flatMap_cons]
  cases token with
  | char c spelling =>
    cases spelling with
    | bare => simpa [ClassToken.text] using unmarked
    | escaped => simp [ClassToken.text]
    | coded => by_cases tab : c = '\t' <;> simp [ClassToken.text, tab]
  | dash => simp [ClassToken.text]
  | shorthand => simp [ClassToken.text]

/-- A readable class is read back from its text. -/
theorem read?_text {cls : CharClass} (readable : cls.isReadable = true) (rest : List Char) :
    read? (cls.text ++ rest) = some (cls, rest) := by
  obtain ⟨negated, tokens⟩ := cls
  simp only [isReadable, Bool.and_eq_true, Bool.not_eq_true', List.isEmpty_eq_false_iff,
    bne_iff_ne] at readable
  obtain ⟨⟨⟨valid, each⟩, nonempty⟩, unmarked⟩ := readable
  have body := ClassToken.readBody?_flatMap_text each rest
  cases negated with
  | true =>
    simp only [text, if_pos, List.cons_append, List.append_assoc, List.nil_append]
    rw [read?, body]
    simp [nonempty, valid]
  | false =>
    have start := head?_flatMap_text nonempty unmarked (']' :: rest)
    simp only [text, Bool.false_eq_true, if_false, List.cons_append, List.append_assoc,
      List.nil_append]
    rw [read?, body]
    · simp [nonempty, valid]
    · intro more
      simpa using fun same => start (by rw [same]; rfl)

end CharClass

end PathGlob
