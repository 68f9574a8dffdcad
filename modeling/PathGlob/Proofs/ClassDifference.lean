import Mathlib.Data.List.Chain
import PathGlob.Proofs.ClassReading

/-! # Differences in a class

What reading the tokens of a class comes to, rule by rule (`ClassMembers.Reads`). All characters of
the tokens are listed somewhere (`Reads.exists_listed`), and nothing is taken away unless two dashes
follow one another (`Reads.removed_eq_nil`). The first two that do part what is kept from what is
taken away (`Reads.exists_of_difference`).
-/

namespace PathGlob

/-- Two tokens that may follow one another without a difference between them. -/
def ClassToken.Apart (first second : ClassToken) : Prop :=
  ¬(first = .dash ∧ second = .dash)

instance : DecidableRel ClassToken.Apart := fun _ _ => inferInstanceAs (Decidable ¬(_ ∧ _))

namespace ClassMembers

/-- All members that are listed, those that are kept and those that are taken away. -/
def listed (read : ClassMembers) : List ClassMember :=
  read.kept ++ read.removed

/-- Tokens are read as members. -/
inductive Reads : List ClassToken → ClassMembers → Prop
  | nil : Reads [] {}
  | difference {rest : List ClassToken} {read : ClassMembers} (others : Reads rest read) :
      Reads (.dash :: .dash :: rest) (subtract read)
  | dash {rest : List ClassToken} {read : ClassMembers} (alone : rest.head? ≠ some .dash)
      (others : Reads rest read) : Reads (.dash :: rest) (insert (.char '-') read)
  | range {first last : Char} {rest : List ClassToken} {read : ClassMembers}
      (spelling lastSpelling : Spelling) (ordered : first ≤ last) (others : Reads rest read) :
      Reads (.char first spelling :: .dash :: .char last lastSpelling :: rest)
        (insert (.range first last) read)
  | char (c : Char) (spelling : Spelling) {rest : List ClassToken} {read : ClassMembers}
      (single : ¬ContinuesRange rest) (others : Reads rest read) :
      Reads (.char c spelling :: rest) (insert (.char c) read)
  | shorthand (kind : Shorthand) {rest : List ClassToken} {read : ClassMembers}
      (single : ¬ContinuesRange rest) (others : Reads rest read) :
      Reads (.shorthand kind :: rest) (insert (.shorthand kind) read)

variable {tokens before after rest : List ClassToken} {read : ClassMembers}

private theorem not_continuesRange
    (noChar : ∀ last spelling more, rest = .dash :: .char last spelling :: more → False)
    (noShorthand : ∀ kind more, rest = .dash :: .shorthand kind :: more → False) :
    ¬ContinuesRange rest := by
  rintro ⟨last, more, rfl, notDash⟩
  match last with
  | .char last spelling => exact noChar last spelling more rfl
  | .shorthand kind => exact noShorthand kind more rfl
  | .dash => exact notDash rfl

theorem ofTokens?_eq_some_iff : ofTokens? tokens = some read ↔ Reads tokens read := by
  constructor
  · intro succeeds
    induction tokens using ofTokens?.induct generalizing read with
    | case1 =>
      obtain rfl := Option.some.inj succeeds
      exact .nil
    | case2 rest ih =>
      obtain ⟨others, isRead, rfl⟩ := Option.map_eq_some_iff.mp succeeds
      exact .difference (ih isRead)
    | case3 rest alone ih =>
      rw [ofTokens?.eq_3 rest alone] at succeeds
      obtain ⟨others, isRead, rfl⟩ := Option.map_eq_some_iff.mp succeeds
      refine .dash (fun starts => ?_) (ih isRead)
      obtain ⟨more, rfl⟩ := List.head?_eq_some_iff.mp starts
      exact alone more rfl
    | case4 first spelling last lastSpelling rest ordered ih =>
      rw [ofTokens?, if_pos ordered] at succeeds
      obtain ⟨others, isRead, rfl⟩ := Option.map_eq_some_iff.mp succeeds
      exact .range spelling lastSpelling ordered (ih isRead)
    | case5 first spelling last lastSpelling rest reversed =>
      rw [ofTokens?, if_neg reversed] at succeeds
      cases succeeds
    | case6 | case7 | case8 => cases succeeds
    | case9 c spelling rest noChar noShorthand ih =>
      have single := not_continuesRange noChar noShorthand
      rw [ofTokens?_cons_char c spelling single] at succeeds
      obtain ⟨others, isRead, rfl⟩ := Option.map_eq_some_iff.mp succeeds
      exact .char c spelling single (ih isRead)
    | case10 kind rest noChar noShorthand ih =>
      have single := not_continuesRange noChar noShorthand
      rw [ofTokens?_cons_shorthand kind single] at succeeds
      obtain ⟨others, isRead, rfl⟩ := Option.map_eq_some_iff.mp succeeds
      exact .shorthand kind single (ih isRead)
  · intro reads
    induction reads with
    | nil => rfl
    | difference _ ih => rw [ofTokens?, ih, Option.map_some]
    | @dash rest _ alone _ ih =>
      have alone : ∀ more, rest = .dash :: more → False := fun more same => alone (same ▸ rfl)
      rw [ofTokens?.eq_3 rest alone, ih, Option.map_some]
    | range _ _ ordered _ ih => rw [ofTokens?, if_pos ordered, ih, Option.map_some]
    | char c spelling single _ ih => rw [ofTokens?_cons_char c spelling single, ih, Option.map_some]
    | shorthand kind single _ ih => rw [ofTokens?_cons_shorthand kind single, ih, Option.map_some]

private theorem listed_insert (member : ClassMember) (read : ClassMembers) :
    (insert member read).listed = member :: read.listed :=
  rfl

private theorem listed_subtract (read : ClassMembers) : (subtract read).listed = read.listed :=
  rfl

namespace Reads

/-- A character of the tokens is listed. -/
theorem exists_listed (reads : Reads tokens read) {c : Char} {spelling : Spelling}
    (isToken : .char c spelling ∈ tokens) : ∃ member ∈ read.listed, member.contains c = true := by
  induction reads with
  | nil => cases isToken
  | difference _ ih =>
    rw [listed_subtract]
    exact ih (by simpa using isToken)
  | dash _ _ ih | shorthand _ _ _ ih =>
    rw [listed_insert, List.exists_mem_cons_iff]
    exact .inr (ih (by simpa using isToken))
  | @range first last rest _ spelling lastSpelling ordered _ ih =>
    rw [listed_insert, List.exists_mem_cons_iff]
    simp only [List.mem_cons, ClassToken.char.injEq, reduceCtorEq, false_or] at isToken
    obtain ⟨rfl, -⟩ | ⟨rfl, -⟩ | isToken := isToken
    · left
      simp [ClassMember.contains, ordered]
    · left
      simp [ClassMember.contains, ordered]
    · exact .inr (ih isToken)
  | char d _ _ _ ih =>
    rw [listed_insert, List.exists_mem_cons_iff]
    obtain isToken | isToken := List.mem_cons.mp isToken
    · exact .inl (ClassMember.contains_char_iff.mpr (ClassToken.char.inj isToken).1)
    · exact .inr (ih isToken)

/-- Nothing is taken away where no two dashes follow one another. -/
theorem removed_eq_nil (reads : Reads tokens read) (apart : tokens.IsChain ClassToken.Apart) :
    read.removed = [] := by
  induction reads with
  | nil => rfl
  | difference => exact absurd ⟨rfl, rfl⟩ (List.isChain_cons_cons.mp apart).1
  | dash _ _ ih | char _ _ _ _ ih | shorthand _ _ _ ih => exact ih (List.isChain_cons.mp apart).2
  | range _ _ _ _ ih =>
    exact ih (List.isChain_cons.mp (List.isChain_cons.mp (List.isChain_cons.mp apart).2).2).2

/-- The first two dashes that follow one another part what is kept from what is taken away. -/
theorem exists_of_difference (reads : Reads tokens read)
    (cut : tokens = before ++ .dash :: .dash :: after)
    (apart : (before ++ [ClassToken.dash]).IsChain ClassToken.Apart) :
    ∃ kept removed, Reads after removed ∧ read = ⟨kept, removed.listed⟩ := by
  induction reads generalizing before with
  | nil => cases before <;> cases cut
  | difference others =>
    -- Two dashes at the very front are the first ones that follow one another.
    match before with
    | [] =>
      obtain rfl := (List.cons.inj (List.cons.inj cut).2).2
      exact ⟨[], _, others, rfl⟩
    | [first] =>
      obtain rfl := (List.cons.inj cut).1
      exact absurd ⟨rfl, rfl⟩ (List.isChain_cons_cons.mp apart).1
    | first :: second :: before =>
      simp only [List.cons_append, List.cons.injEq] at cut
      obtain ⟨rfl, rfl, -⟩ := cut
      exact absurd ⟨rfl, rfl⟩ (List.isChain_cons_cons.mp apart).1
  | dash alone _ ih =>
    cases before with
    | nil => exact absurd (by rw [(List.cons.inj cut).2]; rfl) alone
    | cons first before =>
      obtain ⟨kept, removed, isRead, rfl⟩ :=
        ih (List.cons.inj cut).2 (List.isChain_cons.mp apart).2
      exact ⟨_, removed, isRead, rfl⟩
  | range _ _ _ _ ih =>
    match before with
    | [] | [_] | [_, _] => simp at cut
    | _ :: _ :: _ :: before =>
      simp only [List.cons_append, List.cons.injEq] at cut apart
      have apart := (List.isChain_cons.mp (List.isChain_cons.mp (List.isChain_cons.mp apart).2).2).2
      obtain ⟨kept, removed, isRead, rfl⟩ := ih cut.2.2.2 apart
      exact ⟨_, removed, isRead, rfl⟩
  | char _ _ _ _ ih | shorthand _ _ _ ih =>
    cases before with
    | nil => cases (List.cons.inj cut).1
    | cons first before =>
      obtain ⟨kept, removed, isRead, rfl⟩ :=
        ih (List.cons.inj cut).2 (List.isChain_cons.mp apart).2
      exact ⟨_, removed, isRead, rfl⟩

end Reads

end ClassMembers

/-- A class is read behind the dashes at its start, which are kept as one more member. -/
theorem CharClass.exists_reads {cls : CharClass} {members : ClassMembers}
    (read : cls.members? = some members) :
    ∃ others, ClassMembers.Reads (cls.tokens.dropWhile (· == .dash)) others ∧
      members.removed = others.removed ∧ ∀ member ∈ others.kept, member ∈ members.kept := by
  unfold members? at read
  split at read
  · next rest starts =>
    obtain ⟨others, isRead, rfl⟩ := Option.map_eq_some_iff.mp read
    rw [starts, List.dropWhile_cons_of_pos (by decide)]
    exact ⟨others, ClassMembers.ofTokens?_eq_some_iff.mp isRead, rfl,
      fun member isKept => List.mem_cons_of_mem _ isKept⟩
  · next plain =>
    have starts : cls.tokens.dropWhile (· == .dash) = cls.tokens := by
      cases listed : cls.tokens with
      | nil => rfl
      | cons token rest =>
        have notDash : token ≠ .dash := fun same => plain rest (same ▸ listed)
        exact List.dropWhile_cons_of_neg (by simpa using notDash)
    rw [starts]
    exact ⟨members, ClassMembers.ofTokens?_eq_some_iff.mp read, rfl, fun _ => id⟩

end PathGlob
