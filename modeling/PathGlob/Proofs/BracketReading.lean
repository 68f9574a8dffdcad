import Mathlib.Data.List.TakeWhile
import PathGlob.Proofs.GlobGrammar
import PathGlob.Proofs.SegmentTokens

/-! # Reading brackets

The scanner of `PathGlob.Proofs.SegmentTokens` reads brackets by the grammar: inside a bracket it goes over
one member after the other, and what it finds at the closing `]` are the members in between
(`scan?_bracket`). Where it does not give up, there is a bracket (`exists_bracket_of_scan?`).
-/

namespace PathGlob

namespace NamedClass

theorem ofReference?_eq_some_iff {text : List Char} {tokens : List ClassToken} {length : Nat} :
    ofReference? text = some (tokens, length) ↔
      ∃ name rest, ':' ∉ name ∧ tokens? name = some tokens ∧
        text = name ++ ':' :: ']' :: rest ∧ length = name.length + 2 := by
  constructor
  · intro found
    unfold ofReference? at found
    dsimp only at found
    split at found
    · next rest dropped =>
      obtain ⟨known, knownName, same⟩ := Option.map_eq_some_iff.mp found
      obtain ⟨rfl, rfl⟩ := Prod.mk.inj same
      refine ⟨text.takeWhile (· != ':'), rest, ?_, knownName, ?_, rfl⟩
      · intro inName
        simpa using List.mem_takeWhile_imp inName
      · rw [← dropped, List.takeWhile_append_dropWhile]
    · cases found
  · rintro ⟨name, rest, noColon, known, rfl, rfl⟩
    have isName : ∀ c ∈ name, (c != ':') = true := by
      intro c inName
      simpa using fun same : c = ':' => noColon (same ▸ inName)
    have taken : (name ++ ':' :: ']' :: rest).takeWhile (· != ':') = name := by
      rw [List.takeWhile_append_of_pos isName]
      simp
    have dropped : (name ++ ':' :: ']' :: rest).dropWhile (· != ':') = ':' :: ']' :: rest := by
      rw [List.dropWhile_append_of_pos isName]
      simp
    simp only [ofReference?, taken, dropped, known, Option.map_some]

/-- A known name stands for something. -/
theorem ne_nil_of_tokens? {name : List Char} {tokens : List ClassToken}
    (known : tokens? name = some tokens) : tokens ≠ [] := by
  have all : ∀ entry ∈ table, entry.2 ≠ [] := by decide
  exact all _ (mem_table_of_tokens? known)

end NamedClass

namespace GlobGrammar

open GlobToken

variable {options : Options} {text middle rest : List Char} {tokens : List ClassToken}

/-- What the scanner makes of the text after a bracket that has just been closed. -/
def afterBracket? (options : Options) (cls : CharClass) (rest : List Char) :
    Option (List GlobToken) :=
  if cls.isValid then
    (scan? options (if isRepeat options rest then .tail else .between) rest).map
      (.bracket cls (isRepeat options rest) :: ·)
  else none

/-- The characters that make up a bracket are never escape marks. -/
theorem ne_escapeMark {c : Char} (isSign : c ∈ ['[', '!', ']']) :
    c ≠ options.platform.escapeMark := by
  have escapes : options.platform.escapeMark ∉ ['[', '!', ']'] := by
    cases options.platform <;> decide
  exact fun same => escapes (same ▸ isSign)

theorem Member.ne_nil (member : Member options text tokens rest) : tokens ≠ [] := by
  cases member with
  | escaped | plain => simp
  | named named =>
    obtain ⟨_, _, known, _⟩ := named
    exact NamedClass.ne_nil_of_tokens? known

theorem Member.length_lt (member : Member options text tokens rest) :
    rest.length < text.length := by
  cases member with
  | escaped => simp only [List.length_cons]; omega
  | plain => simp
  | named named =>
    obtain ⟨name, _, _, rfl⟩ := named
    simp only [List.length_cons, List.length_append]
    omega

theorem Members.length_lt {first : Bool} (members : Members options first text tokens rest) :
    rest.length < text.length := by
  induction members with
  | close => simp
  | member _ member _ ih => exact ih.trans member.length_lt

theorem Bracket.length_lt {cls : CharClass} (bracket : Bracket options text cls rest) :
    rest.length < text.length := by
  cases bracket with
  | negated members | plain _ members =>
    have := members.length_lt
    simp only [List.length_cons]
    omega

/-- Unless an escape mark ends it, a text starts with a member. -/
theorem exists_member (nonempty : text ≠ []) (pending : text ≠ [options.platform.escapeMark]) :
    ∃ tokens rest, Member options text tokens rest := by
  obtain ⟨c, more, rfl⟩ := List.exists_cons_of_ne_nil nonempty
  by_cases escape : c = options.platform.escapeMark
  · subst escape
    cases more with
    | nil => exact absurd rfl pending
    | cons d rest => exact ⟨_, _, .escaped d rest⟩
  · by_cases named : ∃ tokens rest, NamesClass (c :: more) tokens rest
    · obtain ⟨tokens, rest, named⟩ := named
      exact ⟨tokens, rest, .named named⟩
    · exact ⟨_, _, .plain c more escape fun tokens rest isNamed => named ⟨tokens, rest, isNamed⟩⟩

theorem scan?_cons (place : Place) (c : Char) (rest : List Char) :
    scan? options place (c :: rest) =
      (step options place c rest).bind fun (next, tokens) =>
        (scan? options next rest).map (tokens ++ ·) := by
  rw [scan?]

/-- A step that completes no token. -/
theorem scan?_of_step {place : Place} (next : Place) {c : Char} {rest : List Char}
    (moves : step options place c rest = some (next, [])) :
    scan? options place (c :: rest) = scan? options next rest := by
  simp [scan?_cons, moves]

/-- The rest of a reference to a named class is skipped. -/
theorem scan?_reference (options : Options) (cls : CharClass) (skipped rest : List Char)
    (nonempty : skipped ≠ []) :
    scan? options (.bracket cls (.reference skipped.length)) (skipped ++ rest) =
      scan? options (.bracket cls .body) rest := by
  induction skipped with
  | nil => exact absurd rfl nonempty
  | cons c more ih =>
    cases more with
    | nil => exact scan?_of_step _ rfl
    | cons d others => rw [← ih (List.cons_ne_nil _ _)]; exact scan?_of_step _ rfl

/-- Inside a bracket the scanner goes over a member as a whole. A `]` has to come first to be one,
and so has a `!` that does not negate the bracket. -/
theorem scan?_member (member : Member options text tokens middle) (cls : CharClass)
    (early : text.head? = some ']' → cls.tokens = [])
    (unmarked : text.head? = some '!' → cls ≠ ⟨false, []⟩) :
    scan? options (.bracket cls .body) text =
      scan? options (.bracket { cls with tokens := cls.tokens ++ tokens } .body) middle := by
  cases member with
  | escaped c rest =>
    rw [scan?_of_step (.bracket cls .escape) (by simp [step, stepBody]),
      scan?_of_step _ (by rfl)]
  | plain c _ notEscape unnamed =>
    have notMark : ¬(c = '!' ∧ cls = ⟨false, []⟩) := fun both => unmarked (by simp [both.1]) both.2
    have notCloser : ¬(c = ']' ∧ cls.tokens ≠ []) := fun both => both.2 (early (by simp [both.1]))
    have noReference : (if c = '[' ∧ middle.head? = some ':' then NamedClass.ofReference? middle.tail
        else none) = none := by
      split
      · next both =>
        obtain ⟨rfl, colon⟩ := both
        obtain ⟨more, rfl⟩ := List.head?_eq_some_iff.mp colon
        cases found : NamedClass.ofReference? more with
        | none => rw [List.tail_cons, found]
        | some reference =>
          obtain ⟨name, after, noColon, known, rfl, _⟩ := NamedClass.ofReference?_eq_some_iff.mp found
          exact (unnamed _ _ ⟨name, noColon, known, rfl⟩).elim
      · rfl
    apply scan?_of_step
    simp only [step, stepBody, notEscape, notMark, notCloser, if_false, noReference]
  | named named =>
    obtain ⟨name, noColon, known, rfl⟩ := named
    have found : NamedClass.ofReference? (name ++ ':' :: ']' :: middle) =
        some (tokens, name.length + 2) :=
      NamedClass.ofReference?_eq_some_iff.mpr ⟨name, middle, noColon, known, rfl, rfl⟩
    have notEscape : '[' ≠ options.platform.escapeMark := ne_escapeMark (by simp)
    have skips := scan?_reference options
      { cls with tokens := cls.tokens ++ tokens } (':' :: (name ++ [':', ']'])) middle (by simp)
    simp only [List.length_cons, List.length_append, List.length_nil, List.cons_append,
      List.append_assoc, List.nil_append] at skips
    rw [← skips]
    apply scan?_of_step
    simp [step, stepBody, notEscape, found]

/-- Inside a bracket the scanner goes over all members up to the `]` that closes it. -/
theorem scan?_members {first : Bool} (members : Members options first text tokens rest)
    (cls : CharClass) (isFirst : first = true ↔ cls.tokens = [])
    (unmarked : text.head? = some '!' → cls ≠ ⟨false, []⟩) :
    scan? options (.bracket cls .body) text =
      afterBracket? options { cls with tokens := cls.tokens ++ tokens } rest := by
  induction members generalizing cls with
  | close rest =>
    have kept : cls.tokens ≠ [] := fun none => Bool.false_ne_true (isFirst.mpr none)
    have notEscape : ']' ≠ options.platform.escapeMark := ne_escapeMark (by simp)
    rw [scan?_cons, afterBracket?]
    by_cases valid : cls.isValid = true
    · simp [step, stepBody, notEscape, kept, valid]
    · simp [step, stepBody, notEscape, kept, valid]
  | member early member members ih =>
    have kept : cls.tokens ++ _ ≠ [] := List.append_ne_nil_of_right_ne_nil _ member.ne_nil
    rw [scan?_member member cls (fun closer => isFirst.mp (early closer)) unmarked,
      ih _ (by simp [kept]) (fun _ same => kept (congrArg CharClass.tokens same)),
      List.append_assoc]

/-- The scanner reads a bracket as a whole. -/
theorem scan?_bracket {cls : CharClass} (bracket : Bracket options text cls rest) :
    scan? options .between text = afterBracket? options cls rest := by
  have notEscape : '[' ≠ options.platform.escapeMark := ne_escapeMark (by simp)
  have opens (rest : List Char) :
      scan? options .between ('[' :: rest) = scan? options (.bracket ⟨false, []⟩ .body) rest := by
    apply scan?_of_step
    simp [step, stepBetween, notEscape, GroupKind.ofOperator?]
  cases bracket with
  | negated members =>
    have marks : '!' ≠ options.platform.escapeMark := ne_escapeMark (by simp)
    rw [opens, scan?_of_step (.bracket ⟨true, []⟩ .body) (by simp [step, stepBody, marks]),
      scan?_members members ⟨true, []⟩ (by simp) (by simp)]
    rfl
  | plain unmarked members =>
    rw [opens, scan?_members members ⟨false, []⟩ (by simp) fun marked => absurd marked unmarked]
    rfl

/-- Where the scanner does not give up inside a bracket, its members and the closing `]` follow. -/
theorem exists_members_of_scan? (cls : CharClass)
    (unmarked : text.head? = some '!' → cls ≠ ⟨false, []⟩)
    (scanned : (scan? options (.bracket cls .body) text).isSome) :
    ∃ tokens rest, Members options cls.tokens.isEmpty text tokens rest := by
  induction size : text.length using Nat.strong_induction_on generalizing text cls with
  | _ size shorter =>
    have nonempty : text ≠ [] := by
      rintro rfl
      cases scanned
    have pending : text ≠ [options.platform.escapeMark] := by
      rintro rfl
      rw [scan?_of_step (.bracket cls .escape) (by simp [step, stepBody])] at scanned
      cases scanned
    by_cases closes : text.head? = some ']' ∧ cls.tokens ≠ []
    · obtain ⟨rest, rfl⟩ := List.head?_eq_some_iff.mp closes.1
      refine ⟨[], rest, ?_⟩
      rw [List.isEmpty_eq_false_iff.mpr closes.2]
      exact .close rest
    · obtain ⟨tokens, middle, member⟩ := exists_member nonempty pending
      have early : text.head? = some ']' → cls.tokens = [] := fun closer =>
        by_contra fun kept => closes ⟨closer, kept⟩
      rw [scan?_member member cls early unmarked] at scanned
      have kept : cls.tokens ++ tokens ≠ [] := List.append_ne_nil_of_right_ne_nil _ member.ne_nil
      obtain ⟨others, rest, members⟩ := shorter middle.length (size ▸ member.length_lt)
        { cls with tokens := cls.tokens ++ tokens }
        (fun _ same => kept (congrArg CharClass.tokens same)) scanned rfl
      refine ⟨tokens ++ others, rest, .member (fun closer => by simp [early closer]) member ?_⟩
      rwa [List.isEmpty_eq_false_iff.mpr kept] at members

/-- Where the scanner does not give up after a `[`, a bracket stands that means something. -/
theorem exists_bracket_of_scan? (scanned : (scan? options .between ('[' :: text)).isSome) :
    ∃ cls rest, Bracket options ('[' :: text) cls rest ∧ cls.isValid = true := by
  have exists_bracket : ∃ cls rest, Bracket options ('[' :: text) cls rest := by
    have notEscape : '[' ≠ options.platform.escapeMark := ne_escapeMark (by simp)
    rw [scan?_of_step (.bracket ⟨false, []⟩ .body)
      (by simp [step, stepBetween, notEscape, GroupKind.ofOperator?])] at scanned
    by_cases marked : text.head? = some '!'
    · obtain ⟨more, rfl⟩ := List.head?_eq_some_iff.mp marked
      have marks : '!' ≠ options.platform.escapeMark := ne_escapeMark (by simp)
      rw [scan?_of_step (.bracket ⟨true, []⟩ .body) (by simp [step, stepBody, marks])]
        at scanned
      obtain ⟨tokens, rest, members⟩ := exists_members_of_scan? _ (by simp) scanned
      exact ⟨_, rest, .negated members⟩
    · obtain ⟨tokens, rest, members⟩ :=
        exists_members_of_scan? _ (fun isMarked => absurd isMarked marked) scanned
      exact ⟨_, rest, .plain marked members⟩
  obtain ⟨cls, rest, bracket⟩ := exists_bracket
  refine ⟨cls, rest, bracket, ?_⟩
  rw [scan?_bracket bracket, afterBracket?] at scanned
  by_contra invalid
  simp [invalid] at scanned

end GlobGrammar

end PathGlob
