import PathGlob.Glob.Reader
import PathGlob.Proofs.SegmentReading

/-! # Reading a segment in place

A cursor reads a segment in the text of a whole glob as if the segment stood alone
(`GlobSegment.read_eq_ofText`). It looks at characters outside of the segment, but beside a segment
there are only separators or nothing, and none of the characters that it looks for is a separator.

The cursor is followed round by round. `Cursor.resume?` is what the tokens of the segment come to,
given those behind the cursor and the text ahead of it. No round changes this
(`Cursor.Fits.follows_advance?`), and behind the last round it is what the cursor holds.
-/

namespace PathGlob

namespace Cursor

open GlobToken GlobGrammar

variable {options : Options} {text after todo taken rest : List Char} {stop : Nat}
variable {cursor next : Cursor} {c : Char}

/-- Where a reader of the segment alone would stand. -/
def reading (cursor : Cursor) : Place :=
  match cursor.bracket?, cursor.escaped with
  | none, false => .between
  | none, true => .escape
  | some cls, false => .bracket cls .body
  | some cls, true => .bracket cls .escape

/-- Right behind the cursor stands a bracket, and a `+` ahead of it repeats the bracket. -/
def Repeats (options : Options) (cursor : Cursor) (todo : List Char) : Prop :=
  cursor.reading = .between ∧ cursor.closedAt? = some cursor.place ∧ isRepeat options todo = true

instance : Decidable (cursor.Repeats options todo) :=
  inferInstanceAs (Decidable (_ ∧ _ ∧ _))

/-- The tokens of a segment, given a cursor and the text ahead of it. -/
def resume? (options : Options) (cursor : Cursor) (todo : List Char) : Option (List GlobToken) :=
  if cursor.Repeats options todo then
    (scan? options .tail todo).map ((repeatLast cursor.tokens).reverse ++ ·)
  else (scan? options cursor.reading todo).map (cursor.tokens.reverse ++ ·)

/-- A cursor stands in a segment, of which `todo` is ahead of it, and `after` follows the segment. -/
structure Fits (options : Options) (text after : List Char) (stop : Nat) (cursor : Cursor)
    (todo : List Char) : Prop where
  ahead : text.drop cursor.place = todo ++ after
  bound : cursor.place + todo.length = stop
  inside : ∀ c ∈ todo, options.platform.isSeparator c = false
  apart : options.platform.isBoundary after.head? = true
  /-- What is ahead could only be a globstar at the start of the segment. -/
  shaped : options.platform.isBoundary (before? text cursor.place) = true →
    options.globstar = true → todo ≠ ['*', '*']
  single : cursor.globstar = false
  closed : ∀ place, cursor.closedAt? = some place → place ≤ cursor.place
  /-- The mark that would negate a bracket is behind the cursor. -/
  marked : cursor.reading = .bracket ⟨false, []⟩ .body → todo.head? ≠ some '!'

private theorem not_isSeparator_sign (platform : Platform) {sign : Char}
    (isSign : sign ∈ ['(', ':', '!', '^', '*', ']']) : platform.isSeparator sign = false := by
  have none : ['(', ':', '!', '^', '*', ']'].all (!platform.isSeparator ·) = true := by
    cases platform <;> decide
  simpa using List.all_eq_true.mp none sign isSign

namespace Fits

/-- A character ahead of the cursor, by its distance. -/
private theorem getElem?_add (fits : Fits options text after stop cursor todo) (distance : Nat) :
    text[cursor.place + distance]? = (todo ++ after)[distance]? := by
  rw [← fits.ahead, List.getElem?_drop]

/-- No character ahead of the segment is one that the cursor looks for. -/
private theorem head?_append_eq_iff (fits : Fits options text after stop cursor todo) (part : List Char)
    {sign : Char} (isSign : sign ∈ ['(', ':', '!', '^', '*', ']']) :
    (part ++ after).head? = some sign ↔ part.head? = some sign := by
  cases part with
  | nil =>
    have apart := fits.apart
    refine ⟨fun starts => ?_, fun starts => by cases starts⟩
    rw [List.nil_append] at starts
    rw [starts] at apart
    exact absurd apart (Bool.eq_false_iff.mp (not_isSeparator_sign options.platform isSign))
  | cons c part => rfl

/-- The next character that the cursor looks at is one in the segment. -/
private theorem next_eq_iff (fits : Fits options text after stop cursor (c :: rest)) {sign : Char}
    (isSign : sign ∈ ['(', ':', '!', '^', '*', ']']) :
    text[cursor.place + 1]? = some sign ↔ rest.head? = some sign := by
  rw [fits.getElem?_add, List.cons_append, List.getElem?_cons_succ, ← List.head?_eq_getElem?,
    fits.head?_append_eq_iff rest isSign]

/-- Behind a character of the segment, the cursor does not stand at the start. -/
private theorem isBoundary_before? (fits : Fits options text after stop cursor (taken ++ rest))
    (nonempty : taken ≠ []) :
    options.platform.isBoundary (before? text (cursor.place + taken.length)) = false := by
  obtain ⟨front, last, rfl⟩ : ∃ front last, taken = front ++ [last] :=
    ⟨_, _, (List.dropLast_concat_getLast nonempty).symm⟩
  have isLast : text[cursor.place + front.length]? = some last := by
    rw [fits.getElem?_add]
    simp
  rw [List.length_append, List.length_singleton, ← Nat.add_assoc, before?, isLast]
  exact fits.inside last (by simp)

/-- The cursor goes over characters of the segment. -/
theorem move (fits : Fits options text after stop cursor (taken ++ rest)) (nonempty : taken ≠ [])
    (place : next.place = cursor.place + taken.length) (single : next.globstar = false)
    (closed : ∀ place, next.closedAt? = some place → place ≤ next.place)
    (marked : next.reading = .bracket ⟨false, []⟩ .body → rest.head? ≠ some '!') :
    Fits options text after stop next rest where
  ahead := by
    rw [place, ← List.drop_drop, fits.ahead, List.append_assoc, List.drop_left]
  bound := by
    rw [place, ← fits.bound, List.length_append, Nat.add_assoc]
  inside := fun c isAhead => fits.inside c (List.mem_append_right _ isAhead)
  apart := fits.apart
  shaped := fun boundary => by
    rw [place, fits.isBoundary_before? nonempty] at boundary
    cases boundary
  single := single
  closed := closed
  marked := marked

end Fits

private theorem resume?_eq (once : ¬cursor.Repeats options todo) :
    cursor.resume? options todo =
      (scan? options cursor.reading todo).map (cursor.tokens.reverse ++ ·) :=
  if_neg once

private theorem isRepeat_cons_iff :
    isRepeat options (c :: rest) = true ↔
      c = '+' ∧ options.extended = true ∧ rest.head? ≠ some '(' := by
  unfold isRepeat
  split
  · next same =>
    obtain ⟨rfl, rfl⟩ := List.cons.inj same
    simp
  · next other =>
    simp only [Bool.false_eq_true, false_iff, not_and]
    exact fun isPlus => absurd (isPlus ▸ rfl) (other rest)

/-- Only a `+` between tokens repeats a bracket. -/
private theorem not_repeats (differs : cursor.reading ≠ .between ∨ c ≠ '+') :
    ¬cursor.Repeats options (c :: rest) := by
  rintro ⟨between, _, repeats⟩
  exact differs.elim (· between) (· (isRepeat_cons_iff.mp repeats).1)

/-- The outcome of a round is in keeping with what the tokens of the segment come to: there are none,
or the cursor has gone on and they are the same. -/
def Follows (options : Options) (text after : List Char) (stop : Nat) (cursor : Cursor)
    (todo : List Char) : Option Cursor → Prop
  | none => cursor.resume? options todo = none
  | some next => ∃ rest, Fits options text after stop next rest ∧ rest.length < todo.length ∧
    next.resume? options rest = cursor.resume? options todo

/-- A cursor stands so many characters behind another one, with no globstar or bracket in between. -/
def GoesOver (next cursor : Cursor) (count : Nat) : Prop :=
  next.place = cursor.place + count ∧ next.globstar = cursor.globstar ∧
    next.closedAt? = cursor.closedAt?

namespace Fits

/-- A round that goes over characters of the segment, without closing a bracket. -/
theorem follows (fits : Fits options text after stop cursor todo) (taken rest : List Char)
    (splits : todo = taken ++ rest) (nonempty : taken ≠ [])
    (goesOver : next.GoesOver cursor taken.length)
    (marked : next.reading = .bracket ⟨false, []⟩ .body → rest.head? ≠ some '!')
    (same : (scan? options next.reading rest).map (next.tokens.reverse ++ ·) =
      cursor.resume? options todo) :
    Follows options text after stop cursor todo (some next) := by
  subst splits
  obtain ⟨place, single, closed⟩ := goesOver
  have further := List.length_pos_iff.mpr nonempty
  have behind : ∀ place, next.closedAt? = some place → place < next.place := by
    intro place isClosed
    have := fits.closed place (closed ▸ isClosed)
    omega
  refine ⟨rest, fits.move nonempty place (single.trans fits.single)
    (fun place isClosed => (behind place isClosed).le) marked, ?_, ?_⟩
  · rw [List.length_append]
    omega
  · rw [← same]
    exact resume?_eq fun repeats => (behind _ repeats.2.1).false

end Fits

/-- A character that follows an escape mark. -/
private theorem Fits.follows_escaped (fits : Fits options text after stop cursor (c :: rest))
    (escaped : cursor.escaped = true) :
    Follows options text after stop cursor (c :: rest) (cursor.advance? options text stop c) := by
  rw [advance?, if_pos escaped]
  cases bracket : cursor.bracket? with
  | none =>
    have reading : cursor.reading = .escape := by simp [reading, bracket, escaped]
    dsimp only
    refine fits.follows [c] rest rfl (by simp) ⟨rfl, rfl, rfl⟩ ?_ ?_
    · simp [Cursor.reading, push, skip, bracket]
    · rw [resume?_eq (not_repeats (.inl (by simp [reading]))), reading, scan?_cons]
      simp [step, Cursor.reading, push, skip, bracket, Function.comp_def]
  | some cls =>
    have reading : cursor.reading = .bracket cls .escape := by simp [reading, bracket, escaped]
    dsimp only
    refine fits.follows [c] rest rfl (by simp) ⟨rfl, rfl, rfl⟩ ?_ ?_
    · simp [Cursor.reading, hold, skip]
    · rw [resume?_eq (not_repeats (.inl (by simp [reading]))), reading, scan?_cons]
      simp [step, Cursor.reading, hold, skip]

/-- An escape mark, inside or outside of a bracket. -/
private theorem Fits.follows_escapeMark
    (fits : Fits options text after stop cursor (options.platform.escapeMark :: rest))
    (plain : cursor.escaped = false) :
    Follows options text after stop cursor (options.platform.escapeMark :: rest)
      (cursor.advance? options text stop options.platform.escapeMark) := by
  have notPlus : options.platform.escapeMark ≠ '+' := by cases options.platform <;> decide
  rw [advance?, if_neg (by simp [plain]), if_pos rfl]
  refine fits.follows [options.platform.escapeMark] rest rfl (by simp) ⟨rfl, rfl, rfl⟩ ?_ ?_
  · cases bracket : cursor.bracket? <;> simp [Cursor.reading, skip, bracket]
  · rw [resume?_eq (not_repeats (.inr notPlus)), scan?_cons]
    cases bracket : cursor.bracket? <;>
      simp [Cursor.reading, skip, bracket, plain, step, stepBetween, stepBody]

/-- Behind `[:` a reference to a named class is found if the segment goes on with one. -/
private theorem Fits.namedClass?_eq (fits : Fits options text after stop cursor ('[' :: ':' :: rest)) :
    namedClass? text stop cursor.place =
      (NamedClass.ofReference? rest).map
        fun (tokens, length) => (tokens, cursor.place + 2 + length) := by
  have size := fits.bound
  simp only [List.length_cons] at size
  have segment : (text.take stop).drop (cursor.place + 2) = rest := by
    rw [List.drop_take, ← List.drop_drop, fits.ahead, show stop - _ = rest.length by omega]
    exact List.take_left
  rw [namedClass?, segment, NamedClass.ofReference?]
  have cut : rest.takeWhile (· != ':') ++ rest.dropWhile (· != ':') = rest :=
    List.takeWhile_append_dropWhile
  have colon := List.head?_dropWhile_not (· != ':') rest
  generalize rest.takeWhile (· != ':') = name at cut ⊢
  generalize rest.dropWhile (· != ':') = behind at cut colon ⊢
  subst cut
  cases behind with
  | nil =>
    rw [List.append_nil] at size
    exact if_neg fun inside => by omega
  | cons d more =>
    obtain rfl : d = ':' := by simpa using colon
    have closes : text[cursor.place + 2 + name.length + 1]? = some ']' ↔ more.head? = some ']' := by
      have distance : cursor.place + 2 + name.length + 1 = cursor.place + (name.length + 3) := by
        omega
      rw [← fits.head?_append_eq_iff more (by simp), distance, fits.getElem?_add]
      simp [List.head?_eq_getElem?, List.getElem?_append_right]
    have inside : cursor.place + 2 + name.length < stop := by
      simp only [List.length_append, List.length_cons] at size
      omega
    simp only [inside, true_and, closes]
    split
    · next starts =>
      obtain ⟨others, rfl⟩ := List.head?_eq_some_iff.mp starts
      cases NamedClass.tokens? name <;> rfl
    · next starts =>
      split
      · next same =>
        obtain ⟨_, rfl⟩ := List.cons.inj same
        exact absurd rfl starts
      · rfl

/-- A reference to a named class is looked for in the text of the glob and found in the segment. -/
private theorem Fits.reference?_eq (fits : Fits options text after stop cursor (c :: rest)) :
    (if c = '[' ∧ text[cursor.place + 1]? = some ':' then namedClass? text stop cursor.place
      else none) =
      (if c = '[' ∧ rest.head? = some ':' then NamedClass.ofReference? rest.tail else none).map
        fun (tokens, length) => (tokens, cursor.place + 2 + length) := by
  have colonNext : text[cursor.place + 1]? = some ':' ↔ rest.head? = some ':' :=
    fits.next_eq_iff (by simp)
  simp only [colonNext]
  split
  · next opens =>
    obtain ⟨rfl, starts⟩ := opens
    obtain ⟨tail, rfl⟩ := List.head?_eq_some_iff.mp starts
    exact fits.namedClass?_eq
  · rfl

section

variable {cls : CharClass} (bracket : cursor.bracket? = some cls) (plain : cursor.escaped = false)

include bracket plain

private theorem reading_eq_bracket : cursor.reading = .bracket cls .body := by
  rw [reading, bracket, plain]

/-- A reference to a named class in a bracket. -/
private theorem Fits.follows_reference {tokens : List ClassToken} {length : Nat}
    (fits : Fits options text after stop cursor ('[' :: ':' :: rest))
    (found : NamedClass.ofReference? rest = some (tokens, length)) :
    Follows options text after stop cursor ('[' :: ':' :: rest)
      (some { cursor.hold cls tokens with place := cursor.place + 2 + length }) := by
  have notMark : '[' ≠ options.platform.escapeMark := by cases options.platform <;> decide
  have inBody := reading_eq_bracket bracket plain
  obtain ⟨name, behind, _, known, rfl, rfl⟩ := NamedClass.ofReference?_eq_some_iff.mp found
  have skips := scan?_reference options { cls with tokens := cls.tokens ++ tokens }
    (':' :: (name ++ [':', ']'])) behind (by simp)
  refine fits.follows ('[' :: ':' :: (name ++ [':', ']'])) behind (by simp) (by simp)
    ⟨?_, rfl, rfl⟩ ?_ ?_
  · simp only [List.length_cons, List.length_append, List.length_nil]
    omega
  · simp [reading, hold, plain, NamedClass.ne_nil_of_tokens? known]
  · simp only [List.length_cons, List.length_append, List.length_nil, List.cons_append,
      List.append_assoc, List.nil_append] at skips
    rw [resume?_eq (not_repeats (.inl (by simp [inBody]))), inBody, scan?_of_step _ ?_, skips]
    · simp [reading, hold, plain]
    · simp [step, stepBody, notMark, found]

/-- A `]` that closes a bracket. A `+` behind it counts for the tokens from here on. -/
private theorem Fits.follows_closeBracket (fits : Fits options text after stop cursor (']' :: rest))
    (kept : cls.tokens ≠ []) (valid : cls.isValid = true) :
    Follows options text after stop cursor (']' :: rest)
      (some { (cursor.push (.bracket cls false)).skip 1 with
        bracket? := none, closedAt? := some (cursor.place + 1) }) := by
  have notMark : ']' ≠ options.platform.escapeMark := by cases options.platform <;> decide
  have inBody := reading_eq_bracket bracket plain
  refine ⟨rest, fits.move (List.cons_ne_nil ']' []) ?_ ?_ ?_ ?_, Nat.lt_succ_self _, ?_⟩
  · rfl
  · exact fits.single
  · simp [push, skip]
  · simp [reading, push, skip, plain]
  · rw [resume?_eq (not_repeats (.inl (by simp [inBody]))), inBody, scan?_cons, resume?]
    cases repeats : isRepeat options rest with
    | true =>
      rw [if_pos ⟨by simp [reading, push, skip, plain], rfl, repeats⟩]
      simp [step, stepBody, notMark, kept, valid, repeats, push, skip, repeatLast, Function.comp_def]
    | false =>
      rw [if_neg fun pending => Bool.eq_false_iff.mp repeats pending.2.2]
      simp [step, stepBody, notMark, kept, valid, repeats, push, skip, reading, plain,
        Function.comp_def]

/-- A character in a bracket. -/
private theorem Fits.follows_inBracket? (fits : Fits options text after stop cursor (c :: rest))
    (notMark : c ≠ options.platform.escapeMark) :
    Follows options text after stop cursor (c :: rest) (cursor.inBracket? text stop cls c) := by
  have inBody := reading_eq_bracket bracket plain
  have once : ¬cursor.Repeats options (c :: rest) := not_repeats (.inl (by simp [inBody]))
  have notNegation : ¬(c = '!' ∧ cls = ⟨false, []⟩) := by
    rintro ⟨rfl, rfl⟩
    exact fits.marked inBody rfl
  rw [inBracket?, fits.reference?_eq]
  cases found : if c = '[' ∧ rest.head? = some ':' then NamedClass.ofReference? rest.tail
    else none with
  | some reference =>
    split at found
    · next opens =>
      obtain ⟨rfl, starts⟩ := opens
      obtain ⟨tail, rfl⟩ := List.head?_eq_some_iff.mp starts
      exact fits.follows_reference bracket plain found
    · cases found
  | none =>
    dsimp only [Option.map_none]
    split
    · next closes =>
      obtain ⟨rfl, kept⟩ := closes
      split
      · next valid => exact fits.follows_closeBracket bracket plain kept valid
      · next invalid =>
        rw [Follows, resume?_eq once, inBody, scan?_cons]
        simp [step, stepBody, notMark, kept, invalid]
    · next holds =>
      refine fits.follows [c] rest rfl (by simp) ⟨rfl, rfl, rfl⟩ ?_ ?_
      · simp [reading, hold, skip, plain]
      · rw [resume?_eq once, inBody, scan?_cons]
        simp [step, stepBody, notMark, notNegation, holds, found, reading, hold, skip, plain]

end

section

variable (plain : cursor.escaped = false) (outside : cursor.bracket? = none)

include plain outside

/-- Outside of brackets and escapes the cursor stands between tokens. -/
private theorem reading_eq_between : cursor.reading = .between := by
  rw [reading, plain, outside]

/-- A `[` outside of brackets. -/
private theorem Fits.follows_openBracket (fits : Fits options text after stop cursor ('[' :: rest)) :
    Follows options text after stop cursor ('[' :: rest) (some (cursor.openBracket text)) := by
  have notMark : '[' ≠ options.platform.escapeMark ∧ '!' ≠ options.platform.escapeMark ∧
      '^' ≠ options.platform.escapeMark := by
    cases options.platform <;> decide
  have opens : cursor.resume? options ('[' :: rest) =
      (scan? options (.bracket ⟨false, []⟩ .body) rest).map (cursor.tokens.reverse ++ ·) := by
    rw [resume?_eq (not_repeats (.inr (by decide))), reading_eq_between plain outside]
    rw [scan?_of_step (.bracket ⟨false, []⟩ .body)]
    simp [step, stepBetween, notMark, GroupKind.ofOperator?]
  rw [openBracket]
  split
  · next starts =>
    obtain ⟨rest, rfl⟩ := List.head?_eq_some_iff.mp ((fits.next_eq_iff (by simp)).mp starts)
    refine fits.follows ['[', '!'] rest rfl (by simp) ⟨rfl, rfl, rfl⟩ ?_ ?_
    · simp [reading, skip, plain]
    · rw [opens, scan?_of_step (.bracket ⟨true, []⟩ .body) (by simp [step, stepBody, notMark])]
      simp [reading, skip, plain]
  · next starts =>
    obtain ⟨rest, rfl⟩ := List.head?_eq_some_iff.mp ((fits.next_eq_iff (by simp)).mp starts)
    refine fits.follows ['[', '^'] rest rfl (by simp) ⟨rfl, rfl, rfl⟩ ?_ ?_
    · simp [reading, skip, plain]
    · rw [opens, scan?_of_step (.bracket ⟨false, [.plain '^']⟩ .body) (by simp [step, stepBody, notMark])]
      simp [reading, skip, plain]
  · next notNegated _ =>
    refine fits.follows ['['] rest rfl (by simp) ⟨rfl, rfl, rfl⟩ ?_ ?_
    · exact fun _ starts => notNegated ((fits.next_eq_iff (by simp)).mpr starts)
    · rw [opens]
      simp [reading, skip, plain]

/-- Stars outside of brackets. -/
private theorem Fits.follows_overStars (fits : Fits options text after stop cursor ('*' :: rest))
    (opensNone : (if options.extended && rest.head? == some '(' then GroupKind.ofOperator? '*'
      else none) = none) :
    Follows options text after stop cursor ('*' :: rest) (some (cursor.overStars options text)) := by
  have notMark : '*' ≠ options.platform.escapeMark := by cases options.platform <;> decide
  obtain ⟨more, rest, rfl, complete⟩ := exists_replicate_star rest
  have behind : (text.drop (cursor.place + 1)).takeWhile (· == '*') = List.replicate more '*' := by
    have isComplete : (rest ++ after).takeWhile (· == '*') = [] := by
      have apart := mt (fits.head?_append_eq_iff rest (by simp)).mp complete
      cases ahead : rest ++ after with
      | nil => rfl
      | cons d others =>
        have notStar : d ≠ '*' := fun star => apart (by rw [ahead, star]; rfl)
        exact List.takeWhile_cons_of_neg (by simpa using notStar)
    rw [← List.drop_drop, fits.ahead, List.cons_append, List.drop_one, List.tail_cons,
      List.append_assoc, List.takeWhile_append_of_pos (by simp), isComplete, List.append_nil]
  have noGlobstar : ¬(options.globstar && 1 + more == 2 &&
      options.platform.isBoundary (before? text cursor.place) &&
      options.platform.isBoundary text[(cursor.skip (1 + more)).place]?) = true := by
    simp only [Bool.and_eq_true, beq_iff_eq]
    rintro ⟨⟨⟨globstar, two⟩, starts⟩, stops⟩
    obtain rfl : more = 1 := by omega
    rw [skip, fits.getElem?_add] at stops
    cases rest with
    | nil => exact fits.shaped starts globstar rfl
    | cons d rest =>
      have inside := fits.inside d (by simp)
      exact absurd stops (Bool.eq_false_iff.mp inside)
  rw [overStars, behind, List.length_replicate, if_neg noGlobstar]
  refine fits.follows ('*' :: List.replicate more '*') rest rfl (by simp)
    ⟨by simp [push, skip, Nat.add_comm], rfl, rfl⟩ ?_ ?_
  · simp [reading, push, skip, plain, outside]
  · rw [resume?_eq (not_repeats (.inr (by decide))), reading_eq_between plain outside,
      scan?_of_token .stars .anyRun, scan?_stars more complete]
    · simp [reading, push, skip, plain, outside, Function.comp_def]
    · simp only [step, stepBetween, notMark, opensNone, if_false]

/-- An operator that opens a group. -/
private theorem Fits.follows_openGroup {kind : GroupKind}
    (fits : Fits options text after stop cursor (c :: '(' :: rest))
    (notMark : c ≠ options.platform.escapeMark) (extended : options.extended = true)
    (opened : GroupKind.ofOperator? c = some kind) :
    Follows options text after stop cursor (c :: '(' :: rest)
      (some ((cursor.push (.openGroup kind)).skip 2)) := by
  refine fits.follows [c, '('] rest rfl (by simp) ⟨rfl, rfl, rfl⟩ ?_ ?_
  · simp [reading, push, skip, plain, outside]
  · have skips : scan? options .tail ('(' :: rest) = scan? options .between rest :=
      scan?_of_step _ rfl
    have once : ¬cursor.Repeats options (c :: '(' :: rest) :=
      fun repeats => (isRepeat_cons_iff.mp repeats.2.2).2.2 rfl
    rw [resume?_eq once, reading_eq_between plain outside, scan?_of_token .tail (.openGroup kind), skips]
    · simp [reading, push, skip, plain, outside, Function.comp_def]
    · simp [step, stepBetween, notMark, extended, opened]

/-- A `+` right behind a bracket. -/
private theorem Fits.follows_repeat (fits : Fits options text after stop cursor ('+' :: rest))
    (repeats : cursor.Repeats options ('+' :: rest)) :
    Follows options text after stop cursor ('+' :: rest)
      (some { cursor.skip 1 with tokens := repeatLast cursor.tokens }) := by
  refine fits.follows ['+'] rest rfl (by simp) ⟨rfl, rfl, rfl⟩ ?_ ?_
  · simp [reading, skip, plain, outside]
  · rw [resume?, if_pos repeats, scan?_of_step .between rfl]
    simp [reading, skip, plain, outside]

/-- A character outside of brackets. -/
private theorem Fits.follows_between (fits : Fits options text after stop cursor (c :: rest))
    (notMark : c ≠ options.platform.escapeMark) :
    Follows options text after stop cursor (c :: rest) (some (cursor.between options text c)) := by
  have ahead : (text[cursor.place + 1]? == some '(') = (rest.head? == some '(') := by
    rw [Bool.eq_iff_iff, beq_iff_eq, beq_iff_eq, fits.next_eq_iff (by simp)]
  rw [Cursor.between, ahead]
  cases opened : if options.extended && rest.head? == some '(' then GroupKind.ofOperator? c else none with
  | some kind =>
    split at opened
    · next isGroup =>
      rw [Bool.and_eq_true, beq_iff_eq] at isGroup
      obtain ⟨body, rfl⟩ := List.head?_eq_some_iff.mp isGroup.2
      exact fits.follows_openGroup plain outside notMark isGroup.1 opened
    · cases opened
  | none =>
    dsimp only
    split
    · next opens =>
      subst opens
      exact fits.follows_openBracket plain outside
    · next notOpener =>
      split
      · next isStar =>
        subst isStar
        exact fits.follows_overStars plain outside opened
      · next notStar =>
        split
        · next repeats =>
          obtain ⟨rfl, extended, closed⟩ := repeats
          have notGroup : rest.head? ≠ some '(' := by
            rintro starts
            simp [extended, starts, GroupKind.ofOperator?] at opened
          exact fits.follows_repeat plain outside ⟨reading_eq_between plain outside, closed,
            isRepeat_cons_iff.mpr ⟨rfl, extended, notGroup⟩⟩
        · next once =>
          refine fits.follows [c] rest rfl (by simp) ⟨rfl, rfl, rfl⟩ ?_ ?_
          · simp [reading, push, skip, plain, outside]
          · have single : ¬cursor.Repeats options (c :: rest) := by
              rintro ⟨_, closed, repeats⟩
              obtain ⟨isPlus, extended, _⟩ := isRepeat_cons_iff.mp repeats
              exact once ⟨isPlus, extended, closed⟩
            rw [resume?_eq single, reading_eq_between plain outside,
              scan?_of_token .between (.ofChar c)]
            · simp [reading, push, skip, plain, outside, Function.comp_def]
            · simp only [step, stepBetween, notMark, opened, if_false]
              unfold ofChar
              split <;> simp_all

end

/-- A round goes on from what the cursor has read. -/
private theorem Fits.follows_advance? (fits : Fits options text after stop cursor (c :: rest)) :
    Follows options text after stop cursor (c :: rest) (cursor.advance? options text stop c) := by
  by_cases escaped : cursor.escaped = true
  · exact fits.follows_escaped escaped
  have plain := Bool.eq_false_iff.mpr escaped
  by_cases isMark : c = options.platform.escapeMark
  · subst isMark
    exact fits.follows_escapeMark plain
  rw [advance?, if_neg escaped, if_neg isMark]
  cases bracket : cursor.bracket? with
  | some cls => exact fits.follows_inBracket? bracket plain isMark
  | none => exact fits.follows_between plain bracket isMark

/-- At the end of the segment the cursor holds its tokens. -/
theorem Fits.segment?_eq (fits : Fits options text after stop cursor []) :
    cursor.segment? =
      (cursor.resume? options []).bind fun tokens => (Shape.ofTokens? tokens).map .shape := by
  rw [resume?_eq fun repeats => by simp [Repeats, isRepeat] at repeats, segment?]
  cases bracket : cursor.bracket? <;> cases escaped : cursor.escaped <;>
    simp [reading, bracket, escaped, scan?, fits.single]

/-- A run that goes on to the end of the segment reads what is left of it. -/
theorem Fits.run?_eq {rounds : Nat} (fits : Fits options text after stop cursor todo)
    (enough : todo.length ≤ rounds) :
    (cursor.run? options text stop rounds).bind segment? =
      (cursor.resume? options todo).bind fun tokens => (Shape.ofTokens? tokens).map .shape := by
  induction rounds generalizing cursor todo with
  | zero =>
    obtain rfl := List.eq_nil_of_length_eq_zero (Nat.le_zero.mp enough)
    exact fits.segment?_eq
  | succ rounds ih =>
    have bound := fits.bound
    cases todo with
    | nil =>
      rw [run?, if_neg (by simp at bound; omega)]
      exact fits.segment?_eq
    | cons c rest =>
      have ahead : text[cursor.place]? = some c := fits.getElem?_add 0
      rw [run?, if_pos (by simp at bound; omega), ahead]
      have follows := fits.follows_advance?
      dsimp only
      cases advances : cursor.advance? options text stop c with
      | none =>
        rw [advances, Follows] at follows
        rw [follows]
        rfl
      | some next =>
        rw [advances] at follows
        obtain ⟨others, nextFits, shorter, same⟩ := follows
        rw [Option.bind_some, ih nextFits (by simp at enough shorter; omega), same]

private theorem before?_length (before rest : List Char) :
    before? (before ++ rest) before.length = before.getLast? := by
  rcases List.eq_nil_or_concat before with rfl | ⟨front, last, rfl⟩
  · rfl
  · simp [before?]

end Cursor

namespace GlobSegment

open GlobToken

variable {options : Options} {text before segment after : List Char}

/-- Two stars with nothing beside them are a globstar. -/
theorem read_globstar {start : Nat} (globstar : options.globstar = true)
    (ahead : text.drop start = '*' :: '*' :: after)
    (starts : options.platform.isBoundary (Cursor.before? text start) = true)
    (stops : options.platform.isBoundary after.head? = true) :
    GlobSegment.read options text start (start + 2) = .globstar := by
  have notMark : '*' ≠ options.platform.escapeMark := by cases options.platform <;> decide
  have isAhead (distance : Nat) : text[start + distance]? = ('*' :: '*' :: after)[distance]? := by
    rw [← List.getElem?_drop, ahead]
  have stars : (text.drop (start + 1)).takeWhile (· == '*') = ['*'] := by
    rw [← List.drop_drop, ahead]
    cases after with
    | nil => rfl
    | cons c others =>
      have notStar : c ≠ '*' := by
        rintro rfl
        exact absurd stops (Bool.eq_false_iff.mp (Cursor.not_isSeparator_sign _ (by simp)))
      simp [notStar]
  have whole : Cursor.overStars options text { place := start } =
      { place := start + 2, globstar := true } := by
    have stopsThere : options.platform.isBoundary text[start + 2]? = true := by
      rw [isAhead, ← stops, List.head?_eq_getElem?]
      rfl
    rw [Cursor.overStars, stars]
    exact if_pos (by simp [globstar, starts, Cursor.skip, stopsThere])
  have run : Cursor.run? options text (start + 2) 2 { place := start } =
      some { place := start + 2, globstar := true } := by
    have next : text[start + 1]? = some '*' := isAhead 1
    have first : text[start]? = some '*' := isAhead 0
    simp [Cursor.run?, first, Cursor.advance?, notMark, Cursor.between, next, whole]
  rw [GlobSegment.read, Nat.add_sub_cancel_left, run]
  rfl

/-- A segment reads in the text of a glob as it reads alone, whatever stands before and after it. -/
theorem read_eq_ofText (inside : ∀ c ∈ segment, options.platform.isSeparator c = false)
    (starts : options.platform.isBoundary before.getLast? = true)
    (stops : options.platform.isBoundary after.head? = true) :
    GlobSegment.read options (before ++ segment ++ after) before.length
      (before.length + segment.length) = GlobSegment.ofText options segment := by
  have starts : options.platform.isBoundary
      (Cursor.before? (before ++ segment ++ after) before.length) = true := by
    rwa [List.append_assoc, Cursor.before?_length]
  have ahead : (before ++ segment ++ after).drop before.length = segment ++ after := by
    rw [List.append_assoc, List.drop_left]
  by_cases isGlobstar : options.globstar = true ∧ segment = ['*', '*']
  · obtain ⟨globstar, rfl⟩ := isGlobstar
    rw [GlobSegment.ofText, if_pos ⟨globstar, rfl⟩]
    exact read_globstar globstar ahead starts stops
  have fits : Cursor.Fits options (before ++ segment ++ after) after
      (before.length + segment.length) { place := before.length } segment := {
    ahead := ahead
    bound := rfl
    inside := inside
    apart := stops
    shaped := fun _ globstar stars => isGlobstar ⟨globstar, stars⟩
    single := rfl
    closed := fun _ isClosed => by cases isClosed
    marked := fun inBracket => by cases inBracket }
  have slice : ((before ++ segment ++ after).take (before.length + segment.length)).drop
      before.length = segment := by
    rw [← List.length_append, List.take_left, List.drop_left]
  rw [GlobSegment.read, Nat.add_sub_cancel_left, fits.run?_eq le_rfl, slice, GlobSegment.ofText,
    if_neg isGlobstar, Cursor.resume?_eq fun repeats => by cases repeats.2.1]
  rw [Shape.ofSegment, Shape.ofSegment?, GlobToken.ofSegment?, Cursor.reading]
  cases scan? options .between segment with
  | none => rfl
  | some tokens => cases complete : Shape.ofTokens? tokens <;> simp [complete]

end GlobSegment

end PathGlob
