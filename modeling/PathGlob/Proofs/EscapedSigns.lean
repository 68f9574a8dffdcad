import PathGlob.Proofs.SignReading

/-! # Signs that an escaped character makes

An escaped character is no sign of a glob itself, so a text should not lose its signs when a letter
takes the place of the character and its backslash. It does in two cases (`Sign.MakesSign`). Behind
an escape pair the reader stands as at the start of a text, where a `!` is a sign; and a bar parts
the alternatives in parentheses whether it is escaped or not.
-/

namespace PathGlob

namespace Sign

/-- A text falls into escape pairs, each a backslash with the character behind it, and other
characters. -/
inductive IsPaired : List Char → Prop
  | nil : IsPaired []
  | single {c : Char} {text : List Char} (unescaping : c ≠ '\\') (paired : IsPaired text) :
      IsPaired (c :: text)
  | pair {text : List Char} (c : Char) (paired : IsPaired text) : IsPaired ('\\' :: c :: text)

/-- An escape pair makes a sign of what stands around it. -/
inductive MakesSign (front : List Char) (c : Char) (back : List Char) : Prop
  /-- A `!` behind it counts as one at the start of a text. -/
  | mark (outside : (Place.start.after front ('\\' :: c :: back)).IsOutside)
      (marked : back.head? = some '!')
  /-- Its bar counts as the first one behind an opening parenthesis. -/
  | bar {before inner : List Char} (opened : front = before ++ '(' :: inner)
      (outside : (Place.start.after before ('(' :: inner ++ '\\' :: c :: back)).IsOutside)
      (first : '|' ∉ inner) (isBar : c = '|') (closed : isClosed ')' back = true)

/-- Two texts that cannot be told apart by where the reader goes on in front of them. -/
structure LooksAlike (rest other : List Char) : Prop where
  hides : rest.head?.any (· != '\n') = other.head?.any (· != '\n')
  closes : ∀ opener closer, closer? opener = some closer → rest.contains closer = other.contains closer

variable {place : Place} {closer c d : Char} {front back rest other text : List Char} {first : Bool}

private theorem IsPaired.isBetween_after (paired : IsPaired front) (between : place.IsBetween) :
    (place.after front rest).IsBetween := by
  induction paired generalizing place with
  | nil => exact between
  | single unescaping _ ih => exact ih (between.next unescaping _)
  | pair c _ ih => exact ih (between.after_pair c _)

section Alike

variable (alike : LooksAlike rest other)

include alike

theorem LooksAlike.append_left (front : List Char) : LooksAlike (front ++ rest) (front ++ other) where
  hides := by cases front <;> simp [alike.hides]
  closes opener closer closes := by
    have same := alike.closes opener closer closes
    simp only [List.contains_eq_mem, List.mem_append, Bool.decide_or] at same ⊢
    rw [same]

private theorem LooksAlike.next_eq (place : Place) (c : Char) :
    place.next c rest = place.next c other := by
  cases place with
  | start => rw [Place.next_of_outside (.inl rfl), Place.next_of_outside (.inl rfl), alike.hides]
  | inside => rw [Place.next_of_outside (.inr rfl), Place.next_of_outside (.inr rfl), alike.hides]
  | hidden => rfl
  | escape =>
    rw [Place.next_escape, Place.next_escape, Place.afterHidden, Place.afterHidden]
    split
    · next closer closes => rw [alike.closes c closer closes]
    · rfl

private theorem LooksAlike.after_eq (front : List Char) (place : Place) :
    place.after front rest = place.after front other := by
  induction front generalizing place with
  | nil => rfl
  | cons c front ih => rw [Place.after, Place.after, (alike.append_left front).next_eq, ih]

end Alike

section Signs

/-- What is closed before a backslash is closed without it. -/
theorem isClosed_of_append_backslash (closes : '\\' ≠ closer)
    (closed : isClosed closer (text ++ '\\' :: rest) = true) : isClosed closer text = true := by
  obtain ⟨inner, behind, cut, some, inside⟩ := isClosed_iff.mp closed
  rcases List.append_eq_append_iff.mp cut with ⟨more, rfl, same⟩ | ⟨more, rfl, same⟩
  · rcases List.cons_eq_append_iff.mp same with ⟨rfl, first⟩ | ⟨more, rfl, -⟩
    · exact absurd (List.cons.inj first).1.symm closes
    · exact absurd rfl (inside '\\' (by simp)).1
  · rcases List.cons_eq_append_iff.mp same with ⟨rfl, first⟩ | ⟨more, rfl, -⟩
    · exact absurd (List.cons.inj first).1 closes
    · exact isClosed_iff.mpr ⟨inner, more, rfl, some, inside⟩

/-- The first bar parts the alternatives. -/
theorem isAlternatives_append_bar {inner : List Char} (first : '|' ∉ inner) :
    isAlternatives (inner ++ '|' :: rest) = true ↔ inner ≠ [] ∧ isClosed ')' rest = true := by
  have holds : ∀ c ∈ inner, (c != '|') = true := by
    intro c isInner
    simpa using ne_of_mem_of_not_mem isInner first
  have behind : (inner ++ '|' :: rest).dropWhile (· != '|') = '|' :: rest := by
    rw [List.dropWhile_append_of_pos holds]
    rfl
  rw [isAlternatives, behind]
  change ((inner ++ '|' :: rest).head? != some '|' && isClosed ')' rest) = true ↔ _
  rw [Bool.and_eq_true]
  refine and_congr_left fun _ => ?_
  cases inner with
  | nil => simp
  | cons c inner => simpa using holds c List.mem_cons_self

private theorem exists_bar_of_isAlternatives (parted : isAlternatives text = true) :
    ∃ inner rest, text = inner ++ '|' :: rest ∧ '|' ∉ inner := by
  have bar : '|' ∈ text := by
    by_contra noBar
    have nothing : text.dropWhile (· != '|') = [] := by
      rw [List.dropWhile_eq_nil_iff]
      intro c inText
      simpa using ne_of_mem_of_not_mem inText noBar
    rw [isAlternatives, nothing] at parted
    cases parted
  obtain ⟨inner, rest, cut, first⟩ := List.eq_append_cons_of_mem bar
  exact ⟨inner, rest, cut, first⟩

/-- A parenthesis before an escape pair has alternatives without the pair as well, unless the pair
holds the bar between them. -/
theorem isAlternatives_replaced
    (parted : isAlternatives (text ++ '\\' :: c :: back) = true) :
    isAlternatives (text ++ 'x' :: back) = true ∨
      '|' ∉ text ∧ c = '|' ∧ isClosed ')' back = true := by
  obtain ⟨inner, rest, cut, first⟩ := exists_bar_of_isAlternatives parted
  rw [cut, isAlternatives_append_bar first] at parted
  obtain ⟨some, closed⟩ := parted
  rcases List.append_eq_append_iff.mp cut with ⟨more, rfl, same⟩ | ⟨more, rfl, same⟩
  · rcases List.cons_eq_append_iff.mp same with ⟨rfl, bar⟩ | ⟨more, rfl, behind⟩
    · cases bar
    · rcases List.cons_eq_append_iff.mp behind with ⟨rfl, bar⟩ | ⟨more, rfl, rfl⟩
      · obtain ⟨rfl, rfl⟩ := List.cons.inj bar
        exact .inr ⟨fun early => first (List.mem_append_left _ early), rfl, closed⟩
      · have parts : text ++ 'x' :: (more ++ '|' :: rest) = (text ++ 'x' :: more) ++ '|' :: rest := by
          simp
        left
        rw [parts, isAlternatives_append_bar (by simp_all)]
        exact ⟨by simp, closed⟩
  · rcases List.cons_eq_append_iff.mp same with ⟨rfl, bar⟩ | ⟨more, rfl, rfl⟩
    · cases bar
    · left
      apply isAlternatives_append
      rw [isAlternatives_append_bar first]
      exact ⟨some, isClosed_of_append_backslash (by decide) closed⟩

/-- A sign before an escape pair is one without the pair as well, unless it is a parenthesis and the
pair holds the bar between its alternatives. -/
theorem isSign_replaced (sign : isSign first d (text ++ '\\' :: c :: back) = true) :
    isSign first d (text ++ 'x' :: back) = true ∨
      d = '(' ∧ '|' ∉ text ∧ c = '|' ∧ isClosed ')' back = true := by
  unfold isSign at sign ⊢
  split at sign
  · exact .inl rfl
  · exact .inl rfl
  · exact .inl sign
  · exact .inl (isClosed_append (isClosed_of_append_backslash (by decide) sign) _)
  · exact .inl (isClosed_append (isClosed_of_append_backslash (by decide) sign) _)
  · exact (isAlternatives_replaced sign).imp_right (And.intro rfl)
  · cases sign

/-- At the start of a text, a `!` is one sign more. -/
theorem isSign_start_iff :
    isSign true c rest = true ↔ c = '!' ∨ isSign false c rest = true := by
  constructor
  · intro sign
    unfold isSign at sign ⊢
    split at sign
    · exact .inr rfl
    · exact .inr rfl
    · exact .inl rfl
    · exact .inr sign
    · exact .inr sign
    · exact .inr sign
    · cases sign
  · rintro (rfl | sign)
    · rfl
    · exact isSign_of_inside sign

private theorem scan_start_iff (text : List Char) :
    scan .start text = true ↔ text.head? = some '!' ∨ scan .inside text = true := by
  cases text with
  | nil => simp [scan_nil]
  | cons c rest =>
    have start : scan .start (c :: rest) = true ↔
        isSign true c rest = true ∨ scan (Place.start.next c rest) rest = true :=
      scan_cons_of_outside (.inl rfl)
    have inside : scan .inside (c :: rest) = true ↔
        isSign false c rest = true ∨ scan (Place.inside.next c rest) rest = true :=
      scan_cons_of_outside (.inr rfl)
    have sameNext : Place.start.next c rest = Place.inside.next c rest := rfl
    rw [start, inside, isSign_start_iff, sameNext, or_assoc, List.head?_cons, Option.some_inj]

end Signs

section Replacing

variable (plain : c ∉ ['\n', '[', ']', '{', '}', '(', ')'])

include plain

private theorem ne_of_closes (closes : closer? d = some closer) : c ≠ d ∧ c ≠ closer := by
  simp only [List.mem_cons, List.not_mem_nil, or_false, not_or] at plain
  obtain ⟨-, openBracket, closeBracket, openBrace, closeBrace, openParen, closeParen⟩ := plain
  simp only [closer?_eq_some_iff, List.mem_cons, Prod.mk.injEq, List.not_mem_nil, or_false] at closes
  rcases closes with ⟨rfl, rfl⟩ | ⟨rfl, rfl⟩ | ⟨rfl, rfl⟩
  · exact ⟨openBracket, closeBracket⟩
  · exact ⟨openBrace, closeBrace⟩
  · exact ⟨openParen, closeParen⟩

private theorem closer?_eq_none : closer? c = none := by
  cases opens : closer? c with
  | none => rfl
  | some closer => exact absurd rfl (ne_of_closes plain opens).1

/-- In front of an escape pair the reader goes on as it does in front of a letter. -/
theorem looksAlike_replaced (back : List Char) : LooksAlike ('\\' :: c :: back) ('x' :: back) where
  hides := rfl
  closes opener closer closes := by
    have others : c ≠ closer := (ne_of_closes plain closes).2
    have letter : 'x' ≠ closer := (ne_of_closes (by decide) closes).2
    have notBackslash := ne_backslash_of_closes closes
    simp [others.symm, letter.symm, notBackslash.symm]

/-- Behind an escape pair there is a sign more only if a `!` comes next. -/
private theorem scan_pair_iff (between : place.IsBetween) : scan place ('\\' :: c :: back) = true ↔
    (place.IsOutside ∧ back.head? = some '!') ∨ scan place ('x' :: back) = true := by
  have letter : scan place ('x' :: back) = true ↔ scan (place.next 'x' back) back = true :=
    scan_cons_iff.trans (or_iff_right fun both => Bool.false_ne_true both.2)
  rw [scan_pair between, letter]
  rcases between with outside | ⟨opener, closer, closes, rfl⟩
  · have newline : c ≠ '\n' := fun newline => plain (by simp [newline])
    rw [and_iff_right outside, Place.after_pair_of_outside outside, if_neg newline,
      Place.afterHidden, closer?_eq_none plain, Place.next_of_outside outside]
    exact scan_start_iff back
  · have kept : 'x' ≠ closer := (ne_of_closes (by decide) closes).2
    rw [or_iff_right fun both => Place.not_isOutside_hidden closer both.1, Place.after_pair_hidden closes,
      Place.next_hidden, Place.next_hidden, if_neg (ne_of_closes plain closes).2, if_neg kept]

/-- A sign before an escape pair is one before a letter as well, or the pair makes it one. -/
theorem signIn_replaced (signed : SignIn .start front ('\\' :: c :: back)) :
    SignIn .start front ('x' :: back) ∨ MakesSign front c back := by
  obtain ⟨before, d, behind, rfl, outside, sign⟩ := signed
  have sameBehind := (looksAlike_replaced plain back).append_left (d :: behind)
  rcases isSign_replaced sign with kept | ⟨rfl, first, isBar, closed⟩
  · rw [sameBehind.after_eq] at outside kept
    exact .inl ⟨before, d, behind, rfl, outside, kept⟩
  · exact .inr (.bar rfl outside first isBar closed)

/-- A text with an escape pair keeps its signs when a letter takes the place of the pair, or the pair
makes one. -/
theorem scan_replaced (paired : IsPaired front)
    (signed : scan .start (front ++ '\\' :: c :: back) = true) :
    scan .start (front ++ 'x' :: back) = true ∨ MakesSign front c back := by
  have between : (Place.start.after front ('\\' :: c :: back)).IsBetween :=
    paired.isBetween_after Place.isBetween_start
  have samePlace := (looksAlike_replaced plain back).after_eq front .start
  rw [scan_append_iff, scan_pair_iff plain between] at signed
  rw [scan_append_iff, ← samePlace]
  rcases signed with early | ⟨outside, marked⟩ | late
  · exact (signIn_replaced plain early).imp_left .inl
  · exact .inr (.mark outside marked)
  · exact .inl (.inr late)

/-- A sign that an escape pair makes is found. -/
theorem scan_of_makesSign (paired : IsPaired front) (makes : MakesSign front c back) :
    scan .start (front ++ '\\' :: c :: back) = true := by
  have between : (Place.start.after front ('\\' :: c :: back)).IsBetween :=
    paired.isBetween_after Place.isBetween_start
  rw [scan_append_iff]
  cases makes with
  | mark outside marked => exact .inr ((scan_pair_iff plain between).mpr (.inl ⟨outside, marked⟩))
  | @bar before inner opened outside first isBar closed =>
    subst opened isBar
    have parts : inner ++ '\\' :: '|' :: back = (inner ++ ['\\']) ++ '|' :: back := by simp
    have parted : isAlternatives (inner ++ '\\' :: '|' :: back) = true := by
      rw [parts, isAlternatives_append_bar (by simpa using first)]
      exact ⟨by simp, closed⟩
    exact .inl ⟨before, '(', inner, rfl, outside, parted⟩

end Replacing

end Sign

/-- A text with an escape pair keeps its signs of a glob when a letter takes the place of the pair, as
long as the signs are not made by the pair alone. -/
theorem isGlob_replace_iff {front back : List Char} {c : Char} (paired : Sign.IsPaired front)
    (plain : c ∉ ['\n', '[', ']', '{', '}', '(', ')']) :
    (isGlob (String.ofList (front ++ '\\' :: c :: back)) = true →
        isGlob (String.ofList (front ++ 'x' :: back)) = true) ↔
      ¬(Sign.MakesSign front c back ∧ isGlob (String.ofList (front ++ 'x' :: back)) = false) := by
  simp only [isGlob, String.toList_ofList]
  constructor
  · rintro keeps ⟨makes, lost⟩
    rw [keeps (Sign.scan_of_makesSign plain paired makes)] at lost
    cases lost
  · intro kept signed
    rcases Sign.scan_replaced plain paired signed with found | makes
    · exact found
    · by_contra lost
      exact kept ⟨makes, Bool.eq_false_iff.mpr lost⟩

/-- The star in front is hidden and the one behind is not, whatever stands for the pair. -/
theorem isGlob_replace_hiddenStar :
    Sign.IsPaired ['\\', '[', '*', ']', 'a'] ∧ '?' ∉ ['\n', '[', ']', '{', '}', '(', ')'] ∧
      isGlob "\\[*]a\\?/*" = true ∧ isGlob "\\[*]ax/*" = true := by
  have paired : Sign.IsPaired ['\\', '[', '*', ']', 'a'] :=
    .pair '[' (.single (by decide) (.single (by decide) (.single (by decide) .nil)))
  have plain : '?' ∉ ['\n', '[', ']', '{', '}', '(', ')'] := by decide
  have signed : isGlob "\\[*]a\\?/*" = true := by decide
  refine ⟨paired, plain, signed, ?_⟩
  refine (@isGlob_replace_iff _ ['/', '*'] _ paired plain).mpr ?_ signed
  rintro ⟨⟨_, marked⟩ | ⟨_, _, _, isBar, _⟩, _⟩
  · cases marked
  · exact absurd isBar (by decide)

/-- An escaped bar is taken for the one between alternatives, and a `!` behind an escaped character
for one at the start. -/
theorem isGlob_of_escape_alone :
    isGlob "(a\\|b)" = true ∧ isGlob "(axb)" = false ∧
      isGlob "\\a!b" = true ∧ isGlob "x!b" = false := by
  decide

end PathGlob
