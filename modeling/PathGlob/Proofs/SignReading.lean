import PathGlob.Proofs.UnsignedText

/-! # Where a sign of a glob can stand

A text is read for signs one character after the other. A character counts as a sign only where the
reader stands outside of all that is hidden, so a text has a sign exactly if there is one at such a
place (`Sign.scan_append_iff`). A backslash and the character behind it are read together, whatever
that character is; a text with a backslash in front of every character has no sign
(`isGlob_escape`).
-/

namespace PathGlob

namespace Sign

/-- Neither before a character that is hidden nor among such characters. -/
def Place.IsOutside (place : Place) : Prop :=
  place = .start ∨ place = .inside

/-- Not between a backslash and the character behind it. -/
def Place.IsBetween (place : Place) : Prop :=
  place.IsOutside ∨ ∃ opener closer, closer? opener = some closer ∧ place = .hidden closer

def Place.afterHidden (c : Char) (rest : List Char) : Place :=
  match closer? c with
  | some closer => if rest.contains closer then .hidden closer else .start
  | none => .start

def Place.next : Place → Char → List Char → Place
  | .hidden closer, c, _ => if c = closer then .start else .hidden closer
  | .escape, c, rest => afterHidden c rest
  | _, c, rest => if c = '\\' ∧ rest.head?.any (· != '\n') = true then .escape else .inside

def Place.after (place : Place) : List Char → List Char → Place
  | [], _ => place
  | c :: front, rest => (place.next c (front ++ rest)).after front rest

/-- Among some characters before a text there is a sign, outside of what is hidden. -/
def SignIn (place : Place) (front rest : List Char) : Prop :=
  ∃ before c behind, front = before ++ c :: behind ∧
    (place.after before (c :: behind ++ rest)).IsOutside ∧
    isSign (place.after before (c :: behind ++ rest) == .start) c (behind ++ rest) = true

variable {place : Place} {opener closer c : Char} {front rest : List Char}

section Places

theorem closer?_eq_some_iff :
    closer? opener = some closer ↔ (opener, closer) ∈ [('[', ']'), ('{', '}'), ('(', ')')] := by
  unfold closer?
  split <;> simp_all [eq_comm]

theorem ne_backslash_of_closes (closes : closer? opener = some closer) : '\\' ≠ closer := by
  rintro rfl
  simp [closer?_eq_some_iff] at closes

theorem Place.next_of_outside (outside : place.IsOutside) (c : Char) (rest : List Char) :
    place.next c rest =
      if c = '\\' ∧ rest.head?.any (· != '\n') = true then .escape else .inside := by
  rcases outside with rfl | rfl <;> rfl

theorem Place.next_hidden (closer c : Char) (rest : List Char) :
    (Place.hidden closer).next c rest = if c = closer then .start else .hidden closer :=
  rfl

theorem Place.next_escape (c : Char) (rest : List Char) :
    Place.escape.next c rest = afterHidden c rest :=
  rfl

theorem Place.not_isOutside_hidden (closer : Char) : ¬(Place.hidden closer).IsOutside := by
  rintro (same | same) <;> cases same

private theorem Place.not_isOutside_escape : ¬Place.escape.IsOutside := by
  rintro (same | same) <;> cases same

theorem Place.isBetween_start : Place.start.IsBetween :=
  .inl (.inl rfl)

private theorem Place.isBetween_inside : Place.inside.IsBetween :=
  .inl (.inr rfl)

private theorem Place.isBetween_afterHidden (c : Char) (rest : List Char) :
    (afterHidden c rest).IsBetween := by
  unfold afterHidden
  split
  · next closer closes =>
    split
    · exact .inr ⟨c, closer, closes, rfl⟩
    · exact isBetween_start
  · exact isBetween_start

private theorem Place.isBetween_next_hidden (closes : closer? opener = some closer) (c : Char)
    (rest : List Char) : ((Place.hidden closer).next c rest).IsBetween := by
  rw [next_hidden]
  split
  · exact isBetween_start
  · exact .inr ⟨opener, closer, closes, rfl⟩

/-- Behind a character that is no backslash there is another character or escape pair. -/
theorem Place.IsBetween.next (between : place.IsBetween) (unescaping : c ≠ '\\') (rest : List Char) :
    (place.next c rest).IsBetween := by
  rcases between with outside | ⟨opener, closer, closes, rfl⟩
  · rw [next_of_outside outside, if_neg fun both => unescaping both.1]
    exact isBetween_inside
  · exact isBetween_next_hidden closes c rest

/-- A backslash hides the character behind it, unless that is a newline. -/
theorem Place.after_pair_of_outside (outside : place.IsOutside) (c : Char) (rest : List Char) :
    place.after ['\\', c] rest = if c = '\n' then .inside else afterHidden c rest := by
  change (place.next '\\' (c :: rest)).next c rest = _
  rw [next_of_outside outside]
  by_cases newline : c = '\n'
  · subst newline
    rfl
  · rw [if_pos ⟨rfl, by simp [newline]⟩, if_neg newline]
    rfl

theorem Place.after_pair_hidden (closes : closer? opener = some closer) (c : Char) (rest : List Char) :
    (Place.hidden closer).after ['\\', c] rest = (Place.hidden closer).next c rest := by
  change ((Place.hidden closer).next '\\' (c :: rest)).next c rest = _
  rw [next_hidden, if_neg (ne_backslash_of_closes closes)]

/-- Behind an escape pair there is another character or escape pair. -/
theorem Place.IsBetween.after_pair (between : place.IsBetween) (c : Char) (rest : List Char) :
    (place.after ['\\', c] rest).IsBetween := by
  rcases between with outside | ⟨opener, closer, closes, rfl⟩
  · rw [after_pair_of_outside outside]
    split
    · exact isBetween_inside
    · exact isBetween_afterHidden c rest
  · rw [after_pair_hidden closes]
    exact isBetween_next_hidden closes c rest

end Places

section Signs

theorem scan_nil (place : Place) : scan place [] = false := by
  cases place <;> rfl

theorem scan_cons_of_outside (outside : place.IsOutside) : scan place (c :: rest) = true ↔
    isSign (place == .start) c rest = true ∨ scan (place.next c rest) rest = true := by
  rw [Place.next_of_outside outside]
  by_cases escape : c = '\\'
  · subst escape
    have noSign : isSign (place == .start) '\\' rest ≠ true := Bool.false_ne_true
    have goesOn : scan place ('\\' :: rest) =
        scan (if rest.head?.any (· != '\n') then .escape else .inside) rest := by
      rcases outside with rfl | rfl <;> exact if_pos rfl
    rw [or_iff_right noSign, goesOn]
    simp only [true_and]
  · rw [scan_cons outside escape, Bool.or_eq_true, if_neg fun both => escape both.1]

theorem scan_escape (c : Char) (rest : List Char) :
    scan .escape (c :: rest) = scan (Place.afterHidden c rest) rest := by
  change (match closer? c with
    | some closer => scan (if rest.contains closer then .hidden closer else .start) rest
    | none => scan .start rest) = _
  unfold Place.afterHidden
  cases closer? c <;> rfl

/-- A text has a sign if its first character is one or there is one behind it. -/
theorem scan_cons_iff : scan place (c :: rest) = true ↔
    (place.IsOutside ∧ isSign (place == .start) c rest = true) ∨ scan (place.next c rest) rest = true := by
  cases place with
  | start => rw [scan_cons_of_outside (.inl rfl), and_iff_right (.inl rfl)]
  | inside => rw [scan_cons_of_outside (.inr rfl), and_iff_right (.inr rfl)]
  | hidden closer =>
    rw [or_iff_right fun both => Place.not_isOutside_hidden closer both.1]
    rfl
  | escape =>
    rw [or_iff_right fun both => Place.not_isOutside_escape both.1, Place.next_escape, scan_escape]

private theorem signIn_cons_iff : SignIn place (c :: front) rest ↔
    (place.IsOutside ∧ isSign (place == .start) c (front ++ rest) = true) ∨
      SignIn (place.next c (front ++ rest)) front rest := by
  have step (before behind : List Char) (d : Char) :
      place.after (c :: before) (d :: behind ++ rest) =
        (place.next c (before ++ d :: behind ++ rest)).after before (d :: behind ++ rest) := by
    rw [Place.after, List.append_assoc]
  constructor
  · rintro ⟨before, d, behind, cut, outside, sign⟩
    rcases List.cons_eq_append_iff.mp cut with ⟨rfl, same⟩ | ⟨before, rfl, rfl⟩
    · obtain ⟨rfl, rfl⟩ := List.cons.inj same
      exact .inl ⟨outside, sign⟩
    · rw [step] at outside sign
      exact .inr ⟨before, d, behind, rfl, outside, sign⟩
  · rintro (⟨outside, sign⟩ | ⟨before, d, behind, rfl, outside, sign⟩)
    · exact ⟨[], c, front, rfl, outside, sign⟩
    · rw [← step] at outside sign
      exact ⟨c :: before, d, behind, rfl, outside, sign⟩

/-- A text has a sign exactly if one stands outside of what is hidden, in its front or behind it. -/
theorem scan_append_iff : scan place (front ++ rest) = true ↔
    SignIn place front rest ∨ scan (place.after front rest) rest = true := by
  induction front generalizing place with
  | nil =>
    have nothing : ¬SignIn place [] rest := by
      rintro ⟨before, c, behind, cut, _⟩
      simp at cut
    exact (or_iff_right nothing).symm
  | cons c front ih => rw [List.cons_append, scan_cons_iff, ih, signIn_cons_iff, or_assoc, Place.after]

/-- An escape pair is read as a whole, and neither of its characters is a sign. -/
theorem scan_pair (between : place.IsBetween) (c : Char) (rest : List Char) :
    scan place ('\\' :: c :: rest) = scan (place.after ['\\', c] rest) rest := by
  rw [Bool.eq_iff_iff, scan_cons_iff, scan_cons_iff]
  have noBackslash : ¬(place.IsOutside ∧ isSign (place == .start) '\\' (c :: rest) = true) :=
    fun both => Bool.false_ne_true both.2
  have noHidden : ¬((place.next '\\' (c :: rest)).IsOutside ∧
      isSign (place.next '\\' (c :: rest) == .start) c rest = true) := by
    rintro ⟨outside, sign⟩
    rcases between with isOutside | ⟨opener, closer, closes, rfl⟩
    · rw [Place.next_of_outside isOutside] at outside sign
      split_ifs at outside sign with hides
      · exact Place.not_isOutside_escape outside
      · have newline : c = '\n' := by simpa using hides
        subst newline
        exact Bool.false_ne_true sign
    · rw [Place.next_hidden, if_neg (ne_backslash_of_closes closes)] at outside
      exact Place.not_isOutside_hidden closer outside
  rw [or_iff_right noBackslash, or_iff_right noHidden]
  rfl

end Signs

/-- With a backslash in front of every character there is no sign. -/
theorem scan_escaped (between : place.IsBetween) (text : List Char) :
    scan place (text.flatMap fun c => ['\\', c]) = false := by
  induction text generalizing place with
  | nil => exact scan_nil place
  | cons c text ih =>
    rw [List.flatMap_cons, List.cons_append, List.cons_append, List.nil_append, scan_pair between]
    exact ih (between.after_pair c _)

end Sign

/-- A text with a backslash in front of every character does not look like a glob. -/
theorem isGlob_escape (text : String) : isGlob (Platform.posix.escape text) = false := by
  rw [isGlob, Platform.escape, String.toList_ofList]
  exact Sign.scan_escaped Sign.Place.isBetween_start text.toList

-- The escaped bracket hides what follows up to the middle of another pair; a newline is not hidden.
example : isGlob (Platform.posix.escape "[*]\n!") = false := by decide

end PathGlob
