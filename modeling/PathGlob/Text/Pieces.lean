/-! # Cutting a text

A text is cut at the characters of a kind; the characters themselves belong to no piece. There is
always at least one piece, and two cuts in a row have an empty piece between them.
-/

namespace PathGlob.Text

/-- The pieces of a text between the characters that `cut` holds of. -/
def pieces (cut : Char → Bool) : List Char → List (List Char)
  | [] => [[]]
  | c :: rest =>
    if cut c then [] :: pieces cut rest
    else
      match pieces cut rest with
      | first :: others => (c :: first) :: others
      | [] => [[c]]

theorem pieces_ne_nil (cut : Char → Bool) (text : List Char) : pieces cut text ≠ [] := by
  cases text with
  | nil => simp [pieces]
  | cons c rest =>
    by_cases cutting : cut c
    · simp [pieces, cutting]
    · simp only [pieces, cutting, Bool.false_eq_true, if_false]
      split <;> simp

/-- No piece holds a character that the text is cut at. -/
theorem not_cut_of_mem_pieces {cut : Char → Bool} {text piece : List Char} {c : Char}
    (isPiece : piece ∈ pieces cut text) (inPiece : c ∈ piece) : cut c = false := by
  induction text generalizing piece with
  | nil => simp_all [pieces]
  | cons d rest ih =>
    by_cases cutting : cut d
    · simp only [pieces, cutting, if_true, List.mem_cons] at isPiece
      rcases isPiece with rfl | isPiece
      · simp at inPiece
      · exact ih isPiece inPiece
    · simp only [pieces, cutting, Bool.false_eq_true, if_false] at isPiece
      split at isPiece
      · next first others cutRest =>
        rw [List.mem_cons] at isPiece
        rcases isPiece with rfl | isPiece
        · rw [List.mem_cons] at inPiece
          rcases inPiece with rfl | inPiece
          · exact Bool.eq_false_iff.mpr cutting
          · exact ih (by simp [cutRest]) inPiece
        · exact ih (by simp [cutRest, isPiece]) inPiece
      · next cutRest => exact absurd cutRest (pieces_ne_nil cut rest)

end PathGlob.Text
