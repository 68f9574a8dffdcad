import PathGlob.Proofs.SegmentNames

/-! # Pieces of texts

How cutting a text goes along with putting texts together: a cut ends a piece, a text without cuts
is one piece, and so a list of pieces comes back from the text that is written with a separator
between two of them.
-/

namespace PathGlob

namespace Text

variable {cut : Char → Bool} {c : Char}

private theorem pieces_cons_cut (cutting : cut c = true) (text : List Char) :
    pieces cut (c :: text) = [] :: pieces cut text := by
  simp [pieces, cutting]

private theorem pieces_cons_of_not_cut (whole : cut c = false) {text first : List Char}
    {others : List (List Char)} (cutRest : pieces cut text = first :: others) :
    pieces cut (c :: text) = (c :: first) :: others := by
  simp [pieces, whole, cutRest]

/-- A cut parts the pieces before it from those after it. -/
theorem pieces_append_cut (front : List Char) (cutting : cut c = true) (back : List Char) :
    pieces cut (front ++ c :: back) = pieces cut front ++ pieces cut back := by
  induction front with
  | nil => exact pieces_cons_cut cutting back
  | cons d front ih =>
    rw [List.cons_append]
    cases cuttingFirst : cut d with
    | true => rw [pieces_cons_cut cuttingFirst, pieces_cons_cut cuttingFirst, ih, List.cons_append]
    | false =>
      obtain ⟨first, others, cutFront⟩ := List.exists_cons_of_ne_nil (pieces_ne_nil cut front)
      rw [cutFront, List.cons_append] at ih
      rw [pieces_cons_of_not_cut cuttingFirst ih, pieces_cons_of_not_cut cuttingFirst cutFront,
        List.cons_append]

/-- There is one piece more than there are cuts. -/
theorem length_pieces (cut : Char → Bool) (text : List Char) :
    (pieces cut text).length = text.countP cut + 1 := by
  induction text with
  | nil => rfl
  | cons c text ih =>
    cases cutting : cut c with
    | true => rw [pieces_cons_cut cutting, List.length_cons, ih, List.countP_cons_of_pos cutting]
    | false =>
      obtain ⟨first, others, cutRest⟩ := List.exists_cons_of_ne_nil (pieces_ne_nil cut text)
      rw [cutRest] at ih
      rw [pieces_cons_of_not_cut cutting cutRest, List.countP_cons_of_neg (by simp [cutting]), ← ih]
      rfl

theorem pieces_of_no_cut {text : List Char} (whole : ∀ c ∈ text, cut c = false) :
    pieces cut text = [text] := by
  induction text with
  | nil => rfl
  | cons c text ih =>
    obtain ⟨first, others⟩ := List.forall_mem_cons.mp whole
    exact pieces_cons_of_not_cut first (ih others)

/-- A text is cut by its own characters only. -/
theorem pieces_congr {cut' : Char → Bool} {text : List Char} (same : ∀ c ∈ text, cut c = cut' c) :
    pieces cut text = pieces cut' text := by
  induction text with
  | nil => rfl
  | cons c text ih =>
    obtain ⟨first, others⟩ := List.forall_mem_cons.mp same
    rw [pieces, pieces, first, ih others]

private theorem prefix_of_pieces_eq_cons {text first : List Char} {others : List (List Char)}
    (cutText : pieces cut text = first :: others) : first <+: text := by
  induction text generalizing first others with
  | nil =>
    obtain ⟨rfl, -⟩ := List.cons.inj cutText
    exact List.nil_prefix
  | cons d text ih =>
    cases cutting : cut d with
    | true =>
      rw [pieces_cons_cut cutting] at cutText
      obtain ⟨rfl, -⟩ := List.cons.inj cutText
      exact List.nil_prefix
    | false =>
      obtain ⟨next, more, cutRest⟩ := List.exists_cons_of_ne_nil (pieces_ne_nil cut text)
      rw [pieces_cons_of_not_cut cutting cutRest] at cutText
      obtain ⟨rfl, -⟩ := List.cons.inj cutText
      exact List.cons_prefix_cons.mpr ⟨rfl, ih cutRest⟩

/-- A piece stands in the text it is cut from. -/
theorem infix_of_mem_pieces {text piece : List Char} (isPiece : piece ∈ pieces cut text) :
    piece <:+: text := by
  induction text generalizing piece with
  | nil =>
    obtain rfl := List.mem_singleton.mp isPiece
    exact List.infix_rfl
  | cons d text ih =>
    have later (isPiece : piece ∈ pieces cut text) : piece <:+: d :: text :=
      (ih isPiece).trans (List.suffix_cons d text).isInfix
    cases cutting : cut d with
    | true =>
      rw [pieces_cons_cut cutting] at isPiece
      rcases List.mem_cons.mp isPiece with rfl | isPiece
      · exact List.nil_infix
      · exact later isPiece
    | false =>
      obtain ⟨first, others, cutRest⟩ := List.exists_cons_of_ne_nil (pieces_ne_nil cut text)
      have whole := pieces_cons_of_not_cut cutting cutRest
      rw [whole] at isPiece
      rcases List.mem_cons.mp isPiece with rfl | isPiece
      · exact (prefix_of_pieces_eq_cons whole).isInfix
      · exact later (cutRest ▸ List.mem_cons_of_mem first isPiece)

/-- Cutting makes up no character. -/
theorem mem_of_mem_pieces {text piece : List Char} (isPiece : piece ∈ pieces cut text)
    (inPiece : c ∈ piece) : c ∈ text :=
  (infix_of_mem_pieces isPiece).subset inPiece

/-- The pieces hold the characters that a text is not cut at. -/
theorem flatten_pieces (cut : Char → Bool) (text : List Char) :
    (pieces cut text).flatten = text.filter (!cut ·) := by
  induction text with
  | nil => rfl
  | cons d text ih =>
    cases cutting : cut d with
    | true => simp [pieces_cons_cut cutting, cutting, ih]
    | false =>
      obtain ⟨first, others, cutRest⟩ := List.exists_cons_of_ne_nil (pieces_ne_nil cut text)
      rw [cutRest, List.flatten_cons] at ih
      simp [pieces_cons_of_not_cut cutting cutRest, cutting, ih]

end Text

namespace Path

variable {platform : Platform} {c : Char}

/-- The names hold all characters but the separators. -/
theorem flatten_names (platform : Platform) (text : List Char) :
    (names platform text).flatten = text.filter (!platform.isSeparator ·) := by
  rw [← Text.flatten_pieces, names, segments, List.flatten_filter_ne_nil]

/-- A separator parts the names before it from those after it. -/
theorem names_append_separator (front : List Char) (separates : platform.isSeparator c = true)
    (back : List Char) :
    names platform (front ++ c :: back) = names platform front ++ names platform back := by
  rw [names, segments, Text.pieces_append_cut front separates, List.filter_append]
  rfl

/-- Separators in front of a text add no name. -/
theorem names_separators_append {run : List Char}
    (separate : ∀ c ∈ run, platform.isSeparator c = true) (text : List Char) :
    names platform (run ++ text) = names platform text := by
  induction run with
  | nil => rfl
  | cons c run ih =>
    obtain ⟨first, others⟩ := List.forall_mem_cons.mp separate
    rw [List.cons_append, names_cons_separator first, ih others]

theorem names_dropWhile_separators (platform : Platform) (text : List Char) :
    names platform (text.dropWhile platform.isSeparator) = names platform text := by
  induction text with
  | nil => rfl
  | cons c text ih =>
    cases separates : platform.isSeparator c with
    | true => rw [List.dropWhile_cons_of_pos separates, ih, names_cons_separator separates]
    | false => rw [List.dropWhile_cons_of_neg (Bool.eq_false_iff.mp separates)]

/-- Whether a text that starts with separators ends with one does not depend on how many they are. -/
theorem getLast?_dropWhile_separators {d : Char} (first : platform.isSeparator c = true)
    (second : platform.isSeparator d = true) (text : List Char) :
    (c :: text.dropWhile platform.isSeparator).getLast?.any platform.isSeparator =
      (d :: text).getLast?.any platform.isSeparator := by
  induction text generalizing d with
  | nil => simp [first, second]
  | cons e text ih =>
    cases next : platform.isSeparator e with
    | true => rw [List.dropWhile_cons_of_pos next, List.getLast?_cons_cons, ih next]
    | false =>
      rw [List.dropWhile_cons_of_neg (Bool.eq_false_iff.mp next), List.getLast?_cons_cons,
        List.getLast?_cons_cons]

/-- There is at most one name more than there are separators. -/
theorem length_names_le (platform : Platform) (text : List Char) :
    (names platform text).length ≤ text.countP platform.isSeparator + 1 := by
  rw [← Text.length_pieces]
  exact List.length_filter_le _ _

/-- A separator between two other characters parts two names. -/
theorem two_le_length_names {x s y : Char} {text : List Char} (before : platform.isSeparator x = false)
    (separates : platform.isSeparator s = true) (after : platform.isSeparator y = false)
    (between : [x, s, y].Sublist text) : 2 ≤ (names platform text).length := by
  obtain ⟨front, rest, rfl, inFront, inRest⟩ := List.cons_sublist_iff.mp between
  obtain ⟨middle, back, rfl, inMiddle, inBack⟩ := List.cons_sublist_iff.mp inRest
  obtain ⟨left, right, rfl⟩ := List.append_of_mem inMiddle
  have named : names platform (front ++ (left ++ s :: right ++ back)) =
      names platform (front ++ left) ++ names platform (right ++ back) := by
    rw [← names_append_separator (front ++ left) separates]
    simp
  have some : names platform (front ++ left) ≠ [] :=
    names_ne_nil_of_mem (List.mem_append_left left inFront) before
  have more : names platform (right ++ back) ≠ [] :=
    names_ne_nil_of_mem (List.mem_append_right right (List.singleton_sublist.mp inBack)) after
  have := List.length_pos_of_ne_nil some
  have := List.length_pos_of_ne_nil more
  rw [named, List.length_append]
  omega

theorem segments_ne_nil (platform : Platform) (text : List Char) : segments platform text ≠ [] :=
  Text.pieces_ne_nil platform.isSeparator text

theorem segments_cons_separator (separates : platform.isSeparator c = true) (text : List Char) :
    segments platform (c :: text) = [] :: segments platform text :=
  Text.pieces_cons_cut separates text

/-- A character that is no separator belongs to the first segment. -/
theorem exists_segments_cons (separates : platform.isSeparator c = false) (text : List Char) :
    ∃ first others, segments platform text = first :: others ∧
      segments platform (c :: text) = (c :: first) :: others := by
  obtain ⟨first, others, cut⟩ := List.exists_cons_of_ne_nil (segments_ne_nil platform text)
  exact ⟨first, others, cut, Text.pieces_cons_of_not_cut separates cut⟩

theorem segments_eq_singleton_nil_iff {path : List Char} :
    segments platform path = [[]] ↔ path = [] := by
  constructor
  · intro empty
    rcases path with _ | ⟨c, path⟩
    · rfl
    · cases separates : platform.isSeparator c with
      | true =>
        rw [segments_cons_separator separates] at empty
        exact absurd (List.cons.inj empty).2 (segments_ne_nil platform path)
      | false =>
        obtain ⟨first, others, _, cut⟩ := exists_segments_cons separates path
        rw [cut] at empty
        cases empty
  · rintro rfl
    rfl

theorem head?_of_segments_eq_cons {text name : List Char} {others : List (List Char)}
    (cut : segments platform text = (c :: name) :: others) : text.head? = some c := by
  rcases text with _ | ⟨d, text⟩
  · cases cut
  · cases separates : platform.isSeparator d with
    | true =>
      rw [segments_cons_separator separates] at cut
      cases cut
    | false =>
      obtain ⟨_, _, _, cutAll⟩ := exists_segments_cons separates text
      rw [cutAll] at cut
      cases cut
      rfl

/-- A text starts with a separator if its first segment is empty and not the only one. -/
theorem head?_any_isSeparator_iff {text : List Char} :
    text.head?.any platform.isSeparator = true ↔
      ∃ next others, segments platform text = [] :: next :: others := by
  rcases text with _ | ⟨c, text⟩
  · refine iff_of_false (by simp) ?_
    rintro ⟨next, others, same⟩
    cases same
  · cases separates : platform.isSeparator c with
    | true =>
      obtain ⟨next, others, cut⟩ := List.exists_cons_of_ne_nil (segments_ne_nil platform text)
      refine iff_of_true separates ⟨next, others, ?_⟩
      rw [segments_cons_separator separates, cut]
    | false =>
      obtain ⟨first, others, _, cut⟩ := exists_segments_cons separates text
      refine iff_of_false (by simp [separates]) ?_
      rintro ⟨next, more, same⟩
      cases cut.symm.trans same

theorem isSeparator_of_mem_segments {text segment : List Char}
    (isSegment : segment ∈ segments platform text) (inSegment : c ∈ segment) :
    platform.isSeparator c = false :=
  Text.not_cut_of_mem_pieces isSegment inSegment

theorem ofSegments_cons (platform : Platform) (segment : List Char) {others : List (List Char)}
    (more : others ≠ []) :
    ofSegments platform (segment :: others) =
      segment ++ platform.separator :: ofSegments platform others := by
  obtain ⟨next, others, rfl⟩ := List.exists_cons_of_ne_nil more
  rfl

theorem mem_of_mem_ofSegments {texts : List (List Char)} (isWritten : c ∈ ofSegments platform texts) :
    c = platform.separator ∨ ∃ text ∈ texts, c ∈ text := by
  induction texts with
  | nil => cases isWritten
  | cons text others ih =>
    by_cases alone : others = []
    · subst alone
      exact .inr ⟨text, List.mem_cons_self, isWritten⟩
    · rw [ofSegments_cons platform text alone, List.mem_append, List.mem_cons] at isWritten
      rcases isWritten with inText | rfl | later
      · exact .inr ⟨text, List.mem_cons_self, inText⟩
      · exact .inl rfl
      · refine (ih later).imp_right fun ⟨other, isOther, inOther⟩ => ?_
        exact ⟨other, List.mem_cons_of_mem text isOther, inOther⟩

/-- The segments of texts written one after the other are those of the texts. -/
theorem segments_ofSegments_eq_flatMap {texts : List (List Char)} (nonempty : texts ≠ []) :
    segments platform (ofSegments platform texts) = texts.flatMap (segments platform) := by
  induction texts with
  | nil => exact absurd rfl nonempty
  | cons text others ih =>
    by_cases alone : others = []
    · subst alone
      rw [List.flatMap_singleton, ofSegments]
    · rw [ofSegments_cons platform text alone, segments,
        Text.pieces_append_cut text platform.isSeparator_separator, List.flatMap_cons, ← ih alone]
      rfl

/-- Segments come back from the text that they are written as. -/
theorem segments_ofSegments {texts : List (List Char)} (nonempty : texts ≠ [])
    (whole : ∀ text ∈ texts, ∀ c ∈ text, platform.isSeparator c = false) :
    segments platform (ofSegments platform texts) = texts := by
  rw [segments_ofSegments_eq_flatMap nonempty]
  induction texts with
  | nil => rfl
  | cons text others ih =>
    obtain ⟨first, following⟩ := List.forall_mem_cons.mp whole
    have alone : segments platform text = [text] := Text.pieces_of_no_cut first
    rw [List.flatMap_cons, alone]
    by_cases last : others = []
    · rw [last]
      rfl
    · rw [ih last following]
      rfl

theorem ofSegments_append (platform : Platform) {texts others : List (List Char)} (some : texts ≠ [])
    (more : others ≠ []) :
    ofSegments platform (texts ++ others) =
      ofSegments platform texts ++ platform.separator :: ofSegments platform others := by
  induction texts with
  | nil => exact absurd rfl some
  | cons text texts ih =>
    by_cases alone : texts = []
    · subst alone
      exact ofSegments_cons platform text more
    · rw [List.cons_append, ofSegments_cons platform text (List.append_ne_nil_of_left_ne_nil alone _),
        ih alone, ofSegments_cons platform text alone]
      simp

theorem ofSegments_ne_nil {texts : List (List Char)} (some : texts ≠ [])
    (nonempty : ∀ text ∈ texts, text ≠ []) : ofSegments platform texts ≠ [] := by
  obtain ⟨text, others, rfl⟩ := List.exists_cons_of_ne_nil some
  have first := nonempty text List.mem_cons_self
  cases others with
  | nil => exact first
  | cons next others => exact List.append_ne_nil_of_left_ne_nil first _

/-- The last segment of a text is empty if the text ends with a separator, or is empty itself. -/
theorem getLast?_segments_eq_nil_iff (text : List Char) :
    (segments platform text).getLast? = some [] ↔
      text = [] ∨ text.getLast?.any platform.isSeparator = true := by
  induction text with
  | nil => simp [segments, Text.pieces]
  | cons c text ih =>
    cases separates : platform.isSeparator c with
    | true =>
      rw [segments_cons_separator separates,
        List.getLast?_cons_of_ne_nil (segments_ne_nil platform text), ih]
      cases text with
      | nil => simp [separates]
      | cons d text => simp
    | false =>
      obtain ⟨first, others, cut, cutAll⟩ := exists_segments_cons separates text
      rw [cut] at ih
      rw [cutAll]
      by_cases alone : others = []
      · -- Without a separator in the text, neither side holds.
        subst alone
        have count := Text.length_pieces platform.isSeparator text
        rw [← segments, cut, List.length_singleton] at count
        have noSeparator := List.countP_eq_zero.mp (Nat.succ.inj count).symm
        refine iff_of_false (by simp) (not_or.mpr ⟨List.cons_ne_nil c text, ?_⟩)
        rw [Option.any_eq_true]
        rintro ⟨last, isLast, separatesLast⟩
        rcases List.mem_cons.mp (List.mem_of_getLast? isLast) with rfl | inText
        · rw [separates] at separatesLast
          cases separatesLast
        · exact noSeparator last inText separatesLast
      · have more : text ≠ [] := by
          rintro rfl
          exact alone (List.cons.inj cut).2.symm
        rw [List.getLast?_cons_of_ne_nil alone] at ih ⊢
        rw [ih, List.getLast?_cons_of_ne_nil more]
        simp [more]

end Path

end PathGlob
