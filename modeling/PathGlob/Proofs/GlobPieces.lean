import PathGlob.Proofs.GlobPatternMeaning
import PathGlob.Proofs.PatternForm

/-! # The pieces of the expression of a glob

The expression of a glob is put together from one piece for each segment, with a piece in front if
the glob starts with a separator. A piece is well formed on its own, so no group reaches over the end
of a segment, and an engine accepts the whole exactly if it accepts the expression of every segment.
-/

namespace PathGlob

namespace GlobSegment

/-- What a segment adds to the expression of a glob: its own expression, and separators unless it is
a globstar, which brings them along. -/
def piece (platform : Platform) (isLast : Bool) : GlobSegment → Regex
  | .globstar =>
    if isLast then .seq platform.globstarPattern platform.runPattern else platform.globstarPattern
  | .shape content =>
    .seq (content.pattern platform)
      (if isLast then platform.trailingPattern else platform.partingPattern)

private theorem isBranch_piece (platform : Platform) (isLast : Bool) (segment : GlobSegment) :
    (segment.piece platform isLast).isBranch = true := by
  cases segment with
  | globstar => cases isLast <;> rfl
  | shape => rfl

end GlobSegment

namespace Glob

def segmentPieces (platform : Platform) : List GlobSegment → List Regex
  | [] => []
  | [segment] => [segment.piece platform true]
  | segment :: next :: others =>
    segment.piece platform false :: segmentPieces platform (next :: others)

def pieces (platform : Platform) (glob : Glob) : List Regex :=
  match glob.rooted, glob.segments with
  | false, [] => [.never]
  | false, segments => segmentPieces platform segments
  | true, segments => platform.partingPattern :: segmentPieces platform segments

variable {platform : Platform}

/-- Every piece is that of a segment. -/
theorem exists_of_mem_segmentPieces {segments : List GlobSegment} {piece : Regex}
    (isPiece : piece ∈ segmentPieces platform segments) :
    ∃ segment ∈ segments, ∃ isLast, piece = segment.piece platform isLast := by
  induction segments with
  | nil => simp [segmentPieces] at isPiece
  | cons segment others ih =>
    cases others with
    | nil => exact ⟨segment, by simp, true, by simpa [segmentPieces] using isPiece⟩
    | cons next others =>
      rw [segmentPieces, List.mem_cons] at isPiece
      rcases isPiece with rfl | later
      · exact ⟨segment, by simp, false, rfl⟩
      · obtain ⟨segment, isSegment, isLast, same⟩ := ih later
        exact ⟨segment, List.mem_cons_of_mem _ isSegment, isLast, same⟩

/-- Every segment has a piece. -/
theorem exists_piece_mem {segments : List GlobSegment} {segment : GlobSegment}
    (isSegment : segment ∈ segments) :
    ∃ isLast, segment.piece platform isLast ∈ segmentPieces platform segments := by
  induction segments with
  | nil => cases isSegment
  | cons first others ih =>
    cases others with
    | nil =>
      obtain rfl := List.mem_singleton.mp isSegment
      exact ⟨true, List.mem_singleton_self _⟩
    | cons next others =>
      rcases List.mem_cons.mp isSegment with rfl | later
      · exact ⟨false, List.mem_cons_self⟩
      · obtain ⟨isLast, isPiece⟩ := ih later
        exact ⟨isLast, List.mem_cons_of_mem _ isPiece⟩

/-- The expression of segments is that of their pieces one after the other. -/
theorem regrouped_segmentsPattern (segments : List GlobSegment) :
    Regex.Regrouped (segmentsPattern platform segments)
      (.sequence (segmentPieces platform segments)) := by
  induction segments with
  | nil => exact .refl _
  | cons segment others ih =>
    cases others with
    | nil =>
      have alone := Regex.regrouped_sequence_singleton (segment.isBranch_piece platform true)
      cases segment <;> exact alone.symm
    | cons next others =>
      have first := Regex.regrouped_sequence_cons (segment.isBranch_piece platform false)
        (segmentPieces platform (next :: others))
      rw [segmentPieces]
      refine Regex.Regrouped.trans ?_ first.symm
      cases segment with
      | globstar => exact .seq (.refl platform.globstarPattern) ih
      | shape shape =>
        have parted := Regex.Regrouped.seq (.refl platform.partingPattern) ih
        exact (Regex.Regrouped.seq (.refl (shape.pattern platform)) parted).trans
          (.symm (.seqAssoc _ _ _))

/-- The expression of a glob is that of its pieces one after the other. -/
theorem regrouped_pattern (glob : Glob) :
    Regex.Regrouped (glob.pattern platform) (.sequence (glob.pieces platform)) := by
  obtain ⟨rooted, segments⟩ := glob
  cases rooted with
  | false =>
    cases segments with
    | nil => exact (Regex.regrouped_sequence_singleton rfl).symm
    | cons first others => exact regrouped_segmentsPattern (first :: others)
  | true =>
    have following : Regex.Regrouped (segmentsPattern platform segments) _ :=
      regrouped_segmentsPattern segments
    exact (Regex.Regrouped.seq (.refl platform.partingPattern) following).trans
      (Regex.regrouped_sequence_cons rfl _).symm

end Glob

variable {options : Options}

namespace GlobSegment

private theorem ofText_cases (options : Options) (name : List Char) :
    ofText options name = .shape (Shape.ofSegment options name) ∨
      ofText options name = .globstar ∧ name = ['*', '*'] := by
  by_cases isGlobstar : GlobMeaning.IsGlobstar options name
  · exact .inr ⟨ofText_of_isGlobstar isGlobstar, isGlobstar.2⟩
  · exact .inl (ofText_of_not_isGlobstar isGlobstar)

private theorem isWellFormed_piece (options : Options) (name : List Char) (isLast : Bool) :
    ((ofText options name).piece options.platform isLast).isWellFormed = true := by
  rcases ofText_cases options name with isShape | ⟨isGlobstar, _⟩
  · have separators : (if isLast then options.platform.trailingPattern
        else options.platform.partingPattern).isBranch = true ∧
        (if isLast then options.platform.trailingPattern
          else options.platform.partingPattern).isWellFormed = true := by
      cases isLast <;> cases options.platform <;> exact ⟨rfl, rfl⟩
    rw [isShape, piece, Regex.isWellFormed, isBranch_ofSegment, isWellFormed_ofSegment,
      separators.1, separators.2]
    rfl
  · rw [isGlobstar]
    cases isLast <;> cases options.platform <;> rfl

/-- Stars alone are accepted, so a globstar is no exception: a piece is accepted if the segment is
when its stars are read as an item. -/
theorem isAccepted_piece_iff (options : Options) (name : List Char) (isLast : Bool) :
    ((ofText options name).piece options.platform isLast).isAccepted = true ↔
      ((Shape.ofSegment options name).pattern options.platform).isAccepted = true := by
  rcases ofText_cases options name with isShape | ⟨isGlobstar, rfl⟩
  · have separators : (if isLast then options.platform.trailingPattern
        else options.platform.partingPattern).isAccepted = true := by
      cases isLast <;> cases options.platform <;> rfl
    rw [isShape, piece, Regex.isAccepted_seq_iff]
    exact and_iff_left separators
  · have content : GlobGrammar.IsSegment options ['*', '*'] [.anyRun] := by
      refine .single (.anyRun 1 [] (by simp) ?_) .finish
      rintro kind body ⟨operator, _, _, same⟩
      simp at same
    rw [isGlobstar, content.pattern_ofSegment]
    cases isLast <;> cases options.platform <;> exact iff_of_true rfl rfl

end GlobSegment

namespace Glob

/-- The pieces of a glob are those of its segments and one for separators in front; the empty glob
has a piece that matches nothing. -/
theorem eq_of_mem_pieces {text : List Char} {piece : Regex}
    (isPiece : piece ∈ (ofText options text).pieces options.platform) :
    piece = .never ∨ piece = options.platform.partingPattern ∨
      ∃ name ∈ Path.names options.platform text, ∃ isLast,
        piece = (GlobSegment.ofText options name).piece options.platform isLast := by
  have ofSegment : piece ∈ segmentPieces options.platform
      ((Path.names options.platform text).map (GlobSegment.ofText options)) →
      ∃ name ∈ Path.names options.platform text, ∃ isLast,
        piece = (GlobSegment.ofText options name).piece options.platform isLast := by
    intro isPiece
    obtain ⟨_, isSegment, isLast, rfl⟩ := exists_of_mem_segmentPieces isPiece
    obtain ⟨name, isName, rfl⟩ := List.mem_map.mp isSegment
    exact ⟨name, isName, isLast, rfl⟩
  rw [ofText_eq] at isPiece
  unfold pieces at isPiece
  dsimp only at isPiece
  split at isPiece
  · exact .inl (List.mem_singleton.mp isPiece)
  · exact .inr (.inr (ofSegment isPiece))
  · rcases List.mem_cons.mp isPiece with parting | isPiece
    · exact .inr (.inl parting)
    · exact .inr (.inr (ofSegment isPiece))

/-- Every segment of a glob has a piece. -/
theorem exists_piece_of_mem_names {text name : List Char}
    (isName : name ∈ Path.names options.platform text) :
    ∃ isLast, (GlobSegment.ofText options name).piece options.platform isLast ∈
      (ofText options text).pieces options.platform := by
  have isSegment : GlobSegment.ofText options name ∈
      (Path.names options.platform text).map (GlobSegment.ofText options) :=
    List.mem_map_of_mem isName
  obtain ⟨isLast, isPiece⟩ := exists_piece_mem isSegment
  refine ⟨isLast, ?_⟩
  rw [ofText_eq]
  unfold pieces
  dsimp only
  split
  · next noSegment =>
    rw [noSegment] at isSegment
    cases isSegment
  · exact isPiece
  · exact List.mem_cons_of_mem _ isPiece

theorem isBranch_of_mem_pieces {text : List Char} {piece : Regex}
    (isPiece : piece ∈ (ofText options text).pieces options.platform) : piece.isBranch = true := by
  rcases eq_of_mem_pieces isPiece with rfl | rfl | ⟨name, _, isLast, rfl⟩
  · rfl
  · rfl
  · exact GlobSegment.isBranch_piece _ isLast _

theorem isWellFormed_of_mem_pieces {text : List Char} {piece : Regex}
    (isPiece : piece ∈ (ofText options text).pieces options.platform) :
    piece.isWellFormed = true := by
  rcases eq_of_mem_pieces isPiece with rfl | rfl | ⟨name, _, isLast, rfl⟩
  · rfl
  · cases options.platform <;> rfl
  · exact GlobSegment.isWellFormed_piece options name isLast

end Glob

/-- The expression of a glob is well formed. -/
theorem isWellFormed_globPattern (options : Options) (glob : String) :
    (globPattern options glob).isWellFormed = true := by
  rw [globPattern, (Glob.regrouped_pattern _).isWellFormed_eq, Regex.isWellFormed_sequence_iff]
  intro piece isPiece
  exact ⟨Glob.isBranch_of_mem_pieces isPiece, Glob.isWellFormed_of_mem_pieces isPiece⟩

theorem isBranch_globPattern (options : Options) (glob : String) :
    (globPattern options glob).isBranch = true := by
  rw [globPattern, (Glob.regrouped_pattern _).isBranch_eq]
  exact Regex.isBranch_sequence _

/-- The source of a glob is the text of its pieces between the anchors. -/
theorem toList_globSource (options : Options) (glob : String) :
    (globSource options glob).toList = '^' ::
      (((Glob.ofText options glob.toList).pieces options.platform).flatMap Regex.text ++ ['$']) := by
  rw [globSource, Regex.source, String.toList_ofList, globPattern, (Glob.regrouped_pattern _).text_eq,
    Regex.text_sequence]

/-- The expression of a glob is accepted if those of all its segments are. -/
theorem isAccepted_globPattern_iff (options : Options) (glob : String) :
    (globPattern options glob).isAccepted = true ↔
      ∀ name ∈ Path.names options.platform glob.toList,
        ((Shape.ofSegment options name).pattern options.platform).isAccepted = true := by
  rw [globPattern, (Glob.regrouped_pattern _).isAccepted_eq, Regex.isAccepted_sequence_iff]
  constructor
  · intro accepted name isName
    obtain ⟨isLast, isPiece⟩ := Glob.exists_piece_of_mem_names isName
    exact (GlobSegment.isAccepted_piece_iff options name isLast).mp (accepted _ isPiece)
  · intro accepted piece isPiece
    rcases Glob.eq_of_mem_pieces isPiece with rfl | rfl | ⟨name, isName, isLast, rfl⟩
    · rfl
    · cases options.platform <;> rfl
    · exact (GlobSegment.isAccepted_piece_iff options name isLast).mpr (accepted name isName)

end PathGlob
