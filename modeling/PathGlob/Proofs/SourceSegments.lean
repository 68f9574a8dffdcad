import PathGlob.Proofs.GlobPieces

/-! # The source of a glob, segment by segment

What a segment adds to the source of a glob does not depend on the other segments: it is what the
source of the segment alone holds between its anchor and the separators at its end. Between and
behind the segments stand texts that only depend on the platform.

A glob is read by a cursor that goes over its whole text and looks behind and ahead without regard to
where segments stop. That it reads each segment as if nothing stood beside it is `Glob.ofText_eq`.
-/

namespace PathGlob

namespace Platform

def partingText : Platform → String
  | windows => "[\\\\/]+"
  | posix => "/+"

/-- The text for the separators that a path may end with. -/
def trailingText : Platform → String
  | windows => "[\\\\/]*"
  | posix => "/*"

def globstarText : Platform → String
  | windows => "(?:[^\\\\/]*[\\\\/]+)*"
  | posix => "(?:[^/]*/+)*"

/-- The text for any number of whole segments at the end of a glob. -/
def lastGlobstarText : Platform → String
  | windows => "(?:[^\\\\/]*[\\\\/]+)*[^\\\\/]*"
  | posix => "(?:[^/]*/+)*[^/]*"

private theorem text_partingPattern (platform : Platform) :
    platform.partingPattern.text = platform.partingText.toList := by
  cases platform <;> rfl

private theorem text_trailingPattern (platform : Platform) :
    platform.trailingPattern.text = platform.trailingText.toList := by
  cases platform <;> rfl

private theorem text_globstarPattern (platform : Platform) :
    platform.globstarPattern.text = platform.globstarText.toList := by
  cases platform <;> rfl

private theorem text_lastGlobstarPattern (platform : Platform) :
    (Regex.seq platform.globstarPattern platform.runPattern).text =
      platform.lastGlobstarText.toList := by
  cases platform <;> rfl

end Platform

namespace GlobSource

variable (options : Options)

instance (segment : List Char) : Decidable (GlobMeaning.IsGlobstar options segment) :=
  inferInstanceAs (Decidable (_ ∧ _))

/-- What the source of a glob of one segment holds between `^` and the separators at its end. -/
def segmentText (segment : List Char) : List Char :=
  ((globSource options (String.ofList segment)).toList.drop 1).rdrop
    (options.platform.trailingText.length + 1)

/-- What a segment adds to the source of a glob. Separators follow it, except that a globstar brings
its own. -/
def segmentSource (isLast : Bool) (segment : List Char) : List Char :=
  if GlobMeaning.IsGlobstar options segment then
    if isLast then options.platform.lastGlobstarText.toList else options.platform.globstarText.toList
  else
    segmentText options segment ++
      if isLast then options.platform.trailingText.toList else options.platform.partingText.toList

/-- What segments add to the source of a glob. -/
def joined : List (List Char) → List Char
  | [] => []
  | [segment] => segmentSource options true segment
  | segment :: next :: others => segmentSource options false segment ++ joined (next :: others)

variable {options}

/-- The glob of one segment, which is no globstar. -/
theorem ofText_segment {segment : List Char} (nonempty : segment ≠ [])
    (noSeparator : ∀ c ∈ segment, options.platform.isSeparator c = false)
    (isShape : ¬GlobMeaning.IsGlobstar options segment) :
    Glob.ofText options segment = ⟨false, [.shape (Shape.ofSegment options segment)]⟩ := by
  have alone := Path.names_of_no_separator nonempty noSeparator
  have unrooted : segment.head?.any options.platform.isSeparator = false := by
    obtain ⟨c, rest, rfl⟩ := List.exists_cons_of_ne_nil nonempty
    exact noSeparator c List.mem_cons_self
  rw [Glob.ofText_eq, alone, unrooted, List.map_singleton, ofText_of_not_isGlobstar isShape]

theorem toList_globSource_segment {segment : List Char} (nonempty : segment ≠ [])
    (noSeparator : ∀ c ∈ segment, options.platform.isSeparator c = false)
    (isShape : ¬GlobMeaning.IsGlobstar options segment) :
    (globSource options (String.ofList segment)).toList = '^' ::
      (((Shape.ofSegment options segment).pattern options.platform).text ++
        options.platform.trailingText.toList ++ ['$']) := by
  rw [toList_globSource, String.toList_ofList, ofText_segment nonempty noSeparator isShape]
  simp [Glob.pieces, Glob.segmentPieces, GlobSegment.piece, Regex.text,
    Platform.text_trailingPattern]

/-- The source of the segment alone gives away what the expression of the segment is written as. -/
theorem segmentText_eq {segment : List Char} (nonempty : segment ≠ [])
    (noSeparator : ∀ c ∈ segment, options.platform.isSeparator c = false)
    (isShape : ¬GlobMeaning.IsGlobstar options segment) :
    segmentText options segment =
      ((Shape.ofSegment options segment).pattern options.platform).text := by
  rw [segmentText, toList_globSource_segment nonempty noSeparator isShape, List.drop_succ_cons,
    List.drop_zero, List.rdrop_concat_succ, List.rdrop, List.length_append, String.length_toList,
    Nat.add_sub_cancel, List.take_left]

/-- The piece of a segment is written as what the segment adds. -/
theorem text_piece (isLast : Bool) {segment : List Char} (nonempty : segment ≠ [])
    (noSeparator : ∀ c ∈ segment, options.platform.isSeparator c = false) :
    ((GlobSegment.ofText options segment).piece options.platform isLast).text =
      segmentSource options isLast segment := by
  unfold segmentSource
  split
  · next isGlobstar =>
    rw [ofText_of_isGlobstar isGlobstar]
    cases isLast with
    | true => exact options.platform.text_lastGlobstarPattern
    | false => exact options.platform.text_globstarPattern
  · next isShape =>
    rw [ofText_of_not_isGlobstar isShape, segmentText_eq nonempty noSeparator isShape]
    cases isLast with
    | true => exact congrArg _ options.platform.text_trailingPattern
    | false => exact congrArg _ options.platform.text_partingPattern

private theorem text_segmentPieces {names : List (List Char)} (nonempty : ∀ name ∈ names, name ≠ [])
    (noSeparator : ∀ name ∈ names, ∀ c ∈ name, options.platform.isSeparator c = false) :
    (Glob.segmentPieces options.platform (names.map (GlobSegment.ofText options))).flatMap
      Regex.text = joined options names := by
  induction names with
  | nil => rfl
  | cons segment others ih =>
    obtain ⟨firstNonempty, othersNonempty⟩ := List.forall_mem_cons.mp nonempty
    obtain ⟨firstNoSeparator, othersNoSeparator⟩ := List.forall_mem_cons.mp noSeparator
    have following := ih othersNonempty othersNoSeparator
    cases others with
    | nil =>
      rw [List.map_singleton, Glob.segmentPieces, List.flatMap_singleton, joined,
        text_piece true firstNonempty firstNoSeparator]
    | cons next others =>
      rw [List.map_cons, List.map_cons, Glob.segmentPieces, List.flatMap_cons, joined,
        text_piece false firstNonempty firstNoSeparator, ← following, List.map_cons]

/-- A glob of separators alone starts with one. -/
theorem head?_of_names_eq_nil {platform : Platform} {text : List Char} (nonempty : text ≠ [])
    (noName : Path.names platform text = []) : text.head?.any platform.isSeparator = true := by
  obtain ⟨c, rest, rfl⟩ := List.exists_cons_of_ne_nil nonempty
  by_contra separates
  exact Path.names_ne_nil_of_mem List.mem_cons_self (Bool.eq_false_iff.mpr separates) noName

theorem text_pieces {text : List Char} (nonempty : text ≠ []) :
    ((Glob.ofText options text).pieces options.platform).flatMap Regex.text =
      (if text.head?.any options.platform.isSeparator then options.platform.partingText.toList
        else []) ++ joined options (Path.names options.platform text) := by
  have segments : (Glob.segmentPieces options.platform
      ((Path.names options.platform text).map (GlobSegment.ofText options))).flatMap Regex.text =
        joined options (Path.names options.platform text) :=
    text_segmentPieces (fun _ => Path.ne_nil_of_mem_names) fun _ isName _ =>
      Path.isSeparator_of_mem_names isName
  rw [Glob.ofText_eq]
  unfold Glob.pieces
  dsimp only
  split
  · next unrooted noSegment =>
    have rooted := head?_of_names_eq_nil nonempty (List.map_eq_nil_iff.mp noSegment)
    rw [unrooted] at rooted
    cases rooted
  · next unrooted _ =>
    rw [unrooted, if_neg Bool.false_ne_true, segments]
    rfl
  · next rooted =>
    rw [rooted, if_pos rfl, List.flatMap_cons, segments, Platform.text_partingPattern]

/-- The source of a glob is what its segments add, one by one, behind the text for separators if the
glob starts with one. A segment adds what its own source holds, so the source of a glob is settled
by its segments and by whether it starts with a separator. -/
theorem globSource_eq_joined (options : Options) (glob : String) (nonempty : glob ≠ "") :
    (globSource options glob).toList = '^' ::
        ((if glob.toList.head?.any options.platform.isSeparator then
            options.platform.partingText.toList else []) ++
          joined options (Path.names options.platform glob.toList) ++ ['$']) ∧
      (∀ segment ∈ Path.names options.platform glob.toList, ¬GlobMeaning.IsGlobstar options segment →
        (globSource options (String.ofList segment)).toList =
          '^' :: (segmentText options segment ++ options.platform.trailingText.toList ++ ['$'])) ∧
      ∀ other : String,
        Path.names options.platform other.toList = Path.names options.platform glob.toList →
        other.toList.head?.any options.platform.isSeparator =
          glob.toList.head?.any options.platform.isSeparator →
        globSource options other = globSource options glob := by
  refine ⟨?_, ?_, ?_⟩
  · rw [toList_globSource, text_pieces (by simpa using nonempty)]
  · intro segment isName isShape
    have nonempty := Path.ne_nil_of_mem_names isName
    have noSeparator : ∀ c ∈ segment, options.platform.isSeparator c = false :=
      fun _ => Path.isSeparator_of_mem_names isName
    rw [segmentText_eq nonempty noSeparator isShape,
      toList_globSource_segment nonempty noSeparator isShape]
  · intro other sameNames sameStart
    rw [globSource, globSource, globPattern, globPattern, Glob.ofText_eq, Glob.ofText_eq, sameNames,
      sameStart]

theorem globSource_rooted_malformed_globstar :
    "//a/[b/**" ≠ "" ∧ (globSource {} "//a/[b/**").toList = '^' ::
      (Platform.posix.partingText.toList ++
        joined {} [['a'], ['[', 'b'], ['*', '*']] ++ ['$']) :=
  ⟨by decide, (globSource_eq_joined {} "//a/[b/**" (by decide)).1⟩

example : globSource {} "//a/[b/**" = "^/+a/+\\[b/+(?:[^/]*/+)*[^/]*$" := by decide

end GlobSource

end PathGlob
