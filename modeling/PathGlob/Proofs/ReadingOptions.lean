import PathGlob.Proofs.GlobPatternMeaning

/-! # What reading a segment depends on

Of all options, a reader of segments looks at two: whether extended groups are understood, and which
character escapes the next one. The second counts only where such a character stands. So two readers
who agree on both find the same shape in a segment (`Shape.ofSegment_congr`), whatever their other
options are.
-/

namespace PathGlob

variable {a b : Options} {text : List Char}

/-- Two readers see the same escape marks in a text. -/
def SameMarks (a b : Options) (text : List Char) : Prop :=
  ∀ c ∈ text, c = a.platform.escapeMark ↔ c = b.platform.escapeMark

namespace GlobToken

variable {c : Char} (sameGroups : a.extended = b.extended)

include sameGroups

private theorem isRepeat_congr (rest : List Char) : isRepeat a rest = isRepeat b rest := by
  unfold isRepeat
  rw [sameGroups]

/-- One step depends on the options only through the character it goes over. -/
theorem step_congr (sameMark : c = a.platform.escapeMark ↔ c = b.platform.escapeMark) (place : Place)
    (rest : List Char) : step a place c rest = step b place c rest := by
  have between : stepBetween a c rest = stepBetween b c rest := by
    simp only [stepBetween, sameMark, sameGroups]
  cases place with
  | between => exact congrArg some between
  | stars => simp only [step, between]
  | escape | tail => rfl
  | bracket cls inner =>
    cases inner with
    | body => simp only [step, stepBody, sameMark, isRepeat_congr sameGroups]
    | escape => rfl
    | reference left =>
      -- The last two characters of a reference are told from those before them.
      rcases left with _ | _ | left
      · rfl
      · rfl
      · rfl

private theorem scan?_congr (sameMarks : SameMarks a b text) (place : Place) :
    scan? a place text = scan? b place text := by
  induction text generalizing place with
  | nil => cases place <;> rfl
  | cons c rest ih =>
    obtain ⟨first, others⟩ := List.forall_mem_cons.mp sameMarks
    rw [GlobGrammar.scan?_cons, GlobGrammar.scan?_cons, step_congr sameGroups first]
    simp only [ih others]

end GlobToken

/-- Readers who understand the same groups and see the same escape marks find the same shape. -/
theorem Shape.ofSegment_congr (sameGroups : a.extended = b.extended)
    (sameMarks : SameMarks a b text) : ofSegment a text = ofSegment b text := by
  have sameTokens : GlobToken.ofSegment? a text = GlobToken.ofSegment? b text :=
    GlobToken.scan?_congr sameGroups sameMarks .between
  rw [ofSegment, ofSegment, ofSegment?, ofSegment?, sameTokens]

/-- Whether `**` is a globstar has no part in what a segment takes when it is none. -/
theorem GlobMeaning.segmentTakes_globstar_iff (options : Options) (globstar : Bool)
    (segment path rest : List Char) :
    SegmentTakes { options with globstar := globstar } segment path rest ↔
      SegmentTakes options segment path rest := by
  have sameShape : Shape.ofSegment { options with globstar := globstar } segment =
      Shape.ofSegment options segment := Shape.ofSegment_congr rfl fun _ _ => Iff.rfl
  rw [← takesText_ofSegment_iff, ← takesText_ofSegment_iff, sameShape]

end PathGlob
