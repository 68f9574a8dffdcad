import PathGlob.Proofs.BracketReading

/-! # Reading segments

Scanning a segment and matching up its groups agree with the grammar: a segment has a shape exactly
if its syntax is complete, and the shape is that of its items (`Shape.ofSegment?_eq_some_iff`).

The reading is followed from the front. `Shape.resume?` is what is made of the rest of a segment
when some groups are open and some alternatives are begun; a rule of the grammar tells how it goes
on behind the text the rule covers.
-/

namespace PathGlob

namespace Branches

/-- Continues alternatives by alternatives, the first of which goes on with the last one so far. -/
def extend (branches : Branches) : List (List Shape) → Branches
  | [] => branches
  | [branch] => branch.foldl append branches
  | branch :: next :: others => ((branch.foldl append branches).split).extend (next :: others)

private theorem extend_cons_cons (branches : Branches) (shape : Shape) (branch : List Shape)
    (others : List (List Shape)) :
    branches.extend ((shape :: branch) :: others) =
      (branches.append shape).extend (branch :: others) := by
  cases others <;> rfl

theorem foldl_append (branches : Branches) (branch : List Shape) :
    branch.foldl append branches = { branches with last := branch.foldl .seq branches.last } := by
  induction branch generalizing branches with
  | nil => rfl
  | cons shape rest ih => rw [List.foldl_cons, ih]; rfl

private theorem close_extend (branches : Branches) (branch : List Shape) (others : List (List Shape)) :
    (branches.extend (branch :: others)).close =
      (others.map Shape.sequence).foldl .alt (branch.foldl append branches).close := by
  induction others generalizing branches branch with
  | nil => rfl
  | cons next others ih => rw [extend, ih, foldl_append _ next]; rfl

/-- Alternatives read from the start make up the shape of all of them. -/
theorem close_extend_empty (first : List Shape) (others : List (List Shape)) :
    (({} : Branches).extend (first :: others)).close = Shape.alternatives first others := by
  rw [close_extend, foldl_append]
  rfl

end Branches

namespace Shape

/-- The shape of a segment of which a text is left, with groups that are open. -/
def resume? (options : Options) (groups : List OpenGroup) (branches : Branches)
    (text : List Char) : Option Shape :=
  (GlobToken.scan? options .between text).bind (build? groups branches)

end Shape

namespace GlobGrammar

open GlobToken Shape

variable {options : Options} {groups : List OpenGroup} {branches : Branches}
variable {text middle rest body : List Char} {inside : Option GroupKind} {item : GlobItem}

/-- Reading goes on alike from two texts if the scanner finds a first token in one of them. -/
theorem resume?_of_scan? (token : GlobToken) {groups' : List OpenGroup} {branches' : Branches}
    (scans : scan? options .between text = (scan? options .between rest).map (token :: ·))
    (builds : ∀ tokens, build? groups branches (token :: tokens) = build? groups' branches' tokens) :
    resume? options groups branches text = resume? options groups' branches' rest := by
  simp only [resume?, scans, Option.bind_map, Function.comp_def, builds]

/-- A step that completes a token. -/
theorem scan?_of_token {place : Place} (next : Place) (token : GlobToken) {c : Char}
    (moves : step options place c rest = some (next, [token])) :
    scan? options place (c :: rest) = (scan? options next rest).map (token :: ·) := by
  simp [scan?_cons, moves]

/-- After the first star the scanner goes over all others. -/
theorem scan?_stars (more : Nat) (complete : rest.head? ≠ some '*') :
    scan? options .stars (List.replicate more '*' ++ rest) = scan? options .between rest := by
  induction more with
  | zero =>
    cases rest with
    | nil => rfl
    | cons c rest =>
      have notStar : c ≠ '*' := fun star => complete (by rw [star]; rfl)
      simp [scan?_cons, step, notStar]
  | succ more ih =>
    rw [List.replicate_succ, List.cons_append, ← ih]
    exact scan?_of_step _ (by simp [step])

/-- Where no extended group opens, a character has the role it has alone. -/
theorem operator?_eq_none {c : Char}
    (opensNone : ∀ kind body, ¬OpensGroup options (c :: rest) kind body) :
    (if options.extended && rest.head? == some '(' then GroupKind.ofOperator? c else none) =
      none := by
  split
  · next both =>
    rw [Bool.and_eq_true, beq_iff_eq] at both
    obtain ⟨body, rfl⟩ := List.head?_eq_some_iff.mp both.2
    cases operator : GroupKind.ofOperator? c with
    | none => rfl
    | some kind => exact (opensNone kind body ⟨c, both.1, operator, rfl⟩).elim
  · rfl

theorem escapeMark_eq (options : Options) :
    options.platform.escapeMark = '\\' ∨ options.platform.escapeMark = '\x60' := by
  cases options.platform <;> simp [Platform.escapeMark]

/-- What the scanner makes of a character that is literal where it stands. -/
def literalToken : Char → GlobToken
  | '}' => .closeBrace
  | ',' => .comma
  | ')' => .closeParen
  | '|' => .bar
  | c => .char c

theorem step_literal {c : Char} (isLiteral : IsLiteral options inside c)
    (opensNone : ∀ kind body, ¬OpensGroup options (c :: rest) kind body) :
    step options .between c rest = some (.between, [literalToken c]) := by
  obtain ⟨noRole, _⟩ := isLiteral
  simp only [List.mem_cons, List.not_mem_nil, or_false, not_or] at noRole
  obtain ⟨notEscape, notBracket, notBrace, notAny, notStar⟩ := noRole
  simp only [step, stepBetween, notEscape, if_false, operator?_eq_none opensNone]
  unfold literalToken
  split <;> simp_all

private theorem build?_literal {c : Char} (isLiteral : IsLiteral options (groups.head?.map (·.kind)) c)
    (tokens : List GlobToken) :
    build? groups branches (literalToken c :: tokens) =
      build? groups (branches.append (.char c)) tokens := by
  obtain ⟨_, notOwn⟩ := isLiteral
  unfold literalToken
  split <;> cases groups with
    | nil => simp [build?]
    | cons group outer =>
      have notOwn := notOwn group.kind rfl
      obtain ⟨kind, around⟩ := group
      cases kind <;> simp_all [build?, GroupKind.closer, GroupKind.bar]

/-- A single item is one token to the scanner, and this continues the alternative that is read. -/
theorem Single.exists_token (single : Single options inside text item rest) :
    ∃ token, scan? options .between text = (scan? options .between rest).map (token :: ·) ∧
      ∀ groups branches, inside = groups.head?.map (·.kind) → ∀ tokens,
        build? groups branches (token :: tokens) =
          build? groups (branches.append item.shape) tokens := by
  have notEscape := escapeMark_eq options
  cases single with
  | escaped c rest =>
    refine ⟨.char c, ?_, fun groups branches _ tokens => by simp only [build?, GlobItem.shape]⟩
    rw [scan?_of_step .escape (by simp [step, stepBetween])]
    exact scan?_of_token _ _ rfl
  | anyChar rest opensNone =>
    refine ⟨.anyChar, ?_, fun groups branches _ tokens => by simp only [build?, GlobItem.shape]⟩
    apply scan?_of_token
    simp only [step, stepBetween, operator?_eq_none opensNone]
    rcases notEscape with mark | mark <;> simp [mark]
  | anyRun more rest complete opensNone =>
    refine ⟨.anyRun, ?_, fun groups branches _ tokens => by simp only [build?, GlobItem.shape]⟩
    rw [← scan?_stars more complete]
    apply scan?_of_token
    simp only [step, stepBetween, operator?_eq_none opensNone]
    rcases notEscape with mark | mark <;> simp [mark]
  | @bracket text rest cls bracket valid once =>
    refine ⟨.bracket cls false, ?_, fun groups branches _ tokens => by
      simp only [build?, GlobItem.shape]⟩
    have alone : isRepeat options rest = false := by
      unfold isRepeat
      split
      · next more =>
        by_cases extended : options.extended = true
        · simp [once more extended rfl]
        · simp [extended]
      · rfl
    rw [scan?_bracket bracket, afterBracket?, if_pos valid, alone]
    rfl
  | @repeated text rest cls bracket valid extended opensNone =>
    refine ⟨.bracket cls true, ?_, fun groups branches _ tokens => by
      simp only [build?, GlobItem.shape]⟩
    have repeats : isRepeat options ('+' :: rest) = true := by simp [isRepeat, extended, opensNone]
    rw [scan?_bracket bracket, afterBracket?, if_pos valid, repeats]
    exact congrArg (Option.map _) (scan?_of_step _ rfl)
  | literal c rest isLiteral opensNone =>
    refine ⟨literalToken c, scan?_of_token _ _ (step_literal isLiteral opensNone), ?_⟩
    exact fun groups branches innermost => build?_literal (innermost ▸ isLiteral)

/-- A single item continues the alternative that is read. -/
theorem resume?_single (single : Single options inside text item rest)
    (innermost : inside = groups.head?.map (·.kind)) :
    resume? options groups branches text =
      resume? options groups (branches.append item.shape) rest := by
  obtain ⟨token, scans, builds⟩ := single.exists_token
  exact resume?_of_scan? token scans (builds groups branches innermost)

theorem scan?_opens {kind : GroupKind} (opens : Opens options text kind body) :
    scan? options .between text = (scan? options .between body).map (.openGroup kind :: ·) := by
  have notEscape := escapeMark_eq options
  cases opens with
  | brace =>
    apply scan?_of_token
    simp only [step, stepBetween, GroupKind.ofOperator?]
    rcases notEscape with mark | mark <;> simp [mark]
  | extended opens =>
    obtain ⟨operator, extended, known, rfl⟩ := opens
    have notMark : operator ≠ options.platform.escapeMark := by
      rintro rfl
      rcases notEscape with mark | mark <;> simp [mark, GroupKind.ofOperator?] at known
    have skips : scan? options .tail ('(' :: body) = scan? options .between body :=
      scan?_of_step _ rfl
    rw [← skips]
    apply scan?_of_token
    simp [step, stepBetween, notMark, extended, known]

/-- A group that opens puts the alternatives around it aside. -/
theorem resume?_opens {kind : GroupKind} (opens : Opens options text kind body) :
    resume? options groups branches text =
      resume? options (⟨kind, branches⟩ :: groups) {} body :=
  resume?_of_scan? (.openGroup kind) (scan?_opens opens) fun tokens => by simp only [build?]

/-- What closes a group or parts its alternatives is a token of its own, wherever it stands. -/
theorem step_sign {kind : GroupKind} {c : Char} (isSign : c = kind.closer ∨ c = kind.bar) :
    step options .between c rest = some (.between, [literalToken c]) := by
  have notEscape := escapeMark_eq options
  rcases isSign with rfl | rfl <;> cases kind <;> rcases notEscape with mark | mark <;>
    simp [step, stepBetween, mark, GroupKind.closer, GroupKind.bar, GroupKind.ofOperator?,
      literalToken]

/-- The character that closes the innermost group puts it behind what stood in front of it. -/
theorem resume?_close {kind : GroupKind} {around : Branches} :
    resume? options (⟨kind, around⟩ :: groups) branches (kind.closer :: rest) =
      resume? options groups (around.append (.group kind branches.close)) rest := by
  apply resume?_of_scan? (literalToken kind.closer)
  · exact scan?_of_token _ _ (step_sign (.inl rfl))
  · intro tokens
    cases kind <;> simp [GroupKind.closer, literalToken, build?]

/-- The character that parts the alternatives of the innermost group starts another one. -/
theorem resume?_part {kind : GroupKind} {around : Branches} :
    resume? options (⟨kind, around⟩ :: groups) branches (kind.bar :: rest) =
      resume? options (⟨kind, around⟩ :: groups) branches.split rest := by
  apply resume?_of_scan? (literalToken kind.bar)
  · exact scan?_of_token _ _ (step_sign (.inr rfl))
  · intro tokens
    cases kind <;> simp [GroupKind.bar, literalToken, build?]

/-- What becomes of alternatives that are complete: a group goes behind what stood in front of it
and reading goes on, or they are the whole segment. -/
def closed? (options : Options) : List OpenGroup → Branches → List Char → Option Shape
  | [], branches, _ => some branches.close
  | ⟨kind, around⟩ :: outer, branches, rest =>
    resume? options outer (around.append (.group kind branches.close)) rest

/-- Reading follows the grammar up to the end of the alternatives that are begun. -/
theorem resume?_of_reads {alternatives : List (List GlobItem)}
    (reads : Reads options inside text alternatives rest)
    (innermost : inside = groups.head?.map (·.kind)) :
    resume? options groups branches text =
      closed? options groups (branches.extend (alternatives.map (List.map GlobItem.shape))) rest := by
  induction reads generalizing groups branches with
  | finish =>
    cases groups with
    | nil => rfl
    | cons group outer => cases innermost
  | close kind rest =>
    cases groups with
    | nil => cases innermost
    | cons group outer =>
      obtain rfl : kind = group.kind := Option.some.inj innermost
      exact resume?_close
  | @part kind text rest alternatives others ih =>
    cases groups with
    | nil => cases innermost
    | cons group outer =>
      obtain rfl : kind = group.kind := Option.some.inj innermost
      rw [resume?_part, ih rfl]
      cases alternatives with
      | nil => cases others
      | cons branch others => rfl
  | single single following ih =>
    rw [resume?_single single innermost, ih innermost]
    simp only [List.map_cons, Branches.extend_cons_cons]
  | group opens content following contentIh ih =>
    rw [resume?_opens opens, contentIh rfl, closed?, List.map_cons, Branches.close_extend_empty,
      ← GlobItem.shape_group, ih innermost]
    simp only [List.map_cons, Branches.extend_cons_cons]

theorem Single.length_lt (single : Single options inside text item rest) :
    rest.length < text.length := by
  cases single with
  | escaped => simp only [List.length_cons]; omega
  | anyChar | literal => simp
  | anyRun => simp only [List.length_append, List.length_replicate]; omega
  | bracket bracket => exact bracket.length_lt
  | repeated bracket =>
    have := bracket.length_lt
    rw [List.length_cons] at this
    omega

theorem Opens.length_lt {kind : GroupKind} (opens : Opens options text kind body) :
    body.length < text.length := by
  cases opens with
  | brace => simp
  | extended opens =>
    obtain ⟨_, _, _, rfl⟩ := opens
    simp only [List.length_cons]
    omega

theorem Reads.length_le {alternatives : List (List GlobItem)}
    (reads : Reads options inside text alternatives rest) : rest.length ≤ text.length := by
  induction reads with
  | finish => exact Nat.le_refl _
  | close => simp
  | part _ ih => exact ih.trans (by simp)
  | single single _ ih => exact ih.trans single.length_lt.le
  | group opens _ _ contentIh ih => exact ih.trans (contentIh.trans opens.length_lt.le)

/-- A run of stars is followed by something else. -/
theorem exists_replicate_star (text : List Char) :
    ∃ more rest, text = List.replicate more '*' ++ rest ∧ rest.head? ≠ some '*' := by
  induction text with
  | nil => exact ⟨0, [], rfl, by simp⟩
  | cons c text ih =>
    by_cases star : c = '*'
    · obtain ⟨more, rest, rfl, complete⟩ := ih
      exact ⟨more + 1, rest, by rw [star]; rfl, complete⟩
    · exact ⟨0, c :: text, rfl, by simpa using star⟩

/-- Where the scanner does not give up, some rule covers the front of the text. -/
theorem exists_front (inside : Option GroupKind) (nonempty : text ≠ [])
    (scans : (scan? options .between text).isSome) :
    (∃ kind body, Opens options text kind body) ∨
      (∃ item rest, Single options inside text item rest) ∨
      ∃ kind rest, inside = some kind ∧ (text = kind.closer :: rest ∨ text = kind.bar :: rest) := by
  obtain ⟨c, more, rfl⟩ := List.exists_cons_of_ne_nil nonempty
  by_cases escape : c = options.platform.escapeMark
  · subst escape
    cases more with
    | nil =>
      rw [scan?_of_step .escape (by simp [step, stepBetween])] at scans
      cases scans
    | cons d rest => exact .inr (.inl ⟨_, _, .escaped d rest⟩)
  by_cases opens : ∃ kind body, Opens options (c :: more) kind body
  · exact .inl opens
  have opensNone : ∀ kind body, ¬OpensGroup options (c :: more) kind body :=
    fun kind body isOpen => opens ⟨kind, body, .extended isOpen⟩
  have notBrace : c ≠ '{' := by
    rintro rfl
    exact opens ⟨_, _, .brace more⟩
  right
  by_cases bracket : c = '['
  · subst bracket
    obtain ⟨cls, rest, bracket, valid⟩ := exists_bracket_of_scan? scans
    left
    by_cases repeats : ∃ after, options.extended = true ∧ rest = '+' :: after ∧ after.head? ≠ some '('
    · obtain ⟨after, extended, rfl, opensNone⟩ := repeats
      exact ⟨_, _, .repeated bracket valid extended opensNone⟩
    · refine ⟨_, _, .bracket bracket valid fun after extended plus => ?_⟩
      exact by_contra fun opensNone => repeats ⟨after, extended, plus, opensNone⟩
  by_cases any : c = '?'
  · subst any
    exact .inl ⟨_, _, .anyChar more opensNone⟩
  by_cases star : c = '*'
  · subst star
    obtain ⟨stars, rest, rfl, complete⟩ := exists_replicate_star more
    exact .inl ⟨_, _, .anyRun stars rest complete opensNone⟩
  by_cases own : ∃ kind, inside = some kind ∧ (c = kind.closer ∨ c = kind.bar)
  · obtain ⟨kind, innermost, rfl | rfl⟩ := own
    · exact .inr ⟨kind, more, innermost, .inl rfl⟩
    · exact .inr ⟨kind, more, innermost, .inr rfl⟩
  · refine .inl ⟨_, _, .literal c more ⟨?_, ?_⟩ opensNone⟩
    · simp [escape, bracket, notBrace, any, star]
    · intro kind innermost
      refine ⟨fun closer => ?_, fun bar => ?_⟩
      · exact own ⟨kind, innermost, .inl closer⟩
      · exact own ⟨kind, innermost, .inr bar⟩

private theorem scan?_isSome_of_resume? (succeeds : (resume? options groups branches text).isSome) :
    (scan? options .between text).isSome := by
  unfold resume? at succeeds
  cases scans : scan? options .between text with
  | none => rw [scans] at succeeds; cases succeeds
  | some tokens => rfl

/-- Where reading does not fail, it has followed the grammar. -/
theorem exists_reads_of_resume? (succeeds : (resume? options groups branches text).isSome) :
    ∃ branch others rest,
      Reads options (groups.head?.map (·.kind)) text (branch :: others) rest := by
  induction size : text.length using Nat.strong_induction_on generalizing text groups branches with
  | _ size shorter =>
    subst size
    by_cases empty : text = []
    · subst empty
      cases groups with
      | nil => exact ⟨[], [], [], .finish⟩
      | cons group outer => cases succeeds
    rcases exists_front (groups.head?.map (·.kind)) empty (scan?_isSome_of_resume? succeeds) with
      ⟨kind, body, opens⟩ | ⟨item, rest, single⟩ | ⟨kind, rest, innermost, rfl | rfl⟩
    · rw [resume?_opens opens] at succeeds
      -- First the content of the group is read, and only then is it known where the rest starts.
      obtain ⟨first, others, middle, content⟩ := shorter _ opens.length_lt succeeds rfl
      rw [resume?_of_reads content rfl] at succeeds
      have fewer := content.length_le.trans_lt opens.length_lt
      obtain ⟨branch, others, rest, following⟩ := shorter _ fewer succeeds rfl
      exact ⟨_, _, _, .group opens content following⟩
    · rw [resume?_single single rfl] at succeeds
      obtain ⟨branch, others, rest, following⟩ := shorter _ single.length_lt succeeds rfl
      exact ⟨_, _, _, .single single following⟩
    · rw [innermost]
      exact ⟨_, _, _, .close kind rest⟩
    · cases groups with
      | nil => cases innermost
      | cons group outer =>
        obtain rfl : group.kind = kind := Option.some.inj innermost
        rw [resume?_part] at succeeds
        obtain ⟨branch, others, rest, reads⟩ := shorter _ (by simp) succeeds rfl
        exact ⟨_, _, _, .part reads⟩

theorem eq_nil_of_reads_none {branch : List GlobItem} {others : List (List GlobItem)}
    (reads : Reads options none text (branch :: others) rest) : others = [] ∧ rest = [] := by
  induction size : text.length using Nat.strong_induction_on generalizing text branch with
  | _ size shorter =>
    subst size
    cases reads with
    | finish => exact ⟨rfl, rfl⟩
    | single single following => exact shorter _ single.length_lt following rfl
    | group opens content following =>
      exact shorter _ (content.length_le.trans_lt opens.length_lt) following rfl

/-- A segment of complete syntax has the shape of its items. -/
theorem ofSegment?_of_isSegment {items : List GlobItem} (segment : IsSegment options text items) :
    Shape.ofSegment? options text = some (Shape.sequence (items.map GlobItem.shape)) := by
  have read : resume? options [] {} text = _ := resume?_of_reads segment rfl
  exact read.trans (congrArg some (Branches.close_extend_empty _ _))

/-- A segment has a shape exactly if its syntax is complete. -/
theorem ofSegment?_eq_some_iff {shape : Shape} :
    Shape.ofSegment? options text = some shape ↔
      ∃ items, IsSegment options text items ∧ shape = Shape.sequence (items.map GlobItem.shape) := by
  constructor
  · intro read
    have succeeds : (resume? options [] {} text).isSome := Option.isSome_of_eq_some read
    obtain ⟨items, others, rest, reads⟩ := exists_reads_of_resume? succeeds
    obtain ⟨rfl, rfl⟩ := eq_nil_of_reads_none reads
    refine ⟨items, reads, ?_⟩
    rw [ofSegment?_of_isSegment reads] at read
    exact (Option.some.inj read).symm
  · rintro ⟨items, segment, rfl⟩
    exact ofSegment?_of_isSegment segment

/-- A segment has no shape exactly if its syntax is not complete. -/
theorem ofSegment?_eq_none_iff :
    Shape.ofSegment? options text = none ↔ ∀ items, ¬IsSegment options text items := by
  constructor
  · intro unread items segment
    rw [ofSegment?_of_isSegment segment] at unread
    cases unread
  · intro incomplete
    cases read : Shape.ofSegment? options text with
    | none => rfl
    | some shape =>
      obtain ⟨items, segment, _⟩ := ofSegment?_eq_some_iff.mp read
      exact (incomplete items segment).elim

end GlobGrammar

end PathGlob
