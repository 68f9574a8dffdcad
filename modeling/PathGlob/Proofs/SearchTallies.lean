import PathGlob.Glob.Matcher
import PathGlob.Regex.MatchExact

/-! # How often a search fails

A search is told how often it may still fail, but that has no say in which way it goes. So a search
has a `Tally`: whether it finds a way in the end, and how often it fails before. The engine gives up
exactly where there are more failures than it may have (`Engine.givesUpOn_backtracking`). Where it does
not, its answer is what its search finds (`Engine.answer?_backtracking`), because there is a way exactly
if the expression matches (`Regex.found_tally`).

A tally takes no count along, so whatever is searched for from a place has one tally, however often it
is searched for from there.
-/

namespace PathGlob

/-- How a search ends that may fail as often as it has to. -/
structure Tally where
  found : Bool
  failures : Nat
  deriving DecidableEq, Repr

namespace Tally

def fail : Tally := ⟨false, 1⟩

def done : Tally := ⟨true, 0⟩

def orElse (first second : Tally) : Tally :=
  if first.found then first else ⟨second.found, first.failures + second.failures⟩

/-- Goes on if a check does not find a way. -/
def refute (check rest : Tally) : Tally :=
  if check.found then ⟨false, check.failures + 1⟩
  else ⟨rest.found, check.failures + rest.failures⟩

def repeated (round : (Nat → Tally) → Nat → Tally) (after : Nat → Tally) :
    (rounds : Nat) → (place : Nat) → Tally
  | 0, place => after place
  | rounds + 1, place =>
    let again (next : Nat) : Tally := if next ≤ place then fail else repeated round after rounds next
    (round again place).orElse (after place)

/-- The search that ends like this. -/
def search (tally : Tally) : Search := fun limit =>
  if limit < tally.failures then none else some (tally.found, limit - tally.failures)

variable {first second check rest : Tally}

private theorem search_fail : fail.search = Search.fail := by
  funext limit
  cases limit <;> simp [search, fail, Search.fail]

private theorem search_done : done.search = pure true := by
  funext limit
  exact if_neg (Nat.not_lt_zero limit)

/-- The failures of one search are no longer there for the next one. -/
private theorem search_bind (first : Tally) (next : Bool → Search) (second : Tally)
    (follows : next first.found = second.search) :
    (first.search >>= next) = search ⟨second.found, first.failures + second.failures⟩ := by
  funext limit
  simp only [bind, StateT.bind, search]
  split
  next tooOften =>
    rw [if_pos (by omega)]
    rfl
  next =>
    simp only [Option.bind_some, follows, search]
    split
    next tooOften => rw [if_pos (by omega)]
    next => rw [if_neg (by omega), Nat.sub_add_eq]

private theorem search_orElse : (first.orElse second).search = first.search.orElse second.search := by
  rw [Search.orElse, orElse]
  split
  next found =>
    rw [search_bind first _ done]
    · rw [done, Nat.add_zero, ← found]
    · simp [found, search_done]
  next fails =>
    rw [search_bind first _ second]
    simp [fails]

private theorem search_refute :
    (check.refute rest).search =
      (do if ← check.search then Search.fail else rest.search) := by
  rw [refute]
  split
  next found =>
    rw [search_bind check _ fail]
    · rfl
    · simp [found, search_fail]
  next fails =>
    rw [search_bind check _ rest]
    simp [fails]

private theorem search_repeated {round : (Nat → Tally) → Nat → Tally}
    {searched : (Nat → Search) → Nat → Search}
    (same : ∀ next place, (round next place).search = searched (fun goal => (next goal).search) place)
    (after : Nat → Tally) (rounds place : Nat) :
    (repeated round after rounds place).search =
      Search.repeated searched (fun goal => (after goal).search) rounds place := by
  induction rounds generalizing place with
  | zero => rfl
  | succ rounds earlier =>
    have again : (fun next => (if next ≤ place then fail else
        repeated round after rounds next).search) = fun next =>
          if next ≤ place then Search.fail else
            Search.repeated searched (fun goal => (after goal).search) rounds next := by
      funext next
      rw [← earlier next, ← search_fail]
      split <;> rfl
    rw [repeated, search_orElse, same, again]
    rfl

end Tally

/-- What comes of what is left to match. -/
inductive Forecast where
  | automaton (goals : Places)
  | search (next : Nat → Tally)

namespace Forecast

def tallyFrom : Forecast → Nat → Tally
  | automaton goals, place => if goals.testBit place then .done else .fail
  | search next, place => next place

@[simp] theorem found_tallyFrom_automaton (goals : Places) (place : Nat) :
    ((automaton goals).tallyFrom place).found = goals.testBit place := by
  rw [tallyFrom]
  split
  next held => exact held.symm
  next missed => exact (eq_false_of_ne_true missed).symm

def remainder : Forecast → Remainder
  | automaton goals => .automaton goals
  | search next => .search fun place => (next place).search

private theorem searchFrom_remainder (rest : Forecast) (place : Nat) :
    rest.remainder.searchFrom place = (rest.tallyFrom place).search := by
  cases rest with
  | automaton goals =>
    rw [remainder, Remainder.searchFrom, tallyFrom]
    split
    · exact Tally.search_done.symm
    · exact Tally.search_fail.symm
  | search next => rfl

end Forecast

namespace Trial

/-- What comes of a trial and of what is left after it. -/
def foresee (length : Nat) (trial : Trial) (rest : Forecast) : Forecast :=
  match trial.automaton? length rest.remainder with
  | some goals => .automaton goals
  | none =>
    match trial with
    | empty => rest
    | never => .search fun _ => .fail
    | letter places => .search fun place =>
      if places.testBit place then rest.tallyFrom (place + 1) else .fail
    | seq first second => first.foresee length (second.foresee length rest)
    | alt first second =>
      let first := first.foresee length rest
      let second := second.foresee length rest
      .search fun place => (first.tallyFrom place).orElse (second.tallyFrom place)
    | group body => body.foresee length (.search rest.tallyFrom)
    | notAhead body =>
      let check := body.foresee length (.automaton (Places.all length))
      .search fun place => (check.tallyFrom place).refute (rest.tallyFrom place)
    | zeroOrMore body =>
      let round (next : Nat → Tally) := (body.foresee length (.search next)).tallyFrom
      .search (Tally.repeated round rest.tallyFrom (length + 1))
    | oneOrMore body =>
      let round (next : Nat → Tally) := (body.foresee length (.search next)).tallyFrom
      .search (round (Tally.repeated round rest.tallyFrom (length + 1)))
    | zeroOrOne body =>
      let once := body.foresee length rest
      .search fun place => (once.tallyFrom place).orElse (rest.tallyFrom place)

def tally (length : Nat) (trial : Trial) : Tally :=
  (trial.foresee length (.automaton (Places.only length))).tallyFrom 0

/-- A trial is left to an automaton on both sides or on none. -/
private theorem remainder_shortcut {left : Option Places} {remainder : Remainder} {rest : Forecast}
    (same : remainder = rest.remainder) :
    (match left with | some goals => Remainder.automaton goals | none => remainder) =
      (match left with | some goals => Forecast.automaton goals | none => rest).remainder := by
  cases left with
  | some goals => rfl
  | none => exact same

/-- One round of a repetition, if its body is foreseen well. -/
private theorem round_search {length : Nat} {body : Trial}
    (same : ∀ rest : Forecast, body.before length rest.remainder = (body.foresee length rest).remainder)
    (next : Nat → Tally) (place : Nat) :
    ((body.foresee length (.search next)).tallyFrom place).search =
      (body.before length (.search fun goal => (next goal).search)).searchFrom place := by
  rw [← Forecast.searchFrom_remainder, ← same, Forecast.remainder]

private theorem before_remainder (length : Nat) (trial : Trial) (rest : Forecast) :
    trial.before length rest.remainder = (trial.foresee length rest).remainder := by
  induction trial generalizing rest with rw [before, foresee] <;> apply remainder_shortcut
  | empty => rfl
  | never => exact congrArg Remainder.search (funext fun _ => Tally.search_fail.symm)
  | letter places =>
    refine congrArg Remainder.search (funext fun place => ?_)
    rw [Forecast.searchFrom_remainder, ← Tally.search_fail]
    exact (apply_ite Tally.search _ _ _).symm
  | seq first second firstSame secondSame => rw [secondSame, firstSame]
  | alt first second firstSame secondSame =>
    refine congrArg Remainder.search (funext fun place => ?_)
    rw [firstSame, secondSame, Forecast.searchFrom_remainder, Forecast.searchFrom_remainder,
      Tally.search_orElse]
  | group body same =>
    rw [← same, Forecast.remainder, funext (Forecast.searchFrom_remainder rest)]
  | notAhead body same =>
    refine congrArg Remainder.search (funext fun place => ?_)
    have check := same (.automaton (Places.all length))
    rw [Forecast.remainder] at check
    rw [check, Forecast.searchFrom_remainder, Forecast.searchFrom_remainder, Tally.search_refute]
  | zeroOrMore body same =>
    refine congrArg Remainder.search (funext fun place => ?_)
    rw [funext (Forecast.searchFrom_remainder rest)]
    exact (Tally.search_repeated (round_search same) _ _ place).symm
  | oneOrMore body same =>
    refine congrArg Remainder.search (funext fun place => ?_)
    rw [funext (Forecast.searchFrom_remainder rest), round_search same]
    congr 1
    exact funext fun goal => (Tally.search_repeated (round_search same) _ _ goal).symm
  | zeroOrOne body same =>
    refine congrArg Remainder.search (funext fun place => ?_)
    rw [same, Forecast.searchFrom_remainder, Forecast.searchFrom_remainder, Tally.search_orElse]

/-- A search ends as its tally says, whatever it is told. -/
theorem search_eq_tally (length : Nat) (trial : Trial) :
    trial.search length = (trial.tally length).search := by
  have same := before_remainder length trial (.automaton (Places.only length))
  rw [Forecast.remainder] at same
  rw [search, same, Forecast.searchFrom_remainder, tally]

end Trial

namespace Tally

open Relation

variable {move : Nat → Nat → Prop} {round : (Nat → Tally) → Nat → Tally} {after : Nat → Tally}
  {length place : Nat}

@[simp] theorem found_orElse (first second : Tally) :
    (first.orElse second).found = (first.found || second.found) := by
  rw [orElse]
  split
  next found => rw [found, Bool.true_or]
  next fails => rw [eq_false_of_ne_true fails, Bool.false_or]

@[simp] theorem found_refute (check rest : Tally) :
    (check.refute rest).found = (!check.found && rest.found) := by
  rw [refute]
  split
  next found => rw [found, Bool.not_true, Bool.false_and]
  next fails => rw [eq_false_of_ne_true fails, Bool.not_false, Bool.true_and]

/-- Nothing is found behind the end of a text. -/
def Inside (next : Nat → Tally) (length : Nat) : Prop :=
  ∀ place, (next place).found = true → place ≤ length

/-- Moves that lead somewhere stay where they are or begin with one that gets further. -/
private theorem eq_or_exists_lt_of_reflTransGen (forward : ∀ place goal, move place goal → place ≤ goal)
    {goal : Nat} (reached : ReflTransGen move place goal) :
    place = goal ∨ ∃ between, place < between ∧ move place between ∧ ReflTransGen move between goal := by
  induction reached using ReflTransGen.head_induction_on with
  | refl => exact .inl rfl
  | head moved reached later =>
    rcases Nat.eq_or_lt_of_le (forward _ _ moved) with rfl | further
    · exact later
    · exact .inr ⟨_, further, moved, reached⟩

/-- Rounds that get further need not be more than there are places left. -/
private theorem found_repeated_iff (move : Nat → Nat → Prop)
    (forward : ∀ place goal, move place goal → place ≤ goal)
    (exact : ∀ next, Inside next length → ∀ place,
      (round next place).found = true ↔ ∃ goal, move place goal ∧ (next goal).found = true)
    (inside : Inside after length) (rounds : Nat) (enough : length < place + rounds) :
    (repeated round after rounds place).found = true ↔
      ∃ goal, ReflTransGen move place goal ∧ (after goal).found = true := by
  induction rounds generalizing place with
  | zero =>
    rw [repeated]
    constructor
    · intro found
      exact ⟨place, .refl, found⟩
    · rintro ⟨goal, reached, found⟩
      have := reflTransGen_le_of_le forward _ _ reached
      have := inside goal found
      omega
  | succ rounds earlier =>
    -- What an idle round leads to is reached without it, so nothing is lost where such a round fails.
    have again : ∀ next, (if next ≤ place then fail else repeated round after rounds next).found = true ↔
        place < next ∧ ∃ goal, ReflTransGen move next goal ∧ (after goal).found = true := by
      intro next
      split
      next back => simp [fail, Nat.not_lt_of_le back]
      next further =>
        rw [earlier (by omega)]
        exact (and_iff_right (Nat.lt_of_not_le further)).symm
    have againInside : Inside (fun next => if next ≤ place then fail else repeated round after rounds next)
        length := by
      intro next found
      obtain ⟨_, goal, reached, found⟩ := (again next).1 found
      have := reflTransGen_le_of_le forward _ _ reached
      have := inside goal found
      omega
    rw [repeated, found_orElse, Bool.or_eq_true, exact _ againInside]
    simp only [again]
    constructor
    · rintro (⟨between, moved, _, goal, reached, found⟩ | found)
      · exact ⟨goal, .head moved reached, found⟩
      · exact ⟨place, .refl, found⟩
    · rintro ⟨goal, reached, found⟩
      rcases eq_or_exists_lt_of_reflTransGen forward reached with rfl | ⟨between, further, moved, later⟩
      · exact .inr found
      · exact .inl ⟨between, moved, further, goal, later, found⟩

end Tally

namespace Regex

open Relation

variable {regex body : Regex} {text : List Letter} {rest : Forecast} {place : Nat}

private theorem found_shortcut {left : Option Places} {forecast : Forecast} {leads : Prop}
    (exact : ∀ goals, left = some goals → (goals.testBit place = true ↔ leads))
    (searched : (forecast.tallyFrom place).found = true ↔ leads) :
    ((match left with | some goals => Forecast.automaton goals | none => forecast).tallyFrom
      place).found = true ↔ leads := by
  cases left with
  | none => exact searched
  | some goals =>
    rw [Forecast.found_tallyFrom_automaton]
    exact exact goals rfl

/-- What is left to an automaton is worked out exactly. -/
private theorem testBit_automaton?_iff (inside : Tally.Inside rest.tallyFrom text.length)
    {goals : Places}
    (left : (regex.trial text).automaton? text.length rest.remainder = some goals) :
    goals.testBit place = true ↔
      ∃ goal, regex.Leads text place goal ∧ (rest.tallyFrom goal).found = true := by
  cases rest with
  | search next => exact absurd left (by simp [Forecast.remainder, Trial.automaton?])
  | automaton last =>
    rw [Forecast.remainder, Trial.automaton?] at left
    split at left
    next => simp at left
    next =>
      obtain rfl := Option.some.inj left
      rw [testBit_starts_plan_iff regex last fun goal held =>
        Nat.lt_succ_of_le (inside goal (by rwa [Forecast.found_tallyFrom_automaton]))]
      simp only [Forecast.found_tallyFrom_automaton, and_comm]

private theorem found_letter_iff {accepts : Letter → Bool}
    (takes : ∀ {text rest}, regex.Takes text rest ↔
      ∃ letter, text = letter :: rest ∧ accepts letter = true) :
    (if (Places.before accepts text).testBit place then rest.tallyFrom (place + 1)
      else Tally.fail).found = true ↔
      ∃ goal, regex.Leads text place goal ∧ (rest.tallyFrom goal).found = true := by
  simp only [leads_letter_iff takes, and_assoc, exists_eq_left]
  split
  next accepted => simp [accepted]
  next refused => simp [refused, Tally.fail]

private theorem found_stay_iff (inside : Tally.Inside rest.tallyFrom text.length) :
    (rest.tallyFrom place).found = true ↔
      ∃ goal, empty.Leads text place goal ∧ (rest.tallyFrom goal).found = true := by
  simp only [leads_empty_iff, and_assoc, exists_eq_left]
  exact (and_iff_right_of_imp (inside place)).symm

private theorem exists_leads_seq_iff {first second : Regex} {reached : Nat → Prop} :
    (∃ goal, (seq first second).Leads text place goal ∧ reached goal) ↔
      ∃ middle, first.Leads text place middle ∧
        ∃ goal, second.Leads text middle goal ∧ reached goal := by
  simp only [leads_seq_iff]
  constructor
  · rintro ⟨goal, ⟨middle, taken, left⟩, held⟩
    exact ⟨middle, taken, goal, left, held⟩
  · rintro ⟨middle, taken, goal, left, held⟩
    exact ⟨goal, ⟨middle, taken, left⟩, held⟩

/-- What expressions lead to lies in the text. -/
private theorem inside_of_leads {next found : Nat → Tally}
    (exact : ∀ place, (found place).found = true ↔
      ∃ goal, regex.Leads text place goal ∧ (next goal).found = true) :
    Tally.Inside found text.length := by
  intro place held
  obtain ⟨goal, ⟨inside, _⟩, _⟩ := (exact place).1 held
  exact inside

/-- A repetition is searched for until no round gets further. -/
private theorem found_repetition_iff
    (exact : ∀ {place} (rest : Forecast), Tally.Inside rest.tallyFrom text.length →
      ((((body.trial text).foresee text.length rest).tallyFrom place).found = true ↔
        ∃ goal, body.Leads text place goal ∧ (rest.tallyFrom goal).found = true))
    (inside : Tally.Inside rest.tallyFrom text.length) (place : Nat) :
    (Tally.repeated (fun next => ((body.trial text).foresee text.length (.search next)).tallyFrom)
      rest.tallyFrom (text.length + 1) place).found = true ↔
      ∃ goal, (zeroOrMore body).Leads text place goal ∧ (rest.tallyFrom goal).found = true := by
  rw [Tally.found_repeated_iff (body.Leads text) (fun _ _ leads => leads.le)
    (fun next inside place => exact (.search next) inside) inside _ (by omega)]
  refine exists_congr fun goal => and_congr_left fun found => ?_
  rw [leads_zeroOrMore_iff, leads_oneOrMore_iff, leads_empty_iff, reflTransGen_iff_eq_or_transGen]
  exact or_congr_left (and_iff_left_of_imp fun same => same ▸ inside goal found).symm

/-- Whatever an expression leads to is searched for and found. -/
theorem found_foresee_iff (regex : Regex) (rest : Forecast)
    (inside : Tally.Inside rest.tallyFrom text.length) :
    (((regex.trial text).foresee text.length rest).tallyFrom place).found = true ↔
      ∃ goal, regex.Leads text place goal ∧ (rest.tallyFrom goal).found = true := by
  induction regex generalizing rest place with rw [trial, Trial.foresee] <;>
      refine found_shortcut (fun goals left => testBit_automaton?_iff inside left) ?_
  | empty => exact found_stay_iff inside
  | never => simp [Forecast.tallyFrom, Tally.fail, Leads]
  | char c => exact found_letter_iff (by simp)
  | anyChar => exact found_letter_iff (by simp)
  | cls c => exact found_letter_iff (by simp)
  | seq first second firstExact secondExact =>
    rw [firstExact _ (inside_of_leads fun place => secondExact rest inside)]
    simp only [secondExact _ inside, exists_leads_seq_iff]
  | alt first second firstExact secondExact =>
    rw [Forecast.tallyFrom, Tally.found_orElse, Bool.or_eq_true, firstExact rest inside,
      secondExact rest inside]
    simp only [leads_alt_iff, or_and_right, exists_or]
  | group body exact => exact exact _ inside
  | notAhead body bodyExact =>
    have everywhere : Tally.Inside (Forecast.automaton (Places.all text.length)).tallyFrom text.length := by
      intro goal held
      rwa [Forecast.found_tallyFrom_automaton, Places.testBit_all, decide_eq_true_eq] at held
    have ahead : (∃ goal, body.Leads text place goal ∧
        ((Forecast.automaton (Places.all text.length)).tallyFrom goal).found = true) ↔
          ∃ goal, body.Leads text place goal :=
      exists_congr fun goal =>
        and_iff_left_of_imp fun leads => by simpa [Places.testBit_all] using leads.2.1
    rw [Forecast.tallyFrom, Tally.found_refute, Bool.and_eq_true, Bool.not_eq_true', ← Bool.not_eq_true,
      bodyExact _ everywhere, ahead]
    simp only [leads_notAhead_iff, and_assoc, exists_eq_left]
    exact (and_iff_right_of_imp fun held => inside place held.2).symm
  | zeroOrMore body bodyExact => exact found_repetition_iff bodyExact inside place
  | oneOrMore body bodyExact =>
    have rounds := found_repetition_iff bodyExact inside
    refine (bodyExact (.search _) (inside_of_leads rounds)).trans ?_
    simp only [leads_oneOrMore_iff_leads_seq, exists_leads_seq_iff]
    exact exists_congr fun middle => and_congr_right fun _ => rounds middle
  | zeroOrOne body bodyExact =>
    rw [Forecast.tallyFrom, Tally.found_orElse, Bool.or_eq_true, bodyExact rest inside,
      found_stay_iff inside, or_comm]
    simp only [leads_zeroOrOne_iff, or_and_right, exists_or]

/-- A search over a whole text finds a way exactly if the expression matches it. -/
theorem found_tally (regex : Regex) (text : List Letter) :
    ((regex.trial text).tally text.length).found = regex.isMatch text := by
  have inside : Tally.Inside (Forecast.automaton (Places.only text.length)).tallyFrom text.length := by
    intro place held
    rw [Forecast.found_tallyFrom_automaton] at held
    exact Nat.le_of_lt_succ (below_only (Nat.le_refl _) place held)
  rw [Bool.eq_iff_iff, Trial.tally, found_foresee_iff regex _ inside, isMatch, Trial.isMatch,
    testBit_starts_plan_iff regex _ (below_only (Nat.le_refl _))]
  simp only [Forecast.found_tallyFrom_automaton, and_comm]

end Regex

namespace Engine

variable {regex : Regex} {text : List Letter} {limit : Nat}

/-- The engine gives up if its search fails too often. -/
theorem givesUpOn_backtracking (limit : Nat) (regex : Regex) (text : List Letter) :
    (backtracking limit).givesUpOn regex text =
      (regex.looksAhead && decide (limit < ((regex.trial text).tally text.length).failures)) := by
  simp only [givesUpOn, backtracking, Regex.looksAhead_trial, Trial.search_eq_tally, Tally.search]
  split
  next tooOften => rw [decide_eq_true tooOften, Option.isNone_none]
  next enough => rw [decide_eq_false enough, Option.isNone_some]

/-- Where there is a check ahead, the engine answers what its search finds. -/
theorem answer?_backtracking (ahead : regex.looksAhead = true) :
    (backtracking limit).answer? regex text =
      ((regex.trial text).search text.length limit).map Prod.fst := by
  rw [answer?, givesUpOn_backtracking, ahead, Bool.true_and, Trial.search_eq_tally, Tally.search]
  simp only [decide_eq_true_eq]
  split
  next => rfl
  next => rw [Option.map_some, Regex.found_tally]

end Engine

namespace Matcher

def tally (matcher : Matcher) (path : String) : Tally :=
  let text := letters matcher.options.caseInsensitive path.toList
  (matcher.regex.trial text).tally text.length

theorem isMatch_backtracking {matcher : Matcher} {path : String} {limit : Nat}
    (ahead : matcher.regex.looksAhead = true) :
    matcher.isMatch path (.backtracking limit) =
      (decide ((matcher.tally path).failures ≤ limit) && (matcher.tally path).found) := by
  rw [isMatch_eq, givesUp, Engine.givesUpOn_backtracking, ahead, Bool.true_and, ← decide_not,
    decide_eq_decide.2 Nat.not_lt, ← Regex.found_tally]
  rfl

end Matcher

end PathGlob
