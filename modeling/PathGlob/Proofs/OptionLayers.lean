import Mathlib.Data.List.Sort
import PathGlob.Config.Basic

/-! # Options in layers

A layer sets some options and leaves the others out. Laid over another one it counts first, option
by option, and what no layer sets has its default. A configuration is such a layer: the options of
its file are those that the last entry of each key sets, laid over the defaults
(`Config.exists_document_of_parse`). The order in which a document lists its keys does not count.
-/

namespace PathGlob

/-- Options each of which may be left out. -/
structure OptionLayer where
  extended : Option Bool := none
  globstar : Option Bool := none
  caseInsensitive : Option Bool := none
  platform : Option Platform := none
  deriving DecidableEq, Repr

namespace OptionLayer

/-- A layer over another one: what the upper layer leaves out, the lower one may set. -/
def above (upper lower : OptionLayer) : OptionLayer where
  extended := upper.extended.or lower.extended
  globstar := upper.globstar.or lower.globstar
  caseInsensitive := upper.caseInsensitive.or lower.caseInsensitive
  platform := upper.platform.or lower.platform

/-- Options with those changed that a layer sets. -/
def applyTo (layer : OptionLayer) (options : Options) : Options where
  extended := layer.extended.getD options.extended
  globstar := layer.globstar.getD options.globstar
  caseInsensitive := layer.caseInsensitive.getD options.caseInsensitive
  platform := layer.platform.getD options.platform

/-- The options of a layer, and the defaults where it leaves them out. -/
def complete (layer : OptionLayer) : Options :=
  layer.applyTo {}

theorem applyTo_applyTo (upper lower : OptionLayer) (options : Options) :
    upper.applyTo (lower.applyTo options) = (upper.above lower).applyTo options := by
  simp only [applyTo, above, Option.getD_or]

theorem applyTo_complete (upper lower : OptionLayer) :
    upper.applyTo lower.complete = (upper.above lower).complete :=
  applyTo_applyTo upper lower {}

end OptionLayer

/-- Steps one after the other succeed only if the first one does. -/
theorem exists_ok_of_bind {ε α β : Type} {first : Except ε α} {next : α → Except ε β} {result : β}
    (succeeds : first >>= next = .ok result) :
    ∃ value, first = .ok value ∧ next value = .ok result := by
  cases first with
  | error fault => cases succeeds
  | ok value => exact ⟨value, rfl, succeeds⟩

/-- The last value of a key that is of the kind that is asked for. -/
def lastOf {α : Type} (decode : Data → Option α) (key : String) (entries : List (String × Data)) :
    Option α :=
  ((entries.filter (·.1 == key)).filterMap fun entry => decode entry.2).getLast?

section LastOf

variable {α : Type} (decode : Data → Option α) (key : String)

private theorem lastOf_cons (name : String) (value : Data) (rest : List (String × Data)) :
    lastOf decode key ((name, value) :: rest) =
      (lastOf decode key rest).or (if name = key then decode value else none) := by
  unfold lastOf
  by_cases same : name = key
  · rw [if_pos same, List.filter_cons_of_pos (by simpa using same)]
    cases decoded : decode value with
    | none => simp only [List.filterMap_cons, decoded, Option.or_none]
    | some wanted =>
      simp only [List.filterMap_cons, decoded, List.getLast?_cons]
      cases List.getLast? _ <;> rfl
  · rw [if_neg same, List.filter_cons_of_neg (by simpa using same), Option.or_none]

/-- Sorting by keys keeps the entries of one key in their order. -/
theorem filter_mergeSort (entries : List (String × Data)) :
    (entries.mergeSort fun first second => first.1 ≤ second.1).filter (·.1 == key) =
      entries.filter (·.1 == key) := by
  have ordered : (entries.filter (·.1 == key)).Pairwise fun first second =>
      decide (first.1 ≤ second.1) = true := by
    rw [List.pairwise_iff_forall_sublist]
    intro first second both
    have isKey : ∀ entry ∈ [first, second], entry.1 = key := fun entry isEntry => by
      simpa using (List.mem_filter.mp (both.subset isEntry)).2
    simp [isKey first, isKey second]
  have kept : (entries.filter (·.1 == key)).Sublist
      (entries.mergeSort fun first second => first.1 ≤ second.1) := by
    apply List.sublist_mergeSort _ _ ordered List.filter_sublist
    · simpa using fun _ _ _ => String.le_trans
    · simpa using fun _ _ => String.le_total _ _
  have sublist := kept.filter (·.1 == key)
  simp only [List.filter_filter, Bool.and_self] at sublist
  exact (sublist.eq_of_length ((List.mergeSort_perm entries _).filter _).length_eq.symm).symm

private theorem lastOf_mergeSort (entries : List (String × Data)) :
    lastOf decode key (entries.mergeSort fun first second => first.1 ≤ second.1) =
      lastOf decode key entries := by
  rw [lastOf, filter_mergeSort, lastOf]

end LastOf

namespace OptionLayer

/-- The layer of entries for options. -/
def ofEntries (kind : DocumentKind) (entries : List (String × Data)) : OptionLayer where
  extended := lastOf (·.toBool.toOption) "extended" entries
  globstar := lastOf (·.toBool.toOption) "globstar" entries
  caseInsensitive := lastOf (·.toBool.toOption) "case_insensitive" entries
  platform := lastOf (fun data => (Platform.ofData kind data).toOption) "platform" entries

/-- The layer of a value that stands for options: entries, or values in the order of the keys. -/
def ofData (kind : DocumentKind) : Data → OptionLayer
  | .map entries => ofEntries kind entries
  | .sequence items => ofEntries kind (Options.keys.zip items)
  | _ => {}

/-- The layer of a configuration document. -/
def ofDocument (entries : List (String × Data)) : OptionLayer :=
  ((lastOf some "compile" entries).map (ofData .toml)).getD {}

private theorem ofEntries_mergeSort (kind : DocumentKind) (entries : List (String × Data)) :
    ofEntries kind (entries.mergeSort fun first second => first.1 ≤ second.1) =
      ofEntries kind entries := by
  simp only [ofEntries, lastOf_mergeSort]

end OptionLayer

namespace Options

variable {kind : DocumentKind} {options result : Options}

/-- Setting an option lays an entry over the options so far, under the entries that follow. -/
theorem applyTo_of_set {changed : Options} {key : String} {value : Data}
    {rest : List (String × Data)} (isSet : options.set kind key value = .ok changed) :
    (OptionLayer.ofEntries kind rest).applyTo changed =
      (OptionLayer.ofEntries kind ((key, value) :: rest)).applyTo options := by
  unfold set at isSet
  split at isSet
  case h_5 => cases isSet
  all_goals
    obtain ⟨wanted, decoded, same⟩ := exists_ok_of_bind isSet
    obtain rfl := Except.ok.inj same
    simp [OptionLayer.applyTo, OptionLayer.ofEntries, lastOf_cons, decoded, Except.toOption]

/-- Setting options one after the other lays all their entries over them. -/
theorem eq_applyTo_of_setAll {entries : List (String × Data)}
    (areSet : setAll kind options entries = .ok result) :
    result = (OptionLayer.ofEntries kind entries).applyTo options := by
  induction entries generalizing options with
  | nil => exact (Except.ok.inj areSet).symm
  | cons entry rest ih =>
    obtain ⟨changed, isSet, areSet⟩ := exists_ok_of_bind areSet
    rw [ih areSet, applyTo_of_set isSet]

/-- Data gives the options of its layer, and the defaults where the layer leaves them out. -/
theorem eq_complete_of_ofData {data : Data} (given : ofData kind data = .ok result) :
    result = (OptionLayer.ofData kind data).complete := by
  cases data with
  | map entries =>
    rw [eq_applyTo_of_setAll given, OptionLayer.ofEntries_mergeSort]
    rfl
  | sequence items =>
    obtain ⟨options, areSet, same⟩ := exists_ok_of_bind given
    split at same
    · cases same
    · rw [← Except.ok.inj same]
      exact eq_applyTo_of_setAll areSet
  | _ => cases given

end Options

namespace Config

variable {config result : Config}

/-- The keys of a configuration, one after the other: the last table of options counts. -/
theorem compile_of_setAll {entries : List (String × Data)}
    (areSet : setAll config entries = .ok result) :
    result.compile = ((lastOf some "compile" entries).map fun data =>
      (OptionLayer.ofData .toml data).complete).getD config.compile := by
  induction entries generalizing config with
  | nil =>
    obtain rfl := Except.ok.inj areSet
    rfl
  | cons entry rest ih =>
    unfold setAll at areSet
    split at areSet
    · next isKey =>
      obtain ⟨options, given, areSet⟩ := exists_ok_of_bind areSet
      rw [ih areSet, lastOf_cons, if_pos isKey, Options.eq_complete_of_ofData given]
      cases lastOf some "compile" rest <;> rfl
    · cases areSet

/-- A configuration is what its document says, and the defaults where it says nothing. -/
theorem exists_document_of_parse {text : String} (parsed : parse text = .ok result) :
    ∃ entries, Toml.parse? text.toList = some entries ∧
      result.compile = (OptionLayer.ofDocument entries).complete := by
  unfold parse at parsed
  split at parsed
  · next entries isDocument =>
    refine ⟨entries, isDocument, ?_⟩
    rw [compile_of_setAll parsed, lastOf_mergeSort, OptionLayer.ofDocument]
    cases lastOf some "compile" entries <;> rfl
  · cases parsed

end Config

end PathGlob
