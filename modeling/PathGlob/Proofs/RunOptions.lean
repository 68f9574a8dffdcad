import PathGlob.CommandLine.Run
import PathGlob.Config.FileTree
import PathGlob.Proofs.OptionLayers

/-! # The options of a run

The options that a command runs with are laid in three layers: what the arguments say, over what one
configuration says, over the defaults (`CommandLine.run_layers`). The configuration is the one that
is asked for, and without it a run fails; if none is asked for, it is the first of the file in the
working directory and the user's file that loads. A file that does not load counts for nothing then,
and nothing is taken from a second file.

That is about the command lines that are understood. `CommandLine.understand_eq_ok_iff` tells what the
environment has to do with that: one that asks for an empty path makes the arguments faulty.
-/

namespace PathGlob

namespace Config

/-- A file can be read and is a configuration. -/
def Loads (environment : Environment) (path : String) : Prop :=
  ∃ config, load environment path = .ok config

/-- A path leads to a file, and this loads. -/
def IsFound (environment : Environment) (path : String) : Prop :=
  environment.isFile path = true ∧ Loads environment path

/-- A file loads, and its document sets the options of a layer. -/
def Sets (environment : Environment) (path : String) (layer : OptionLayer) : Prop :=
  Loads environment path ∧ ∃ bytes text entries, environment.content path = .ok bytes ∧
    Text.Utf8.decode? bytes = some text ∧ Toml.parse? text = some entries ∧
      layer = OptionLayer.ofDocument entries

/-- The layer of options that the configuration of a run sets. -/
inductive Chosen (environment : Environment) : Option String → OptionLayer → Prop
  /-- The file that is asked for. -/
  | asked {path : String} {layer : OptionLayer} (sets : Sets environment path layer) :
      Chosen environment (some path) layer
  /-- The file in the working directory. -/
  | here {layer : OptionLayer} (isFile : environment.isFile (inside "." localName) = true)
      (sets : Sets environment (inside "." localName) layer) : Chosen environment none layer
  /-- The file of the user, if there is none in the working directory that loads. -/
  | user {path : String} {layer : OptionLayer}
      (passed : ¬IsFound environment (inside "." localName))
      (isPath : globalPath? environment = some path) (isFile : environment.isFile path = true)
      (sets : Sets environment path layer) : Chosen environment none layer
  /-- No file at all. -/
  | nothing (passed : ¬IsFound environment (inside "." localName))
      (passedUser : ∀ path, globalPath? environment = some path → ¬IsFound environment path) :
      Chosen environment none {}

variable {environment : Environment} {path : String} {layer : OptionLayer} {config : Config}

/-- What a file sets is what its configuration says, laid over the defaults. -/
private theorem exists_sets_of_load (loaded : load environment path = .ok config) :
    ∃ layer, Sets environment path layer ∧ config.compile = layer.complete := by
  have loads : Loads environment path := ⟨config, loaded⟩
  unfold load ofContent at loaded
  split at loaded
  · cases loaded
  next bytes isContent =>
    split at loaded
    · cases loaded
    next text isText =>
      split at loaded
      next same parsed =>
        obtain rfl := Except.ok.inj loaded
        obtain ⟨entries, isDocument, complete⟩ := exists_document_of_parse parsed
        rw [String.toList_ofList] at isDocument
        exact ⟨_, ⟨loads, bytes, text, entries, isContent, isText, isDocument, rfl⟩, complete⟩
      · cases loaded

/-- A file sets one layer only. -/
theorem Sets.unique {other : OptionLayer} (sets : Sets environment path layer)
    (setsOther : Sets environment path other) : layer = other := by
  obtain ⟨_, bytes, text, entries, isContent, isText, isDocument, rfl⟩ := sets
  obtain ⟨_, _, _, _, sameContent, sameText, sameDocument, rfl⟩ := setsOther
  obtain rfl := Except.ok.inj (isContent.symm.trans sameContent)
  obtain rfl := Option.some.inj (isText.symm.trans sameText)
  obtain rfl := Option.some.inj (isDocument.symm.trans sameDocument)
  rfl

/-- The configuration of a file that sets a layer gives the options of the layer. -/
theorem Sets.exists_load (sets : Sets environment path layer) :
    ∃ config, load environment path = .ok config ∧ config.compile = layer.complete := by
  obtain ⟨config, loaded⟩ := sets.1
  obtain ⟨other, setsOther, complete⟩ := exists_sets_of_load loaded
  exact ⟨config, loaded, setsOther.unique sets ▸ complete⟩

private theorem loadFile?_eq_none (passed : ¬IsFound environment path) :
    loadFile? environment path = none := by
  unfold loadFile?
  split
  · next isFile =>
    cases loaded : load environment path with
    | error cause => rfl
    | ok config => exact absurd ⟨isFile, config, loaded⟩ passed
  · rfl

private theorem Sets.exists_loadFile? (sets : Sets environment path layer)
    (isFile : environment.isFile path = true) :
    ∃ config, loadFile? environment path = some config ∧ config.compile = layer.complete := by
  obtain ⟨config, loaded, complete⟩ := sets.exists_load
  exact ⟨config, by rw [loadFile?, if_pos isFile, loaded, Except.toOption], complete⟩

/-- Without a file that is asked for, the chosen layer is what discovery finds. -/
theorem Chosen.compile_discover (chosen : Chosen environment none layer) :
    (discover environment ".").compile = layer.complete := by
  rw [discover, candidates, List.findSome?_cons]
  cases chosen with
  | here isFile sets =>
    obtain ⟨config, found, complete⟩ := sets.exists_loadFile? isFile
    rw [found, Option.getD_some, complete]
  | @user path _ passed isPath isFile sets =>
    obtain ⟨config, found, complete⟩ := sets.exists_loadFile? isFile
    rw [loadFile?_eq_none passed, isPath, Option.toList_some, List.findSome?_cons, found,
      Option.getD_some, complete]
  | nothing passed passedUser =>
    have none : (globalPath? environment).toList.findSome? (loadFile? environment) = none := by
      rw [List.findSome?_eq_none_iff]
      exact fun path isPath => loadFile?_eq_none (passedUser path (Option.mem_toList.mp isPath))
    rw [loadFile?_eq_none passed, none]
    rfl

/-- One layer only is chosen. -/
theorem Chosen.unique {asked? : Option String} {other : OptionLayer}
    (chosen : Chosen environment asked? layer) (chosenOther : Chosen environment asked? other) :
    layer = other := by
  cases chosen with
  | asked sets =>
    obtain ⟨setsOther⟩ := chosenOther
    exact sets.unique setsOther
  | here isFile sets =>
    cases chosenOther with
    | here _ setsOther => exact sets.unique setsOther
    | user passed _ _ _ => exact absurd ⟨isFile, sets.1⟩ passed
    | nothing passed _ => exact absurd ⟨isFile, sets.1⟩ passed
  | user passed isPath isFile sets =>
    cases chosenOther with
    | here isFileOther setsOther => exact absurd ⟨isFileOther, setsOther.1⟩ passed
    | user _ isOther _ setsOther =>
      obtain rfl := Option.some.inj (isPath.symm.trans isOther)
      exact sets.unique setsOther
    | nothing _ passedUser => exact absurd ⟨isFile, sets.1⟩ (passedUser _ isPath)
  | nothing passed passedUser =>
    cases chosenOther with
    | here isFile setsOther => exact absurd ⟨isFile, setsOther.1⟩ passed
    | user _ isPath isFile setsOther => exact absurd ⟨isFile, setsOther.1⟩ (passedUser _ isPath)
    | nothing _ _ => rfl

/-- Unless a file is asked for that does not load, a layer is chosen. -/
theorem exists_chosen {asked? : Option String}
    (loads : ∀ path, asked? = some path → Loads environment path) :
    ∃ layer, Chosen environment asked? layer := by
  have exists_sets {path : String} : Loads environment path → ∃ layer, Sets environment path layer :=
    fun ⟨_, loaded⟩ => (exists_sets_of_load loaded).imp fun _ => And.left
  cases asked? with
  | some path => exact (exists_sets (loads path rfl)).imp fun _ => .asked
  | none =>
    by_cases here : IsFound environment (inside "." localName)
    · exact (exists_sets here.2).imp fun _ => .here here.1
    by_cases user : ∃ path, globalPath? environment = some path ∧ IsFound environment path
    · obtain ⟨path, isPath, isFile, loads⟩ := user
      exact (exists_sets loads).imp fun _ => .user here isPath isFile
    · exact ⟨{}, .nothing here fun path isPath found => user ⟨path, isPath, found⟩⟩

end Config

namespace CommandLine

open Config

def Flags.layer (flags : Flags) : OptionLayer where
  extended := if .noExtended ∈ flags.switches then some false else none
  globstar := if .noGlobstar ∈ flags.switches then some false else none
  caseInsensitive := if .caseInsensitive ∈ flags.switches then some true else none
  platform := flags.platform

private theorem Flags.apply_eq_applyTo_layer (flags : Flags) (options : Options) :
    flags.apply options = flags.layer.applyTo options := by
  simp only [apply, layer, OptionLayer.applyTo, Options.mk.injEq, List.contains_eq_mem]
  refine ⟨?_, ?_, ?_, trivial⟩ <;> split <;> simp_all

/-- How a run ends that carries out a command with some options. -/
def Outcome.ofCommand (engine : Engine) (options : Options) (form : ReportForm)
    (command : Command) : Outcome :=
  match carryOut engine options form command with
  | .ok outcome => outcome
  | .error error => .failure error

/-- How a match ends: with code 0 if the glob compiles and some path matches, with code 1 if it
compiles and none does, and with code 2 if it does not compile. -/
theorem Outcome.code_ofCommand_matchPaths (engine : Engine) (options : Options) (form : ReportForm)
    (glob : String) (paths : List String) :
    let code := (ofCommand engine options form (.matchPaths glob paths)).code
    (code = 0 ↔ ∃ matcher, Matcher.compile options glob = .ok matcher ∧
      ∃ path ∈ paths, matcher.isMatch path engine = true) ∧
    (code = 1 ↔ ∃ matcher, Matcher.compile options glob = .ok matcher ∧
      ∀ path ∈ paths, matcher.isMatch path engine = false) ∧
    (code = 2 ↔ ∃ cause, Matcher.compile options glob = .error cause) := by
  cases compiled : Matcher.compile options glob with
  | error cause =>
    have fails : carryOut engine options form (.matchPaths glob paths) = .error (.glob cause) := by
      rw [carryOut, compiled]
      rfl
    simp [ofCommand, fails, failure]
  | ok matcher =>
    have count_eq_zero :
        Report.matchedCount (paths.map fun path => (path, matcher.isMatch path engine)) = 0 ↔
          ∀ path ∈ paths, matcher.isMatch path engine = false := by
      simp [Report.matchedCount]
    have code_eq : (ofCommand engine options form (.matchPaths glob paths)).code =
        if ∀ path ∈ paths, matcher.isMatch path engine = false then 1 else 0 := by
      simp only [ofCommand, carryOut, compiled, ← count_eq_zero]
      rfl
    simp only [code_eq, Except.ok.injEq, exists_eq_left', reduceCtorEq, exists_false]
    split
    · next none => simpa using none
    · next some => simpa using some

variable {environment : Environment} {arguments : List String} {asked? : Option String}
  {outer inner : Flags} {command : Command}

/-- The environment asks for an empty path, and in some place no option asks for another one. -/
def Invocation.AsksForEmptyPath (invocation : Invocation) (environment : Environment) : Prop :=
  environment.value? configVariable = some "" ∧
    ∃ place ∈ invocation.outer :: invocation.command.toList.map (·.1), place.config = none

private theorem Invocation.configPath_eq_ok_iff {invocation : Invocation} :
    invocation.configPath (environment.value? configVariable) = .ok asked? ↔
      asked? = invocation.flags.config.or (environment.value? configVariable) ∧
        ¬invocation.AsksForEmptyPath environment := by
  have isEmpty : invocation.AsksForEmptyPath environment ↔
      environment.value? configVariable = some "" ∧
        (invocation.outer :: invocation.command.toList.map (·.1)).any (·.config.isNone) = true := by
    simp only [AsksForEmptyPath, List.any_eq_true, Option.isNone_iff_eq_none]
  rw [isEmpty, configPath]
  split
  · next empty => exact iff_of_false (by rintro ⟨⟩) fun asks => asks.2 empty
  · next fine =>
    rw [Except.ok.injEq, Option.orElse_eq_or, and_iff_left fine]
    exact eq_comm

/-- A command line is understood if its arguments are, unless the environment asks for an empty path.
An option counts more than the environment. -/
theorem understand_eq_ok_iff {invocation : Invocation} :
    understand environment arguments = .ok (invocation, asked?) ↔
      Invocation.ofArguments arguments = .ok invocation ∧
        asked? = invocation.flags.config.or (environment.value? configVariable) ∧
        ¬invocation.AsksForEmptyPath environment := by
  rw [← Invocation.configPath_eq_ok_iff]
  constructor
  · intro understood
    obtain ⟨read, isRead, understood⟩ := exists_ok_of_bind understood
    obtain ⟨found, isAsked, same⟩ := exists_ok_of_bind understood
    obtain ⟨rfl, rfl⟩ := Prod.mk.inj (Except.ok.inj same)
    exact ⟨isRead, isAsked⟩
  · rintro ⟨isRead, isAsked⟩
    rw [understand, isRead]
    change (do return (invocation, ← invocation.configPath _)) = _
    rw [isAsked]
    rfl

/-- A run fails, and writes nothing, if the environment asks for an empty path, also if an option in
another place asks for a file. -/
theorem run_of_asksForEmptyPath {invocation : Invocation}
    (isRead : Invocation.ofArguments arguments = .ok invocation)
    (asks : invocation.AsksForEmptyPath environment) :
    run environment arguments = .failure .usage := by
  have refused : invocation.configPath (environment.value? configVariable) = .error .usage := by
    cases isAsked : invocation.configPath (environment.value? configVariable) with
    | ok asked? => exact absurd asks (Invocation.configPath_eq_ok_iff.mp isAsked).2
    | error stop =>
      simp only [Invocation.configPath] at isAsked
      split at isAsked
      · exact isAsked.symm
      · cases isAsked
  have notUnderstood : understand environment arguments = .error .usage := by
    rw [understand, isRead]
    change (do return (invocation, ← invocation.configPath _)) = _
    rw [refused]
    rfl
  simp only [run, notUnderstood]

/-- A chosen layer is what the configuration of a run says. -/
private theorem exists_configuration {layer : OptionLayer} (chosen : Chosen environment asked? layer) :
    ∃ config, configuration environment asked? = .ok config ∧ config.compile = layer.complete := by
  cases asked? with
  | some path =>
    cases chosen with
    | asked sets =>
      obtain ⟨config, loaded, complete⟩ := sets.exists_load
      exact ⟨config, by rw [configuration, loaded, Except.mapError], complete⟩
  | none => exact ⟨discover environment ".", rfl, chosen.compile_discover⟩

section Understood

variable (understood : understand environment arguments = .ok (⟨outer, some (inner, command)⟩, asked?))

include understood

/-- A run carries out its command with the options of the arguments over those of the chosen layer. -/
theorem run_eq_ofCommand {layer : OptionLayer} (chosen : Chosen environment asked? layer) :
    run environment arguments = Outcome.ofCommand environment.engine
      ((inner.merge outer).layer.above layer).complete
      (reportForm environment (inner.merge outer)) command := by
  obtain ⟨config, configured, complete⟩ := exists_configuration chosen
  rw [← OptionLayer.applyTo_complete, ← complete, ← Flags.apply_eq_applyTo_layer]
  simp only [run, understood, carryOutAll, configured]
  rfl

/-- A run fails, and writes nothing, if the file that is asked for does not load. -/
private theorem run_of_not_loads {path : String} (asks : asked? = some path)
    (broken : ¬Loads environment path) :
    ∃ cause, run environment arguments = .failure (.config path cause) := by
  cases loaded : load environment path with
  | ok config => exact absurd ⟨config, loaded⟩ broken
  | error cause =>
    refine ⟨cause, ?_⟩
    simp only [run, understood, carryOutAll, asks, configuration, loaded]
    rfl

end Understood

/-- A place with a file in the working directory that is no configuration, and a user's file. -/
def strayFile : Environment where
  value? name := if name = "XDG_CONFIG_HOME" then some "/w/xdg" else none
  content := (FileTree.ofFiles ["w"] [
    (".globsmith.toml", .file ("globstar".toList.map (·.toNat.toUInt8))),
    ("xdg/globsmith/config.toml",
      .file ("[compile]\nglobstar = false\n".toList.map (·.toNat.toUInt8)))]).content ["w"]

private def strayMatcher : Matcher where
  options := { globstar := false, caseInsensitive := true }
  regex := globPattern { globstar := false, caseInsensitive := true } "A/**"
  accepted := by decide +kernel

end CommandLine
end PathGlob
