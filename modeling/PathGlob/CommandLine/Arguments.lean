import PathGlob.Platform

/-! # Arguments of the command line

Options may stand before the name of a command and after it, and mean the same in both places. In
one place no option may stand twice. `--` ends the options, and a lone `-` is a value.
-/

namespace PathGlob.CommandLine

/-- The options that stand alone. -/
inductive Switch where
  | verbose
  | json
  | noExtended
  | noGlobstar
  | caseInsensitive
  deriving DecidableEq, Repr

/-- The options that take a value. -/
inductive Slot where
  | config
  | platform
  deriving DecidableEq, Repr

/-- What an option asks for. -/
inductive Wish where
  | switch (switch : Switch)
  | fill (slot : Slot)
  | version
  | help
  deriving DecidableEq, Repr

namespace Wish

def ofLong? : String → Option Wish
  | "verbose" => some (switch .verbose)
  | "json" => some (switch .json)
  | "config" => some (fill .config)
  | "no-extended" => some (switch .noExtended)
  | "no-globstar" => some (switch .noGlobstar)
  | "case-insensitive" => some (switch .caseInsensitive)
  | "platform" => some (fill .platform)
  | "version" => some version
  | "help" => some help
  | _ => none

def ofLetter? : Char → Option Wish
  | 'v' => some (switch .verbose)
  | 'C' => some (fill .config)
  | 'i' => some (switch .caseInsensitive)
  | 'V' => some version
  | 'h' => some help
  | _ => none

end Wish

/-- Why a command line is not carried out. -/
inductive Stop where
  /-- It is not understood. -/
  | usage
  /-- It asks for the version of the program. -/
  | version
  /-- It asks for help. -/
  | help
  deriving DecidableEq, Repr

/-- The options given in one place. -/
structure Flags where
  switches : List Switch := []
  config : Option String := none
  platform : Option Platform := none
  deriving DecidableEq, Repr

namespace Flags

def turnOn (flags : Flags) (switch : Switch) : Except Stop Flags :=
  if switch ∈ flags.switches then .error .usage
  else .ok { flags with switches := switch :: flags.switches }

def fill (flags : Flags) (slot : Slot) (value : String) : Except Stop Flags :=
  match slot with
  | .config =>
    if flags.config.isSome ∨ value = "" then .error .usage
    else .ok { flags with config := some value }
  | .platform =>
    match flags.platform, Platform.ofAlias? value with
    | none, some platform => .ok { flags with platform := some platform }
    | _, _ => .error .usage

/-- The options of two places, where a value in the inner one counts more. -/
def merge (inner outer : Flags) : Flags where
  switches := inner.switches ++ outer.switches
  config := inner.config.orElse fun _ => outer.config
  platform := inner.platform.orElse fun _ => outer.platform

end Flags

/-- The places where options may stand. -/
inductive Place where
  | beforeCommand
  | afterCommand
  deriving DecidableEq, Repr

namespace Place

/-- Whether a wish to stop is granted. The version is only told before a command. -/
def stop (place : Place) : Wish → Stop
  | .version => if place = .beforeCommand then .version else .usage
  | .help => .help
  | _ => .usage

/-- Reads an option by its long name, with a value after `=` or without. Without one it may have to
wait for its value. -/
def readLong (place : Place) (flags : Flags) (text : List Char) :
    Except Stop (Flags × Option Slot) :=
  let wish? := Wish.ofLong? (String.ofList (text.takeWhile (· != '=')))
  match wish?, text.dropWhile (· != '=') with
  | some (.switch switch), [] => return (← flags.turnOn switch, none)
  | some (.fill slot), [] => return (flags, some slot)
  | some (.fill slot), _ :: value => return (← flags.fill slot (String.ofList value), none)
  | some wish, [] => .error (place.stop wish)
  | _, _ => .error .usage

/-- Reads options by their letters. The rest of the text is the value of one that takes a value. -/
def readLetters (place : Place) : Flags → List Char → Except Stop (Flags × Option Slot)
  | flags, [] => .ok (flags, none)
  | flags, letter :: rest =>
    match Wish.ofLetter? letter, rest with
    | some (.switch switch), rest => do readLetters place (← flags.turnOn switch) rest
    | some (.fill slot), [] => .ok (flags, some slot)
    | some (.fill slot), '=' :: value => do return (← flags.fill slot (String.ofList value), none)
    | some (.fill slot), value => do return (← flags.fill slot (String.ofList value), none)
    | some wish, _ => .error (place.stop wish)
    | none, _ => .error .usage

def readOption (place : Place) (flags : Flags) (argument : String) :
    Except Stop (Flags × Option Slot) :=
  match argument.toList with
  | '-' :: '-' :: name => place.readLong flags name
  | '-' :: letters => place.readLetters flags letters
  | _ => .error .usage

end Place

def isOption (argument : String) : Bool :=
  match argument.toList with
  | '-' :: _ :: _ => true
  | _ => false

/-- The commands by name. -/
inductive CommandName where
  | compile
  | matchPaths
  | isGlob
  | normalize
  | join
  | version
  | help
  deriving DecidableEq, Repr

namespace CommandName

def ofText? : String → Option CommandName
  | "compile" => some compile
  | "match" => some matchPaths
  | "is-glob" => some isGlob
  | "normalize" => some normalize
  | "join" => some join
  | "version" => some version
  | "help" => some help
  | _ => none

def limit? : CommandName → Option Nat
  | compile | normalize => some 1
  | version => some 0
  | matchPaths | isGlob | join | help => none

end CommandName

/-- A command with its values. -/
inductive Command where
  | compile (glob : String)
  | matchPaths (glob : String) (paths : List String)
  | isGlob (inputs : List String)
  | normalize (glob : String)
  | join (globs : List String)
  | version
  deriving DecidableEq, Repr

namespace Command

/-- The command with a name and values, if it takes so many. -/
def of? : CommandName → List String → Option Command
  | .compile, [glob] => some (compile glob)
  | .matchPaths, glob :: path :: paths => some (matchPaths glob (path :: paths))
  | .isGlob, input :: inputs => some (isGlob (input :: inputs))
  | .normalize, [glob] => some (normalize glob)
  | .join, glob :: globs => some (join (glob :: globs))
  | .version, [] => some version
  | _, _ => none

end Command

/-- A command line: options, and a command with options of its own. -/
structure Invocation where
  outer : Flags
  command : Option (Flags × Command)
  deriving DecidableEq, Repr

namespace Invocation

def flags (invocation : Invocation) : Flags :=
  match invocation.command with
  | some (inner, _) => inner.merge invocation.outer
  | none => invocation.outer

/-- Reads what stands after the name of a command: its options and values. -/
def readCommand (limit : Option Nat) : Option Slot → Flags → List String → List String →
    Except Stop (Flags × List String)
  | none, flags, values, [] => .ok (flags, values)
  | some _, _, _, [] => .error .usage
  | some slot, flags, values, argument :: rest =>
    if isOption argument then .error .usage
    else do readCommand limit none (← flags.fill slot argument) values rest
  | none, flags, values, argument :: rest =>
    if argument = "--" then .ok (flags, values ++ rest)
    else if isOption argument then do
      let (flags, waiting) ← Place.afterCommand.readOption flags argument
      readCommand limit waiting flags values rest
    else if limit.any (· ≤ values.length) then .error .usage
    else readCommand limit none flags (values ++ [argument]) rest

/-- Reads a command line, given the options read so far and the one that waits for a value. -/
def read : Option Slot → Flags → List String → Except Stop Invocation
  | none, flags, [] => .ok ⟨flags, none⟩
  | some _, _, [] => .error .usage
  | some slot, flags, argument :: rest =>
    if isOption argument then .error .usage
    else do read none (← flags.fill slot argument) rest
  | none, flags, argument :: rest =>
    if argument = "--" then if rest = [] then .ok ⟨flags, none⟩ else .error .usage
    else if isOption argument then do
      let (flags, waiting) ← Place.beforeCommand.readOption flags argument
      read waiting flags rest
    else
      match CommandName.ofText? argument with
      | none => .error .usage
      | some .help =>
        match rest with
        | [] => .error .help
        | [name] => .error (if (CommandName.ofText? name).isSome then .help else .usage)
        | _ => .error .usage
      | some name => do
        let (inner, values) ← readCommand name.limit? none {} [] rest
        match Command.of? name values with
        | some command => .ok ⟨flags, some (inner, command)⟩
        | none => .error .usage

def ofArguments (arguments : List String) : Except Stop Invocation :=
  read none {} arguments

/-- The configuration that is asked for by an option, or else by the environment. The environment
may not ask for an empty path in a place where no option asks for one. -/
def configPath (invocation : Invocation) (fromEnvironment : Option String) :
    Except Stop (Option String) :=
  let places := invocation.outer :: invocation.command.toList.map (·.1)
  if fromEnvironment = some "" ∧ places.any (·.config.isNone) then .error .usage
  else .ok (invocation.flags.config.orElse fun _ => fromEnvironment)

end Invocation

end PathGlob.CommandLine
