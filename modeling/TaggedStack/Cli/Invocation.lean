import TaggedStack.Cli.Grammar
import TaggedStack.Cli.Help
import TaggedStack.Generate
import TaggedStack.Text.Numeral

/-!
# Invocations

What a command line asks for: settings for the machine, and one of three commands. Arguments
are taken one after another, so a request for help counts before any mistake behind it, and a
mistake before any request behind it. Arguments nobody takes are a mistake only once everything
else is done.

The separator `--` attached to an option stands for a blank. It is taken without complaint, and
a later value of the same option replaces it.

* `Invocation.parse`: the invocation of a command line, or why there is none.
-/

namespace TaggedStack.Cli

/-- Why a command line is no invocation. -/
inductive Stop
  | usage
  | help (topic : Topic)
  | version
  deriving DecidableEq, Repr

/-- The options before the command. -/
inductive GlobalOption
  | help
  | version
  | debug
  | quiet
  | memSize
  | stackLimit
  | dataBase

/-- The options of a fuzzing campaign. -/
inductive FuzzOption
  | help
  | tests
  | seed
  | generator
  | maxSteps

/-- The bundled programs. -/
inductive DemoName
  | countdown
  | hello
  deriving DecidableEq, Repr

/-- What a fuzzing campaign is asked for. -/
structure FuzzRequest where
  tests : Quantity := .number 1000
  /-- The seed, if one is named. -/
  seed : Option Quantity := none
  /-- The generator; none for a blank. -/
  generator : Option Generator := some .mixed
  maxSteps : Quantity := .number 1000
  deriving DecidableEq, Repr

/-- What is to be done. -/
inductive Command
  | run (path : String)
  | demo (name : DemoName)
  | fuzz (request : FuzzRequest)
  deriving DecidableEq, Repr

/-- Settings for the machine and its journal. -/
structure Settings where
  debug : Bool := false
  quiet : Bool := false
  memSize : Quantity := .number 150
  stackLimit : Quantity := .number 50
  dataBase : Quantity := .number 100
  deriving DecidableEq, Repr

/-- A command with its settings. -/
structure Invocation where
  settings : Settings
  command : Command
  deriving DecidableEq, Repr

/-- The names of options as characters. -/
def named {α : Type} (names : List (String × α)) : List (List Char × α) :=
  names.map fun (name, action) ↦ (name.toList, action)

/-- The options before the command. -/
def globalOptions : Options GlobalOption where
  names := named [("-h", .help), ("--help", .help), ("--version", .version), ("--debug", .debug),
    ("--quiet", .quiet), ("-q", .quiet), ("--mem-size", .memSize),
    ("--stack-limit", .stackLimit), ("--data-base", .dataBase)]
  takesValue
    | .memSize | .stackLimit | .dataBase => true
    | _ => false

/-- The options of a command that has help only. -/
def helpOptions : Options Unit where
  names := named [("-h", ()), ("--help", ())]
  takesValue _ := false

/-- The options of a fuzzing campaign. -/
def fuzzOptions : Options FuzzOption where
  names := named [("-h", .help), ("--help", .help), ("-n", .tests), ("--num-tests", .tests),
    ("-s", .seed), ("--seed", .seed), ("-g", .generator), ("--generator", .generator),
    ("--max-steps", .maxSteps)]
  takesValue
    | .help => false
    | _ => true

/-- What stands for a blank. -/
def blankMark : List Char := ['-', '-']

/-- The quantity an option is given. -/
def quantity (value : Option (List Char)) : Except Stop Quantity :=
  if value = some blankMark then .ok .blank
  else
    match value.bind fun text ↦ Text.decimalInt? (text.map .ofChar) with
    | some n => .ok (.number n)
    | none => .error .usage

/-- The generator an option is given; none for a blank. -/
def chosen (value : Option (List Char)) : Except Stop (Option Generator) :=
  if value = some blankMark then .ok none
  else
    match value.bind fun text ↦ Generator.ofName? (String.ofList text) with
    | some g => .ok (some g)
    | none => .error .usage

/-- What was read so far, and whether there were arguments nobody takes. -/
structure Progress (β : Type) where
  value : β
  surplus : Bool := false

/-- A word that a command with help only takes. -/
def wordStep {β : Type} (topic : Topic) (accept : String → Option β)
    (p : Progress (Option β)) : Step Unit → Except Stop (Progress (Option β))
  | .option () _ => .error (.help topic)
  | .word text =>
    match accept (String.ofList text) with
    | some b => .ok { p with value := some b }
    | none => .error .usage
  | .surplus _ => .ok { p with surplus := true }
  | .command .. | .refused => .error .usage

/-- The arguments of a command that takes a word and has help only. -/
def parseWord {β : Type} (topic : Topic) (accept : String → Option β)
    (args : List (List Char)) : Except Stop (Progress β) := do
  let p ← (helpOptions.steps .word args).foldlM (wordStep topic accept) ⟨none, false⟩
  match p.value with
  | some b => return ⟨b, p.surplus⟩
  | none => throw .usage

/-- One step of a fuzzing campaign's arguments. -/
def fuzzStep (p : Progress FuzzRequest) : Step FuzzOption → Except Stop (Progress FuzzRequest)
  | .option .help _ => .error (.help .fuzz)
  | .option .tests value => do
    let n ← quantity value
    return { p with value := { p.value with tests := n } }
  | .option .seed value => do
    let n ← quantity value
    return { p with value := { p.value with seed := some n } }
  | .option .maxSteps value => do
    let n ← quantity value
    return { p with value := { p.value with maxSteps := n } }
  | .option .generator value => do
    let g ← chosen value
    return { p with value := { p.value with generator := g } }
  | .surplus _ => .ok { p with surplus := true }
  | .word _ | .command .. | .refused => .error .usage

/-- The bundled program of a given name. -/
def DemoName.ofName? : String → Option DemoName
  | "countdown" => some countdown
  | "hello" => some hello
  | _ => none

/-- A command with its own arguments. -/
def parseCommand (name : String) (args : List (List Char)) :
    Except Stop (Progress Command) := do
  match name with
  | "run" =>
    let p ← parseWord .run some args
    return ⟨.run p.value, p.surplus⟩
  | "demo" =>
    let p ← parseWord .demo DemoName.ofName? args
    return ⟨.demo p.value, p.surplus⟩
  | "fuzz" =>
    let p ← (fuzzOptions.steps .closed args).foldlM fuzzStep ⟨{}, false⟩
    return ⟨.fuzz p.value, p.surplus⟩
  | _ => throw .usage

/-- One step of a whole command line. -/
def globalStep (p : Progress (Settings × Option Command)) :
    Step GlobalOption → Except Stop (Progress (Settings × Option Command))
  | .option action value => do
    let (settings, command) := p.value
    let change (s : Settings) : Progress (Settings × Option Command) :=
      { p with value := (s, command) }
    match action with
    | .help => throw (.help .program)
    | .version => throw .version
    | .debug => return change { settings with debug := true }
    | .quiet => return change { settings with quiet := true }
    | .memSize => return change { settings with memSize := ← quantity value }
    | .stackLimit => return change { settings with stackLimit := ← quantity value }
    | .dataBase => return change { settings with dataBase := ← quantity value }
  | .command name args => do
    let c ← parseCommand (String.ofList name) args
    return ⟨(p.value.1, some c.value), p.surplus || c.surplus⟩
  | .surplus _ => .ok { p with surplus := true }
  | .word _ | .refused => .error .usage

/-- The invocation of a command line. -/
def Invocation.parse (args : List String) : Except Stop Invocation := do
  let steps := globalOptions.steps .command (args.map String.toList)
  let p ← steps.foldlM globalStep ⟨({}, none), false⟩
  match p.value, p.surplus with
  | (settings, some command), false => return ⟨settings, command⟩
  | _, _ => throw .usage

end TaggedStack.Cli
