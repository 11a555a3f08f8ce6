import TaggedStack.Text.Digit

/-!
# Reading command line arguments

A command has options, each under one or more names, and takes at most one other argument: a
word, or the name of a further command with everything that follows it.

Arguments are read in two passes. The first looks at each argument alone and says what it is:
an option by its full name or by an unambiguous start of a long name, possibly with something
attached; something that only looks like an option; the separator `--`, after which nothing is
an option; or a plain argument. Numbers below zero are plain, and so are arguments with a
space. An ambiguous name spoils the whole line. The second pass walks through the arguments in
order and gives the steps to carry out.

* `Options.reading`: what an argument is.
* `Options.cluster`: the options written together in one argument.
* `Options.steps`: the steps of a whole line.
-/

namespace TaggedStack.Cli

/-- What an argument is. -/
inductive Reading (α : Type)
  | plain
  | separator
  /-- An option under a name, and what is written behind the name in the same argument. -/
  | option (action : α) (name : List Char) (attached : Option (List Char))
  /-- Looks like an option, but is none. -/
  | unknown

/-- One step of a command line. -/
inductive Step (α : Type)
  | option (action : α) (value : Option (List Char))
  /-- The word the command takes. -/
  | word (text : List Char)
  /-- The further command with its own arguments. -/
  | command (name : List Char) (args : List (List Char))
  /-- An argument nobody takes. -/
  | surplus (text : List Char)
  /-- The line cannot be read on. -/
  | refused

/-- What a command takes beside its options, as the line is walked through. -/
inductive Slot
  | command
  | word
  /-- The word was just taken. -/
  | filled
  | closed

/-- The options of a command. -/
structure Options (α : Type) where
  /-- All names, long ones with two dashes and short ones with one. -/
  names : List (List Char × α)
  takesValue : α → Bool

/-- Cuts an argument at its first equals sign. -/
def splitMark (arg : List Char) : List Char × Option (List Char) :=
  let stem := arg.takeWhile (· ≠ '=')
  match arg.drop stem.length with
  | [] => (stem, none)
  | _ :: value => (stem, some value)

/-- Whether an argument is a number below zero: digits, or a decimal fraction, after a dash. A
line feed at its end does not count. -/
def isNegativeNumber : List Char → Bool
  | '-' :: rest =>
    let body := if rest.getLast? = some '\n' then rest.dropLast else rest
    let isDigit (c : Char) : Bool := (Text.decimal? (.ofChar c)).isSome
    match body.dropWhile isDigit with
    | [] => !body.isEmpty
    | '.' :: fraction => !fraction.isEmpty && fraction.all isDigit
    | _ => false
  | _ => false

namespace Options

variable {α : Type} (o : Options α)

/-- The option with a given name. -/
def find? (name : List Char) : Option α := (o.names.find? (·.1 = name)).map Prod.snd

/-- The options an argument may stand for: by the start of a long name, or by a short name with
a value behind it. -/
def candidates (arg : List Char) : List (Reading α) :=
  match arg with
  | '-' :: '-' :: _ =>
    let (stem, attached) := splitMark arg
    o.names.filterMap fun (name, action) ↦
      if stem.isPrefixOf name then some (.option action name attached) else none
  | '-' :: c :: rest =>
    o.names.filterMap fun (name, action) ↦
      if name = ['-', c] then some (.option action name (some rest))
      else if arg.isPrefixOf name then some (.option action name none)
      else none
  | _ => []

/-- What an argument with a dash is that is no full name; none if it is ambiguous. -/
def guess (arg : List Char) : Option (Reading α) :=
  match o.candidates arg with
  | [] => some (if isNegativeNumber arg || arg.contains ' ' then .plain else .unknown)
  | [reading] => some reading
  | _ => none

/-- What an argument is; none if it is ambiguous. -/
def reading (arg : List Char) : Option (Reading α) :=
  match arg with
  | '-' :: rest =>
    match o.find? arg with
    | some action => some (.option action arg none)
    | none =>
      if rest.isEmpty then some .plain
      else
        let (stem, attached) := splitMark arg
        match attached, o.find? stem with
        | some value, some action => some (.option action stem (some value))
        | _, _ => o.guess arg
  | _ => some .plain

/-- What all arguments are; none if one is ambiguous. -/
def readings : List (List Char) → Option (List (List Char × Reading α))
  | [] => some []
  | arg :: rest =>
    if arg = ['-', '-'] then some ((arg, .separator) :: rest.map fun a ↦ (a, .plain))
    else do
      let here ← o.reading arg
      let later ← readings rest
      return (arg, here) :: later

/-- The options of short names written together: the first, and the rest of the argument. An
option that takes a value takes all of the rest, or still needs one at the end. -/
def together (action : α) : List Char → Option (List (Step α) × Option α)
  | [] =>
    if o.takesValue action then some ([], some action) else some ([.option action none], none)
  | c :: rest =>
    if o.takesValue action then some ([.option action (some (c :: rest))], none)
    else
      match o.find? ['-', c] with
      | some next =>
        (together next rest).map fun (steps, needy) ↦ (.option action none :: steps, needy)
      | none => none

/-- The options written in one argument, and the option at its end that still needs a value;
none if something is attached that nobody takes. -/
def cluster (action : α) (name : List Char) (attached : Option (List Char)) :
    Option (List (Step α) × Option α) :=
  match attached with
  | none => o.together action []
  | some value =>
    if o.takesValue action then some ([.option action (some value)], none)
    else if name.length = 2 ∧ value ≠ [] then o.together action value
    else none

/-- The steps of a line that was read. -/
def walk : Slot → List (List Char × Reading α) → List (Step α)
  | _, [] => []
  | slot, (text, .plain) :: more =>
    match slot with
    | .command => [.command text (more.map Prod.fst)]
    | .word => .word text :: walk .filled more
    | .filled | .closed => .surplus text :: walk .closed more
  | slot, (text, .separator) :: more =>
    match slot with
    | .command => [.refused]
    | .word => if more.isEmpty then [.surplus text] else walk .word more
    | .filled => walk .closed more
    | .closed => .surplus text :: walk .closed more
  | slot, (text, .unknown) :: more => .surplus text :: walk (settled slot) more
  | slot, (_, .option action name attached) :: more =>
    match o.cluster action name attached with
    | none => [.refused]
    | some (steps, none) => steps ++ walk (settled slot) more
    | some (steps, some needy) =>
      match more with
      | (value, .plain) :: more =>
        steps ++ .option needy (some value) :: walk (settled slot) more
      | _ => [.refused]
where
  /-- A slot that was just filled is closed by the next option. -/
  settled : Slot → Slot
    | .filled => .closed
    | slot => slot

/-- The steps of a line. -/
def steps (slot : Slot) (args : List (List Char)) : List (Step α) :=
  match o.readings args with
  | some tokens => o.walk slot tokens
  | none => [.refused]

end Options

end TaggedStack.Cli
