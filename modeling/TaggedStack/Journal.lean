import TaggedStack.Fault
import TaggedStack.Instr

/-!
# The journal

What the machine reports about its own work: programs loaded, every instruction as it is
carried out, faults, and the final stack and memory. Each event has a level, and a journal
keeps those that reach its threshold. No event has the highest level, so a journal with that
threshold stays empty.

* `Event.level`, `Event.message`: how important an event is and how it is worded.
* `Journal.record`: keeps an event if it is important enough.
-/

namespace TaggedStack

/-- How important an event is, the least first. -/
inductive Level
  | debug
  | warning
  | error
  deriving DecidableEq, Repr

namespace Level

/-- The level's place in the order. -/
def rank : Level → Nat
  | debug => 0
  | warning => 1
  | error => 2

/-- The name a level is shown under. -/
def name : Level → String
  | debug => "DEBUG"
  | warning => "WARNING"
  | error => "ERROR"

end Level

/-- Something worth reporting. -/
inductive Event
  /-- A program was copied to the instructions. -/
  | loaded (count base : Nat)
  /-- A program of the given length is about to run. -/
  | starting (count : Nat) (layout : Layout)
  /-- A literal is about to be pushed. -/
  | literal (value : Int)
  /-- An operation has its operands. -/
  | operation (op : Opcode) (operands : List Int)
  /-- The cycle of the given instruction faulted. -/
  | faulted (index : Int) (cause : Fault)
  /-- The run is over with the given top of the stack. -/
  | finalTop (top : Option Int)
  /-- The run is over with the given memory. -/
  | finalMemory (words : Array Int)

namespace Event

/-- Faults are warnings; all else is detail. -/
def level : Event → Level
  | faulted .. => .warning
  | _ => .debug

/-- How an operation and its operands are shown. A value that is consumed beside a target or
an address stands in parentheses. -/
def operationText (op : Opcode) (operands : List Int) : String :=
  match op, operands with
  | .jz, [target, value] | .stor, [target, value] =>
    s!"{op.name} {target} (top of stack {value})"
  | _, _ => " ".intercalate (op.name :: operands.map toString)

/-- The wording of an event. -/
def message : Event → String
  | loaded count base => s!"Loaded {count} words at {base}"
  | starting count layout => s!"Running {count} words with {layout.text}"
  | literal value => s!"PUSH {value}"
  | operation op operands => operationText op operands
  | faulted index cause => s!"Machine fault at instruction {index}: {cause.message}"
  | finalTop none => "Top of stack: None"
  | finalTop (some value) => s!"Top of stack: {value}"
  | finalMemory words => "Memory: " ++ " ".intercalate (words.toList.map toString)

/-- The numbers in the wording of an event. -/
def numbers : Event → List Int
  | literal value => [value]
  | operation _ operands => operands
  | faulted index cause => index :: cause.numbers
  | _ => []

/-- An event as a line of a report, if its numbers can be written. -/
def line (e : Event) : Except Text.DigitError String :=
  Text.written e.numbers s!"{e.level.name}: {e.message}"

end Event

/-- The events that reached a threshold, in order. -/
structure Journal where
  threshold : Level
  events : Array Event := #[]

namespace Journal

/-- The journal that keeps nothing. -/
def silent : Journal := ⟨.error, #[]⟩

/-- Whether events of a level are kept. -/
def keeps (j : Journal) (level : Level) : Bool := j.threshold.rank ≤ level.rank

/-- The journal after an event. -/
def record (j : Journal) (e : Event) : Journal :=
  if j.keeps e.level then { j with events := j.events.push e } else j

/-- The lines of a journal. An event that cannot be written leaves none. -/
def lines (j : Journal) : List String := j.events.toList.filterMap (·.line.toOption)

/-- Why an event of a journal cannot be written, if there is one. -/
def unwritten? (j : Journal) : Option Text.DigitError :=
  j.events.toList.findSome? fun e ↦
    match e.line with
    | .ok _ => none
    | .error cause => some cause

end Journal

end TaggedStack
