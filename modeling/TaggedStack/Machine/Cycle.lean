import TaggedStack.Instr
import TaggedStack.Machine.State
import TaggedStack.Sink

/-!
# The machine cycle

One cycle fetches, decodes and executes. *Fetching* advances the instruction pointer,
*decoding* reads the word there into the tag and data registers, and *executing* pushes the
data register if the tag is that of a literal; otherwise it performs the operation the data
register numbers.

A jump sets the instruction pointer to its target, and the next fetch advances it once more:
a jump to `t` resumes at instruction `t + 1`.

Every operation is a function from a state to the state after it and what it prints, or to
the failure that keeps it from going through. A failed cycle gives no state at all, so it has
no effect, however far it came.

* `Opcode.perform`: the twelve operations.
* `State.step`: one cycle.
-/

namespace TaggedStack

/-- A state after an operation, and what the operation printed. -/
structure Effect where
  state : State
  output : Option Emission := none

namespace State

/-- Advances the instruction pointer. -/
def fetch (s : State) : Except Failure State :=
  let next := s.ip + 1
  if s.layout.Admits .instruction next then .ok { s with ip := next }
  else .error (s.layout.rejection .instruction next)

/-- Reads the word at the instruction pointer into the tag and data registers. -/
def decode (s : State) : Except Failure State := do
  let word ← s.memory.read .instruction s.ip
  return { s with tag := tagOf word, data := ((payloadOf word).val : Int) }

/-- Pushes a value. -/
def pushing (s : State) (value : Int) : Except Failure Effect := do
  let stack ← s.stack.pushed value
  return ⟨s.withStack stack, none⟩

/-- The two top values, the lower one first, and the stack below them. -/
def operands (s : State) : Except Failure (Int × Int × Stack) := do
  let (b, stack) ← s.stack.pop
  let (a, stack) ← stack.pop
  return (a, b, stack)

/-- Replaces the two top values by a function of them, modulo `2 ^ 32`. -/
def combining (s : State) (f : Int → Int → Int) : Except Failure Effect := do
  let (a, b, stack) ← s.operands
  (s.withStack stack).pushing (f a b % 0x100000000)

/-- The address of the instruction numbered by the top value, and the stack below it. -/
def jumpTarget (s : State) : Except Failure (Int × Stack) := do
  let (target, stack) ← s.stack.pop
  let address := target + s.layout.instructionBase
  if s.layout.Admits .instruction address then return (address, stack)
  else throw (s.layout.rejection .instruction address)

/-- The address of the data word numbered by the top value, and the stack below it. The
address is not checked yet. -/
def dataAddress (s : State) : Except Failure (Int × Stack) := do
  let (offset, stack) ← s.stack.pop
  return (offset + s.layout.dataBase, stack)

end State

/-- What an operation does to a state. -/
def Opcode.perform (op : Opcode) (s : State) : Except Failure Effect :=
  match op with
  | .halt => .ok ⟨{ s with running := false }, none⟩
  | .add => s.combining (· + ·)
  | .sub => s.combining (· - ·)
  | .mul => s.combining (· * ·)
  | .div => do
    let (a, b, stack) ← s.operands
    if b = 0 then throw (.fault .divisionByZero)
    else (s.withStack stack).pushing (a / b)
  | .dup => do
    let value ← s.stack.peek
    s.pushing value
  | .jmp => do
    let (target, stack) ← s.jumpTarget
    return ⟨{ s.withStack stack with ip := target }, none⟩
  | .jz => do
    let (target, stack) ← s.jumpTarget
    let (condition, stack) ← stack.pop
    let after := s.withStack stack
    return ⟨if condition = 0 then { after with ip := target } else after, none⟩
  | .prn => do
    let (value, stack) ← s.stack.pop
    let numeral ← (Text.numeral value).mapError .digits
    return ⟨s.withStack stack, some (.text numeral)⟩
  | .prnchar => do
    let (value, stack) ← s.stack.pop
    return ⟨s.withStack stack, some (.point (.ofLowBits value))⟩
  | .load => do
    let (address, stack) ← s.dataAddress
    let value ← s.memory.read .data address
    (s.withStack stack).pushing value
  | .stor => do
    let (address, stack) ← s.dataAddress
    let (value, stack) ← stack.pop
    let memory ← stack.memory.write .data address value
    return ⟨s.withStack ⟨memory, stack.pointer⟩, none⟩

namespace State

/-- Carries out what the tag and data registers say. -/
def execute (s : State) : Except Failure Effect :=
  if s.tag.isLiteral then s.pushing s.data
  else
    match Opcode.ofId? s.data with
    | some op => op.perform s
    | none => .error (.ofFault (.unknownOpcode s.data))

/-- The state once the next instruction is fetched and decoded. -/
def advance (s : State) : Except Failure State := do
  let fetched ← s.fetch
  fetched.decode

/-- One cycle. -/
def step (s : State) : Except Failure Effect := do
  let ready ← s.advance
  ready.execute

end State

end TaggedStack
