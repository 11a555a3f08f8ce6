import TaggedStack.Journal
import TaggedStack.Machine.Cycle

/-!
# Tracing a cycle

Which event a cycle gives. A literal is reported before it is pushed and an operation as soon
as it has its operands, so a cycle that fails afterwards still leaves its event: a push onto a
full stack, a division by zero, a store outside the data region.
-/

namespace TaggedStack

/-- The event an operation gives on a state, none if its operands are missing. -/
def Opcode.event (op : Opcode) (s : State) : Option Event :=
  Event.operation op <$>
    match op with
    | .halt => some []
    | .add | .sub | .mul | .div => do
      let (a, b, _) ← s.operands.toOption
      return [a, b]
    | .dup => do
      let value ← s.stack.peek.toOption
      return [value]
    | .jmp => do
      let (target, _) ← s.jumpTarget.toOption
      return [target - s.layout.instructionBase]
    | .jz => do
      let (target, stack) ← s.jumpTarget.toOption
      let (condition, _) ← stack.pop.toOption
      return [target - s.layout.instructionBase, condition]
    | .prn | .prnchar => do
      let (value, _) ← s.stack.pop.toOption
      return [value]
    | .load => do
      let (address, _) ← s.dataAddress.toOption
      let _ ← (s.memory.read .data address).toOption
      return [address - s.layout.dataBase]
    | .stor => do
      let (address, stack) ← s.dataAddress.toOption
      let (value, _) ← stack.pop.toOption
      return [address - s.layout.dataBase, value]

namespace State

/-- The event of executing a state. -/
def executionEvent (s : State) : Option Event :=
  if s.tag.isLiteral then some (.literal s.data)
  else (Opcode.ofId? s.data).bind fun op ↦ op.event s

/-- The event of one cycle. -/
def stepEvent (s : State) : Option Event := s.advance.toOption.bind executionEvent

end State

end TaggedStack
