import TaggedStack.Stack

/-!
# Machine states

Memory and registers. The instruction pointer holds the address of the instruction executed
last, so a fresh state has it one before the first instruction. The tag and data registers
hold the fields of that instruction.
-/

namespace TaggedStack

/-- Memory and registers of the machine. -/
structure State where
  memory : Memory
  /-- The stack pointer. -/
  sp : Int
  /-- The instruction pointer. -/
  ip : Int
  tag : Tag
  data : Int
  running : Bool
  deriving DecidableEq

namespace State

/-- The state before the first cycle, with blank memory, which is taken to be available. -/
def initial (l : Layout) : State :=
  ⟨.blank l, 0, (l.instructionBase : Int) - 1, .positive, 0, true⟩

/-- The layout of a state's memory. -/
abbrev layout (s : State) : Layout := s.memory.layout

/-- The stack of a state. -/
def stack (s : State) : Stack := ⟨s.memory, s.sp⟩

/-- The state with its stack replaced. -/
def withStack (s : State) (stack : Stack) : State :=
  { s with memory := stack.memory, sp := stack.pointer }

/-- The top of the stack, none if the stack is empty. -/
def top (s : State) : Except Failure (Option Int) :=
  if s.sp = 0 then .ok none else some <$> s.stack.peek

end State

end TaggedStack
