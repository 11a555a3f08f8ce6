import TaggedStack.Instr
import TaggedStack.Fault
import TaggedStack.Sink

/-!
# The list machine

The same instruction set on a machine without addresses: the operands are a list with the top one
first, the program is a list of instructions and the data a list of words. There is no memory, no
stack pointer, and nothing is left behind by a value that was popped. Bounds are those of the three
lists, and words carry the proof that they are words, so no operation can produce a bad value.

The layout is a parameter. It bounds the lists, and otherwise occurs only in faults, which name the
address where the machine with memory would have found itself.

* `ListMachine.step`: one cycle. The instruction is looked up by its index and taken apart by its
  constructor.
* `ListMachine.perform`: the twelve operations, each in the order in which its operands are taken
  and its checks are made.
-/

namespace TaggedStack

/-- A machine word. -/
abbrev Word : Type := { w : Int // IsWord w }

namespace Word

/-- The word of a number modulo `2 ^ 32`. -/
def wrap (n : Int) : Word := ⟨n % 0x100000000, by unfold IsWord; omega⟩

theorem val_wrap {n : Int} (h : IsWord n) : (wrap n).val = n := Int.emod_eq_of_lt h.1 h.2

/-- A word is the word of its own value. -/
theorem wrap_val (w : Word) : wrap w.val = w := Subtype.ext (val_wrap w.property)

/-- The word that holds a payload. -/
def ofPayload (p : Payload) : Word :=
  ⟨(p.val : Int), by
    have := p.isLt
    unfold IsWord
    omega⟩

/-- The integer quotient of two words is a word. -/
theorem isWord_quotient (a b : Word) : IsWord (a.val / b.val) := by
  obtain ⟨a, ha0, ha⟩ := a
  obtain ⟨b, hb0, -⟩ := b
  exact ⟨Int.ediv_nonneg ha0 hb0, Int.lt_of_le_of_lt (Int.ediv_le_self b ha0) ha⟩

/-- The integer quotient of two words. -/
def quotient (a b : Word) : Word := ⟨a.val / b.val, isWord_quotient a b⟩

end Word

/-- A machine made of lists, within the bounds of a layout. -/
structure ListMachine (l : Layout) where
  /-- The index of the next instruction. -/
  next : Nat
  /-- The operands, the top one first. -/
  operands : List Word
  program : List Instr
  data : List Word
  running : Bool
  length_operands : operands.length ≤ l.stackCapacity
  length_program : program.length = l.instructionCapacity
  length_data : data.length = l.dataSize

namespace ListMachine

variable {l : Layout} (a : ListMachine l)

/-! ### Operands -/

/-- The machine with one more operand, if there is room for it. -/
def push (value : Word) : Except Fault (ListMachine l) :=
  if h : a.operands.length < l.stackCapacity then
    .ok { a with operands := value :: a.operands, length_operands := h }
  else .error (.outOfBounds .stack l.stackLimit)

/-- The machine without its top operand. -/
def dropTop : ListMachine l :=
  { a with
    operands := a.operands.tail
    length_operands := by
      have := a.length_operands
      rw [List.length_tail]
      omega }

/-- The top operand and the machine without it. -/
def pop : Except Fault (Word × ListMachine l) :=
  match a.operands with
  | [] => .error (.outOfBounds .stack 0)
  | value :: _ => .ok (value, a.dropTop)

theorem push_of_lt {a : ListMachine l} (value : Word) (h : a.operands.length < l.stackCapacity) :
    a.push value = .ok { a with operands := value :: a.operands, length_operands := h } :=
  dif_pos h

theorem push_of_not_lt {a : ListMachine l} (value : Word)
    (h : ¬a.operands.length < l.stackCapacity) :
    a.push value = .error (.outOfBounds .stack l.stackLimit) :=
  dif_neg h

theorem pop_of_nil {a : ListMachine l} (h : a.operands = []) :
    a.pop = .error (.outOfBounds .stack 0) := by
  rw [pop, h]

theorem pop_of_cons {a : ListMachine l} {value : Word} {rest : List Word}
    (h : a.operands = value :: rest) : a.pop = .ok (value, a.dropTop) := by
  rw [pop, h]

/-- The two top operands, the lower one first, and the machine without them. -/
def popTwo : Except Fault (Word × Word × ListMachine l) := do
  let (y, b) ← a.pop
  let (x, c) ← b.pop
  return (x, y, c)

/-- Pushes a value and prints nothing. -/
def pushing (value : Word) : Except Fault (ListMachine l × Option Emission) := do
  let b ← a.push value
  return (b, none)

/-! ### Operations -/

/-- Replaces the two top operands by a function of them. -/
def combining (f : Word → Word → Word) : Except Fault (ListMachine l × Option Emission) := do
  let (x, y, b) ← a.popTwo
  b.pushing (f x y)

/-- The index a jump goes to, popped off the operands. It must be that of an instruction. -/
def jumpTarget : Except Fault (Nat × ListMachine l) := do
  let (target, b) ← a.pop
  if target.val < l.instructionCapacity then return (target.val.toNat, b)
  else throw (.outOfBounds .instruction (target.val + l.instructionBase))

/-- The machine that goes on after the instruction with the given index. -/
def jump (target : Nat) : ListMachine l := { a with next := target + 1 }

/-- The machine with one of its data words replaced. -/
def store (index : Nat) (value : Word) : ListMachine l :=
  { a with
    data := a.data.set index value
    length_data := by rw [List.length_set, a.length_data] }

/-- What an operation does, and what it prints. -/
def perform : Opcode → Except Fault (ListMachine l × Option Emission)
  | .halt => .ok ({ a with running := false }, none)
  | .add => a.combining fun x y ↦ .wrap (x.val + y.val)
  | .sub => a.combining fun x y ↦ .wrap (x.val - y.val)
  | .mul => a.combining fun x y ↦ .wrap (x.val * y.val)
  | .div => do
    let (x, y, b) ← a.popTwo
    if y.val = 0 then throw .divisionByZero else b.pushing (x.quotient y)
  | .dup => do
    let (value, _) ← a.pop
    a.pushing value
  | .jmp => do
    let (target, b) ← a.jumpTarget
    return (b.jump target, none)
  | .jz => do
    -- A bad target counts before a missing condition.
    let (target, b) ← a.jumpTarget
    let (condition, c) ← b.pop
    return (if condition.val = 0 then c.jump target else c, none)
  | .prn => do
    let (value, b) ← a.pop
    return (b, some (.text (Text.decimal value.val)))
  | .prnchar => do
    let (value, b) ← a.pop
    return (b, some (.point (.ofLowBits value.val)))
  | .load => do
    let (index, b) ← a.pop
    match b.data[index.val.toNat]? with
    | some value => b.pushing value
    | none => throw (.outOfBounds .data (index.val + l.dataBase))
  | .stor => do
    -- A missing value counts before a bad index.
    let (index, b) ← a.pop
    let (value, c) ← b.pop
    if index.val < l.dataSize then return (c.store index.val.toNat value, none)
    else throw (.outOfBounds .data (index.val + l.dataBase))

/-- What an instruction does. Both kinds of literal push their value, and reserved words perform
the operation they number, like primitives. -/
def execute : Instr → Except Fault (ListMachine l × Option Emission)
  | .literal value | .negative value => a.pushing (.ofPayload value)
  | .primitive id | .reserved id =>
    match Opcode.ofId? id.val with
    | some op => a.perform op
    | none => .error (.unknownOpcode id.val)

/-- One cycle. -/
def step : Except Fault (ListMachine l × Option Emission) :=
  match a.program[a.next]? with
  | some i => ({ a with next := a.next + 1 } : ListMachine l).execute i
  | none => .error (.outOfBounds .instruction (l.instructionBase + a.next))

end ListMachine

end TaggedStack
