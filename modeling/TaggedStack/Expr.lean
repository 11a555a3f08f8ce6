import TaggedStack.Instr

/-!
# Expressions

Trees of constants and the four arithmetic operations. Values are numbers modulo `2 ^ 32`;
division is the integer quotient, and fails on a zero divisor. An expression is compiled to
instructions in post-order: the left operand, the right operand, the operation.

* `Expr.evaluate`: the value of an expression, operands evaluated from left to right.
* `Expr.stackDepth`: how many stack slots the compiled expression needs.
* `Expr.code`, `Expr.compile`: its instructions, and the program that prints its value.
* `Expr.length_code`: there is one instruction for each node.
* `Candidate.payload_eq_ok_iff`: which values a constant can be given.
-/

namespace TaggedStack

/-- The arithmetic operations of expressions. -/
inductive Arith
  | add
  | sub
  | mul
  | div
  deriving DecidableEq, Repr

namespace Arith

/-- The operations in the order in which they are enumerated. -/
def all : List Arith := [add, sub, mul, div]

/-- The machine operation of an arithmetic operation. -/
def opcode : Arith → Opcode
  | add => .add
  | sub => .sub
  | mul => .mul
  | div => .div

/-- The value of an operation, none for a division by zero. Quotients are not reduced. -/
def value? : Arith → Int → Int → Option Int
  | add, a, b => some ((a + b) % 0x100000000)
  | sub, a, b => some ((a - b) % 0x100000000)
  | mul, a, b => some ((a * b) % 0x100000000)
  | div, a, b => if b = 0 then none else some (a / b)

end Arith

/-- A tree of constants and arithmetic operations. -/
inductive Expr
  | const (value : Payload)
  | node (op : Arith) (left right : Expr)
  deriving DecidableEq, Repr

/-- Why a value is no constant of an expression. -/
inductive ConstError
  /-- Not an integer, but a value of the kind named. -/
  | notInteger (kind : String)
  | outOfRange (value : Int)
  deriving DecidableEq, Repr

/-- The wording of a constant error. -/
def ConstError.message : ConstError → String
  | notInteger kind => s!"Const value must be int, got <class '{kind}'>"
  | outOfRange value =>
    Text.worded [value] s!"Const value must be in [0, 1073741823], got {value}"

/-- What is offered as the value of a constant. -/
inductive Candidate
  | number (value : Int)
  /-- Something that is no integer, of the kind named. -/
  | foreign (kind : String)
  deriving DecidableEq, Repr

instance : Coe Int Candidate := ⟨.number⟩

/-- The payload of what is offered as a constant. Its kind counts before its range. -/
def Candidate.payload : Candidate → Except ConstError Payload
  | number value =>
    match Payload.ofInt? value with
    | some p => .ok p
    | none => .error (.outOfRange value)
  | foreign kind => .error (.notInteger kind)

/-- Only the number of a payload is accepted for it. -/
theorem Candidate.payload_eq_ok_iff {c : Candidate} {p : Payload} :
    c.payload = .ok p ↔ c = .number p.val := by
  cases c with
  | foreign kind => simp [payload]
  | number value =>
    have hp := p.isLt
    unfold payload Payload.ofInt?
    by_cases h : 0 ≤ value ∧ value < 0x40000000
    · simp only [dif_pos h, Except.ok.injEq, number.injEq, Fin.ext_iff]
      omega
    · simp only [dif_neg h, number.injEq, reduceCtorEq, false_iff]
      omega

namespace Expr

/-- The constant of what is offered as its value. -/
def ofCandidate (c : Candidate) : Except ConstError Expr := const <$> c.payload

/-- The value of an expression, none if it divides by zero. -/
def evaluate : Expr → Option Int
  | const value => some value.val
  | node op left right => do
    let a ← left.evaluate
    let b ← right.evaluate
    op.value? a b

/-- How many stack slots the compiled expression needs. -/
def stackDepth : Expr → Nat
  | const _ => 1
  | node _ left right => max left.stackDepth (right.stackDepth + 1)

/-- The height of the tree; a constant has height zero. -/
def depth : Expr → Nat
  | const _ => 0
  | node _ left right => max left.depth right.depth + 1

/-- The number of nodes, constants included. -/
def size : Expr → Nat
  | const _ => 1
  | node _ left right => left.size + right.size + 1

/-- The constants of an expression from left to right. -/
def constants : Expr → List Payload
  | const value => [value]
  | node _ left right => left.constants ++ right.constants

/-- The instructions that leave an expression's value on the stack. -/
def code : Expr → List Instr
  | const value => [.literal value]
  | node op left right => left.code ++ right.code ++ [.op op.opcode]

/-- The program that prints an expression's value and halts. -/
def compile (e : Expr) : List Int := assemble (e.code ++ [.op .prn, .op .halt])

/-- There is one instruction for each node. -/
theorem length_code (e : Expr) : e.code.length = e.size := by
  induction e with
  | const => rfl
  | node op l r ihl ihr =>
    simp only [code, size, List.length_append, List.length_cons, List.length_nil, ihl, ihr]

/-- The program has two words more than the expression has nodes. -/
theorem length_compile (e : Expr) : e.compile.length = e.size + 2 := by
  simp [compile, assemble, length_code]

end Expr

/-! ### Drafts

A draft is a tree some of whose leaves may be things that are no expressions. Whoever walks
through it fails at the first such leaf. -/

/-- A tree that may hold things that are no expressions, known by their text. -/
inductive Draft
  | const (value : Payload)
  | node (op : Arith) (left right : Draft)
  | foreign (text : String)
  deriving DecidableEq, Repr

/-- Why a draft has no value. -/
inductive DraftError
  | divisionByZero
  | foreign (text : String)
  deriving DecidableEq, Repr

/-- The wording of a draft error. -/
def DraftError.message : DraftError → String
  | divisionByZero => "integer division or modulo by zero"
  | foreign text => s!"Unknown expression type: {text}"

namespace Draft

/-- The expression of a draft, or its first foreign leaf from the left. -/
def toExpr : Draft → Except DraftError Expr
  | const value => .ok (.const value)
  | node op left right => do
    let l ← left.toExpr
    let r ← right.toExpr
    return .node op l r
  | foreign text => .error (.foreign text)

/-- The value of a draft. A division by zero counts before a foreign leaf to its right. -/
def evaluate : Draft → Except DraftError Int
  | const value => .ok value.val
  | node op left right => do
    let a ← left.evaluate
    let b ← right.evaluate
    match op.value? a b with
    | some value => return value
    | none => throw .divisionByZero
  | foreign text => .error (.foreign text)

end Draft

/-- The draft of an expression. -/
def Expr.toDraft : Expr → Draft
  | .const value => .const value
  | .node op left right => .node op left.toDraft right.toDraft

/-- An expression comes back from its draft. -/
theorem Expr.toExpr_toDraft (e : Expr) : e.toDraft.toExpr = .ok e := by
  induction e with
  | const => rfl
  | node op l r ihl ihr =>
    simp only [Expr.toDraft, Draft.toExpr, ihl, ihr]
    rfl

end TaggedStack
