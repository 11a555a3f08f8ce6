import TaggedStack.Proofs.ListTrial

/-!
# Running code of the list machine

A stretch of code is run instruction by instruction. `ListMachine.HasCode` says that a stretch
stands at an index, and is taken apart as the stretch is; `ListMachine.moved` is a machine further
on in the same program, with other operands. What an instruction does is then an equation between
two such machines, and a run is followed by rewriting with one equation after another.

* `ListMachine.stepUpTo_of_step_ok`, `ListMachine.stepUpTo_of_step_silent`,
  `ListMachine.stepUpTo_of_step_error`, `ListMachine.stepUpTo_of_not_running`: how a run begins.
* `ListMachine.step_moved_op`, `ListMachine.step_moved_literal`: the cycle of an instruction whose
  index is known.
-/

namespace TaggedStack.ListMachine

variable {l : Layout} {a : ListMachine l}

/-! ### Code at an index -/

/-- The instructions from an index on begin with the given ones. -/
def HasCode (a : ListMachine l) (index : Nat) (code : List Instr) : Prop :=
  code <+: a.program.drop index

theorem HasCode.left {index : Nat} {code later : List Instr}
    (h : a.HasCode index (code ++ later)) : a.HasCode index code :=
  (List.prefix_append code later).trans h

theorem HasCode.right {index : Nat} {code later : List Instr}
    (h : a.HasCode index (code ++ later)) : a.HasCode (index + code.length) later := by
  obtain ⟨rest, hrest⟩ := h
  refine ⟨rest, ?_⟩
  rw [← List.drop_drop, ← hrest, List.append_assoc, List.drop_left]

theorem HasCode.head {index : Nat} {i : Instr} {later : List Instr}
    (h : a.HasCode index (i :: later)) : a.program[index]? = some i := by
  obtain ⟨rest, hrest⟩ := h
  have hzero : (a.program.drop index)[0]? = some i := by
    rw [← hrest]
    rfl
  rwa [List.getElem?_drop, Nat.add_zero] at hzero

theorem HasCode.tail {index : Nat} {i : Instr} {later : List Instr}
    (h : a.HasCode index (i :: later)) : a.HasCode (index + 1) later := by
  have hsplit : a.HasCode index ([i] ++ later) := h
  exact hsplit.right

/-- The instruction at a place within a stretch of code. -/
theorem HasCode.getElem? {index i : Nat} {code : List Instr} {x : Instr}
    (h : a.HasCode index code) (hx : code[i]? = some x) : a.program[index + i]? = some x := by
  obtain ⟨rest, hrest⟩ := h
  rw [← List.getElem?_drop, ← hrest, List.getElem?_append_left (List.getElem?_eq_some_iff.1 hx).1]
  exact hx

/-- The machine at another instruction and with other operands. -/
def moved (a : ListMachine l) (next : Nat) (operands : List Word)
    (h : operands.length ≤ l.stackCapacity) : ListMachine l :=
  { a with next := next, operands := operands, length_operands := h }

/-! ### The first cycle of a run -/

/-- A cycle that goes through is the first of a longer run. -/
theorem stepUpTo_of_step_ok {b : ListMachine l} {output : Option Emission}
    (hstep : a.step = .ok (b, output)) (hrunning : a.running = true) (n : Nat) :
    a.stepUpTo (n + 1) = (b.stepUpTo n).map fun r ↦ (r.1, printed output ++ r.2) := by
  rw [stepUpTo, if_pos hrunning, hstep]
  show b.stepUpTo n >>= _ = _
  cases b.stepUpTo n <;> rfl

/-- A cycle that goes through and prints nothing only adds to the length of a run. -/
theorem stepUpTo_of_step_silent {b : ListMachine l} (hstep : a.step = .ok (b, none))
    (hrunning : a.running = true) (n : Nat) : a.stepUpTo (n + 1) = b.stepUpTo n := by
  rw [stepUpTo_of_step_ok hstep hrunning]
  cases b.stepUpTo n <;> rfl

/-- A cycle that stops is the end of a run. -/
theorem stepUpTo_of_step_error {cause : Fault} (hstep : a.step = .error cause)
    (hrunning : a.running = true) (n : Nat) : a.stepUpTo (n + 1) = .error cause := by
  rw [stepUpTo, if_pos hrunning, hstep]
  rfl

/-- A machine that no longer runs makes no cycle. -/
theorem stepUpTo_of_not_running (h : a.running = false) (n : Nat) :
    a.stepUpTo n = .ok (a, []) := by
  cases n with
  | zero => rfl
  | succ n =>
    rw [stepUpTo, if_neg (by rw [h]; decide)]

/-! ### Single instructions -/

variable {index : Nat} {operands : List Word} {h : operands.length ≤ l.stackCapacity}

/-- Pushing where there is room. -/
theorem pushing_moved {value : Word} (hroom : operands.length < l.stackCapacity) :
    (a.moved index operands h).pushing value =
      .ok (a.moved index (value :: operands) hroom, none) := by
  rw [pushing, push_of_lt _ hroom]
  rfl

/-- The cycle of an instruction is what the instruction does, with the next one after it. -/
theorem step_moved {i : Instr} (hi : a.program[index]? = some i) :
    (a.moved index operands h).step = (a.moved (index + 1) operands h).execute i := by
  have hnext : (a.moved index operands h).program[(a.moved index operands h).next]? = some i := hi
  rw [step, hnext]
  rfl

/-- The cycle of an operation. -/
theorem step_moved_op {op : Opcode} (hop : a.program[index]? = some (.op op)) :
    (a.moved index operands h).step = (a.moved (index + 1) operands h).perform op := by
  have hid : Opcode.ofId? ((op.id.castLE (by decide) : Payload).val : Int) = some op := op.ofId?_id
  rw [step_moved hop, Instr.op, execute, hid]

/-- A literal adds its value to the operands. -/
theorem step_moved_literal {p : Payload} (hliteral : a.program[index]? = some (.literal p))
    (hroom : operands.length < l.stackCapacity) :
    (a.moved index operands h).step =
      .ok (a.moved (index + 1) (.ofPayload p :: operands) hroom, none) := by
  rw [step_moved hliteral]
  exact pushing_moved hroom

end TaggedStack.ListMachine
