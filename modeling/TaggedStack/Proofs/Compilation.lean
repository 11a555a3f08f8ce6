import TaggedStack.Proofs.CodeRuns

/-!
# Compiled expressions compute their values

The code of an expression may stand anywhere in a program and may be reached with any operands on
the stack. What it does is said for that situation: it takes one cycle for each node, prints
nothing, and adds the value of the expression to the operands; or it stops at the first division by
zero (`ListMachine.stepUpTo_code`). It needs no more room than the stack depth of the expression,
counted from the operands already there, and this is what lets the operands of a node be computed
one above the other.

* `Expr.isWord_evaluate`: the value of an expression is a machine word.
* `ListMachine.stepUpTo_code`: what the code of an expression does, wherever it stands.
* `Trial.execute_compile`: a compiled expression that fits a layout ends as foretold.
-/

namespace TaggedStack

/-! ### Values -/

/-- The operations lead from machine words to machine words. -/
theorem Arith.isWord_value? {op : Arith} {x y v : Int} (hx : IsWord x) (hy : IsWord y)
    (h : op.value? x y = some v) : IsWord v := by
  cases op with
  | add | sub | mul =>
    cases h
    exact (Word.wrap _).property
  | div =>
    by_cases hzero : y = 0
    · rw [value?, if_pos hzero] at h
      cases h
    · rw [value?, if_neg hzero] at h
      cases h
      exact Word.isWord_quotient ⟨x, hx⟩ ⟨y, hy⟩

namespace Expr

/-- A node has a value when both operands have one and the operation is defined on them. -/
theorem evaluate_node_eq_some_iff {op : Arith} {left right : Expr} {v : Int} :
    (node op left right).evaluate = some v ↔
      ∃ x y, left.evaluate = some x ∧ right.evaluate = some y ∧ op.value? x y = some v := by
  rw [evaluate]
  constructor
  · intro h
    obtain ⟨x, hx, h⟩ := Option.bind_eq_some_iff.1 h
    obtain ⟨y, hy, h⟩ := Option.bind_eq_some_iff.1 h
    exact ⟨x, y, hx, hy, h⟩
  · rintro ⟨x, y, hx, hy, h⟩
    rw [hx, hy]
    exact h

/-- The value of an expression is a machine word. -/
theorem isWord_evaluate {e : Expr} {v : Int} (h : e.evaluate = some v) : IsWord v := by
  induction e generalizing v with
  | const p =>
    cases h
    exact (Word.ofPayload p).property
  | node op left right ihl ihr =>
    obtain ⟨x, y, hx, hy, hv⟩ := evaluate_node_eq_some_iff.1 h
    exact op.isWord_value? (ihl hx) (ihr hy) hv

theorem stackDepth_pos (e : Expr) : 0 < e.stackDepth := by
  induction e with
  | const => exact Nat.one_pos
  | node op left right ihl ihr => exact Nat.lt_of_lt_of_le ihl (Nat.le_max_left _ _)

end Expr

namespace ListMachine

variable {l : Layout} {a : ListMachine l}

/-! ### Arithmetic -/

variable {index : Nat}

/-- Popping two operands where there are two. -/
theorem popTwo_moved {x y : Word} {rest : List Word}
    {h : (y :: x :: rest).length ≤ l.stackCapacity} (hrest : rest.length ≤ l.stackCapacity) :
    (a.moved index (y :: x :: rest) h).popTwo = .ok (x, y, a.moved index rest hrest) := rfl

/-- Replacing the two top operands where there are two. -/
theorem combining_moved {x y : Word} {rest : List Word}
    {h : (y :: x :: rest).length ≤ l.stackCapacity} {f : Word → Word → Word}
    (hroom : rest.length < l.stackCapacity) :
    (a.moved index (y :: x :: rest) h).combining f =
      .ok (a.moved index (f x y :: rest) hroom, none) := by
  rw [combining, popTwo_moved (Nat.le_of_lt hroom)]
  exact pushing_moved hroom

/-- An arithmetic operation replaces the two top operands by its value on them, the lower one
being the left operand, or stops where it has none. -/
theorem step_moved_arith {op : Arith} {x y : Word} {rest : List Word}
    {h : (y :: x :: rest).length ≤ l.stackCapacity}
    (hop : a.program[index]? = some (.op op.opcode)) (hroom : rest.length < l.stackCapacity) :
    (a.moved index (y :: x :: rest) h).step =
      match op.value? x.val y.val with
      | some v => .ok (a.moved (index + 1) (.wrap v :: rest) hroom, none)
      | none => .error .divisionByZero := by
  rw [step_moved_op hop]
  cases op with
  | add | sub | mul =>
    rw [Arith.opcode, perform, combining_moved hroom, ← Word.wrap_val (.wrap _)]
    rfl
  | div =>
    have hdiv : (a.moved (index + 1) (y :: x :: rest) h).perform .div =
        if y.val = 0 then .error .divisionByZero
        else (a.moved (index + 1) rest (Nat.le_of_lt hroom)).pushing (x.quotient y) := by
      rw [perform, popTwo_moved (Nat.le_of_lt hroom)]
      rfl
    rw [Arith.opcode, hdiv, Arith.value?, pushing_moved hroom, ← Word.wrap_val (x.quotient y)]
    split <;> rfl

/-- An arithmetic operation as the first cycle of a run. -/
theorem stepUpTo_arith {op : Arith} {x y : Word} {rest : List Word}
    {h : (y :: x :: rest).length ≤ l.stackCapacity} (hrunning : a.running = true)
    (hop : a.program[index]? = some (.op op.opcode)) (hroom : rest.length < l.stackCapacity)
    (n : Nat) :
    (a.moved index (y :: x :: rest) h).stepUpTo (n + 1) =
      match op.value? x.val y.val with
      | some v => (a.moved (index + 1) (.wrap v :: rest) hroom).stepUpTo n
      | none => .error .divisionByZero := by
  have hstep := step_moved_arith (h := h) hop hroom
  cases hv : op.value? x.val y.val with
  | none =>
    rw [hv] at hstep
    exact stepUpTo_of_step_error hstep hrunning n
  | some v =>
    rw [hv] at hstep
    exact stepUpTo_of_step_silent hstep hrunning n

/-! ### The end of a program -/

/-- A program that prints and then halts pops the value it prints. -/
theorem stepUpTo_print_halt {v : Word} {rest : List Word}
    {h : (v :: rest).length ≤ l.stackCapacity} (hrunning : a.running = true)
    (hcode : a.HasCode index [.op .prn, .op .halt]) (n : Nat) :
    ∃ b : ListMachine l, b.running = false ∧ b.operands = rest ∧
      (a.moved index (v :: rest) h).stepUpTo (n + 2) = .ok (b, Text.decimal v.val) := by
  have hrest : rest.length ≤ l.stackCapacity := Nat.le_of_succ_le h
  have hprint : (a.moved index (v :: rest) h).step =
      .ok (a.moved (index + 1) rest hrest, some (.text (Text.decimal v.val))) := by
    rw [step_moved_op hcode.head]
    rfl
  have hhalt : (a.moved (index + 1) rest hrest).step =
      .ok ({ a.moved (index + 2) rest hrest with running := false }, none) := by
    rw [step_moved_op hcode.tail.head]
    rfl
  refine ⟨{ a.moved (index + 2) rest hrest with running := false }, rfl, rfl, ?_⟩
  rw [stepUpTo_of_step_ok hprint hrunning, stepUpTo_of_step_silent hhalt hrunning,
    stepUpTo_of_not_running rfl]
  show Except.ok (_, Text.decimal v.val ++ []) = _
  rw [List.append_nil]

/-! ### The code of an expression -/

/-- **Wherever it stands.** The code of an expression adds its value to whatever operands there
are, in one cycle for each node and without printing, or stops for a division by zero. -/
theorem stepUpTo_code (hrunning : a.running = true) (e : Expr) {operands : List Word}
    {h : operands.length ≤ l.stackCapacity} (hcode : a.HasCode index e.code)
    (hdepth : operands.length + e.stackDepth ≤ l.stackCapacity)
    (hroom : operands.length < l.stackCapacity) (n : Nat) :
    (a.moved index operands h).stepUpTo (e.size + n) =
      match e.evaluate with
      | some v => (a.moved (index + e.size) (.wrap v :: operands) hroom).stepUpTo n
      | none => .error .divisionByZero := by
  induction e generalizing index operands n with
  | const p =>
    have hstep := step_moved_literal (h := h) hcode.head hroom
    rw [← Word.wrap_val (.ofPayload p)] at hstep
    rw [Expr.size, Nat.add_comm]
    exact stepUpTo_of_step_silent hstep hrunning n
  | node op left right ihl ihr =>
    rw [Expr.stackDepth] at hdepth
    have hright := right.stackDepth_pos
    have hsize : (Expr.node op left right).size + n = left.size + (right.size + (n + 1)) := by
      rw [Expr.size]
      omega
    have hnext : index + (Expr.node op left right).size = index + left.size + right.size + 1 := by
      rw [Expr.size]
      omega
    have hcodes := hcode.left
    -- First the code of the left operand, with all the rest of the run still to come.
    rw [hsize, hnext, ihl hcodes.left (by omega) hroom, Expr.evaluate]
    cases hx : left.evaluate with
    | none => rfl
    | some x =>
      -- The right operand is computed above the value of the left one, so with one place less.
      have hcodeRight := hcodes.right
      rw [left.length_code] at hcodeRight
      have hroomRight : (Word.wrap x :: operands).length < l.stackCapacity := by
        rw [List.length_cons]
        omega
      have hrunRight := ihr (h := Nat.le_of_lt hroomRight) hcodeRight
        (by rw [List.length_cons]; omega) hroomRight (n + 1)
      refine hrunRight.trans ?_
      cases hy : right.evaluate with
      | none => rfl
      | some y =>
        -- Both values are on the stack now, and are what the operation finds.
        have hop := hcode.right.head
        rw [List.length_append, left.length_code, right.length_code, ← Nat.add_assoc] at hop
        have hrunOp := stepUpTo_arith (x := .wrap x) (y := .wrap y) (h := hroomRight) hrunning hop
          hroom n
        rw [Word.val_wrap (Expr.isWord_evaluate hx), Word.val_wrap (Expr.isWord_evaluate hy)]
          at hrunOp
        exact hrunOp

/-- The result of a machine that begins with the program of an expression. -/
theorem result_of_hasCode {e : Expr} (hrunning : a.running = true)
    (hcode : a.HasCode 0 (e.code ++ [.op .prn, .op .halt]))
    (hdepth : e.stackDepth ≤ l.stackCapacity) {maxSteps : Int}
    (hsteps : ((e.size + 2 : Nat) : Int) ≤ maxSteps) :
    (a.moved 0 [] (Nat.zero_le _)).result maxSteps = Trial.expected e := by
  have hpos := e.stackDepth_pos
  have hroom : ([] : List Word).length < l.stackCapacity := by
    rw [List.length_nil]
    omega
  obtain ⟨n, hn⟩ : ∃ n, maxSteps.toNat = e.size + (n + 2) :=
    ⟨maxSteps.toNat - e.size - 2, by omega⟩
  have hrun := stepUpTo_code (h := Nat.zero_le _) hrunning e hcode.left
    (by rw [List.length_nil]; omega) hroom (n + 2)
  rw [result, hn, hrun, Trial.expected]
  cases hv : e.evaluate with
  | none => rfl
  | some v =>
    have hlast := hcode.right
    rw [e.length_code] at hlast
    obtain ⟨b, hstopped, hempty, hprinted⟩ :=
      stepUpTo_print_halt (v := .wrap v) (h := hroom) hrunning hlast n
    dsimp only
    rw [hprinted, Word.val_wrap (Expr.isWord_evaluate hv)]
    dsimp only
    rw [hstopped, hempty]
    rfl

end ListMachine

/-! ### Trials of compiled expressions -/

namespace Trial

variable {e : Expr} {l : Layout} {maxSteps : Int}

/-- **Compiler correctness.** A compiled expression that fits a layout ends as the expression
foretells, within as many cycles as its program has words: it prints the value and leaves an empty
stack, or divides by zero. -/
theorem execute_compile (hfits : fits e l = true) (hsteps : (e.compile.length : Int) ≤ maxSteps) :
    execute e.compile maxSteps l = expected e ∧
      (∀ v, e.evaluate = some v →
        execute e.compile maxSteps l = .success (Text.decimal v) none) ∧
      (e.evaluate = none → execute e.compile maxSteps l = .fault "DivisionByZero") := by
  obtain ⟨hdepth, hlength⟩ : e.stackDepth ≤ l.stackCapacity ∧
      e.compile.length ≤ l.instructionCapacity := by
    rw [fits, Bool.and_eq_true] at hfits
    exact ⟨of_decide_eq_true hfits.1, of_decide_eq_true hfits.2⟩
  have hwords : ∀ w ∈ e.compile, IsWord w := by
    intro w hw
    obtain ⟨i, -, rfl⟩ := List.mem_map.1 hw
    exact i.isWord_word
  have hcode : (e.code ++ [Instr.op .prn, Instr.op .halt]).length ≤ l.instructionCapacity := by
    rwa [Expr.compile, length_assemble] at hlength
  have hexpected : execute e.compile maxSteps l = expected e := by
    rw [e.length_compile] at hsteps
    rw [execute_of_accepted (Memory.acceptance_eq_ok hlength hwords)
      (Memory.accepted_eq_self hlength hwords) hcode]
    exact ListMachine.result_of_hasCode (a := (ListMachine.blank l).loaded _ hcode) rfl ⟨_, rfl⟩
      hdepth hsteps
  refine ⟨hexpected, fun v hv ↦ ?_, fun hnone ↦ ?_⟩
  · rw [hexpected, expected, hv]
  · rw [hexpected, expected, hnone]
    rfl

/-- In a layout that has just room for it, `(1 - 2) / 3` prints the third of `2 ^ 32 - 1`; the
same division by `5 - 5` stops. -/
theorem execute_compile_quotients :
    execute (Expr.compile (.node .div (.node .sub (.const 1) (.const 2)) (.const 3))) 7
        ⟨10, 3, 10, by decide, by decide, by decide⟩ = .success (Text.decimal 1431655765) none ∧
      execute (Expr.compile (.node .div (.node .sub (.const 1) (.const 2))
        (.node .sub (.const 5) (.const 5)))) 9
        ⟨14, 4, 13, by decide, by decide, by decide⟩ = .fault "DivisionByZero" :=
  ⟨(execute_compile (by decide) (by decide)).2.1 _ (by decide),
    (execute_compile (by decide) (by decide)).2.2 (by decide)⟩

end Trial

end TaggedStack
