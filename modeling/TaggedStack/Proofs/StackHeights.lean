import Mathlib.Order.Bounds.Defs
import TaggedStack.Proofs.Passages
import TaggedStack.Proofs.Verdicts

/-!
# How high the stack gets

The stack depth of an expression is the height its stack really comes to, not only a bound for it.
The code of an expression has one cycle for each node, and `Expr.heights` says how many operands
there are after each of these cycles: those that were there before, the values of operands that
still wait, and the value just computed. The greatest of these numbers is the stack depth, counted
from the operands that were there before.

With less room than that, the code cannot get to its end. Subtrees to the left that have room are
computed as ever, so the failing push may come after any number of finished subtrees, but it comes.

* `Expr.isGreatest_programHeights`: the stack depth is the greatest height.
* `ListMachine.climbs_code`: the heights of the code of an expression, wherever it stands.
* `ListMachine.stepUpTo_code_of_deep`: the code of an expression that is too deep.
* `ListMachine.Climbs.sp_afterCycles`: the heights of a passage are stack pointers of the machine.
* `Trial.fits_is_exact`: whether an expression fits a layout, told by its run.
-/

namespace TaggedStack

/-! ### Heights of an expression -/

namespace Expr

/-- How many operands there are after each cycle of an expression's code, if `below` of them are
there before. The right operand is computed above the value of the left one. -/
def heights : Expr → (below : Nat) → List Nat
  | const _, below => [below + 1]
  | node _ left right, below => left.heights below ++ right.heights (below + 1) ++ [below + 1]

theorem length_heights (e : Expr) (below : Nat) : (e.heights below).length = e.size := by
  induction e generalizing below with
  | const => rfl
  | node op left right ihl ihr =>
    rw [heights, List.length_append, List.length_append, ihl, ihr]
    rfl

/-- No height is above the stack depth. -/
theorem le_of_mem_heights {e : Expr} {below height : Nat} (h : height ∈ e.heights below) :
    height ≤ below + e.stackDepth := by
  induction e generalizing below with
  | const => exact Nat.le_of_eq (List.mem_singleton.1 h)
  | node op left right ihl ihr =>
    have hleft := left.stackDepth_pos
    simp only [heights, List.mem_append, List.mem_singleton] at h
    rw [stackDepth]
    rcases h with (h | h) | h
    · have := ihl h
      omega
    · have := ihr h
      omega
    · omega

/-- The stack depth is one of the heights: that of the left operand or that of the right one,
whichever is greater. -/
theorem mem_heights (e : Expr) (below : Nat) : below + e.stackDepth ∈ e.heights below := by
  induction e generalizing below with
  | const => exact List.mem_singleton.2 rfl
  | node op left right ihl ihr =>
    rw [heights, stackDepth, List.append_assoc]
    rcases Nat.le_total left.stackDepth (right.stackDepth + 1) with h | h
    · rw [Nat.max_eq_right h, Nat.add_comm right.stackDepth, ← Nat.add_assoc]
      exact List.mem_append_right _ (List.mem_append_left _ (ihr (below + 1)))
    · rw [Nat.max_eq_left h]
      exact List.mem_append_left _ (ihl below)

/-- The heights of the whole program: the value is popped to be printed, and the stack is empty
from then on. -/
def programHeights (e : Expr) : List Nat := e.heights 0 ++ [0, 0]

theorem length_programHeights (e : Expr) : e.programHeights.length = e.compile.length := by
  rw [programHeights, List.length_append, e.length_heights, e.length_compile]
  rfl

/-- **The stack depth is the greatest height.** -/
theorem isGreatest_programHeights (e : Expr) :
    IsGreatest {height | height ∈ e.programHeights} e.stackDepth := by
  constructor
  · have hmem := e.mem_heights 0
    rw [Nat.zero_add] at hmem
    exact List.mem_append_left _ hmem
  · intro height hmem
    rcases List.mem_append.1 hmem with hmem | hmem
    · have hle := le_of_mem_heights hmem
      rwa [Nat.zero_add] at hle
    · obtain rfl : height = 0 := by simpa using hmem
      exact Nat.zero_le _

end Expr

/-! ### Heights of a passage -/

namespace ListMachine

variable {l : Layout} {a b c : ListMachine l}

/-- A passage that keeps how many operands there are after each of its cycles. -/
inductive Climbs : ListMachine l → List Nat → ListMachine l → Prop
  | refl (a : ListMachine l) : Climbs a [] a
  | cycle {a b c : ListMachine l} {emission : Option Emission} {heights : List Nat}
      (hrunning : a.running = true) (hstep : a.step = .ok (b, emission))
      (h : Climbs b heights c) : Climbs a (b.operands.length :: heights) c

/-- Two passages are one. -/
theorem Climbs.trans {heights later : List Nat} (h : a.Climbs heights b)
    (h' : b.Climbs later c) : a.Climbs (heights ++ later) c := by
  induction h with
  | refl a => exact h'
  | cycle hrunning hstep _ ih => exact .cycle hrunning hstep (ih h')

/-- A passage with its heights is a passage of as many cycles. -/
theorem Climbs.exists_reaches {heights : List Nat} (h : a.Climbs heights b) :
    ∃ output, a.Reaches heights.length output b := by
  induction h with
  | refl a => exact ⟨[], .refl a⟩
  | cycle hrunning hstep _ ih =>
    obtain ⟨output, hreaches⟩ := ih
    exact ⟨_, .cycle hrunning hstep hreaches⟩

/-- A single cycle. -/
theorem Climbs.single {emission : Option Emission} (hrunning : a.running = true)
    (hstep : a.step = .ok (b, emission)) : a.Climbs [b.operands.length] b :=
  .cycle hrunning hstep (.refl b)

variable {index : Nat} {operands : List Word} {h : operands.length ≤ l.stackCapacity} {v : Int}

/-- **The heights of code.** The code of an expression that has a value and room for its stack depth
comes to the heights of the expression, and ends with the value on top. -/
theorem climbs_code (hrunning : a.running = true) {e : Expr} (hv : e.evaluate = some v)
    (hcode : a.HasCode index e.code) (hdepth : operands.length + e.stackDepth ≤ l.stackCapacity)
    (hroom : operands.length < l.stackCapacity) :
    (a.moved index operands h).Climbs (e.heights operands.length)
      (a.moved (index + e.size) (.wrap v :: operands) hroom) := by
  induction e generalizing index operands v with
  | const p =>
    obtain rfl := Option.some.inj hv
    have hstep := step_moved_literal (h := h) hcode.head hroom
    rw [← Word.wrap_val (.ofPayload p)] at hstep
    exact .single (a := a.moved index operands h) hrunning hstep
  | node op left right ihl ihr =>
    obtain ⟨x, y, hx, hy, hop⟩ := Expr.evaluate_node_eq_some_iff.1 hv
    rw [Expr.stackDepth] at hdepth
    have hright := right.stackDepth_pos
    have hcodeRight := hcode.left.right
    rw [left.length_code] at hcodeRight
    have hroomRight : (Word.wrap x :: operands).length < l.stackCapacity := by
      rw [List.length_cons]
      omega
    -- The operation finds both values, and leaves one operand more than there was at first.
    have hcodeOp := hcode.right.head
    rw [List.length_append, left.length_code, right.length_code, ← Nat.add_assoc] at hcodeOp
    have hstep := step_moved_arith (x := .wrap x) (y := .wrap y) (h := hroomRight) hcodeOp hroom
    rw [Word.val_wrap (Expr.isWord_evaluate hx), Word.val_wrap (Expr.isWord_evaluate hy), hop]
      at hstep
    have hclimbsLeft := ihl (h := h) hx hcode.left.left (by omega) hroom
    have hclimbsRight := ihr (h := Nat.le_of_lt hroomRight) hy hcodeRight
      (by rw [List.length_cons]; omega) hroomRight
    rw [Expr.size, ← Nat.add_assoc, ← Nat.add_assoc]
    exact (hclimbsLeft.trans hclimbsRight).trans
      (.single (a := a.moved _ (.wrap y :: .wrap x :: operands) hroomRight) hrunning hstep)

/-- A program that prints the value of an expression and halts comes to the heights of the
program. -/
theorem climbs_program (hrunning : a.running = true) {e : Expr} (hv : e.evaluate = some v)
    (hcode : a.HasCode 0 (e.code ++ [.op .prn, .op .halt]))
    (hdepth : e.stackDepth ≤ l.stackCapacity) :
    (a.moved 0 [] (Nat.zero_le _)).Climbs e.programHeights
      (a.moved (e.size + 2) [] (Nat.zero_le _)).halted := by
  have hpos := e.stackDepth_pos
  have hroom : ([] : List Word).length < l.stackCapacity := by
    rw [List.length_nil]
    omega
  have hvalue := climbs_code (h := Nat.zero_le _) hrunning hv hcode.left
    (by rw [List.length_nil]; omega) hroom
  have hlast := hcode.right
  rw [e.length_code] at hlast
  rw [Nat.zero_add] at hlast hvalue
  have hprinted : (a.moved e.size [.wrap v] hroom).Climbs [0]
      (a.moved (e.size + 1) [] (Nat.zero_le _)) :=
    .single (a := a.moved e.size [.wrap v] hroom) hrunning (step_moved_prn hlast.head)
  have hhalted : (a.moved (e.size + 1) [] (Nat.zero_le _)).Climbs [0]
      (a.moved (e.size + 2) [] (Nat.zero_le _)).halted :=
    .single (a := a.moved (e.size + 1) [] (Nat.zero_le _)) hrunning
      (step_moved_halt hlast.tail.head)
  exact hvalue.trans (hprinted.trans hhalted)

/-! ### Code that is too deep -/

/-- A literal finds no room on a stack that is full. -/
theorem step_moved_literal_of_full {p : Payload} (hliteral : a.program[index]? = some (.literal p))
    (hfull : ¬operands.length < l.stackCapacity) :
    (a.moved index operands h).step = .error (.outOfBounds .stack l.stackLimit) := by
  rw [step_moved hliteral, execute, pushing, push_of_not_lt _ hfull]
  rfl

/-- **Too deep.** The code of an expression that has a value, but not enough room for its stack
depth, stops at a push that finds the stack full. -/
theorem stepUpTo_code_of_deep (hrunning : a.running = true) {e : Expr} (hv : e.evaluate = some v)
    (hcode : a.HasCode index e.code) (hdeep : l.stackCapacity < operands.length + e.stackDepth)
    (n : Nat) :
    (a.moved index operands h).stepUpTo (e.size + n) =
      .error (.outOfBounds .stack l.stackLimit) := by
  induction e generalizing index operands v n with
  | const p =>
    rw [Expr.stackDepth] at hdeep
    rw [Expr.size, Nat.add_comm]
    exact stepUpTo_of_step_error (step_moved_literal_of_full hcode.head (by omega)) hrunning n
  | node op left right ihl ihr =>
    obtain ⟨x, y, hx, hy, -⟩ := Expr.evaluate_node_eq_some_iff.1 hv
    have hsize : (Expr.node op left right).size + n = left.size + (right.size + (n + 1)) := by
      rw [Expr.size]
      omega
    rw [Expr.stackDepth] at hdeep
    rw [hsize]
    by_cases hleft : l.stackCapacity < operands.length + left.stackDepth
    · exact ihl hx hcode.left.left hleft _
    · -- The left operand has room and is computed, so the right one has not.
      have hpos := left.stackDepth_pos
      have hroom : operands.length < l.stackCapacity := by omega
      have hcodeRight := hcode.left.right
      rw [left.length_code] at hcodeRight
      rw [stepUpTo_code hrunning left hcode.left.left (by omega) hroom, hx]
      have hlength : (Word.wrap x :: operands).length ≤ l.stackCapacity := hroom
      exact ihr (h := hlength) hy hcodeRight (by rw [List.length_cons]; omega) _

/-! ### Heights as stack pointers -/

variable {m : Machine} {heights : List Nat}

/-- The stack pointers after the cycles of a passage are its heights. -/
theorem Climbs.sp_afterCycles (hclimbs : a.Climbs heights b) (hm : a.Describes m.state) {i : Nat}
    (hi : i < heights.length) : (m.afterCycles (i + 1)).state.sp = heights[i] := by
  induction hclimbs generalizing m i with
  | refl a => exact absurd hi (Nat.not_lt_zero i)
  | cycle hrunning hstep _ ih =>
    obtain ⟨-, hnext, -⟩ := hm.step_ok hstep
    rw [Machine.afterCycles_succ]
    cases i with
    | zero => exact hnext.sp_eq
    | succ i => exact ih hnext (Nat.lt_of_succ_lt_succ hi)

/-- The greatest stack pointer after a cycle of a passage is its greatest height. -/
theorem Climbs.isGreatest_sp (hclimbs : a.Climbs heights b) (hm : a.Describes m.state)
    {peak : Nat} (hpeak : IsGreatest {height | height ∈ heights} peak) :
    IsGreatest {sp | ∃ k < heights.length, sp = (m.afterCycles (k + 1)).state.sp} (peak : Int) := by
  constructor
  · obtain ⟨k, hk, rfl⟩ := List.getElem_of_mem hpeak.1
    exact ⟨k, hk, (hclimbs.sp_afterCycles hm hk).symm⟩
  · rintro _ ⟨k, hk, rfl⟩
    rw [hclimbs.sp_afterCycles hm hk]
    exact Int.ofNat_le.2 (hpeak.2 (List.getElem_mem hk))

end ListMachine

/-! ### Trials -/

namespace Trial

variable {e : Expr} {l : Layout} {maxSteps : Int} {v : Int}

/-- A program that is too long does not load. -/
theorem execute_compile_of_long (hlong : l.instructionCapacity < e.compile.length) :
    execute e.compile maxSteps l = .fault "OutOfBounds(INSTRUCTION)" := by
  have hrefused := Memory.acceptance_of_isWord l (isWord_of_mem_compile e) l.instructionCapacity
  rw [if_neg (Nat.not_le_of_lt hlong)] at hrefused
  exact execute_of_refused hrefused maxSteps

/-- The program of an expression that is too deep runs out of stack. -/
theorem execute_compile_of_deep (hv : e.evaluate = some v)
    (hlength : e.compile.length ≤ l.instructionCapacity) (hdeep : l.stackCapacity < e.stackDepth)
    (hsteps : (e.compile.length : Int) ≤ maxSteps) :
    execute e.compile maxSteps l = .fault "OutOfBounds(STACK)" := by
  obtain ⟨a, hrunning, hcode, hresult⟩ := exists_result_compile hlength
  rw [e.length_compile] at hsteps
  obtain ⟨n, hn⟩ : ∃ n, maxSteps.toNat = e.size + n := ⟨maxSteps.toNat - e.size, by omega⟩
  rw [hresult, ListMachine.result, hn, ListMachine.stepUpTo_code_of_deep hrunning hv hcode.left
    (by rw [List.length_nil]; omega)]
  rfl

/-- The run of an expression that fits: it halts in as many cycles as its program has words, and
the greatest stack pointer after a cycle of it is the stack depth. -/
theorem stopsIn_compile (hv : e.evaluate = some v)
    (hlength : e.compile.length ≤ l.instructionCapacity) (hdepth : e.stackDepth ≤ l.stackCapacity)
    (sink : Sink) (journal : Journal) :
    let m := ((Machine.fresh l sink journal).load e.compile).after
    (∃ last, m.StopsIn e.compile.length .halted last) ∧
      IsGreatest {sp | ∃ k < e.compile.length, sp = (m.afterCycles (k + 1)).state.sp}
        (e.stackDepth : Int) := by
  intro m
  have hcode := hlength
  rw [Expr.compile, length_assemble] at hcode
  have hm : ((ListMachine.blank l).loaded _ hcode).Describes m.state :=
    ListMachine.describes_load_fresh (Memory.accepted_eq_self hlength (isWord_of_mem_compile e))
      hcode sink journal
  have hclimbs := ListMachine.climbs_program
    (a := (ListMachine.blank l).loaded _ hcode) rfl hv ⟨_, rfl⟩ hdepth
  obtain ⟨output, hreaches⟩ := hclimbs.exists_reaches
  obtain ⟨last, hstops, -⟩ := hreaches.stopsIn rfl hm
  rw [← e.length_programHeights]
  exact ⟨⟨last, hstops⟩, hclimbs.isGreatest_sp hm e.isGreatest_programHeights⟩

/-- **Fitting is exact.** Of an expression that has a value, and with a budget of one cycle for each
word of its program: a program that is too long does not load, one that loads but is too deep runs
out of stack, and every other is run to its halt, with the stack depth as the greatest stack pointer
after any of its cycles. So exactly the programs that fit succeed. -/
theorem fits_is_exact (hv : e.evaluate = some v) (l : Layout)
    (hsteps : (e.compile.length : Int) ≤ maxSteps) (journal : Journal) :
    (l.instructionCapacity < e.compile.length →
        execute e.compile maxSteps l = .fault "OutOfBounds(INSTRUCTION)") ∧
      (e.compile.length ≤ l.instructionCapacity → l.stackCapacity < e.stackDepth →
        execute e.compile maxSteps l = .fault "OutOfBounds(STACK)") ∧
      (e.compile.length ≤ l.instructionCapacity → e.stackDepth ≤ l.stackCapacity →
        let m := ((Machine.fresh l .emptyBuffer journal).load e.compile).after
        execute e.compile maxSteps l = .success (Text.decimal v) none ∧
          (∃ last, m.StopsIn e.compile.length .halted last) ∧
          IsGreatest {sp | ∃ k < e.compile.length, sp = (m.afterCycles (k + 1)).state.sp}
            (e.stackDepth : Int)) ∧
      (fits e l = true ↔ ∃ output top, execute e.compile maxSteps l = .success output top) := by
  have hruns : fits e l = true → execute e.compile maxSteps l = .success (Text.decimal v) none := by
    intro hfits
    rw [execute_of_fits hfits hsteps, expected, hv]
  refine ⟨execute_compile_of_long, fun hlength hdeep ↦ ?_, fun hlength hdepth ↦ ?_, ?_⟩
  · exact execute_compile_of_deep hv hlength hdeep hsteps
  · exact ⟨hruns (fits_iff.2 ⟨hdepth, hlength⟩),
      stopsIn_compile hv hlength hdepth .emptyBuffer journal⟩
  · refine ⟨fun hfits ↦ ⟨_, _, hruns hfits⟩, ?_⟩
    rintro ⟨output, top, hsuccess⟩
    -- Whatever does not fit faults, so it does not succeed.
    have hlength : e.compile.length ≤ l.instructionCapacity := by
      by_contra hlong
      rw [execute_compile_of_long (Nat.lt_of_not_le hlong)] at hsuccess
      cases hsuccess
    have hdepth : e.stackDepth ≤ l.stackCapacity := by
      by_contra hdeep
      rw [execute_compile_of_deep hv hlength (Nat.lt_of_not_le hdeep) hsteps] at hsuccess
      cases hsuccess
    exact fits_iff.2 ⟨hdepth, hlength⟩

/-- The expression `7 - (6 - (5 - 4))`, whose program has nine words and whose stack comes to four
values, in three layouts: one word too short for it, one value too shallow, and just right. -/
theorem fits_is_exact_right_deep :
    let e : Expr := .node .sub (.const 7) (.node .sub (.const 6) (.node .sub (.const 5) (.const 4)))
    let right : Layout := ⟨14, 5, 14, by decide, by decide, by decide⟩
    let m := ((Machine.fresh right .emptyBuffer .silent).load e.compile).after
    e.evaluate = some 2 ∧ (e.compile.length : Int) ≤ 9 ∧
      execute e.compile 9 ⟨13, 5, 13, by decide, by decide, by decide⟩ =
        .fault "OutOfBounds(INSTRUCTION)" ∧
      execute e.compile 9 ⟨13, 4, 13, by decide, by decide, by decide⟩ =
        .fault "OutOfBounds(STACK)" ∧
      execute e.compile 9 right = .success (Text.decimal 2) none ∧
      IsGreatest {sp | ∃ k < 9, sp = (m.afterCycles (k + 1)).state.sp} 4 := by
  intro e right m
  have hv : e.evaluate = some 2 := by decide
  have hsteps : (e.compile.length : Int) ≤ 9 := by decide
  have hruns := (fits_is_exact hv right hsteps .silent).2.2.1 (by decide) (by decide)
  exact ⟨hv, hsteps, (fits_is_exact hv _ hsteps .silent).1 (by decide),
    (fits_is_exact hv _ hsteps .silent).2.1 (by decide) (by decide), hruns.1, hruns.2.2⟩

end Trial

end TaggedStack
