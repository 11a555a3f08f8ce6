import TaggedStack.Proofs.Distinct
import TaggedStack.Proofs.Stopping

/-!
# Every program of the suite stops

The programs of the suite come in a few shapes, whatever the layout they are aimed at. Most have no
jumps and stop when their code is used up. A jump may land anywhere, also before itself, in the
program it belongs to; but a program with a single jump has only as many operands as that jump
takes, so the second time it finds too few. What is left is the one program that jumps back again
and again. It has one more operand after each turn, so the stack overflows.

* `Enumerate.exists_shape_of_mem_suite`: the shapes of the programs in the suite.
* `Enumerate.stopsWithin_growing`: the loop that only an overflow stops.
* `Enumerate.Shape.stopsWithin`: programs of these shapes stop.
* `Enumerate.suite_settles`: every program of the suite succeeds or faults.
-/

namespace TaggedStack

/-! ### What is in a suite -/

/-- What an attempt read from a list is one of the results in it. -/
theorem Attempt.mem_of_mem_ofList {ε α : Type} {xs : List (Except ε α)} {x : α}
    (h : x ∈ (ofList xs).after) : .ok x ∈ xs := by
  induction xs with
  | nil => cases h
  | cons y xs ih =>
    rcases y with e | y
    · cases h
    · rcases List.mem_cons.1 h with rfl | h
      · exact List.mem_cons_self
      · exact List.mem_cons_of_mem _ (ih h)

namespace Enumerate

/-- A program with a literal is the program of some payload. -/
theorem exists_of_withLiteral {value : Int} {program : Instr → List Instr} {words : List Int}
    (h : withLiteral value program = .ok words) :
    ∃ p : Payload, words = assemble (program (.literal p)) := by
  unfold withLiteral Instr.ofLiteral at h
  split at h
  · next p _ =>
    cases h
    exact ⟨p, rfl⟩
  · cases h

/-- The shapes of the programs in a suite. -/
inductive Shape : List Instr → Prop
  /-- Code without jumps. -/
  | straight {code : List Instr} (h : ∀ i ∈ code, ¬i.IsJump) : Shape code
  /-- A single operation on an empty stack. -/
  | bare (op : Opcode) : Shape [.op op, .op .halt]
  | jump (target : Payload) : Shape [.literal target, .op .jmp, .op .halt, .op .halt]
  | branch (condition target : Payload) :
      Shape [.literal condition, .literal target, .op .jz, .op .halt, .op .halt]
  /-- A loop that leaves one more value on the stack with each turn. -/
  | growing : Shape [.literal 1, .op .dup, .literal 0, .op .jmp, .op .halt]

theorem not_isJump_of_mem_code (e : Expr) : ∀ i ∈ e.code, ¬i.IsJump := by
  induction e with
  | const value => simp [Expr.code]
  | node op left right ihl ihr =>
    simp only [Expr.code, List.mem_append, List.mem_singleton]
    rintro i ((hi | hi) | rfl)
    · exact ihl i hi
    · exact ihr i hi
    · cases op <;> simp [Arith.opcode]

theorem exists_shape_of_mem_programs {constants : List Payload} {maxDepth : Nat} {words : List Int}
    (h : words ∈ programs constants maxDepth) : ∃ code, Shape code ∧ words = assemble code := by
  obtain ⟨depth, -, hwords⟩ := List.mem_flatMap.1 h
  obtain ⟨e, -, rfl⟩ := List.mem_map.1 hwords
  have hend : ∀ i ∈ [Instr.op .prn, Instr.op .halt], ¬i.IsJump := by simp
  refine ⟨_, .straight fun i hi ↦ ?_, rfl⟩
  rcases List.mem_append.1 hi with hi | hi
  · exact not_isJump_of_mem_code e i hi
  · exact hend i hi

theorem exists_shape_of_mem_jumpTests {l : Layout} {words : List Int}
    (h : .ok words ∈ jumpTests l) : ∃ code, Shape code ∧ words = assemble code := by
  obtain ⟨target, -, hwords⟩ := List.mem_flatMap.1 h
  simp only [List.mem_cons, List.not_mem_nil, or_false] at hwords
  rcases hwords with h | h | h
  · obtain ⟨t, rfl⟩ := exists_of_withLiteral h.symm
    exact ⟨_, .jump t, rfl⟩
  · obtain ⟨t, rfl⟩ := exists_of_withLiteral h.symm
    exact ⟨_, .branch 0 t, rfl⟩
  · obtain ⟨t, rfl⟩ := exists_of_withLiteral h.symm
    exact ⟨_, .branch 1 t, rfl⟩

theorem exists_shape_of_mem_dataTests {l : Layout} {words : List Int}
    (h : .ok words ∈ dataTests l) : ∃ code, Shape code ∧ words = assemble code := by
  obtain ⟨address, -, hwords⟩ := List.mem_flatMap.1 h
  simp only [List.mem_cons, List.not_mem_nil, or_false] at hwords
  rcases hwords with h | h
  · obtain ⟨a, rfl⟩ := exists_of_withLiteral h.symm
    exact ⟨_, .straight (by simp), rfl⟩
  · obtain ⟨a, rfl⟩ := exists_of_withLiteral h.symm
    exact ⟨_, .straight (by simp), rfl⟩

theorem exists_shape_of_mem_stackTests {words : List Int} (h : words ∈ stackTests) :
    ∃ code, Shape code ∧ words = assemble code := by
  rcases List.mem_append.1 h with h | h
  · obtain ⟨op, -, rfl⟩ := List.mem_map.1 h
    exact ⟨_, .bare op, rfl⟩
  · obtain rfl := List.mem_singleton.1 h
    exact ⟨_, .growing, rfl⟩

theorem exists_shape_of_mem_unknownTests {words : List Int} (h : words ∈ unknownTests) :
    ∃ code, Shape code ∧ words = assemble code := by
  obtain ⟨id, hid, rfl⟩ := List.mem_map.1 h
  have hall : ([12, 13, 0xFF, 0x3FFFFFFF] : List Payload).all (fun id ↦ Nat.ble 12 id.val) = true :=
    rfl
  have hlarge : 12 ≤ id.val := Nat.le_of_ble_eq_true (List.all_eq_true.1 hall id hid)
  exact ⟨_, .straight (by simp [Instr.not_isJump_primitive hlarge]), rfl⟩

theorem exists_shape_of_mem_literalTests {words : List Int} (h : words ∈ literalTests) :
    ∃ code, Shape code ∧ words = assemble code := by
  obtain ⟨value, -, hwords⟩ := List.mem_flatMap.1 h
  simp only [List.mem_cons, List.not_mem_nil, or_false] at hwords
  rcases hwords with rfl | rfl
  · exact ⟨_, .straight (by simp), rfl⟩
  · exact ⟨_, .straight (by simp), rfl⟩

/-- **The shapes of the programs in the suite.** -/
theorem exists_shape_of_mem_suite {maxDepth : Int} {l : Layout} {words : List Int}
    (h : words ∈ (suite maxDepth l).after) : ∃ code, Shape code ∧ words = assemble code := by
  rcases List.mem_append.1 (mem_distinct_iff.1 h) with h | h
  · split at h
    · cases h
    · exact exists_shape_of_mem_programs h
  · have hedge := Attempt.mem_of_mem_ofList h
    rcases List.mem_append.1 hedge with hedge | hedge
    · rcases List.mem_append.1 hedge with hedge | hedge
      · exact exists_shape_of_mem_jumpTests hedge
      · exact exists_shape_of_mem_dataTests hedge
    · obtain ⟨_, hwords, ⟨⟩⟩ := List.mem_map.1 hedge
      rcases List.mem_append.1 hwords with hwords | hwords
      · rcases List.mem_append.1 hwords with hwords | hwords
        · exact exists_shape_of_mem_stackTests hwords
        · exact exists_shape_of_mem_unknownTests hwords
      · exact exists_shape_of_mem_literalTests hwords

theorem mem_suite_of_edge {maxDepth : Int} {l : Layout} {words : List Int}
    (h : words ∈ (Attempt.ofList (edgeTests l)).after) : words ∈ (suite maxDepth l).after :=
  mem_distinct_iff.2 (List.mem_append_right _ h)

/-! ### Programs of these shapes -/

open ListMachine

variable {l : Layout} {a : ListMachine l}

/-- A jump without a target stops. -/
theorem stopsWithin_jmp_nil {index : Nat} {h : ([] : List Word).length ≤ l.stackCapacity}
    (hi : a.program[index]? = some (.op .jmp)) : (a.moved index [] h).StopsWithin 1 := by
  refine .of_step fun b output hstep ↦ ?_
  obtain ⟨_, _, _, hnil, -⟩ := eq_of_step_jmp hi hstep
  cases hnil

/-- A conditional jump with less than two operands stops. -/
theorem stopsWithin_jz_short {index : Nat} {operands : List Word}
    {h : operands.length ≤ l.stackCapacity} (hi : a.program[index]? = some (.op .jz))
    (hshort : operands.length < 2) : (a.moved index operands h).StopsWithin 1 := by
  refine .of_step fun b output hstep ↦ ?_
  obtain ⟨_, _, _, _, rfl, -⟩ := eq_of_step_jz hi hstep
  exact absurd hshort (by simp)

/-- A jump that comes back to itself finds no target. -/
theorem stopsWithin_jump {target : Payload}
    (hcode : a.HasCode 0 [.literal target, .op .jmp]) (hfree : a.JumpFreeFrom 2) :
    (a.moved 0 [] (Nat.zero_le _)).StopsWithin (l.instructionCapacity + 3) := by
  refine .of_step fun b _ hb ↦ ?_
  obtain ⟨_, rfl⟩ := eq_of_step_literal hcode.head hb
  refine .of_step fun c _ hc ↦ ?_
  obtain ⟨_, _, _, ⟨⟩, rfl⟩ := eq_of_step_jmp hcode.tail.head hc
  by_cases htarget : (Word.ofPayload target).val.toNat = 0
  · rw [htarget]
    exact (stopsWithin_jmp_nil hcode.tail.head).mono (by omega)
  · exact hfree.stopsWithin_moved (by omega)

/-- A conditional jump that comes back to itself finds less than two operands. -/
theorem stopsWithin_branch {condition target : Payload}
    (hcode : a.HasCode 0 [.literal condition, .literal target, .op .jz])
    (hfree : a.JumpFreeFrom 3) :
    (a.moved 0 [] (Nat.zero_le _)).StopsWithin (l.instructionCapacity + 4) := by
  refine .of_step fun b _ hb ↦ ?_
  obtain ⟨_, rfl⟩ := eq_of_step_literal hcode.head hb
  refine .of_step fun c _ hc ↦ ?_
  obtain ⟨_, rfl⟩ := eq_of_step_literal hcode.tail.head hc
  refine .of_step fun d _ hd ↦ ?_
  obtain ⟨_, _, _, _, ⟨⟩, rfl⟩ := eq_of_step_jz hcode.tail.tail.head hd
  split
  · -- The branch is taken: to the second literal, to the jump itself, or past it.
    have hcases : (Word.ofPayload target).val.toNat = 0 ∨
        (Word.ofPayload target).val.toNat = 1 ∨ 2 ≤ (Word.ofPayload target).val.toNat := by omega
    rcases hcases with htarget | htarget | htarget
    · rw [htarget]
      have hagain : ∀ h, (a.moved 1 [] h).StopsWithin 2 := by
        refine fun h ↦ .of_step fun e _ he ↦ ?_
        obtain ⟨_, rfl⟩ := eq_of_step_literal hcode.tail.head he
        exact stopsWithin_jz_short hcode.tail.tail.head (by simp)
      have := l.stackLimit_lt
      exact (hagain _).mono (by unfold Layout.instructionCapacity; omega)
    · rw [htarget]
      exact (stopsWithin_jz_short hcode.tail.tail.head (by simp)).mono (by omega)
    · exact hfree.stopsWithin_moved (by omega)
  · exact hfree.stopsWithin_moved (Nat.le_refl 3)

/-- A turn of the loop takes three cycles and leaves one more operand, so the room on the stack
bounds the number of turns. -/
theorem stopsWithin_growing (hcode : a.HasCode 1 [.op .dup, .literal 0, .op .jmp]) {room : Nat}
    {operands : List Word} {h : operands.length ≤ l.stackCapacity}
    (hroom : operands.length + room = l.stackCapacity) :
    (a.moved 1 operands h).StopsWithin (3 * room + 1) := by
  induction room generalizing operands with
  | zero =>
    refine .of_step fun b _ hb ↦ ?_
    obtain ⟨_, hfull, -⟩ := eq_of_step_dup hcode.head hb
    rw [List.length_cons] at hfull
    omega
  | succ room ih =>
    refine .of_step fun b _ hb ↦ ?_
    obtain ⟨_, _, rfl⟩ := eq_of_step_dup hcode.head hb
    refine .of_step fun c _ hc ↦ ?_
    obtain ⟨_, rfl⟩ := eq_of_step_literal hcode.tail.head hc
    refine .of_step fun d _ hd ↦ ?_
    obtain ⟨_, _, _, ⟨⟩, rfl⟩ := eq_of_step_jmp hcode.tail.tail.head hd
    exact ih (by rw [List.length_cons]; omega)

/-- **Programs of these shapes stop,** wherever they are loaded. -/
theorem Shape.stopsWithin {code : List Instr} (hshape : Shape code)
    (hlength : code.length ≤ l.instructionCapacity) :
    ((blank l).loaded code hlength).StopsWithin (3 * l.memSize + 10) := by
  have hcapacity : l.stackCapacity + l.instructionCapacity ≤ l.memSize := by
    have := l.stackLimit_lt
    have := l.dataBase_le
    unfold Layout.stackCapacity Layout.instructionCapacity
    omega
  show (((blank l).loaded code hlength).moved 0 [] (Nat.zero_le _)).StopsWithin _
  cases hshape with
  | straight h =>
    have hfree := jumpFreeFrom_loaded hlength (k := 0) h
    exact (hfree.stopsWithin_moved (Nat.le_refl 0)).mono (by omega)
  | bare op =>
    by_cases hop : (Instr.op op).IsJump
    · rcases (Instr.isJump_op op).1 hop with rfl | rfl
      · exact (stopsWithin_jmp_nil rfl).mono (by omega)
      · have hshort : ([] : List Word).length < 2 := Nat.two_pos
        exact (stopsWithin_jz_short rfl hshort).mono (by omega)
    · have hfree := jumpFreeFrom_loaded hlength (k := 0) (by simpa using hop)
      exact (hfree.stopsWithin_moved (Nat.le_refl 0)).mono (by omega)
  | jump target =>
    have hfree := jumpFreeFrom_loaded hlength (k := 2) (by simp)
    exact (stopsWithin_jump ⟨_, rfl⟩ hfree).mono (by omega)
  | branch condition target =>
    have hfree := jumpFreeFrom_loaded hlength (k := 3) (by simp)
    exact (stopsWithin_branch ⟨_, rfl⟩ hfree).mono (by omega)
  | growing =>
    refine (StopsWithin.of_step fun b output hstep ↦ ?_).mono
      (n := 3 * (l.stackCapacity - 1) + 2) (by omega)
    obtain ⟨h, rfl⟩ := eq_of_step_literal rfl hstep
    rw [List.length_singleton] at h
    refine stopsWithin_growing ⟨_, rfl⟩ ?_
    rw [List.length_singleton]
    omega

/-- **Every program of the suite stops.** Whatever the layout the suite is aimed at and however deep
its expressions, a trial of one of its programs on this layout succeeds or faults, if it is given
three cycles for each word of memory and ten more. -/
theorem suite_settles {maxDepth : Int} {l : Layout} {words : List Int}
    (hwords : words ∈ (suite maxDepth l).after) {maxSteps : Int}
    (hsteps : 3 * (l.memSize : Int) + 10 ≤ maxSteps) :
    (∃ output top, Trial.execute words maxSteps l = .success output top) ∨
      ∃ kind, Trial.execute words maxSteps l = .fault kind := by
  obtain ⟨code, hshape, rfl⟩ := exists_shape_of_mem_suite hwords
  exact Trial.settles_of_stopsWithin hshape.stopsWithin (by omega)

/-- The growing loop in a memory of ten words, where its stack has room for three. -/
theorem suite_settles_growing :
    let l : Layout := ⟨10, 4, 9, by decide, by decide, by decide⟩
    let loop := assemble [.literal 1, .op .dup, .literal 0, .op .jmp, .op .halt]
    loop ∈ (suite 0 l).after ∧ 3 * (l.memSize : Int) + 10 ≤ 40 ∧
      ((∃ output top, Trial.execute loop 40 l = .success output top) ∨
        ∃ kind, Trial.execute loop 40 l = .fault kind) := by
  intro l loop
  have hedge : loop ∈ (Attempt.ofList (edgeTests l)).after := by decide +kernel
  have hloop : loop ∈ (suite 0 l).after := mem_suite_of_edge hedge
  exact ⟨hloop, by decide, suite_settles hloop (by decide)⟩

end Enumerate

end TaggedStack
