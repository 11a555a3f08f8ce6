import TaggedStack.Proofs.CodeRuns

/-!
# Runs that stop

A machine *stops within* a number of cycles when a run of that many cycles cannot leave it running:
it halts or faults before. A cycle that faults stops every run, so only the cycles that go through
have to be followed, and what each instruction leads to is said by inversion: if its cycle went
through, its operands were there, and the machine is now at this place with these operands.

Code without jumps stops because it is used up. Everything but a jump leads to the next instruction
and leaves the program as it is, and after the last instruction there is nothing to fetch.

* `ListMachine.StopsWithin.of_step`: how stopping is proved, cycle by cycle.
* `ListMachine.next_of_step`: where an instruction that is no jump leads.
* `ListMachine.JumpFreeFrom.stopsWithin`: code without jumps stops.
* `Trial.settles_of_stopsWithin`: a trial of a program that stops within the budget.
-/

namespace TaggedStack

/-! ### Jumps -/

/-- The numbers of the operations tell them apart. -/
theorem Opcode.ofId?_eq_some_iff {n : Int} {op : Opcode} :
    ofId? n = some op ↔ n = (op.id.val : Int) := by
  constructor
  · intro h
    unfold ofId? at h
    split at h
    case h_13 => cases h
    all_goals
      cases h
      rfl
  · rintro rfl
    exact op.ofId?_id

/-- The operation an instruction performs, if it performs one. -/
def Instr.opcode? : Instr → Option Opcode
  | primitive id | reserved id => Opcode.ofId? id.val
  | literal _ | negative _ => none

@[simp]
theorem Instr.opcode?_op (o : Opcode) : (Instr.op o).opcode? = some o := o.ofId?_id

/-- An instruction that may lead elsewhere than to the next one. -/
def Instr.IsJump (i : Instr) : Prop := i.opcode? = some .jmp ∨ i.opcode? = some .jz

instance (i : Instr) : Decidable i.IsJump := inferInstanceAs (Decidable (_ ∨ _))

@[simp]
theorem Instr.not_isJump_literal (p : Payload) : ¬(Instr.literal p).IsJump := by
  rintro (h | h) <;> cases h

@[simp]
theorem Instr.not_isJump_negative (p : Payload) : ¬(Instr.negative p).IsJump := by
  rintro (h | h) <;> cases h

@[simp]
theorem Instr.isJump_op (o : Opcode) : (Instr.op o).IsJump ↔ o = .jmp ∨ o = .jz := by
  rw [IsJump, opcode?_op, Option.some.injEq, Option.some.injEq]

/-- A primitive whose number is that of no operation is no jump. -/
theorem Instr.not_isJump_primitive {id : Payload} (h : 12 ≤ id.val) :
    ¬(Instr.primitive id).IsJump := by
  have hnone : ∀ op, Opcode.ofId? id.val ≠ some op := by
    intro op hop
    have hid := Opcode.ofId?_eq_some_iff.1 hop
    have hlt : op.id.val < 12 := op.id.isLt
    omega
  rintro (hop | hop) <;> exact hnone _ hop

namespace ListMachine

variable {l : Layout} {a b : ListMachine l} {output : Option Emission}

/-! ### What stays as it is -/

/-- Two machines at the same place of the same program. -/
structure SamePlace (a b : ListMachine l) : Prop where
  next_eq : b.next = a.next
  program_eq : b.program = a.program

theorem SamePlace.trans {c : ListMachine l} (h : a.SamePlace b) (h' : b.SamePlace c) :
    a.SamePlace c :=
  ⟨h'.next_eq.trans h.next_eq, h'.program_eq.trans h.program_eq⟩

theorem samePlace_of_pop {value : Word} (h : a.pop = .ok (value, b)) : a.SamePlace b := by
  unfold pop at h
  split at h
  · cases h
  · cases h
    exact ⟨rfl, rfl⟩

theorem samePlace_of_pushing {value : Word} (h : a.pushing value = .ok (b, output)) :
    a.SamePlace b := by
  obtain ⟨c, hc, h⟩ := exists_of_bind_eq_ok h
  cases h
  unfold push at hc
  split at hc
  · cases hc
    exact ⟨rfl, rfl⟩
  · cases hc

theorem samePlace_of_popTwo {x y : Word} (h : a.popTwo = .ok (x, y, b)) : a.SamePlace b := by
  obtain ⟨⟨_, c⟩, hc, h⟩ := exists_of_bind_eq_ok h
  obtain ⟨⟨_, d⟩, hd, h⟩ := exists_of_bind_eq_ok h
  cases h
  exact (samePlace_of_pop hc).trans (samePlace_of_pop hd)

theorem samePlace_of_combining {f : Word → Word → Word} (h : a.combining f = .ok (b, output)) :
    a.SamePlace b := by
  obtain ⟨⟨x, y, c⟩, hc, h⟩ := exists_of_bind_eq_ok h
  exact (samePlace_of_popTwo hc).trans (samePlace_of_pushing h)

/-- Only jumps change the place. -/
theorem samePlace_of_perform {op : Opcode} (hjmp : op ≠ .jmp) (hjz : op ≠ .jz)
    (h : a.perform op = .ok (b, output)) : a.SamePlace b := by
  cases op with
  | jmp => exact absurd rfl hjmp
  | jz => exact absurd rfl hjz
  | halt =>
    cases h
    exact ⟨rfl, rfl⟩
  | add | sub | mul =>
    rw [perform] at h
    exact samePlace_of_combining h
  | div =>
    obtain ⟨⟨x, y, c⟩, hc, h⟩ := exists_of_bind_eq_ok h
    dsimp only at h
    split at h
    · cases h
    · exact (samePlace_of_popTwo hc).trans (samePlace_of_pushing h)
  | dup =>
    obtain ⟨_, -, h⟩ := exists_of_bind_eq_ok h
    exact samePlace_of_pushing h
  | prn | prnchar =>
    obtain ⟨⟨_, c⟩, hc, h⟩ := exists_of_bind_eq_ok h
    cases h
    exact samePlace_of_pop hc
  | load =>
    obtain ⟨⟨index, c⟩, hc, h⟩ := exists_of_bind_eq_ok h
    dsimp only at h
    split at h
    · exact (samePlace_of_pop hc).trans (samePlace_of_pushing h)
    · cases h
  | stor =>
    obtain ⟨⟨index, c⟩, hc, h⟩ := exists_of_bind_eq_ok h
    obtain ⟨⟨value, d⟩, hd, h⟩ := exists_of_bind_eq_ok h
    dsimp only at h
    split at h
    · cases h
      have hplace := (samePlace_of_pop hc).trans (samePlace_of_pop hd)
      exact ⟨hplace.next_eq, hplace.program_eq⟩
    · cases h

theorem samePlace_of_execute {i : Instr} (hi : ¬i.IsJump) (h : a.execute i = .ok (b, output)) :
    a.SamePlace b := by
  rcases i with p | p | id | id
  · exact samePlace_of_pushing h
  · exact samePlace_of_pushing h
  all_goals
    rw [execute] at h
    split at h
    · next op hop =>
      refine samePlace_of_perform ?_ ?_ h
      · rintro rfl
        exact hi (Or.inl hop)
      · rintro rfl
        exact hi (Or.inr hop)
    · cases h

/-- **An instruction that is no jump leads to the next one,** and leaves the program as it is. -/
theorem next_of_step {i : Instr} (hi : a.program[a.next]? = some i) (hjump : ¬i.IsJump)
    (h : a.step = .ok (b, output)) : b.next = a.next + 1 ∧ b.program = a.program := by
  rw [step, hi] at h
  obtain ⟨hnext, hprogram⟩ := samePlace_of_execute hjump h
  exact ⟨hnext, hprogram⟩

/-! ### Instructions that went through -/

section Moved

variable {index : Nat} {operands : List Word} {h : operands.length ≤ l.stackCapacity}

/-- Pushing gives a machine with one more operand. -/
theorem eq_of_pushing_moved {value : Word}
    (hpush : (a.moved index operands h).pushing value = .ok (b, output)) :
    ∃ h', b = a.moved index (value :: operands) h' := by
  by_cases hroom : operands.length < l.stackCapacity
  · rw [pushing_moved hroom] at hpush
    cases hpush
    exact ⟨hroom, rfl⟩
  · rw [pushing, push_of_not_lt _ hroom] at hpush
    cases hpush

/-- What was popped was on top. -/
theorem eq_of_pop_moved {value : Word} (hpop : (a.moved index operands h).pop = .ok (value, b)) :
    ∃ rest h', operands = value :: rest ∧ b = a.moved index rest h' := by
  rcases operands with - | ⟨top, rest⟩
  · rw [pop_of_nil rfl] at hpop
    cases hpop
  · rw [pop_of_cons rfl] at hpop
    cases hpop
    exact ⟨rest, Nat.le_of_succ_le h, rfl, rfl⟩

/-- After a literal its value is on top. -/
theorem eq_of_step_literal {p : Payload} (hi : a.program[index]? = some (.literal p))
    (hstep : (a.moved index operands h).step = .ok (b, output)) :
    ∃ h', b = a.moved (index + 1) (.ofPayload p :: operands) h' := by
  rw [step_moved hi] at hstep
  exact eq_of_pushing_moved hstep

/-- After a duplication the top operand is there twice. -/
theorem eq_of_step_dup (hi : a.program[index]? = some (.op .dup))
    (hstep : (a.moved index operands h).step = .ok (b, output)) :
    ∃ value h', b = a.moved (index + 1) (value :: operands) h' := by
  rw [step_moved_op hi] at hstep
  obtain ⟨⟨value, _⟩, -, hpush⟩ := exists_of_bind_eq_ok hstep
  exact ⟨value, eq_of_pushing_moved hpush⟩

/-- The target of a jump that went through was on top. -/
theorem eq_of_jumpTarget_moved {target : Nat}
    (htarget : (a.moved index operands h).jumpTarget = .ok (target, b)) :
    ∃ value rest h', operands = value :: rest ∧ target = value.val.toNat ∧
      b = a.moved index rest h' := by
  obtain ⟨⟨value, c⟩, hpop, htarget⟩ := exists_of_bind_eq_ok htarget
  obtain ⟨rest, h', rfl, rfl⟩ := eq_of_pop_moved hpop
  dsimp only at htarget
  split at htarget
  · cases htarget
    exact ⟨value, rest, h', rfl, rfl, rfl⟩
  · cases htarget

/-- After a jump the machine goes on behind the target, which was on top. -/
theorem eq_of_step_jmp (hi : a.program[index]? = some (.op .jmp))
    (hstep : (a.moved index operands h).step = .ok (b, output)) :
    ∃ value rest h', operands = value :: rest ∧ b = a.moved (value.val.toNat + 1) rest h' := by
  rw [step_moved_op hi] at hstep
  obtain ⟨⟨target, c⟩, htarget, hstep⟩ := exists_of_bind_eq_ok hstep
  obtain ⟨value, rest, h', rfl, rfl, rfl⟩ := eq_of_jumpTarget_moved htarget
  cases hstep
  exact ⟨value, rest, h', rfl, rfl⟩

/-- After a conditional jump the machine goes on behind the target, which was on top, if the
condition below it was zero, and else behind the jump. -/
theorem eq_of_step_jz (hi : a.program[index]? = some (.op .jz))
    (hstep : (a.moved index operands h).step = .ok (b, output)) :
    ∃ value condition rest h', operands = value :: condition :: rest ∧
      b = a.moved (if condition.val = 0 then value.val.toNat + 1 else index + 1) rest h' := by
  rw [step_moved_op hi] at hstep
  obtain ⟨⟨target, c⟩, htarget, hstep⟩ := exists_of_bind_eq_ok hstep
  obtain ⟨value, _, _, rfl, rfl, rfl⟩ := eq_of_jumpTarget_moved htarget
  obtain ⟨⟨condition, d⟩, hpop, hstep⟩ := exists_of_bind_eq_ok hstep
  obtain ⟨rest, h', rfl, rfl⟩ := eq_of_pop_moved hpop
  cases hstep
  refine ⟨value, condition, rest, h', rfl, ?_⟩
  split <;> rfl

end Moved

/-! ### Stopping -/

/-- A run of `n` cycles cannot leave the machine running. -/
def StopsWithin (a : ListMachine l) (n : Nat) : Prop :=
  ∀ b output, a.stepUpTo n = .ok (b, output) → b.running = false

namespace StopsWithin

/-- A machine stops if it stops after its first cycle, in case that goes through. -/
theorem of_step {n : Nat} (h : ∀ b output, a.step = .ok (b, output) → b.StopsWithin n) :
    a.StopsWithin (n + 1) := by
  intro last text hrun
  by_cases hrunning : a.running = true
  · rw [stepUpTo, if_pos hrunning] at hrun
    obtain ⟨⟨b, output⟩, hstep, hrun⟩ := exists_of_bind_eq_ok hrun
    obtain ⟨⟨last, later⟩, hlater, hrun⟩ := exists_of_bind_eq_ok hrun
    cases hrun
    exact h b output hstep _ later hlater
  · rw [Bool.not_eq_true] at hrunning
    rw [stepUpTo_of_not_running hrunning] at hrun
    cases hrun
    exact hrunning

theorem of_not_running (h : a.running = false) (n : Nat) : a.StopsWithin n := by
  intro last text hrun
  rw [stepUpTo_of_not_running h] at hrun
  cases hrun
  exact h

/-- More cycles do not keep a machine from stopping. -/
theorem mono {n k : Nat} (h : a.StopsWithin n) (hle : n ≤ k) : a.StopsWithin k := by
  induction n generalizing a k with
  | zero => exact of_not_running (h a [] rfl) k
  | succ n ih =>
    obtain ⟨k, rfl⟩ : ∃ k', k = k' + 1 := ⟨k - 1, by omega⟩
    by_cases hrunning : a.running = true
    · refine of_step fun b output hstep ↦ ih (fun c later hlater ↦ ?_) (by omega)
      refine h c (printed output ++ later) ?_
      rw [stepUpTo_of_step_ok hstep hrunning, hlater]
      rfl
    · exact of_not_running (Bool.not_eq_true _ ▸ hrunning) _

end StopsWithin

/-! ### Code without jumps -/

/-- No instruction from an index on is a jump. -/
def JumpFreeFrom (a : ListMachine l) (index : Nat) : Prop :=
  ∀ i ∈ a.program.drop index, ¬i.IsJump

theorem JumpFreeFrom.mono {index index' : Nat} (h : a.JumpFreeFrom index)
    (hle : index ≤ index') : a.JumpFreeFrom index' :=
  fun i hi ↦ h i ((List.drop_subset_drop_left _ hle) hi)

/-- **Code without jumps stops** when it is used up, a fault at its end included. -/
theorem JumpFreeFrom.stopsWithin (h : a.JumpFreeFrom a.next) :
    a.StopsWithin (l.instructionCapacity - a.next + 1) := by
  -- The induction is on how many instructions are left.
  obtain ⟨left, hleft⟩ : ∃ left, l.instructionCapacity - a.next = left := ⟨_, rfl⟩
  induction left generalizing a with
  | zero =>
    rw [hleft]
    refine .of_step fun b output hstep ↦ ?_
    have hnone : a.program[a.next]? = none :=
      List.getElem?_eq_none (by rw [a.length_program]; omega)
    rw [step, hnone] at hstep
    cases hstep
  | succ left ih =>
    rw [hleft]
    have hlt : a.next < a.program.length := by
      rw [a.length_program]
      omega
    refine .of_step fun b output hstep ↦ ?_
    have hjump : ¬a.program[a.next].IsJump := h _ (by
      rw [List.drop_eq_getElem_cons hlt]
      exact List.mem_cons_self)
    obtain ⟨hnext, hprogram⟩ := next_of_step (List.getElem?_eq_getElem hlt) hjump hstep
    have hfree : b.JumpFreeFrom b.next := by
      rw [JumpFreeFrom, hprogram, hnext]
      exact h.mono (Nat.le_succ _)
    have hrest := ih hfree (by omega)
    rwa [show l.instructionCapacity - b.next + 1 = left + 1 by omega] at hrest

/-- A machine stops that has come to where no jumps follow. -/
theorem JumpFreeFrom.stopsWithin_moved {index place : Nat} (h : a.JumpFreeFrom index)
    (hle : index ≤ place) {operands : List Word} {hlength : operands.length ≤ l.stackCapacity} :
    (a.moved place operands hlength).StopsWithin (l.instructionCapacity + 1) := by
  have hfree : (a.moved place operands hlength).JumpFreeFrom place := h.mono hle
  exact hfree.stopsWithin.mono (Nat.succ_le_succ (Nat.sub_le _ _))

/-- What follows a program in memory is no jump. -/
theorem jumpFreeFrom_loaded {code : List Instr} (hlength : code.length ≤ l.instructionCapacity)
    {k : Nat} (h : ∀ i ∈ code.drop k, ¬i.IsJump) :
    ((blank l).loaded code hlength).JumpFreeFrom k := by
  intro i hi
  rw [loaded, List.drop_append] at hi
  rcases List.mem_append.1 hi with hi | hi
  · exact h i hi
  · obtain rfl := List.eq_of_mem_replicate (List.mem_of_mem_drop (List.mem_of_mem_drop hi))
    exact Instr.not_isJump_literal _

end ListMachine

/-! ### Trials -/

namespace Trial

variable {l : Layout}

/-- A trial is over within its budget: it succeeds or faults. -/
def Settles (words : List Int) (maxSteps : Int) (l : Layout) : Prop :=
  (∃ output top, execute words maxSteps l = .success output top) ∨
    ∃ kind, execute words maxSteps l = .fault kind

theorem result_of_stopsWithin {a : ListMachine l} {maxSteps : Int}
    (h : a.StopsWithin maxSteps.toNat) :
    (∃ output top, a.result maxSteps = .success output top) ∨
      ∃ kind, a.result maxSteps = .fault kind := by
  unfold ListMachine.result
  split
  · exact Or.inr ⟨_, rfl⟩
  · next b output hrun =>
    rw [h b output hrun]
    exact Or.inl ⟨_, _, rfl⟩

/-- A trial of a program settles if the program stops within the budget, or is too long. -/
theorem settles_of_stopsWithin {code : List Instr} {n : Nat} {maxSteps : Int}
    (h : ∀ hlength : code.length ≤ l.instructionCapacity,
      ((ListMachine.blank l).loaded code hlength).StopsWithin n)
    (hn : (n : Int) ≤ maxSteps) : Settles (assemble code) maxSteps l := by
  have hwords : ∀ w ∈ assemble code, IsWord w := fun w hw ↦ isWord_of_mem_assemble hw
  have hloads := Memory.acceptance_of_isWord l hwords l.instructionCapacity
  rw [length_assemble] at hloads
  by_cases hlength : code.length ≤ l.instructionCapacity
  · rw [if_pos hlength] at hloads
    have haccepted : Memory.accepted l.instructionCapacity (assemble code) = assemble code :=
      Memory.accepted_eq_self (by rwa [length_assemble]) hwords
    rw [Settles, execute_of_accepted hloads haccepted hlength]
    exact result_of_stopsWithin ((h hlength).mono (by omega))
  · rw [if_neg hlength] at hloads
    exact Or.inr ⟨_, execute_of_refused hloads maxSteps⟩

end Trial

end TaggedStack
