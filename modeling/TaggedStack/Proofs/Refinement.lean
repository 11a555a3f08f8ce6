import TaggedStack.Proofs.Description

/-!
# The machine refines the list machine

Agreement of the machine with its description is proved part by part. `Agree R` relates a
computation that may fail to one of the list machine: both go through with results related by `R`,
or both stop with the same fault. It composes along sequencing (`Agree.bind`), so each operation is
followed in the order in which it is written, and the order of its checks is part of what is
proved. A value that is no machine word is no fault, so agreement also says that no such failure
arises.

* `ListMachine.Describes.step`: one cycle of both machines agrees.
* `State.Reachable.exists_describes`: every reachable state has a description.
* `ListMachine.step_refines`: the two machines take the same steps from every reachable state.
-/

namespace TaggedStack

/-! ### Agreement -/

/-- Two computations agree when both go through with related results, or both stop with the same
fault. -/
inductive Agree {α β : Type} (R : α → β → Prop) : Except Failure α → Except Fault β → Prop
  | ok {x : α} {y : β} (h : R x y) : Agree R (.ok x) (.ok y)
  | fault (cause : Fault) : Agree R (.error (.fault cause)) (.error cause)

namespace Agree

variable {α β α' β' : Type} {R : α → β → Prop} {S : α' → β' → Prop}

/-- Agreement of a sequence from agreement of its parts. -/
theorem bind {x : Except Failure α} {y : Except Fault β} {f : α → Except Failure α'}
    {g : β → Except Fault β'} (h : Agree R x y) (hfg : ∀ a b, R a b → Agree S (f a) (g b)) :
    Agree S (x >>= f) (y >>= g) := by
  cases h with
  | ok h => exact hfg _ _ h
  | fault cause => exact .fault cause

/-- Agreement where only one side goes on. -/
theorem bind_left {x : Except Failure α} {y : Except Fault β} {T : α' → β → Prop}
    {f : α → Except Failure α'} (h : Agree R x y) (hf : ∀ a b, R a b → Agree T (f a) (.ok b)) :
    Agree T (x >>= f) y := by
  cases h with
  | ok h => exact hf _ _ h
  | fault cause => exact .fault cause

/-- An address within reach of memory is rejected for its region, never for its digits. -/
theorem rejection {l : Layout} {r : Region} {address : Int} (h0 : 0 ≤ address)
    (h : address < 0x100000000 + l.memSize) :
    Agree R (.error (l.rejection r address)) (.error (.outOfBounds r address)) := by
  rw [Layout.rejection_of_reach h0 h]
  exact .fault _

/-- Agreement of a check that both sides make. -/
theorem ite {p q : Prop} [Decidable p] [Decidable q] {x x' : Except Failure α}
    {y y' : Except Fault β} (hpq : p ↔ q) (hpos : q → Agree R x y)
    (hneg : ¬q → Agree R x' y') : Agree R (if p then x else x') (if q then y else y') := by
  by_cases hq : q
  · rw [if_pos hq, if_pos (hpq.2 hq)]
    exact hpos hq
  · rw [if_neg hq, if_neg (mt hpq.1 hq)]
    exact hneg hq

end Agree

/-! ### Accesses as equations -/

theorem Memory.write_eq (m : Memory) (r : Region) (address : Int) {value : Int}
    (h : IsWord value) :
    m.write r address value =
      if m.layout.Admits r address then .ok (m.set address value)
      else .error (m.layout.rejection r address) := by
  rw [write_eq_ite, if_neg (not_not_intro h), ite_not]

namespace Stack

theorem pop_eq (s : Stack) :
    s.pop =
      if s.memory.layout.Admits .stack s.pointer then
        .ok (s.memory.get s.pointer, ⟨s.memory, s.pointer - 1⟩)
      else .error (s.memory.layout.rejection .stack s.pointer) := by
  unfold pop peek Memory.read
  by_cases h : s.memory.layout.Admits .stack s.pointer
  · simp only [if_pos h]
  · simp only [if_neg h]

theorem pushed_eq (s : Stack) {value : Int} (h : IsWord value) :
    s.pushed value =
      if s.memory.layout.Admits .stack (s.pointer + 1) then
        .ok ⟨s.memory.set (s.pointer + 1) value, s.pointer + 1⟩
      else .error (s.memory.layout.rejection .stack (s.pointer + 1)) := by
  split
  · next hadmits => exact pushed_eq_ok_iff.2 ⟨hadmits, h, rfl⟩
  · next hadmits => simp [pushed, push, hadmits]

end Stack

namespace ListMachine

variable {l : Layout} {a : ListMachine l} {s : State}

/-! ### The parts of an operation agree -/

/-- The state and the output of an operation are those of the list machine. -/
def Matches (effect : Effect) (result : ListMachine l × Option Emission) : Prop :=
  result.1.Describes effect.state ∧ effect.output = result.2

/-- Popping agrees. -/
theorem Describes.pop (h : a.Describes s) :
    Agree (fun (x : Int × Stack) (y : Word × ListMachine l) ↦
        x.1 = y.1.val ∧ x.2.memory = s.memory ∧ y.2.Describes (s.withStack x.2))
      s.stack.pop a.pop := by
  have hpop : s.stack.pop =
      if s.layout.Admits .stack s.sp then .ok (s.memory.get s.sp, ⟨s.memory, s.sp - 1⟩)
      else .error (s.layout.rejection .stack s.sp) := Stack.pop_eq s.stack
  cases hoperands : a.operands with
  | nil =>
    have hsp : s.sp = 0 := by
      rw [h.sp_eq, hoperands]
      rfl
    rw [hpop, if_neg (mt h.admits_sp_iff.1 (not_not_intro hoperands)), pop_of_nil hoperands, hsp]
    exact .rejection (Int.le_refl 0) (by omega)
  | cons v rest =>
    have hne : a.operands ≠ [] := by
      rw [hoperands]
      exact List.cons_ne_nil v rest
    rw [hpop, if_pos (h.admits_sp_iff.2 hne), pop_of_cons hoperands]
    exact .ok ⟨(h.stack_cons hoperands).1, rfl, h.dropTop hne⟩

/-- Pushing a machine word agrees. -/
theorem Describes.pushing (h : a.Describes s) (value : Word) :
    Agree Matches (s.pushing value.val) (a.pushing value) := by
  have hpushed : s.stack.pushed value.val =
      if s.layout.Admits .stack (s.sp + 1) then
        .ok ⟨s.memory.set (s.sp + 1) value.val, s.sp + 1⟩
      else .error (s.layout.rejection .stack (s.sp + 1)) :=
    Stack.pushed_eq s.stack value.property
  unfold State.pushing ListMachine.pushing
  by_cases hroom : a.operands.length < l.stackCapacity
  · rw [hpushed, if_pos (h.admits_sp_succ_iff.2 hroom), push_of_lt value hroom]
    exact .ok ⟨h.push hroom value, rfl⟩
  · have hfull : s.sp + 1 = l.stackLimit := by
      have := a.length_operands
      have := l.stackLimit_pos
      have hcapacity : l.stackCapacity = l.stackLimit - 1 := rfl
      rw [h.sp_eq]
      omega
    rw [hpushed, if_neg (mt h.admits_sp_succ_iff.1 hroom), push_of_not_lt value hroom, hfull,
      h.layout_eq]
    have := l.stackLimit_lt
    have := l.dataBase_le
    exact .rejection (by omega) (by omega)

/-- Popping two operands agrees. -/
theorem Describes.popTwo (h : a.Describes s) :
    Agree (fun (x : Int × Int × Stack) (y : Word × Word × ListMachine l) ↦
        x.1 = y.1.val ∧ x.2.1 = y.2.1.val ∧ y.2.2.Describes (s.withStack x.2.2))
      s.operands a.popTwo := by
  refine h.pop.bind ?_
  rintro ⟨v, stack⟩ ⟨w, b⟩ ⟨hv, -, hb⟩
  refine hb.pop.bind ?_
  rintro ⟨v', stack'⟩ ⟨w', c⟩ ⟨hv', -, hc⟩
  exact .ok ⟨hv', hv, hc⟩

/-- Popping a jump target and checking it agrees. -/
theorem Describes.jumpTarget (h : a.Describes s) :
    Agree (fun (x : Int × Stack) (y : Nat × ListMachine l) ↦
        x.1 = y.1 + l.instructionBase ∧ y.1 < l.instructionCapacity ∧
          y.2.Describes (s.withStack x.2))
      s.jumpTarget a.jumpTarget := by
  refine h.pop.bind ?_
  rintro ⟨v, stack⟩ ⟨w, b⟩ ⟨rfl, -, hb⟩
  obtain ⟨hnonneg, hword⟩ := w.property
  have hbase : l.instructionBase ≤ l.memSize :=
    Nat.le_trans (Nat.le_of_lt l.stackLimit_lt) l.dataBase_le
  dsimp only
  rw [h.layout_eq]
  refine .ite (admits_instruction_word_iff l w) (fun hindex ↦ .ok ⟨?_, ?_, hb⟩) fun _ ↦
    .rejection (by omega) (by omega)
  · dsimp only
    omega
  · dsimp only
    omega

/-- Replacing the two top operands by a word computed from them agrees. -/
theorem Describes.combining (h : a.Describes s) {f : Int → Int → Int} {g : Word → Word → Word}
    (hfg : ∀ x y : Word, f x.val y.val % 0x100000000 = (g x y).val) :
    Agree Matches (s.combining f) (a.combining g) := by
  refine h.popTwo.bind ?_
  rintro ⟨v, v', stack⟩ ⟨w, w', b⟩ ⟨rfl, rfl, hb⟩
  dsimp only
  rw [hfg]
  exact hb.pushing (g w w')

/-- Looking at the top value agrees with popping it and forgetting that. -/
theorem Describes.peek (h : a.Describes s) :
    Agree (fun (x : Int) (y : Word × ListMachine l) ↦ x = y.1.val) s.stack.peek a.pop := by
  have hpop := h.pop
  unfold Stack.pop at hpop
  cases hpeek : s.stack.peek with
  | ok v =>
    rw [hpeek] at hpop
    generalize a.pop = result at hpop ⊢
    cases hpop with
    | ok hv => exact .ok hv.1
  | error e =>
    rw [hpeek] at hpop
    generalize a.pop = result at hpop ⊢
    cases hpop with
    | fault cause => exact .fault cause

/-- Popping a data address agrees; it is not checked yet. -/
theorem Describes.dataAddress (h : a.Describes s) :
    Agree (fun (x : Int × Stack) (y : Word × ListMachine l) ↦
        x.1 = y.1.val + l.dataBase ∧ x.2.memory = s.memory ∧ y.2.Describes (s.withStack x.2))
      s.dataAddress a.pop := by
  refine h.pop.bind_left ?_
  rintro ⟨v, stack⟩ ⟨w, b⟩ ⟨rfl, hmemory, hb⟩
  dsimp only
  rw [h.layout_eq]
  exact .ok ⟨rfl, hmemory, hb⟩

/-! ### Operations, instructions and cycles agree -/

/-- Every operation agrees. -/
theorem Describes.perform (h : a.Describes s) (op : Opcode) :
    Agree Matches (op.perform s) (a.perform op) := by
  cases op with
  | halt => exact .ok ⟨{ h with running_eq := rfl }, rfl⟩
  | add =>
    exact h.combining (f := fun x y ↦ x + y) (g := fun x y ↦ .wrap (x.val + y.val)) fun _ _ ↦ rfl
  | sub =>
    exact h.combining (f := fun x y ↦ x - y) (g := fun x y ↦ .wrap (x.val - y.val)) fun _ _ ↦ rfl
  | mul =>
    exact h.combining (f := fun x y ↦ x * y) (g := fun x y ↦ .wrap (x.val * y.val)) fun _ _ ↦ rfl
  | div =>
    refine h.popTwo.bind ?_
    rintro ⟨v, v', stack⟩ ⟨w, w', b⟩ ⟨rfl, rfl, hb⟩
    exact .ite Iff.rfl (fun _ ↦ .fault _) fun _ ↦ hb.pushing (w.quotient w')
  | dup =>
    refine h.peek.bind ?_
    rintro v ⟨w, b⟩ rfl
    exact h.pushing w
  | jmp =>
    refine h.jumpTarget.bind ?_
    rintro ⟨v, stack⟩ ⟨target, b⟩ ⟨rfl, htarget, hb⟩
    exact .ok ⟨hb.jump htarget, rfl⟩
  | jz =>
    -- The target is checked before the condition is popped, on both sides.
    refine h.jumpTarget.bind ?_
    rintro ⟨v, stack⟩ ⟨target, b⟩ ⟨rfl, htarget, hb⟩
    refine hb.pop.bind ?_
    rintro ⟨v', stack'⟩ ⟨w, c⟩ ⟨rfl, -, hc⟩
    by_cases hzero : w.val = 0
    · simp only [if_pos hzero]
      exact .ok ⟨hc.jump htarget, rfl⟩
    · simp only [if_neg hzero]
      exact .ok ⟨hc, rfl⟩
  | prn =>
    refine h.pop.bind ?_
    rintro ⟨v, stack⟩ ⟨w, b⟩ ⟨rfl, -, hb⟩
    obtain ⟨hnonneg, hword⟩ := w.property
    dsimp only
    rw [Text.numeral_of_isWritable (Text.isWritable_of_lt (by omega))]
    exact .ok ⟨hb, rfl⟩
  | prnchar =>
    refine h.pop.bind ?_
    rintro ⟨v, stack⟩ ⟨w, b⟩ ⟨rfl, -, hb⟩
    exact .ok ⟨hb, rfl⟩
  | load =>
    refine h.dataAddress.bind ?_
    rintro ⟨v, stack⟩ ⟨w, b⟩ ⟨rfl, hmemory, hb⟩
    dsimp only at hmemory hb ⊢
    have hlayout : s.memory.layout = l := h.layout_eq
    rw [Memory.read, hlayout]
    have hadmits := admits_data_word_iff l w
    obtain ⟨hnonneg, hword⟩ := w.property
    have := l.dataBase_le
    cases hdata : b.data[w.val.toNat]? with
    | none =>
      have hlength := List.getElem?_eq_none_iff.1 hdata
      rw [b.length_data] at hlength
      rw [if_neg (mt hadmits.1 (by omega))]
      exact .rejection (by omega) (by omega)
    | some value =>
      obtain ⟨hlt, -⟩ := List.getElem?_eq_some_iff.1 hdata
      rw [b.length_data] at hlt
      have hget := hb.get_data hdata
      have haddress : (l.dataBase : Int) + w.val.toNat = w.val + l.dataBase := by omega
      change stack.memory.get _ = _ at hget
      rw [hmemory, haddress] at hget
      rw [if_pos (hadmits.2 (by omega)), hget]
      exact hb.pushing value
  | stor =>
    -- Both operands are popped before the address is checked, on both sides.
    refine h.dataAddress.bind ?_
    rintro ⟨v, stack⟩ ⟨w, b⟩ ⟨rfl, -, hb⟩
    refine hb.pop.bind ?_
    rintro ⟨v', stack'⟩ ⟨value, c⟩ ⟨rfl, -, hc⟩
    dsimp only at hc ⊢
    have hlayout : stack'.memory.layout = l := hc.layout_eq
    obtain ⟨hnonneg, hword⟩ := w.property
    have := l.dataBase_le
    rw [Memory.write_eq _ _ _ value.property, hlayout]
    by_cases hindex : w.val < l.dataSize
    · rw [if_pos ((admits_data_word_iff l w).2 hindex), if_pos hindex]
      exact .ok ⟨hc.store hindex value, rfl⟩
    · rw [if_neg (mt (admits_data_word_iff l w).1 hindex), if_neg hindex]
      exact .rejection (by omega) (by omega)

/-- What the tag and data registers say to do is what the instruction with these fields says. -/
theorem Describes.execute (h : a.Describes s) {i : Instr} (htag : s.tag = i.tag)
    (hdata : s.data = i.payload.val) : Agree Matches s.execute (a.execute i) := by
  unfold State.execute
  cases i with
  | literal value | negative value =>
    rw [htag, hdata]
    exact h.pushing (.ofPayload value)
  | primitive id | reserved id =>
    rw [htag, hdata, Instr.tag, Tag.isLiteral, if_neg Bool.false_ne_true, ListMachine.execute,
      Instr.payload]
    cases Opcode.ofId? id.val with
    | some op => exact h.perform op
    | none =>
      have hid : Text.isWritable id.val = true := Text.isWritable_of_lt (by omega)
      show Agree Matches (.error (.ofFault (.unknownOpcode id.val))) _
      rw [Failure.ofFault, if_pos (by simp [Fault.numbers, hid])]
      exact .fault _

/-- One cycle agrees. -/
theorem Describes.step (h : a.Describes s) : Agree Matches s.step a.step := by
  unfold State.step ListMachine.step
  rw [State.advance_eq]
  cases hnext : a.program[a.next]? with
  | none =>
    have hend : ¬a.next < a.program.length := Nat.not_lt.2 (List.getElem?_eq_none_iff.1 hnext)
    -- The instruction missing is the one after the last, so its address ends the region.
    have hnextle := h.next_le
    have hcapacity : l.instructionBase + l.instructionCapacity = l.dataBase :=
      Nat.add_sub_cancel' (Nat.le_of_lt l.stackLimit_lt)
    have hsize := l.dataBase_le
    rw [if_neg (mt h.admits_ip_succ_iff.1 hend), h.ip_eq, h.layout_eq]
    exact .rejection (by omega) (by omega)
  | some i =>
    have hlt := (List.getElem?_eq_some_iff.1 hnext).1
    have hword : s.memory.get (s.ip + 1) = pack i.tag i.payload := by
      rw [h.ip_eq]
      exact h.get_instruction hnext
    rw [if_pos (h.admits_ip_succ_iff.2 hlt)]
    have hdecoded : ({ a with next := a.next + 1 } : ListMachine l).Describes s.decoded :=
      { h with
        next_le := Nat.le_trans hlt (Nat.le_of_eq a.length_program)
        ip_eq := by
          have hip := h.ip_eq
          show s.ip + 1 + 1 = l.instructionBase + ((a.next + 1 : Nat) : Int)
          omega }
    refine hdecoded.execute ?_ ?_
    · show tagOf (s.memory.get (s.ip + 1)) = i.tag
      rw [hword, tagOf_pack]
    · show ((payloadOf (s.memory.get (s.ip + 1))).val : Int) = i.payload.val
      rw [hword, payloadOf_pack]

end ListMachine

/-! ### Reachable states -/

/-- Every reachable state has a description. -/
theorem State.Reachable.exists_describes {l : Layout} {cycles : Nat} {s : State}
    (h : State.Reachable l cycles s) : ∃ a : ListMachine l, a.Describes s := by
  induction h with
  | initial => exact ⟨_, ListMachine.describes_initial l⟩
  | load _ program ih =>
    obtain ⟨a, ha⟩ := ih
    exact ha.exists_load program
  | step _ hstep ih =>
    obtain ⟨a, ha⟩ := ih
    have hagree := ha.step
    rw [hstep] at hagree
    generalize a.step = result at hagree
    cases hagree with
    | ok hmatches => exact ⟨_, hmatches.1⟩

/-- **Refinement.** A reachable state has exactly one description, and the two machines take the
same step from there: both cycles go through, print the same and lead to a state and its
description, or both stop with the same fault. -/
theorem ListMachine.step_refines {l : Layout} {cycles : Nat} {s : State}
    (h : State.Reachable l cycles s) :
    ∃ a : ListMachine l, a.Describes s ∧ (∀ b : ListMachine l, b.Describes s → b = a) ∧
      ((∃ effect b, s.step = .ok effect ∧ a.step = .ok (b, effect.output) ∧
          b.Describes effect.state) ∨
        ∃ cause, s.step = .error (.fault cause) ∧ a.step = .error cause) := by
  obtain ⟨a, ha⟩ := h.exists_describes
  refine ⟨a, ha, fun b hb ↦ hb.unique ha, ?_⟩
  have hagree := ha.step
  generalize s.step = concrete at hagree ⊢
  generalize a.step = abstract at hagree ⊢
  cases hagree with
  | ok hmatches =>
    rename_i effect result
    obtain ⟨b, output⟩ := result
    obtain ⟨hb, rfl⟩ := hmatches
    exact Or.inl ⟨effect, b, rfl, rfl, hb⟩
  | fault cause => exact Or.inr ⟨cause, rfl, rfl⟩

/-- Two instructions in a layout with room for three: the literal nine and a conditional jump. The
jump pops nine, which is beyond the end, and stops there on both machines, although a condition is
missing too. -/
theorem ListMachine.step_refines_jz :
    ∃ s : State, State.Reachable ⟨6, 2, 5, by decide, by decide, by decide⟩ 1 s ∧
      s.step = .error (.outOfBounds .instruction 11) ∧
      ∃ a : ListMachine ⟨6, 2, 5, by decide, by decide, by decide⟩,
        a.Describes s ∧ a.step = .error (.outOfBounds .instruction 11) := by
  have hexists : ∃ s, State.Reachable ⟨6, 2, 5, by decide, by decide, by decide⟩ 1 s ∧
      s.step = .error (.outOfBounds .instruction 11) :=
    ⟨_, .step (.load .initial [9, 0x40000007]) rfl, rfl⟩
  obtain ⟨s, hreachable, hstep⟩ := hexists
  refine ⟨s, hreachable, hstep, ?_⟩
  obtain ⟨a, ha, -, ⟨effect, b, heffect, -, -⟩ | ⟨cause, hcause, hfault⟩⟩ :=
    step_refines hreachable
  · rw [hstep] at heffect
    cases heffect
  · rw [hstep] at hcause
    cases hcause
    exact ⟨a, ha, hfault⟩

end TaggedStack
