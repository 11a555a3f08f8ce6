import Mathlib.Data.Set.Function
import Mathlib.Order.Interval.Set.Defs
import TaggedStack.Proofs.Encoding
import TaggedStack.Proofs.HighBit
import TaggedStack.Proofs.Stopping

/-!
# Programs without jumps

A program without jumps goes straight on: each of its cycles carries out the next instruction, so
the instruction pointer counts the cycles, and no instruction is carried out twice. It is not the
length of the program that bounds its run but the size of the instruction region, for the words
behind a program are literals, which are carried out like any others. After the last word of the
region there is nothing to fetch.

Which words are jumps is decided by bit 30 and the payload alone. That the words stay what they are
needs no argument about single operations here: a description has its program apart from its
operands and its data, and only jumps change the place in it.

* `Instr.isJump_ofFields_iff`: the words that are jumps.
* `Machine.StraightAt.step`: a cycle of a program without jumps.
* `Machine.StraightAt.afterCycles`: the machine after any number of cycles.
* `Trial.jump_free_settles`: a program without jumps stops, and carries out no instruction twice.
-/

namespace TaggedStack

/-! ### Words that are jumps -/

/-- A word that performs a jump: bit 30 is set, and the payload is the number of one of the two
jumps. -/
def IsJumpWord (w : Int) : Prop :=
  w / 0x40000000 % 2 = 1 ∧ (w % 0x40000000 = 6 ∨ w % 0x40000000 = 7)

instance (w : Int) : Decidable (IsJumpWord w) := inferInstanceAs (Decidable (_ ∧ _))

theorem Instr.opcode?_ofFields (t : Tag) (p : Payload) :
    (ofFields t p).opcode? = if t.isLiteral then none else Opcode.ofId? p.val := by
  cases t <;> rfl

/-- Words are literals when bit 30 is clear. -/
theorem tagOf_isLiteral_iff (w : Int) : (tagOf w).isLiteral = true ↔ ¬w / 0x40000000 % 2 = 1 := by
  rw [tagOf, isLiteral_ofCode, decide_eq_true_iff]
  dsimp only
  omega

/-- The instructions that are jumps are those of the words that are. -/
theorem Instr.isJump_ofFields_iff (w : Int) :
    (ofFields (tagOf w) (payloadOf w)).IsJump ↔ IsJumpWord w := by
  rw [IsJump, opcode?_ofFields, IsJumpWord]
  by_cases hliteral : (tagOf w).isLiteral = true
  · have hbit := (tagOf_isLiteral_iff w).1 hliteral
    simp [hliteral, hbit]
  · have hbit := not_not.1 (mt (tagOf_isLiteral_iff w).2 hliteral)
    rw [if_neg hliteral, Opcode.ofId?_eq_some_iff, Opcode.ofId?_eq_some_iff, val_payloadOf,
      and_iff_right hbit]
    rfl

/-- Words without a jump among them are the words of instructions without a jump among them. -/
theorem exists_assemble_eq_of_not_isJumpWord {words : List Int} (hwords : ∀ w ∈ words, IsWord w)
    (hjumps : ∀ w ∈ words, ¬IsJumpWord w) :
    ∃ program, words = assemble program ∧ ∀ i ∈ program, ¬i.IsJump := by
  obtain ⟨program, rfl⟩ := exists_assemble_eq hwords
  refine ⟨program, rfl, fun i hi hjump ↦ hjumps i.word (List.mem_map_of_mem hi) ?_⟩
  have hfields : Instr.ofFields (tagOf i.word) (payloadOf i.word) = i := by
    rw [Instr.word, tagOf_pack, payloadOf_pack, Instr.ofFields_tag_payload]
  rwa [← Instr.isJump_ofFields_iff, hfields]

/-! ### Going straight on -/

namespace ListMachine

variable {l : Layout} {a b : ListMachine l} {output : Option Emission}

/-- A cycle that goes through had an instruction to carry out, and without jumps it leads to the
next one in the same program. -/
theorem JumpFreeFrom.step (h : a.JumpFreeFrom 0) (hstep : a.step = .ok (b, output)) :
    a.next < l.instructionCapacity ∧ b.next = a.next + 1 ∧ b.JumpFreeFrom 0 := by
  cases hi : a.program[a.next]? with
  | none =>
    rw [ListMachine.step, hi] at hstep
    cases hstep
  | some i =>
    obtain ⟨hlt, -⟩ := List.getElem?_eq_some_iff.1 hi
    obtain ⟨hnext, hprogram⟩ := next_of_step hi (h i (List.mem_of_getElem? hi)) hstep
    refine ⟨a.length_program ▸ hlt, hnext, ?_⟩
    rw [JumpFreeFrom, hprogram]
    exact h

/-- A cycle of the machine that goes through is a cycle of its description. -/
theorem Describes.exists_step_ok {m : Machine} (h : a.Describes m.state)
    (hending : m.step.ending = .ok ()) :
    ∃ b output, a.step = .ok (b, output) ∧ b.Describes m.step.after.state := by
  obtain ⟨effect, heffect, hafter⟩ := Machine.exists_effect_of_step_ok hending
  have hagree := h.step
  rw [heffect] at hagree
  generalize hstep : a.step = result at hagree
  cases hagree with
  | ok hmatches => exact ⟨_, _, rfl, hafter ▸ hmatches.1⟩

end ListMachine

namespace Machine

variable {l : Layout} {index : Nat} {m : Machine}

/-- The machine is in front of the instruction with a given index, and none of its instructions is
a jump. -/
def StraightAt (l : Layout) (index : Nat) (m : Machine) : Prop :=
  ∃ a : ListMachine l, a.Describes m.state ∧ a.JumpFreeFrom 0 ∧ a.next = index

namespace StraightAt

/-- The instruction pointer is one before the next instruction. -/
theorem ip_eq (h : m.StraightAt l index) : m.state.ip = (l.instructionBase : Int) - 1 + index := by
  obtain ⟨a, hm, -, rfl⟩ := h
  have hip := hm.ip_eq
  omega

/-- A cycle that goes through carries out one of the instructions, and leads to the next one. -/
theorem step (h : m.StraightAt l index) (hending : m.step.ending = .ok ()) :
    index < l.instructionCapacity ∧ m.step.after.StraightAt l (index + 1) := by
  obtain ⟨a, hm, hfree, rfl⟩ := h
  obtain ⟨b, output, hstep, hafter⟩ := hm.exists_step_ok hending
  obtain ⟨hlt, hnext, hfree'⟩ := hfree.step hstep
  exact ⟨hlt, b, hafter, hfree', hnext⟩

/-- **The instruction pointer counts the cycles,** and there are no more of them than
instructions. -/
theorem afterCycles (h : m.StraightAt l 0) {k : Nat}
    (hcycles : ∀ i < k, (m.afterCycles i).step.ending = .ok ()) :
    k ≤ l.instructionCapacity ∧ (m.afterCycles k).StraightAt l k := by
  induction k with
  | zero => exact ⟨Nat.zero_le _, h⟩
  | succ k ih =>
    obtain ⟨-, hk⟩ := ih fun i hi ↦ hcycles i (Nat.lt_succ_of_lt hi)
    rw [afterCycles_succ_last]
    exact hk.step (hcycles k (Nat.lt_succ_self k))

end StraightAt

/-- A fresh machine with words without a jump, however many of them could be loaded. -/
theorem straightAt_load {words : List Int} (hwords : ∀ w ∈ words, IsWord w)
    (hjumps : ∀ w ∈ words, ¬IsJumpWord w) (l : Layout) (sink : Sink) (journal : Journal) :
    ((fresh l sink journal).load words).after.StraightAt l 0 := by
  obtain ⟨program, rfl, hfree⟩ := exists_assemble_eq_of_not_isJumpWord hwords hjumps
  have hprogram : Memory.accepted l.instructionCapacity (assemble program) =
      assemble (program.take l.instructionCapacity) := by
    rw [Memory.accepted_of_isWord hwords, assemble, assemble, List.map_take]
  have hlength : (program.take l.instructionCapacity).length ≤ l.instructionCapacity :=
    List.length_take_le _ _
  exact ⟨_, ListMachine.describes_load_fresh hprogram hlength sink journal,
    ListMachine.jumpFreeFrom_loaded hlength fun i hi ↦ hfree i (List.mem_of_mem_take hi), rfl⟩

end Machine

/-! ### Trials -/

namespace Trial

variable {words : List Int}

theorem settles_of_not_isJumpWord (hwords : ∀ w ∈ words, IsWord w)
    (hjumps : ∀ w ∈ words, ¬IsJumpWord w) {l : Layout} {maxSteps : Int}
    (hsteps : (l.instructionCapacity : Int) + 1 ≤ maxSteps) : Settles words maxSteps l := by
  obtain ⟨program, rfl, hfree⟩ := exists_assemble_eq_of_not_isJumpWord hwords hjumps
  refine settles_of_stopsWithin (fun hlength ↦ ?_) hsteps
  exact (ListMachine.jumpFreeFrom_loaded (k := 0) hlength hfree).stopsWithin

/-- **A program without jumps stops.** With one cycle more than there are instruction addresses it
halts or faults. Whatever its sink and its journal, after `k` cycles that went through the
instruction pointer is `k` after where it was at first, so no instruction is carried out twice. -/
theorem jump_free_settles (hwords : ∀ w ∈ words, IsWord w) (hjumps : ∀ w ∈ words, ¬IsJumpWord w)
    (l : Layout) :
    (∀ maxSteps : Int, (l.instructionCapacity : Int) + 1 ≤ maxSteps → Settles words maxSteps l) ∧
      ∀ sink journal,
        let m := ((Machine.fresh l sink journal).load words).after
        ∀ k, (∀ i < k, (m.afterCycles i).step.ending = .ok ()) →
          (m.afterCycles k).state.ip = (l.instructionBase : Int) - 1 + k ∧
            Set.InjOn (fun i ↦ (m.afterCycles i).state.ip) (Set.Iic k) ∧
            k ≤ l.instructionCapacity := by
  refine ⟨fun maxSteps ↦ settles_of_not_isJumpWord hwords hjumps, ?_⟩
  intro sink journal m k hcycles
  have hm : m.StraightAt l 0 := Machine.straightAt_load hwords hjumps l sink journal
  have hip : ∀ i ≤ k, (m.afterCycles i).state.ip = (l.instructionBase : Int) - 1 + i :=
    fun i hi ↦ (hm.afterCycles fun j hj ↦ hcycles j (Nat.lt_of_lt_of_le hj hi)).2.ip_eq
  refine ⟨hip k (Nat.le_refl k), ?_, (hm.afterCycles hcycles).1⟩
  intro i hi j hj heq
  dsimp only at heq
  rw [hip i hi, hip j hj] at heq
  omega

/-- A payload that would be a jump under another tag, stored under the reserved one. The one word
behind the program is carried out too, and the fifth cycle finds nothing to fetch. -/
theorem jump_free_settles_storing :
    let words : List Int := [6, 0, 0xC000000B]
    let l : Layout := ⟨12, 4, 8, by decide, by decide, by decide⟩
    let m := ((Machine.fresh l .emptyBuffer .silent).load words).after
    (∀ w ∈ words, IsWord w) ∧ (∀ w ∈ words, ¬IsJumpWord w) ∧
      (∀ i < 4, (m.afterCycles i).step.ending = .ok ()) ∧ Settles words 5 l ∧
      execute words 4 l = .timeout 4 ∧ (m.afterCycles 4).state.ip = 7 := by
  intro words l m
  have hwords : ∀ w ∈ words, IsWord w := by decide
  have hjumps : ∀ w ∈ words, ¬IsJumpWord w := by decide
  have hcycles : ∀ i < 4, (m.afterCycles i).step.ending = .ok () := by decide
  have h := jump_free_settles hwords hjumps l
  have hrun := h.2 .emptyBuffer .silent 4 hcycles
  refine ⟨hwords, hjumps, hcycles, h.1 5 (by decide), by decide, ?_⟩
  rw [hrun.1]
  rfl

end Trial

end TaggedStack
