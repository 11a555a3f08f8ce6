import TaggedStack.Proofs.Cycles

/-!
# What execution leaves alone

An instruction writes to one place at most, and which place that is can be read off the instruction:
the new top of the stack, the data word that the old top numbers, or nowhere (`Instr.place`). Every
other word of memory is what it was.

Over a run this has two consequences. No place is an instruction, so the program is never changed by
running it. And a place on the stack is where the stack pointer stands after the cycle, so a word
that the pointer stays above all the time is not written either, however often values above it are
popped and replaced.

* `State.wrote_of_step`: the words a cycle leaves alone, by the instruction it carries out.
* `Machine.instructions_afterCycles`: cycles leave the instructions alone.
* `Machine.words_afterCycles`: cycles leave the words below the lowest stack pointer alone.
* `Machine.frame_of_execution`: all of it, for every reachable state.
-/

namespace TaggedStack

/-! ### Places -/

/-- Where an instruction may write. -/
inductive Place
  | nowhere
  /-- The top of the stack afterwards. -/
  | top
  /-- The data word numbered by the top of the stack before. -/
  | data
  deriving DecidableEq, Repr

/-- Where an operation writes. -/
def Opcode.place : Opcode → Place
  | .halt | .jmp | .jz | .prn | .prnchar => .nowhere
  | .add | .sub | .mul | .div | .dup | .load => .top
  | .stor => .data

/-- Where an instruction writes. One that performs no operation cannot be carried out. -/
def Instr.place : Instr → Place
  | .literal _ | .negative _ => .top
  | .primitive id | .reserved id => (Opcode.ofId? id.val).elim .nowhere Opcode.place

theorem Instr.place_ofFields (t : Tag) (p : Payload) :
    (ofFields t p).place =
      if t.isLiteral then .top else (Opcode.ofId? p.val).elim .nowhere Opcode.place := by
  cases t <;> rfl

namespace Memory

variable {m m' : Memory} {r : Region} {address : Int}

/-- A memory after a write to an address of a region: all words but the one there are the same. -/
structure SameBut (m m' : Memory) (r : Region) (address : Int) : Prop where
  admits : m.layout.Admits r address
  layout_eq : m'.layout = m.layout
  getElem?_eq : ∀ i : Nat, (i : Int) ≠ address → m'.words[i]? = m.words[i]?

theorem sameBut_set (h : m.layout.Admits r address) (value : Int) :
    m.SameBut (m.set address value) r address where
  admits := h
  layout_eq := rfl
  getElem?_eq i hi := by
    have hpos := (Layout.pos_and_lt_of_admits h).1
    exact Array.getElem?_setIfInBounds_ne (by omega)

/-- The other regions keep their words. -/
theorem SameBut.regionWords_eq (h : m.SameBut m' r address) {r' : Region} (hr : r' ≠ r) :
    m'.regionWords r' = m.regionWords r' := by
  have hout := Layout.outside_of_admits h.admits hr
  rw [Memory.regionWords_eq, Memory.regionWords_eq, h.layout_eq]
  refine List.map_congr_left fun i hi ↦ ?_
  rw [List.mem_range] at hi
  have hword := h.getElem?_eq ((m.layout.bounds r').1 + i) (by omega)
  simp only [get, Array.getD_eq_getD_getElem?]
  have hindex : ((m.layout.bounds r').1 + (i : Int)).toNat = (m.layout.bounds r').1 + i := by omega
  rw [hindex, hword]

end Memory

namespace State

variable {s t : State} {effect : Effect}

/-- The words that are the same after writing to a place. -/
def Wrote (s t : State) : Place → Prop
  | .nowhere => t.memory = s.memory
  | .top => s.memory.SameBut t.memory .stack t.sp
  | .data => s.memory.SameBut t.memory .data (s.layout.dataBase + s.memory.get s.sp)

/-! ### Single cycles -/

/-- A push, after values were taken off, writes the new top. -/
theorem wrote_of_pushing {p value : Int}
    (h : (s.withStack ⟨s.memory, p⟩).pushing value = .ok effect) : s.Wrote effect.state .top := by
  obtain ⟨hadmits, -, rfl⟩ := pushing_eq_ok_iff.1 h
  exact Memory.sameBut_set hadmits value

theorem wrote_of_combining {f : Int → Int → Int} (h : s.combining f = .ok effect) :
    s.Wrote effect.state .top := by
  obtain ⟨⟨a, b, stack⟩, hoperands, h⟩ := exists_of_bind_eq_ok h
  obtain ⟨-, -, -, -, rfl⟩ := operands_eq_ok_iff.1 hoperands
  exact wrote_of_pushing h

/-- Every operation writes to its place only. -/
theorem wrote_of_perform {op : Opcode} (h : op.perform s = .ok effect) :
    s.Wrote effect.state op.place := by
  cases op with
  | halt =>
    obtain rfl : _ = effect := Except.ok.inj h
    rfl
  | add | sub | mul => exact wrote_of_combining h
  | div =>
    obtain ⟨⟨a, b, stack⟩, hoperands, h⟩ := exists_of_bind_eq_ok h
    obtain ⟨-, -, -, -, rfl⟩ := operands_eq_ok_iff.1 hoperands
    dsimp only at h
    split at h
    · cases h
    · exact wrote_of_pushing h
  | dup =>
    obtain ⟨value, -, h⟩ := exists_of_bind_eq_ok h
    exact wrote_of_pushing (p := s.sp) h
  | jmp =>
    obtain ⟨⟨target, stack⟩, htarget, h⟩ := exists_of_bind_eq_ok h
    obtain ⟨-, -, -, rfl⟩ := jumpTarget_eq_ok_iff.1 htarget
    obtain rfl : _ = effect := Except.ok.inj h
    rfl
  | jz =>
    obtain ⟨⟨target, stack⟩, htarget, h⟩ := exists_of_bind_eq_ok h
    obtain ⟨-, -, -, rfl⟩ := jumpTarget_eq_ok_iff.1 htarget
    obtain ⟨⟨condition, stack⟩, hpop, h⟩ := exists_of_bind_eq_ok h
    obtain ⟨-, -, rfl⟩ := Stack.pop_eq_ok_iff.1 hpop
    obtain rfl : _ = effect := Except.ok.inj h
    -- The jump may be taken or not; the memory is the one that was popped from.
    show (if condition = 0 then _ else _ : State).memory = s.memory
    split <;> rfl
  | prn =>
    obtain ⟨⟨value, stack⟩, hpop, h⟩ := exists_of_bind_eq_ok h
    obtain ⟨-, -, rfl⟩ := Stack.pop_eq_ok_iff.1 hpop
    obtain ⟨numeral, -, h⟩ := exists_of_bind_eq_ok h
    obtain rfl : _ = effect := Except.ok.inj h
    rfl
  | prnchar =>
    obtain ⟨⟨value, stack⟩, hpop, h⟩ := exists_of_bind_eq_ok h
    obtain ⟨-, -, rfl⟩ := Stack.pop_eq_ok_iff.1 hpop
    obtain rfl : _ = effect := Except.ok.inj h
    rfl
  | load =>
    obtain ⟨⟨address, stack⟩, haddress, h⟩ := exists_of_bind_eq_ok h
    obtain ⟨-, -, rfl⟩ := dataAddress_eq_ok_iff.1 haddress
    obtain ⟨value, -, h⟩ := exists_of_bind_eq_ok h
    exact wrote_of_pushing h
  | stor =>
    obtain ⟨⟨address, stack⟩, haddress, h⟩ := exists_of_bind_eq_ok h
    obtain ⟨-, rfl, rfl⟩ := dataAddress_eq_ok_iff.1 haddress
    obtain ⟨⟨value, stack⟩, hpop, h⟩ := exists_of_bind_eq_ok h
    obtain ⟨-, -, rfl⟩ := Stack.pop_eq_ok_iff.1 hpop
    obtain ⟨memory, hwrite, h⟩ := exists_of_bind_eq_ok h
    obtain ⟨-, hadmits, rfl⟩ := Memory.write_eq_ok_iff.1 hwrite
    obtain rfl : _ = effect := Except.ok.inj h
    rw [Int.add_comm] at hadmits ⊢
    exact Memory.sameBut_set hadmits value

/-- A cycle writes to the place of the instruction it fetches. -/
theorem wrote_of_step (h : s.step = .ok effect) :
    let w := s.memory.get (s.ip + 1)
    s.Wrote effect.state (Instr.ofFields (tagOf w) (payloadOf w)).place := by
  intro w
  obtain ⟨ready, hready, h⟩ := exists_of_bind_eq_ok h
  rw [advance_eq] at hready
  split at hready
  · obtain rfl : s.decoded = ready := Except.ok.inj hready
    -- Fetching and decoding touch neither memory nor stack, so nothing is written up to here.
    rw [Instr.place_ofFields]
    show s.decoded.Wrote effect.state (if s.decoded.tag.isLiteral then .top
      else (Opcode.ofId? s.decoded.data).elim .nowhere Opcode.place)
    unfold execute at h
    split at h
    · next hliteral =>
      rw [if_pos hliteral]
      exact wrote_of_pushing (p := s.sp) h
    · next hliteral =>
      rw [if_neg hliteral]
      split at h
      · next op hop =>
        rw [hop]
        exact wrote_of_perform h
      · cases h
  · cases hready

/-! ### What no instruction writes -/

/-- No place is an instruction. -/
theorem Wrote.instructions_eq {place : Place} (h : s.Wrote t place) :
    t.memory.regionWords .instruction = s.memory.regionWords .instruction := by
  cases place with
  | nowhere => exact congrArg (Memory.regionWords · .instruction) h
  | top => exact Memory.SameBut.regionWords_eq h (by decide)
  | data => exact Memory.SameBut.regionWords_eq h (by decide)

/-- No place is below the stack pointer afterwards. -/
theorem Wrote.getElem?_eq {place : Place} (h : s.Wrote t place)
    (hsp : t.sp < s.layout.stackLimit) {address : Nat} (hlt : (address : Int) < t.sp) :
    t.memory.words[address]? = s.memory.words[address]? := by
  cases place with
  | nowhere => exact congrArg (fun m : Memory ↦ m.words[address]?) h
  | top => exact Memory.SameBut.getElem?_eq h address (Int.ne_of_lt hlt)
  | data =>
    have hbase := s.layout.stackLimit_lt
    have hdata := (s.layout.admits_data_iff _).1 h.admits
    exact Memory.SameBut.getElem?_eq h address (by omega)

end State

namespace Machine

variable {m : Machine} {l : Layout} {cycles : Nat}

/-! ### Runs -/

/-- Every cycle leaves the instructions alone, whether or not it goes through. -/
theorem instructions_after_step (m : Machine) :
    m.step.after.state.memory.regionWords .instruction =
      m.state.memory.regionWords .instruction := by
  cases hstep : m.step.ending with
  | error e => rw [(step_of_error hstep).1]
  | ok u =>
    obtain ⟨effect, heffect, hstate⟩ := exists_effect_of_step_ok hstep
    rw [hstate]
    exact (State.wrote_of_step heffect).instructions_eq

/-- Cycles leave the instructions alone. -/
theorem instructions_afterCycles (m : Machine) (n : Nat) :
    (m.afterCycles n).state.memory.regionWords .instruction =
      m.state.memory.regionWords .instruction := by
  induction n with
  | zero => rfl
  | succ n ih => rw [afterCycles_succ_last, instructions_after_step, ih]

/-- A cycle leaves the words below the stack pointer alone that it ends with. -/
theorem words_after_step (h : State.Reachable l cycles m.state) {address : Nat}
    (hlt : m.step.ending = .ok () → (address : Int) < m.step.after.state.sp) :
    m.step.after.state.memory.words[address]? = m.state.memory.words[address]? := by
  cases hstep : m.step.ending with
  | error e => rw [(step_of_error hstep).1]
  | ok u =>
    obtain ⟨effect, heffect, hstate⟩ := exists_effect_of_step_ok hstep
    have hsound := (h.step heffect).sound
    have hlayout : m.state.layout = l := h.sound.layout_eq
    have hsp : effect.state.sp < m.state.layout.stackLimit := by
      have := hsound.sp_le
      rw [hlayout]
      omega
    rw [hstate] at hlt ⊢
    exact (State.wrote_of_step heffect).getElem?_eq hsp (hlt hstep)

/-- Cycles leave the words alone that are below the stack pointer after each of them. -/
theorem words_afterCycles (h : State.Reachable l cycles m.state) (n : Nat) {address : Nat}
    (hlt : ∀ i < n, (m.afterCycles i).step.ending = .ok () →
      (address : Int) < (m.afterCycles (i + 1)).state.sp) :
    (m.afterCycles n).state.memory.words[address]? = m.state.memory.words[address]? := by
  induction n with
  | zero => rfl
  | succ n ih =>
    obtain ⟨cycles', hreachable⟩ := reachable_afterCycles h n
    have hlast := hlt n (Nat.lt_succ_self n)
    rw [afterCycles_succ_last] at hlast ⊢
    rw [words_after_step hreachable hlast]
    exact ih fun i hi ↦ hlt i (Nat.lt_succ_of_lt hi)

/-- **The frame of execution.** From a reachable state, a cycle that goes through leaves all words
alone but the one its instruction writes to. Single cycles and runs leave all instructions alone,
and every word that the stack pointer stays above after each cycle that goes through. -/
theorem frame_of_execution (h : State.Reachable l cycles m.state) :
    (m.step.ending = .ok () →
      ∃ i, Instr.ofWord (m.state.memory.get (m.state.ip + 1)) = .ok i ∧
        m.state.Wrote m.step.after.state i.place) ∧
      (∀ n,
        (m.afterCycles n).state.memory.regionWords .instruction =
            m.state.memory.regionWords .instruction ∧
          ∀ address : Nat,
            (∀ i < n, (m.afterCycles i).step.ending = .ok () →
              (address : Int) < (m.afterCycles (i + 1)).state.sp) →
            (m.afterCycles n).state.memory.words[address]? = m.state.memory.words[address]?) ∧
      ∀ fuel,
        (m.run fuel).after.state.memory.regionWords .instruction =
            m.state.memory.regionWords .instruction ∧
          ∀ address : Nat,
            (∀ i < m.runCycles fuel, (address : Int) < (m.afterCycles (i + 1)).state.sp) →
            (m.run fuel).after.state.memory.words[address]? =
              m.state.memory.words[address]? := by
  refine ⟨fun hstep ↦ ?_, fun n ↦ ⟨m.instructions_afterCycles n, fun address hlt ↦ ?_⟩,
    fun fuel ↦ ?_⟩
  · obtain ⟨effect, heffect, hstate⟩ := exists_effect_of_step_ok hstep
    have hword := Memory.isWord_get h.sound.isWord_of_mem (m.state.ip + 1)
    refine ⟨_, if_pos hword, ?_⟩
    rw [hstate]
    exact State.wrote_of_step heffect
  · exact words_afterCycles h n hlt
  · -- A run leaves the state of the cycles it counts, all of which go through.
    rw [(m.after_run fuel).1]
    refine ⟨m.instructions_afterCycles _, fun address hlt ↦ ?_⟩
    exact words_afterCycles h _ fun i hi _ ↦ hlt i hi

/-- A program that keeps a nine on the stack, adds two numbers above it and stores the sum: the
store changes the only data word, and the nine and the program stay. -/
theorem frame_of_execution_store :
    let l : Layout := ⟨12, 5, 11, by decide, by decide, by decide⟩
    let program : List Int := [9, 1, 2, 0x40000001, 0, 0x4000000B]
    let start := (fresh l .emptyBuffer .silent).serveAll [.load program, .step]
    let m := (fresh l .emptyBuffer .silent).serveAll [.load program, .step, .run 4]
    (m.step.ending = .ok () ∧ m.state.Wrote m.step.after.state .data) ∧
      (∀ i < 4, (1 : Int) < (start.afterCycles (i + 1)).state.sp) ∧
      (start.afterCycles 4).state.memory.words[1]? = some 9 ∧
      (start.run 9).after.state.memory.regionWords .instruction = program := by
  intro l program start m
  have hm := reachable_serveAll_fresh l .emptyBuffer .silent [.load program, .step, .run 4]
  have hstart := reachable_serveAll_fresh l .emptyBuffer .silent [.load program, .step]
  have hstep : m.step.ending = .ok () := by decide
  have hfetched : Instr.ofWord (m.state.memory.get (m.state.ip + 1)) = .ok (.op .stor) := by decide
  have habove : ∀ i < 4, (1 : Int) < (start.afterCycles (i + 1)).state.sp := by decide
  obtain ⟨i, hi, hwrote⟩ := (frame_of_execution (m := m) hm).1 hstep
  obtain ⟨-, hcycles, hruns⟩ := frame_of_execution (m := start) hstart
  obtain rfl := Except.ok.inj (hfetched.symm.trans hi)
  exact ⟨⟨hstep, hwrote⟩, habove,
    ((hcycles 4).2 1 fun i hi _ ↦ habove i hi).trans (by decide), (hruns 9).1.trans (by decide)⟩

end Machine

end TaggedStack
