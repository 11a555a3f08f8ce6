import Mathlib.Data.List.Basic
import TaggedStack.Proofs.ListMachine
import TaggedStack.Proofs.Soundness

/-!
# States described by list machines

A list machine *describes* a state when its lists are what the state's memory holds: the words at
the addresses from `1` up to the stack pointer, the decoded words of the instruction region and the
words of the data region. Words above the stack pointer are in no list, so what popping leaves
behind is forgotten.

* `ListMachine.Describes.unique`: a state has at most one description.
* `ListMachine.describes_initial`: the description of a machine's first state.
* `ListMachine.Describes.load`: a load replaces the first instructions of the description.
-/

namespace TaggedStack

/-! ### Decoding a list of words -/

/-- The words that decode to a list of instructions are those that the instructions are encoded
to. -/
theorem mapM_ofWord_eq_ok_iff {ws : List Int} {program : List Instr} :
    ws.mapM Instr.ofWord = .ok program ↔ ws = assemble program := by
  constructor
  · intro h
    induction ws generalizing program with
    | nil =>
      cases h
      rfl
    | cons w ws ih =>
      rw [List.mapM_cons] at h
      obtain ⟨i, hi, h⟩ := exists_of_bind_eq_ok h
      obtain ⟨rest, hrest, h⟩ := exists_of_bind_eq_ok h
      cases h
      rw [ih hrest, assemble, assemble, List.map_cons, Instr.word_of_ofWord hi]
  · rintro rfl
    induction program with
    | nil => rfl
    | cons i program ih =>
      rw [assemble, List.map_cons, List.mapM_cons, Instr.ofWord_word]
      show (do
        let rest ← (assemble program).mapM Instr.ofWord
        return i :: rest) = _
      rw [ih]
      rfl

/-- Machine words are the words of instructions. -/
theorem exists_assemble_eq {ws : List Int} (h : ∀ w ∈ ws, IsWord w) :
    ∃ program, ws = assemble program := by
  refine ⟨ws.map fun w ↦ .ofFields (tagOf w) (payloadOf w), ?_⟩
  rw [assemble, List.map_map]
  calc ws = ws.map id := (List.map_id ws).symm
    _ = _ := List.map_congr_left fun w hw ↦ ?_
  have hofWord : Instr.ofWord w = .ok (.ofFields (tagOf w) (payloadOf w)) := if_pos (h w hw)
  exact (Instr.word_of_ofWord hofWord).symm

theorem length_assemble (program : List Instr) : (assemble program).length = program.length :=
  List.length_map _

/-- The words that are copied are those of a program for which there is room. -/
theorem exists_accepted_eq_assemble (room : Nat) (words : List Int) :
    ∃ program, Memory.accepted room words = assemble program ∧ program.length ≤ room := by
  have hwords : ∀ w ∈ Memory.accepted room words, IsWord w :=
    fun _ hw ↦ Memory.isWord_of_mem_accepted hw
  obtain ⟨program, hprogram⟩ := exists_assemble_eq hwords
  refine ⟨program, hprogram, ?_⟩
  rw [← length_assemble, ← hprogram]
  exact Memory.length_accepted_le room words

namespace ListMachine

/-! ### Descriptions -/

/-- A list machine describes a state when its lists are what the state's memory holds, and its
index and flag what the registers say. -/
structure Describes {l : Layout} (a : ListMachine l) (s : State) : Prop where
  layout_eq : s.layout = l
  /-- The next instruction is the one after the instruction pointer. -/
  ip_eq : s.ip + 1 = l.instructionBase + a.next
  /-- The index is that of an instruction, or follows the last one. -/
  next_le : a.next ≤ l.instructionCapacity
  sp_eq : s.sp = a.operands.length
  /-- The operands are the words at the addresses up to the stack pointer. -/
  stackWords_eq : s.memory.stackWords a.operands.length = (a.operands.map Subtype.val).reverse
  /-- The program is what the words of the instruction region decode to. -/
  program_eq : (s.memory.regionWords .instruction).mapM Instr.ofWord = .ok a.program
  /-- The data are the words of the data region. -/
  data_eq : s.memory.regionWords .data = a.data.map Subtype.val
  running_eq : s.running = a.running

variable {l : Layout} {a b : ListMachine l} {s : State}

/-- A state has at most one description. -/
theorem Describes.unique (ha : a.Describes s) (hb : b.Describes s) : a = b := by
  have hnext : a.next = b.next := by
    have h1 := ha.ip_eq
    have h2 := hb.ip_eq
    omega
  have hlength : a.operands.length = b.operands.length := by
    have h1 := ha.sp_eq
    have h2 := hb.sp_eq
    omega
  have hoperands : a.operands = b.operands := by
    have h : (a.operands.map Subtype.val).reverse = (b.operands.map Subtype.val).reverse := by
      rw [← ha.stackWords_eq, ← hb.stackWords_eq, hlength]
    exact List.map_injective_iff.2 Subtype.val_injective (List.reverse_injective h)
  have hprogram : a.program = b.program :=
    Except.ok.inj (ha.program_eq.symm.trans hb.program_eq)
  have hdata : a.data = b.data :=
    List.map_injective_iff.2 Subtype.val_injective (ha.data_eq.symm.trans hb.data_eq)
  have hrunning : a.running = b.running := ha.running_eq.symm.trans hb.running_eq
  -- The lists agree, and the other fields are proofs about them.
  obtain ⟨⟩ := a
  obtain ⟨⟩ := b
  cases hnext
  cases hoperands
  cases hprogram
  cases hdata
  cases hrunning
  rfl

/-- The instruction region holds the words of the program. -/
theorem Describes.assemble_eq (h : a.Describes s) :
    s.memory.regionWords .instruction = assemble a.program :=
  mapM_ofWord_eq_ok_iff.1 h.program_eq

/-- The word at an instruction's address is the word of that instruction. -/
theorem Describes.get_instruction (h : a.Describes s) {index : Nat} {i : Instr}
    (hi : a.program[index]? = some i) :
    s.memory.get (l.instructionBase + index) = i.word := by
  have hlt : index < l.instructionCapacity := by
    rw [← a.length_program]
    exact (List.getElem?_eq_some_iff.1 hi).1
  have hlayout : s.memory.layout = l := h.layout_eq
  have hget := Memory.getElem?_regionWords (m := s.memory) (r := .instruction) (i := index)
    (by rw [hlayout]; exact hlt)
  rw [h.assemble_eq, assemble, List.getElem?_map, hi, hlayout] at hget
  exact (Option.some.inj hget).symm

/-- The word at a data address is the data word with that index. -/
theorem Describes.get_data (h : a.Describes s) {index : Nat} {w : Word}
    (hw : a.data[index]? = some w) : s.memory.get (l.dataBase + index) = w.val := by
  have hlt : index < l.dataSize := by
    rw [← a.length_data]
    exact (List.getElem?_eq_some_iff.1 hw).1
  have hlayout : s.memory.layout = l := h.layout_eq
  have hget := Memory.getElem?_regionWords (m := s.memory) (r := .data) (i := index)
    (by rw [hlayout]; exact hlt)
  rw [h.data_eq, List.getElem?_map, hw, hlayout] at hget
  exact (Option.some.inj hget).symm

/-! ### What the registers say -/

/-- The stack pointer is at a value exactly when there are operands. -/
theorem Describes.admits_sp_iff (h : a.Describes s) :
    s.layout.Admits .stack s.sp ↔ a.operands ≠ [] := by
  have hlength := a.length_operands
  have hpos := l.stackLimit_pos
  have hcapacity : l.stackCapacity = l.stackLimit - 1 := rfl
  rw [Layout.admits_stack_iff, h.layout_eq, h.sp_eq, ← List.length_pos_iff]
  omega

/-- There is an address above the stack pointer exactly when there is room for an operand. -/
theorem Describes.admits_sp_succ_iff (h : a.Describes s) :
    s.layout.Admits .stack (s.sp + 1) ↔ a.operands.length < l.stackCapacity := by
  have hpos := l.stackLimit_pos
  have hcapacity : l.stackCapacity = l.stackLimit - 1 := rfl
  rw [Layout.admits_stack_iff, h.layout_eq, h.sp_eq]
  omega

/-- There is an instruction to fetch exactly when the next index is that of one. -/
theorem Describes.admits_ip_succ_iff (h : a.Describes s) :
    s.layout.Admits .instruction (s.ip + 1) ↔ a.next < a.program.length := by
  have hlt := l.stackLimit_lt
  have hcapacity : l.instructionCapacity = l.dataBase - l.stackLimit := rfl
  have hbase : l.instructionBase = l.stackLimit := rfl
  rw [Layout.admits_instruction_iff, h.layout_eq, h.ip_eq, a.length_program]
  omega

/-- A word numbers an instruction when it is less than how many there are. -/
theorem admits_instruction_word_iff (l : Layout) (w : Word) :
    l.Admits .instruction (w.val + l.instructionBase) ↔ w.val < l.instructionCapacity := by
  have hlt := l.stackLimit_lt
  have hcapacity : l.instructionCapacity = l.dataBase - l.stackLimit := rfl
  have hbase : l.instructionBase = l.stackLimit := rfl
  have hnonneg := w.property.1
  rw [Layout.admits_instruction_iff]
  omega

/-- A word numbers a data word when it is less than how many there are. -/
theorem admits_data_word_iff (l : Layout) (w : Word) :
    l.Admits .data (w.val + l.dataBase) ↔ w.val < l.dataSize := by
  have hle := l.dataBase_le
  have hsize : l.dataSize = l.memSize - l.dataBase := rfl
  have hnonneg := w.property.1
  rw [Layout.admits_data_iff]
  omega

/-! ### How descriptions change -/

/-- The word at the stack pointer is the top operand, and the words below it are the others. -/
theorem Describes.stack_cons (h : a.Describes s) {v : Word} {rest : List Word}
    (hoperands : a.operands = v :: rest) :
    s.memory.get s.sp = v.val ∧
      s.memory.stackWords rest.length = (rest.map Subtype.val).reverse := by
  have hwords := h.stackWords_eq
  rw [hoperands, List.length_cons, List.map_cons] at hwords
  have hsp : s.sp = rest.length + 1 := by
    rw [h.sp_eq, hoperands, List.length_cons]
    omega
  rw [hsp]
  exact Memory.stackWords_eq_reverse_cons hwords

/-- Moving the stack pointer down drops the top operand. Memory is not changed, only how much of
it counts. -/
theorem Describes.dropTop (h : a.Describes s) (hne : a.operands ≠ []) :
    a.dropTop.Describes (s.withStack ⟨s.memory, s.sp - 1⟩) := by
  obtain ⟨v, rest, hoperands⟩ := List.exists_cons_of_ne_nil hne
  have htail : a.dropTop.operands = rest := by
    show a.operands.tail = rest
    rw [hoperands, List.tail_cons]
  refine { h with sp_eq := ?_, stackWords_eq := ?_ }
  · show s.sp - 1 = a.dropTop.operands.length
    rw [htail, h.sp_eq, hoperands, List.length_cons]
    omega
  · rw [htail]
    exact (h.stack_cons hoperands).2

/-- Setting the word above the stack pointer and moving the pointer there adds an operand. -/
theorem Describes.push (h : a.Describes s) (hroom : a.operands.length < l.stackCapacity)
    (value : Word) :
    ({ a with operands := value :: a.operands, length_operands := hroom } :
      ListMachine l).Describes
      (s.withStack ⟨s.memory.set (s.sp + 1) value.val, s.sp + 1⟩) := by
  have hadmits := h.admits_sp_succ_iff.2 hroom
  refine { h with layout_eq := h.layout_eq, sp_eq := ?_, stackWords_eq := ?_, program_eq := ?_,
                  data_eq := ?_ }
  · show s.sp + 1 = ((a.operands.length + 1 : Nat) : Int)
    rw [h.sp_eq]
    omega
  · show (s.memory.set (s.sp + 1) value.val).stackWords (a.operands.length + 1) = _
    rw [h.sp_eq] at hadmits ⊢
    rw [Memory.stackWords_set_next hadmits, h.stackWords_eq, List.map_cons, List.reverse_cons]
  · show ((s.memory.set (s.sp + 1) value.val).regionWords .instruction).mapM Instr.ofWord = _
    rw [Memory.regionWords_set_of_ne hadmits (by decide)]
    exact h.program_eq
  · show (s.memory.set (s.sp + 1) value.val).regionWords .data = _
    rw [Memory.regionWords_set_of_ne hadmits (by decide)]
    exact h.data_eq

/-- Setting a word of the data region replaces a data word. -/
theorem Describes.store (h : a.Describes s) {index : Word} (hindex : index.val < l.dataSize)
    (value : Word) :
    (a.store index.val.toNat value).Describes
      (s.withStack ⟨s.memory.set (index.val + l.dataBase) value.val, s.sp⟩) := by
  have hlayout : s.memory.layout = l := h.layout_eq
  have hadmits : s.memory.layout.Admits .data (index.val + l.dataBase) := by
    rw [hlayout]
    exact (admits_data_word_iff l index).2 hindex
  have hnonneg := index.property.1
  refine { h with layout_eq := h.layout_eq, stackWords_eq := ?_, program_eq := ?_, data_eq := ?_ }
  · -- The data lie above the whole stack.
    have habove : (a.operands.length : Int) < index.val + l.dataBase := by
      have := a.length_operands
      have := l.stackLimit_lt
      have hcapacity : l.stackCapacity = l.stackLimit - 1 := rfl
      omega
    exact (Memory.stackWords_set habove value.val).trans h.stackWords_eq
  · show ((s.memory.set _ value.val).regionWords .instruction).mapM Instr.ofWord = _
    rw [Memory.regionWords_set_of_ne hadmits (by decide)]
    exact h.program_eq
  · show (s.memory.set _ value.val).regionWords .data = (a.data.set _ value).map Subtype.val
    have hoffset : (index.val + l.dataBase - (l.bounds .data).1).toNat = index.val.toNat := by
      simp only [Layout.bounds]
      omega
    rw [Memory.regionWords_set hadmits, hlayout, hoffset, h.data_eq, List.map_set]

/-- Moving the instruction pointer to an instruction goes on after it. -/
theorem Describes.jump (h : a.Describes s) {target : Nat}
    (htarget : target < l.instructionCapacity) :
    (a.jump target).Describes { s with ip := target + l.instructionBase } :=
  { h with
    next_le := htarget
    ip_eq := by
      show (target : Int) + l.instructionBase + 1 = l.instructionBase + ((target + 1 : Nat) : Int)
      omega }

/-! ### Loading -/

/-- The machine of blank memory: every instruction pushes zero. -/
def blank (l : Layout) : ListMachine l where
  next := 0
  operands := []
  program := List.replicate l.instructionCapacity (.literal (payloadOf 0))
  data := List.replicate l.dataSize ⟨0, isWord_zero⟩
  running := true
  length_operands := Nat.zero_le _
  length_program := List.length_replicate
  length_data := List.length_replicate

/-- The machine with its first instructions replaced by those of a program. -/
def loaded (a : ListMachine l) (program : List Instr)
    (h : program.length ≤ l.instructionCapacity) : ListMachine l :=
  { a with
    program := program ++ a.program.drop program.length
    length_program := by
      have := a.length_program
      rw [List.length_append, List.length_drop]
      omega }

/-- Every region of blank memory holds zeros. -/
theorem regionWords_blank (l : Layout) (r : Region) :
    (Memory.blank l).regionWords r =
      List.replicate ((l.bounds r).2 - (l.bounds r).1) 0 := by
  rw [Memory.regionWords_eq, List.eq_replicate_iff]
  refine ⟨by rw [List.length_map, List.length_range]; rfl, fun w hw ↦ ?_⟩
  obtain ⟨i, -, rfl⟩ := List.mem_map.1 hw
  exact Memory.get_blank l _

/-- The description of a machine's first state. -/
theorem describes_initial (l : Layout) : (blank l).Describes (State.initial l) where
  layout_eq := rfl
  ip_eq := by
    show (l.instructionBase : Int) - 1 + 1 = l.instructionBase + (0 : Nat)
    omega
  next_le := Nat.zero_le _
  sp_eq := rfl
  stackWords_eq := rfl
  program_eq := by
    -- The word `0` is the literal zero.
    have hzero : (Instr.literal (payloadOf 0)).word = 0 := rfl
    rw [mapM_ofWord_eq_ok_iff, assemble, blank, List.map_replicate, hzero]
    exact regionWords_blank l .instruction
  data_eq := by
    rw [blank, List.map_replicate]
    exact regionWords_blank l .data
  running_eq := rfl

/-- A load replaces the first instructions of the description by those of the words it accepts. -/
theorem Describes.load (h : a.Describes s) {words : List Int} {program : List Instr}
    (hwords : Memory.accepted l.instructionCapacity words = assemble program)
    (hlength : program.length ≤ l.instructionCapacity) :
    (a.loaded program hlength).Describes
      { s with memory := (s.memory.load words).after } := by
  have hlayout : s.memory.layout = l := h.layout_eq
  have hcount : a.operands.length < s.memory.layout.stackLimit := by
    have := a.length_operands
    have := l.stackLimit_pos
    rw [hlayout]
    unfold Layout.stackCapacity at *
    omega
  exact {
    layout_eq := (Memory.layout_after_load s.memory words).trans hlayout
    ip_eq := h.ip_eq
    next_le := h.next_le
    sp_eq := h.sp_eq
    stackWords_eq := (Memory.stackWords_after_load hcount words).trans h.stackWords_eq
    program_eq := by
      rw [mapM_ofWord_eq_ok_iff]
      show (s.memory.load words).after.regionWords .instruction =
        assemble (program ++ a.program.drop program.length)
      rw [Memory.regionWords_after_load, hlayout, hwords, h.assemble_eq, length_assemble, assemble,
        assemble, assemble, List.map_append, List.map_drop]
    data_eq := (Memory.regionWords_after_load_of_ne (by decide) s.memory words).trans h.data_eq
    running_eq := h.running_eq }

/-- A state that has a description has one after any load, also after one that breaks off. -/
theorem Describes.exists_load (h : a.Describes s) (words : List Int) :
    ∃ b : ListMachine l, b.Describes { s with memory := (s.memory.load words).after } := by
  obtain ⟨program, hprogram, hlength⟩ := exists_accepted_eq_assemble l.instructionCapacity words
  exact ⟨a.loaded program hlength, h.load hprogram hlength⟩

end ListMachine

end TaggedStack
