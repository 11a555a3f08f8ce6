import TaggedStack.Proofs.Footprint
import TaggedStack.Proofs.Loading

/-!
# The states a machine can be in

The invariant of the machine. `State.Reachable l n s` says that loads and cycles lead from the
initial state of the layout `l` to `s`, with `n` cycles on the way that went through. A load counts
even when it breaks off, because the words copied before stay; a cycle that fails leads nowhere.

`State.Sound l n s` is what all such states have in common. It holds of the initial state, loading
keeps it since only machine words are copied and only to instructions, and a cycle keeps it by its
footprint. The count of cycles matters for one register only: before the first cycle the
instruction pointer stands one below the instructions, and from then on at one of them.

* `State.Sound.load`, `State.Sound.step`: what a load and a cycle preserve.
* `State.Reachable.sound`: every reachable state is sound.
-/

namespace TaggedStack

/-- `0` is a machine word. -/
theorem isWord_zero : IsWord 0 := by decide

namespace State

/-- The states that loads and cycles lead to, with the number of cycles that went through. -/
inductive Reachable (l : Layout) : (cycles : Nat) → State → Prop
  | initial : Reachable l 0 (initial l)
  | load {cycles : Nat} {s : State} (h : Reachable l cycles s) (program : List Int) :
      Reachable l cycles { s with memory := (s.memory.load program).after }
  | step {cycles : Nat} {s : State} {effect : Effect} (h : Reachable l cycles s)
      (hstep : s.step = .ok effect) : Reachable l (cycles + 1) effect.state

/-- What holds of every state of a machine after the given number of cycles. -/
structure Sound (l : Layout) (cycles : Nat) (s : State) : Prop where
  layout_eq : s.layout = l
  size_words : s.memory.words.size = l.memSize
  /-- Memory holds machine words only. -/
  isWord_of_mem : ∀ w ∈ s.memory.words, IsWord w
  /-- The word that marks the empty stack is never written. -/
  getElem?_zero : s.memory.words[0]? = some 0
  sp_nonneg : 0 ≤ s.sp
  sp_le : s.sp ≤ (l.stackLimit : Int) - 1
  /-- Before the first cycle the instruction pointer is one below the instructions. -/
  ip_eq : cycles = 0 → s.ip = (l.instructionBase : Int) - 1
  /-- After the first cycle the instruction pointer is at an instruction. -/
  ip_mem : 0 < cycles → (l.instructionBase : Int) ≤ s.ip ∧ s.ip < l.dataBase
  data_nonneg : 0 ≤ s.data
  data_lt : s.data < 0x40000000

end State

/-! ### Words of memory as an array and by address -/

namespace Memory

variable {m : Memory}

theorem isWord_get (h : ∀ w ∈ m.words, IsWord w) (address : Int) : IsWord (m.get address) := by
  rw [get, Array.getD_eq_getD_getElem?]
  cases hget : m.words[address.toNat]? with
  | none => exact isWord_zero
  | some w => exact h w (Array.mem_of_getElem? hget)

theorem isWord_of_mem_words (h : ∀ address, IsWord (m.get address)) {w : Int}
    (hw : w ∈ m.words) : IsWord w := by
  obtain ⟨i, hi, rfl⟩ := Array.mem_iff_getElem.1 hw
  have hget := h i
  rwa [get, Int.toNat_natCast, Array.getD_eq_getD_getElem?, Array.getElem?_eq_getElem hi] at hget

theorem getElem?_words_zero_iff : m.words[0]? = some 0 ↔ m.get 0 = 0 := by
  have hpos := m.layout.stackLimit_pos
  have hlt := m.layout.stackLimit_lt
  have hle := m.layout.dataBase_le
  have hsize := m.size_words
  have h0 : 0 < m.words.size := by omega
  rw [get, Int.toNat_zero, Array.getD_eq_getD_getElem?, Array.getElem?_eq_getElem h0]
  exact Option.some_inj

end Memory

namespace State

variable {l : Layout} {n : Nat} {s : State}

/-! ### What a load and a cycle preserve -/

theorem sound_initial (l : Layout) : Sound l 0 (initial l) where
  layout_eq := rfl
  size_words := (Memory.blank l).size_words
  isWord_of_mem w hw := by
    obtain ⟨-, rfl⟩ := Array.mem_replicate.1 hw
    exact isWord_zero
  getElem?_zero := Memory.getElem?_words_zero_iff.2 (Memory.get_blank l 0)
  sp_nonneg := Int.le_refl 0
  sp_le := by
    have := l.stackLimit_pos
    show (0 : Int) ≤ l.stackLimit - 1
    omega
  ip_eq _ := rfl
  ip_mem h := absurd h (Nat.lt_irrefl 0)
  data_nonneg := Int.le_refl 0
  data_lt := show (0 : Int) < 0x40000000 by decide

/-- A sound state stays sound when its memory is replaced by one of machine words that leaves the
address `0` alone. -/
theorem Sound.withMemory (h : Sound l n s) {m : Memory} (hlayout : m.layout = l)
    (hword : ∀ address, IsWord (m.get address)) (hzero : m.get 0 = s.memory.get 0) :
    Sound l n { s with memory := m } :=
  { h with
    layout_eq := hlayout
    size_words := by rw [← hlayout]; exact m.size_words
    isWord_of_mem := fun _ hw ↦ Memory.isWord_of_mem_words hword hw
    getElem?_zero := by
      rw [Memory.getElem?_words_zero_iff, hzero]
      exact Memory.getElem?_words_zero_iff.1 h.getElem?_zero }

/-- A load keeps a state sound, also when it breaks off. -/
theorem Sound.load (h : Sound l n s) (program : List Int) :
    Sound l n { s with memory := (s.memory.load program).after } := by
  have hpos := s.layout.stackLimit_pos
  refine h.withMemory ?_ ?_ ?_
  · rw [Memory.layout_after_load]
    exact h.layout_eq
  · exact Memory.isWord_get_after_load (Memory.isWord_get h.isWord_of_mem) program
  · exact Memory.get_after_load_of_outside (Int.le_refl 0) (Or.inl (Int.natCast_pos.2 hpos)) program

/-- The one word a cycle may write is a machine word, and its address is not `0`. -/
theorem Footprint.isWord_get {t : State} (h : Footprint s t)
    (hs : ∀ address, IsWord (s.memory.get address)) (address : Int) :
    IsWord (t.memory.get address) := by
  -- Either nothing is written, or a value that is a machine word at one address.
  have hset : ∀ a v, IsWord v → t.memory = s.memory.set a v → IsWord (t.memory.get address) := by
    intro a v hv heq
    rw [heq]
    rcases s.memory.get_set_cases a address v with hget | hget
    · rw [hget]
      exact hs address
    · rw [hget]
      exact hv
  rcases h.memory with heq | ⟨v, hv, -, heq⟩ | ⟨a, v, hv, -, heq⟩
  · rw [heq]
    exact hs address
  · exact hset t.sp v hv heq
  · exact hset a v hv heq

theorem Footprint.get_zero {t : State} (h : Footprint s t) :
    t.memory.get 0 = s.memory.get 0 := by
  have hset : ∀ {r : Region} {a v : Int}, s.layout.Admits r a → t.memory = s.memory.set a v →
      t.memory.get 0 = s.memory.get 0 := by
    intro r a v hadmits heq
    have hpos := (Layout.pos_and_lt_of_admits hadmits).1
    rw [heq]
    exact Memory.get_set_of_int_ne (Int.le_of_lt hpos) (Int.le_refl 0) (Int.ne_of_gt hpos) v
  rcases h.memory with heq | ⟨v, -, hadmits, heq⟩ | ⟨a, v, -, hadmits, heq⟩
  · rw [heq]
  · exact hset hadmits heq
  · exact hset hadmits heq

theorem Footprint.layout_eq {t : State} (h : Footprint s t) : t.layout = s.layout := by
  rcases h.memory with heq | ⟨v, -, -, heq⟩ | ⟨a, v, -, -, heq⟩ <;> rw [layout, heq]
  · exact Memory.layout_set _ _ _
  · exact Memory.layout_set _ _ _

/-- A cycle that goes through keeps a state sound. -/
theorem Sound.step (h : Sound l n s) {effect : Effect} (hstep : s.step = .ok effect) :
    Sound l (n + 1) effect.state := by
  obtain ⟨hadmits, hfoot⟩ := footprint_of_step hstep
  have hlayout : s.layout = l := h.layout_eq
  have hword := hfoot.isWord_get (Memory.isWord_get h.isWord_of_mem)
  have hsp := hfoot.sp h.sp_nonneg (by
    have := h.sp_le
    show s.sp < s.layout.stackLimit
    rw [hlayout]
    omega)
  change 0 ≤ effect.state.sp ∧ effect.state.sp < s.layout.stackLimit at hsp
  have hpayload := (payloadOf (s.memory.get (s.ip + 1))).isLt
  -- The layout, the words, the stack pointer and the instruction pointer follow from the
  -- footprint; the data register holds a payload.
  refine ⟨hfoot.layout_eq.trans hlayout, ?_, fun w hw ↦ Memory.isWord_of_mem_words hword hw, ?_,
    hsp.1, ?_, fun h ↦ absurd h (Nat.succ_ne_zero n), fun _ ↦ ?_, ?_, ?_⟩
  · rw [effect.state.memory.size_words, ← hlayout]
    exact congrArg Layout.memSize hfoot.layout_eq
  · rw [Memory.getElem?_words_zero_iff, hfoot.get_zero]
    exact Memory.getElem?_words_zero_iff.1 h.getElem?_zero
  · rw [hlayout] at hsp
    omega
  · -- Without a jump the pointer is where the instruction was fetched.
    rw [← hlayout]
    rcases hfoot.ip with hip | hip
    · rw [hip]
      exact (s.layout.admits_instruction_iff _).1 hadmits
    · exact (s.layout.admits_instruction_iff _).1 hip
  · rw [hfoot.data]
    exact Int.natCast_nonneg _
  · rw [hfoot.data]
    show ((payloadOf (s.memory.get (s.ip + 1))).val : Int) < 0x40000000
    omega

/-- Every reachable state is sound. -/
theorem Reachable.sound (h : Reachable l n s) : Sound l n s := by
  induction h with
  | initial => exact sound_initial l
  | load _ program ih => exact ih.load program
  | step _ hstep ih => exact ih.step hstep

end State

end TaggedStack
