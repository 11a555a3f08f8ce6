import Mathlib.Data.List.Forall2
import TaggedStack.Proofs.Lockstep

/-!
# The highest bit of a program word never matters

Bit 31 of an instruction only tells a positive literal from a negative one, and a primitive from a
reserved word, and the machine treats the two of each pair alike. Instructions are never read as
data either, so nothing that depends on the bit gets into the stack, the data, or the output.

`State.Twins` relates two states that differ in nothing else than these bits: the tag registers and
the instructions may differ, and everything a program can see is the same. Every cycle keeps it.

* `tagOf_isLiteral_congr`, `payloadOf_congr`: what the low 31 bits of a word determine.
* `State.twins_bisimulation`: cycles of twin states are in lockstep.
* `Trial.high_bit_never_matters`: two programs with the same low bits, cycle by cycle and as trials.
-/

namespace TaggedStack

/-! ### Words -/

/-- Two words agree on bits 30 to 0. -/
def SameLowBits (w v : Int) : Prop := w % 0x80000000 = v % 0x80000000

instance (w v : Int) : Decidable (SameLowBits w v) := inferInstanceAs (Decidable (_ = _))

theorem payloadOf_congr {w v : Int} (h : SameLowBits w v) : payloadOf v = payloadOf w := by
  unfold SameLowBits at h
  apply Fin.ext
  simp only [payloadOf]
  omega

/-- The tags of literals are those whose low bit is clear. -/
theorem isLiteral_ofCode (c : Fin 4) : (Tag.ofCode c).isLiteral = decide (c.val % 2 = 0) := by
  match c with
  | 0 => rfl
  | 1 => rfl
  | 2 => rfl
  | 3 => rfl

/-- Bit 30 tells literals from operations; bit 31 does not matter. -/
theorem tagOf_isLiteral_congr {w v : Int} (h : SameLowBits w v) :
    (tagOf v).isLiteral = (tagOf w).isLiteral := by
  unfold SameLowBits at h
  rw [tagOf, tagOf, isLiteral_ofCode, isLiteral_ofCode, decide_eq_decide]
  dsimp only
  omega

/-! ### Memories -/

namespace Memory

/-- Two memories that differ at most in bit 31 of their instructions. -/
structure Twins (m m' : Memory) : Prop where
  layout_eq : m'.layout = m.layout
  stack_eq : m'.regionWords .stack = m.regionWords .stack
  data_eq : m'.regionWords .data = m.regionWords .data
  instruction : List.Forall₂ SameLowBits (m.regionWords .instruction) (m'.regionWords .instruction)

variable {m m' : Memory} {r : Region} {address : Int}

theorem Twins.regionWords_eq (h : m.Twins m') (hr : r ≠ .instruction) :
    m'.regionWords r = m.regionWords r := by
  cases r with
  | stack => exact h.stack_eq
  | instruction => exact absurd rfl hr
  | data => exact h.data_eq

/-- The word at an admitted address, as a word of its region. -/
theorem getElem?_regionWords_of_admits (h : m.layout.Admits r address) :
    (m.regionWords r)[(address - (m.layout.bounds r).1).toNat]? = some (m.get address) := by
  have hb := Layout.bounds_of_admits h
  have haddress : ((m.layout.bounds r).1 : Int) + (address - (m.layout.bounds r).1).toNat =
      address := by omega
  rw [getElem?_regionWords (by omega), haddress]

/-- Stack and data words are the same. -/
theorem Twins.get_eq (h : m.Twins m') (hr : r ≠ .instruction) (ha : m.layout.Admits r address) :
    m'.get address = m.get address := by
  have hword := getElem?_regionWords_of_admits ha
  have hword' := getElem?_regionWords_of_admits (m := m') (by rwa [h.layout_eq])
  rw [h.regionWords_eq hr, h.layout_eq, hword] at hword'
  exact (Option.some.inj hword').symm

/-- Instructions have the same low bits. -/
theorem Twins.sameLowBits_get (h : m.Twins m') (ha : m.layout.Admits .instruction address) :
    SameLowBits (m.get address) (m'.get address) := by
  have hword := getElem?_regionWords_of_admits ha
  have hword' := getElem?_regionWords_of_admits (m := m') (by rwa [h.layout_eq])
  rw [h.layout_eq] at hword'
  obtain ⟨hlt, hword⟩ := List.getElem?_eq_some_iff.1 hword
  obtain ⟨hlt', hword'⟩ := List.getElem?_eq_some_iff.1 hword'
  rw [← hword, ← hword']
  exact h.instruction.get hlt hlt'

theorem Twins.read_eq (h : m.Twins m') (hr : r ≠ .instruction) (address : Int) :
    m'.read r address = m.read r address := by
  unfold read
  rw [h.layout_eq]
  split
  · next ha => rw [h.get_eq hr ha]
  · rfl

/-- Setting the same word of the stack or the data keeps memories twins. -/
theorem Twins.set (h : m.Twins m') (hr : r ≠ .instruction) (ha : m.layout.Admits r address)
    (value : Int) : (m.set address value).Twins (m'.set address value) := by
  have ha' : m'.layout.Admits r address := by rwa [h.layout_eq]
  have hregion : ∀ r' ≠ Region.instruction,
      (m'.set address value).regionWords r' = (m.set address value).regionWords r' := by
    intro r' hr'
    by_cases heq : r' = r
    · rw [heq, regionWords_set ha, regionWords_set ha', h.layout_eq, h.regionWords_eq hr]
    · rw [regionWords_set_of_ne ha heq, regionWords_set_of_ne ha' heq, h.regionWords_eq hr']
  refine ⟨h.layout_eq, hregion .stack (by decide), hregion .data (by decide), ?_⟩
  rw [regionWords_set_of_ne ha hr.symm, regionWords_set_of_ne ha' hr.symm]
  exact h.instruction

theorem Twins.write (h : m.Twins m') (hr : r ≠ .instruction) (address value : Int) :
    StrictLockstep Twins (m.write r address value) (m'.write r address value) := by
  unfold Memory.write refusal
  rw [h.layout_eq]
  by_cases hvalue : IsWord value
  · by_cases ha : m.layout.Admits r address
    · simp only [hvalue, ha, not_true_eq_false, if_false]
      exact .ok (h.set hr ha value)
    · simp only [hvalue, ha, not_true_eq_false, not_false_eq_true, if_false, if_true]
      exact .error _
  · simp only [hvalue, not_false_eq_true, if_true]
    exact .error _

end Memory

/-! ### Stacks -/

namespace Stack

/-- Two stacks with the same pointer, in twin memories. -/
structure Twins (x y : Stack) : Prop where
  memory : x.memory.Twins y.memory
  pointer_eq : y.pointer = x.pointer

variable {x y : Stack}

theorem Twins.peek_eq (h : x.Twins y) : y.peek = x.peek := by
  unfold peek
  rw [h.pointer_eq, h.memory.read_eq (by decide)]

theorem Twins.pop (h : x.Twins y) :
    StrictLockstep (fun u v ↦ v.1 = u.1 ∧ u.2.Twins v.2) x.pop y.pop := by
  unfold Stack.pop
  rw [h.peek_eq]
  cases x.peek with
  | ok value => exact .ok ⟨rfl, h.memory, congrArg (· - 1) h.pointer_eq⟩
  | error e => exact .error e

theorem Twins.pushed (h : x.Twins y) (value : Int) :
    StrictLockstep Twins (x.pushed value) (y.pushed value) := by
  unfold Stack.pushed push
  rw [h.pointer_eq, h.memory.layout_eq]
  dsimp only
  split
  · have hwrite := h.memory.write (r := .stack) (by decide) (x.pointer + 1) value
    rcases hwrite.ok_or_error with ⟨u, v, hu, hv, huv⟩ | ⟨e, hu, hv⟩
    · rw [hu, hv]
      exact .ok ⟨huv, rfl⟩
    · rw [hu, hv]
      exact .error e
  · exact .error _

end Stack

/-! ### States -/

namespace State

/-- Two states that differ at most in the tag register and in bit 31 of their instructions. The tag
registers are those of literals on both sides, or on neither. -/
structure Twins (s t : State) : Prop where
  memory : s.memory.Twins t.memory
  sp_eq : t.sp = s.sp
  ip_eq : t.ip = s.ip
  isLiteral_eq : t.tag.isLiteral = s.tag.isLiteral
  data_eq : t.data = s.data
  running_eq : t.running = s.running

variable {s t : State}

theorem Twins.layout_eq (h : s.Twins t) : t.layout = s.layout := h.memory.layout_eq

theorem Twins.stack (h : s.Twins t) : s.stack.Twins t.stack := ⟨h.memory, h.sp_eq⟩

theorem Twins.withStack (h : s.Twins t) {x y : Stack} (hxy : x.Twins y) :
    (s.withStack x).Twins (t.withStack y) :=
  { h with memory := hxy.memory, sp_eq := hxy.pointer_eq }

theorem Twins.top_eq (h : s.Twins t) : t.top = s.top := by
  unfold top
  rw [h.sp_eq, h.stack.peek_eq]

theorem Twins.pushing (h : s.Twins t) (value : Int) :
    StrictLockstep (Effect.Paired Twins) (s.pushing value) (t.pushing value) := by
  refine (h.stack.pushed value).bind ?_
  intro x y hxy
  exact .ok ⟨h.withStack hxy, rfl⟩

theorem Twins.operands (h : s.Twins t) :
    StrictLockstep (fun u v ↦ v.1 = u.1 ∧ v.2.1 = u.2.1 ∧ u.2.2.Twins v.2.2) s.operands
      t.operands := by
  refine h.stack.pop.bind ?_
  rintro ⟨b, x⟩ ⟨_, y⟩ ⟨rfl, hxy⟩
  refine hxy.pop.bind ?_
  rintro ⟨a, x'⟩ ⟨_, y'⟩ ⟨rfl, hxy'⟩
  exact .ok ⟨rfl, rfl, hxy'⟩

theorem Twins.combining (h : s.Twins t) (f : Int → Int → Int) :
    StrictLockstep (Effect.Paired Twins) (s.combining f) (t.combining f) := by
  refine h.operands.bind ?_
  rintro ⟨a, b, x⟩ ⟨_, _, y⟩ ⟨rfl, rfl, hxy⟩
  exact (h.withStack hxy).pushing _

theorem Twins.jumpTarget (h : s.Twins t) :
    StrictLockstep (fun u v ↦ v.1 = u.1 ∧ u.2.Twins v.2) s.jumpTarget t.jumpTarget := by
  refine h.stack.pop.bind ?_
  rintro ⟨_, x⟩ ⟨target, y⟩ ⟨rfl, hxy⟩
  dsimp only
  rw [h.layout_eq]
  exact .ite Iff.rfl (fun _ ↦ .ok ⟨rfl, hxy⟩) fun _ ↦ .error _

theorem Twins.dataAddress (h : s.Twins t) :
    StrictLockstep (fun u v ↦ v.1 = u.1 ∧ u.2.Twins v.2) s.dataAddress t.dataAddress := by
  refine h.stack.pop.bind ?_
  rintro ⟨_, x⟩ ⟨offset, y⟩ ⟨rfl, hxy⟩
  dsimp only
  rw [h.layout_eq]
  exact .ok ⟨rfl, hxy⟩

/-- Every operation keeps states twins. None of them reads an instruction. -/
theorem Twins.perform (h : s.Twins t) (op : Opcode) :
    StrictLockstep (Effect.Paired Twins) (op.perform s) (op.perform t) := by
  cases op with
  | halt => exact .ok ⟨{ h with running_eq := rfl }, rfl⟩
  | add => exact h.combining _
  | sub => exact h.combining _
  | mul => exact h.combining _
  | div =>
    refine h.operands.bind ?_
    rintro ⟨a, b, x⟩ ⟨_, _, y⟩ ⟨rfl, rfl, hxy⟩
    exact .ite Iff.rfl (fun _ ↦ .error _) fun _ ↦ (h.withStack hxy).pushing _
  | dup =>
    unfold Opcode.perform
    rw [h.stack.peek_eq]
    cases s.stack.peek with
    | ok value => exact h.pushing value
    | error e => exact .error e
  | jmp =>
    refine h.jumpTarget.bind ?_
    rintro ⟨target, x⟩ ⟨_, y⟩ ⟨rfl, hxy⟩
    exact .ok ⟨{ h.withStack hxy with ip_eq := rfl }, rfl⟩
  | jz =>
    refine h.jumpTarget.bind ?_
    rintro ⟨_, x⟩ ⟨target, y⟩ ⟨rfl, hxy⟩
    refine hxy.pop.bind ?_
    rintro ⟨_, x'⟩ ⟨condition, y'⟩ ⟨rfl, hxy'⟩
    by_cases hzero : condition = 0
    · simp only [if_pos hzero]
      exact .ok ⟨{ h.withStack hxy' with ip_eq := rfl }, rfl⟩
    · simp only [if_neg hzero]
      exact .ok ⟨h.withStack hxy', rfl⟩
  | prn =>
    refine h.stack.pop.bind ?_
    rintro ⟨_, x⟩ ⟨value, y⟩ ⟨rfl, hxy⟩
    dsimp only
    cases (Text.numeral value).mapError Failure.digits with
    | ok numeral => exact .ok ⟨h.withStack hxy, rfl⟩
    | error e => exact .error e
  | prnchar =>
    refine h.stack.pop.bind ?_
    rintro ⟨value, x⟩ ⟨_, y⟩ ⟨rfl, hxy⟩
    exact .ok ⟨h.withStack hxy, rfl⟩
  | load =>
    refine h.dataAddress.bind ?_
    rintro ⟨_, x⟩ ⟨address, y⟩ ⟨rfl, hxy⟩
    dsimp only
    rw [h.memory.read_eq (by decide)]
    cases s.memory.read .data address with
    | ok value => exact (h.withStack hxy).pushing value
    | error e => exact .error e
  | stor =>
    refine h.dataAddress.bind ?_
    rintro ⟨_, x⟩ ⟨address, y⟩ ⟨rfl, hxy⟩
    refine hxy.pop.bind ?_
    rintro ⟨_, x'⟩ ⟨value, y'⟩ ⟨rfl, hxy'⟩
    refine (hxy'.memory.write (by decide) address value).bind ?_
    intro memory memory' hmemory
    exact .ok ⟨h.withStack ⟨hmemory, hxy'.pointer_eq⟩, rfl⟩

theorem Twins.execute (h : s.Twins t) :
    StrictLockstep (Effect.Paired Twins) s.execute t.execute := by
  unfold State.execute
  rw [h.isLiteral_eq, h.data_eq]
  split
  · exact h.pushing s.data
  · cases Opcode.ofId? s.data with
    | some op => exact h.perform op
    | none => exact .error _

/-- Fetching and decoding keeps states twins: the fetched words have the same low bits, and these
determine the data register and whether the word is a literal. -/
theorem Twins.decoded (h : s.Twins t) (ha : s.layout.Admits .instruction (s.ip + 1)) :
    s.decoded.Twins t.decoded := by
  have hlow := h.memory.sameLowBits_get ha
  refine { h with ip_eq := ?_, isLiteral_eq := ?_, data_eq := ?_ }
  · exact congrArg (· + 1) h.ip_eq
  · show (tagOf (t.memory.get (t.ip + 1))).isLiteral = (tagOf (s.memory.get (s.ip + 1))).isLiteral
    rw [h.ip_eq]
    exact tagOf_isLiteral_congr hlow
  · show ((payloadOf (t.memory.get (t.ip + 1))).val : Int) =
      (payloadOf (s.memory.get (s.ip + 1))).val
    rw [h.ip_eq, payloadOf_congr hlow]

theorem Twins.step (h : s.Twins t) :
    StrictLockstep (Effect.Paired Twins) s.step t.step := by
  have hadvance : StrictLockstep Twins s.advance t.advance := by
    rw [advance_eq, advance_eq, h.layout_eq, h.ip_eq]
    exact .ite Iff.rfl (fun ha ↦ .ok (h.decoded ha)) fun _ ↦ .error _
  exact hadvance.bind fun _ _ hready ↦ hready.execute

/-- Cycles of twin states are in lockstep. -/
theorem twins_bisimulation : Bisimulation Twins :=
  ⟨Twins.running_eq, Twins.top_eq, Twins.step⟩

end State

/-! ### Loading -/

namespace Memory

theorem forall₂_sameLowBits_refl (words : List Int) : List.Forall₂ SameLowBits words words :=
  List.forall₂_same.2 fun _ _ ↦ rfl

/-- Loading programs with the same low bits into the same memory makes twins of it. -/
theorem twins_load (m : Memory) {ws vs : List Int} (hws : ∀ w ∈ ws, IsWord w)
    (hvs : ∀ v ∈ vs, IsWord v) (hlow : List.Forall₂ SameLowBits ws vs) :
    (m.load ws).after.Twins (m.load vs).after where
  layout_eq := by rw [layout_after_load, layout_after_load]
  stack_eq := by
    rw [regionWords_after_load_of_ne (by decide), regionWords_after_load_of_ne (by decide)]
  data_eq := by
    rw [regionWords_after_load_of_ne (by decide), regionWords_after_load_of_ne (by decide)]
  instruction := by
    have hcopied := List.forall₂_take m.layout.instructionCapacity hlow
    rw [regionWords_after_load, regionWords_after_load, accepted_of_isWord hws,
      accepted_of_isWord hvs, ← hcopied.length_eq]
    exact List.rel_append hcopied (forall₂_sameLowBits_refl _)

end Memory

/-! ### Programs -/

namespace Machine

/-- A fresh machine is loaded to the end of a program that is accepted. -/
theorem ending_load_fresh {l : Layout} {words : List Int}
    (h : Memory.acceptance l l.instructionCapacity words = .ok ()) (sink : Sink)
    (journal : Journal) : ((fresh l sink journal).load words).ending = .ok words.length := by
  rw [ending_load, Memory.load_eq]
  show Except.map _ (Memory.acceptance l l.instructionCapacity words) = _
  rw [h]
  rfl

/-- Machines loaded with programs of the same low bits are paired, also when the load breaks
off. -/
theorem paired_load {ws vs : List Int} (hws : ∀ w ∈ ws, IsWord w) (hvs : ∀ v ∈ vs, IsWord v)
    (hlow : List.Forall₂ SameLowBits ws vs) (l : Layout) (sink : Sink)
    (journal journal' : Journal) :
    Paired State.Twins ((fresh l sink journal).load ws).after
      ((fresh l sink journal').load vs).after := by
  rw [Paired, state_after_load, state_after_load, sink_after_load, sink_after_load]
  exact ⟨⟨Memory.twins_load _ hws hvs hlow, rfl, rfl, rfl, rfl, rfl⟩, rfl⟩

end Machine

namespace Trial

/-- **The highest bit never matters.** Two programs of machine words that agree on bits 30 to 0 have
the same result under every budget. After any number of cycles the two machines are in twin states,
which differ at most in the tag register and the instructions, they have printed the same, and
their next cycles end the same way. -/
theorem high_bit_never_matters {ws vs : List Int} (hws : ∀ w ∈ ws, IsWord w)
    (hvs : ∀ v ∈ vs, IsWord v) (hlow : List.Forall₂ SameLowBits ws vs) (l : Layout) :
    (∀ maxSteps, execute vs maxSteps l = execute ws maxSteps l) ∧
      ∀ (sink : Sink) (journal journal' : Journal) (n : Nat),
        let m := ((Machine.fresh l sink journal).load ws).after.afterCycles n
        let m' := ((Machine.fresh l sink journal').load vs).after.afterCycles n
        m.state.Twins m'.state ∧ m'.sink = m.sink ∧ m'.step.ending = m.step.ending := by
  refine ⟨fun maxSteps ↦ ?_, fun sink journal journal' n ↦ ?_⟩
  · have hacceptance : Memory.acceptance l l.instructionCapacity vs =
        Memory.acceptance l l.instructionCapacity ws := by
      rw [Memory.acceptance_of_isWord l hws, Memory.acceptance_of_isWord l hvs, hlow.length_eq]
    cases hload : Memory.acceptance l l.instructionCapacity ws with
    | error e => rw [execute_of_refused hload, execute_of_refused (hacceptance.trans hload)]
    | ok u =>
      have hpaired := Machine.paired_load hws hvs hlow l .emptyBuffer .silent .silent
      rw [execute_eq_executeLoaded (Machine.ending_load_fresh hload _ .silent),
        execute_eq_executeLoaded (Machine.ending_load_fresh (hacceptance.trans hload) _ .silent)]
      exact hpaired.executeLoaded_eq State.twins_bisimulation maxSteps
  · have hpaired := (Machine.paired_load hws hvs hlow l sink journal journal').afterCycles
      State.twins_bisimulation n
    exact ⟨hpaired.1, hpaired.2, (hpaired.step State.twins_bisimulation).1⟩

/-- Two programs that push five, print it and halt. The second has a negative literal and reserved
words in place of the primitives. -/
theorem high_bit_never_matters_printing :
    let l : Layout := ⟨6, 2, 5, by decide, by decide, by decide⟩
    let ws : List Int := [5, 0x40000008, 0x40000000]
    let vs : List Int := [0x80000005, 0xC0000008, 0xC0000000]
    execute ws 3 l = .success (Text.decimal 5) none ∧ execute vs 3 l = execute ws 3 l ∧
      let m := ((Machine.fresh l .emptyBuffer .silent).load ws).after.afterCycles 2
      let m' := ((Machine.fresh l .emptyBuffer .silent).load vs).after.afterCycles 2
      m.state.tag ≠ m'.state.tag ∧ m.state.Twins m'.state ∧ m'.sink = m.sink := by
  intro l ws vs
  have hws : ∀ w ∈ ws, IsWord w := by decide
  have hvs : ∀ v ∈ vs, IsWord v := by decide
  have hlow : List.Forall₂ SameLowBits ws vs := by decide
  obtain ⟨hresult, hcycles⟩ := high_bit_never_matters hws hvs hlow l
  obtain ⟨htwins, hsink, -⟩ := hcycles .emptyBuffer .silent .silent 2
  exact ⟨by decide, hresult 3, by decide, htwins, hsink⟩

end Trial

end TaggedStack
