import TaggedStack.Machine.Cycle
import TaggedStack.Proofs.Regions

/-!
# What a cycle may change

A cycle that goes through changes little: the registers, and at most one word of memory, which is
the new top of the stack or a word of the program data. `State.Footprint` collects what can be said
of every operation at once; whatever holds of all states a machine can be in is derived from it,
and no operation is opened again.

* `State.advance_eq`: fetching and decoding as one equation.
* `State.pushing_eq_ok_iff`, `State.operands_eq_ok_iff`, `State.jumpTarget_eq_ok_iff`,
  `State.dataAddress_eq_ok_iff`: when the parts of an operation go through, and to what.
* `State.footprint_of_step`: the footprint of a cycle.
-/

namespace TaggedStack

/-- A sequence goes through when both of its parts do. -/
theorem exists_of_bind_eq_ok {ε α β : Type} {x : Except ε α} {f : α → Except ε β} {b : β}
    (h : x >>= f = .ok b) : ∃ a, x = .ok a ∧ f a = .ok b := by
  cases x with
  | ok a => exact ⟨a, rfl, h⟩
  | error e => cases h

namespace State

variable {s : State}

/-! ### Fetching and decoding -/

/-- The state with the instruction pointer advanced and the word there in the registers. -/
def decoded (s : State) : State :=
  { s with
    ip := s.ip + 1
    tag := tagOf (s.memory.get (s.ip + 1))
    data := ((payloadOf (s.memory.get (s.ip + 1))).val : Int) }

/-- Fetching checks the next address; decoding cannot fail after that. -/
theorem advance_eq (s : State) :
    s.advance =
      if s.layout.Admits .instruction (s.ip + 1) then .ok s.decoded
      else .error (s.layout.rejection .instruction (s.ip + 1)) := by
  unfold advance fetch
  by_cases h : s.layout.Admits .instruction (s.ip + 1)
  · have hread : s.memory.read .instruction (s.ip + 1) = .ok (s.memory.get (s.ip + 1)) :=
      Memory.read_eq_ok_iff.2 ⟨h, rfl⟩
    simp only [if_pos h]
    show (do
      let word ← s.memory.read .instruction (s.ip + 1)
      return { s with
        ip := s.ip + 1
        tag := tagOf word
        data := ((payloadOf word).val : Int) }) = _
    rw [hread]
    rfl
  · simp only [if_neg h]
    rfl

/-! ### The parts of an operation -/

theorem pushing_eq_ok_iff {value : Int} {effect : Effect} :
    s.pushing value = .ok effect ↔
      s.layout.Admits .stack (s.sp + 1) ∧ IsWord value ∧
        effect = ⟨{ s with memory := s.memory.set (s.sp + 1) value, sp := s.sp + 1 }, none⟩ := by
  constructor
  · intro h
    obtain ⟨stack, hstack, heffect⟩ := exists_of_bind_eq_ok h
    obtain ⟨hadmits, hword, rfl⟩ := Stack.pushed_eq_ok_iff.1 hstack
    cases heffect
    exact ⟨hadmits, hword, rfl⟩
  · rintro ⟨hadmits, hword, rfl⟩
    unfold pushing
    rw [Stack.pushed_eq_ok_iff.2 ⟨hadmits, hword, rfl⟩]
    rfl

theorem operands_eq_ok_iff {a b : Int} {stack : Stack} :
    s.operands = .ok (a, b, stack) ↔
      s.layout.Admits .stack s.sp ∧ s.layout.Admits .stack (s.sp - 1) ∧
        a = s.memory.get (s.sp - 1) ∧ b = s.memory.get s.sp ∧
          stack = ⟨s.memory, s.sp - 1 - 1⟩ := by
  constructor
  · intro h
    obtain ⟨⟨b', stack'⟩, hb, h⟩ := exists_of_bind_eq_ok h
    obtain ⟨⟨a', stack''⟩, ha, h⟩ := exists_of_bind_eq_ok h
    obtain ⟨hb', rfl, rfl⟩ := Stack.pop_eq_ok_iff.1 hb
    obtain ⟨ha', rfl, rfl⟩ := Stack.pop_eq_ok_iff.1 ha
    cases h
    exact ⟨hb', ha', rfl, rfl, rfl⟩
  · rintro ⟨hb, ha, rfl, rfl, rfl⟩
    unfold operands
    rw [Stack.pop_eq_ok_iff.2 ⟨hb, rfl, rfl⟩]
    show Stack.pop ⟨s.memory, s.sp - 1⟩ >>= _ = _
    rw [Stack.pop_eq_ok_iff.2 ⟨ha, rfl, rfl⟩]
    rfl

theorem jumpTarget_eq_ok_iff {target : Int} {stack : Stack} :
    s.jumpTarget = .ok (target, stack) ↔
      s.layout.Admits .stack s.sp ∧ s.layout.Admits .instruction target ∧
        target = s.memory.get s.sp + s.layout.instructionBase ∧
          stack = ⟨s.memory, s.sp - 1⟩ := by
  constructor
  · intro h
    obtain ⟨⟨offset, stack'⟩, hpop, h⟩ := exists_of_bind_eq_ok h
    obtain ⟨htop, rfl, rfl⟩ := Stack.pop_eq_ok_iff.1 hpop
    dsimp only at h
    split at h
    · next hadmits =>
      cases h
      exact ⟨htop, hadmits, rfl, rfl⟩
    · cases h
  · rintro ⟨hpop, hadmits, rfl, rfl⟩
    unfold jumpTarget
    rw [Stack.pop_eq_ok_iff.2 ⟨hpop, rfl, rfl⟩]
    exact if_pos hadmits

theorem dataAddress_eq_ok_iff {address : Int} {stack : Stack} :
    s.dataAddress = .ok (address, stack) ↔
      s.layout.Admits .stack s.sp ∧ address = s.memory.get s.sp + s.layout.dataBase ∧
        stack = ⟨s.memory, s.sp - 1⟩ := by
  constructor
  · intro h
    obtain ⟨⟨offset, stack'⟩, hpop, h⟩ := exists_of_bind_eq_ok h
    obtain ⟨htop, rfl, rfl⟩ := Stack.pop_eq_ok_iff.1 hpop
    cases h
    exact ⟨htop, rfl, rfl⟩
  · rintro ⟨hpop, rfl, rfl⟩
    unfold dataAddress
    rw [Stack.pop_eq_ok_iff.2 ⟨hpop, rfl, rfl⟩]
    rfl

/-! ### Footprints -/

/-- What carrying out an instruction may change in a state. -/
structure Footprint (s t : State) : Prop where
  /-- At most one word changes: the new top of the stack, or a word of the program data. -/
  memory : t.memory = s.memory ∨
    (∃ value, IsWord value ∧ s.layout.Admits .stack t.sp ∧
      t.memory = s.memory.set t.sp value) ∨
    ∃ address value, IsWord value ∧ s.layout.Admits .data address ∧
      t.memory = s.memory.set address value
  /-- The stack pointer stays within the stack. -/
  sp : 0 ≤ s.sp → s.sp < s.layout.stackLimit → 0 ≤ t.sp ∧ t.sp < s.layout.stackLimit
  /-- The instruction pointer stays where it is, or moves to an instruction. -/
  ip : t.ip = s.ip ∨ s.layout.Admits .instruction t.ip
  tag : t.tag = s.tag
  data : t.data = s.data
  /-- A machine may stop, but does not start again. -/
  running : t.running = true → s.running = true

/-- Taking values off the stack changes nothing but its pointer. -/
theorem footprint_of_drop {p : Int} (h : s.layout.Admits .stack (p + 1)) :
    Footprint s (s.withStack ⟨s.memory, p⟩) where
  memory := Or.inl rfl
  sp _ _ := by
    have := (s.layout.admits_stack_iff _).1 h
    show 0 ≤ p ∧ p < s.layout.stackLimit
    omega
  ip := Or.inl rfl
  tag := rfl
  data := rfl
  running := id

/-- Pushing a value, after others were taken off, changes the word that is the new top. -/
theorem footprint_of_pushing {p value : Int} {effect : Effect}
    (h : (s.withStack ⟨s.memory, p⟩).pushing value = .ok effect) : Footprint s effect.state := by
  obtain ⟨hadmits, hword, rfl⟩ := pushing_eq_ok_iff.1 h
  refine ⟨Or.inr (Or.inl ⟨value, hword, hadmits, rfl⟩), fun _ _ ↦ ?_, Or.inl rfl, rfl, rfl, id⟩
  have := (s.layout.admits_stack_iff _).1 hadmits
  show 0 ≤ p + 1 ∧ p + 1 < s.layout.stackLimit
  exact ⟨Int.le_of_lt this.1, this.2⟩

theorem footprint_of_combining {f : Int → Int → Int} {effect : Effect}
    (h : s.combining f = .ok effect) : Footprint s effect.state := by
  obtain ⟨⟨a, b, stack⟩, hoperands, h⟩ := exists_of_bind_eq_ok h
  obtain ⟨-, -, -, -, rfl⟩ := operands_eq_ok_iff.1 hoperands
  exact footprint_of_pushing h

/-- The footprint of every operation. -/
theorem footprint_of_perform {op : Opcode} {effect : Effect} (h : op.perform s = .ok effect) :
    Footprint s effect.state := by
  cases op with
  | halt =>
    cases h
    exact ⟨Or.inl rfl, And.intro, Or.inl rfl, rfl, rfl, fun h ↦ by cases h⟩
  | add => exact footprint_of_combining h
  | sub => exact footprint_of_combining h
  | mul => exact footprint_of_combining h
  | div =>
    obtain ⟨⟨a, b, stack⟩, hoperands, h⟩ := exists_of_bind_eq_ok h
    obtain ⟨-, -, -, -, rfl⟩ := operands_eq_ok_iff.1 hoperands
    dsimp only at h
    split at h
    · cases h
    · exact footprint_of_pushing h
  | dup =>
    -- The value stays where it is, so this is a push onto the whole stack.
    obtain ⟨value, -, h⟩ := exists_of_bind_eq_ok h
    exact footprint_of_pushing (p := s.sp) h
  | jmp =>
    obtain ⟨⟨target, stack⟩, htarget, h⟩ := exists_of_bind_eq_ok h
    obtain ⟨htop, hadmits, -, rfl⟩ := jumpTarget_eq_ok_iff.1 htarget
    cases h
    have hdrop := footprint_of_drop (s := s) (p := s.sp - 1) (by rwa [Int.sub_add_cancel])
    exact { hdrop with ip := Or.inr hadmits }
  | jz =>
    obtain ⟨⟨target, stack⟩, htarget, h⟩ := exists_of_bind_eq_ok h
    obtain ⟨-, hadmits, -, rfl⟩ := jumpTarget_eq_ok_iff.1 htarget
    obtain ⟨⟨condition, stack⟩, hpop, h⟩ := exists_of_bind_eq_ok h
    obtain ⟨htop, -, rfl⟩ := Stack.pop_eq_ok_iff.1 hpop
    cases h
    -- Both ways leave the same stack; only the taken jump moves the instruction pointer.
    have hdrop := footprint_of_drop (s := s) (p := s.sp - 1 - 1) (by rwa [Int.sub_add_cancel])
    by_cases hzero : condition = 0
    · simp only [if_pos hzero]
      exact { hdrop with ip := Or.inr hadmits }
    · simp only [if_neg hzero]
      exact hdrop
  | prn =>
    obtain ⟨⟨value, stack⟩, hpop, h⟩ := exists_of_bind_eq_ok h
    obtain ⟨htop, -, rfl⟩ := Stack.pop_eq_ok_iff.1 hpop
    obtain ⟨numeral, -, h⟩ := exists_of_bind_eq_ok h
    cases h
    exact footprint_of_drop (p := s.sp - 1) (by rwa [Int.sub_add_cancel])
  | prnchar =>
    obtain ⟨⟨value, stack⟩, hpop, h⟩ := exists_of_bind_eq_ok h
    obtain ⟨htop, -, rfl⟩ := Stack.pop_eq_ok_iff.1 hpop
    cases h
    exact footprint_of_drop (p := s.sp - 1) (by rwa [Int.sub_add_cancel])
  | load =>
    obtain ⟨⟨address, stack⟩, haddress, h⟩ := exists_of_bind_eq_ok h
    obtain ⟨-, -, rfl⟩ := dataAddress_eq_ok_iff.1 haddress
    obtain ⟨value, -, h⟩ := exists_of_bind_eq_ok h
    exact footprint_of_pushing h
  | stor =>
    obtain ⟨⟨address, stack⟩, haddress, h⟩ := exists_of_bind_eq_ok h
    obtain ⟨-, -, rfl⟩ := dataAddress_eq_ok_iff.1 haddress
    obtain ⟨⟨value, stack⟩, hpop, h⟩ := exists_of_bind_eq_ok h
    obtain ⟨htop, -, rfl⟩ := Stack.pop_eq_ok_iff.1 hpop
    obtain ⟨memory, hwrite, h⟩ := exists_of_bind_eq_ok h
    obtain ⟨hword, hadmits, rfl⟩ := Memory.write_eq_ok_iff.1 hwrite
    cases h
    have hdrop := footprint_of_drop (s := s) (p := s.sp - 1 - 1) (by rwa [Int.sub_add_cancel])
    exact { hdrop with memory := Or.inr (Or.inr ⟨address, value, hword, hadmits, rfl⟩) }

theorem footprint_of_execute {effect : Effect} (h : s.execute = .ok effect) :
    Footprint s effect.state := by
  unfold execute at h
  split at h
  · exact footprint_of_pushing (p := s.sp) h
  · split at h
    · exact footprint_of_perform h
    · cases h

/-- A cycle goes through only if there is a next instruction, and changes what that instruction
changes. -/
theorem footprint_of_step {effect : Effect} (h : s.step = .ok effect) :
    s.layout.Admits .instruction (s.ip + 1) ∧ Footprint s.decoded effect.state := by
  obtain ⟨ready, hready, h⟩ := exists_of_bind_eq_ok h
  rw [advance_eq] at hready
  split at hready
  · next hadmits =>
    cases hready
    exact ⟨hadmits, footprint_of_execute h⟩
  · cases hready

end State

end TaggedStack
