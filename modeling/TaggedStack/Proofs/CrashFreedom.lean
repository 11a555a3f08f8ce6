import TaggedStack.Proofs.ListTrial

/-!
# Nothing but faults

A program can be refused when it is loaded, for a value that is no machine word. Once it is loaded,
nothing else than a fault can stop it: every value a cycle computes is a machine word again, every
address it uses was checked and lies in memory, and what it prints as a single code point is one.

The list machine carries most of the argument. It has no failures but faults, and every reachable
state has a description, so a cycle that agrees with its description can only end well or fault.

* `Machine.CrashFree`: what can and what cannot happen to a machine.
* `Machine.crashFree_of_reachable`: nothing else happens in a reachable state.
* `Trial.isCrash_execute_iff`: which programs crash.
* `Trial.crash_freedom`: both, for every program and every use of a machine.
-/

namespace TaggedStack

/-- What two computations that agree can end with. -/
theorem Agree.ok_or_fault {α β : Type} {R : α → β → Prop} {x : Except Failure α}
    {y : Except Fault β} (h : Agree R x y) :
    (∃ v, x = .ok v) ∨ ∃ cause, x = .error (.fault cause) := by
  cases h with
  | ok h => exact Or.inl ⟨_, rfl⟩
  | fault cause => exact Or.inr ⟨cause, rfl⟩

/-! ### What a cycle prints -/

/-- What programs print: numbers in decimal, and single characters from the low 16 bits of a
value. -/
inductive Emission.OfProgram : Emission → Prop
  | decimal (value : Int) : OfProgram (.text (Text.decimal value))
  | character (value : Int) : OfProgram (.point (.ofLowBits value))

theorem CodePoint.ofLowBits_le (value : Int) : (ofLowBits value).val ≤ 0xFFFF := by
  show (value % 0x10000).toNat ≤ 0xFFFF
  omega

namespace State

variable {s : State} {effect : Effect}

theorem output_of_pushing {value : Int} (h : s.pushing value = .ok effect) :
    effect.output = none := by
  obtain ⟨-, -, rfl⟩ := pushing_eq_ok_iff.1 h
  rfl

/-- An operation prints a number in decimal, a character of 16 bits, or nothing. -/
theorem ofProgram_of_perform {op : Opcode} {e : Emission} (h : op.perform s = .ok effect)
    (he : effect.output = some e) : e.OfProgram := by
  cases op with
  | halt =>
    cases h
    cases he
  | add | sub | mul | dup =>
    obtain ⟨_, -, h⟩ := exists_of_bind_eq_ok h
    rw [output_of_pushing h] at he
    cases he
  | div =>
    obtain ⟨⟨a, b, stack⟩, -, h⟩ := exists_of_bind_eq_ok h
    dsimp only at h
    split at h
    · cases h
    · rw [output_of_pushing h] at he
      cases he
  | jmp =>
    obtain ⟨_, -, h⟩ := exists_of_bind_eq_ok h
    cases h
    cases he
  | prn =>
    obtain ⟨⟨value, stack⟩, -, h⟩ := exists_of_bind_eq_ok h
    obtain ⟨numeral, hnumeral, h⟩ := exists_of_bind_eq_ok h
    cases h
    cases he
    obtain ⟨-, rfl⟩ := Text.numeral_eq_ok_iff.1 (mapError_eq_ok_iff.1 hnumeral)
    exact .decimal value
  | prnchar =>
    obtain ⟨⟨value, stack⟩, -, h⟩ := exists_of_bind_eq_ok h
    cases h
    cases he
    exact .character value
  | jz =>
    obtain ⟨_, -, h⟩ := exists_of_bind_eq_ok h
    obtain ⟨_, -, h⟩ := exists_of_bind_eq_ok h
    cases h
    cases he
  | load =>
    obtain ⟨_, -, h⟩ := exists_of_bind_eq_ok h
    obtain ⟨_, -, h⟩ := exists_of_bind_eq_ok h
    rw [output_of_pushing h] at he
    cases he
  | stor =>
    obtain ⟨_, -, h⟩ := exists_of_bind_eq_ok h
    obtain ⟨_, -, h⟩ := exists_of_bind_eq_ok h
    obtain ⟨_, -, h⟩ := exists_of_bind_eq_ok h
    cases h
    cases he

theorem ofProgram_of_step {e : Emission} (h : s.step = .ok effect)
    (he : effect.output = some e) : e.OfProgram := by
  obtain ⟨ready, -, h⟩ := exists_of_bind_eq_ok h
  unfold execute at h
  split at h
  · rw [output_of_pushing h] at he
    cases he
  · split at h
    · exact ofProgram_of_perform h he
    · cases h

/-- A code point a cycle prints has at most 16 bits. -/
theorem point_le_of_step {c : CodePoint} (h : s.step = .ok effect)
    (hc : effect.output = some (.point c)) : c.val ≤ 0xFFFF := by
  cases ofProgram_of_step h hc with
  | character value => exact CodePoint.ofLowBits_le value

/-! ### Reachable states -/

variable {l : Layout} {cycles : Nat}

/-- A cycle from a reachable state goes through or faults. -/
theorem Reachable.step_ok_or_fault (h : Reachable l cycles s) :
    (∃ effect, s.step = .ok effect) ∨ ∃ cause, s.step = .error (.fault cause) := by
  obtain ⟨a, ha⟩ := h.exists_describes
  exact ha.step.ok_or_fault

/-- The top of the stack of a reachable state can be read. -/
theorem Reachable.exists_top (h : Reachable l cycles s) : ∃ top, s.top = .ok top := by
  obtain ⟨a, ha⟩ := h.exists_describes
  exact ⟨_, ha.top⟩

end State

namespace Machine

variable {m : Machine} {l : Layout} {cycles : Nat}

/-! ### Cycles and runs -/

/-- What can happen to a machine, and what cannot. -/
structure CrashFree (m : Machine) : Prop where
  /-- A cycle goes through or faults. -/
  step : m.step.ending = .ok () ∨ ∃ cause, m.step.ending = .error (.fault cause)
  /-- A run says how it ended. -/
  run : ∀ fuel, ∃ outcome, (m.run fuel).ending = .ok outcome
  /-- The top of the stack can be read. -/
  top : ∃ top, m.state.top = .ok top
  /-- Where an access is admitted there is a word. -/
  access : ∀ r address, m.state.layout.Admits r address →
    0 < address ∧ ∃ w, m.state.memory.words[address.toNat]? = some w
  /-- What is printed as a single code point is one, and has at most 16 bits. -/
  point : ∀ effect c, m.state.step = .ok effect → effect.output = some (.point c) →
    c.val ≤ 0xFFFF

theorem step_ending_of_reachable (h : State.Reachable l cycles m.state) :
    m.step.ending = .ok () ∨ ∃ cause, m.step.ending = .error (.fault cause) := by
  rcases h.step_ok_or_fault with ⟨effect, heffect⟩ | ⟨cause, hcause⟩
  · rw [step_of_state_ok heffect]
    exact Or.inl rfl
  · rw [step_of_state_error hcause]
    exact Or.inr ⟨cause, rfl⟩

theorem finish_ending_of_reachable (h : State.Reachable l cycles m.state) :
    m.finish.ending = .ok .halted := by
  obtain ⟨top, htop⟩ := h.exists_top
  rw [finish, htop]
  rfl

/-- A run from a reachable state says how it ended: it halts, faults or is not finished. -/
theorem exists_outcome_of_reachable (h : State.Reachable l cycles m.state) (fuel : Nat) :
    ∃ outcome, (m.run fuel).ending = .ok outcome := by
  induction fuel generalizing m cycles with
  | zero =>
    rw [run]
    split
    · exact ⟨.unfinished, rfl⟩
    · exact ⟨.halted, finish_ending_of_reachable h⟩
  | succ fuel ih =>
    by_cases hrunning : m.state.running = true
    · rcases step_ending_of_reachable h with hstep | ⟨cause, hstep⟩
      · -- The state after the cycle is reachable again, with one cycle more.
        rw [run_of_step_ok hrunning hstep]
        exact ih (reachable_step h)
      · refine ⟨.faulted cause, ?_⟩
        simp only [run, hrunning, hstep, if_true]
        rfl
    · rw [run, if_neg hrunning]
      exact ⟨.halted, finish_ending_of_reachable h⟩

/-- Nothing but faults happens in a reachable state. -/
theorem crashFree_of_reachable (h : State.Reachable l cycles m.state) : m.CrashFree where
  step := step_ending_of_reachable h
  run := exists_outcome_of_reachable h
  top := h.exists_top
  access _ _ := Memory.exists_word_of_admits
  point _ _ := State.point_le_of_step

end Machine

/-! ### Programs that crash -/

theorem ListMachine.isCrash_result {l : Layout} (a : ListMachine l) (maxSteps : Int) :
    (a.result maxSteps).isCrash = false := by
  unfold result
  split
  · rfl
  · split <;> rfl

namespace Trial

/-- A program crashes exactly when loading comes upon a value that is no machine word. -/
theorem isCrash_execute_iff (program : List Int) (maxSteps : Int) (l : Layout) :
    (execute program maxSteps l).isCrash = true ↔
      ∃ w, Memory.acceptance l l.instructionCapacity program = .error (.wordRange w) := by
  cases hloads : Memory.acceptance l l.instructionCapacity program with
  | ok u =>
    -- A program that loads runs on the list machine, which has no crash to offer.
    obtain ⟨is, haccepted, hlength⟩ := exists_accepted_eq_assemble l.instructionCapacity program
    rw [execute_of_accepted hloads haccepted hlength, ListMachine.isCrash_result]
    constructor
    · intro h
      cases h
    · rintro ⟨w, hw⟩
      cases hw
  | error e =>
    rw [execute_of_refused hloads]
    rcases Memory.acceptance_cases hloads with rfl | ⟨w, rfl⟩
    · refine ⟨nofun, ?_⟩
      rintro ⟨w, hw⟩
      cases hw
    · exact ⟨fun _ ↦ ⟨w, rfl⟩, fun _ ↦ rfl⟩

/-- **Crash freedom.** A trial crashes exactly when one of the words that loading looks at is no
machine word: the words there is room for, and one more. And whatever is asked of a machine,
nothing but faults happens afterwards. -/
theorem crash_freedom (l : Layout) :
    (∀ (program : List Int) (maxSteps : Int),
      (execute program maxSteps l).isCrash = true ↔
        ∃ i, ∃ h : i < program.length, i ≤ l.instructionCapacity ∧ ¬IsWord program[i]) ∧
      ∀ (sink : Sink) (journal : Journal) (requests : List Request),
        ((Machine.fresh l sink journal).serveAll requests).CrashFree := by
  refine ⟨fun program maxSteps ↦ ?_, fun sink journal requests ↦ ?_⟩
  · rw [isCrash_execute_iff, Memory.acceptance_eq_wordRange_iff]
  · exact Machine.crashFree_of_reachable
      (Machine.reachable_serveAll_fresh l sink journal requests)

end Trial

end TaggedStack
