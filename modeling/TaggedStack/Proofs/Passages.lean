import TaggedStack.Proofs.Compilation
import TaggedStack.Proofs.Lockstep

/-!
# Passages of a program

A *passage* leads from one place of a program to another: `ListMachine.Reaches` counts its cycles
and keeps what they print, one emission after another. Passages are put together in the order in
which they are made, so a loop is followed turn by turn, and the number of its cycles and its output
are those of the turns.

A passage that ends at a halt is the whole run of a machine with memory: the run stops in just that
many cycles, and its sink has received just that output.

* `ListMachine.Reaches.trans`: two passages are one.
* `ListMachine.step_moved_load`, `ListMachine.step_moved_stor`, `ListMachine.step_moved_jz` and
  others: the cycle of an operation whose operands are known.
* `ListMachine.Reaches.stopsIn`: a passage to a halt is a run.
* `Machine.exists_stopsIn_of_reaches`: the run of a program from its first instruction.
-/

namespace TaggedStack

namespace ListMachine

variable {l : Layout} {a b c : ListMachine l}

/-! ### Passages -/

/-- The machine makes `n` cycles, prints `output` in them and is then another machine. It runs
before each of the cycles. -/
inductive Reaches : ListMachine l → Nat → List Emission → ListMachine l → Prop
  | refl (a : ListMachine l) : Reaches a 0 [] a
  | cycle {a b c : ListMachine l} {emission : Option Emission} {n : Nat} {output : List Emission}
      (hrunning : a.running = true) (hstep : a.step = .ok (b, emission))
      (h : Reaches b n output c) : Reaches a (n + 1) (emission.toList ++ output) c

namespace Reaches

variable {n k : Nat} {output later : List Emission}

/-- A cycle that prints nothing, and a passage after it. -/
theorem silent (hrunning : a.running = true) (hstep : a.step = .ok (b, none))
    (h : b.Reaches n output c) : a.Reaches (n + 1) output c :=
  .cycle hrunning hstep h

/-- A cycle that prints, and a passage after it. -/
theorem printing {e : Emission} (hrunning : a.running = true) (hstep : a.step = .ok (b, some e))
    (h : b.Reaches n output c) : a.Reaches (n + 1) (e :: output) c :=
  .cycle hrunning hstep h

/-- Two passages are one. -/
theorem trans (h : a.Reaches n output b) (h' : b.Reaches k later c) :
    a.Reaches (n + k) (output ++ later) c := by
  induction h with
  | refl a =>
    rw [Nat.zero_add]
    exact h'
  | cycle hrunning hstep _ ih =>
    rw [Nat.add_right_comm, List.append_assoc]
    exact .cycle hrunning hstep (ih h')

end Reaches

/-! ### Single operations -/

variable {index : Nat}

/-- A difference takes the place of the two top operands. -/
theorem step_moved_sub {x y : Word} {rest : List Word}
    {h : (y :: x :: rest).length ≤ l.stackCapacity} (hi : a.program[index]? = some (.op .sub)) :
    (a.moved index (y :: x :: rest) h).step =
      .ok (a.moved (index + 1) (.wrap (x.val - y.val) :: rest) (Nat.le_of_succ_le h), none) := by
  rw [step_moved_op hi, perform]
  exact combining_moved (Nat.le_of_succ_le h)

/-- A duplication where there is room. -/
theorem step_moved_dup {v : Word} {rest : List Word} {h : (v :: rest).length ≤ l.stackCapacity}
    (hi : a.program[index]? = some (.op .dup)) (hroom : (v :: rest).length < l.stackCapacity) :
    (a.moved index (v :: rest) h).step =
      .ok (a.moved (index + 1) (v :: v :: rest) hroom, none) := by
  rw [step_moved_op hi]
  exact pushing_moved hroom

/-- A data word takes the place of its index. -/
theorem step_moved_load {i v : Word} {rest : List Word}
    {h : (i :: rest).length ≤ l.stackCapacity} (hi : a.program[index]? = some (.op .load))
    (hv : a.data[i.val.toNat]? = some v) :
    (a.moved index (i :: rest) h).step = .ok (a.moved (index + 1) (v :: rest) h, none) := by
  have hdata : (a.moved (index + 1) (i :: rest) h).dropTop.data[i.val.toNat]? = some v := hv
  rw [step_moved_op hi, perform, pop_of_cons rfl]
  simp only [bind, Except.bind, hdata]
  exact pushing_moved h

/-- The value below an index is stored there. -/
theorem step_moved_stor {i v : Word} {rest : List Word}
    {h : (i :: v :: rest).length ≤ l.stackCapacity} (hi : a.program[index]? = some (.op .stor))
    (hindex : i.val < l.dataSize) :
    (a.moved index (i :: v :: rest) h).step =
      .ok ((a.store i.val.toNat v).moved (index + 1) rest
        (Nat.le_of_succ_le (Nat.le_of_succ_le h)), none) := by
  rw [step_moved_op hi]
  exact if_pos hindex

/-- The top operand is printed as a number. -/
theorem step_moved_prn {v : Word} {rest : List Word} {h : (v :: rest).length ≤ l.stackCapacity}
    (hi : a.program[index]? = some (.op .prn)) :
    (a.moved index (v :: rest) h).step =
      .ok (a.moved (index + 1) rest (Nat.le_of_succ_le h), some (.text (Text.decimal v.val))) := by
  rw [step_moved_op hi]
  rfl

/-- The top operand is printed as a code point. -/
theorem step_moved_prnchar {v : Word} {rest : List Word}
    {h : (v :: rest).length ≤ l.stackCapacity} (hi : a.program[index]? = some (.op .prnchar)) :
    (a.moved index (v :: rest) h).step =
      .ok (a.moved (index + 1) rest (Nat.le_of_succ_le h), some (.point (.ofLowBits v.val))) := by
  rw [step_moved_op hi]
  rfl

theorem jumpTarget_moved {t : Word} {rest : List Word} {h : (t :: rest).length ≤ l.stackCapacity}
    (ht : t.val < l.instructionCapacity) :
    (a.moved index (t :: rest) h).jumpTarget =
      .ok (t.val.toNat, a.moved index rest (Nat.le_of_succ_le h)) :=
  if_pos ht

/-- A jump to an instruction goes on after it. -/
theorem step_moved_jmp {t : Word} {rest : List Word} {h : (t :: rest).length ≤ l.stackCapacity}
    (hi : a.program[index]? = some (.op .jmp)) (ht : t.val < l.instructionCapacity) :
    (a.moved index (t :: rest) h).step =
      .ok (a.moved (t.val.toNat + 1) rest (Nat.le_of_succ_le h), none) := by
  rw [step_moved_op hi, perform, jumpTarget_moved ht]
  rfl

/-- A conditional jump goes on after its target if the condition is zero, and else after itself. -/
theorem step_moved_jz {t condition : Word} {rest : List Word}
    {h : (t :: condition :: rest).length ≤ l.stackCapacity}
    (hi : a.program[index]? = some (.op .jz)) (ht : t.val < l.instructionCapacity) :
    (a.moved index (t :: condition :: rest) h).step =
      .ok (a.moved (if condition.val = 0 then t.val.toNat + 1 else index + 1) rest
        (Nat.le_of_succ_le (Nat.le_of_succ_le h)), none) := by
  have hrest : rest.length ≤ l.stackCapacity := Nat.le_of_succ_le (Nat.le_of_succ_le h)
  rw [step_moved_op hi, perform, jumpTarget_moved ht]
  show Except.ok (if condition.val = 0 then (a.moved (index + 1) rest hrest).jump t.val.toNat
    else a.moved (index + 1) rest hrest, none) = _
  split <;> rfl

/-- The machine after a halt. -/
def halted (a : ListMachine l) : ListMachine l := { a with running := false }

theorem step_moved_halt {operands : List Word} {h : operands.length ≤ l.stackCapacity}
    (hi : a.program[index]? = some (.op .halt)) :
    (a.moved index operands h).step = .ok ((a.moved (index + 1) operands h).halted, none) := by
  rw [step_moved_op hi]
  rfl

end ListMachine

/-! ### Runs with memory -/

namespace Machine

variable {m : Machine}

/-- A machine that no longer runs stops at once, if its stack can be read. -/
theorem stopsIn_zero {top : Option Int} (hstopped : m.state.running = false)
    (htop : m.state.top = .ok top) : m.StopsIn 0 .halted m.finish.after where
  unfinished fuel hfuel := absurd hfuel (Nat.not_lt_zero fuel)
  finished fuel _ := by
    have hfinish : m.finish = .succeed m.finish.after .halted := by
      rw [finish, htop]
      rfl
    cases fuel with
    | zero => rwa [run, hstopped]
    | succ fuel => rwa [run, hstopped]

/-- A run has one cycle more than the rest of it after its first cycle. -/
theorem StopsIn.of_step {n : Nat} {outcome : Outcome} {last : Machine}
    (hrunning : m.state.running = true) (hstep : m.step.ending = .ok ())
    (h : m.step.after.StopsIn n outcome last) : m.StopsIn (n + 1) outcome last where
  unfinished fuel hfuel := by
    cases fuel with
    | zero => rw [run, if_pos hrunning]; rfl
    | succ fuel =>
      rw [run_of_step_ok hrunning hstep]
      exact h.unfinished fuel (Nat.lt_of_succ_lt_succ hfuel)
  finished fuel hfuel := by
    obtain ⟨fuel, rfl⟩ : ∃ rest, fuel = rest + 1 := ⟨fuel - 1, by omega⟩
    rw [run_of_step_ok hrunning hstep]
    exact h.finished fuel (Nat.le_of_succ_le_succ hfuel)

end Machine

namespace ListMachine

variable {l : Layout} {a b : ListMachine l} {m : Machine}

/-- A cycle of the description that goes through is a cycle of the machine. -/
theorem Describes.step_ok (h : a.Describes m.state) {emission : Option Emission}
    (hstep : a.step = .ok (b, emission)) :
    m.step.ending = .ok () ∧ b.Describes m.step.after.state ∧
      m.step.after.sink = emission.toList.foldl Sink.emit m.sink := by
  have hagree := h.step
  rw [hstep] at hagree
  cases heffect : m.state.step with
  | error e =>
    rw [heffect] at hagree
    cases hagree
  | ok effect =>
    rw [heffect] at hagree
    obtain ⟨hdescribes, houtput⟩ : b.Describes effect.state ∧ effect.output = emission := by
      cases hagree with
      | ok h => exact h
    rw [Machine.step_of_state_ok heffect]
    refine ⟨rfl, ?_, ?_⟩
    · show b.Describes ((m.recordTrace State.stepEvent).accept effect).state
      rwa [Machine.state_accept]
    · show ((m.recordTrace State.stepEvent).accept effect).sink = _
      rw [Machine.sink_accept, Machine.sink_recordTrace, houtput]
      cases emission <;> rfl

/-- **A passage to a halt is a run.** It stops in as many cycles as the passage has, at a machine
that is described by the end of the passage, and what it printed is what the passage prints. -/
theorem Reaches.stopsIn {n : Nat} {output : List Emission} (h : a.Reaches n output b)
    (hstopped : b.running = false) (hm : a.Describes m.state) :
    ∃ last, m.StopsIn n .halted last ∧ b.Describes last.state ∧
      last.sink = output.foldl Sink.emit m.sink := by
  induction h generalizing m with
  | refl a =>
    refine ⟨m.finish.after, Machine.stopsIn_zero (hm.running_eq.trans hstopped) hm.top, ?_, ?_⟩
    · rwa [Machine.state_after_finish]
    · exact Machine.sink_after_finish m
  | cycle hrunning hstep _ ih =>
    obtain ⟨hending, hnext, hsink⟩ := hm.step_ok hstep
    obtain ⟨last, hlast, hdescribes, hprinted⟩ := ih hstopped hnext
    refine ⟨last, .of_step (hm.running_eq.trans hrunning) hending hlast, hdescribes, ?_⟩
    rw [hprinted, hsink, List.foldl_append]

end ListMachine

namespace Machine

variable {l : Layout} {program : List Instr}

/-- The run of a program is the passage from its first instruction to a halt. -/
theorem exists_stopsIn_of_reaches (hlength : program.length ≤ l.instructionCapacity) {n : Nat}
    {output : List Emission} {b : ListMachine l}
    (h : ((ListMachine.blank l).loaded program hlength).Reaches n output b)
    (hstopped : b.running = false) (sink : Sink) (journal : Journal) :
    let loaded := (fresh l sink journal).load (assemble program)
    loaded.ending = .ok program.length ∧
      ∃ last, loaded.after.StopsIn n .halted last ∧ b.Describes last.state ∧
        last.sink = output.foldl Sink.emit sink := by
  intro loaded
  have hwords : ∀ w ∈ assemble program, IsWord w := fun w hw ↦ isWord_of_mem_assemble hw
  have hroom : (assemble program).length ≤ l.instructionCapacity := by rwa [length_assemble]
  have hmemory : ((State.initial l).memory.load (assemble program)).ending = .ok () := by
    rw [Memory.load_eq]
    exact Memory.acceptance_eq_ok hroom hwords
  have hdescribes : ((ListMachine.blank l).loaded program hlength).Describes loaded.after.state :=
    ListMachine.describes_load_fresh (Memory.accepted_eq_self hroom hwords) hlength sink journal
  have hsink : loaded.after.sink = sink := sink_after_load _ _
  refine ⟨?_, ?_⟩
  · rw [ending_load, ← length_assemble]
    show ((State.initial l).memory.load (assemble program)).ending.map _ = _
    rw [hmemory]
    rfl
  · rw [← hsink]
    exact h.stopsIn hstopped hdescribes

end Machine

/-- What a buffer holds after a list of emissions. -/
theorem Sink.foldl_emit_buffer (output : List Emission) (chunks : Array Text) :
    output.foldl Sink.emit (.buffer chunks) =
      .buffer (chunks ++ (output.map Emission.toText).toArray) := by
  induction output generalizing chunks with
  | nil => simp
  | cons e output ih =>
    rw [List.foldl_cons, Sink.emit, ih]
    simp

end TaggedStack
