import TaggedStack.Proofs.Refinement
import TaggedStack.Proofs.Requests
import TaggedStack.Trial

/-!
# Trials on the list machine

The result of a trial can be read off the list machine: load the program there, make as many cycles
as the budget allows, and say how it ended. Whatever is proved about runs of the list machine
becomes a statement about trials this way, without memory or addresses.

* `ListMachine.Describes.stepUpTo`: a budgeted run of both machines agrees, output included.
* `Trial.execute_of_accepted`: the result of a program that loads is that of the list machine.
* `Trial.execute_of_refused`: a program that does not load fails as loading does.
-/

namespace TaggedStack

/-! ### What a buffer holds -/

/-- The code points of what an operation printed, if it printed anything. -/
def printed : Option Emission → Text
  | some e => e.toText
  | none => []

/-- A sink that is a buffer and holds a text. -/
def Sink.Buffers (s : Sink) (t : Text) : Prop :=
  ∃ chunks : Array Text, s = .buffer chunks ∧ (Sink.buffer chunks).text = t

theorem Sink.buffers_emptyBuffer : Sink.emptyBuffer.Buffers [] := ⟨#[], rfl, rfl⟩

theorem Sink.Buffers.text_eq {s : Sink} {t : Text} (h : s.Buffers t) : s.text = t := by
  obtain ⟨chunks, rfl, rfl⟩ := h
  rfl

theorem Sink.Buffers.emit {s : Sink} {t : Text} (h : s.Buffers t) (e : Emission) :
    (s.emit e).Buffers (t ++ e.toText) := by
  obtain ⟨chunks, rfl, rfl⟩ := h
  exact ⟨chunks.push e.toText, rfl, Sink.text_emit_buffer chunks e⟩

namespace Machine

/-- What an accepted effect leaves in a buffer. -/
theorem buffers_accept {m : Machine} {t : Text} (h : m.sink.Buffers t) (effect : Effect) :
    (m.accept effect).sink.Buffers (t ++ printed effect.output) := by
  obtain ⟨state, _ | e⟩ := effect
  · rw [printed, List.append_nil]
    exact h
  · exact h.emit e

theorem load_of_ok {m : Machine} {program : List Int}
    (h : (m.state.memory.load program).ending = .ok ()) :
    m.load program =
      .succeed
        ({ m with state := { m.state with memory := (m.state.memory.load program).after } }.record
          (.loaded program.length m.state.layout.instructionBase)) program.length := by
  rw [load, h]

theorem load_of_error {m : Machine} {program : List Int} {e : Failure}
    (h : (m.state.memory.load program).ending = .error e) :
    m.load program =
      .fail { m with state := { m.state with memory := (m.state.memory.load program).after } }
        e := by
  rw [load, h]

/-- A budgeted run is one cycle and the rest of the run, while the machine runs. -/
theorem toExcept_stepUpTo_succ (n : Nat) (m : Machine) :
    (stepUpTo (n + 1) m).toExcept =
      if m.state.running then m.step.toExcept >>= fun next ↦ (stepUpTo n next).toExcept
      else .ok m := by
  rw [stepUpTo]
  split
  · cases hstep : m.step.ending with
    | ok u => simp only [Attempt.toExcept, hstep, bind, Except.bind]
    | error e => simp only [Attempt.toExcept, hstep, bind, Except.bind, Attempt.fail]
  · rfl

end Machine

namespace ListMachine

variable {l : Layout}

/-! ### Budgeted runs -/

/-- At most `n` cycles: stops early when the machine no longer runs, or at a fault. Gives the
machine afterwards and all that was printed. -/
def stepUpTo : (n : Nat) → ListMachine l → Except Fault (ListMachine l × Text)
  | 0, a => .ok (a, [])
  | n + 1, a =>
    if a.running then do
      let (b, output) ← a.step
      let (c, later) ← stepUpTo n b
      return (c, printed output ++ later)
    else .ok (a, [])

/-- The result of a trial of at most `maxSteps` cycles. -/
def result (a : ListMachine l) (maxSteps : Int) : Result :=
  match stepUpTo maxSteps.toNat a with
  | .error cause => .fault cause.kind
  | .ok (b, output) =>
    if b.running then .timeout maxSteps
    else .success output (b.operands.head?.map Subtype.val)

variable {a : ListMachine l} {m : Machine}

/-- One cycle of a machine that prints to a buffer agrees. -/
theorem Describes.stepMachine (h : a.Describes m.state) {t : Text} (ht : m.sink.Buffers t) :
    Agree (fun (next : Machine) (r : ListMachine l × Option Emission) ↦
        r.1.Describes next.state ∧ next.sink.Buffers (t ++ printed r.2))
      m.step.toExcept a.step := by
  have hstep := h.step
  cases heffect : m.state.step with
  | ok effect =>
    rw [heffect] at hstep
    rw [Machine.step_of_state_ok heffect, Attempt.toExcept_succeed]
    generalize a.step = r at hstep ⊢
    cases hstep with
    | ok hmatches =>
      obtain ⟨hdescribes, houtput⟩ := hmatches
      refine .ok ⟨?_, ?_⟩
      · rw [Machine.state_accept]
        exact hdescribes
      · rw [← houtput]
        refine Machine.buffers_accept ?_ effect
        rw [Machine.sink_recordTrace]
        exact ht
  | error e =>
    rw [heffect] at hstep
    rw [Machine.step_of_state_error heffect, Attempt.toExcept_fail]
    generalize a.step = r at hstep ⊢
    cases hstep with
    | fault cause => exact .fault cause

/-- A budgeted run of a machine that prints to a buffer agrees. -/
theorem Describes.stepUpTo (h : a.Describes m.state) {t : Text} (ht : m.sink.Buffers t) (n : Nat) :
    Agree (fun (last : Machine) (r : ListMachine l × Text) ↦
        r.1.Describes last.state ∧ last.sink.Buffers (t ++ r.2))
      (Machine.stepUpTo n m).toExcept (ListMachine.stepUpTo n a) := by
  induction n generalizing a m t with
  | zero => exact .ok ⟨h, by rw [List.append_nil]; exact ht⟩
  | succ n ih =>
    rw [Machine.toExcept_stepUpTo_succ, h.running_eq, ListMachine.stepUpTo]
    refine .ite Iff.rfl (fun _ ↦ ?_) fun _ ↦ .ok ⟨h, by rw [List.append_nil]; exact ht⟩
    -- What the first cycle printed is in the buffer already when the rest of the run begins.
    refine (h.stepMachine ht).bind ?_
    rintro next ⟨b, output⟩ ⟨hb, hnext⟩
    generalize hrest : (Machine.stepUpTo n next).toExcept = rest
    have hagree := ih hb hnext
    rw [hrest] at hagree
    dsimp only
    generalize ListMachine.stepUpTo n b = later at hagree ⊢
    cases hagree with
    | ok hlast => exact .ok ⟨hlast.1, by rw [← List.append_assoc]; exact hlast.2⟩
    | fault cause => exact .fault cause

/-- The top of the stack is the top operand, and can always be read. -/
theorem Describes.top {s : State} (h : a.Describes s) :
    s.top = .ok (a.operands.head?.map Subtype.val) := by
  unfold State.top
  cases hoperands : a.operands with
  | nil =>
    rw [if_pos (by rw [h.sp_eq, hoperands]; rfl)]
    rfl
  | cons v rest =>
    have hsp : s.sp ≠ 0 := by
      rw [h.sp_eq, hoperands, List.length_cons]
      omega
    have hpeek := h.peek
    rw [pop_of_cons hoperands] at hpeek
    rw [if_neg hsp]
    generalize s.stack.peek = value at hpeek ⊢
    cases hpeek with
    | ok hvalue =>
      rw [hvalue]
      rfl

/-- The description of a fresh machine after a load, also after one that breaks off. -/
theorem describes_load_fresh {words : List Int} {program : List Instr}
    (hwords : Memory.accepted l.instructionCapacity words = assemble program)
    (hlength : program.length ≤ l.instructionCapacity) (sink : Sink) (journal : Journal) :
    ((blank l).loaded program hlength).Describes
      ((Machine.fresh l sink journal).load words).after.state := by
  rw [Machine.state_after_load]
  exact (describes_initial l).load hwords hlength

end ListMachine

/-! ### Results -/

namespace Trial

variable {l : Layout}

theorem executeLoaded_eq (m : Machine) (maxSteps : Int) :
    (executeLoaded m maxSteps).1 =
      match (m.stepUpTo maxSteps.toNat).toExcept with
      | .error e => .ofFailure e
      | .ok last => conclude last maxSteps := by
  unfold executeLoaded Attempt.toExcept
  dsimp only
  cases (m.stepUpTo maxSteps.toNat).ending <;> rfl

/-- The result of a loaded machine is that of the list machine. -/
theorem executeLoaded_of_describes {a : ListMachine l} {m : Machine} (h : a.Describes m.state)
    (hsink : m.sink.Buffers []) (maxSteps : Int) :
    (executeLoaded m maxSteps).1 = a.result maxSteps := by
  have hagree := h.stepUpTo hsink maxSteps.toNat
  rw [executeLoaded_eq, ListMachine.result]
  generalize (m.stepUpTo maxSteps.toNat).toExcept = concrete at hagree ⊢
  generalize a.stepUpTo maxSteps.toNat = abstract at hagree ⊢
  cases hagree with
  | fault cause => rfl
  | ok hlast =>
    obtain ⟨hdescribes, hbuffers⟩ := hlast
    dsimp only
    rw [conclude, hdescribes.running_eq, hdescribes.top, hbuffers.text_eq]
    rfl

/-- The result of a program that loads is that of the list machine it is loaded into. -/
theorem execute_of_accepted {words : List Int} {program : List Instr}
    (hloads : Memory.acceptance l l.instructionCapacity words = .ok ())
    (hwords : Memory.accepted l.instructionCapacity words = assemble program)
    (hlength : program.length ≤ l.instructionCapacity) (maxSteps : Int) :
    execute words maxSteps l = ((ListMachine.blank l).loaded program hlength).result maxSteps := by
  have hending : ((State.initial l).memory.load words).ending = .ok () := by
    rw [Memory.load_eq]
    exact hloads
  have hload := Machine.load_of_ok (m := .fresh l .emptyBuffer .silent) hending
  unfold execute executeWith
  dsimp only
  rw [hload]
  exact executeLoaded_of_describes ((ListMachine.describes_initial l).load hwords hlength)
    Sink.buffers_emptyBuffer maxSteps

/-- A program that does not load fails as loading does, whatever the budget. -/
theorem execute_of_refused {words : List Int} {e : Failure}
    (hrefused : Memory.acceptance l l.instructionCapacity words = .error e) (maxSteps : Int) :
    execute words maxSteps l = .ofFailure e := by
  have hending : ((State.initial l).memory.load words).ending = .error e := by
    rw [Memory.load_eq]
    exact hrefused
  have hload := Machine.load_of_error (m := .fresh l .emptyBuffer .silent) hending
  unfold execute executeWith
  dsimp only
  rw [hload]
  rfl

end Trial

end TaggedStack
