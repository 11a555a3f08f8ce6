import TaggedStack.Proofs.InPlace
import TaggedStack.Proofs.Lockstep

/-!
# A faulting cycle has no effect

Whatever a cycle did before it faulted, nothing of it is left: the machine keeps the state from
before the cycle, and nothing was printed. So a run that faults leaves the state and the output of
the cycles it completed, and asking the machine again only gives the same fault.

* `Machine.step_eq_stepOnCopy`: a cycle is a cycle in place on a copy of the state, which is dropped
  when the cycle fails.
* `Machine.goesOn_of_run_faulted`: the cycles of a run that faulted.
* `Machine.fault_has_no_effect`: all of this, for every machine.
-/

namespace TaggedStack.Machine

variable {m : Machine}

/-! ### Cycles on a copy -/

/-- A cycle in place on a copy of the state. The copy is kept if the cycle goes through, and
dropped otherwise; the sink is no copy, and what was printed stays. -/
def stepOnCopy (m : Machine) : Attempt Machine Failure Unit :=
  match InPlace.step ⟨m.state, m.state.sp, m.sink⟩ with
  | .ok _ w => .succeed { m with state := w.state, sink := w.sink } ()
  | .error e w => .fail { m with sink := w.sink } e

/-- Two machines in the same state, with the same output. Their journals may differ. -/
def Unchanged (before after : Machine) : Prop :=
  after.state = before.state ∧ after.sink = before.sink

/-- A cycle ends as a cycle on a copy does, and leaves the same. -/
theorem step_eq_stepOnCopy (m : Machine) :
    m.step.ending = m.stepOnCopy.ending ∧ m.stepOnCopy.after.Unchanged m.step.after := by
  have hstep : InPlace.CarriesOut m.sink _ m.state.step
    (InPlace.step ⟨m.state, m.state.sp, m.sink⟩) := InPlace.step_carriesOut
  unfold stepOnCopy
  generalize InPlace.step ⟨m.state, m.state.sp, m.sink⟩ = result at hstep ⊢
  cases heffect : m.state.step with
  | ok effect =>
    rw [heffect] at hstep
    rw [step_of_state_ok heffect]
    cases hstep with
    | ok h =>
      refine ⟨rfl, (state_accept _ effect).trans h.1, ?_⟩
      show ((m.recordTrace _).accept effect).sink = _
      rw [sink_accept, sink_recordTrace]
      exact h.2.symm
  | error e =>
    rw [heffect] at hstep
    rw [step_of_state_error heffect]
    cases hstep with
    | error _ h => exact ⟨rfl, state_recordTrace m _, (sink_recordTrace m _).trans h.symm⟩

/-! ### Runs that faulted -/

theorem finish_ne_faulted (m : Machine) (cause : Fault) :
    m.finish.ending ≠ .ok (.faulted cause) := by
  unfold finish
  split <;> simp [Attempt.succeed, Attempt.fail]

/-- The cycles of a run that faulted: those it counts go on, and the one after them faults. -/
theorem goesOn_of_run_faulted {fuel : Nat} {cause : Fault}
    (h : (m.run fuel).ending = .ok (.faulted cause)) :
    m.state.running = true ∧ (∀ i < m.runCycles fuel, (m.afterCycles i).GoesOn) ∧
      (m.afterCycles (m.runCycles fuel)).step.ending = .error (.fault cause) := by
  induction fuel generalizing m with
  | zero =>
    rw [run] at h
    split at h
    · cases h
    · exact absurd h (m.finish_ne_faulted cause)
  | succ fuel ih =>
    by_cases hrunning : m.state.running = true
    · refine ⟨hrunning, ?_⟩
      cases hstep : m.step.ending with
      | ok u =>
        rw [run_of_step_ok hrunning hstep] at h
        obtain ⟨hnext, hgoes, hfault⟩ := ih h
        have hcycles : m.runCycles (fuel + 1) = runCycles fuel m.step.after + 1 := by
          simp only [runCycles, hrunning, hstep, if_true]
        rw [hcycles]
        refine ⟨?_, hfault⟩
        rintro (_ | i) hi
        · exact ⟨hstep, hnext⟩
        · exact hgoes i (Nat.lt_of_succ_lt_succ hi)
      | error e =>
        have hcycles : m.runCycles (fuel + 1) = 0 := by
          simp only [runCycles, hrunning, hstep, if_true]
        rw [hcycles]
        refine ⟨fun i hi ↦ absurd hi (Nat.not_lt_zero i), ?_⟩
        simp only [run, hrunning, hstep, if_true] at h
        cases e with
        | fault c =>
          cases h
          exact hstep
        | wordRange v => cases h
        | digits cause => cases h
    · rw [run, if_neg hrunning] at h
      exact absurd h (m.finish_ne_faulted cause)

/-- A machine whose next cycle faults stops there again and again. -/
theorem stopsIn_one_of_faulting {cause : Fault} (hrunning : m.state.running = true)
    (hstep : m.step.ending = .error (.fault cause)) :
    ∃ again, m.StopsIn 1 (.faulted cause) again ∧ m.Unchanged again := by
  refine ⟨_, stopsIn_of_goesOn (n := 0) hrunning ?_ (run_of_faulting hrunning hstep), ?_⟩
  · exact fun i hi ↦ absurd hi (Nat.not_lt_zero i)
  · exact step_of_error hstep

/-- **A faulting cycle has no effect.** It leaves state and sink as they were: in place it would
have changed a copy of the state, but it has printed nothing. A run that faulted leaves the state
and the output of the cycles it completed, and one more cycle, or one more run, gives the same fault
and changes neither. -/
theorem fault_has_no_effect (m : Machine) :
    (∀ cause, m.step.ending = .error (.fault cause) →
      m.Unchanged m.step.after ∧ m.stepOnCopy.ending = .error (.fault cause) ∧
        m.Unchanged m.stepOnCopy.after) ∧
      ∀ fuel cause, (m.run fuel).ending = .ok (.faulted cause) →
        let completed := m.runCycles fuel
        let last := (m.run fuel).after
        (∀ i < completed, (m.afterCycles i).step.ending = .ok ()) ∧
          (m.afterCycles completed).Unchanged last ∧
          last.step.ending = .error (.fault cause) ∧ last.Unchanged last.step.after ∧
          ∃ again, last.StopsIn 1 (.faulted cause) again ∧ last.Unchanged again := by
  refine ⟨fun cause hstep ↦ ?_, fun fuel cause hrun ↦ ?_⟩
  · obtain ⟨hending, hstate, hsink⟩ := m.step_eq_stepOnCopy
    have hsame := step_of_error hstep
    exact ⟨hsame, hending.symm.trans hstep, hstate.symm.trans hsame.1, hsink.symm.trans hsame.2⟩
  · intro completed last
    obtain ⟨hrunning, hgoes, hfault⟩ := goesOn_of_run_faulted hrun
    have hlast : (m.afterCycles completed).Unchanged last := m.after_run fuel
    have hstep : last.step.ending = .error (.fault cause) := by
      have hpaired : Paired (· = ·) (m.afterCycles completed) last := ⟨hlast.1.symm, hlast.2⟩
      exact (hpaired.step State.bisimulation_eq).1.trans hfault
    have hlastRunning : last.state.running = true := by
      rw [hlast.1]
      exact running_afterCycles hrunning hgoes
    exact ⟨fun i hi ↦ (hgoes i hi).1, hlast, hstep, step_of_error hstep,
      stopsIn_one_of_faulting hlastRunning hstep⟩

/-- A program that prints five and divides one by zero: its fifth cycle faults after two operands
were popped, and faults again when it is made a second time. -/
theorem fault_has_no_effect_div :
    let l : Layout := ⟨8, 3, 8, by decide, by decide, by decide⟩
    let words : List Int := [5, 0x40000008, 1, 0, 0x40000004]
    let m := ((fresh l .emptyBuffer .silent).load words).after
    let last := (m.run 9).after
    ((m.afterCycles 4).step.ending = .error (.fault .divisionByZero) ∧
      (m.afterCycles 4).Unchanged (m.afterCycles 4).step.after) ∧
      (m.run 9).ending = .ok (.faulted .divisionByZero) ∧
      (m.afterCycles (m.runCycles 9)).Unchanged last ∧
      last.step.ending = .error (.fault .divisionByZero) ∧
      ∃ again, last.StopsIn 1 (.faulted .divisionByZero) again ∧ last.Unchanged again := by
  intro l words m last
  have hstep : (m.afterCycles 4).step.ending = .error (.fault .divisionByZero) := by decide
  have hrun : (m.run 9).ending = .ok (.faulted .divisionByZero) := by decide
  obtain ⟨-, hlast, hagain, -, hstops⟩ := (fault_has_no_effect m).2 9 _ hrun
  exact ⟨⟨hstep, ((fault_has_no_effect (m.afterCycles 4)).1 _ hstep).1⟩, hrun, hlast, hagain,
    hstops⟩

end TaggedStack.Machine
