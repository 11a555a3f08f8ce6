import Mathlib.Data.Nat.Find
import Mathlib.Logic.Function.Iterate
import TaggedStack.Proofs.CrashFreedom

/-!
# Cycle after cycle

A run is nothing but cycles, so what can be said of it is said cycle by cycle. `Machine.afterCycles`
is the machine after a number of single cycles. As long as the machine *goes on*, a run and a
budgeted run of it are at that machine when as many cycles are used up; the first cycle after which
it does not go on is the one in which both stop.

* `Machine.run_of_goesOn`, `Machine.stepUpTo_of_goesOn`: what is left of a run after cycles that go
  on.
* `Machine.StopsIn`, `Machine.NeverStops`: when a run stops, however many cycles it is allowed.
* `Machine.after_run`: a run leaves the state and the output of the cycles that went through.
-/

namespace TaggedStack.Machine

variable {m : Machine}

/-! ### Single cycles, one after another -/

/-- The machine after `n` cycles. A cycle that fails counts, and leaves state and sink alone. -/
def afterCycles (m : Machine) (n : Nat) : Machine := (fun m : Machine ↦ m.step.after)^[n] m

@[simp]
theorem afterCycles_zero (m : Machine) : m.afterCycles 0 = m := rfl

/-- The first of several cycles. -/
theorem afterCycles_succ (m : Machine) (n : Nat) :
    m.afterCycles (n + 1) = m.step.after.afterCycles n := rfl

/-- The last of several cycles. -/
theorem afterCycles_succ_last (m : Machine) (n : Nat) :
    m.afterCycles (n + 1) = (m.afterCycles n).step.after :=
  Function.iterate_succ_apply' _ n m

/-- Cycles lead from reachable states to reachable states. -/
theorem reachable_afterCycles {l : Layout} {cycles : Nat}
    (h : State.Reachable l cycles m.state) (n : Nat) :
    ∃ cycles', State.Reachable l cycles' (m.afterCycles n).state := by
  induction n generalizing m cycles with
  | zero => exact ⟨cycles, h⟩
  | succ n ih => exact ih (reachable_step h)

/-! ### Going on -/

/-- The next cycle goes through, and the machine runs on after it. -/
def GoesOn (m : Machine) : Prop :=
  m.step.ending = .ok () ∧ m.step.after.state.running = true

instance (m : Machine) : Decidable m.GoesOn := inferInstanceAs (Decidable (_ ∧ _))

theorem running_afterCycles {n : Nat} (hrunning : m.state.running = true)
    (h : ∀ i < n, (m.afterCycles i).GoesOn) : (m.afterCycles n).state.running = true := by
  cases n with
  | zero => exact hrunning
  | succ n =>
    rw [afterCycles_succ_last]
    exact (h n (Nat.lt_succ_self n)).2

/-- What is said of all cycles is said of those after the first. -/
theorem goesOn_after_step {n : Nat} (h : ∀ i < n + 1, (m.afterCycles i).GoesOn) :
    ∀ i < n, (m.step.after.afterCycles i).GoesOn := by
  intro i hi
  exact h (i + 1) (Nat.succ_lt_succ hi)

/-- A run uses up one cycle for each that goes on. -/
theorem run_of_goesOn {n : Nat} (hrunning : m.state.running = true)
    (h : ∀ i < n, (m.afterCycles i).GoesOn) (fuel : Nat) :
    run (n + fuel) m = run fuel (m.afterCycles n) := by
  induction n generalizing m with
  | zero => rw [Nat.zero_add, afterCycles_zero]
  | succ n ih =>
    have hfirst : m.GoesOn := h 0 (Nat.zero_lt_succ n)
    rw [Nat.add_right_comm, run_of_step_ok hrunning hfirst.1, afterCycles_succ]
    exact ih hfirst.2 (goesOn_after_step h)

/-- A budgeted run uses up one cycle for each that goes on. -/
theorem stepUpTo_of_goesOn {n : Nat} (hrunning : m.state.running = true)
    (h : ∀ i < n, (m.afterCycles i).GoesOn) (budget : Nat) :
    stepUpTo (n + budget) m = stepUpTo budget (m.afterCycles n) := by
  induction n generalizing m with
  | zero => rw [Nat.zero_add, afterCycles_zero]
  | succ n ih =>
    have hfirst : m.GoesOn := h 0 (Nat.zero_lt_succ n)
    rw [Nat.add_right_comm, afterCycles_succ, ← ih hfirst.2 (goesOn_after_step h)]
    simp only [stepUpTo, hrunning, hfirst.1, if_true]

/-- A run whose cycles go on to the last one allowed is not finished. -/
theorem run_of_goesOn_to_end {n : Nat} (hrunning : m.state.running = true)
    (h : ∀ i < n, (m.afterCycles i).GoesOn) :
    run n m = .succeed (m.afterCycles n) .unfinished := by
  have hrun := run_of_goesOn hrunning h 0
  rw [Nat.add_zero] at hrun
  rw [hrun, run, if_pos (running_afterCycles hrunning h)]

/-! ### Stopping -/

/-- However many cycles are allowed, a run is not finished. -/
def NeverStops (m : Machine) : Prop := ∀ fuel, (m.run fuel).ending = .ok .unfinished

/-- A run stops in its `k`-th cycle: it is not finished when fewer cycles are allowed, and from then
on more of them make no difference. -/
structure StopsIn (m : Machine) (k : Nat) (outcome : Outcome) (last : Machine) : Prop where
  unfinished : ∀ fuel < k, (m.run fuel).ending = .ok .unfinished
  finished : ∀ fuel, k ≤ fuel → m.run fuel = .succeed last outcome

/-- A run stops in one way only. -/
theorem StopsIn.unique {k k' : Nat} {outcome outcome' : Outcome} {last last' : Machine}
    (h : m.StopsIn k outcome last) (h' : m.StopsIn k' outcome' last') :
    outcome' = outcome ∧ last' = last := by
  have hrun := h.finished _ (Nat.le_max_left k k')
  rw [h'.finished _ (Nat.le_max_right k k')] at hrun
  cases hrun
  exact ⟨rfl, rfl⟩

/-- More cycles make no difference to a run that is finished. -/
theorem run_add_of_finished {n : Nat} (h : (m.run n).ending ≠ .ok .unfinished) (more : Nat) :
    m.run (n + more) = m.run n := by
  induction n generalizing m with
  | zero =>
    by_cases hrunning : m.state.running = true
    · rw [run, if_pos hrunning] at h
      exact absurd rfl h
    · cases more <;> simp only [run, hrunning, Bool.false_eq_true, if_false]
  | succ n ih =>
    rw [Nat.add_right_comm]
    by_cases hrunning : m.state.running = true
    · cases hstep : m.step.ending with
      | ok u =>
        rw [run_of_step_ok hrunning hstep] at h ⊢
        rw [run_of_step_ok hrunning hstep]
        exact ih h
      | error e =>
        simp only [run, hrunning, hstep, if_true]
        cases e <;> rfl
    · simp only [run, hrunning, Bool.false_eq_true, if_false]

theorem neverStops_of_goesOn (hrunning : m.state.running = true)
    (h : ∀ i, (m.afterCycles i).GoesOn) : m.NeverStops := by
  intro fuel
  rw [run_of_goesOn_to_end hrunning fun i _ ↦ h i]
  rfl

/-- A run stops in the first cycle after which the machine does not go on. -/
theorem stopsIn_of_goesOn {n : Nat} {outcome : Outcome} {last : Machine}
    (hrunning : m.state.running = true) (h : ∀ i < n, (m.afterCycles i).GoesOn)
    (hlast : ∀ fuel, run (fuel + 1) (m.afterCycles n) = .succeed last outcome) :
    m.StopsIn (n + 1) outcome last where
  unfinished fuel hfuel := by
    rw [run_of_goesOn_to_end hrunning fun i hi ↦ h i (by omega)]
    rfl
  finished fuel hfuel := by
    obtain ⟨rest, rfl⟩ : ∃ rest, fuel = n + (rest + 1) := ⟨fuel - n - 1, by omega⟩
    rw [run_of_goesOn hrunning h]
    exact hlast rest

/-- Cycles made one by one before a run are cycles the run need not make. -/
theorem StopsIn.afterCycles {k j : Nat} {outcome : Outcome} {last : Machine}
    (h : m.StopsIn k outcome last) (hrunning : m.state.running = true)
    (hgoes : ∀ i < j, (m.afterCycles i).GoesOn) :
    (m.afterCycles j).StopsIn (k - j) outcome last where
  unfinished fuel hfuel := by
    rw [← run_of_goesOn hrunning hgoes]
    exact h.unfinished _ (by omega)
  finished fuel hfuel := by
    rw [← run_of_goesOn hrunning hgoes]
    exact h.finished _ (by omega)

/-- A machine goes on forever, or there is a first cycle after which it does not. -/
theorem goesOn_or_exists_first (m : Machine) :
    (∀ i, (m.afterCycles i).GoesOn) ∨
      ∃ n, (∀ i < n, (m.afterCycles i).GoesOn) ∧ ¬(m.afterCycles n).GoesOn := by
  by_cases h : ∃ n, ¬(m.afterCycles n).GoesOn
  · right
    refine ⟨Nat.find h, fun i hi ↦ ?_, Nat.find_spec h⟩
    exact not_not.1 (Nat.find_min h hi)
  · left
    exact not_exists_not.1 h

/-! ### The last cycle -/

/-- A run of which the next cycle halts the machine reports the final stack and memory. -/
theorem run_of_halting (hrunning : m.state.running = true) (hstep : m.step.ending = .ok ())
    (hstopped : m.step.after.state.running = false) (fuel : Nat) :
    run (fuel + 1) m = m.step.after.finish := by
  rw [run_of_step_ok hrunning hstep]
  cases fuel <;> simp only [run, hstopped, Bool.false_eq_true, if_false]

theorem stepUpTo_of_halting (hrunning : m.state.running = true) (hstep : m.step.ending = .ok ())
    (hstopped : m.step.after.state.running = false) (budget : Nat) :
    stepUpTo (budget + 1) m = .succeed m.step.after () := by
  simp only [stepUpTo, hrunning, hstep, if_true]
  cases budget <;> simp only [stepUpTo, hstopped, Bool.false_eq_true, if_false]

/-- A run of which the next cycle faults reports the fault, and where it happened. -/
theorem run_of_faulting {cause : Fault} (hrunning : m.state.running = true)
    (hstep : m.step.ending = .error (.fault cause)) (fuel : Nat) :
    run (fuel + 1) m =
      .succeed
        (m.step.after.record
          (.faulted (m.step.after.state.ip + 1 - m.step.after.state.layout.instructionBase) cause))
        (.faulted cause) := by
  simp only [run, hrunning, hstep, if_true]

theorem stepUpTo_of_faulting {cause : Fault} (hrunning : m.state.running = true)
    (hstep : m.step.ending = .error (.fault cause)) (budget : Nat) :
    stepUpTo (budget + 1) m = .fail m.step.after (.fault cause) := by
  simp only [stepUpTo, hrunning, hstep, if_true]

/-! ### What a run leaves behind -/

theorem sink_after_finish (m : Machine) : m.finish.after.sink = m.sink := by
  unfold finish
  split <;> rfl

/-- A run leaves the state and the output of the cycles that went through. -/
theorem after_run (m : Machine) (fuel : Nat) :
    (m.run fuel).after.state = (m.afterCycles (m.runCycles fuel)).state ∧
      (m.run fuel).after.sink = (m.afterCycles (m.runCycles fuel)).sink := by
  induction fuel generalizing m with
  | zero =>
    rw [run, runCycles, afterCycles_zero]
    split
    · exact ⟨rfl, rfl⟩
    · exact ⟨state_after_finish m, sink_after_finish m⟩
  | succ fuel ih =>
    by_cases hrunning : m.state.running = true
    · cases hstep : m.step.ending with
      | ok u =>
        rw [run_of_step_ok hrunning hstep]
        simp only [runCycles, hrunning, hstep, if_true, afterCycles_succ]
        exact ih m.step.after
      | error e =>
        -- The failing cycle is the last of the run, and is not counted.
        have hsame := step_of_error hstep
        simp only [run, runCycles, hrunning, hstep, if_true, afterCycles_zero]
        cases e <;> exact hsame
    · rw [run, runCycles, if_neg hrunning, if_neg hrunning]
      exact ⟨state_after_finish m, sink_after_finish m⟩

end TaggedStack.Machine
