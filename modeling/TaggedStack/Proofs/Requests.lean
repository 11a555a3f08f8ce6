import TaggedStack.Machine.Run
import TaggedStack.Proofs.Soundness

/-!
# Machines in the hands of a host

A host loads programs into a machine, lets it make single cycles and runs it, in any order and as
often as it likes, and goes on after a failure with what the failed request left behind. Whatever
the host does, the state of the machine is one that loads and cycles lead to
(`Machine.reachable_serveAll`), so it is sound.

The cycles that went through are counted along (`Machine.cyclesOfAll`): a run that breaks off
counts those before the failing one.

* `Machine.sound_serveAll`: the invariant of a machine, whatever was asked of it.
-/

namespace TaggedStack

/-- What a host may ask of a machine. -/
inductive Request
  | load (program : List Int)
  | step
  /-- Cycles until the machine halts or faults, at most `fuel` of them. -/
  | run (fuel : Nat)

namespace Machine

variable {m : Machine}

/-! ### Single cycles -/

@[simp]
theorem state_accept (m : Machine) (effect : Effect) : (m.accept effect).state = effect.state := by
  obtain ⟨state, _ | e⟩ := effect <;> rfl

theorem sink_accept (m : Machine) (effect : Effect) :
    (m.accept effect).sink = effect.output.elim m.sink m.sink.emit := by
  obtain ⟨state, _ | e⟩ := effect <;> rfl

theorem step_of_state_ok {effect : Effect} (h : m.state.step = .ok effect) :
    m.step = .succeed ((m.recordTrace State.stepEvent).accept effect) () := by
  rw [step, h]

theorem step_of_state_error {e : Failure} (h : m.state.step = .error e) :
    m.step = .fail (m.recordTrace State.stepEvent) e := by
  rw [step, h]

/-- A cycle of the machine goes through exactly when that of its state does. -/
theorem exists_effect_of_step_ok (h : m.step.ending = .ok ()) :
    ∃ effect, m.state.step = .ok effect ∧ m.step.after.state = effect.state := by
  cases hstep : m.state.step with
  | ok effect => exact ⟨effect, rfl, by rw [step_of_state_ok hstep]; exact state_accept _ effect⟩
  | error e =>
    rw [step_of_state_error hstep] at h
    cases h

/-! ### Runs -/

/-- A cycle that goes through leads on to the rest of the run. -/
theorem run_of_step_ok {fuel : Nat} (hrun : m.state.running = true)
    (hstep : m.step.ending = .ok ()) : run (fuel + 1) m = run fuel m.step.after := by
  simp only [run, hrun, hstep, if_true]

theorem state_after_finish (m : Machine) : m.finish.after.state = m.state := by
  unfold finish
  split <;> rfl

/-- A run that stops before its first cycle leaves the state alone. -/
theorem state_after_run_of_not_running {fuel : Nat} (hrun : m.state.running = false) :
    (run fuel m).after.state = m.state := by
  cases fuel <;> simp only [run, hrun, Bool.false_eq_true, if_false, state_after_finish]

/-- A run that stops in its first cycle leaves the state alone. -/
theorem state_after_run_of_step_error {fuel : Nat} {e : Failure}
    (hstep : m.step.ending = .error e) : (run fuel m).after.state = m.state := by
  have hstate := (step_of_error hstep).1
  cases fuel with
  | zero =>
    simp only [run]
    split
    · rfl
    · exact state_after_finish m
  | succ fuel =>
    simp only [run, hstep]
    split
    · cases e <;> exact hstate
    · exact state_after_finish m

/-! ### Serving requests -/

/-- The machine after a request, whether or not the request went through. -/
def serve (m : Machine) : Request → Machine
  | .load program => (m.load program).after
  | .step => m.step.after
  | .run fuel => (m.run fuel).after

/-- The machine after one request after another. -/
def serveAll (m : Machine) (requests : List Request) : Machine := requests.foldl serve m

/-- How many cycles of a run go through. -/
def runCycles : (fuel : Nat) → Machine → Nat
  | 0, _ => 0
  | fuel + 1, m =>
    if m.state.running then
      match m.step.ending with
      | .ok () => runCycles fuel m.step.after + 1
      | .error _ => 0
    else 0

/-- How many cycles go through while a request is served. -/
def cyclesOf (m : Machine) : Request → Nat
  | .load _ => 0
  | .step =>
    match m.step.ending with
    | .ok () => 1
    | .error _ => 0
  | .run fuel => m.runCycles fuel

/-- How many cycles go through while one request after another is served. -/
def cyclesOfAll (m : Machine) : List Request → Nat
  | [] => 0
  | request :: rest => m.cyclesOf request + (m.serve request).cyclesOfAll rest

theorem state_after_load (m : Machine) (program : List Int) :
    (m.load program).after.state =
      { m.state with memory := (m.state.memory.load program).after } := by
  unfold load
  dsimp only
  split <;> rfl

/-! ### What requests lead to -/

variable {l : Layout} {n : Nat}

theorem reachable_step (h : State.Reachable l n m.state) :
    State.Reachable l (n + m.cyclesOf .step) (m.serve .step).state := by
  simp only [serve, cyclesOf]
  cases hstep : m.step.ending with
  | ok u =>
    obtain ⟨effect, heffect, hstate⟩ := exists_effect_of_step_ok hstep
    rw [hstate]
    exact h.step heffect
  | error e =>
    rw [(step_of_error hstep).1]
    exact h

theorem reachable_run (h : State.Reachable l n m.state) (fuel : Nat) :
    State.Reachable l (n + m.runCycles fuel) (m.run fuel).after.state := by
  induction fuel generalizing m n with
  | zero =>
    simp only [run, runCycles]
    split
    · exact h
    · rw [state_after_finish]
      exact h
  | succ fuel ih =>
    cases hrun : m.state.running with
    | false =>
      rw [state_after_run_of_not_running hrun]
      simpa [runCycles, hrun] using h
    | true =>
      cases hstep : m.step.ending with
      | ok u =>
        -- The first cycle is one step; the rest of the run follows by induction.
        obtain ⟨effect, heffect, hstate⟩ := exists_effect_of_step_ok hstep
        have hnext : State.Reachable l (n + 1) m.step.after.state := by
          rw [hstate]
          exact h.step heffect
        have hrest := ih hnext
        rw [run_of_step_ok hrun hstep]
        simp only [runCycles, hrun, hstep, if_true]
        rwa [Nat.add_right_comm, Nat.add_assoc] at hrest
      | error e =>
        rw [state_after_run_of_step_error hstep]
        simpa [runCycles, hrun, hstep] using h

theorem reachable_serve (h : State.Reachable l n m.state) (request : Request) :
    State.Reachable l (n + m.cyclesOf request) (m.serve request).state := by
  cases request with
  | load program =>
    rw [serve, state_after_load]
    exact h.load program
  | step => exact reachable_step h
  | run fuel => exact reachable_run h fuel

/-- Whatever is asked of a machine, its state is one that loads and cycles lead to. -/
theorem reachable_serveAll (h : State.Reachable l n m.state) (requests : List Request) :
    State.Reachable l (n + m.cyclesOfAll requests) (m.serveAll requests).state := by
  induction requests generalizing m n with
  | nil => exact h
  | cons request rest ih =>
    have hrest := ih (reachable_serve h request)
    rwa [Nat.add_assoc] at hrest

theorem reachable_serveAll_fresh (l : Layout) (sink : Sink) (journal : Journal)
    (requests : List Request) :
    State.Reachable l ((fresh l sink journal).cyclesOfAll requests)
      ((fresh l sink journal).serveAll requests).state := by
  have h : State.Reachable l 0 (fresh l sink journal).state := .initial
  have hall := reachable_serveAll h requests
  rwa [Nat.zero_add] at hall

/-! ### A machine that stopped stays stopped -/

theorem running_of_step (h : m.step.after.state.running = true) : m.state.running = true := by
  cases hstep : m.step.ending with
  | ok u =>
    obtain ⟨effect, heffect, hstate⟩ := exists_effect_of_step_ok hstep
    rw [hstate] at h
    exact (State.footprint_of_step heffect).2.running h
  | error e => rwa [(step_of_error hstep).1] at h

theorem running_of_run {fuel : Nat} (h : (m.run fuel).after.state.running = true) :
    m.state.running = true := by
  cases hrun : m.state.running with
  | true => rfl
  | false => rwa [state_after_run_of_not_running hrun, hrun] at h

/-- No request makes a machine run again. -/
theorem running_of_serveAll {requests : List Request}
    (h : (m.serveAll requests).state.running = true) : m.state.running = true := by
  induction requests generalizing m with
  | nil => exact h
  | cons request rest ih =>
    have hnext : (m.serve request).state.running = true := ih h
    cases request with
    | load program => rwa [serve, state_after_load] at hnext
    | step => exact running_of_step hnext
    | run fuel => exact running_of_run hnext

/-- **The invariant of a machine.** Whatever a host asks of a fresh machine, its state is sound for
the cycles that went through; once there was a cycle, the first instruction is not fetched again;
and once the machine stopped, nothing that is asked later makes it run. -/
theorem sound_serveAll (l : Layout) (sink : Sink) (journal : Journal) (requests : List Request) :
    let m := (fresh l sink journal).serveAll requests
    let cycles := (fresh l sink journal).cyclesOfAll requests
    m.state.Sound l cycles ∧
      (0 < cycles → ∀ fetched, m.state.fetch = .ok fetched →
        fetched.ip ≠ l.instructionBase) ∧
      (m.state.running = false → ∀ later, (m.serveAll later).state.running = false) := by
  intro m cycles
  have hsound : m.state.Sound l cycles := (reachable_serveAll_fresh l sink journal requests).sound
  refine ⟨hsound, ?_, ?_⟩
  · intro hcycles fetched hfetch
    have hip := (hsound.ip_mem hcycles).1
    -- Fetching advances the pointer, which is at an instruction already.
    unfold State.fetch at hfetch
    dsimp only at hfetch
    split at hfetch
    · cases hfetch
      show m.state.ip + 1 ≠ _
      omega
    · cases hfetch
  · intro hstopped later
    by_contra hrunning
    rw [Bool.not_eq_false] at hrunning
    rw [running_of_serveAll hrunning] at hstopped
    cases hstopped

end Machine

end TaggedStack
