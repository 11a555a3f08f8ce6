import TaggedStack.Machine.Trace

/-!
# Running the machine

A machine is a state with a sink for its output and a journal of its work. Runs are bounded by
an explicit number of cycles; a run that needs more is `unfinished`, and running on from there
is the same as having given the larger bound at once.

* `Machine.step`: one cycle. A failing cycle changes neither state nor sink.
* `Machine.run`: cycles until the machine halts or faults.
* `Machine.stepUpTo`: at most a given number of cycles, stopping at the first failure.
* `Machine.step_of_error`: a failing cycle leaves state and sink alone.
* `Machine.run_of_unfinished`: an unfinished run can be taken up where it stopped.
-/

namespace TaggedStack

/-- A state with its output and its journal. -/
structure Machine where
  state : State
  sink : Sink
  journal : Journal

/-- How a run ended. -/
inductive Outcome
  | halted
  | faulted (cause : Fault)
  /-- The cycles allowed were not enough. -/
  | unfinished
  deriving DecidableEq, Repr

namespace Machine

/-- A machine with blank memory, which is taken to be available. -/
def fresh (l : Layout) (sink : Sink) (journal : Journal) : Machine :=
  ⟨.initial l, sink, journal⟩

/-- The machine after an event. -/
def record (m : Machine) (e : Event) : Machine := { m with journal := m.journal.record e }

/-- The machine after the event of a cycle, which is worked out only if it will be kept. -/
def recordTrace (m : Machine) (event : State → Option Event) : Machine :=
  if m.journal.keeps .debug then
    match event m.state with
    | some e => m.record e
    | none => m
  else m

/-- The machine with an operation's state, after its output. -/
def accept : Machine → Effect → Machine
  | ⟨_, sink, journal⟩, ⟨state, some e⟩ => ⟨state, sink.emit e, journal⟩
  | ⟨_, sink, journal⟩, ⟨state, none⟩ => ⟨state, sink, journal⟩

/-- Copies a program to the instructions. Words copied before a failure stay. -/
def load (m : Machine) (program : List Int) : Attempt Machine Failure Nat :=
  let copied := m.state.memory.load program
  let after := { m with state := { m.state with memory := copied.after } }
  match copied.ending with
  | .ok () =>
    .succeed (after.record (.loaded program.length m.state.layout.instructionBase))
      program.length
  | .error e => .fail after e

/-- Executes what the registers say, without fetching. -/
def execute (m : Machine) : Attempt Machine Failure Unit :=
  let traced := m.recordTrace State.executionEvent
  match m.state.execute with
  | .ok effect => .succeed (traced.accept effect) ()
  | .error e => .fail traced e

/-- One cycle. -/
def step (m : Machine) : Attempt Machine Failure Unit :=
  let traced := m.recordTrace State.stepEvent
  match m.state.step with
  | .ok effect => .succeed (traced.accept effect) ()
  | .error e => .fail traced e

/-- At most `n` cycles: stops early when the machine no longer runs, or at a failure. -/
def stepUpTo : (n : Nat) → Machine → Attempt Machine Failure Unit
  | 0, m => .succeed m ()
  | n + 1, m =>
    if m.state.running then
      let stepped := m.step
      match stepped.ending with
      | .ok () => stepUpTo n stepped.after
      | .error e => .fail stepped.after e
    else .succeed m ()

/-- Reports the final stack and memory of a machine that no longer runs. -/
def finish (m : Machine) : Attempt Machine Failure Outcome :=
  match m.state.top with
  | .ok top =>
    .succeed ((m.record (.finalTop top)).record (.finalMemory m.state.memory.words)) .halted
  | .error e => .fail m e

/-- Cycles until the machine halts or faults, at most `fuel` of them. The failing instruction
is numbered from the first one; its cycle had no effect, so it is the one after the pointer. -/
def run : (fuel : Nat) → Machine → Attempt Machine Failure Outcome
  | 0, m => if m.state.running then .succeed m .unfinished else m.finish
  | fuel + 1, m =>
    if m.state.running then
      let stepped := m.step
      match stepped.ending with
      | .ok () => run fuel stepped.after
      | .error (.fault cause) =>
        let index := stepped.after.state.ip + 1 - stepped.after.state.layout.instructionBase
        .succeed (stepped.after.record (.faulted index cause)) (.faulted cause)
      | .error e => .fail stepped.after e
    else m.finish

/-! ### What a cycle and a run leave behind -/

@[simp]
theorem state_record (m : Machine) (e : Event) : (m.record e).state = m.state := rfl

@[simp]
theorem sink_record (m : Machine) (e : Event) : (m.record e).sink = m.sink := rfl

@[simp]
theorem state_recordTrace (m : Machine) (f : State → Option Event) :
    (m.recordTrace f).state = m.state := by
  unfold recordTrace
  split
  · split <;> rfl
  · rfl

@[simp]
theorem sink_recordTrace (m : Machine) (f : State → Option Event) :
    (m.recordTrace f).sink = m.sink := by
  unfold recordTrace
  split
  · split <;> rfl
  · rfl

/-- A failing cycle leaves state and sink alone. -/
theorem step_of_error {m : Machine} {e : Failure} (h : m.step.ending = .error e) :
    m.step.after.state = m.state ∧ m.step.after.sink = m.sink := by
  unfold step at h ⊢
  split at h
  · cases h
  · simp [Attempt.fail]

theorem finish_ne_unfinished (m : Machine) : m.finish.ending ≠ .ok .unfinished := by
  unfold finish
  split <;> simp [Attempt.succeed, Attempt.fail]

/-- An unfinished run can be taken up where it stopped. -/
theorem run_of_unfinished {a : Nat} {m : Machine} (b : Nat)
    (h : (run a m).ending = .ok .unfinished) : run (a + b) m = run b (run a m).after := by
  induction a generalizing m with
  | zero =>
    simp only [run, Nat.zero_add] at h ⊢
    split at h
    · next hrun => simp [hrun, Attempt.succeed]
    · exact absurd h m.finish_ne_unfinished
  | succ a ih =>
    rw [Nat.add_right_comm]
    simp only [run] at h ⊢
    split at h
    · next hrun =>
      rw [if_pos hrun, if_pos hrun]
      -- Only a cycle that goes through leads on to the rest of the run.
      cases hstep : m.step.ending with
      | ok u =>
        rw [hstep] at h
        exact ih h
      | error e =>
        rw [hstep] at h
        cases e <;> simp [Attempt.succeed, Attempt.fail] at h
    · exact absurd h m.finish_ne_unfinished

end Machine

end TaggedStack
