import TaggedStack.Proofs.Lockstep

/-!
# A budget only cuts a run off

A trial and a run drive the machine by loops of their own. A run goes on until the machine halts or
faults; a trial stops there too, or when its budget is used up, and then looks whether the machine
still runs. Both loops are followed to the first cycle after which the machine does not go on: up to
it they are at the same machine, and in it they stop for the same reason.

* `Trial.exists_last_cycle`: the cycle in which a run stops ends every trial that gets so far.
* `Trial.budget_cuts_off`: the results of a program under all budgets, told by its run.
-/

namespace TaggedStack

/-- How a trial reports a run that stopped with the given outcome and machine. -/
def Result.Reports (r : Result) : Outcome → Machine → Prop
  | .halted, last => ∃ top, last.state.top = .ok top ∧ r = .success last.sink.text top
  | .faulted cause, _ => r = .fault cause.kind
  | .unfinished, _ => False

namespace Machine

variable {m : Machine}

/-! ### The last cycle of a run -/

/-- A machine in a reachable state that does not go on halts in its next cycle, or faults. -/
theorem halts_or_faults {l : Layout} {cycles : Nat} (hreachable : State.Reachable l cycles m.state)
    (hstop : ¬m.GoesOn) :
    (m.step.ending = .ok () ∧ m.step.after.state.running = false) ∨
      ∃ cause, m.step.ending = .error (.fault cause) := by
  rcases step_ending_of_reachable hreachable with hstep | hfault
  · left
    refine ⟨hstep, ?_⟩
    rw [← Bool.not_eq_true]
    exact fun hrunning ↦ hstop ⟨hstep, hrunning⟩
  · exact Or.inr hfault

theorem finish_of_top {top : Option Int} (h : m.state.top = .ok top) :
    m.finish =
      .succeed ((m.record (.finalTop top)).record (.finalMemory m.state.memory.words))
        .halted := by
  rw [finish, h]

end Machine

namespace Trial

variable {m : Machine}

/-- While a machine goes on, a trial of it runs out of cycles. -/
theorem executeLoaded_of_goesOn {maxSteps : Int} (hrunning : m.state.running = true)
    (h : ∀ i < maxSteps.toNat, (m.afterCycles i).GoesOn) :
    (executeLoaded m maxSteps).1 = .timeout maxSteps := by
  have hstepped := Machine.stepUpTo_of_goesOn hrunning h 0
  rw [Nat.add_zero, Machine.stepUpTo] at hstepped
  rw [executeLoaded_eq, hstepped]
  exact if_pos (Machine.running_afterCycles hrunning h)

/-- The cycle in which a run stops ends every trial that gets so far, and its result reports how
the run stopped. -/
theorem exists_last_cycle {l : Layout} {cycles n : Nat}
    (hreachable : State.Reachable l cycles (m.afterCycles n).state)
    (hrunning : m.state.running = true) (hgoes : ∀ i < n, (m.afterCycles i).GoesOn)
    (hstop : ¬(m.afterCycles n).GoesOn) :
    ∃ outcome last, m.StopsIn (n + 1) outcome last ∧
      ∀ maxSteps : Int, (n + 1 : Nat) ≤ maxSteps →
        (executeLoaded m maxSteps).1.Reports outcome last := by
  have hlast := Machine.running_afterCycles hrunning hgoes
  -- A trial with enough cycles makes the last one of the run, and has some to spare.
  have hsplit : ∀ maxSteps : Int, (n + 1 : Nat) ≤ maxSteps → ∃ spare,
      m.stepUpTo maxSteps.toNat = (m.afterCycles n).stepUpTo (spare + 1) := by
    intro maxSteps hle
    refine ⟨maxSteps.toNat - n - 1, ?_⟩
    rw [← Machine.stepUpTo_of_goesOn hrunning hgoes]
    congr 1
    omega
  rcases Machine.halts_or_faults hreachable hstop with ⟨hstep, hstopped⟩ | ⟨cause, hstep⟩
  · obtain ⟨top, htop⟩ := (Machine.reachable_step hreachable).exists_top
    change (m.afterCycles n).step.after.state.top = .ok top at htop
    have hrun := fun fuel ↦
      (Machine.run_of_halting hlast hstep hstopped fuel).trans (Machine.finish_of_top htop)
    refine ⟨_, _, Machine.stopsIn_of_goesOn hrunning hgoes hrun, fun maxSteps hle ↦ ?_⟩
    obtain ⟨spare, hspare⟩ := hsplit maxSteps hle
    rw [executeLoaded_eq, hspare, Machine.stepUpTo_of_halting hlast hstep hstopped]
    refine ⟨top, htop, ?_⟩
    rw [Attempt.toExcept_succeed]
    show conclude _ _ = _
    rw [conclude, hstopped, htop]
    rfl
  · have hrun := Machine.run_of_faulting hlast hstep
    refine ⟨_, _, Machine.stopsIn_of_goesOn hrunning hgoes hrun, fun maxSteps hle ↦ ?_⟩
    obtain ⟨spare, hspare⟩ := hsplit maxSteps hle
    rw [executeLoaded_eq, hspare, Machine.stepUpTo_of_faulting hlast hstep]
    rfl

/-! ### Programs -/

/-- **A budget only cuts a run off.** The run of a program that loads never stops, and every trial
of the program times out; or it stops in some cycle, trials with fewer cycles time out, and all
others report how the run stopped. Cycles that are made one by one before the run change nothing
about its end. -/
theorem budget_cuts_off {l : Layout} {journal : Journal} {words : List Int} {count : Nat}
    (hload : ((Machine.fresh l .emptyBuffer journal).load words).ending = .ok count) :
    let m := ((Machine.fresh l .emptyBuffer journal).load words).after
    (m.NeverStops ∧ ∀ maxSteps, execute words maxSteps l = .timeout maxSteps) ∨
      ∃ k outcome last, 1 ≤ k ∧ m.StopsIn k outcome last ∧
        (∀ maxSteps : Int, maxSteps < k → execute words maxSteps l = .timeout maxSteps) ∧
        (∀ maxSteps : Int, k ≤ maxSteps →
          (execute words maxSteps l).Reports outcome last) ∧
        ∀ j < k, (∀ i < j, (m.afterCycles i).step.ending = .ok ()) ∧
          (m.afterCycles j).StopsIn (k - j) outcome last := by
  intro m
  have hrunning : m.state.running = true := by rw [Machine.state_after_load]; rfl
  have hreachable : State.Reachable l 0 m.state := by
    rw [Machine.state_after_load]
    exact .load .initial words
  simp only [execute_eq_executeLoaded hload]
  rcases m.goesOn_or_exists_first with hall | ⟨n, hgoes, hstop⟩
  · exact Or.inl ⟨Machine.neverStops_of_goesOn hrunning hall,
      fun maxSteps ↦ executeLoaded_of_goesOn hrunning fun i _ ↦ hall i⟩
  · right
    obtain ⟨cycles, hcycles⟩ := Machine.reachable_afterCycles hreachable n
    obtain ⟨outcome, last, hstops, hreports⟩ := exists_last_cycle hcycles hrunning hgoes hstop
    refine ⟨n + 1, outcome, last, by omega, hstops, fun maxSteps hlt ↦ ?_, hreports, ?_⟩
    · exact executeLoaded_of_goesOn hrunning fun i hi ↦ hgoes i (by omega)
    · intro j hj
      have hbefore : ∀ i < j, (m.afterCycles i).GoesOn := fun i hi ↦ hgoes i (by omega)
      exact ⟨fun i hi ↦ (hbefore i hi).1, hstops.afterCycles hrunning hbefore⟩

/-- A program that prints five and halts, so its run stops. -/
theorem budget_cuts_off_printing :
    let l : Layout := ⟨6, 2, 6, by decide, by decide, by decide⟩
    let words : List Int := [5, 0x40000008, 0x40000000]
    let m := ((Machine.fresh l .emptyBuffer .silent).load words).after
    ∃ k outcome last, 1 ≤ k ∧ m.StopsIn k outcome last ∧
      (∀ maxSteps : Int, maxSteps < k → execute words maxSteps l = .timeout maxSteps) ∧
      (∀ maxSteps : Int, k ≤ maxSteps → (execute words maxSteps l).Reports outcome last) ∧
      ∀ j < k, (∀ i < j, (m.afterCycles i).step.ending = .ok ()) ∧
        (m.afterCycles j).StopsIn (k - j) outcome last := by
  intro l words m
  have hload : ((Machine.fresh l .emptyBuffer .silent).load words).ending = .ok 3 := rfl
  refine (budget_cuts_off hload).resolve_left fun h ↦ ?_
  exact absurd (h.1 3) (by decide)

end Trial

end TaggedStack
