import TaggedStack.Proofs.Cycles

/-!
# Two runs in lockstep

A statement about two runs compares two computations that may fail: both go through with related
results, or both stop with the same error. `Lockstep` is this relation, and it composes along
sequencing. It has room for errors of the first computation that are *exempt*, after which nothing
is said about the second.

A relation between states that single cycles keep in lockstep is a *bisimulation*, and whatever a
machine shows of itself is the same on both sides of one: its output, its faults, and the results of
its trials.

* `Lockstep.bind`: lockstep of a sequence from lockstep of its parts.
* `Machine.Bisimulation.stepUpTo`, `Machine.Bisimulation.run`, `Machine.Bisimulation.stopsIn`: runs
  of machines that cycles keep related.
* `Machine.Paired.step`, `Machine.Paired.afterCycles`, `Machine.Paired.stepUpTo`: cycles and
  budgeted runs of paired machines.
* `Machine.Paired.executeLoaded_eq`: trials of paired machines have the same result.
* `Trial.execute_eq_executeLoaded`: the result of a trial does not depend on the journal.
-/

namespace TaggedStack

/-! ### Computations that may fail -/

/-- Two computations in lockstep both go through with related results, or both stop with the same
error. Where the first stops with an error for which `P` holds, nothing is asked of the second. -/
inductive Lockstep {ε α β : Type} (P : ε → Prop) (R : α → β → Prop) :
    Except ε α → Except ε β → Prop
  | ok {x : α} {y : β} (h : R x y) : Lockstep P R (.ok x) (.ok y)
  | error (e : ε) : Lockstep P R (.error e) (.error e)
  | exempt {e : ε} (h : P e) (y : Except ε β) : Lockstep P R (.error e) y

/-- Lockstep in which no error is exempt. -/
abbrev StrictLockstep {ε α β : Type} (R : α → β → Prop) : Except ε α → Except ε β → Prop :=
  Lockstep (fun _ ↦ False) R

namespace Lockstep

variable {ε α β α' β' : Type} {P : ε → Prop} {R : α → β → Prop} {S : α' → β' → Prop}

/-- Lockstep of a sequence from lockstep of its parts. -/
theorem bind {x : Except ε α} {y : Except ε β} {f : α → Except ε α'} {g : β → Except ε β'}
    (h : Lockstep P R x y) (hfg : ∀ a b, R a b → Lockstep P S (f a) (g b)) :
    Lockstep P S (x >>= f) (y >>= g) := by
  cases h with
  | ok h => exact hfg _ _ h
  | error e => exact .error e
  | exempt h y => exact .exempt h _

/-- Lockstep of a check that has the same answer on both sides. -/
theorem ite {p q : Prop} [Decidable p] [Decidable q] {x x' : Except ε α} {y y' : Except ε β}
    (hpq : p ↔ q) (hpos : p → Lockstep P R x y) (hneg : ¬p → Lockstep P R x' y') :
    Lockstep P R (if p then x else x') (if q then y else y') := by
  by_cases hp : p
  · rw [if_pos hp, if_pos (hpq.1 hp)]
    exact hpos hp
  · rw [if_neg hp, if_neg (mt hpq.2 hp)]
    exact hneg hp

/-- Lockstep of a check that is stricter on the first side, where failing it is exempt. -/
theorem guard {p q : Prop} [Decidable p] [Decidable q] {e : ε} {x : Except ε α}
    {y y' : Except ε β} (hpq : p → q) (he : P e) (h : p → Lockstep P R x y) :
    Lockstep P R (if p then x else .error e) (if q then y else y') := by
  by_cases hp : p
  · rw [if_pos hp, if_pos (hpq hp)]
    exact h hp
  · rw [if_neg hp]
    exact .exempt he _

end Lockstep

/-- What two computations in strict lockstep can end with. -/
theorem StrictLockstep.ok_or_error {ε α β : Type} {R : α → β → Prop} {x : Except ε α}
    {y : Except ε β} (h : StrictLockstep R x y) :
    (∃ a b, x = .ok a ∧ y = .ok b ∧ R a b) ∨ ∃ e, x = .error e ∧ y = .error e := by
  cases h with
  | ok h => exact Or.inl ⟨_, _, rfl, rfl, h⟩
  | error e => exact Or.inr ⟨e, rfl, rfl⟩
  | exempt hfalse => exact hfalse.elim

/-! ### Bisimulations of states -/

/-- The states after two effects are related, and both printed the same. -/
def Effect.Paired (R : State → State → Prop) (x y : Effect) : Prop :=
  R x.state y.state ∧ y.output = x.output

/-- A relation that cycles keep in lockstep, between states of which both or neither run and which
show the same top of the stack. -/
structure State.Bisimulation (R : State → State → Prop) : Prop where
  running_eq : ∀ {s t}, R s t → t.running = s.running
  top_eq : ∀ {s t}, R s t → t.top = s.top
  step : ∀ {s t}, R s t → StrictLockstep (Effect.Paired R) s.step t.step

/-- Equality is a bisimulation. -/
theorem State.bisimulation_eq : State.Bisimulation (· = ·) where
  running_eq h := by rw [h]
  top_eq h := by rw [h]
  step := by
    rintro s _ rfl
    cases s.step with
    | ok effect => exact .ok ⟨rfl, rfl⟩
    | error e => exact .error e

namespace Machine

/-! ### Bisimulations of machines -/

/-- A relation between machines that cycles keep, whatever is recorded besides. Related machines
end their cycles alike, and both or neither run. -/
structure Bisimulation (T : Machine → Machine → Prop) : Prop where
  running_eq : ∀ {m m'}, T m m' → m'.state.running = m.state.running
  top_eq : ∀ {m m'}, T m m' → m'.state.top = m.state.top
  step : ∀ {m m'}, T m m' → m'.step.ending = m.step.ending ∧ T m.step.after m'.step.after
  record : ∀ {m m'}, T m m' → ∀ e e', T (m.record e) (m'.record e')

namespace Bisimulation

variable {T : Machine → Machine → Prop} {m m' : Machine}

theorem afterCycles (hT : Bisimulation T) (h : T m m') (n : Nat) :
    T (m.afterCycles n) (m'.afterCycles n) := by
  induction n generalizing m m' with
  | zero => exact h
  | succ n ih => exact ih (hT.step h).2

/-- A budgeted run ends the same way on related machines, and they stay related. -/
theorem stepUpTo (hT : Bisimulation T) (h : T m m') (n : Nat) :
    (m'.stepUpTo n).ending = (m.stepUpTo n).ending ∧
      T (m.stepUpTo n).after (m'.stepUpTo n).after := by
  induction n generalizing m m' with
  | zero => exact ⟨rfl, h⟩
  | succ n ih =>
    obtain ⟨hending, hstep⟩ := hT.step h
    simp only [Machine.stepUpTo, hT.running_eq h, hending]
    split
    · cases m.step.ending with
      | ok u => exact ih hstep
      | error e => exact ⟨rfl, hstep⟩
    · exact ⟨rfl, h⟩

theorem finish (hT : Bisimulation T) (h : T m m') :
    m'.finish.ending = m.finish.ending ∧ T m.finish.after m'.finish.after := by
  simp only [Machine.finish, hT.top_eq h]
  cases m.state.top with
  | ok top => exact ⟨rfl, hT.record (hT.record h _ _) _ _⟩
  | error e => exact ⟨rfl, h⟩

/-- A run ends the same way on related machines, and they stay related. -/
theorem run (hT : Bisimulation T) (h : T m m') (fuel : Nat) :
    (m'.run fuel).ending = (m.run fuel).ending ∧ T (m.run fuel).after (m'.run fuel).after := by
  induction fuel generalizing m m' with
  | zero =>
    simp only [Machine.run, hT.running_eq h]
    split
    · exact ⟨rfl, h⟩
    · exact hT.finish h
  | succ fuel ih =>
    obtain ⟨hending, hstep⟩ := hT.step h
    simp only [Machine.run, hT.running_eq h, hending]
    split
    · rcases m.step.ending with (cause | w | digits) | u
      · exact ⟨rfl, hT.record hstep _ _⟩
      · exact ⟨rfl, hstep⟩
      · exact ⟨rfl, hstep⟩
      · exact ih hstep
    · exact hT.finish h

/-- Where a run stops, it stops in the same cycle on a related machine. -/
theorem stopsIn (hT : Bisimulation T) (h : T m m') {k : Nat} {outcome : Outcome} {last : Machine}
    (hm : m.StopsIn k outcome last) (houtcome : outcome ≠ .unfinished) :
    ∃ last', m'.StopsIn k outcome last' ∧ T last last' := by
  obtain ⟨hending, hlast⟩ := hT.run h k
  rw [hm.finished k (Nat.le_refl k)] at hending hlast
  refine ⟨(m'.run k).after, ⟨fun fuel hfuel ↦ ?_, fun fuel hfuel ↦ ?_⟩, hlast⟩
  · exact (hT.run h fuel).1.trans (hm.unfinished fuel hfuel)
  · obtain ⟨more, rfl⟩ := Nat.exists_eq_add_of_le hfuel
    have hfinished : (m'.run k).ending ≠ .ok .unfinished := by
      rw [hending]
      exact fun heq ↦ houtcome (Except.ok.inj heq)
    rw [run_add_of_finished hfinished]
    exact congrArg (Attempt.mk (m'.run k).after) hending

end Bisimulation

variable {R : State → State → Prop} {m m' : Machine}

/-- Machines in related states whose sinks hold the same. Their journals may differ. -/
def Paired (R : State → State → Prop) (m m' : Machine) : Prop :=
  R m.state m'.state ∧ m'.sink = m.sink

theorem sink_accept_congr (hsink : m'.sink = m.sink) {x y : Effect} (h : y.output = x.output) :
    (m'.accept y).sink = (m.accept x).sink := by
  obtain ⟨s, output⟩ := x
  obtain ⟨t, output'⟩ := y
  obtain rfl : output' = output := h
  cases output' with
  | none => exact hsink
  | some e => exact congrArg (Sink.emit · e) hsink

/-- A cycle ends the same way on paired machines, and they stay paired. -/
theorem Paired.step (hR : State.Bisimulation R) (h : Paired R m m') :
    m'.step.ending = m.step.ending ∧ Paired R m.step.after m'.step.after := by
  rcases (hR.step h.1).ok_or_error with ⟨effect, effect', hm, hm', hpaired⟩ | ⟨e, hm, hm'⟩
  · rw [step_of_state_ok hm, step_of_state_ok hm']
    refine ⟨rfl, ?_, sink_accept_congr ?_ hpaired.2⟩
    · show R ((m.recordTrace _).accept effect).state ((m'.recordTrace _).accept effect').state
      rw [state_accept, state_accept]
      exact hpaired.1
    · rw [sink_recordTrace, sink_recordTrace]
      exact h.2
  · -- Neither cycle has an effect, so the machines are paired as before.
    rw [step_of_state_error hm, step_of_state_error hm']
    refine ⟨rfl, ?_⟩
    show Paired R (m.recordTrace State.stepEvent) (m'.recordTrace State.stepEvent)
    rw [Paired, state_recordTrace, state_recordTrace, sink_recordTrace, sink_recordTrace]
    exact h

/-- Paired machines stay paired. -/
theorem Paired.bisimulation (hR : State.Bisimulation R) : Bisimulation (Paired R) where
  running_eq h := hR.running_eq h.1
  top_eq h := hR.top_eq h.1
  step h := h.step hR
  record h _ _ := h

theorem Paired.afterCycles (hR : State.Bisimulation R) (h : Paired R m m') (n : Nat) :
    Paired R (m.afterCycles n) (m'.afterCycles n) :=
  (bisimulation hR).afterCycles h n

/-- A budgeted run ends the same way on paired machines, and they stay paired. -/
theorem Paired.stepUpTo (hR : State.Bisimulation R) (h : Paired R m m') (n : Nat) :
    (m'.stepUpTo n).ending = (m.stepUpTo n).ending ∧
      Paired R (m.stepUpTo n).after (m'.stepUpTo n).after :=
  (bisimulation hR).stepUpTo h n

/-- Trials of paired machines have the same result. -/
theorem Paired.executeLoaded_eq (hR : State.Bisimulation R) (h : Paired R m m') (maxSteps : Int) :
    (Trial.executeLoaded m' maxSteps).1 = (Trial.executeLoaded m maxSteps).1 := by
  obtain ⟨hending, hstate, hsink⟩ := h.stepUpTo hR maxSteps.toNat
  unfold Trial.executeLoaded
  dsimp only
  rw [hending]
  cases (m.stepUpTo maxSteps.toNat).ending with
  | error e => rfl
  | ok u =>
    show Trial.conclude _ _ = Trial.conclude _ _
    rw [Trial.conclude, Trial.conclude, hR.running_eq hstate, hR.top_eq hstate, hsink]

end Machine

/-! ### Trials -/

theorem Machine.sink_after_load (m : Machine) (program : List Int) :
    (m.load program).after.sink = m.sink := by
  unfold load
  dsimp only
  split <;> rfl

/-- Loading a machine ends as loading its memory does. -/
theorem Machine.ending_load (m : Machine) (program : List Int) :
    (m.load program).ending =
      (m.state.memory.load program).ending.map fun _ ↦ program.length := by
  unfold load
  dsimp only
  cases (m.state.memory.load program).ending <;> rfl

/-- The result of a trial does not depend on the journal. -/
theorem Trial.execute_eq_executeLoaded {l : Layout} {journal : Journal} {words : List Int}
    {count : Nat} (h : ((Machine.fresh l .emptyBuffer journal).load words).ending = .ok count)
    (maxSteps : Int) :
    execute words maxSteps l =
      (executeLoaded ((Machine.fresh l .emptyBuffer journal).load words).after maxSteps).1 := by
  have hsilent : ((Machine.fresh l .emptyBuffer .silent).load words).ending = .ok count := by
    rw [Machine.ending_load] at h ⊢
    exact h
  have hpaired : Machine.Paired (· = ·) ((Machine.fresh l .emptyBuffer journal).load words).after
      ((Machine.fresh l .emptyBuffer .silent).load words).after := by
    rw [Machine.Paired, Machine.state_after_load, Machine.state_after_load,
      Machine.sink_after_load, Machine.sink_after_load]
    exact ⟨rfl, rfl⟩
  unfold execute executeWith
  dsimp only
  rw [hsilent]
  exact hpaired.executeLoaded_eq State.bisimulation_eq maxSteps

end TaggedStack
