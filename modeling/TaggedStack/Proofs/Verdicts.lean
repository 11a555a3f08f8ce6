import TaggedStack.Proofs.Budget
import TaggedStack.Proofs.Compilation
import TaggedStack.Proofs.Generation

/-!
# When a generated case is called a bug

A trial of a generated case is never a crash, because generated words are machine words. So a case
without a foretold result is never called a bug. A case with one is the program of an expression,
and compiled expressions compute their values: the only way to miss the foretold result is to be cut
off before the end. Its trial is judged exactly by whether the *run* of its program is over when the
budget is used up (`Trial.RunsOut`).

The budget may be any number, also one smaller than the program is long: if the run is over by then,
a larger budget would give the same result, and a large enough one gives the foretold result.

* `Trial.runsOut_or_stable`: a trial is cut off, or larger budgets make no difference.
* `Trial.execute_compile_cases`: a trial of a compiled expression is cut off, or ends as foretold.
* `Case.WellFormed.agrees_eq_false_iff`: which well-formed cases are called bugs.
-/

namespace TaggedStack

/-- How a run ended determines what a trial reports. -/
theorem Result.Reports.unique {r r' : Result} {outcome : Outcome} {last : Machine}
    (h : r.Reports outcome last) (h' : r'.Reports outcome last) : r = r' := by
  cases outcome with
  | halted =>
    obtain ⟨top, htop, rfl⟩ := h
    obtain ⟨top', htop', rfl⟩ := h'
    rw [Except.ok.inj (htop.symm.trans htop')]
  | faulted cause => exact Eq.trans h (Eq.symm h')
  | unfinished => exact h.elim

namespace Trial

variable {l : Layout} {words : List Int} {e : Expr}

/-! ### Runs that are cut off -/

/-- The run of a program has neither halted nor faulted when the given cycles are used up. -/
def RunsOut (words : List Int) (maxSteps : Int) (l : Layout) : Prop :=
  (((Machine.fresh l .emptyBuffer .silent).load words).after.run maxSteps.toNat).ending =
    .ok .unfinished

instance (words : List Int) (maxSteps : Int) (l : Layout) : Decidable (RunsOut words maxSteps l) :=
  inferInstanceAs (Decidable (_ = _))

/-- A trial of a machine is cut off and its run is not finished, or its run is finished and larger
budgets make no difference. -/
theorem unfinished_or_stable {m : Machine} {cycles : Nat}
    (hreachable : State.Reachable l cycles m.state) (hrunning : m.state.running = true)
    (maxSteps : Int) :
    ((m.run maxSteps.toNat).ending = .ok .unfinished ∧
        (executeLoaded m maxSteps).1 = .timeout maxSteps) ∨
      (m.run maxSteps.toNat).ending ≠ .ok .unfinished ∧
        ∀ more, maxSteps ≤ more → (executeLoaded m more).1 = (executeLoaded m maxSteps).1 := by
  rcases m.goesOn_or_exists_first with hall | ⟨n, hgoes, hstop⟩
  · left
    exact ⟨Machine.neverStops_of_goesOn hrunning hall _,
      executeLoaded_of_goesOn hrunning fun i _ ↦ hall i⟩
  · obtain ⟨cycles', hlast⟩ := Machine.reachable_afterCycles hreachable n
    obtain ⟨outcome, last, hstops, hreports⟩ := exists_last_cycle hlast hrunning hgoes hstop
    rcases Int.lt_or_le maxSteps (n + 1 : Nat) with hlt | hle
    · left
      exact ⟨hstops.unfinished _ (by omega),
        executeLoaded_of_goesOn hrunning fun i hi ↦ hgoes i (by omega)⟩
    · right
      refine ⟨fun hunfinished ↦ ?_, fun more hmore ↦ ?_⟩
      · -- A trial reports how the run ended, and cannot report that it did not end.
        rw [hstops.finished _ (by omega)] at hunfinished
        obtain rfl : outcome = .unfinished := Except.ok.inj hunfinished
        exact hreports maxSteps hle
      · exact (hreports more (by omega)).unique (hreports maxSteps hle)

/-- The same for a program that loads. -/
theorem runsOut_or_stable {count : Nat}
    (hload : ((Machine.fresh l .emptyBuffer .silent).load words).ending = .ok count)
    (maxSteps : Int) :
    (RunsOut words maxSteps l ∧ execute words maxSteps l = .timeout maxSteps) ∨
      ¬RunsOut words maxSteps l ∧
        ∀ more, maxSteps ≤ more → execute words more l = execute words maxSteps l := by
  have hreachable : State.Reachable l 0
      ((Machine.fresh l .emptyBuffer .silent).load words).after.state := by
    rw [Machine.state_after_load]
    exact .load .initial words
  have hrunning :
      ((Machine.fresh l .emptyBuffer .silent).load words).after.state.running = true := by
    rw [Machine.state_after_load]
    rfl
  simp only [execute_eq_executeLoaded hload]
  exact unfinished_or_stable hreachable hrunning maxSteps

/-! ### Compiled expressions -/

theorem fits_iff : fits e l = true ↔
    e.stackDepth ≤ l.stackCapacity ∧ e.compile.length ≤ l.instructionCapacity := by
  rw [fits, Bool.and_eq_true, decide_eq_true_iff, decide_eq_true_iff]

theorem isWord_of_mem_compile (e : Expr) : ∀ w ∈ e.compile, IsWord w :=
  fun _ hw ↦ isWord_of_mem_assemble hw

/-- Machine words load where there is room for them. -/
theorem load_of_isWord (hwords : ∀ w ∈ words, IsWord w)
    (hlength : words.length ≤ l.instructionCapacity) :
    ((Machine.fresh l .emptyBuffer .silent).load words).ending = .ok words.length := by
  have hloads : ((State.initial l).memory.load words).ending = .ok () := by
    rw [Memory.load_eq]
    exact Memory.acceptance_eq_ok hlength hwords
  rw [Machine.load_of_ok hloads]
  rfl

/-- The result of a compiled expression for which there is room is that of a list machine with its
code, whatever the stack and the budget. -/
theorem exists_result_compile (hlength : e.compile.length ≤ l.instructionCapacity) :
    ∃ a : ListMachine l, a.running = true ∧ a.HasCode 0 (e.code ++ [.op .prn, .op .halt]) ∧
      ∀ maxSteps, execute e.compile maxSteps l =
        (a.moved 0 [] (Nat.zero_le _)).result maxSteps := by
  have hwords := isWord_of_mem_compile e
  have hcode := hlength
  rw [Expr.compile, length_assemble] at hcode
  exact ⟨(ListMachine.blank l).loaded _ hcode, rfl, ⟨_, rfl⟩,
    execute_of_accepted (Memory.acceptance_eq_ok hlength hwords)
      (Memory.accepted_eq_self hlength hwords) hcode⟩

/-- A budget of one cycle for each word is enough for a compiled expression that fits. -/
theorem execute_of_fits (hfits : fits e l = true) {maxSteps : Int}
    (hsteps : (e.compile.length : Int) ≤ maxSteps) :
    execute e.compile maxSteps l = expected e := by
  obtain ⟨hdepth, hlength⟩ := fits_iff.1 hfits
  obtain ⟨a, hrunning, hcode, hresult⟩ := exists_result_compile hlength
  rw [e.length_compile] at hsteps
  rw [hresult]
  exact ListMachine.result_of_hasCode hrunning hcode hdepth hsteps

theorem expected_ne_timeout (e : Expr) (steps : Int) : expected e ≠ .timeout steps := by
  unfold expected
  split <;> simp

/-- A trial of a compiled expression that fits is cut off, or ends as foretold. -/
theorem execute_compile_cases (hfits : fits e l = true) (maxSteps : Int) :
    (RunsOut e.compile maxSteps l ∧ execute e.compile maxSteps l = .timeout maxSteps) ∨
      ¬RunsOut e.compile maxSteps l ∧ execute e.compile maxSteps l = expected e := by
  have hload := load_of_isWord (isWord_of_mem_compile e) (fits_iff.1 hfits).2
  rcases runsOut_or_stable hload maxSteps with hout | ⟨hover, hstable⟩
  · exact Or.inl hout
  · -- The foretold result is that of a large budget, which is no other than this one's.
    right
    refine ⟨hover, ?_⟩
    rw [← hstable (max maxSteps e.compile.length) (Int.le_max_left _ _)]
    exact execute_of_fits hfits (Int.le_max_right _ _)

end Trial

/-! ### Judging cases -/

namespace Case.WellFormed

open Trial

variable {l : Layout} {c : Case}

theorem isWord_of_mem (h : c.WellFormed l) : ∀ w ∈ c.words, IsWord w := by
  cases h with
  | plain hwords => exact hwords
  | @expression e => exact isWord_of_mem_compile e

/-- A trial of a well-formed case is no crash. -/
theorem isCrash_execute (h : c.WellFormed l) (maxSteps : Int) :
    (execute c.words maxSteps l).isCrash = false := by
  rw [← Bool.not_eq_true, isCrash_execute_iff, Memory.acceptance_eq_wordRange_iff]
  intro hbad
  obtain ⟨i, hi, -, hnot⟩ := hbad
  exact hnot (h.isWord_of_mem _ (List.getElem_mem hi))

/-- A well-formed case is called a bug exactly when its result is foretold and its run is not over
when the budget is used up. -/
theorem agrees_eq_false_iff (h : c.WellFormed l) (maxSteps : Int) :
    agrees c.expected (some (execute c.words maxSteps l)) = false ↔
      c.expected.isSome = true ∧ RunsOut c.words maxSteps l := by
  have hcrash := h.isCrash_execute maxSteps
  cases h with
  | plain hwords => simp [agrees, hcrash]
  | @expression e hfits =>
    simp only [agrees, Option.any_some, hcrash, Bool.not_false, Bool.true_and, Option.isNone_some,
      Bool.false_or, Option.isSome_some, true_and, beq_eq_false_iff_ne, ne_eq, Option.some.injEq]
    rcases execute_compile_cases hfits maxSteps with ⟨hout, hresult⟩ | ⟨hover, hresult⟩
    · rw [hresult]
      exact iff_of_true (expected_ne_timeout e maxSteps) hout
    · exact iff_of_false (fun hne ↦ hne hresult.symm) hover

/-- The result of a case with a foretold result that is cut off. -/
theorem execute_of_runsOut (h : c.WellFormed l) (hexpected : c.expected.isSome = true)
    {maxSteps : Int} (hout : RunsOut c.words maxSteps l) :
    execute c.words maxSteps l = .timeout maxSteps := by
  cases h with
  | plain => cases hexpected
  | @expression e hfits =>
    rcases execute_compile_cases hfits maxSteps with ⟨-, hresult⟩ | ⟨hover, -⟩
    · exact hresult
    · exact absurd hout hover

/-- No number is foretold but those in an output. -/
theorem optionNumbers_expected (h : c.WellFormed l) : Result.optionNumbers c.expected = [] := by
  cases h with
  | plain => rfl
  | @expression e =>
    show (Trial.expected e).numbers = []
    rw [Trial.expected]
    split <;> rfl

/-- No run of a case with a foretold result is cut off if there are as many cycles as the layout
has room for instructions. -/
theorem not_runsOut (h : c.WellFormed l) (hexpected : c.expected.isSome = true) {maxSteps : Int}
    (hsteps : (l.instructionCapacity : Int) ≤ maxSteps) : ¬RunsOut c.words maxSteps l := by
  cases h with
  | plain => cases hexpected
  | @expression e hfits =>
    have hlength := (fits_iff.1 hfits).2
    rcases execute_compile_cases hfits maxSteps with ⟨-, hresult⟩ | ⟨hover, -⟩
    · rw [execute_of_fits hfits (by omega)] at hresult
      exact absurd hresult (expected_ne_timeout e maxSteps)
    · exact hover

end Case.WellFormed

end TaggedStack
