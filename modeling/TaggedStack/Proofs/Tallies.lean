import TaggedStack.Stats

/-!
# What statistics count

The counters of a series are kept one trial at a time, each trial judged by what was foretold of
it. `Stats.Tally` ties them to the trials themselves: every counter is the number of those trials
it is there to count. What holds among the counters is then a matter of counting.

A summary prints all counters and, if there are bugs, their share of all trials. No counter exceeds
the total, and the share is at most one, far from being too large. So a summary is printed to its
end whenever the total can be written.

* `Stats.Tally.foldl_enter`: the counters of a whole series.
* `Binary64.isInfinite_ofMagnitude`: a quotient that is at most one is rounded to a finite number.
* `Stats.Tally.ending_summary_iff`: when a summary is printed to its end.
-/

namespace TaggedStack

/-- The kinds of results. -/
inductive Result.Kind
  | success
  | fault
  | timeout
  | crash
  deriving DecidableEq

/-- The kind of a result. -/
def Result.kind : Result → Kind
  | .success .. => .success
  | .fault _ => .fault
  | .timeout _ => .timeout
  | .crash _ => .crash

theorem Result.kind_eq_crash_iff {r : Result} : r.kind = .crash ↔ r.isCrash = true := by
  cases r <;> simp [kind, isCrash]

namespace Stats

/-- The counter of a kind of results. -/
def ofKind (s : Stats) : Result.Kind → Int
  | .success => s.halted
  | .fault => s.faults
  | .timeout => s.timeouts
  | .crash => s.crashes

/-- What is recorded of a trial. -/
structure Entry where
  expected : Option Result
  actual : Result

/-- Whether the result of a trial is acceptable. -/
def Entry.acceptable (t : Entry) : Bool := Trial.agrees t.expected (some t.actual)

/-- The counters after a trial that is judged by what was foretold of it. -/
def enter (s : Stats) (t : Entry) : Stats := s.record t.expected (some t.actual) t.acceptable

/-! ### Counting -/

theorem ofKind_enter (s : Stats) (t : Entry) (k : Result.Kind) :
    (s.enter t).ofKind k = s.ofKind k + if t.actual.kind = k then 1 else 0 := by
  obtain ⟨expected, actual⟩ := t
  cases actual <;> cases k <;> simp [enter, record, count, ofKind, Result.kind]

theorem total_enter (s : Stats) (t : Entry) : (s.enter t).total = s.total + 1 := by
  obtain ⟨expected, actual⟩ := t
  cases actual <;> rfl

theorem checked_enter (s : Stats) (t : Entry) :
    (s.enter t).checked = s.checked + if t.expected.isSome then 1 else 0 := by
  obtain ⟨expected, actual⟩ := t
  cases actual <;> cases expected <;> simp [enter, record, count]

theorem bugs_enter (s : Stats) (t : Entry) :
    (s.enter t).bugs = s.bugs + if !t.acceptable then 1 else 0 := by
  cases h : t.acceptable <;> cases hactual : t.actual <;>
    simp [enter, record, count, h, hactual]

theorem countP_kinds (entries : List Entry) :
    entries.countP (·.actual.kind = .success) + entries.countP (·.actual.kind = .fault) +
        entries.countP (·.actual.kind = .timeout) + entries.countP (·.actual.kind = .crash) =
      entries.length := by
  induction entries with
  | nil => rfl
  | cons t entries ih =>
    simp only [List.countP_cons, List.length_cons]
    cases t.actual.kind <;> simp <;> omega

/-- The counters are those of a series of trials. -/
structure Tally (entries : List Entry) (s : Stats) : Prop where
  total_eq : s.total = entries.length
  ofKind_eq : ∀ k, s.ofKind k = entries.countP (·.actual.kind = k)
  checked_eq : s.checked = entries.countP (·.expected.isSome)
  bugs_eq : s.bugs = entries.countP (!·.acceptable)

namespace Tally

variable {entries : List Entry} {s : Stats}

theorem initial : Tally [] {} where
  total_eq := rfl
  ofKind_eq k := by cases k <;> rfl
  checked_eq := rfl
  bugs_eq := rfl

theorem enter (h : Tally entries s) (t : Entry) : Tally (entries ++ [t]) (s.enter t) where
  total_eq := by rw [total_enter, h.total_eq, List.length_append]; rfl
  ofKind_eq k := by
    rw [ofKind_enter, h.ofKind_eq, List.countP_append, List.countP_singleton]
    split <;> simp_all
  checked_eq := by
    rw [checked_enter, h.checked_eq, List.countP_append, List.countP_singleton]
    split <;> rfl
  bugs_eq := by
    rw [bugs_enter, h.bugs_eq, List.countP_append, List.countP_singleton]
    split <;> rfl

/-- The counters of a whole series are those of its trials. -/
theorem foldl_enter (h : Tally entries s) (more : List Entry) :
    Tally (entries ++ more) (more.foldl Stats.enter s) := by
  induction more generalizing entries s with
  | nil =>
    rw [List.append_nil]
    exact h
  | cons t more ih =>
    rw [List.append_cons]
    exact ih (h.enter t)

/-- Every trial is of one kind. -/
theorem halted_add_faults_add_timeouts_add_crashes (h : Tally entries s) :
    s.halted + s.faults + s.timeouts + s.crashes = s.total := by
  have hsuccess : s.halted = _ := h.ofKind_eq .success
  have hfault : s.faults = _ := h.ofKind_eq .fault
  have htimeout : s.timeouts = _ := h.ofKind_eq .timeout
  have hcrash : s.crashes = _ := h.ofKind_eq .crash
  rw [hsuccess, hfault, htimeout, hcrash, h.total_eq, ← countP_kinds entries]
  omega

end Tally

end Stats

/-! ### Writing the counters -/

/-- A number that is no greater than one that can be written can be written. -/
theorem Text.isWritable_of_le {n k : Int} (hn : 0 ≤ n) (hle : n ≤ k)
    (hk : Text.isWritable k = true) : Text.isWritable n = true := by
  rw [Text.isWritable, decide_eq_true_iff] at hk ⊢
  have habs : n.natAbs ≤ k.natAbs := by omega
  exact Nat.lt_of_le_of_lt habs hk

theorem roundDiv_le (num den : Nat) : roundDiv num den ≤ num / den + 1 := by
  simp only [roundDiv]
  split <;> omega

namespace Binary64

/-- The significand of a quotient that is at most one is scaled up. -/
theorem exponentFor_le {num den : Nat} (hnum : num ≠ 0) (h : num ≤ den) :
    exponentFor num den ≤ -52 := by
  have hlog : num.log2 ≤ den.log2 :=
    (Nat.le_log2 (by omega)).2 (Nat.le_trans (Nat.log2_self_le hnum) h)
  simp only [exponentFor, leastExponent]
  split <;> omega

/-- A quotient that is at most one, times a power of two, is rounded to little more than that. -/
theorem log2_roundDiv_shiftLeft_lt {num den : Nat} (h : num ≤ den) (k : Nat) :
    (roundDiv (num <<< k) den).log2 < k + 2 := by
  have hdiv : num <<< k / den ≤ 2 ^ k := by
    rw [Nat.shiftLeft_eq]
    exact Nat.div_le_of_le_mul (Nat.mul_le_mul_right _ h)
  have hround : roundDiv (num <<< k) den < 2 ^ (k + 2) := by
    have hle := roundDiv_le (num <<< k) den
    have hpos := Nat.two_pow_pos k
    rw [Nat.pow_add]
    omega
  rcases Nat.eq_zero_or_pos (roundDiv (num <<< k) den) with hzero | hpos
  · rw [hzero, Nat.log2_zero]
    omega
  · exact (Nat.log2_lt (by omega)).2 hround

/-- A quotient that is at most one is rounded to a finite number. -/
theorem isInfinite_ofMagnitude (negative : Bool) {num den : Nat} (h : num ≤ den) :
    (ofMagnitude negative num den).isInfinite = false := by
  by_cases hnum : num = 0
  · rw [ofMagnitude, if_pos hnum]
    rfl
  · have hexponent := exponentFor_le hnum h
    obtain ⟨k, hk⟩ : ∃ k : Nat, exponentFor num den = -(k : Int) :=
      ⟨(-exponentFor num den).toNat, by omega⟩
    have hscaled : scaled num k = (num <<< k, 1) := if_pos (Int.natCast_nonneg k)
    -- The numerator is scaled up by as much as the exponent scales down, so they cancel out.
    have hlog := log2_roundDiv_shiftLeft_lt h k
    simp only [ofMagnitude, if_neg hnum, hk, Int.neg_neg, hscaled, Nat.one_mul]
    rw [if_neg (by omega)]
    rfl

end Binary64

namespace Stats.Tally

variable {entries : List Entry} {s : Stats}

/-- No number of trials exceeds that of all trials. -/
theorem countP_le_total (h : Tally entries s) (p : Entry → Bool) :
    0 ≤ (entries.countP p : Int) ∧ (entries.countP p : Int) ≤ s.total := by
  rw [h.total_eq]
  exact ⟨Int.natCast_nonneg _, Int.ofNat_le.2 List.countP_le_length⟩

theorem bugs_le_total (h : Tally entries s) : 0 ≤ s.bugs ∧ s.bugs ≤ s.total := by
  rw [h.bugs_eq]
  exact h.countP_le_total _

/-- No counter exceeds the number of trials. -/
theorem le_total_of_mem_counters (h : Tally entries s) :
    ∀ c ∈ s.counters, 0 ≤ c.2 ∧ c.2 ≤ s.total := by
  have hkind : ∀ k, 0 ≤ s.ofKind k ∧ s.ofKind k ≤ s.total := by
    intro k
    rw [h.ofKind_eq]
    exact h.countP_le_total _
  have hchecked : 0 ≤ s.checked ∧ s.checked ≤ s.total := by
    rw [h.checked_eq]
    exact h.countP_le_total _
  have hbugs := h.bugs_le_total
  have hcorrect : 0 ≤ s.correct ∧ s.correct ≤ s.total := by
    rw [correct]
    omega
  have htotal : 0 ≤ s.total ∧ s.total ≤ s.total := by omega
  simp only [counters, List.forall_mem_cons]
  exact ⟨htotal, hchecked, hkind .success, hkind .fault, hkind .timeout, hkind .crash, hbugs,
    hcorrect, List.forall_mem_nil _⟩

/-- The share of bugs is a number. -/
theorem exists_bugRate (h : Tally entries s) : ∃ rate, s.bugRate = .ok rate := by
  obtain ⟨hbugs, hle⟩ := h.bugs_le_total
  have hfinite : (Binary64.ofRatio s.bugs s.total.toNat).isInfinite = false :=
    Binary64.isInfinite_ofMagnitude _ (by omega)
  simp only [bugRate, hfinite]
  split <;> exact ⟨_, rfl⟩

/-- The summary of a series is printed to its end if and only if the number of trials can be
written. -/
theorem ending_summary_iff (h : Tally entries s) :
    s.summary.ending = .ok () ↔ Text.isWritable s.total = true := by
  have hall : (s.counters.all fun c ↦ Text.isWritable c.2) = Text.isWritable s.total := by
    rw [Bool.eq_iff_iff, List.all_eq_true]
    constructor
    · intro hall
      exact hall (_, s.total) List.mem_cons_self
    · intro htotal c hc
      obtain ⟨hnonneg, hle⟩ := h.le_total_of_mem_counters c hc
      exact Text.isWritable_of_le hnonneg hle htotal
  obtain ⟨rate, hrate⟩ := h.exists_bugRate
  unfold summary
  rw [hall, hrate]
  cases Text.isWritable s.total with
  | false => simp [Attempt.fail]
  | true =>
    simp only [Bool.not_true, Bool.false_eq_true, if_false, iff_true]
    split <;> rfl

end Stats.Tally

end TaggedStack
