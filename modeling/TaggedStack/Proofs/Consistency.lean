import TaggedStack.Proofs.Tallies

/-!
# Counters that agree with each other

A trial moves up to three groups of counters: that of foretold results, those of the kinds of
results, and that of bugs. They are moved apart from each other, and what ties them together is the
judgement of a trial alone. A crash is never acceptable (`Stats.Entry.not_acceptable_of_crash`), so
every crash is a bug; and a result that is not acceptable is a crash or was foretold otherwise
(`Stats.Entry.crash_or_foretold`), so the bugs that are no crashes are among the foretold.

As the counters are numbers of trials (`Stats.Tally`), these two facts about one trial are
inequalities between the counters of a series, and no counter depends on the order of the trials.

* `Stats.Tally.crashes_le_bugs`, `Stats.Tally.bugs_le_crashes_add_checked`: bugs lie between the
  crashes and the crashes with the foretold results.
* `Stats.Tally.eq_of_perm`: series with the same trials have the same counters.
* `Stats.consistent_in_any_order`: the counters of a series, of all its beginnings and in any order.
-/

namespace TaggedStack.Stats

/-! ### The judgement of a trial -/

namespace Entry

variable {t : Entry}

/-- A crash is not acceptable, whatever was foretold. -/
theorem not_acceptable_of_crash (h : t.actual.kind = .crash) : t.acceptable = false := by
  rw [acceptable, Trial.agrees, Option.any_some, Result.kind_eq_crash_iff.1 h]
  rfl

/-- A result that is not acceptable is a crash, or something was foretold. -/
theorem crash_or_foretold (h : t.acceptable = false) :
    t.actual.kind = .crash ∨ t.expected.isSome = true := by
  rw [acceptable, Trial.agrees, Option.any_some, Bool.and_eq_false_iff] at h
  rcases h with hcrash | hother
  · exact .inl (Result.kind_eq_crash_iff.2 (by simpa using hcrash))
  · rw [Bool.or_eq_false_iff, Option.isNone_eq_false_iff] at hother
    exact .inr hother.1

end Entry

theorem countP_not_acceptable_le (entries : List Entry) :
    entries.countP (!·.acceptable) ≤
      entries.countP (·.actual.kind = .crash) + entries.countP (·.expected.isSome) := by
  induction entries with
  | nil => exact Nat.le_refl 0
  | cons t entries ih =>
    -- One more bug is one more crash or one more foretold result.
    have hcause := t.crash_or_foretold
    simp only [List.countP_cons]
    grind

/-! ### Among the counters of a series -/

namespace Tally

variable {entries : List Entry} {s : Stats}

/-- Every crash is a bug. -/
theorem crashes_le_bugs (h : Tally entries s) : s.crashes ≤ s.bugs := by
  have hcrashes : s.crashes = _ := h.ofKind_eq .crash
  rw [hcrashes, h.bugs_eq]
  refine Int.ofNat_le.2 (List.countP_mono_left fun t _ hcrash ↦ ?_)
  rw [t.not_acceptable_of_crash (of_decide_eq_true hcrash)]
  rfl

/-- Every bug is a crash or a trial with a foretold result. -/
theorem bugs_le_crashes_add_checked (h : Tally entries s) : s.bugs ≤ s.crashes + s.checked := by
  have hcrashes : s.crashes = _ := h.ofKind_eq .crash
  rw [hcrashes, h.bugs_eq, h.checked_eq]
  exact_mod_cast countP_not_acceptable_le entries

theorem checked_le_total (h : Tally entries s) : s.checked ≤ s.total := by
  rw [h.checked_eq]
  exact (h.countP_le_total _).2

/-- Series with the same trials have the same counters. -/
theorem eq_of_perm {entries' : List Entry} {s' : Stats} (h : Tally entries s)
    (h' : Tally entries' s') (hperm : entries.Perm entries') : s = s' := by
  have htotal : s.total = s'.total := by rw [h.total_eq, h'.total_eq, hperm.length_eq]
  have hbugs : s.bugs = s'.bugs := by rw [h.bugs_eq, h'.bugs_eq, hperm.countP_eq]
  have hchecked : s.checked = s'.checked := by
    rw [h.checked_eq, h'.checked_eq, hperm.countP_eq]
  have hkind : ∀ k, s.ofKind k = s'.ofKind k := by
    intro k
    rw [h.ofKind_eq, h'.ofKind_eq, hperm.countP_eq]
  obtain ⟨total, bugs, crashes, halted, faults, timeouts, checked⟩ := s
  obtain ⟨total', bugs', crashes', halted', faults', timeouts', checked'⟩ := s'
  rw [mk.injEq]
  exact ⟨htotal, hbugs, hkind .crash, hkind .success, hkind .fault, hkind .timeout, hchecked⟩

end Tally

/-- The counters of a series of trials. -/
def ofEntries (entries : List Entry) : Stats := entries.foldl enter {}

theorem tally_ofEntries (entries : List Entry) : Tally entries (ofEntries entries) :=
  Tally.initial.foldl_enter entries

/-- **The counters of a series of trials.** After every trial each counter is the number of trials
it is there to count. So every trial is of one kind, there are no fewer bugs than crashes, and no
more than crashes and foretold results together or than trials. The order of the trials makes no
difference to the counters at the end. -/
theorem consistent_in_any_order (entries : List Entry) :
    (∀ n,
      let s := ofEntries (entries.take n)
      Tally (entries.take n) s ∧
        s.total = s.halted + s.faults + s.timeouts + s.crashes ∧
        s.crashes ≤ s.bugs ∧ s.bugs ≤ s.crashes + s.checked ∧
        s.bugs ≤ s.total ∧ s.checked ≤ s.total) ∧
      ∀ reordered, reordered.Perm entries → ofEntries reordered = ofEntries entries := by
  refine ⟨fun n ↦ ?_, fun reordered hperm ↦ ?_⟩
  · have h := tally_ofEntries (entries.take n)
    exact ⟨h, h.halted_add_faults_add_timeouts_add_crashes.symm, h.crashes_le_bugs,
      h.bugs_le_crashes_add_checked, h.bugs_le_total.2, h.checked_le_total⟩
  · exact (tally_ofEntries reordered).eq_of_perm (tally_ofEntries entries) hperm

/-- A crash of which nothing was foretold, a fault in place of a number, and a program that was cut
off, counted forwards and backwards. -/
theorem consistent_in_any_order_reversed :
    let entries : List Entry :=
      [⟨none, .crash "reason"⟩, ⟨some (.success [] none), .fault "DivisionByZero"⟩,
        ⟨none, .timeout 3⟩]
    entries.reverse.Perm entries ∧
      ofEntries entries.reverse =
        { total := 3, bugs := 2, crashes := 1, faults := 1, timeouts := 1, checked := 1 } := by
  intro entries
  have hperm : entries.reverse.Perm entries := List.reverse_perm entries
  refine ⟨hperm, ((consistent_in_any_order entries).2 _ hperm).trans ?_⟩
  decide

end TaggedStack.Stats
