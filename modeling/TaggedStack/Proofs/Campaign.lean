import TaggedStack.Fuzz
import TaggedStack.Proofs.Tallies
import TaggedStack.Proofs.Verdicts

/-!
# What a campaign reports

A campaign draws cases, runs and judges each, and counts. The drawing does not depend on the trials,
so its cases can be drawn beforehand (`Generate.several`): the counters at its end are those of the
drawn cases, each with the result of a trial of its own. What was printed and what the journals hold
has no influence on them.

Drawn cases are well-formed, so the judgement of each is known: none crashes, and exactly the
programs of expressions that are cut off by the budget are called bugs. All of them decode, so the
report of a bug breaks off only where a number in it has too many digits. For a case that was cut
off that is the budget, and for the campaign's header it is the number of cases.

* `Report.ending_bug_iff`: when the report of a drawn case breaks off.
* `Fuzz.cases_of_drawn`: the cases of a campaign are those that can be drawn beforehand.
* `Fuzz.countP_not_acceptable`: which of the drawn cases are called bugs.
* `Fuzz.reports_what_is_cut_off`: the statistics of a whole campaign.
-/

namespace TaggedStack

/-- The result of a trial does not depend on the journal, whether or not the program loads. -/
theorem Trial.fst_executeWith (journal : Journal) (words : List Int) (maxSteps : Int) (l : Layout) :
    (executeWith journal words maxSteps l).1 = execute words maxSteps l := by
  cases hload : ((Machine.fresh l .emptyBuffer journal).load words).ending with
  | ok count =>
    simp only [execute_eq_executeLoaded hload, executeWith, hload]
  | error e =>
    have hsilent : ((Machine.fresh l .emptyBuffer .silent).load words).ending = .error e := by
      rw [Machine.ending_load] at hload ⊢
      exact hload
    simp only [execute, executeWith, hload, hsilent]

/-- The report of a well-formed case breaks off only where a number cannot be written: that of the
case, or one in its result. -/
theorem Report.ending_bug_iff {c : Case} {l : Layout} (h : c.WellFormed l) (number : Int)
    (actual : Option Result) :
    (bug number c actual).ending = .ok () ↔
      ∀ n ∈ number :: Result.optionNumbers actual, Text.isWritable n = true := by
  obtain ⟨program, hprogram⟩ := exists_assemble_eq h.isWord_of_mem
  show (Attempt.ofList (lines number c actual)).ending = .ok () ↔ _
  simp only [Attempt.ending_ofList_eq_ok_iff, lines, mapM_ofWord_eq_ok_iff.2 hprogram,
    h.optionNumbers_expected, List.forall_mem_cons, mapError_eq_ok_iff,
    Text.exists_written_eq_ok_iff]
  simp [Except.mapError, Except.map]

namespace Fuzz

variable {σ : Type} {plan : Plan} {maxSteps : Int} {drawn : List Case}

/-- What is recorded of a case. -/
def entry (maxSteps : Int) (l : Layout) (c : Case) : Stats.Entry :=
  ⟨c.expected, Trial.execute c.words maxSteps l⟩

/-! ### What is printed -/

variable {c : Campaign σ} {text : Attempt String FuzzError Unit}

theorem source_say : (say plan c text).after.source = c.source := by
  rw [say]
  split <;> rfl

theorem stats_say : (say plan c text).after.stats = c.stats := by
  rw [say]
  split <;> rfl

/-- A verbose campaign goes on if the text can be written, any other goes on anyway. -/
theorem ending_say_eq_ok_iff :
    (say plan c text).ending = .ok () ↔ (plan.verbose = true → text.ending = .ok ()) := by
  rw [say]
  split
  · next hverbose => simp [hverbose]
  · next hsilent => simp [hsilent, Attempt.succeed]

theorem ending_header_eq_ok_iff :
    (header plan).ending = .ok () ↔ Text.isWritable plan.tests = true := by
  simp only [header, Text.written, List.all_cons, List.all_nil, Bool.and_true]
  cases Text.isWritable plan.tests <;> simp [Attempt.succeed, Attempt.fail]

theorem source_opening {source : σ} {journal : Journal} :
    (opening plan source journal).after.source = source := source_say

theorem stats_opening {source : σ} {journal : Journal} :
    (opening plan source journal).after.stats = {} := stats_say

theorem ending_opening_eq_ok_iff {source : σ} {journal : Journal} :
    (opening plan source journal).ending = .ok () ↔
      (plan.verbose = true → Text.isWritable plan.tests = true) := by
  rw [opening, ending_say_eq_ok_iff, Attempt.ending_mapError_eq_ok_iff, ending_header_eq_ok_iff]

theorem ending_closing_eq_ok_iff {entries : List Stats.Entry} (h : Stats.Tally entries c.stats) :
    (closing plan c).ending = .ok () ↔
      (plan.verbose = true → Text.isWritable c.stats.total = true) := by
  rw [closing, ending_say_eq_ok_iff, Attempt.ending_mapError_eq_ok_iff, h.ending_summary_iff]

/-! ### One case -/

/-- A case that was drawn is counted. It is reported if it is not acceptable. -/
theorem exists_conduct_eq (hsteps : plan.config.maxSteps = .number maxSteps) (number : Int)
    (case : Case) (c : Campaign σ) :
    ∃ c' : Campaign σ, c'.source = c.source ∧
      c'.stats = c.stats.enter (entry maxSteps plan.config.layout case) ∧
      conduct plan number case c =
        if (entry maxSteps plan.config.layout case).acceptable then .succeed c' ()
        else say plan c' ((Report.bug number case
          (some (entry maxSteps plan.config.layout case).actual)).mapError .report) := by
  have hresult : (trial c.journal plan.config case).1 =
      (entry maxSteps plan.config.layout case).actual := by
    show (Trial.executeWith c.journal case.words plan.config.maxSteps plan.config.layout).1 = _
    rw [hsteps, Trial.fst_executeWith]
    rfl
  have hacceptable : (trial c.journal plan.config case).2.1 =
      (entry maxSteps plan.config.layout case).acceptable := by
    show Trial.agrees case.expected (some (trial c.journal plan.config case).1) = _
    rw [hresult]
    rfl
  refine ⟨{ c with
    stats := c.stats.enter (entry maxSteps plan.config.layout case)
    journal := (trial c.journal plan.config case).2.2 }, rfl, rfl, ?_⟩
  rw [conduct]
  dsimp only
  rw [hresult, hacceptable]
  rfl

theorem source_conduct (hsteps : plan.config.maxSteps = .number maxSteps) (number : Int)
    (case : Case) (c : Campaign σ) : (conduct plan number case c).after.source = c.source := by
  obtain ⟨c', hsource, -, heq⟩ := exists_conduct_eq hsteps number case c
  rw [heq]
  split
  · exact hsource
  · rw [source_say, hsource]

theorem stats_conduct (hsteps : plan.config.maxSteps = .number maxSteps) (number : Int)
    (case : Case) (c : Campaign σ) :
    (conduct plan number case c).after.stats =
      c.stats.enter (entry maxSteps plan.config.layout case) := by
  obtain ⟨c', -, hstats, heq⟩ := exists_conduct_eq hsteps number case c
  rw [heq]
  split
  · exact hstats
  · rw [stats_say, hstats]

/-- A verbose campaign ends at a case that is cut off by a budget that cannot be written. -/
theorem ending_conduct_eq_ok_iff (hsteps : plan.config.maxSteps = .number maxSteps) {number : Int}
    (hnumber : plan.verbose = true → Text.isWritable number = true) {case : Case}
    (hcase : case.WellFormed plan.config.layout) (c : Campaign σ) :
    (conduct plan number case c).ending = .ok () ↔
      (plan.verbose = true → case.expected.isSome = true →
        Trial.RunsOut case.words maxSteps plan.config.layout →
          Text.isWritable maxSteps = true) := by
  obtain ⟨c', -, -, heq⟩ := exists_conduct_eq hsteps number case c
  have hbug : (entry maxSteps plan.config.layout case).acceptable = false ↔ _ :=
    hcase.agrees_eq_false_iff maxSteps
  rw [heq]
  split
  · next hacceptable =>
    refine iff_of_true rfl fun _ hexpected hout ↦ ?_
    rw [hbug.2 ⟨hexpected, hout⟩] at hacceptable
    cases hacceptable
  · next hrejected =>
    obtain ⟨hexpected, hout⟩ := hbug.1 (Bool.eq_false_of_not_eq_true hrejected)
    have hresult : (entry maxSteps plan.config.layout case).actual = .timeout maxSteps :=
      hcase.execute_of_runsOut hexpected hout
    rw [ending_say_eq_ok_iff, Attempt.ending_mapError_eq_ok_iff, Report.ending_bug_iff hcase,
      hresult]
    show (_ → ∀ n ∈ [number, maxSteps], _) ↔ _
    rw [List.forall_mem_cons, List.forall_mem_singleton]
    simp only [hexpected, hout, true_imp_iff]
    exact ⟨fun h hverbose ↦ (h hverbose).2, fun h hverbose ↦ ⟨hnumber hverbose, h hverbose⟩⟩

variable [WordSource σ]

/-! ### What is drawn, and how it is judged -/

section

variable {n attempts : Nat} {source : σ} {config : Config} {l : Layout}

theorem wellFormed_of_mem_drawn {g : Generator}
    (hdrawn : ((Generate.several (g.draw config) n).perform attempts source).1 = .ok drawn) :
    ∀ c ∈ drawn, c.WellFormed config.layout := by
  intro c hc
  have hgives : (Generate.several (g.draw config) n : Draw σ _).Gives drawn :=
    ⟨attempts, source, hdrawn⟩
  exact Generator.wellFormed_of_draw (hgives.forall_mem_several c hc)

/-- The generator of expressions foretells every result. -/
theorem isSome_of_mem_drawn
    (hdrawn : ((Generate.several (Generator.expression.draw config) n).perform attempts
      source).1 = .ok drawn) :
    ∀ c ∈ drawn, c.expected.isSome = true := by
  intro c hc
  have hgives : (Generate.several (Generator.expression.draw config) n : Draw σ _).Gives drawn :=
    ⟨attempts, source, hdrawn⟩
  obtain ⟨e, -, rfl⟩ := Generate.exists_of_expression (hgives.forall_mem_several c hc)
  rfl

theorem countP_crash_eq_zero (h : ∀ c ∈ drawn, c.WellFormed l) (maxSteps : Int) :
    (drawn.map (entry maxSteps l)).countP (·.actual.kind = .crash) = 0 := by
  rw [List.countP_map, List.countP_eq_zero]
  intro c hc hcrash
  have hcrash := Result.kind_eq_crash_iff.1 (of_decide_eq_true hcrash)
  rw [entry, (h c hc).isCrash_execute] at hcrash
  cases hcrash

theorem countP_not_acceptable (h : ∀ c ∈ drawn, c.WellFormed l) (maxSteps : Int) :
    (drawn.map (entry maxSteps l)).countP (!·.acceptable) =
      drawn.countP fun c ↦ c.expected.isSome ∧ Trial.RunsOut c.words maxSteps l := by
  rw [List.countP_map]
  refine List.countP_congr fun c hc ↦ ?_
  rw [decide_eq_true_iff, ← (h c hc).agrees_eq_false_iff, ← Bool.not_eq_true']
  rfl

theorem countP_runsOut_eq_zero (h : ∀ c ∈ drawn, c.WellFormed l)
    (hsteps : (l.instructionCapacity : Int) ≤ maxSteps) :
    drawn.countP (fun c ↦ c.expected.isSome ∧ Trial.RunsOut c.words maxSteps l) = 0 := by
  rw [List.countP_eq_zero]
  intro c hc hbug
  obtain ⟨hexpected, hout⟩ := of_decide_eq_true hbug
  exact (h c hc).not_runsOut hexpected hsteps hout

end

/-! ### A series of cases -/

/-- If as many cases as asked for can be drawn one after another, then a series of cases comes to
its end and counts these, unless it is to report that a case was cut off and cannot write the
budget. -/
theorem cases_of_drawn (hsteps : plan.config.maxSteps = .number maxSteps) {n : Nat}
    (hdrawn : ((Generate.several (plan.generator.draw plan.config) n).perform plan.attempts
      c.source).1 = .ok drawn) (number : Int)
    (hnumbers : plan.verbose = true → ∀ i : Nat, i < n → Text.isWritable (number + i) = true) :
    ((cases plan number n c).ending = .ok () ↔ (plan.verbose = true → ∀ case ∈ drawn,
        case.expected.isSome = true → Trial.RunsOut case.words maxSteps plan.config.layout →
          Text.isWritable maxSteps = true)) ∧
      ((cases plan number n c).ending = .ok () →
        (cases plan number n c).after.stats =
          (drawn.map (entry maxSteps plan.config.layout)).foldl Stats.enter c.stats) := by
  induction n generalizing c drawn number with
  | zero =>
    obtain rfl : [] = drawn := Except.ok.inj hdrawn
    exact ⟨iff_of_true rfl fun _ ↦ List.forall_mem_nil _, fun _ ↦ rfl⟩
  | succ n ih =>
    have hwell := wellFormed_of_mem_drawn hdrawn
    obtain ⟨case, later, rest, hfirst, hrest, rfl⟩ := Draw.exists_of_perform_several hdrawn
    have hnumber : plan.verbose = true → Text.isWritable number = true := fun hverbose ↦ by
      have hwritable := hnumbers hverbose 0 (Nat.succ_pos n)
      rwa [Int.natCast_zero, Int.add_zero] at hwritable
    have hconduct := ending_conduct_eq_ok_iff hsteps hnumber (hwell case List.mem_cons_self)
      { c with source := later }
    -- The other cases are drawn from where the first leaves the source, which its trial does not
    -- touch.
    have hsource : (conduct plan number case { c with source := later }).after.source = later :=
      source_conduct hsteps number case _
    rw [← hsource] at hrest
    obtain ⟨hending, hstats⟩ := ih hrest (number + 1) fun hverbose i hi ↦ by
      have hwritable := hnumbers hverbose (i + 1) (Nat.succ_lt_succ hi)
      rwa [Int.natCast_succ, Int.add_comm (i : Int), ← Int.add_assoc] at hwritable
    have hcases : cases plan number (n + 1) c =
        (conduct plan number case { c with source := later }).andThen
          (cases plan (number + 1) n) := by
      rw [cases, hfirst]
    rw [stats_conduct hsteps] at hstats
    rw [hcases, Attempt.ending_andThen_eq_ok_iff, hconduct, hending]
    refine ⟨?_, fun h ↦ ?_⟩
    · simp only [List.forall_mem_cons]
      exact forall_and.symm
    · rw [Attempt.andThen_of_ok (hconduct.2 h.1)]
      exact hstats (hending.2 h.2)

/-! ### Whole campaigns -/

section

variable {source : σ} {journal : Journal}

theorem ending_run_eq_ok_iff :
    let finished := cases plan 1 plan.tests.toNat (opening plan source journal).after
    (run plan source journal).ending = .ok () ↔
      (plan.verbose = true → Text.isWritable plan.tests = true) ∧ finished.ending = .ok () ∧
        (closing plan finished.after).ending = .ok () := by
  rw [run, Attempt.ending_andThen_eq_ok_iff, Attempt.ending_andThen_eq_ok_iff,
    ending_opening_eq_ok_iff]

/-- Nothing is counted but the cases. -/
theorem stats_run (h : (run plan source journal).ending = .ok ()) :
    (run plan source journal).after.stats =
      (cases plan 1 plan.tests.toNat (opening plan source journal).after).after.stats := by
  obtain ⟨hwritable, hfinished, -⟩ := ending_run_eq_ok_iff.1 h
  rw [run, Attempt.andThen_of_ok (ending_opening_eq_ok_iff.2 hwritable),
    Attempt.andThen_of_ok hfinished, closing, stats_say]

end

/-- A campaign whose cases can be drawn comes to its end if what it is to print can be written, and
then has their counters. -/
theorem run_of_drawn {source : σ} (htests : 0 ≤ plan.tests)
    (hsteps : plan.config.maxSteps = .number maxSteps)
    (hdrawn : ((Generate.several (plan.generator.draw plan.config) plan.tests.toNat).perform
      plan.attempts source).1 = .ok drawn) (journal : Journal) :
    ((run plan source journal).ending = .ok () ↔ (plan.verbose = true →
        Text.isWritable plan.tests = true ∧ ∀ case ∈ drawn, case.expected.isSome = true →
          Trial.RunsOut case.words maxSteps plan.config.layout →
            Text.isWritable maxSteps = true)) ∧
      ((run plan source journal).ending = .ok () →
        Stats.Tally (drawn.map (entry maxSteps plan.config.layout))
          (run plan source journal).after.stats) := by
  have hlength := Draw.length_of_perform_several hdrawn
  have hsource : (opening plan source journal).after.source = source := source_opening
  rw [← hsource] at hdrawn
  let finished := cases plan 1 plan.tests.toNat (opening plan source journal).after
  have hcases := fun hwritable : plan.verbose = true → Text.isWritable plan.tests = true ↦
    cases_of_drawn hsteps hdrawn 1 fun hverbose i hi ↦
      Text.isWritable_of_le (by omega) (by omega) (hwritable hverbose)
  have htally : (plan.verbose = true → Text.isWritable plan.tests = true) →
      finished.ending = .ok () →
      Stats.Tally (drawn.map (entry maxSteps plan.config.layout)) finished.after.stats := by
    intro hwritable hfinished
    rw [(hcases hwritable).2 hfinished, stats_opening]
    exact Stats.Tally.initial.foldl_enter _
  refine ⟨⟨fun hending hverbose ↦ ?_, fun h ↦ ?_⟩, fun hending ↦ ?_⟩
  · obtain ⟨hwritable, hfinished, -⟩ := ending_run_eq_ok_iff.1 hending
    exact ⟨hwritable hverbose, (hcases hwritable).1.1 hfinished hverbose⟩
  · -- The number of cases is the greatest counter, so the summary can be written if the header can.
    have hwritable := fun hverbose ↦ (h hverbose).1
    have hfinished := (hcases hwritable).1.2 fun hverbose ↦ (h hverbose).2
    have htotal : finished.after.stats.total = plan.tests := by
      rw [(htally hwritable hfinished).total_eq, List.length_map, hlength]
      exact Int.toNat_of_nonneg htests
    refine ending_run_eq_ok_iff.2 ⟨hwritable, hfinished, ?_⟩
    rw [ending_closing_eq_ok_iff (htally hwritable hfinished), htotal]
    exact hwritable
  · obtain ⟨hwritable, hfinished, -⟩ := ending_run_eq_ok_iff.1 hending
    rw [stats_run hending]
    exact htally hwritable hfinished

/-- **A campaign reports exactly the expressions that are cut off.** Whatever the generator and the
words it draws from, if all cases can be drawn then the campaign comes to its end, unless it is to
print a number that cannot be written: that of the trials, or the budget in the report of a case
that was cut off. At its end every case is counted, none as a crash; and a case is counted as a bug
exactly when it is the program of an expression whose run is not over when the budget is used up. No
such case exists if there are as many cycles as there is room for instructions. -/
theorem reports_what_is_cut_off {source : σ} (htests : 0 ≤ plan.tests)
    (hsteps : plan.config.maxSteps = .number maxSteps)
    (hdrawn : ((Generate.several (plan.generator.draw plan.config) plan.tests.toNat).perform
      plan.attempts source).1 = .ok drawn) (journal : Journal) :
    let stats := (run plan source journal).after.stats
    ((run plan source journal).ending = .ok () ↔ (plan.verbose = true →
        Text.isWritable plan.tests = true ∧ ∀ c ∈ drawn, c.expected.isSome = true →
          Trial.RunsOut c.words maxSteps plan.config.layout → Text.isWritable maxSteps = true)) ∧
      (∀ c ∈ drawn, c.WellFormed plan.config.layout ∧
        ∀ number actual, (Report.bug number c actual).ending = .ok () ↔
          ∀ n ∈ number :: Result.optionNumbers actual, Text.isWritable n = true) ∧
      ((run plan source journal).ending = .ok () →
        stats.total = plan.tests ∧
        stats.crashes = 0 ∧
        stats.halted + stats.faults + stats.timeouts = plan.tests ∧
        stats.bugs = drawn.countP (fun c ↦
          c.expected.isSome ∧ Trial.RunsOut c.words maxSteps plan.config.layout) ∧
        ((plan.config.layout.instructionCapacity : Int) ≤ maxSteps → stats.bugs = 0) ∧
        (plan.generator = .expression → stats.checked = plan.tests)) := by
  intro stats
  obtain ⟨hends, htally⟩ := run_of_drawn htests hsteps hdrawn journal
  have hwell := wellFormed_of_mem_drawn hdrawn
  refine ⟨hends, fun c hc ↦ ⟨hwell c hc, Report.ending_bug_iff (hwell c hc)⟩, fun hending ↦ ?_⟩
  have htally := htally hending
  have htotal : stats.total = plan.tests := by
    rw [htally.total_eq, List.length_map, Draw.length_of_perform_several hdrawn]
    exact Int.toNat_of_nonneg htests
  have hcrashes : stats.crashes = 0 := by
    show stats.ofKind .crash = 0
    rw [htally.ofKind_eq, countP_crash_eq_zero hwell]
    rfl
  have hbugs := htally.bugs_eq
  rw [countP_not_acceptable hwell] at hbugs
  refine ⟨htotal, hcrashes, ?_, hbugs, fun henough ↦ ?_, fun hgenerator ↦ ?_⟩
  · have hsum : stats.halted + stats.faults + stats.timeouts + stats.crashes = stats.total :=
      htally.halted_add_faults_add_timeouts_add_crashes
    omega
  · rw [hbugs, countP_runsOut_eq_zero hwell henough]
    rfl
  · rw [hgenerator] at hdrawn
    rw [← htotal, htally.checked_eq, htally.total_eq, List.countP_map, List.length_map]
    exact congrArg Nat.cast (List.countP_eq_length.2 (isSome_of_mem_drawn hdrawn))

/-- Of a constant and a sum, a budget of four cycles cuts off the sum. -/
theorem reports_what_is_cut_off_sum :
    let plan : Plan :=
      { tests := 2
        generator := .expression
        config :=
          { maxDepth := 1
            maxSteps := .number 4
            layout := ⟨8, 3, 8, by decide, by decide, by decide⟩ }
        attempts := 1 }
    let source : WordStream :=
      ⟨[0, 0, 0x30000000, 0x80000000, 0, 0x10000000, 0x20000000], 0⟩
    let drawn : List Case :=
      [ ⟨[3, 0x40000008, 0x40000000], some (.success [0x33] none)⟩,
        ⟨[1, 2, 0x40000001, 0x40000008, 0x40000000], some (.success [0x33] none)⟩ ]
    0 ≤ plan.tests ∧ plan.config.maxSteps = .number 4 ∧
      ((Generate.several (plan.generator.draw plan.config) plan.tests.toNat).perform
        plan.attempts source).1 = .ok drawn ∧
      (run plan source .silent).ending = .ok () ∧
      (run plan source .silent).after.stats.bugs = 1 ∧
      (run plan source .silent).after.stats.checked = 2 := by
  intro plan source drawn
  have hdrawn : ((Generate.several (plan.generator.draw plan.config) plan.tests.toNat).perform
      plan.attempts source).1 = .ok drawn := by decide
  obtain ⟨hends, -, hcounted⟩ := reports_what_is_cut_off (by decide) rfl hdrawn .silent
  have hending : (run plan source .silent).ending = .ok () := hends.2 fun _ ↦
    ⟨Text.isWritable_of_lt (by decide), fun _ _ _ _ ↦ Text.isWritable_of_lt (by decide)⟩
  obtain ⟨-, -, -, hbugs, -, hchecked⟩ := hcounted hending
  have hcut : drawn.countP (fun c ↦
      c.expected.isSome ∧ Trial.RunsOut c.words 4 plan.config.layout) = 1 := by decide
  refine ⟨by decide, rfl, hdrawn, hending, ?_, hchecked rfl⟩
  rw [hbugs, hcut]
  rfl

end Fuzz

end TaggedStack
