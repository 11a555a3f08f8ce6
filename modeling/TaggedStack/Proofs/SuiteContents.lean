import TaggedStack.Proofs.Distinct
import TaggedStack.Proofs.Enumeration
import TaggedStack.Proofs.SuiteEnding

/-!
# What is in a suite

A suite is read from six sources: the programs of expressions, and the tests of jumps, of the
program data, of the stack, of unknown operations and of tags. The sources overlap. The programs of
shallow expressions come again with those of each greater depth, and in a small layout tests for
different edges coincide. A suite keeps the first of equal programs, so it lists what its sources
list, each program once and in the order of first occurrences.

If a source breaks off, those after it are not read. Hence the condition on the layout: there is
room for two instructions and a word of program data, which is when all sources end well.

* `Enumerate.after_suite`: a suite is what its sources give, without repetitions.
* `Enumerate.compile_mem_programs`: the programs of all expressions up to a depth are listed.
* `Enumerate.suite_lists_each_once`: what a suite lists, and in which order.
-/

namespace TaggedStack

/-- Lists that are read one after the other give what each gives, if the first has no failure. -/
theorem Attempt.after_ofList_append {ε α : Type} {xs ys : List (Except ε α)}
    (h : (ofList xs).ending = .ok ()) :
    (ofList (xs ++ ys)).after = (ofList xs).after ++ (ofList ys).after := by
  induction xs with
  | nil => rfl
  | cons x xs ih =>
    cases x with
    | ok x => exact congrArg (x :: ·) (ih h)
    | error e => cases h

namespace Enumerate

variable {maxDepth : Nat} {l : Layout}

/-! ### The sources -/

/-- What a suite is read from, in this order. -/
def sources (maxDepth : Nat) (l : Layout) : List (Attempt (List (List Int)) CodecError Unit) :=
  [.succeed (programs boundaryConstants maxDepth) (), .ofList (jumpTests l),
    .ofList (dataTests l), .succeed stackTests (), .succeed unknownTests (),
    .succeed literalTests ()]

/-- All that the sources of a suite give, one after the other. -/
def joined (maxDepth : Nat) (l : Layout) : List (List Int) :=
  (sources maxDepth l).flatMap Attempt.after

theorem ending_jumpTests_eq_ok (hcapacity : 2 ≤ l.instructionCapacity)
    (hsize : l.memSize < 0x3FFFFFFF) : (Attempt.ofList (jumpTests l)).ending = .ok () := by
  rw [ending_jumpTests, misfit?_jumpTargets hsize, if_pos hcapacity]
  rfl

theorem ending_dataTests_eq_ok (hdata : 1 ≤ l.dataSize) (hsize : l.memSize < 0x3FFFFFFF) :
    (Attempt.ofList (dataTests l)).ending = .ok () := by
  rw [ending_dataTests, misfit?_dataAddresses hsize, if_pos hdata]
  rfl

theorem ending_suite_eq_ok (maxDepth : Int) (hcapacity : 2 ≤ l.instructionCapacity)
    (hdata : 1 ≤ l.dataSize) (hsize : l.memSize < 0x3FFFFFFF) :
    (suite maxDepth l).ending = .ok () := by
  rw [ending_suite, misfit?_append, misfit?_jumpTargets hsize, misfit?_dataAddresses hsize,
    if_pos hcapacity, if_pos hdata]
  rfl

/-- The tests of edges are read to the end of each source. -/
theorem after_edgeTests (hjump : (Attempt.ofList (jumpTests l)).ending = .ok ())
    (hdata : (Attempt.ofList (dataTests l)).ending = .ok ()) :
    (Attempt.ofList (edgeTests l)).after =
      (Attempt.ofList (jumpTests l)).after ++ (Attempt.ofList (dataTests l)).after ++
        (stackTests ++ unknownTests ++ literalTests) := by
  have hboth : (Attempt.ofList (jumpTests l ++ dataTests l)).ending = .ok () := by
    rw [Attempt.ending_ofList_append, hjump, hdata]
    rfl
  rw [edgeTests, Attempt.after_ofList_append hboth, Attempt.after_ofList_append hjump,
    Attempt.ofList_map_ok]
  rfl

/-- **A suite is what its sources give, without repetitions.** -/
theorem after_suite (hjump : (Attempt.ofList (jumpTests l)).ending = .ok ())
    (hdata : (Attempt.ofList (dataTests l)).ending = .ok ()) :
    (suite maxDepth l).after = distinct (joined maxDepth l) := by
  have hdepth : ¬(maxDepth : Int) < 0 := Int.not_lt.2 (Int.natCast_nonneg maxDepth)
  have hjoined : joined maxDepth l =
      programs boundaryConstants maxDepth ++ (Attempt.ofList (edgeTests l)).after := by
    rw [after_edgeTests hjump hdata]
    simp [joined, sources, Attempt.succeed]
  rw [suite, if_neg hdepth, Int.toNat_natCast, hjoined]

/-! ### Programs of expressions -/

/-- The programs of all expressions up to a depth are listed. -/
theorem compile_mem_programs {constants : List Payload} {e : Expr} (hdepth : e.depth ≤ maxDepth)
    (hconstants : ∀ c ∈ e.constants, c ∈ constants) :
    e.compile ∈ programs constants maxDepth := by
  refine List.mem_flatMap.2 ⟨maxDepth, List.mem_range.2 (Nat.lt_succ_self maxDepth), ?_⟩
  exact List.mem_map_of_mem (mem_expressions_iff.2 ⟨hdepth, hconstants⟩)

/-! ### The suite -/

/-- **A suite lists each program of its sources once.** If there is room for two instructions and a
word of program data, all sources and the suite end well. No program is repeated, the programs are
those of the six sources, they stand in the order of their first occurrences there, and the program
of every expression over the boundary constants that is not too deep is listed exactly once. -/
theorem suite_lists_each_once (maxDepth : Nat) (hcapacity : 2 ≤ l.instructionCapacity)
    (hdata : 1 ≤ l.dataSize) (hsize : l.memSize < 0x3FFFFFFF) :
    let listed := (suite maxDepth l).after
    let met := joined maxDepth l
    ((suite maxDepth l).ending = .ok () ∧
        ∀ source ∈ sources maxDepth l, source.ending = .ok ()) ∧
      listed.Nodup ∧
      (∀ p, p ∈ listed ↔ ∃ source ∈ sources maxDepth l, p ∈ source.after) ∧
      (∀ p ∈ listed, ∀ q ∈ listed, listed.idxOf p < listed.idxOf q ↔ met.idxOf p < met.idxOf q) ∧
      ∀ e : Expr, e.depth ≤ maxDepth → (∀ c ∈ e.constants, c ∈ boundaryConstants) →
        listed.count e.compile = 1 := by
  intro listed met
  have hjump := ending_jumpTests_eq_ok hcapacity hsize
  have htests := ending_dataTests_eq_ok hdata hsize
  have hlisted : listed = distinct met := after_suite hjump htests
  have hnodup : listed.Nodup := hlisted ▸ nodup_distinct met
  have hmem : ∀ p, p ∈ listed ↔ p ∈ met := fun p ↦ by rw [hlisted, mem_distinct_iff]
  refine ⟨⟨ending_suite_eq_ok maxDepth hcapacity hdata hsize, ?_⟩, hnodup, fun p ↦ ?_,
    fun p hp q hq ↦ ?_, fun e hdepth hconstants ↦ ?_⟩
  · simp only [sources, List.forall_mem_cons]
    exact ⟨rfl, hjump, htests, rfl, rfl, rfl, fun _ h ↦ absurd h List.not_mem_nil⟩
  · rw [hmem]
    exact List.mem_flatMap
  · rw [hlisted]
    exact idxOf_distinct_lt_iff ((hmem p).1 hp) ((hmem q).1 hq)
  · have hprogram : e.compile ∈ met :=
      List.mem_append_left _ (compile_mem_programs hdepth hconstants)
    exact List.count_eq_one_of_mem hnodup ((hmem _).2 hprogram)

/-- In a memory of four words many edges coincide, and a quotient of two constants is met again
among the expressions of depth two; its program is listed once. -/
theorem suite_lists_each_once_small :
    let l : Layout := ⟨4, 1, 3, by decide, by decide, by decide⟩
    let e : Expr := .node .div (.const 0xFF) (.const 0)
    2 ≤ l.instructionCapacity ∧ 1 ≤ l.dataSize ∧ l.memSize < 0x3FFFFFFF ∧
      e.depth ≤ 2 ∧ (∀ c ∈ e.constants, c ∈ boundaryConstants) ∧
      (suite 2 l).after.Nodup ∧ (suite 2 l).after.count e.compile = 1 := by
  intro l e
  have hconstants : ∀ c ∈ e.constants, c ∈ boundaryConstants := by
    simp [e, Expr.constants, boundaryConstants]
  obtain ⟨-, hnodup, -, -, hcount⟩ :=
    suite_lists_each_once (l := l) 2 (by decide) (by decide) (by decide)
  exact ⟨by decide, by decide, by decide, by decide, hconstants, hnodup,
    hcount e (by decide) hconstants⟩

end Enumerate

end TaggedStack
