import TaggedStack.Enumerate

/-!
# Where a suite ends

The tests of edges are written for numbers taken from the layout: targets next to the ends of the
instructions, addresses next to the ends of the program data. Each test starts by making a literal
of its number, so the first number that has no payload ends the whole suite. Whether there is one
depends on the layout alone, not on the expressions listed before.

For a memory whose size is below the largest payload no number is too large. But the number two
below the count of instructions is negative if there is room for one instruction only, and so is
the number one below the size of the program data if there are none.

* `Enumerate.ending_tests`: tests written for a list of numbers end at the first misfit.
* `Enumerate.ending_suite`: a suite ends at the first misfit among its targets and addresses.
* `Enumerate.suite_ends`: the layouts whose suite can be read to its end.
-/

namespace TaggedStack

/-- Two lists read one after the other end as the second does, if the first has no failure. -/
theorem Attempt.ending_ofList_append {ε α : Type} (xs ys : List (Except ε α)) :
    (ofList (xs ++ ys)).ending = (ofList xs).ending >>= fun _ ↦ (ofList ys).ending := by
  induction xs with
  | nil => rfl
  | cons x xs ih =>
    cases x with
    | ok x => exact ih
    | error e => rfl

theorem Payload.isNone_ofInt?_iff {value : Int} :
    (Payload.ofInt? value).isNone = true ↔ value < 0 ∨ 0x40000000 ≤ value := by
  unfold Payload.ofInt?
  split
  · next h => simpa using ⟨h.1, h.2⟩
  · next h => simpa using by omega

namespace Enumerate

variable {l : Layout}

/-! ### Tests for a list of numbers -/

/-- The first of some numbers that has no payload. -/
def misfit? (values : List Int) : Option Int :=
  values.find? fun value ↦ (Payload.ofInt? value).isNone

theorem misfit?_append (xs ys : List Int) :
    misfit? (xs ++ ys) = (misfit? xs).or (misfit? ys) :=
  List.find?_append

/-- How an enumeration ends that meets a misfit, or none. -/
def endingAt : Option Int → Except CodecError Unit
  | none => .ok ()
  | some value => .error (.literalRange value)

theorem withLiteral_of_some {value : Int} {p : Payload} (h : Payload.ofInt? value = some p)
    (program : Instr → List Instr) :
    withLiteral value program = .ok (assemble (program (.literal p))) := by
  simp only [withLiteral, Instr.ofLiteral, h]
  rfl

theorem withLiteral_of_none {value : Int} (h : Payload.ofInt? value = none)
    (program : Instr → List Instr) :
    withLiteral value program = .error (.literalRange value) := by
  simp only [withLiteral, Instr.ofLiteral, h]
  rfl

/-- **Tests written for a list of numbers end at the first misfit.** There has to be a test: without
one, no number is looked at. -/
theorem ending_tests (program : Instr → List Instr) (programs : List (Instr → List Instr))
    (values : List Int) :
    (Attempt.ofList (values.flatMap fun value ↦
      (program :: programs).map (withLiteral value))).ending = endingAt (misfit? values) := by
  induction values with
  | nil => rfl
  | cons value values ih =>
    rw [List.flatMap_cons, Attempt.ending_ofList_append, ih]
    cases hvalue : Payload.ofInt? value with
    | some p =>
      have hfits : misfit? (value :: values) = misfit? values :=
        List.find?_cons_of_neg (by simp [hvalue])
      have hok : (program :: programs).map (withLiteral value) =
          ((program :: programs).map fun f ↦ assemble (f (.literal p))).map .ok := by
        rw [List.map_map]
        exact List.map_congr_left fun f _ ↦ withLiteral_of_some hvalue f
      rw [hfits, hok, Attempt.ofList_map_ok]
      rfl
    | none =>
      have hmisfit : misfit? (value :: values) = some value :=
        List.find?_cons_of_pos (by simp [hvalue])
      rw [hmisfit, List.map_cons, withLiteral_of_none hvalue]
      rfl

/-! ### The numbers of a layout -/

/-- The targets of the jumps in a suite. -/
def jumpTargets (l : Layout) : List Int :=
  let capacity : Int := l.instructionCapacity
  [0, 1, 2, 3, capacity - 2, capacity - 1, capacity, capacity + 1, 0x3FFFFFFF]

/-- The addresses of the loads and stores in a suite. -/
def dataAddresses (l : Layout) : List Int :=
  let size : Int := l.dataSize
  [0, 1, size - 1, size, size + 1, 0x3FFFFFFF]

theorem ending_jumpTests (l : Layout) :
    (Attempt.ofList (jumpTests l)).ending = endingAt (misfit? (jumpTargets l)) :=
  ending_tests (fun t ↦ [t, .op .jmp, .op .halt, .op .halt])
    [fun t ↦ [.literal 0, t, .op .jz, .op .halt, .op .halt],
      fun t ↦ [.literal 1, t, .op .jz, .op .halt, .op .halt]] (jumpTargets l)

theorem ending_dataTests (l : Layout) :
    (Attempt.ofList (dataTests l)).ending = endingAt (misfit? (dataAddresses l)) :=
  ending_tests (fun a ↦ [a, .op .load, .op .prn, .op .halt])
    [fun a ↦ [.literal 7, a, .op .stor, a, .op .load, .op .prn, .op .halt]] (dataAddresses l)

/-- **A suite ends at the first misfit among its targets and addresses,** whatever its
expressions. -/
theorem ending_suite (maxDepth : Int) (l : Layout) :
    (suite maxDepth l).ending = endingAt (misfit? (jumpTargets l ++ dataAddresses l)) := by
  rw [suite, edgeTests, Attempt.ending_ofList_append, Attempt.ending_ofList_append,
    ending_jumpTests, ending_dataTests, Attempt.ofList_map_ok, misfit?_append]
  cases misfit? (jumpTargets l) with
  | some value => rfl
  | none => cases misfit? (dataAddresses l) <;> rfl

/-! ### Which numbers fit -/

theorem misfit?_eq_none_iff {values : List Int} :
    misfit? values = none ↔ ∀ value ∈ values, 0 ≤ value ∧ value < 0x40000000 := by
  simp only [misfit?, List.find?_eq_none, Payload.isNone_ofInt?_iff, not_or, Int.not_lt,
    Int.not_le]

theorem misfit?_jumpTargets (h : l.memSize < 0x3FFFFFFF) :
    misfit? (jumpTargets l) = if 2 ≤ l.instructionCapacity then none else some (-1) := by
  have hcapacity : 1 ≤ l.instructionCapacity ∧ l.instructionCapacity ≤ l.memSize := by
    have hlt := l.stackLimit_lt
    have hle := l.dataBase_le
    unfold Layout.instructionCapacity
    omega
  split
  · next htwo =>
    rw [misfit?_eq_none_iff]
    simp only [jumpTargets, List.forall_mem_cons, List.not_mem_nil, false_implies, implies_true,
      and_true]
    omega
  · next hone =>
    have hcapacity : l.instructionCapacity = 1 := by omega
    rw [jumpTargets, hcapacity]
    rfl

theorem misfit?_dataAddresses (h : l.memSize < 0x3FFFFFFF) :
    misfit? (dataAddresses l) = if 1 ≤ l.dataSize then none else some (-1) := by
  have hsize : l.dataSize ≤ l.memSize := Nat.sub_le _ _
  split
  · next hone =>
    rw [misfit?_eq_none_iff]
    simp only [dataAddresses, List.forall_mem_cons, List.not_mem_nil, false_implies, implies_true,
      and_true]
    omega
  · next hnone =>
    have hsize : l.dataSize = 0 := by omega
    rw [dataAddresses, hsize]
    rfl

/-- **The layouts whose suite can be read to its end.** There has to be room for two instructions
and for a word of program data. The suite of any other layout breaks off at the literal of minus
one, whatever the depth of its expressions. -/
theorem suite_ends (maxDepth : Int) (h : l.memSize < 0x3FFFFFFF) :
    (suite maxDepth l).ending =
      if 2 ≤ l.instructionCapacity ∧ 1 ≤ l.dataSize then .ok ()
      else .error (.literalRange (-1)) := by
  rw [ending_suite, misfit?_append, misfit?_jumpTargets h, misfit?_dataAddresses h]
  by_cases htwo : 2 ≤ l.instructionCapacity
  · by_cases hone : 1 ≤ l.dataSize
    · rw [if_pos htwo, if_pos hone, if_pos ⟨htwo, hone⟩]
      rfl
    · rw [if_pos htwo, if_neg hone, if_neg fun hboth ↦ hone hboth.2]
      rfl
  · have hnot : ¬(2 ≤ l.instructionCapacity ∧ 1 ≤ l.dataSize) := fun hboth ↦ htwo hboth.1
    rw [if_neg htwo, if_neg hnot]
    rfl

/-- The smallest layout whose suite can be read to its end. -/
theorem suite_ends_smallest :
    let l : Layout := ⟨4, 1, 3, by decide, by decide, by decide⟩
    l.memSize < 0x3FFFFFFF ∧ (suite 0 l).ending = .ok () := by
  intro l
  exact ⟨by decide, suite_ends 0 (l := l) (by decide)⟩

/-- No program data, or room for one instruction only. -/
theorem suite_breaks_off :
    (suite 0 ⟨10, 5, 10, by decide, by decide, by decide⟩).ending =
        .error (.literalRange (-1)) ∧
      (suite 0 ⟨3, 1, 2, by decide, by decide, by decide⟩).ending =
        .error (.literalRange (-1)) :=
  ⟨rfl, rfl⟩

end Enumerate

end TaggedStack
