import TaggedStack.Proofs.Actions
import TaggedStack.Proofs.Regions
import TaggedStack.Stack

/-!
# Calls on a stack

A stack is asked for one thing after another, and keeps what each call made of it, also a call that
failed. So the order of a call's parts counts: a pop reads before it moves the pointer, and a push
moves the pointer before it writes. `Stack.Call.perform` carries out the parts in place, one by one.

A call that fails has written nothing. Most failed calls leave the pointer alone too; the one
exception is a push that finds room and then a value that is no machine word. Its pointer stays
advanced, over whatever word was there.

* `Stack.serve_push`, `Stack.serve_pop`, `Stack.serve_peek`, `Stack.serve_items`: a call carried out
  in place is the operation of the same name.
* `Stack.items_eq`: the values of a stack whose pointer is in range.
* `Stack.serve_error_cases`: what a call can fail for, and what it leaves.
* `Stack.failed_call_leaves`: when a failed call leaves the stack as it was.
-/

namespace TaggedStack.Stack

variable {s : Stack} {value : Int}

/-! ### Calls in place -/

/-- What a stack can be asked for. -/
inductive Call
  | push (value : Int)
  | pop
  | peek
  | items
  deriving DecidableEq, Repr

/-- What a stack answers. -/
inductive Answer
  | done
  | value (v : Int)
  | values (vs : List Int)
  deriving DecidableEq, Repr

/-- The parts of a call, in their order. -/
def Call.perform : Call → Action Stack Answer
  | .push value => do
    let next := (← get).pointer + 1
    Action.check (← get).memory.layout .stack next
    modify fun s ↦ { s with pointer := next }
    let memory ← Action.demand ((← get).memory.write .stack next value)
    modify fun s ↦ { s with memory := memory }
    return .done
  | .pop => do
    let value ← Action.demand (← get).peek
    modify fun s ↦ { s with pointer := s.pointer - 1 }
    return .value value
  | .peek => do
    let value ← Action.demand (← get).peek
    return .value value
  | .items => do
    let values ← Action.demand (← get).items
    return .values values

/-- The stack after a call, and its answer. -/
def serve (s : Stack) (c : Call) : Attempt Stack Failure Answer := c.perform.attempt s

/-- A push in place: the pointer is advanced by the time the value is written. -/
theorem perform_push (s : Stack) (value : Int) :
    (Call.push value).perform s =
      if s.memory.layout.Admits .stack (s.pointer + 1) then
        match s.memory.write .stack (s.pointer + 1) value with
        | .ok memory => .ok .done ⟨memory, s.pointer + 1⟩
        | .error e => .error e ⟨s.memory, s.pointer + 1⟩
      else .error (s.memory.layout.rejection .stack (s.pointer + 1)) s := by
  have hparts : (Call.push value).perform s =
    (Action.check s.memory.layout .stack (s.pointer + 1) >>= _ : Action Stack Answer) s := rfl
  rw [hparts, Action.check_bind]
  refine ite_congr rfl (fun _ ↦ ?_) fun _ ↦ rfl
  show (Action.demand (s.memory.write .stack (s.pointer + 1) value) >>= _ : Action Stack Answer)
    ⟨s.memory, s.pointer + 1⟩ = _
  rw [Action.demand_bind]
  cases s.memory.write .stack (s.pointer + 1) value <;> rfl

/-- A push in place is a push. -/
theorem serve_push (s : Stack) (value : Int) :
    s.serve (.push value) =
      ⟨(s.push value).after, (s.push value).ending.map fun _ ↦ .done⟩ := by
  rw [serve, Action.attempt, perform_push, push]
  by_cases hadmits : s.memory.layout.Admits .stack (s.pointer + 1)
  · simp only [if_pos hadmits]
    cases s.memory.write .stack (s.pointer + 1) value <;> rfl
  · simp only [if_neg hadmits]
    rfl

/-- A pop in place is a pop, and leaves the stack alone if there is nothing to pop. -/
theorem serve_pop (s : Stack) :
    s.serve .pop =
      match s.pop with
      | .ok (value, t) => .succeed t (.value value)
      | .error e => .fail s e := by
  have hparts : Call.pop.perform s = (Action.demand s.peek >>= _ : Action Stack Answer) s := rfl
  rw [serve, Action.attempt, hparts, Action.demand_bind, pop]
  cases s.peek <;> rfl

theorem serve_peek (s : Stack) : s.serve .peek = ⟨s, s.peek.map .value⟩ := by
  have hparts : Call.peek.perform s = (Action.demand s.peek >>= _ : Action Stack Answer) s := rfl
  rw [serve, Action.attempt, hparts, Action.demand_bind]
  cases s.peek <;> rfl

theorem serve_items (s : Stack) : s.serve .items = ⟨s, s.items.map .values⟩ := by
  have hparts : Call.items.perform s = (Action.demand s.items >>= _ : Action Stack Answer) s := rfl
  rw [serve, Action.attempt, hparts, Action.demand_bind]
  cases s.items <;> rfl

/-! ### The values of a stack -/

theorem valuesFrom_eq {m : Memory} {address : Int} {count : Nat}
    (h : ∀ i : Nat, i < count → m.layout.Admits .stack (address + i)) :
    valuesFrom m address count =
      .ok ((List.range count).map fun i : Nat ↦ m.get (address + i)) := by
  induction count generalizing address with
  | zero => rfl
  | succ count ih =>
    have hfirst : m.read .stack address = .ok (m.get address) :=
      Memory.read_eq_ok_iff.2 ⟨by simpa using h 0 (Nat.zero_lt_succ count), rfl⟩
    have hshift : ∀ i : Nat, address + 1 + i = address + (i + 1 : Nat) := by omega
    have hrest : valuesFrom m (address + 1) count = _ := ih fun i hi ↦ by
      rw [hshift]
      exact h (i + 1) (Nat.succ_lt_succ hi)
    simp only [valuesFrom, hfirst, hrest, List.range_succ_eq_map, List.map_cons, List.map_map,
      hshift]
    simp [Function.comp_def, Functor.map, Except.map]

/-- The values of a stack whose pointer is in range are the words up to the pointer. -/
theorem items_eq (h : s.pointer ≤ s.memory.layout.stackCapacity) :
    s.items = .ok (s.memory.stackWords s.pointer.toNat) := by
  have hadmits : ∀ i : Nat, i < s.pointer.toNat → s.memory.layout.Admits .stack (1 + i) := by
    intro i hi
    rw [Layout.admits_stack_iff]
    unfold Layout.stackCapacity at h
    omega
  rw [items, valuesFrom_eq hadmits, Memory.stackWords]
  simp only [Int.add_comm 1]

/-! ### Failed calls -/

/-- A push that finds room on the stack, and a value that is no machine word. -/
def Call.Oversteps (c : Call) (s : Stack) : Prop :=
  ∃ value, c = .push value ∧ ¬IsWord value ∧ s.pointer < s.memory.layout.stackCapacity

/-- Room on the stack is an address for the next value. -/
theorem admits_next_iff (hlow : 0 ≤ s.pointer) :
    s.memory.layout.Admits .stack (s.pointer + 1) ↔
      s.pointer < s.memory.layout.stackCapacity := by
  have hpos := s.memory.layout.stackLimit_pos
  rw [Layout.admits_stack_iff, Layout.stackCapacity]
  omega

/-- A push fails without room, or for its value once the pointer is advanced. -/
theorem push_eq (s : Stack) (value : Int) :
    s.push value =
      if s.memory.layout.Admits .stack (s.pointer + 1) then
        if IsWord value then .succeed ⟨s.memory.set (s.pointer + 1) value, s.pointer + 1⟩ ()
        else .fail ⟨s.memory, s.pointer + 1⟩ (.wordRange value)
      else .fail s (s.memory.layout.rejection .stack (s.pointer + 1)) := by
  refine ite_congr rfl (fun hadmits ↦ ?_) fun _ ↦ rfl
  rw [Memory.write_eq_ite, if_neg (not_not_intro hadmits)]
  by_cases hvalue : IsWord value
  · rw [if_neg (not_not_intro hvalue), if_pos hvalue]
  · rw [if_pos hvalue, if_neg hvalue]

/-- A pointer up to the end of the stack region is named when it is rejected. -/
theorem rejection_of_le (hlow : 0 ≤ s.pointer) {address : Int} (hle : s.pointer ≤ address)
    (hhigh : address ≤ s.memory.layout.stackLimit) :
    s.memory.layout.rejection .stack address = .outOfBounds .stack address := by
  have := s.memory.layout.stackLimit_lt
  have := s.memory.layout.dataBase_le
  exact Layout.rejection_of_reach (by omega) (by omega)

/-- Only the address of the top value can make reading it fail. -/
theorem eq_of_peek_error {e : Failure} (h : s.peek = .error e) :
    e = s.memory.layout.rejection .stack s.pointer := by
  unfold peek Memory.read at h
  split at h
  · cases h
  · exact (Except.error.inj h).symm

/-- What a call can fail for, and what it leaves. -/
theorem serve_error_cases (hlow : 0 ≤ s.pointer)
    (hhigh : s.pointer ≤ s.memory.layout.stackCapacity) {c : Call} {e : Failure}
    (h : (s.serve c).ending = .error e) :
    ((s.serve c).after = s ∧ ¬c.Oversteps s ∧ ∃ address, e = .outOfBounds .stack address) ∨
      ((s.serve c).after = ⟨s.memory, s.pointer + 1⟩ ∧ c.Oversteps s ∧
        ∃ value, e = .wordRange value) := by
  have hcapacity : s.memory.layout.stackCapacity = s.memory.layout.stackLimit - 1 := rfl
  have hpos := s.memory.layout.stackLimit_pos
  -- The pointer and the address above it are both within the stack region or at its end.
  have htop := rejection_of_le hlow (Int.le_refl s.pointer) (by omega)
  have hnext : s.memory.layout.rejection .stack (s.pointer + 1) = _ :=
    rejection_of_le hlow (by omega) (by omega)
  cases c with
  | push value =>
    have hroom := admits_next_iff hlow
    rw [serve_push, push_eq] at h ⊢
    by_cases hadmits : s.memory.layout.Admits .stack (s.pointer + 1)
    · by_cases hvalue : IsWord value
      · rw [if_pos hadmits, if_pos hvalue] at h
        cases h
      · rw [if_pos hadmits, if_neg hvalue] at h ⊢
        exact .inr ⟨rfl, ⟨value, rfl, hvalue, hroom.1 hadmits⟩, value, (Except.error.inj h).symm⟩
    · rw [if_neg hadmits, hnext] at h ⊢
      refine .inl ⟨rfl, ?_, _, (Except.error.inj h).symm⟩
      rintro ⟨_, -, -, hfree⟩
      exact hadmits (hroom.2 hfree)
  | pop =>
    rw [serve_pop, pop] at h ⊢
    cases hpeek : s.peek with
    | ok value => rw [hpeek] at h; cases h
    | error e' =>
      rw [hpeek] at h
      cases h
      exact .inl ⟨rfl, by rintro ⟨_, ⟨⟩, -⟩, _, (eq_of_peek_error hpeek).trans htop⟩
  | peek =>
    rw [serve_peek] at h ⊢
    cases hpeek : s.peek with
    | ok value => rw [hpeek] at h; cases h
    | error e' =>
      rw [hpeek] at h
      cases h
      exact .inl ⟨rfl, by rintro ⟨_, ⟨⟩, -⟩, _, (eq_of_peek_error hpeek).trans htop⟩
  | items =>
    rw [serve_items, items_eq hhigh] at h
    cases h

/-- **What a failed call leaves.** Memory is as it was. The pointer, and with it the values on the
stack, are as they were too, unless the call was a push that had room and no machine word to put
there: then the stack has one more value, the word that was above it. -/
theorem failed_call_leaves (hlow : 0 ≤ s.pointer)
    (hhigh : s.pointer ≤ s.memory.layout.stackCapacity) {c : Call} {e : Failure}
    (h : (s.serve c).ending = .error e) :
    (s.serve c).after.memory = s.memory ∧
      (¬c.Oversteps s →
        (s.serve c).after.pointer = s.pointer ∧ (s.serve c).after.items = s.items) ∧
      (c.Oversteps s →
        (s.serve c).after.pointer = s.pointer + 1 ∧
          (s.serve c).after.items =
            (· ++ [s.memory.get (s.pointer + 1)]) <$> s.items) := by
  rcases serve_error_cases hlow hhigh h with ⟨hafter, hno, -⟩ | ⟨hafter, hyes, -⟩
  · rw [hafter]
    exact ⟨rfl, fun _ ↦ ⟨rfl, rfl⟩, fun hyes ↦ absurd hyes hno⟩
  · rw [hafter]
    refine ⟨rfl, fun hno ↦ absurd hyes hno, fun _ ↦ ⟨rfl, ?_⟩⟩
    obtain ⟨_, -, -, hroom⟩ := hyes
    have hnext : (s.pointer + 1).toNat = s.pointer.toNat + 1 := by omega
    have hcast : ((s.pointer.toNat : Nat) : Int) = s.pointer := Int.toNat_of_nonneg hlow
    have hafter' : (⟨s.memory, s.pointer + 1⟩ : Stack).items =
        .ok (s.memory.stackWords (s.pointer + 1).toNat) :=
      items_eq (Int.add_one_le_of_lt hroom)
    rw [hafter', items_eq hhigh, hnext, Memory.stackWords_succ, hcast]
    rfl

/-- A word for a stack that is full, of eight and nine. -/
theorem failed_call_leaves_full :
    let full : Stack := ⟨⟨⟨5, 3, 4, by decide, by decide, by decide⟩, #[0, 8, 9, 0, 0], rfl⟩, 2⟩
    full.items = .ok [8, 9] ∧
      (full.serve (.push 7)).ending = .error (.outOfBounds .stack 3) ∧
      (full.serve (.push 7)).after.memory = full.memory ∧
      (full.serve (.push 7)).after.pointer = 2 ∧
      (full.serve (.push 7)).after.items = .ok [8, 9] := by
  intro full
  have hitems : full.items = .ok [8, 9] := rfl
  have hfail : (full.serve (.push 7)).ending = .error (.outOfBounds .stack 3) := rfl
  obtain ⟨hmemory, hsame, -⟩ := failed_call_leaves (by decide) (by decide) hfail
  have hno : ¬(Call.push 7).Oversteps full := by
    rintro ⟨_, -, -, hroom⟩
    exact Int.lt_irrefl 2 hroom
  obtain ⟨hpointer, hafter⟩ := hsame hno
  exact ⟨hitems, hfail, hmemory, hpointer, hafter.trans hitems⟩

/-- A value that is no machine word is refused by an empty stack, which holds a zero from then
on. -/
theorem refused_value_is_counted :
    let empty : Stack := ⟨Memory.blank ⟨4, 2, 3, by decide, by decide, by decide⟩, 0⟩
    empty.items = .ok [] ∧ (empty.push (-1)).ending = .error (.wordRange (-1)) ∧
      (empty.push (-1)).after.pointer = 1 ∧ (empty.push (-1)).after.items = .ok [0] :=
  ⟨rfl, rfl, rfl, rfl⟩

end TaggedStack.Stack
