import TaggedStack.Memory

/-!
# The evaluation stack

A stack is a memory and a pointer into its stack region: the address of the top value, zero
for the empty stack. Pushing advances the pointer and then writes, so a value that is no
machine word leaves the pointer advanced. A popped word stays in memory above the pointer.

* `Stack.push`: the stack afterwards, together with how pushing ended.
* `Stack.pushed`: the same for callers that give a failed stack up.
* `Stack.pushed_eq_ok_iff`, `Stack.pop_eq_ok_iff`: when the two go through, and to what.
-/

namespace TaggedStack

/-- A memory with a pointer into its stack region. The pointer may be any integer; an access
through one that is out of range is refused. -/
structure Stack where
  memory : Memory
  pointer : Int

namespace Stack

/-- Advances the pointer and writes a value there. -/
def push (s : Stack) (value : Int) : Attempt Stack Failure Unit :=
  let next := s.pointer + 1
  if s.memory.layout.Admits .stack next then
    match s.memory.write .stack next value with
    | .ok memory => .succeed ⟨memory, next⟩ ()
    | .error e => .fail { s with pointer := next } e
  else .fail s (s.memory.layout.rejection .stack next)

/-- The stack with a value on top. -/
def pushed (s : Stack) (value : Int) : Except Failure Stack := (s.push value).toExcept

/-- The top value. -/
def peek (s : Stack) : Except Failure Int := s.memory.read .stack s.pointer

/-- The top value and the stack below it. -/
def pop (s : Stack) : Except Failure (Int × Stack) :=
  match s.peek with
  | .ok value => .ok (value, { s with pointer := s.pointer - 1 })
  | .error e => .error e

/-- The values at `count` stack addresses from `address` on. -/
def valuesFrom (m : Memory) (address : Int) : (count : Nat) → Except Failure (List Int)
  | 0 => .ok []
  | count + 1 =>
    match m.read .stack address with
    | .ok value => (value :: ·) <$> valuesFrom m (address + 1) count
    | .error e => .error e

/-- The values from bottom to top; none if the pointer is not positive. -/
def items (s : Stack) : Except Failure (List Int) := valuesFrom s.memory 1 s.pointer.toNat

/-- Pushing goes through for machine words while the stack has room. -/
theorem pushed_eq_ok_iff {s t : Stack} {value : Int} :
    s.pushed value = .ok t ↔
      s.memory.layout.Admits .stack (s.pointer + 1) ∧ IsWord value ∧
        t = ⟨s.memory.set (s.pointer + 1) value, s.pointer + 1⟩ := by
  unfold pushed push
  by_cases ha : s.memory.layout.Admits .stack (s.pointer + 1)
  · by_cases hv : IsWord value
    · have hw : s.memory.write .stack (s.pointer + 1) value =
          .ok (s.memory.set (s.pointer + 1) value) :=
        Memory.write_eq_ok_iff.2 ⟨hv, ha, rfl⟩
      simp [ha, hv, hw, eq_comm]
    · have hw : s.memory.write .stack (s.pointer + 1) value = .error (.wordRange value) := by
        simp [Memory.write, Memory.refusal, hv]
      simp [ha, hv, hw]
  · simp [ha]

/-- Popping goes through when the pointer is at a value. -/
theorem pop_eq_ok_iff {s t : Stack} {value : Int} :
    s.pop = .ok (value, t) ↔
      s.memory.layout.Admits .stack s.pointer ∧ s.memory.get s.pointer = value ∧
        t = ⟨s.memory, s.pointer - 1⟩ := by
  unfold pop peek Memory.read
  by_cases ha : s.memory.layout.Admits .stack s.pointer <;> simp [ha, eq_comm]

end Stack

end TaggedStack
